import ForeignCall.Proofs.Planning.SameTypes

/-!
# The qualifier of the own namespace

Inside its namespace a type may be named with the namespace in front of it or without.
`TypeName.Respelled` says that two names differ in nothing but that, and `Callable.Respelled` that
two declarations do, in as many of their names as one likes.  A name that spells a keyword is no
name of the namespace any more once it is qualified, so keywords are kept as they are
(`TypeName.RespelledType`); what a container is called is never read as a keyword.

Following aliases keeps the relation (`TypeName.RespelledType.followAliases`): the first link of a
chain drops the spelling of the name it starts from, and a chain that is given up, or has no link at
all, hands back the spelling that it was given.  So both spellings end at names that are looked up
and localised to the same, and `Planner.planning_eq_of_respelled` is the result.
-/

namespace ForeignCall

/-! ### Two spellings of one declaration -/

/-- The second name is the first, with the namespace in front of it or as it was. -/
inductive TypeName.Respelled (space : String) : TypeName → TypeName → Prop
  | kept (name : TypeName) : Respelled space name name
  | qualified (name : String) : Respelled space (.unqualified name) (.qualified space name)

/-- The second name is the first, with the namespace in front of it or as it was; a keyword is
kept. -/
structure TypeName.RespelledType (space : String) (name other : TypeName) : Prop where
  respelled : name.Respelled space other
  keyword : name.keyword? = none ∨ name = other

/-- The second shape is the first with names spelled otherwise. -/
inductive Shape.Respelled (space : String) : Shape → Shape → Prop
  | scalar {name other : TypeName} (hname : name.RespelledType space other) :
      Respelled space (.scalar name) (.scalar other)
  | array {spec : ArraySpec} {element : TypeName} {container : Option TypeName}
      (helement : spec.element.RespelledType space element)
      (hcontainer : Option.Rel (TypeName.Respelled space) spec.container container) :
      Respelled space (.array spec)
        (.array { spec with element := element, container := container })

/-- The second parameter is the first with a shape that is spelled otherwise. -/
structure Parameter.Respelled (space : String) (a b : Parameter) : Prop where
  eq : b = { a with shape := b.shape }
  shape : Option.Rel (Shape.Respelled space) a.shape b.shape

/-- The second return value is the first with a shape that is spelled otherwise. -/
structure ReturnValue.Respelled (space : String) (a b : ReturnValue) : Prop where
  eq : b = { a with shape := b.shape }
  shape : Option.Rel (Shape.Respelled space) a.shape b.shape

/-- The second callable is the first with types that are spelled otherwise. -/
structure Callable.Respelled (space : String) (c d : Callable) : Prop where
  eq : d = { c with receiver := d.receiver, params := d.params, result := d.result }
  receiver : Option.Rel (Parameter.Respelled space) c.receiver d.receiver
  params : List.Forall₂ (Parameter.Respelled space) c.params d.params
  result : c.result.Respelled space d.result

/-! ### Names -/

namespace TypeName

variable {r : Registry} {name other : TypeName}

namespace Respelled

/-- Both spellings are localised to the same name. -/
theorem localize_eq (h : name.Respelled r.space other) : r.localize name = r.localize other := by
  cases h with
  | kept => rfl
  | qualified name =>
    simp [Registry.localize, localized, isIn, TypeName.unqualified, TypeName.qualified]

/-- Both spellings denote the same entity. -/
theorem lookup_eq (h : name.Respelled r.space other) : r.lookup name = r.lookup other := by
  cases h with
  | kept => rfl
  | qualified name =>
    simp [Registry.lookup, Registry.owns, isIn, TypeName.unqualified, TypeName.qualified]

/-- Both spellings are aliases of the same name, or neither is one. -/
theorem target?_eq (h : name.Respelled r.space other) : r.target? name = r.target? other := by
  rw [Registry.target?, Registry.target?, h.lookup_eq]

end Respelled

namespace RespelledType

/-- A name is a spelling of itself. -/
theorem refl (space : String) (name : TypeName) : name.RespelledType space name :=
  ⟨.kept name, .inr rfl⟩

/-- Two spellings lead to one name through aliases, or each to itself. -/
theorem followAliases (h : name.RespelledType r.space other) :
    (r.followAliases name).RespelledType r.space (r.followAliases other) := by
  have htarget := h.respelled.target?_eq
  cases hname : r.target? name with
  | none =>
    rw [Registry.followAliases_of_target?_eq_none hname,
      Registry.followAliases_of_target?_eq_none (htarget ▸ hname)]
    exact h
  | some target =>
    have hother : r.target? other = some target := htarget ▸ hname
    obtain ⟨depth, hdepth⟩ : ∃ depth, maxAliasDepth = depth + 1 := ⟨63, rfl⟩
    rw [Registry.followAliases, Registry.followAliases, hdepth, Registry.chase_succ,
      Registry.chase_succ, hname, hother]
    dsimp only
    cases r.chase depth target with
    | none => exact h
    | some terminal => exact .refl r.space terminal

/-- Both spellings of a name that is no alias have the same class. -/
theorem classify_eq (h : name.RespelledType r.space other) :
    r.classify name = r.classify other := by
  rcases h.keyword with hkeyword | rfl
  · have hother : other.keyword? = none := by
      cases h.respelled with
      | kept => exact hkeyword
      | qualified name => rfl
    rw [Registry.classify, Registry.classify, hkeyword, hother, h.respelled.lookup_eq,
      h.respelled.localize_eq]
  · rfl

/-- Both spellings have the same class. -/
theorem resolve_eq (h : name.RespelledType r.space other) : r.resolve name = r.resolve other :=
  h.followAliases.classify_eq

/-- Both spellings denote the same enumeration. -/
theorem enumeration?_eq (h : name.RespelledType r.space other) :
    r.enumeration? name = r.enumeration? other := by
  rw [Registry.enumeration?, Registry.enumeration?, h.followAliases.respelled.lookup_eq,
    h.followAliases.respelled.localize_eq]

end RespelledType

end TypeName

/-! ### Declarations -/

/-- What holds of related values holds of optional ones. -/
theorem rel_of_imp {α β : Type} {R S : α → β → Prop} (himp : ∀ a b, R a b → S a b) {a? : Option α}
    {b? : Option β} (h : Option.Rel R a? b?) : Option.Rel S a? b? := by
  cases h with
  | none => exact .none
  | some h => exact .some (himp _ _ h)

namespace Planner

variable {p : Planner}

/-- A shape is planned alike in both spellings. -/
theorem alikeShapes_of_respelled {shape shape' : Shape}
    (h : shape.Respelled p.registry.space shape') : p.AlikeShapes p shape shape' := by
  cases h with
  | scalar hname =>
    constructor
    case conversion_eq =>
      rw [conversion, conversion, ofName, ofName, hname.resolve_eq, hname.enumeration?_eq]
    case slot_eq =>
      rw [Signature.shapeSlot, Signature.shapeSlot, Registry.resolveShape, Registry.resolveShape,
        hname.resolve_eq]
  | @array spec element container helement hcontainer =>
    generalize hspec : spec.container = container₀ at hcontainer
    cases hcontainer with
    | none =>
      constructor
      case conversion_eq =>
        simp only [conversion, hspec, ofElement, helement.resolve_eq, helement.enumeration?_eq]
      case slot_eq =>
        simp only [Signature.shapeSlot, Registry.resolveShape, hspec, helement.resolve_eq]
    | some hname =>
      constructor
      case conversion_eq => simp only [conversion, hspec, hname.localize_eq]
      case slot_eq =>
        simp only [Signature.shapeSlot, Registry.resolveShape, hspec, hname.localize_eq]

/-- A parameter is planned alike in both spellings. -/
theorem alikeParams_of_respelled {a b : Parameter} (h : a.Respelled p.registry.space b) :
    p.AlikeParams p a b := by
  rw [h.eq]
  exact ⟨rfl, rfl, rfl, rfl, rel_of_imp (fun _ _ => alikeShapes_of_respelled) h.shape⟩

/-- A constructor returns the same type in both spellings. -/
theorem constructed_eq_of_respelled {c d : Callable} (h : c.Respelled p.registry.space d) :
    p.constructed c = p.constructed d := by
  have hshape := h.result.shape
  have howner : c.owner = d.owner := by rw [h.eq]
  unfold constructed
  rw [howner]
  generalize c.result.shape = s at hshape ⊢
  generalize d.result.shape = s' at hshape ⊢
  cases d.owner with
  | some owner => rfl
  | none =>
    cases hshape with
    | none => rfl
    | some hs =>
      cases hs with
      | scalar hname => exact congrArg Except.ok hname.respelled.localize_eq
      | array => rfl

/-- A callable is planned alike in both spellings. -/
theorem alikeCallables_of_respelled {c d : Callable} (h : c.Respelled p.registry.space d) :
    p.AlikeCallables p c d := by
  constructor
  case receiver => exact rel_of_imp (fun _ _ => alikeParams_of_respelled) h.receiver
  case params => exact h.params.imp fun _ _ => alikeParams_of_respelled
  case constructed_eq =>
    intro _
    rw [planConstructed, planConstructed, constructed_eq_of_respelled h, h.result.eq]
  case result =>
    intro _
    rw [h.result.eq]
    exact ⟨rfl, rfl, rel_of_imp (fun _ _ => alikeShapes_of_respelled) h.result.shape⟩
  all_goals rw [h.eq]

/-- Whether types are named with their own namespace in front makes no difference: a callable has
the same signature and the same plan, or the same errors, in both spellings. -/
theorem planning_eq_of_respelled {c d : Callable} (h : c.Respelled p.registry.space d) :
    Signature.ofCallable p.registry p.platform c = Signature.ofCallable p.registry p.platform d ∧
      p.plan c = p.plan d := by
  have halike : p.AlikeCallables p c d := alikeCallables_of_respelled h
  exact ⟨halike.signature_eq, halike.plan_eq rfl⟩

end Planner

/-! ### A declaration to look at -/

/-- A constructor without an owner, from an alias, a text and a boxed array of an enumeration; its
names are spelled as given. -/
def Sample.make (spell : String → TypeName) : Callable :=
  { function "make"
      [{ parameter "shade" "Shade" .input with shape := some (.scalar (spell "Shade")) },
        parameter "label" "utf8" .input,
        { parameter "items" "Items" .input with
          shape := some (.array ⟨spell "Color", .unknown, some (spell "Items"), none⟩) }] with
    kind := .constructor
    result := ⟨some (.scalar (spell "Widget")), .full, false⟩ }

/-- With and without the namespace in front, the constructor is spelled in two ways. -/
theorem Sample.make_respelled (space : String) :
    (make .unqualified).Respelled space (make (.qualified space)) := by
  have hspelled (name : String) (hname : BasicType.ofKeyword? name = none) :
      (TypeName.unqualified name).RespelledType space (.qualified space name) :=
    ⟨.qualified name, .inl hname⟩
  have hshade := hspelled "Shade" (by decide)
  have hcolor := hspelled "Color" (by decide)
  constructor
  case eq => rfl
  case receiver => exact .none
  case params =>
    refine .cons ⟨rfl, .some (.scalar hshade)⟩ (.cons ⟨rfl, .some (.scalar (.refl space _))⟩ ?_)
    exact .cons ⟨rfl, .some (.array hcolor (.some (.qualified "Items")))⟩ .nil
  case result => exact ⟨rfl, .some (.scalar (hspelled "Widget" (by decide)))⟩

/-- The constructor is planned, and its plan is the same when its types are qualified. -/
theorem Planner.planning_eq_of_respelled_sample :
    ∃ r plan, Registry.ofModel Sample.shades = .ok r ∧
      (Sample.make .unqualified).Respelled r.space (Sample.make (.qualified r.space)) ∧
      Sample.make .unqualified ≠ Sample.make (.qualified r.space) ∧
      Planner.plan ⟨r, .reference, .standard⟩ (Sample.make .unqualified) = .ok plan ∧
      Planner.plan ⟨r, .reference, .standard⟩ (Sample.make (.qualified r.space)) = .ok plan := by
  refine ⟨_, _, rfl, Sample.make_respelled _, by decide, rfl, ?_⟩
  exact (@planning_eq_of_respelled ⟨_, .reference, .standard⟩ _ _
    (Sample.make_respelled _)).2.symm

end ForeignCall
