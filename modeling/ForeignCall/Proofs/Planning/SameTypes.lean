import ForeignCall.Proofs.Planning
import ForeignCall.Proofs.Planning.Alike
import ForeignCall.Proofs.Resolution.AliasChains

/-!
# Namespaces that declare the same types

Planning asks a registry little: what an alias stands for, which enumeration a name denotes, and
whether a name is that of a callback.  A record and a name that is not known at all are both handled
through their address.  `Registry.LooksLike` says that two registries give the same answers; then
they follow aliases to the same names and resolve every name alike
(`Registry.LooksLike.resolve_eq`), so that all declarations are planned alike.

The answers of a registry that was made from a model depend only on which aliases, enumerations and
names of callbacks the model has (`Registry.bind_alias?_eq_some_iff` and its companions), not on
their order and not on the rest of the model.  `Model.planning_eq_of_sameTypes` is the result.
-/

namespace ForeignCall

namespace Registry

variable {r r' : Registry}

/-! ### What planning asks of one registry -/

/-- The enumeration that a name denotes through aliases is that of the name which these lead to. -/
theorem enumeration?_eq (r : Registry) (name : TypeName) :
    r.enumeration? name =
      ((r.lookup (r.followAliases name)).bind Entity.enumeration?).map
        (r.localize (r.followAliases name), ·) := by
  rw [enumeration?]
  rcases r.lookup (r.followAliases name) with _ | ⟨_ | _ | _ | _⟩ <;> rfl

/-- A name that is no keyword is told by whether it denotes an enumeration or a callback. -/
theorem classify_eq (r : Registry) (name : TypeName) :
    r.classify name =
      match name.keyword? with
      | some type => .basic type
      | none =>
        if ((r.lookup name).bind Entity.enumeration?).isSome then .basic .int32
        else if ((r.lookup name).bind Entity.callback?).isSome then .callback (r.localize name)
        else .object (r.localize name) := by
  rw [classify]
  rcases r.lookup name with _ | ⟨_ | _ | _ | _⟩ <;> rfl

/-! ### Registries that planning cannot tell apart -/

/-- The registries are of one namespace, and say the same of aliases and enumerations and of which
names are those of callbacks. -/
structure LooksLike (r r' : Registry) : Prop where
  space_eq : r.space = r'.space
  target?_eq : ∀ name, r.target? name = r'.target? name
  enumeration_eq : ∀ name,
    (r.lookup name).bind Entity.enumeration? = (r'.lookup name).bind Entity.enumeration?
  callback_eq : ∀ name, ((r.lookup name).bind Entity.callback?).isSome =
    ((r'.lookup name).bind Entity.callback?).isSome

namespace LooksLike

theorem localize_eq (h : r.LooksLike r') (name : TypeName) :
    r.localize name = r'.localize name := by
  rw [localize, localize, h.space_eq]

theorem chase_eq (h : r.LooksLike r') (depth : Nat) (name : TypeName) :
    r.chase depth name = r'.chase depth name := by
  induction depth generalizing name with
  | zero => rfl
  | succ depth ih =>
    rw [chase_succ, chase_succ, h.target?_eq]
    cases r'.target? name with
    | none => rfl
    | some target => exact ih target

/-- Aliases lead to the same names. -/
theorem followAliases_eq (h : r.LooksLike r') (name : TypeName) :
    r.followAliases name = r'.followAliases name := by
  rw [followAliases, followAliases, h.chase_eq]

/-- Names denote the same enumerations through aliases. -/
theorem enumeration?_eq (h : r.LooksLike r') (name : TypeName) :
    r.enumeration? name = r'.enumeration? name := by
  rw [r.enumeration?_eq, r'.enumeration?_eq, h.followAliases_eq, h.enumeration_eq, h.localize_eq]

/-- Names resolve to the same classes. -/
theorem resolve_eq (h : r.LooksLike r') (name : TypeName) : r.resolve name = r'.resolve name := by
  rw [resolve, resolve, h.followAliases_eq, r.classify_eq, r'.classify_eq, h.enumeration_eq,
    h.callback_eq, h.localize_eq]

/-- Shapes resolve alike. -/
theorem resolveShape_eq (h : r.LooksLike r') (shape : Shape) :
    r.resolveShape shape = r'.resolveShape shape := by
  cases shape with
  | scalar name => rw [resolveShape, resolveShape, h.resolve_eq]
  | array spec =>
    cases hcontainer : spec.container with
    | none => simp only [resolveShape, hcontainer, h.resolve_eq]
    | some container => simp only [resolveShape, hcontainer, h.localize_eq]

end LooksLike

end Registry

namespace Planner

variable {p p' : Planner}

/-! ### Planning with registries that cannot be told apart -/

/-- Planners for one platform plan a shape alike if their registries look alike. -/
theorem alikeShapes_of_looksLike (h : p.registry.LooksLike p'.registry)
    (hplatform : p.platform = p'.platform) (shape : Shape) : p.AlikeShapes p' shape shape := by
  have hbasic : ∀ b, p.ofBasic b = p'.ofBasic b := by
    intro b
    rw [ofBasic, ofBasic, hplatform]
  have hname : ∀ name, p.ofName name = p'.ofName name := by
    intro name
    unfold ofName
    rw [h.resolve_eq, h.enumeration?_eq]
    simp only [hbasic]
  have helement : ∀ name, p.ofElement name = p'.ofElement name := by
    intro name
    have hclass : ∀ type, p.ofElementClass type = p'.ofElementClass type := by
      intro type
      cases type with
      | basic b => rw [ofElementClass, ofElementClass, hplatform]
      | callback name => rfl
      | object name => rfl
    rw [ofElement, ofElement, h.resolve_eq, h.enumeration?_eq, hclass]
  constructor
  case conversion_eq =>
    cases shape with
    | scalar name => rw [conversion, conversion, hname]
    | array spec => simp only [conversion, h.localize_eq, helement]
  case slot_eq => rw [Signature.shapeSlot, Signature.shapeSlot, h.resolveShape_eq, hplatform]

/-- A relation that every shape has to itself holds of an optional shape too. -/
theorem rel_shape_self (h : ∀ shape, p.AlikeShapes p' shape shape) (shape? : Option Shape) :
    Option.Rel (p.AlikeShapes p') shape? shape? := by
  cases shape? with
  | none => exact .none
  | some shape => exact .some (h shape)

/-- A callable is planned alike by planners that look at registries which look alike. -/
theorem alikeCallables_of_looksLike (h : p.registry.LooksLike p'.registry)
    (hplatform : p.platform = p'.platform) (c : Callable) : p.AlikeCallables p' c c := by
  have hshapes := alikeShapes_of_looksLike h hplatform
  have hparam (a : Parameter) : p.AlikeParams p' a a :=
    ⟨rfl, rfl, rfl, rfl, rel_shape_self hshapes a.shape⟩
  constructor
  case receiver =>
    cases c.receiver with
    | none => exact .none
    | some receiver => exact .some (hparam receiver)
  case params => exact List.forall₂_same.mpr fun a _ => hparam a
  case constructed_eq =>
    intro _
    have hconstructed : p.constructed c = p'.constructed c := by
      simp only [constructed, h.localize_eq]
    rw [planConstructed, planConstructed, hconstructed]
  case result => exact fun _ => ⟨rfl, rfl, rel_shape_self hshapes c.result.shape⟩
  all_goals rfl

end Planner

/-! ### Registries of models -/

namespace Registry

variable {r : Registry} {m : Model}

/-- What a name denotes, read as an entity of one kind, is the entity of that kind which the model
declares under it. -/
theorem bind_lookupLocal_eq_some_iff {α : Type} {part : Entity → Option α} {entries : List α}
    (inject : α → Entity) (h : ofModel m = .ok r)
    (hpart : ∀ entity entry, part entity = some entry ↔ entity = inject entry)
    (hentries : ∀ entry, inject entry ∈ m.entities ↔ entry ∈ entries) (name : String) (entry : α) :
    (r.lookupLocal name).bind part = some entry ↔
      entry ∈ entries ∧ (inject entry).name = name := by
  have hholds := holds_of_ofModel h
  rw [Option.bind_eq_some_iff]
  constructor
  · rintro ⟨entity, hentity, hentry⟩
    obtain rfl : entity = inject entry := (hpart entity entry).mp hentry
    obtain ⟨hmem, hname⟩ := (hholds.lookupLocal_eq_some_iff name _).mp hentity
    exact ⟨(hentries entry).mp hmem, hname⟩
  · rintro ⟨hmem, hname⟩
    have hentity := (hholds.lookupLocal_eq_some_iff name _).mpr ⟨(hentries entry).mpr hmem, hname⟩
    exact ⟨inject entry, hentity, (hpart _ _).mpr rfl⟩

/-- The alias that a name denotes is the one that the model declares under it. -/
theorem bind_alias?_eq_some_iff (h : ofModel m = .ok r) (name : String) (entry : Alias) :
    (r.lookupLocal name).bind Entity.alias? = some entry ↔
      entry ∈ m.aliases ∧ entry.name = name := by
  refine bind_lookupLocal_eq_some_iff .typeAlias h (fun entity entry => ?_) (fun entry => ?_) name
    entry
  · cases entity <;> simp [Entity.alias?]
  · simp [Model.entities]

/-- The enumeration that a name denotes is the one that the model declares under it. -/
theorem bind_enumeration?_eq_some_iff (h : ofModel m = .ok r) (name : String)
    (entry : Enumeration) : (r.lookupLocal name).bind Entity.enumeration? = some entry ↔
      entry ∈ m.enumerations ++ m.bitfields ∧ entry.name = name := by
  refine bind_lookupLocal_eq_some_iff .enumeration h (fun entity entry => ?_) (fun entry => ?_) name
    entry
  · cases entity <;> simp [Entity.enumeration?]
  · simp [Model.entities]

/-- The callback that a name denotes is the one that the model declares under it. -/
theorem bind_callback?_eq_some_iff (h : ofModel m = .ok r) (name : String) (entry : Callback) :
    (r.lookupLocal name).bind Entity.callback? = some entry ↔
      entry ∈ m.callbacks ∧ entry.name = name := by
  refine bind_lookupLocal_eq_some_iff .callback h (fun entity entry => ?_) (fun entry => ?_) name
    entry
  · cases entity <;> simp [Entity.callback?]
  · simp [Model.entities]

/-- A name denotes a callback if the model declares one under it. -/
theorem isSome_bind_callback?_iff (h : ofModel m = .ok r) (name : String) :
    ((r.lookupLocal name).bind Entity.callback?).isSome = true ↔
      name ∈ m.callbacks.map (·.name) := by
  simp only [Option.isSome_iff_exists, bind_callback?_eq_some_iff h, List.mem_map]

end Registry

/-- The models have one name, and declare the same aliases, the same enumerations and bitfields, and
callbacks of the same names, each in any order. -/
structure Model.SameTypes (m m' : Model) : Prop where
  name_eq : m.name = m'.name
  aliases : ∀ entry, entry ∈ m.aliases ↔ entry ∈ m'.aliases
  enumerations : ∀ entry,
    entry ∈ m.enumerations ++ m.bitfields ↔ entry ∈ m'.enumerations ++ m'.bitfields
  callbacks : ∀ name, name ∈ m.callbacks.map (·.name) ↔ name ∈ m'.callbacks.map (·.name)

/-- Models that declare the same types have registries that planning cannot tell apart. -/
theorem Model.SameTypes.looksLike {m m' : Model} {r r' : Registry} (h : m.SameTypes m')
    (hr : Registry.ofModel m = .ok r) (hr' : Registry.ofModel m' = .ok r') : r.LooksLike r' := by
  have hspace : r.space = r'.space := by
    rw [(Registry.holds_of_ofModel hr).space_eq, (Registry.holds_of_ofModel hr').space_eq,
      h.name_eq]
  -- What is read off an unqualified name is also read off a qualified one.
  have hlookup {β : Type} (read : Option Entity → β) (name : TypeName)
      (hlocal : read (r.lookupLocal name.name) = read (r'.lookupLocal name.name)) :
      read (r.lookup name) = read (r'.lookup name) := by
    rw [Registry.lookup, Registry.lookup, Registry.owns, Registry.owns, hspace]
    split
    · exact hlocal
    · rfl
  constructor
  case space_eq => exact hspace
  case target?_eq =>
    intro name
    refine congrArg _ (hlookup (·.bind Entity.alias?) name (Option.ext fun entry => ?_))
    rw [Registry.bind_alias?_eq_some_iff hr, Registry.bind_alias?_eq_some_iff hr', h.aliases]
  case enumeration_eq =>
    intro name
    refine hlookup (·.bind Entity.enumeration?) name (Option.ext fun entry => ?_)
    rw [Registry.bind_enumeration?_eq_some_iff hr, Registry.bind_enumeration?_eq_some_iff hr',
      h.enumerations]
  case callback_eq =>
    intro name
    refine hlookup (fun entity? => (entity?.bind Entity.callback?).isSome) name ?_
    rw [Bool.eq_iff_iff, Registry.isSome_bind_callback?_iff hr,
      Registry.isSome_bind_callback?_iff hr', h.callbacks]

/-- What a callable is planned as, and its signature, depend only on the types that its namespace
declares: not on their order, nor on records, functions or anything else in the model. -/
theorem Model.planning_eq_of_sameTypes {m m' : Model} {r r' : Registry}
    (hr : Registry.ofModel m = .ok r) (hr' : Registry.ofModel m' = .ok r') (h : m.SameTypes m')
    (platform : Platform) (identifiers : IdentifierPolicy) (c : Callable) :
    Signature.ofCallable r platform c = Signature.ofCallable r' platform c ∧
      Planner.plan ⟨r, platform, identifiers⟩ c = Planner.plan ⟨r', platform, identifiers⟩ c := by
  have hlooks : r.LooksLike r' := h.looksLike hr hr'
  have halike : Planner.AlikeCallables ⟨r, platform, identifiers⟩ ⟨r', platform, identifiers⟩
      c c := by
    apply Planner.alikeCallables_of_looksLike
    · exact hlooks
    · rfl
  exact ⟨halike.signature_eq, halike.plan_eq rfl⟩

/-! ### Two namespaces to look at -/

namespace Sample

/-- A namespace with two aliases, two enumerations, a callback and a record. -/
def shades : Model :=
  { Model.empty "Demo" "1.0" with
    aliases := [⟨"Shade", .unqualified "Color", none⟩, ⟨"Size", .unqualified "gsize", none⟩]
    enumerations := [⟨"Color", false, [⟨"RED", 0⟩], none, none⟩, ⟨"Mode", false, [], none, none⟩]
    callbacks := [⟨"Notify", none, function "Notify" []⟩]
    records := [⟨"Widget", none, .record, none, true, [], [], []⟩] }

/-- The same types in another order, with another record and another signature of the callback. -/
def otherShades : Model :=
  { Model.empty "Demo" "2.0" with
    aliases := [⟨"Size", .unqualified "gsize", none⟩, ⟨"Shade", .unqualified "Color", none⟩]
    enumerations := [⟨"Mode", false, [], none, none⟩, ⟨"Color", false, [⟨"RED", 0⟩], none, none⟩]
    callbacks := [⟨"Notify", none, function "Notify" [parameter "data" "gpointer" .input]⟩]
    records := [⟨"Gadget", none, .record, none, true, [], [], []⟩]
    functions := [function "reset" []] }

/-- A function of an alias of an enumeration, a callback and a record. -/
def paint : Callable :=
  function "paint" [parameter "shade" "Shade" .input, parameter "done" "Notify" .input,
    parameter "widget" "Widget" .input]

end Sample

/-- The function is planned in both namespaces, and with the same plan. -/
theorem Model.planning_eq_of_sameTypes_sample :
    ∃ r r' plan, Registry.ofModel Sample.shades = .ok r ∧
      Registry.ofModel Sample.otherShades = .ok r' ∧ r ≠ r' ∧
      Sample.shades.SameTypes Sample.otherShades ∧
      Planner.plan ⟨r, .reference, .standard⟩ Sample.paint = .ok plan ∧
      Signature.ofCallable r .reference Sample.paint =
        Signature.ofCallable r' .reference Sample.paint ∧
      Planner.plan ⟨r, .reference, .standard⟩ Sample.paint =
        Planner.plan ⟨r', .reference, .standard⟩ Sample.paint := by
  have hsame : Sample.shades.SameTypes Sample.otherShades := by
    constructor
    case name_eq => rfl
    case aliases | enumerations =>
      intro entry
      exact (List.Perm.swap _ _ []).mem_iff
    case callbacks => exact fun name => Iff.rfl
  refine ⟨_, _, _, rfl, rfl, by decide, hsame, rfl, ?_⟩
  exact Model.planning_eq_of_sameTypes rfl rfl hsame .reference .standard Sample.paint

end ForeignCall
