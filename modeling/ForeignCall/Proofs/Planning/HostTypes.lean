import ForeignCall.Proofs.Planning.SameTypes
import ForeignCall.Proofs.Resolution.Keywords

/-!
# Host types and the conversions they are shown for

A plan holds a conversion and beside it the host type that a binding shows.  `Conversion.ShownAs`
says which host types fit a conversion: the one of the same kind, with the same name where there is
one.  An array is shown as an array of what fits its elements; an element that is an address is
shown as an untyped address, as an object or as a function.

The names in both come from looking up a declared name, through aliases or not, and each of these
ways drops the qualifier of the own namespace (`Registry.isLocal_localize`).  `Planner.Agrees` puts
the two together; it holds of every shape that is planned (`Planner.agrees_conversion`) and of what
constructors return (`Planner.planning_agrees`).
-/

namespace ForeignCall

/-! ### What fits a conversion -/

/-- The host types that a scalar conversion is shown as. -/
inductive ScalarConversion.ShownAs : ScalarConversion → HostType → Prop
  | void : ShownAs .void .void
  | boolean : ShownAs .boolean .boolean
  | integer {slot : Slot} (hslot : slot.isInteger = true) : ShownAs (.numeric slot) .integer
  | float {slot : Slot} (hslot : slot.isFloat = true) : ShownAs (.numeric slot) .float
  | string : ShownAs .string .string
  | pointer : ShownAs .pointer .pointer
  | enumeration (conversion : EnumConversion) :
      ShownAs (.enumeration conversion) (.enumeration conversion.name)
  | handle (name : TypeName) : ShownAs (.handle name) (.handle name)
  | callback (name : TypeName) : ShownAs (.callback name) (.callback name)

/-- The host types that an element conversion is shown as.  Functions in an array are addresses like
objects, and only the host type tells them apart. -/
inductive ElementConversion.ShownAs : ElementConversion → HostType → Prop
  | boolean : ShownAs .boolean .boolean
  | integer {slot : Slot} (hslot : slot.isInteger = true) : ShownAs (.numeric slot) .integer
  | float {slot : Slot} (hslot : slot.isFloat = true) : ShownAs (.numeric slot) .float
  | enumeration (conversion : EnumConversion) :
      ShownAs (.enumeration conversion) (.enumeration conversion.name)
  | string : ShownAs .string .string
  | untyped : ShownAs (.handle none) .pointer
  | handle (name : TypeName) : ShownAs (.handle (some name)) (.handle name)
  | callback (name : TypeName) : ShownAs (.handle (some name)) (.callback name)

/-- The host types that a conversion is shown as. -/
inductive Conversion.ShownAs : Conversion → HostType → Prop
  | scalar {conversion : ScalarConversion} {hostType : HostType}
      (h : conversion.ShownAs hostType) : ShownAs (.scalar conversion) hostType
  | array {element : ElementConversion} {hostType : HostType} (length : ArrayLength)
      (h : element.ShownAs hostType) : ShownAs (.array ⟨element, length⟩) (.array hostType)

/-- The entity that a scalar conversion names. -/
def ScalarConversion.entity? : ScalarConversion → Option TypeName
  | enumeration conversion => some conversion.name
  | handle name | callback name => some name
  | _ => none

/-- The entity that a conversion names, also as the element of an array. -/
def Conversion.entity? : Conversion → Option TypeName
  | scalar conversion => conversion.entity?
  | array conversion => conversion.element.scalar.entity?

/-- The name is written without its namespace, or belongs to a namespace other than `space`. -/
def TypeName.IsLocal (name : TypeName) (space : String) : Prop :=
  ∀ q, name.qualifier = some q → q ≠ space

/-- What the host type names, if it names anything, is not qualified with `space`. -/
def HostType.IsLocal (hostType : HostType) (space : String) : Prop :=
  ∀ name, hostType.entity? = some name → name.IsLocal space

theorem HostType.isLocal_of_entity? {hostType : HostType} {name : TypeName} {space : String}
    (h : hostType.entity? = some name) (hname : name.IsLocal space) : hostType.IsLocal space := by
  intro other hother
  obtain rfl : name = other := Option.some.inj (h.symm.trans hother)
  exact hname

/-- A conversion and its host type name the same entity. -/
theorem Conversion.ShownAs.entity?_eq {conversion : Conversion} {hostType : HostType}
    (h : conversion.ShownAs hostType) : hostType.entity? = conversion.entity? := by
  cases h with
  | scalar h => cases h <;> rfl
  | array _ h => cases h <;> rfl

/-- An element is shown as a value on its own would be. -/
theorem ElementConversion.shownAs_of_scalar {element : ElementConversion} {hostType : HostType}
    (h : element.scalar.ShownAs hostType) : element.ShownAs hostType := by
  cases element with
  | boolean => cases h; exact .boolean
  | numeric slot =>
    cases h with
    | integer hslot => exact .integer hslot
    | float hslot => exact .float hslot
  | enumeration conversion => cases h; exact .enumeration conversion
  | string => cases h; exact .string
  | handle name? =>
    cases name? with
    | none => cases h; exact .untyped
    | some name => cases h; exact .handle name

/-! ### Names -/

namespace Registry

variable {r : Registry} {name other : TypeName}

/-- A localised name has not the qualifier of the registry's namespace. -/
theorem isLocal_localize (r : Registry) (name : TypeName) :
    (r.localize name).IsLocal r.space := by
  intro q hq
  rw [localize, TypeName.localized] at hq
  split at hq
  case isTrue => cases hq
  case isFalse hin =>
    rintro rfl
    simp [TypeName.isIn, hq] at hin

/-- A callback, and what is handled through its address, goes by its localised name. -/
theorem eq_localize_of_classify
    (h : r.classify name = .callback other ∨ r.classify name = .object other) :
    other = r.localize name := by
  rw [classify_eq] at h
  cases hkeyword : name.keyword? with
  | some b => simp [hkeyword] at h
  | none =>
    simp only [hkeyword] at h
    split at h
    · simp at h
    · split at h <;> simpa [eq_comm] using h

/-- The name that a callback or an object goes by is a localised one. -/
theorem isLocal_of_resolve
    (h : r.resolve name = .callback other ∨ r.resolve name = .object other) :
    other.IsLocal r.space := by
  rw [eq_localize_of_classify h]
  exact r.isLocal_localize _

/-- The name of an enumeration is a localised one. -/
theorem isLocal_of_enumeration? {entry : Enumeration}
    (h : r.enumeration? name = some (other, entry)) : other.IsLocal r.space := by
  rw [enumeration?_eq, Option.map_eq_some_iff] at h
  obtain ⟨entry, -, heq⟩ := h
  cases heq
  exact r.isLocal_localize _

end Registry

/-! ### Basic types -/

/-- The slot of an integer is one for integers, whatever the platform. -/
theorem Platform.isInteger_slotOf (p : Platform) {b : BasicType} (h : b.isInteger = true) :
    (p.slotOf b).isInteger = true := by
  have hsigned (w : Width) : w.signed.isInteger = true := by cases w <;> rfl
  have hunsigned (w : Width) : w.unsigned.isInteger = true := by cases w <;> rfl
  cases b
  case long | ssize | intptr => exact hsigned _
  case ulong | size | gtype | uintptr => exact hunsigned _
  case boolean | float | double | pointer | constPointer | utf8 | filename | void => cases h
  all_goals rfl

namespace Planner

variable {p : Planner} {conversion : Conversion} {hostType : HostType} {name : TypeName}

/-- The host type fits the conversion, and what they name is not qualified with the own
namespace. -/
structure Agrees (p : Planner) (conversion : Conversion) (hostType : HostType) : Prop where
  shownAs : conversion.ShownAs hostType
  isLocal : ∀ name, conversion.entity? = some name ∨ hostType.entity? = some name →
    name.IsLocal p.registry.space

/-! ### Conversions of one kind after the other -/

/-- A basic type is shown as its kind. -/
theorem shownAs_ofBasic (p : Planner) (b : BasicType) :
    (p.ofBasic b).1.ShownAs (p.ofBasic b).2 := by
  cases b
  case void => exact .void
  case boolean => exact .boolean
  case utf8 | filename => exact .string
  case pointer | constPointer => exact .pointer
  case float | double => exact .float rfl
  all_goals exact .integer (p.platform.isInteger_slotOf rfl)

/-- An element of a basic type crosses by the conversion of the type. -/
theorem ofBasic_of_ofElementClass {b : BasicType} {element : ElementConversion}
    (h : p.ofElementClass (.basic b) = .ok (element, hostType)) :
    p.ofBasic b = (element.scalar, hostType) := by
  cases b <;> cases h <;> rfl

/-- The host type of a basic type names nothing. -/
theorem isLocal_ofBasic (p : Planner) (b : BasicType) (space : String) :
    (p.ofBasic b).2.IsLocal space := by
  intro name hname
  rw [p.entity?_ofBasic b] at hname
  cases hname

/-- What fits agrees if the host type names nothing with the own qualifier. -/
theorem Agrees.of_shownAs (hshown : conversion.ShownAs hostType)
    (hlocal : hostType.IsLocal p.registry.space) : p.Agrees conversion hostType := by
  refine ⟨hshown, fun name hname => hlocal name ?_⟩
  rwa [hshown.entity?_eq, or_self, ← hshown.entity?_eq] at hname

/-- A named type is shown as what it stands for. -/
theorem agrees_ofName (p : Planner) (name : TypeName) :
    p.Agrees (.scalar (p.ofName name).1) (p.ofName name).2 := by
  unfold ofName
  cases hclass : p.registry.resolve name with
  | basic b =>
    cases hentry : p.registry.enumeration? name with
    | none => exact .of_shownAs (.scalar (p.shownAs_ofBasic b)) (p.isLocal_ofBasic b _)
    | some found =>
      obtain ⟨other, entry⟩ := found
      have hother : other.IsLocal p.registry.space := Registry.isLocal_of_enumeration? hentry
      exact .of_shownAs (.scalar (.enumeration (.ofEntry other entry)))
        (HostType.isLocal_of_entity? rfl hother)
  | callback other =>
    have hother : other.IsLocal p.registry.space := Registry.isLocal_of_resolve (.inl hclass)
    exact .of_shownAs (.scalar (.callback other)) (HostType.isLocal_of_entity? rfl hother)
  | object other =>
    have hother : other.IsLocal p.registry.space := Registry.isLocal_of_resolve (.inr hclass)
    exact .of_shownAs (.scalar (.handle other)) (HostType.isLocal_of_entity? rfl hother)

/-- An array element is shown as what its type stands for. -/
theorem shownAs_ofElement {element : ElementConversion}
    (h : p.ofElement name = .ok (element, hostType)) :
    element.ShownAs hostType ∧ hostType.IsLocal p.registry.space := by
  unfold ofElement at h
  cases hentry : p.registry.enumeration? name with
  | some found =>
    obtain ⟨other, entry⟩ := found
    rw [hentry] at h
    cases h
    have hother : other.IsLocal p.registry.space := Registry.isLocal_of_enumeration? hentry
    exact ⟨.enumeration (.ofEntry other entry), HostType.isLocal_of_entity? rfl hother⟩
  | none =>
    rw [hentry] at h
    cases hclass : p.registry.resolve name with
    | basic b =>
      rw [hclass] at h
      have hshown := p.shownAs_ofBasic b
      have hlocal := p.isLocal_ofBasic b p.registry.space
      rw [ofBasic_of_ofElementClass h] at hshown hlocal
      exact ⟨ElementConversion.shownAs_of_scalar hshown, hlocal⟩
    | callback other =>
      rw [hclass] at h
      cases h
      have hother : other.IsLocal p.registry.space := Registry.isLocal_of_resolve (.inl hclass)
      exact ⟨.callback other, HostType.isLocal_of_entity? rfl hother⟩
    | object other =>
      rw [hclass] at h
      cases h
      have hother : other.IsLocal p.registry.space := Registry.isLocal_of_resolve (.inr hclass)
      exact ⟨.handle other, HostType.isLocal_of_entity? rfl hother⟩

/-! ### Whatever is planned -/

/-- The conversion and the host type of a shape agree. -/
theorem agrees_conversion {shape : Shape} (h : p.conversion shape = .ok (conversion, hostType)) :
    p.Agrees conversion hostType := by
  cases shape with
  | scalar name =>
    cases h
    exact p.agrees_ofName name
  | array spec =>
    rcases conversion_array_eq_ok h with
      ⟨container, rfl, rfl⟩ | ⟨element, inner, helement, rfl, rfl⟩
    · have hlocal := p.registry.isLocal_localize container
      exact .of_shownAs (.scalar (.handle _)) (HostType.isLocal_of_entity? rfl hlocal)
    · obtain ⟨hshown, hlocal⟩ := shownAs_ofElement helement
      exact .of_shownAs (.array spec.length hshown) hlocal

/-- What a constructor returns agrees with its host type: the handle of its owner, or of the type
that it declares. -/
theorem agrees_planConstructed {c : Callable} {result : ReturnPlan}
    (h : p.planConstructed c = .ok result) : p.Agrees result.conversion result.hostType := by
  unfold planConstructed at h
  cases hname : p.constructed c with
  | error e => simp [hname, Except.map] at h
  | ok name =>
    simp only [hname, Except.map, Except.ok.injEq] at h
    subst h
    have hlocal : name.IsLocal p.registry.space := by
      unfold constructed at hname
      split at hname
      · cases hname
        exact fun _ hq => nomatch hq
      · cases hname
        exact p.registry.isLocal_localize _
      · cases hname
    exact .of_shownAs (.scalar (.handle name)) (HostType.isLocal_of_entity? rfl hlocal)

/-- A planned parameter is shown as its conversion. -/
theorem agrees_planParam {param : Parameter} {q : ParamPlan} (h : p.planParam param = .ok q) :
    p.Agrees q.conversion q.hostType := by
  obtain ⟨shape, conversion, hostType, -, hconversion, rfl⟩ := planParam_eq_ok.mp h
  exact agrees_conversion hconversion

/-- A planned return value is shown as its conversion. -/
theorem agrees_planReturn {ret : ReturnValue} {result : ReturnPlan}
    (h : p.planReturn ret = .ok result) : p.Agrees result.conversion result.hostType := by
  unfold planReturn at h
  cases hshape : ret.shape with
  | none => simp [hshape] at h
  | some shape =>
    cases hconversion : p.conversion shape with
    | error e => simp [hshape, hconversion, Except.map] at h
    | ok found =>
      simp only [hshape, hconversion, Except.map, Except.ok.injEq] at h
      subst h
      exact agrees_conversion hconversion

namespace Plans

variable {c : Callable} {plan : CallablePlan}

/-- The receiver of a plan is shown as its conversion. -/
theorem agrees_receiver (h : p.Plans c plan) {q : ParamPlan} (hq : plan.receiver = some q) :
    p.Agrees q.conversion q.hostType := by
  have hsome : c.receiver.isSome = true := by
    rw [← h.isSome_receiver, hq]
    rfl
  obtain ⟨receiver, hreceiver⟩ := Option.isSome_iff_exists.mp hsome
  obtain ⟨q', hq', hplan⟩ := h.exists_receiver hreceiver
  obtain rfl : q = q' := Option.some.inj (hq.symm.trans hq')
  exact agrees_planParam hplan

/-- The parameters of a plan are shown as their conversions. -/
theorem agrees_param (h : p.Plans c plan) {q : DeclaredPlan} (hq : q ∈ plan.params) :
    p.Agrees q.conversion q.hostType := by
  obtain ⟨param, -, -, hplan⟩ := h.exists_of_mem hq
  exact agrees_planParam hplan

/-- The result of a plan is shown as its conversion. -/
theorem agrees_result (h : p.Plans c plan) :
    p.Agrees plan.result.conversion plan.result.hostType := by
  have hresult := h.result
  split at hresult
  · exact agrees_planConstructed hresult
  · exact agrees_planReturn hresult

end Plans

/-- Host types fit their conversions, and no name in them has the qualifier of the own namespace:
for every shape that is planned, for what a constructor returns, and so all over the plan of a
callable. -/
theorem planning_agrees (p : Planner) :
    (∀ shape conversion hostType, p.conversion shape = .ok (conversion, hostType) →
      p.Agrees conversion hostType) ∧
    (∀ c result, p.planConstructed c = .ok result → p.Agrees result.conversion result.hostType) ∧
    ∀ c plan, p.plan c = .ok plan →
      (∀ q, plan.receiver = some q → p.Agrees q.conversion q.hostType) ∧
      (∀ q ∈ plan.params, p.Agrees q.conversion q.hostType) ∧
      p.Agrees plan.result.conversion plan.result.hostType := by
  refine ⟨fun _ _ _ => agrees_conversion, fun _ _ => agrees_planConstructed, fun c plan hplan => ?_⟩
  have hplans : p.Plans c plan := plan_plans hplan
  exact ⟨fun _ => hplans.agrees_receiver, fun _ => hplans.agrees_param, hplans.agrees_result⟩

end Planner

/-- An array of functions is shown with the name of their type, without the qualifier that it was
declared with; a name of another namespace keeps its qualifier. -/
theorem Planner.planning_agrees_sample :
    let p : Planner := ⟨.holding "Demo" Sample.shades.entities, .reference, .standard⟩
    let functions : Conversion := .array ⟨.handle (some (.unqualified "Notify")), .zeroTerminated⟩
    (p.conversion (.array ⟨.qualified "Demo" "Notify", .zeroTerminated, none, none⟩) =
        .ok (functions, .array (.callback (.unqualified "Notify"))) ∧
      p.Agrees functions (.array (.callback (.unqualified "Notify")))) ∧
    p.conversion (.scalar (.qualified "Other" "Thing")) =
        .ok (.scalar (.handle (.qualified "Other" "Thing")), .handle (.qualified "Other" "Thing")) ∧
      (TypeName.qualified "Other" "Thing").IsLocal p.registry.space := by
  intro p functions
  obtain ⟨hshapes, -, -⟩ := p.planning_agrees
  have hfunctions := hshapes (.array ⟨.qualified "Demo" "Notify", .zeroTerminated, none, none⟩) _ _
    rfl
  have hother := hshapes (.scalar (.qualified "Other" "Thing")) _ _ rfl
  exact ⟨⟨rfl, hfunctions⟩, rfl, hother.isLocal _ (.inl rfl)⟩

end ForeignCall
