import Mathlib.Data.List.Forall2
import ForeignCall.Proofs.Planning
import ForeignCall.Signature

/-!
# Plans and signatures

The slots of a native call are derived twice from a declaration: the signature classifies the
declared types, and the plan takes the slots of its conversions.  Both follow aliases to the same
name; there a signature asks first whether the name is a keyword, and a plan whether it is an
enumeration.  They give different slots exactly where an enumeration is named like a keyword whose
slot is not that of enumerations (`Planner.Clashes`), and where the value itself is passed: what is
passed by its address, and what a constructor returns, has the slot of an address in both
(`Callable.directNames`).
-/

namespace ForeignCall

/-! ### Names whose values are passed themselves -/

/-- The type name of a shape that is no array. -/
def Shape.scalarName? : Shape → Option TypeName
  | scalar name => some name
  | array _ => none

/-- The type name of a parameter whose value is passed itself. -/
def Parameter.directName? (param : Parameter) : Option TypeName :=
  if param.direction.isByReference then none else param.shape.bind (·.scalarName?)

namespace Callable

/-- The type name of the result, unless a constructor gives it. -/
def resultName? (c : Callable) : Option TypeName :=
  if c.kind = .constructor then none else c.result.shape.bind (·.scalarName?)

/-- The type names of all values that a call passes themselves. -/
def directNames (c : Callable) : List TypeName :=
  (c.receiver.toList ++ c.fixedParams).filterMap (·.directName?) ++ c.resultName?.toList

end Callable

/-! ### Signatures that can be built -/

namespace Signature

variable {r : Registry} {platform : Platform} {callable : String} {c : Callable}
  {signature : Signature}

/-- Parameters have slots if the first has one and so have the others. -/
theorem paramSlots_cons_eq_ok {param : Parameter} {rest : List Parameter} {slots : List Slot} :
    paramSlots r platform callable (param :: rest) = .ok slots ↔
      ∃ slot others, paramSlot r platform callable param = .ok slot ∧
        paramSlots r platform callable rest = .ok others ∧ slot :: others = slots := by
  rw [paramSlots]
  cases paramSlot r platform callable param with
  | error e => simp
  | ok slot => cases paramSlots r platform callable rest <;> simp [Except.map]

/-- A signature is built from the slots of the parameters and that of the result, if there is a
native symbol or none is needed. -/
theorem ofCallable_eq_ok : ofCallable r platform c = .ok signature ↔
    (c.kind = .callback ∨ c.linkage ≠ "") ∧ ∃ slots result,
      paramSlots r platform c.displayName (c.receiver.toList ++ c.fixedParams) = .ok slots ∧
      resultSlot r platform c = .ok result ∧
      { params := slots ++ (if c.throws then [.pointer] else []), result := result } =
        signature := by
  have hlinkage : ¬ (c.kind ≠ .callback ∧ c.linkage.isEmpty = true) ↔
      c.kind = .callback ∨ c.linkage ≠ "" := by
    rw [not_and_or, not_not, String.isEmpty_iff]
  unfold ofCallable
  by_cases hsymbol : c.kind = .callback ∨ c.linkage ≠ ""
  · rw [if_neg (hlinkage.mpr hsymbol)]
    cases paramSlots r platform c.displayName (c.receiver.toList ++ c.fixedParams) with
    | error e => simp
    | ok slots => cases resultSlot r platform c <;> simp [hsymbol, Except.map]
  · rw [if_pos (not_not.mp (mt hlinkage.mp hsymbol))]
    simp [hsymbol]

end Signature

namespace Planner

variable {p : Planner} {c : Callable} {plan : CallablePlan} {callable : String}

/-- The name leads to an enumeration that is named like a keyword of another slot. -/
def Clashes (p : Planner) (name : TypeName) : Prop :=
  ∃ b entry, (p.registry.followAliases name).keyword? = some b ∧
    p.registry.lookup (p.registry.followAliases name) = some (.enumeration entry) ∧
    p.platform.slotOf b ≠ .i32

/-! ### Names and shapes -/

/-- A keyword is planned in the slot of its basic type. -/
@[simp] theorem slot_ofBasic (p : Planner) (b : BasicType) :
    (p.ofBasic b).1.slot = p.platform.slotOf b := by
  cases b <;> rfl

/-- A name clashes where it is both a basic type and an enumeration, and the slots differ. -/
theorem clashes_iff (p : Planner) (name : TypeName) :
    p.Clashes name ↔ ∃ b, p.registry.resolve name = .basic b ∧
      (p.registry.enumeration? name).isSome = true ∧ p.platform.slotOf b ≠ .i32 := by
  unfold Clashes Registry.resolve Registry.classify Registry.enumeration?
  generalize p.registry.followAliases name = terminal
  constructor
  · rintro ⟨b, entry, hkeyword, hlookup, hslot⟩
    exact ⟨b, by simp [hkeyword], by simp [hlookup], hslot⟩
  · rintro ⟨b, hresolve, hentry, hslot⟩
    rcases hlookup : p.registry.lookup terminal with _ | ⟨_ | entry | _ | _⟩
    case some.enumeration =>
      cases hkeyword : terminal.keyword? with
      | some b' =>
        obtain rfl : b' = b := by simpa [hkeyword] using hresolve
        exact ⟨b', entry, rfl, rfl, hslot⟩
      | none =>
        -- Only an enumeration is left, and its slot is that of enumerations.
        obtain rfl : .int32 = b := by simpa [hkeyword, hlookup] using hresolve
        exact absurd rfl hslot
    all_goals simp [hlookup] at hentry

/-- A name is planned in the slot of its class unless it clashes. -/
theorem slot_ofName_eq_iff (p : Planner) (name : TypeName) :
    (p.ofName name).1.slot = (p.registry.resolve name).slot p.platform ↔ ¬ p.Clashes name := by
  rw [clashes_iff]
  unfold ofName
  cases hresolve : p.registry.resolve name with
  | basic b =>
    cases hentry : p.registry.enumeration? name with
    | none => simp [TypeClass.slot]
    | some entry => simp [TypeClass.slot, ScalarConversion.slot, eq_comm]
  | callback name => simp [TypeClass.slot, ScalarConversion.slot]
  | object name => simp [TypeClass.slot, ScalarConversion.slot]

/-! ### Shapes -/

theorem shapeSlot_scalar (r : Registry) (platform : Platform) (name : TypeName) :
    Signature.shapeSlot r platform (.scalar name) = (r.resolve name).slot platform := by
  simp only [Signature.shapeSlot, Registry.resolveShape]
  cases r.resolve name <;> rfl

theorem shapeSlot_array (r : Registry) (platform : Platform) (spec : ArraySpec) :
    Signature.shapeSlot r platform (.array spec) = .pointer := by
  simp only [Signature.shapeSlot, Registry.resolveShape]
  cases spec.container <;> rfl

/-- Arrays are planned as addresses. -/
theorem slot_conversion_array {spec : ArraySpec} {conversion : Conversion} {hostType : HostType}
    (h : p.conversion (.array spec) = .ok (conversion, hostType)) : conversion.slot = .pointer := by
  rcases conversion_array_eq_ok h with ⟨container, rfl, -⟩ | ⟨element, inner, -, rfl, -⟩
  · rfl
  · rfl

/-- A shape is planned in the slot of the signature unless its name clashes. -/
theorem slot_conversion_eq_iff {shape : Shape} {conversion : Conversion} {hostType : HostType}
    (h : p.conversion shape = .ok (conversion, hostType)) :
    conversion.slot = Signature.shapeSlot p.registry p.platform shape ↔
      ∀ name, shape.scalarName? = some name → ¬ p.Clashes name := by
  cases shape with
  | scalar name =>
    simp only [Planner.conversion, Except.ok.injEq, Prod.mk.injEq] at h
    rw [← h.1, Conversion.slot, shapeSlot_scalar, slot_ofName_eq_iff]
    simp [Shape.scalarName?]
  | array spec =>
    rw [slot_conversion_array h, shapeSlot_array]
    simp [Shape.scalarName?]

/-! ### Parameters and results -/

/-- A parameter is planned in the slot of the signature unless the name of its value clashes. -/
theorem slot_planParam_eq_iff {param : Parameter} {q : ParamPlan} {slot : Slot}
    (hplan : p.planParam param = .ok q)
    (hslot : Signature.paramSlot p.registry p.platform callable param = .ok slot) :
    q.slot = slot ↔ ∀ name, param.directName? = some name → ¬ p.Clashes name := by
  obtain ⟨shape, conversion, hostType, hshape, hconversion, rfl⟩ := planParam_eq_ok.mp hplan
  simp only [Signature.paramSlot, hshape, Except.ok.injEq] at hslot
  subst hslot
  by_cases hreference : param.direction.isByReference = true
  · simp [hreference, Parameter.directName?]
  · simpa [hreference, Parameter.directName?, hshape] using slot_conversion_eq_iff hconversion

/-- Parameters are planned in the slots of the signature unless a name clashes. -/
theorem map_slot_eq_iff {params : List Parameter} {plans : List ParamPlan} {slots : List Slot}
    (hplans : List.Forall₂ (fun param q => p.planParam param = .ok q) params plans)
    (hslots : Signature.paramSlots p.registry p.platform callable params = .ok slots) :
    plans.map (·.slot) = slots ↔
      ∀ name ∈ params.filterMap (·.directName?), ¬ p.Clashes name := by
  induction hplans generalizing slots with
  | nil =>
    cases hslots
    simp
  | @cons param q params plans hplan _ ih =>
    obtain ⟨slot, others, hslot, hrest, rfl⟩ := Signature.paramSlots_cons_eq_ok.mp hslots
    rw [List.map_cons, List.cons.injEq, slot_planParam_eq_iff hplan hslot, ih hrest]
    cases hname : param.directName? <;> simp [hname]

/-- The result is planned in the slot of the signature unless its name clashes. -/
theorem Plans.slot_result_eq_iff (h : p.Plans c plan) {slot : Slot}
    (hslot : Signature.resultSlot p.registry p.platform c = .ok slot) :
    plan.result.slot = slot ↔ ∀ name, c.resultName? = some name → ¬ p.Clashes name := by
  have hresult := h.result
  by_cases hkind : c.kind = .constructor
  · rw [if_pos hkind] at hresult
    rw [Signature.resultSlot, if_pos hkind] at hslot
    cases hname : p.constructed c with
    | error e => simp [planConstructed, hname, Except.map] at hresult
    | ok name =>
      simp only [planConstructed, hname, Except.map, Except.ok.injEq] at hresult hslot
      rw [← hresult, ← hslot]
      simp [Callable.resultName?, hkind]
  · rw [if_neg hkind] at hresult
    rw [Signature.resultSlot, if_neg hkind] at hslot
    cases hshape : c.result.shape with
    | none => simp [hshape] at hslot
    | some shape =>
      cases hconversion : p.conversion shape with
      | error e => simp [planReturn, hshape, hconversion, Except.map] at hresult
      | ok result =>
        simp only [planReturn, hshape, hconversion, Except.map, Except.ok.injEq] at hresult hslot
        rw [← hresult, ← hslot]
        simpa [Callable.resultName?, hkind, hshape] using slot_conversion_eq_iff hconversion

/-- A plan implies the signature of its callable exactly where no name clashes of a value that is
passed itself. -/
theorem plan_signature_eq_iff {signature : Signature} (hplan : p.plan c = .ok plan)
    (hsignature : Signature.ofCallable p.registry p.platform c = .ok signature) :
    plan.signature = signature ↔ ∀ name ∈ c.directNames, ¬ p.Clashes name := by
  have hplans := plan_plans hplan
  obtain ⟨-, slots, result, hslots, hresult, rfl⟩ := Signature.ofCallable_eq_ok.mp hsignature
  have hparams := map_slot_eq_iff hplans.forall₂ hslots
  have hreturn := hplans.slot_result_eq_iff hresult
  have hplanned : plan.signature =
      { params := (plan.receiver.toList ++ plan.params.map (·.toParamPlan)).map (·.slot) ++
          (if c.throws then [.pointer] else [])
        result := plan.result.slot } := by
    simp [CallablePlan.signature, hplans.throws]
  rw [hplanned, Signature.mk.injEq, List.append_cancel_right_eq, hparams, hreturn]
  simp only [Callable.directNames, List.mem_append, or_imp, forall_and, Option.mem_toList]

end Planner

end ForeignCall
