import ForeignCall.Proofs.Planning.SameTypes
import ForeignCall.Proofs.Signature.Agreement

/-!
# Which callables can be bound

A callable is bound if its signature can be built and it can be planned.  Both go through the
declaration on their own and fail for reasons of their own.  A signature needs a native symbol and a
type for whatever it looks at (`Callable.HasSignature`); what a constructor returns it does not look
at.  A plan needs no symbol, but a type that can be converted (`Registry.Converts`), which an array
of nothing cannot be (`Registry.IsVoidArray`), also where only an address is passed; a constructor
needs to know what it makes (`Registry.CanPlan`).

Both conditions are exact (`Callable.exists_signature_iff`, `Planner.exists_plan_iff`).  Hence
whatever can be planned has a signature unless it lacks a symbol, and both have as many arguments as
are declared (`Planner.planning_succeeds_iff`).
-/

namespace ForeignCall

/-! ### What a declaration must have -/

/-- The shape is an array whose elements are of the type without values.  An enumeration of that
name has values. -/
def Registry.IsVoidArray (r : Registry) : Shape → Prop
  | .scalar _ => False
  | .array spec => spec.container = none ∧ r.resolve spec.element = .basic .void ∧
      r.enumeration? spec.element = none

/-- There is a shape, and values of it can be converted. -/
def Registry.Converts (r : Registry) (shape? : Option Shape) : Prop :=
  ∃ shape, shape? = some shape ∧ ¬ r.IsVoidArray shape

namespace Callable

/-- The receiver, if there is one, and the parameters without the variadic markers. -/
def nativeParams (c : Callable) : List Parameter := c.receiver.toList ++ c.fixedParams

/-- The number of native arguments: the receiver, the parameters without the variadic markers, and
the address for an error. -/
def nativeArity (c : Callable) : Nat :=
  (if c.receiver.isSome then 1 else 0) + c.fixedParams.length + (if c.throws then 1 else 0)

/-- The declaration has all that a signature is made from. -/
structure HasSignature (c : Callable) : Prop where
  linkage : c.kind = .callback ∨ c.linkage ≠ ""
  params : ∀ param ∈ c.nativeParams, param.shape.isSome = true
  result : c.kind = .constructor ∨ c.result.shape.isSome = true

end Callable

/-- The declaration has all that a plan is made from. -/
structure Registry.CanPlan (r : Registry) (c : Callable) : Prop where
  params : ∀ param ∈ c.nativeParams, r.Converts param.shape
  result : if c.kind = .constructor
    then c.owner.isSome = true ∨ ∃ name, c.result.shape = some (.scalar name)
    else r.Converts c.result.shape

/-- What can be converted is there. -/
theorem Registry.Converts.isSome {r : Registry} {shape? : Option Shape} (h : r.Converts shape?) :
    shape?.isSome = true := by
  obtain ⟨shape, rfl, -⟩ := h
  rfl

/-- What can be planned has all that a signature is made from, but for the native symbol. -/
theorem Registry.CanPlan.hasSignature {r : Registry} {c : Callable} (h : r.CanPlan c)
    (hlinkage : c.kind = .callback ∨ c.linkage ≠ "") : c.HasSignature where
  linkage := hlinkage
  params param hparam := (h.params param hparam).isSome
  result := by
    by_cases hkind : c.kind = .constructor
    · exact .inl hkind
    · have hresult := h.result
      rw [if_neg hkind] at hresult
      exact .inr hresult.isSome

/-- A result is turned into another one if there is one. -/
theorem exists_map_eq_ok {ε α β : Type} {x : Except ε α} {f : α → β} :
    (∃ b, x.map f = .ok b) ↔ ∃ a, x = .ok a := by
  cases x <;> simp [Except.map]

/-! ### Signatures -/

namespace Signature

variable {r : Registry} {platform : Platform} {callable : String}

/-- A parameter has a slot if it has a shape. -/
theorem exists_paramSlot_iff {param : Parameter} :
    (∃ slot, paramSlot r platform callable param = .ok slot) ↔ param.shape.isSome = true := by
  unfold paramSlot
  cases param.shape <;> simp

/-- Parameters have slots if each of them has a shape. -/
theorem exists_paramSlots_iff {params : List Parameter} :
    (∃ slots, paramSlots r platform callable params = .ok slots) ↔
      ∀ param ∈ params, param.shape.isSome = true := by
  induction params with
  | nil => simp [paramSlots]
  | cons param rest ih =>
    rw [List.forall_mem_cons, ← ih, ← exists_paramSlot_iff (r := r)]
    constructor
    · rintro ⟨slots, hslots⟩
      obtain ⟨slot, others, hslot, hrest, -⟩ := paramSlots_cons_eq_ok.mp hslots
      exact ⟨⟨slot, hslot⟩, others, hrest⟩
    · rintro ⟨⟨slot, hslot⟩, others, hrest⟩
      exact ⟨slot :: others, paramSlots_cons_eq_ok.mpr ⟨slot, others, hslot, hrest, rfl⟩⟩

/-- There is one slot for each parameter. -/
theorem length_paramSlots {params : List Parameter} {slots : List Slot}
    (h : paramSlots r platform callable params = .ok slots) : slots.length = params.length := by
  induction params generalizing slots with
  | nil =>
    cases h
    rfl
  | cons param rest ih =>
    obtain ⟨slot, others, -, hrest, rfl⟩ := paramSlots_cons_eq_ok.mp h
    rw [List.length_cons, List.length_cons, ih hrest]

/-- A result has a slot if it is that of a constructor or has a shape. -/
theorem exists_resultSlot_iff {c : Callable} : (∃ slot, resultSlot r platform c = .ok slot) ↔
    c.kind = .constructor ∨ c.result.shape.isSome = true := by
  unfold resultSlot
  by_cases hkind : c.kind = .constructor
  · simp [hkind]
  · cases c.result.shape <;> simp [hkind]

end Signature

/-- A declaration without the native symbol that it needs has no signature for that reason. -/
theorem Signature.ofCallable_missingLinkage {c : Callable}
    (h : ¬ (c.kind = .callback ∨ c.linkage ≠ "")) (r : Registry) (platform : Platform) :
    ofCallable r platform c = .error (.missingLinkage c.displayName) := by
  obtain ⟨hkind, hlinkage⟩ := not_or.mp h
  rw [ofCallable, if_pos ⟨hkind, String.isEmpty_iff.mpr (not_not.mp hlinkage)⟩]

namespace Callable

variable {c : Callable}

/-- The number of native arguments is that of the receiver and the parameters, and one more where
the callable throws. -/
theorem nativeArity_eq (c : Callable) :
    c.nativeArity = c.nativeParams.length + if c.throws then 1 else 0 := by
  cases hreceiver : c.receiver <;> simp [nativeArity, nativeParams, hreceiver, Nat.add_comm 1]

/-- A signature can be built exactly from a declaration that has all that it is made from. -/
theorem exists_signature_iff (r : Registry) (platform : Platform) (c : Callable) :
    (∃ signature, Signature.ofCallable r platform c = .ok signature) ↔ c.HasSignature := by
  constructor
  · rintro ⟨signature, hsignature⟩
    obtain ⟨hlinkage, slots, result, hslots, hresult, -⟩ :=
      Signature.ofCallable_eq_ok.mp hsignature
    exact ⟨hlinkage, Signature.exists_paramSlots_iff.mp ⟨slots, hslots⟩,
      Signature.exists_resultSlot_iff.mp ⟨result, hresult⟩⟩
  · intro h
    have hslots : ∃ slots, Signature.paramSlots r platform c.displayName c.nativeParams =
        .ok slots := Signature.exists_paramSlots_iff.mpr h.params
    have hresult : ∃ result, Signature.resultSlot r platform c = .ok result :=
      Signature.exists_resultSlot_iff.mpr h.result
    obtain ⟨slots, hslots⟩ := hslots
    obtain ⟨result, hresult⟩ := hresult
    exact ⟨_, Signature.ofCallable_eq_ok.mpr ⟨h.linkage, slots, result, hslots, hresult, rfl⟩⟩

/-- A signature has as many arguments as are declared. -/
theorem arity_of_ofCallable {r : Registry} {platform : Platform} {signature : Signature}
    (h : Signature.ofCallable r platform c = .ok signature) : signature.arity = c.nativeArity := by
  obtain ⟨-, slots, result, hslots, -, rfl⟩ := Signature.ofCallable_eq_ok.mp h
  have hlength : slots.length = c.nativeParams.length := Signature.length_paramSlots hslots
  rw [nativeArity_eq, ← hlength, Signature.arity, List.length_append]
  split <;> rfl

end Callable

/-! ### Plans -/

namespace Planner

variable {p : Planner} {c : Callable} {plan : CallablePlan}

/-- An element is planned unless its type is the one without values. -/
theorem exists_ofElement_iff {name : TypeName} : (∃ found, p.ofElement name = .ok found) ↔
    ¬ (p.registry.resolve name = .basic .void ∧ p.registry.enumeration? name = none) := by
  unfold ofElement
  cases p.registry.enumeration? name with
  | some found => simp
  | none =>
    cases p.registry.resolve name with
    | basic b => cases b <;> simp [ofElementClass, BasicType.isVoid, BasicType.isBoolean,
        BasicType.isString, BasicType.isPointer]
    | callback other => simp [ofElementClass]
    | object other => simp [ofElementClass]

/-- A shape is planned unless it is an array of nothing. -/
theorem exists_conversion_iff {shape : Shape} :
    (∃ found, p.conversion shape = .ok found) ↔ ¬ p.registry.IsVoidArray shape := by
  cases shape with
  | scalar name => simp [conversion, Registry.IsVoidArray]
  | array spec =>
    cases hcontainer : spec.container with
    | some container => simp [conversion, Registry.IsVoidArray, hcontainer]
    | none =>
      simp only [conversion, hcontainer, exists_map_eq_ok, exists_ofElement_iff,
        Registry.IsVoidArray, true_and]

/-- A parameter is planned if its shape can be converted. -/
theorem exists_planParam_iff {param : Parameter} :
    (∃ q, p.planParam param = .ok q) ↔ p.registry.Converts param.shape := by
  constructor
  · rintro ⟨q, hq⟩
    obtain ⟨shape, conversion, hostType, hshape, hconversion, -⟩ := planParam_eq_ok.mp hq
    exact ⟨shape, hshape, exists_conversion_iff.mp ⟨_, hconversion⟩⟩
  · rintro ⟨shape, hshape, hvoid⟩
    obtain ⟨⟨conversion, hostType⟩, hconversion⟩ := exists_conversion_iff.mpr hvoid
    exact ⟨_, planParam_eq_ok.mpr ⟨shape, conversion, hostType, hshape, hconversion, rfl⟩⟩

/-- Parameters are planned if the shape of each can be converted; the variadic marker needs none. -/
theorem exists_planParams_iff {params : List Parameter} {index : Nat} :
    (∃ plans, p.planParams index params = .ok plans) ↔
      ∀ param ∈ params.filter (!·.isVariadic), p.registry.Converts param.shape := by
  induction params generalizing index with
  | nil => simp [planParams]
  | cons param rest ih =>
    by_cases hvariadic : param.isVariadic = true
    · rw [planParams, if_pos hvariadic, ih, List.filter_cons_of_neg (by simp [hvariadic])]
    · have hrest : (∃ plans, p.planParams (index + 1) rest = .ok plans) ↔
          ∀ param ∈ rest.filter (!·.isVariadic), p.registry.Converts param.shape := ih
      rw [planParams, if_neg hvariadic, List.filter_cons_of_pos (by simp [hvariadic]),
        List.forall_mem_cons, ← exists_planParam_iff, ← hrest]
      cases p.planParam param with
      | error e => simp
      | ok q => simp [exists_map_eq_ok]

/-- A receiver is planned if its shape can be converted. -/
theorem exists_planReceiver_iff {receiver? : Option Parameter} :
    (∃ q?, p.planReceiver receiver? = .ok q?) ↔
      ∀ param ∈ receiver?.toList, p.registry.Converts param.shape := by
  cases receiver? with
  | none => simp [planReceiver]
  | some receiver => simp [planReceiver, exists_map_eq_ok, exists_planParam_iff]

/-- What a constructor returns is planned if its owner is known or the type that it declares is no
array. -/
theorem exists_planConstructed_iff : (∃ result, p.planConstructed c = .ok result) ↔
    c.owner.isSome = true ∨ ∃ name, c.result.shape = some (.scalar name) := by
  rw [planConstructed, exists_map_eq_ok, constructed]
  rcases c.owner with _ | owner
  · rcases c.result.shape with _ | ⟨_ | _⟩ <;> simp
  · simp

/-- A return value is planned if its shape can be converted. -/
theorem exists_planReturn_iff {ret : ReturnValue} :
    (∃ result, p.planReturn ret = .ok result) ↔ p.registry.Converts ret.shape := by
  unfold planReturn Registry.Converts
  cases ret.shape with
  | none => simp
  | some shape =>
    dsimp only
    rw [exists_map_eq_ok, exists_conversion_iff]
    simp

/-- A callable is planned if its receiver, its parameters and its result are. -/
theorem exists_plan_iff_parts : (∃ plan, p.plan c = .ok plan) ↔
    (∃ receiver, p.planReceiver c.receiver = .ok receiver) ∧
    (∃ params, p.planParams 0 c.params = .ok params) ∧
    ∃ result, (if c.kind = .constructor then p.planConstructed c else p.planReturn c.result) =
      .ok result := by
  unfold Planner.plan
  cases p.planReceiver c.receiver with
  | error e => simp
  | ok receiver =>
    cases p.planParams 0 c.params with
    | error e => simp
    | ok params => simp [exists_map_eq_ok]

/-- A plan can be made exactly from a declaration that has all that it is made from. -/
theorem exists_plan_iff (p : Planner) (c : Callable) :
    (∃ plan, p.plan c = .ok plan) ↔ p.registry.CanPlan c := by
  have hresult : (∃ result, (if c.kind = .constructor then p.planConstructed c
      else p.planReturn c.result) = .ok result) ↔ if c.kind = .constructor
        then c.owner.isSome = true ∨ ∃ name, c.result.shape = some (.scalar name)
        else p.registry.Converts c.result.shape := by
    split
    · exact exists_planConstructed_iff
    · exact exists_planReturn_iff
  rw [exists_plan_iff_parts, exists_planReceiver_iff, exists_planParams_iff, hresult]
  constructor
  · rintro ⟨hreceiver, hparams, hresult⟩
    exact ⟨List.forall_mem_append.mpr ⟨hreceiver, hparams⟩, hresult⟩
  · rintro ⟨hparams, hresult⟩
    obtain ⟨hreceiver, hparams⟩ := List.forall_mem_append.mp hparams
    exact ⟨hreceiver, hparams, hresult⟩

/-- The signature of a plan has as many arguments as are declared. -/
theorem Plans.arity_signature (h : p.Plans c plan) : plan.signature.arity = c.nativeArity := by
  have hlength : c.nativeParams.length =
      (plan.receiver.toList ++ plan.params.map (·.toParamPlan)).length := h.forall₂.length_eq
  rw [Callable.nativeArity_eq, hlength, CallablePlan.signature, Signature.arity, h.throws]
  cases c.throws <;> simp [Nat.add_assoc]

/-- Which callables can be bound: those that a signature and a plan can be made from.  A signature
needs a native symbol unless it is that of a callback, and a shape wherever it looks; a plan needs a
shape that can be converted.  What can be planned has a signature or lacks its symbol only, and both
have the arguments that are declared: the receiver, the parameters and the address for an error. -/
theorem planning_succeeds_iff (p : Planner) (c : Callable) :
    ((∃ signature, Signature.ofCallable p.registry p.platform c = .ok signature) ↔
      c.HasSignature) ∧
    ((∃ plan, p.plan c = .ok plan) ↔ p.registry.CanPlan c) ∧
    ∀ plan, p.plan c = .ok plan → plan.signature.arity = c.nativeArity ∧
      ((∃ signature, Signature.ofCallable p.registry p.platform c = .ok signature ∧
          signature.arity = plan.signature.arity) ∨
        Signature.ofCallable p.registry p.platform c =
          .error (.missingLinkage c.displayName)) := by
  refine ⟨c.exists_signature_iff p.registry p.platform, p.exists_plan_iff c, ?_⟩
  intro plan hplan
  have harity : plan.signature.arity = c.nativeArity := (plan_plans hplan).arity_signature
  have hcan : p.registry.CanPlan c := (p.exists_plan_iff c).mp ⟨plan, hplan⟩
  refine ⟨harity, ?_⟩
  by_cases hlinkage : c.kind = .callback ∨ c.linkage ≠ ""
  · obtain ⟨signature, hsignature⟩ :=
      (c.exists_signature_iff p.registry p.platform).mpr (hcan.hasSignature hlinkage)
    exact .inl ⟨signature, hsignature, (c.arity_of_ofCallable hsignature).trans harity.symm⟩
  · exact .inr (Signature.ofCallable_missingLinkage hlinkage p.registry p.platform)

end Planner

/-- Without its symbol a method is planned, with the seven arguments that it declares, and has no
signature. -/
theorem Planner.planning_succeeds_iff_sample :
    let c : Callable := { Sample.fill with linkage := "" }
    ∃ plan, Sample.planner.plan c = .ok plan ∧ Sample.planner.registry.CanPlan c ∧
      plan.signature.arity = 7 ∧ ¬ c.HasSignature ∧
      Signature.ofCallable Sample.planner.registry .reference c =
        .error (.missingLinkage "Buffer.fill") := by
  intro c
  obtain ⟨hsignature, hplanned, hagree⟩ := Sample.planner.planning_succeeds_iff c
  have hplan : ∃ plan, Sample.planner.plan c = .ok plan := ⟨_, rfl⟩
  obtain ⟨plan, hplan⟩ := hplan
  have hnone : ¬ c.HasSignature := fun h => absurd h.linkage (by decide)
  obtain ⟨harity, hbuilt | hmissing⟩ := hagree plan hplan
  · obtain ⟨signature, hbuilt, -⟩ := hbuilt
    exact absurd (hsignature.mp ⟨signature, hbuilt⟩) hnone
  · exact ⟨plan, hplan, hplanned.mp ⟨plan, hplan⟩, harity, hnone, hmissing⟩

end ForeignCall
