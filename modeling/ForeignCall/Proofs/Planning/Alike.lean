import Mathlib.Data.List.Forall2
import ForeignCall.Planner

/-!
# Declarations that are planned alike

Plans and signatures look up nothing but the shapes of a declaration; names, directions, flags and
the order of the parameters are taken as they are written.  So what two planners make of two
callables is the same as soon as it is the same for their shapes.

`Planner.AlikeShapes p p' s s'` says that `p` makes of `s` what `p'` makes of `s'`, and
`Planner.AlikeParams`, `Planner.AlikeReturns` and `Planner.AlikeCallables` carry this over to whole
declarations.  `Planner.AlikeCallables.plan_eq` and `Planner.AlikeCallables.signature_eq` are the
results: equal plans and equal signatures, or the same errors.  The planners may differ in their
registries, and the callables in the way in which their types are written.
-/

namespace ForeignCall

namespace Planner

/-- Planner `p` makes of the shape `s` what `p'` makes of `s'`. -/
structure AlikeShapes (p p' : Planner) (s s' : Shape) : Prop where
  /-- The shapes have the same conversion and host type, or none for the same reason. -/
  conversion_eq : p.conversion s = p'.conversion s'
  /-- The shapes have the same slot in a signature. -/
  slot_eq : Signature.shapeSlot p.registry p.platform s =
    Signature.shapeSlot p'.registry p'.platform s'

/-- The parameters differ in nothing but their shapes, and these are planned alike. -/
structure AlikeParams (p p' : Planner) (a a' : Parameter) : Prop where
  name_eq : a.name = a'.name
  transfer_eq : a.transfer = a'.transfer
  direction_eq : a.direction = a'.direction
  flags_eq : a.flags = a'.flags
  shape : Option.Rel (p.AlikeShapes p') a.shape a'.shape

/-- The return values differ in nothing but their shapes, and these are planned alike. -/
structure AlikeReturns (p p' : Planner) (a a' : ReturnValue) : Prop where
  transfer_eq : a.transfer = a'.transfer
  nullable_eq : a.nullable = a'.nullable
  shape : Option.Rel (p.AlikeShapes p') a.shape a'.shape

/-- The callables have the same name and kind, and parameters and results that are planned alike. -/
structure AlikeCallables (p p' : Planner) (c c' : Callable) : Prop where
  name_eq : c.name = c'.name
  owner_eq : c.owner = c'.owner
  linkage_eq : c.linkage = c'.linkage
  kind_eq : c.kind = c'.kind
  throws_eq : c.throws = c'.throws
  receiver : Option.Rel (p.AlikeParams p') c.receiver c'.receiver
  params : List.Forall₂ (p.AlikeParams p') c.params c'.params
  /-- What a constructor returns is not read off its shape alone. -/
  constructed_eq : c.kind = .constructor → p.planConstructed c = p'.planConstructed c'
  result : c.kind ≠ .constructor → p.AlikeReturns p' c.result c'.result

variable {p p' : Planner}

/-! ### Parameters -/

namespace AlikeParams

variable {a a' : Parameter}

theorem isVariadic_eq (h : p.AlikeParams p' a a') : a.isVariadic = a'.isVariadic := by
  rw [Parameter.isVariadic, Parameter.isVariadic, h.name_eq]

/-- Parameters that are planned alike have equal plans. -/
theorem planParam_eq (h : p.AlikeParams p' a a') (hidentifiers : p.identifiers = p'.identifiers) :
    p.planParam a = p'.planParam a' := by
  have hshape := h.shape
  unfold planParam
  generalize a.shape = s at hshape ⊢
  generalize a'.shape = s' at hshape ⊢
  cases hshape with
  | none => rw [h.name_eq]
  | some hs =>
    dsimp only
    rw [hs.conversion_eq, h.name_eq, h.transfer_eq, h.direction_eq, h.flags_eq, hidentifiers]

/-- Parameters that are planned alike have equal slots in a signature. -/
theorem paramSlot_eq (h : p.AlikeParams p' a a') (callable : String) :
    Signature.paramSlot p.registry p.platform callable a =
      Signature.paramSlot p'.registry p'.platform callable a' := by
  have hshape := h.shape
  unfold Signature.paramSlot
  generalize a.shape = s at hshape ⊢
  generalize a'.shape = s' at hshape ⊢
  cases hshape with
  | none => rw [h.name_eq]
  | some hs =>
    dsimp only
    rw [hs.slot_eq, h.direction_eq]

end AlikeParams

variable {params params' : List Parameter}

/-- Lists of parameters that are planned alike have equal plans. -/
theorem planParams_eq_of_alike (h : List.Forall₂ (p.AlikeParams p') params params')
    (hidentifiers : p.identifiers = p'.identifiers) (index : Nat) :
    p.planParams index params = p'.planParams index params' := by
  induction h generalizing index with
  | nil => rfl
  | cons hfirst _ ih =>
    rw [planParams, planParams, hfirst.isVariadic_eq, hfirst.planParam_eq hidentifiers, ih]

/-- Lists of parameters that are planned alike have equal slots in a signature. -/
theorem paramSlots_eq_of_alike (h : List.Forall₂ (p.AlikeParams p') params params')
    (callable : String) : Signature.paramSlots p.registry p.platform callable params =
      Signature.paramSlots p'.registry p'.platform callable params' := by
  induction h with
  | nil => rfl
  | cons hfirst _ ih =>
    rw [Signature.paramSlots, Signature.paramSlots, hfirst.paramSlot_eq, ih]

/-! ### Results -/

namespace AlikeReturns

variable {a a' : ReturnValue}

/-- Return values that are planned alike have equal plans. -/
theorem planReturn_eq (h : p.AlikeReturns p' a a') : p.planReturn a = p'.planReturn a' := by
  have hshape := h.shape
  unfold planReturn
  generalize a.shape = s at hshape ⊢
  generalize a'.shape = s' at hshape ⊢
  cases hshape with
  | none => rfl
  | some hs =>
    dsimp only
    rw [hs.conversion_eq, h.transfer_eq, h.nullable_eq]

end AlikeReturns

/-! ### Callables -/

namespace AlikeCallables

variable {c c' : Callable}

theorem displayName_eq (h : p.AlikeCallables p' c c') : c.displayName = c'.displayName := by
  rw [Callable.displayName, Callable.displayName, h.owner_eq, h.name_eq]

theorem planReceiver_eq (h : p.AlikeCallables p' c c')
    (hidentifiers : p.identifiers = p'.identifiers) :
    p.planReceiver c.receiver = p'.planReceiver c'.receiver := by
  have hreceiver := h.receiver
  generalize c.receiver = a at hreceiver ⊢
  generalize c'.receiver = a' at hreceiver ⊢
  cases hreceiver with
  | none => rfl
  | some ha => rw [planReceiver, planReceiver, ha.planParam_eq hidentifiers]

/-- The results of callables that are planned alike have equal plans. -/
theorem planResult_eq (h : p.AlikeCallables p' c c') :
    (if c.kind = .constructor then p.planConstructed c else p.planReturn c.result) =
      if c'.kind = .constructor then p'.planConstructed c' else p'.planReturn c'.result := by
  have hkind := h.kind_eq
  by_cases hconstructor : c.kind = .constructor
  · rw [if_pos hconstructor, if_pos (hkind ▸ hconstructor), h.constructed_eq hconstructor]
  · rw [if_neg hconstructor, if_neg (hkind ▸ hconstructor), (h.result hconstructor).planReturn_eq]

/-- Callables that are planned alike have equal plans. -/
theorem plan_eq (h : p.AlikeCallables p' c c') (hidentifiers : p.identifiers = p'.identifiers) :
    p.plan c = p'.plan c' := by
  have hreceiver := h.planReceiver_eq hidentifiers
  have hparams := planParams_eq_of_alike h.params hidentifiers 0
  unfold plan
  rw [hreceiver, hparams, h.planResult_eq, h.displayName_eq, h.linkage_eq, h.kind_eq, h.throws_eq]

/-- The receiver and the parameters without the variadic markers are planned alike. -/
theorem fixedParams (h : p.AlikeCallables p' c c') :
    List.Forall₂ (p.AlikeParams p') (c.receiver.toList ++ c.fixedParams)
      (c'.receiver.toList ++ c'.fixedParams) := by
  have hreceiver := h.receiver
  have hfixed : List.Forall₂ (p.AlikeParams p') c.fixedParams c'.fixedParams :=
    List.rel_filter (fun a a' ha => by simp [ha.isVariadic_eq]) h.params
  refine List.rel_append ?_ hfixed
  generalize c.receiver = a at hreceiver ⊢
  generalize c'.receiver = a' at hreceiver ⊢
  cases hreceiver with
  | none => exact .nil
  | some ha => exact .cons ha .nil

/-- The results of callables that are planned alike have equal slots. -/
theorem resultSlot_eq (h : p.AlikeCallables p' c c') :
    Signature.resultSlot p.registry p.platform c =
      Signature.resultSlot p'.registry p'.platform c' := by
  have hkind := h.kind_eq
  unfold Signature.resultSlot
  by_cases hconstructor : c.kind = .constructor
  · rw [if_pos hconstructor, if_pos (hkind ▸ hconstructor)]
  · rw [if_neg hconstructor, if_neg (hkind ▸ hconstructor), h.displayName_eq]
    have hshape := (h.result hconstructor).shape
    generalize c.result.shape = s at hshape ⊢
    generalize c'.result.shape = s' at hshape ⊢
    cases hshape with
    | none => rfl
    | some hs =>
      dsimp only
      rw [hs.slot_eq]

/-- Callables that are planned alike have equal signatures. -/
theorem signature_eq (h : p.AlikeCallables p' c c') :
    Signature.ofCallable p.registry p.platform c =
      Signature.ofCallable p'.registry p'.platform c' := by
  have hparams := paramSlots_eq_of_alike h.fixedParams c'.displayName
  unfold Signature.ofCallable
  rw [h.displayName_eq, hparams, h.resultSlot_eq, h.linkage_eq, h.kind_eq, h.throws_eq]

end AlikeCallables

end Planner

end ForeignCall
