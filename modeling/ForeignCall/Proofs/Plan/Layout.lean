import Mathlib.Data.List.Nodup
import ForeignCall.Proofs.Plan.Marshalling
import ForeignCall.Proofs.Planning

/-!
# The layout of a frame

Four numberings meet in a frame: the arguments of the host, the declared parameters with their
variadic markers, the native arguments and the cells.  `Frame.Layout` says how they lie to each
other and to the signature of the plan, and `CallablePlan.marshalArgs_layout` that every frame which
marshalling makes is laid out so.

A native argument stands at the place of its plan behind the receiver; the place of a plan is the
number of parameters declared before it (`Callable.nativePosition`).
-/

namespace ForeignCall

variable {p : Planner} {c : Callable} {plan : CallablePlan} {args : List HostValue} {f : Frame}
  {store : Storage} {q : DeclaredPlan} {value? : Option HostValue} {argument : Argument}

/-! ### Slots -/

/-- The argument of a planned parameter stands in the slot that its plan gives it. -/
theorem Argument.Carries.slot_value (h : Argument.Carries store (q, value?) argument)
    (hslot : q.slot = if q.direction.isByReference then .pointer else q.conversion.slot) :
    argument.value.slot = q.slot := by
  cases h with
  | @value _ _ abi hcell hconverted =>
    have habi : abi.slot = q.conversion.slot := hconverted.slot
    by_cases hreference : q.direction.isByReference = true
    · -- The caller provides the storage, so the value is itself an address.
      have hpointer : q.conversion.slot = .pointer := by
        simp only [ParamPlan.usesCell, hreference, Bool.true_and, Bool.not_eq_false',
          Bool.and_eq_true, beq_iff_eq] at hcell
        exact hcell.2
      rw [hslot, if_pos hreference]
      exact habi.trans hpointer
    · rw [hslot, if_neg hreference]
      exact habi
  | cell hcell | empty hcell =>
    have hreference : q.direction.isByReference = true := by
      simp only [ParamPlan.usesCell, Bool.and_eq_true] at hcell
      exact hcell.1
    rw [hslot, if_pos hreference]
    rfl

/-- The slot of a planned parameter stands in the signature behind that of the receiver. -/
theorem CallablePlan.signature_getElem? {i : Nat} (hq : plan.params[i]? = some q) :
    plan.signature.params[(if plan.receiver.isSome then 1 else 0) + i]? = some q.slot := by
  have hlength : (plan.receiver.toList.map (·.slot)).length =
      if plan.receiver.isSome then 1 else 0 := by
    cases plan.receiver <;> rfl
  have hlt : i < (plan.params.map (·.slot)).length := by
    rw [List.length_map]
    exact (List.getElem?_eq_some_iff.mp hq).1
  rw [signature, List.append_assoc, ← hlength, List.getElem?_append_right (Nat.le_add_right _ _),
    Nat.add_sub_cancel_left, List.getElem?_append_left hlt, List.getElem?_map, hq]
  rfl

/-! ### Cells -/

/-- The cell of a parameter holds a value of its slot, and a parameter without a cell none. -/
theorem Argument.Carries.outValue? (h : Argument.Carries f.storage (q, value?) argument)
    (hdeclared : f.declared? q.index = some argument) :
    if q.usesCell then ∃ value, f.outValue? q.index = some value ∧ value.slot = q.conversion.slot
    else f.outValue? q.index = none := by
  cases h with
  | value hcell =>
    rw [if_neg (by simp [hcell]), Frame.outValue?, hdeclared]
  | cell hcell _ hbytes | empty hcell hbytes =>
    rw [if_pos hcell, Frame.outValue?, hdeclared]
    dsimp only
    rw [hbytes, Option.map_some]
    exact ⟨_, rfl, q.conversion.slot.slot_decodeCell _⟩

/-- The argument that hands out a cell is the address of the cell. -/
theorem Argument.value_of_cell? {cell : Nat} (argument : Argument)
    (h : argument.cell? = some cell) : argument.value = .pointer (.owned (.cell cell) 0) := by
  cases argument <;> cases h <;> rfl

/-- The addresses of cells among the arguments are those of the cells of the frame, in order. -/
theorem Frame.CellsInOrder.map_value (h : f.CellsInOrder) :
    (f.arguments.filter (·.cell?.isSome)).map (·.value) =
      (List.range f.storage.cells.length).map fun cell => .pointer (.owned (.cell cell) 0) := by
  rw [← h]
  induction f.arguments with
  | nil => rfl
  | cons argument rest ih =>
    cases hcell : argument.cell? with
    | none =>
      rw [List.filter_cons_of_neg (by simp [hcell]), List.filterMap_cons_none hcell]
      exact ih
    | some cell =>
      rw [List.filter_cons_of_pos (by simp [hcell]), List.map_cons, ih,
        List.filterMap_cons_some hcell, List.map_cons, argument.value_of_cell? hcell]

/-! ### The layout -/

/-- How the arguments of a frame lie to the declaration of the callable and to its plan. -/
structure Frame.Layout (c : Callable) (plan : CallablePlan) (f : Frame) : Prop where
  /-- There is an argument for each slot of the signature. -/
  size_eq : f.size = plan.signature.arity
  /-- An argument that is passed for the receiver stands first, in the slot of the signature. -/
  receiver : ∀ receiver, c.receiver = some receiver → receiver.direction = .input →
    ∃ value, f.args[0]? = some value ∧ plan.signature.params[0]? = some value.slot
  /-- A declared parameter has its argument at its native position, in the slot of the
  signature. -/
  param : ∀ index, c.DeclaresFixed index → ∃ value, f.args[c.nativePosition index]? = some value ∧
    plan.signature.params[c.nativePosition index]? = some value.slot
  /-- The address for an error stands last. -/
  error : c.throws = true → ∃ cell, f.arguments.getLast? = some (.errorCell cell) ∧
    plan.signature.params.getLast? = some (Argument.errorCell cell).value.slot
  /-- Arguments are found for the declared parameters and for nothing else. -/
  declaredArg_isSome : ∀ index, (f.declaredArg? index).isSome = true ↔ c.DeclaresFixed index
  /-- What is found for a declared parameter is the argument at its native position. -/
  declaredArg_eq : ∀ index, c.DeclaresFixed index →
    f.declaredArg? index = f.args[c.nativePosition index]?
  /-- Cells are found for the parameters that use one and for nothing else. -/
  outValue_isSome : ∀ index, (f.outValue? index).isSome = true ↔
    ∃ q ∈ plan.params, q.index = index ∧ q.usesCell = true
  /-- What a cell holds stands in the slot of its parameter's conversion. -/
  outValue_slot : ∀ q ∈ plan.params, ∀ value, f.outValue? q.index = some value →
    value.slot = q.conversion.slot
  /-- The arguments that are addresses of cells are the addresses of all cells. -/
  cells : (f.arguments.filter (·.cell?.isSome)).map (·.value) =
    (List.range f.storage.cells.length).map fun cell => .pointer (.owned (.cell cell) 0)
  /-- No two of them are the same address. -/
  cells_nodup : ((f.arguments.filter (·.cell?.isSome)).map (·.value)).Nodup

/-! ### Marshalled frames -/

namespace CallablePlan.Marshalled

variable {receiver declared error : List Argument}

/-- The argument of a declared parameter stands at its native position and is found under its
index. -/
theorem exists_param (h : plan.Marshalled args f receiver declared error)
    (hplans : p.Plans c plan) {index : Nat} (hindex : c.DeclaresFixed index) :
    ∃ argument, f.arguments[c.nativePosition index]? = some argument ∧
      f.declared? index = some argument ∧
      plan.signature.params[c.nativePosition index]? = some argument.value.slot := by
  obtain ⟨param, hparam, hfixed⟩ := hindex
  obtain ⟨q, hq, rfl, hplanned⟩ := hplans.getElem? hparam hfixed
  obtain ⟨value?, argument, -, hargument, hcarries, hdeclared⟩ :=
    h.exists_argument hplans.params.pairwise_index hq
  have hslot := hcarries.slot_value (Planner.slot_of_planParam hplanned)
  refine ⟨argument, ?_, hdeclared, ?_⟩
  · rw [Callable.nativePosition, ← hplans.isSome_receiver, ← h.length_receiver]
    exact hargument
  · rw [Callable.nativePosition, ← hplans.isSome_receiver, signature_getElem? hq, hslot]

/-- Under an index that declares no parameter, nothing is found. -/
theorem declared?_eq_none_of_not_declaresFixed (h : plan.Marshalled args f receiver declared error)
    (hplans : p.Plans c plan) {index : Nat} (hindex : ¬ c.DeclaresFixed index) :
    f.declared? index = none := by
  refine h.declared?_eq_none fun q hq => ?_
  rintro rfl
  obtain ⟨param, hparam, hfixed, -⟩ := hplans.exists_of_mem hq
  exact hindex ⟨param, hparam, hfixed⟩

/-- There is an argument for each slot of the signature. -/
theorem size_eq (h : plan.Marshalled args f receiver declared error) :
    f.size = plan.signature.arity := by
  have herror : error.length = if plan.throws then 1 else 0 := by
    rw [h.error_eq]
    split <;> rfl
  have hreceiver : plan.receiver.toList.length = if plan.receiver.isSome then 1 else 0 := by
    cases plan.receiver <;> rfl
  have hthrows : (if plan.throws then [Slot.pointer] else []).length =
      if plan.throws then 1 else 0 := by
    split <;> rfl
  simp only [Frame.size, h.arguments_eq, Signature.arity, signature, List.length_append,
    List.length_map, h.length_receiver, h.length_declared, herror, hreceiver, hthrows]

/-- The receiver's argument stands in the slot of the signature, if it is passed as it is. -/
theorem exists_receiver_slot (h : plan.Marshalled args f receiver declared error)
    (hplans : p.Plans c plan) {r : Parameter} (hr : c.receiver = some r)
    (hdirection : r.direction = .input) :
    ∃ value, f.args[0]? = some value ∧ plan.signature.params[0]? = some value.slot := by
  obtain ⟨q, hq, hplanned⟩ := hplans.exists_receiver hr
  obtain ⟨value, abi, -, habi, hconverted⟩ := h.exists_receiver hq
  have hinput : q.direction.isByReference = false := by
    rw [Planner.direction_of_planParam hplanned, hdirection]
    rfl
  have hslot := Planner.slot_of_planParam hplanned
  rw [hinput, if_neg Bool.false_ne_true, ← hconverted.slot] at hslot
  exact ⟨abi, by rw [← List.head?_eq_getElem?, habi], by simp [signature, hq, hslot]⟩

/-- The argument for an error stands last. -/
theorem exists_errorCell (h : plan.Marshalled args f receiver declared error)
    (hthrows : plan.throws = true) :
    ∃ cell, f.arguments.getLast? = some (.errorCell cell) ∧
      plan.signature.params.getLast? = some (Argument.errorCell cell).value.slot := by
  refine ⟨f.storage.cells.length - 1, ?_, ?_⟩
  · rw [h.arguments_eq, h.error_eq, if_pos hthrows, List.getLast?_concat]
  · rw [signature, if_pos hthrows, List.getLast?_concat]
    rfl

/-- Arguments are found for the declared parameters and for nothing else. -/
theorem declaredArg?_isSome_iff (h : plan.Marshalled args f receiver declared error)
    (hplans : p.Plans c plan) (index : Nat) :
    (f.declaredArg? index).isSome = true ↔ c.DeclaresFixed index := by
  by_cases hindex : c.DeclaresFixed index
  · obtain ⟨argument, -, hdeclared, -⟩ := h.exists_param hplans hindex
    simp [Frame.declaredArg?, hdeclared, hindex]
  · have hnone := h.declared?_eq_none_of_not_declaresFixed hplans hindex
    simp [Frame.declaredArg?, hnone, hindex]

/-- A planned parameter that uses a cell finds a value of its slot in it, any other nothing. -/
theorem outValue?_of_mem (h : plan.Marshalled args f receiver declared error)
    (hplans : p.Plans c plan) (hq : q ∈ plan.params) :
    if q.usesCell then ∃ value, f.outValue? q.index = some value ∧ value.slot = q.conversion.slot
    else f.outValue? q.index = none := by
  obtain ⟨i, hi⟩ := List.getElem?_of_mem hq
  obtain ⟨value?, argument, -, -, hcarries, hdeclared⟩ :=
    h.exists_argument hplans.params.pairwise_index hi
  exact hcarries.outValue? hdeclared

/-- Cells are found for the parameters that use one and for nothing else. -/
theorem outValue?_isSome_iff (h : plan.Marshalled args f receiver declared error)
    (hplans : p.Plans c plan) (index : Nat) :
    (f.outValue? index).isSome = true ↔
      ∃ q ∈ plan.params, q.index = index ∧ q.usesCell = true := by
  constructor
  · intro hsome
    by_contra hnone
    by_cases hindex : ∃ q ∈ plan.params, q.index = index
    · obtain ⟨q, hq, rfl⟩ := hindex
      have hvalue := h.outValue?_of_mem hplans hq
      rw [if_neg fun hcell => hnone ⟨q, hq, rfl, hcell⟩] at hvalue
      simp [hvalue] at hsome
    · have hdeclared := h.declared?_eq_none fun q hq heq => hindex ⟨q, hq, heq⟩
      simp [Frame.outValue?, hdeclared] at hsome
  · rintro ⟨q, hq, rfl, hcell⟩
    have hvalue := h.outValue?_of_mem hplans hq
    rw [if_pos hcell] at hvalue
    obtain ⟨value, hvalue, -⟩ := hvalue
    rw [hvalue]
    rfl

/-- What a cell holds stands in the slot of its parameter's conversion. -/
theorem slot_outValue? (h : plan.Marshalled args f receiver declared error)
    (hplans : p.Plans c plan) (hq : q ∈ plan.params) {value : AbiValue}
    (hvalue : f.outValue? q.index = some value) : value.slot = q.conversion.slot := by
  have hcell := h.outValue?_of_mem hplans hq
  split at hcell
  · obtain ⟨value', hvalue', hslot⟩ := hcell
    rw [hvalue, Option.some.injEq] at hvalue'
    rw [hvalue']
    exact hslot
  · rw [hvalue] at hcell
    cases hcell

end CallablePlan.Marshalled

/-- Every frame that marshalling makes is laid out as the declaration and the plan say. -/
theorem CallablePlan.marshalArgs_layout (hplan : p.plan c = .ok plan)
    (hargs : plan.marshalArgs args = .ok f) : f.Layout c plan := by
  have hplans := Planner.plan_plans hplan
  obtain ⟨receiver, declared, error, hmarshalled⟩ := marshalArgs_marshalled hargs
  have hcells := hmarshalled.cellsInOrder.map_value
  constructor
  case size_eq => exact hmarshalled.size_eq
  case receiver => exact fun r hr => hmarshalled.exists_receiver_slot hplans hr
  case param =>
    intro index hindex
    obtain ⟨argument, hargument, -, hslot⟩ := hmarshalled.exists_param hplans hindex
    exact ⟨argument.value, by simp [Frame.args, hargument], hslot⟩
  case error =>
    intro hthrows
    exact hmarshalled.exists_errorCell (hplans.throws.trans hthrows)
  case declaredArg_isSome => exact hmarshalled.declaredArg?_isSome_iff hplans
  case declaredArg_eq =>
    intro index hindex
    obtain ⟨argument, hargument, hdeclared, -⟩ := hmarshalled.exists_param hplans hindex
    simp [Frame.declaredArg?, Frame.args, hdeclared, hargument]
  case outValue_isSome => exact hmarshalled.outValue?_isSome_iff hplans
  case outValue_slot => exact fun q hq value => hmarshalled.slot_outValue? hplans hq
  case cells => exact hcells
  case cells_nodup =>
    rw [hcells]
    refine List.Nodup.map (fun cell cell' heq => ?_) List.nodup_range
    simpa using heq

/-- The layout of the sample call: the marker takes an index but no position. -/
theorem CallablePlan.marshalArgs_layout_sample :
    ∃ plan f, Sample.planner.plan Sample.fill = .ok plan ∧
      plan.marshalArgs Sample.fillArgs = .ok f ∧ f.Layout Sample.fill plan ∧
      Sample.fill.nativePosition 5 = 5 ∧ f.declaredArg? 5 = f.args[5]? ∧
      f.outValue? 4 = some (.i32 5) ∧ f.size = 7 := by
  refine ⟨_, _, by rfl, by rfl, ?_, by rfl, by rfl, by rfl, by rfl⟩
  exact @marshalArgs_layout Sample.planner _ _ Sample.fillArgs _ (by rfl) (by rfl)

end ForeignCall
