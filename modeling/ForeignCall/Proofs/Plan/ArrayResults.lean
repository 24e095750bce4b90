import ForeignCall.Proofs.Conversion.ArrayReading
import ForeignCall.Proofs.Frame.Contents
import ForeignCall.Proofs.Frame.Errors
import ForeignCall.Proofs.Plan.Cells

/-!
# Arrays that a call hands back

The number of elements of an array that comes back is a constant, a matter of the first zero
element, or what another parameter holds when the call is over (`Frame.content?`).

`ArrayConversion.HasElements` says what the elements of an array are in a given memory, and
`ArrayConversion.ReadsAs` what the host then gets.  Return values and the cells of parameters are
read in the same way, and in the frame of a call both are read so
(`CallablePlan.marshalArgs_readsArrays`).
-/

namespace ForeignCall

variable {p : Planner} {c : Callable} {plan : CallablePlan} {args : List HostValue}
  {f f' : Frame} {q : DeclaredPlan} {m : Memory} {a : Address}

/-! ### What an array is read as -/

namespace ArrayConversion

/-- The values are the elements of the array at an address; `content?` is what parameters hold. -/
inductive HasElements (c : ArrayConversion) (m : Memory) (a : Address)
    (content? : Nat → Option AbiValue) (values : List AbiValue) : Prop
  /-- A constant says how many there are. -/
  | fixed (hlength : c.length = .fixed values.length)
      (harray : m.HasArray a c.element.slot values)
  /-- A parameter says how many there are. -/
  | param {index : Nat} {abi : AbiValue} {n : Int64} (hlength : c.length = .param index)
      (hcontent : content? index = some abi) (hn : abi.toInt64? = some n)
      (hcount : n.toInt = values.length) (harray : m.HasArray a c.element.slot values)
  /-- A zero stands behind them, and none among them. -/
  | terminated {terminator : AbiValue} (hlength : c.length = .zeroTerminated)
      (hvalues : ∀ v ∈ values, ¬ v.IsZero) (hterminator : terminator.IsZero)
      (harray : m.HasArray a c.element.slot (values ++ [terminator]))

/-- What the host gets for the array at an address. -/
structure ReadsAs (c : ArrayConversion) (m : Memory) (a : Address)
    (content? : Nat → Option AbiValue) (result : Except MarshalError HostValue) : Prop where
  /-- There is no array at the null address. -/
  null : a = .null → result = .ok .null
  /-- An array of unknown length stays an address. -/
  unknown : a ≠ .null → c.length = .unknown → result = .ok (.handle (.untyped a))
  /-- The elements are converted in order, up to the first that is rejected. -/
  elements : a ≠ .null → ∀ values, c.HasElements m a content? values →
    result = (values.mapM (c.element.scalar.fromAbi m)).map .array
  /-- A parameter that holds no integer, or a negative one, says nothing of the length; neither does
  an index under which nothing is declared. -/
  unavailable : a ≠ .null → ∀ index, c.length = .param index →
    (∀ abi n, content? index = some abi → abi.toInt64? = some n → n.toInt < 0) →
    result = .error (.arrayLengthUnavailable index)

variable {conversion : ArrayConversion} {content? : Nat → Option AbiValue}
  {values : List AbiValue} {length : Option Nat}

/-- Elements that the array has are as many as are looked for, and stand in a row. -/
theorem HasElements.count (h : conversion.HasElements m a content? values)
    (hlength : ∀ index, conversion.length = .param index →
      length = (content? index).bind (·.count?)) :
    conversion.count m a length = .ok (some values.length) ∧
      conversion.element.slot.Row values (m.bytesFrom a) := by
  cases h with
  | fixed hfixed harray => exact ⟨by simp only [ArrayConversion.count, hfixed], harray.row⟩
  | @param index abi n hparam hcontent hn hcount harray =>
    have hle : 0 ≤ n.toInt := by
      rw [hcount]
      exact Int.natCast_nonneg _
    have hsome : length = some values.length := by
      rw [hlength index hparam, hcontent, Option.bind_some, AbiValue.count?_of_toInt64? hn,
        if_pos hle, hcount, Int.toNat_natCast]
    exact ⟨by simp only [ArrayConversion.count, hparam, hsome], harray.row⟩
  | terminated hterminated hvalues hterminator harray =>
    have hnonzero : ∀ v ∈ values, v.isZero = false := fun v hv =>
      AbiValue.isZero_eq_false_iff.mpr (hvalues v hv)
    have hzero := AbiValue.isZero_iff.mpr hterminator
    exact ⟨count_of_terminated hterminated harray.row hnonzero hzero, harray.row.left⟩

/-- The array at an address is read as `ReadsAs` says, if the length that is given is the one that
its parameter holds. -/
theorem fromAbi_readsAs
    (hlength : ∀ index, conversion.length = .param index →
      length = (content? index).bind (·.count?)) :
    conversion.ReadsAs m a content? (conversion.fromAbi m (.pointer a) length) := by
  have hopen : conversion.fromAbi m (.pointer a) length = conversion.fromAddress m a length := rfl
  have hisNull : a ≠ .null → a.isNull = false := Address.isNull_eq_false_iff.mpr
  rw [hopen]
  constructor
  case null =>
    rintro rfl
    rfl
  case unknown =>
    intro ha hunknown
    simp [fromAddress, hisNull ha, ArrayConversion.count, hunknown]
  case elements =>
    intro ha values helements
    obtain ⟨hcount, hrow⟩ := helements.count hlength
    exact fromAddress_eq_mapM (hisNull ha) hcount hrow
  case unavailable =>
    intro ha index hparam hcontent
    have hnone : length = none := by
      rw [hlength index hparam]
      cases habi : content? index with
      | none => rfl
      | some abi =>
        rw [Option.bind_some]
        exact AbiValue.count?_eq_none fun n hn => hcontent abi n habi hn
    simp [fromAddress, hisNull ha, ArrayConversion.count, hparam, hnone]

/-- The array at an address is read with the length that the frame holds. -/
theorem fromAbi_readsAs_content (conversion : ArrayConversion) (f : Frame) (m : Memory)
    (a : Address) :
    conversion.ReadsAs m a f.content? (conversion.fromAbi m (.pointer a)
      (CallablePlan.arrayLength? (.array conversion) f)) := by
  refine fromAbi_readsAs fun index hparam => ?_
  obtain ⟨element, length⟩ := conversion
  obtain rfl : length = .param index := hparam
  exact f.arrayLength?_eq index

end ArrayConversion

/-! ### The frame of a call -/

namespace CallablePlan

/-- Where no error is reported, the native result is converted and the frame stays. -/
theorem unmarshalReturn_eq (h : f.errorAddress = .null) (native : Native) (value : AbiValue) :
    plan.unmarshalReturn native f value = (plan.result.conversion.fromAbi (f.memory native)
      value (arrayLength? plan.result.conversion f), f) := by
  have hreported : (if plan.throws then f.takeError native else (none, f)) = (none, f) := by
    rw [Frame.takeError_of_null h, ite_self]
  rw [unmarshalReturn, hreported]

/-- Cells that are read one by one are read in order, up to the first that is rejected. -/
theorem collect_eq_mapM {params : List DeclaredPlan}
    {read : DeclaredPlan → Except MarshalError HostValue}
    (h : ∀ q ∈ params, q.ReadsOut m f (read q)) :
    collect m f params = params.mapM fun q => (read q).map (q.ident, ·) := by
  induction params with
  | nil => rfl
  | cons q params ih =>
    obtain ⟨hfirst, hrest⟩ := List.forall_mem_cons.mp h
    rw [List.mapM_cons, ← ih hrest]
    cases hread : read q with
    | error e =>
      rw [hread] at hfirst
      exact collect_cons_error hfirst
    | ok host =>
      rw [hread] at hfirst
      rw [collect_cons_ok hfirst]
      cases collect m f params <;> rfl

/-- A parameter with a cell holds what is in the cell, and any other what was passed for it. -/
theorem content?_eq (hplan : p.plan c = .ok plan) (hargs : plan.marshalArgs args = .ok f)
    (hafter : f.Rewritten f') (hq : q ∈ plan.params) :
    f'.content? q.index =
      if q.usesCell then f'.outValue? q.index else f.declaredArg? q.index := by
  by_cases hcell : q.usesCell = true
  · have hcells := (marshalArgs_hasCells hplan hargs).rewritten hafter
    rw [if_pos hcell, Frame.content?, Option.or_of_isSome (hcells.outValue_isSome q hq hcell)]
  · have hindices := (Planner.plan_plans hplan).params.pairwise_index
    obtain ⟨receiver, declared, error, hmarshalled⟩ := marshalArgs_marshalled hargs
    obtain ⟨value, abi, -, hdeclared, -⟩ :=
      hmarshalled.exists_byValue hindices hq (by simpa using hcell)
    have hdeclared' := (hafter.declared?_eq q.index).trans hdeclared
    rw [if_neg hcell, Frame.content?_byValue hdeclared', Frame.declaredArg?, hdeclared]
    rfl

/-- Something is held under the indices of the declared parameters and under no other. -/
theorem isSome_content?_iff (hplan : p.plan c = .ok plan) (hargs : plan.marshalArgs args = .ok f)
    (hafter : f.Rewritten f') (index : Nat) :
    (f'.content? index).isSome = true ↔ c.DeclaresFixed index := by
  have hplans := Planner.plan_plans hplan
  obtain ⟨receiver, declared, error, hmarshalled⟩ := marshalArgs_marshalled hargs
  have hsame : f'.declaredArg? index = f.declaredArg? index := by
    rw [Frame.declaredArg?, hafter.declared?_eq, Frame.declaredArg?]
  rw [f'.isSome_content?, hsame]
  exact hmarshalled.declaredArg?_isSome_iff hplans index

/-- The cell of an array parameter holds an address, whatever the callee has left in it. -/
theorem HasCells.exists_pointer (h : plan.HasCells f) (hafter : f.Rewritten f')
    (hq : q ∈ plan.params) (hcell : q.usesCell = true) (hslot : q.conversion.slot = .pointer) :
    ∃ a, f'.outValue? q.index = some (.pointer a) := by
  obtain ⟨value, hvalue, hvalueSlot⟩ := (h.rewritten hafter).exists_outValue? hq hcell
  rw [hslot] at hvalueSlot
  cases value with
  | pointer a => exact ⟨a, hvalue⟩
  | _ => cases hvalueSlot

/-- How the arrays that a call hands back are read.  `f` is the frame that the call was made with,
and `after` the frame when it is over. -/
structure ReadsArrays (plan : CallablePlan) (c : Callable) (native : Native) (f after : Frame) :
    Prop where
  /-- Something is held under the indices of the declared parameters and under no other. -/
  content_isSome : ∀ index, (after.content? index).isSome = true ↔ c.DeclaresFixed index
  /-- A parameter with a cell holds what is in the cell, and any other what was passed for it. -/
  content_eq : ∀ q ∈ plan.params, after.content? q.index =
    if q.usesCell then after.outValue? q.index else f.declaredArg? q.index
  /-- The native result is read as an array. -/
  result : ∀ conversion, plan.result.conversion = .array conversion → ∀ a,
    conversion.ReadsAs (after.memory native) a after.content?
      (plan.unmarshalReturn native after (.pointer a)).1
  /-- The parameters with a cell are read in order, up to the first that is rejected, and those that
  are arrays are read as such. -/
  params : ∃ read : DeclaredPlan → Except MarshalError HostValue,
    plan.collectOut native after = (plan.cellParams.mapM fun q => (read q).map (q.ident, ·)) ∧
    ∀ q ∈ plan.cellParams, ∀ conversion, q.conversion = .array conversion →
      ∃ a, after.outValue? q.index = some (.pointer a) ∧
        conversion.ReadsAs (after.memory native) a after.content? (read q)

/-- When a call is over that reported no error, whatever the callee has left in the cells and
whatever native memory holds, arrays are read element by element with the length that is declared
for them. -/
theorem marshalArgs_readsArrays {after : Frame} (hplan : p.plan c = .ok plan)
    (hargs : plan.marshalArgs args = .ok f) (hafter : f.Rewritten after)
    (herror : after.errorAddress = .null) (native : Native) :
    plan.ReadsArrays c native f after := by
  have hcells := marshalArgs_hasCells hplan hargs
  constructor
  case content_isSome => exact isSome_content?_iff hplan hargs hafter
  case content_eq => exact fun q hq => content?_eq hplan hargs hafter hq
  case result =>
    intro conversion hconversion a
    rw [unmarshalReturn_eq herror, hconversion]
    exact conversion.fromAbi_readsAs_content after (after.memory native) a
  case params =>
    -- A cell always holds a value, so the other reading is never taken.
    let read : DeclaredPlan → Except MarshalError HostValue := fun q =>
      q.conversion.fromAbi (after.memory native) ((after.outValue? q.index).getD .null)
        (arrayLength? q.conversion after)
    have hreads : ∀ q ∈ plan.cellParams, q.ReadsOut (after.memory native) after (read q) := by
      intro q hq
      obtain ⟨hmem, hcell⟩ := List.mem_filter.mp hq
      have hsome : (after.outValue? q.index).isSome = true := by
        rw [hafter.isSome_outValue?]
        exact hcells.outValue_isSome q hmem hcell
      obtain ⟨value, hvalue⟩ := Option.isSome_iff_exists.mp hsome
      refine ⟨value, hvalue, ?_⟩
      simp only [read, hvalue, Option.getD_some]
    refine ⟨read, collect_eq_mapM hreads, ?_⟩
    intro q hq conversion hconversion
    obtain ⟨hmem, hcell⟩ := List.mem_filter.mp hq
    have hslot : q.conversion.slot = .pointer := by
      rw [hconversion]
      rfl
    obtain ⟨a, ha⟩ := hcells.exists_pointer hafter hmem hcell hslot
    refine ⟨a, ha, ?_⟩
    simp only [read, ha, Option.getD_some, hconversion]
    exact conversion.fromAbi_readsAs_content after (after.memory native) a

end CallablePlan

namespace Sample

/-- A function that returns an array and stores the number of its elements. -/
def list : Callable :=
  { function "list" [parameter "n_values" "gint" .output] with
    result := ⟨some (.array ⟨.unqualified "gint", .param 0, none, none⟩), .none, false⟩ }

/-- Native memory with an array of two elements. -/
def listMemory : Native := [⟨4096, elementBytes [.i32 7, .i32 9]⟩]

end Sample

/-- The array of the sample call is read with the length that the callee stored. -/
theorem CallablePlan.marshalArgs_readsArrays_sample :
    ∃ plan f, Sample.planner.plan Sample.list = .ok plan ∧ plan.marshalArgs [] = .ok f ∧
      f.Rewritten (f.writeAll [] [.value 0 (.i32 2)]).2 ∧
      (f.writeAll [] [.value 0 (.i32 2)]).2.errorAddress = .null ∧
      (plan.unmarshalReturn Sample.listMemory (f.writeAll [] [.value 0 (.i32 2)]).2
        (.pointer (.native 4096))).1 = .ok (.array [.int 7, .int 9]) := by
  refine ⟨_, _, by rfl, by rfl, Frame.rewritten_writeAll [] _ _, by rfl, ?_⟩
  have hreads := @marshalArgs_readsArrays Sample.planner Sample.list _ [] _ _ (by rfl) (by rfl)
    (Frame.rewritten_writeAll [] _ [.value 0 (.i32 2)]) (by rfl) Sample.listMemory
  have hrow : Slot.i32.Row [.i32 7, .i32 9] (elementBytes [.i32 7, .i32 9] ++ []) :=
    Slot.row_elementBytes (by decide) []
  refine (hreads.result ⟨.numeric .i32, .param 0⟩ rfl (.native 4096)).elements (by decide)
    [.i32 7, .i32 9] ?_
  refine .param rfl (by rfl) (by rfl) (by rfl) ((Memory.hasArray_iff_row ?_).mpr hrow)
  exact (by decide : Native.Apart Sample.listMemory)

end ForeignCall
