import Mathlib.Data.List.Induction
import ForeignCall.Proofs.Frame.Writes
import ForeignCall.Proofs.Plan.Layout

/-!
# Cells after a call

During the call the callee stores values for the parameters that use a cell, and the address of an
error.  Every such store sets one cell, and no two arguments of a marshalled frame are addresses of
one cell, so a store shows under its own parameter and nowhere else (`HasCells.outValue?_write`,
`HasCells.errorAddress_write`).  `HasCells` is what carries this from one store to the next.

After any stores a cell holds the value that was stored last for its parameter, or what it started
with, and reading the cells back goes through the parameters in their order
(`CallablePlan.marshalArgs_cellsAfter`).
-/

namespace ForeignCall

variable {p : Planner} {c : Callable} {plan : CallablePlan} {args : List HostValue}
  {f : Frame} {w : CalleeWrite} {q : DeclaredPlan}

/-! ### Arguments and their cells -/

/-- No two arguments of a frame are addresses of one cell. -/
theorem Frame.CellsInOrder.eq_of_cell? (h : f.CellsInOrder) {a b : Argument} {cell : Nat}
    (ha : a ∈ f.arguments) (hb : b ∈ f.arguments) (hcell : a.cell? = some cell)
    (hcell' : b.cell? = some cell) : a = b := by
  have hnodup : ((f.arguments.filter (·.cell?.isSome)).map (·.value)).Nodup := by
    rw [h.map_value]
    refine List.Nodup.map (fun cell cell' heq => ?_) List.nodup_range
    simpa using heq
  have hvalue : a.value = b.value := (a.value_of_cell? hcell).trans (b.value_of_cell? hcell').symm
  exact List.inj_on_of_nodup_map hnodup (List.mem_filter.mpr ⟨ha, by simp [hcell]⟩)
    (List.mem_filter.mpr ⟨hb, by simp [hcell']⟩) hvalue

/-- Setting a cell adds none. -/
theorem Frame.CellsInOrder.setCell (h : f.CellsInOrder) (cell : Nat) (value : AbiValue) :
    (f.setCell cell value).CellsInOrder := by
  have hf : f.arguments.filterMap (·.cell?) = List.range f.storage.cells.length := h
  simp [CellsInOrder, Frame.setCell, Storage.store, hf]

/-- The argument for an error is among the arguments. -/
theorem Frame.mem_of_errorCell? {cell : Nat} (h : f.errorCell? = some cell) :
    .errorCell cell ∈ f.arguments := by
  obtain ⟨argument, hmem, hcell⟩ := List.exists_of_findSome?_eq_some h
  cases argument <;> cases hcell
  exact hmem

/-! ### What the callee may store -/

/-- The store is one that the callee may make: a value of its slot for a parameter that uses a cell,
or an error where the callable throws. -/
def CalleeWrite.Fits (plan : CallablePlan) : CalleeWrite → Prop
  | value index abi =>
    ∃ q ∈ plan.params, q.index = index ∧ q.usesCell = true ∧ abi.slot = q.conversion.slot
  | error _ => plan.throws = true

instance (plan : CallablePlan) (w : CalleeWrite) : Decidable (w.Fits plan) :=
  match w with
  | .value index abi => inferInstanceAs (Decidable (∃ q ∈ plan.params,
      q.index = index ∧ q.usesCell = true ∧ abi.slot = q.conversion.slot))
  | .error _ => inferInstanceAs (Decidable (plan.throws = true))

/-- What is known of the cells of a marshalled frame, whatever the callee has stored in them. -/
structure CallablePlan.HasCells (plan : CallablePlan) (f : Frame) : Prop where
  /-- The cells are those of the arguments. -/
  cellsInOrder : f.CellsInOrder
  /-- The argument of a parameter that uses a cell is the address of one. -/
  param : ∀ q ∈ plan.params, q.usesCell = true →
    ∃ cell, f.declared? q.index = some (.outCell q.index cell q.conversion.slot) ∧
      (f.storage.block (.cell cell)).length = 8
  /-- The last argument of a throwing callable is the address of the cell for an error. -/
  error : plan.throws = true → ∃ cell, f.arguments.getLast? = some (.errorCell cell) ∧
    f.errorCell? = some cell ∧ (f.storage.block (.cell cell)).length = 8

namespace CallablePlan.HasCells

/-- The cell of a parameter holds a value of its slot. -/
theorem exists_outValue? (h : plan.HasCells f) (hq : q ∈ plan.params) (hcell : q.usesCell = true) :
    ∃ value, f.outValue? q.index = some value ∧ value.slot = q.conversion.slot := by
  obtain ⟨cell, hdeclared, hlength⟩ := h.param q hq hcell
  have hbytes := Frame.getElem?_cells hlength
  refine ⟨q.conversion.slot.decodeCell (f.storage.block (.cell cell)), ?_, Slot.slot_decodeCell _ _⟩
  simp only [Frame.outValue?, hdeclared, hbytes, Option.map_some]

theorem outValue_isSome (h : plan.HasCells f) (q : DeclaredPlan) (hq : q ∈ plan.params)
    (hcell : q.usesCell = true) : (f.outValue? q.index).isSome = true := by
  obtain ⟨value, hvalue, -⟩ := h.exists_outValue? hq hcell
  exact Option.isSome_of_eq_some hvalue

/-! ### One store -/

/-- A store for a parameter sets its cell. -/
theorem write_value (h : plan.HasCells f) {index : Nat} {abi : AbiValue}
    (hfits : (CalleeWrite.value index abi).Fits plan) (native : Native) :
    ∃ cell, f.declared? index = some (.outCell index cell abi.slot) ∧
      (f.storage.block (.cell cell)).length = 8 ∧
      f.write native (.value index abi) = (native, f.setCell cell abi) := by
  obtain ⟨q, hq, rfl, hcell, hslot⟩ := hfits
  obtain ⟨cell, hdeclared, hlength⟩ := h.param q hq hcell
  rw [← hslot] at hdeclared
  exact ⟨cell, hdeclared, hlength, Frame.write_eq_setCell hdeclared rfl⟩

/-- A store of an error sets the cell for it. -/
theorem write_error (h : plan.HasCells f) {address : Address}
    (hfits : (CalleeWrite.error address).Fits plan) (native : Native) :
    ∃ cell, f.errorCell? = some cell ∧ (f.storage.block (.cell cell)).length = 8 ∧
      f.write native (.error address) = (native, f.setCell cell (.pointer address)) := by
  obtain ⟨cell, hlast, hcell, hlength⟩ := h.error hfits
  exact ⟨cell, hcell, hlength, Frame.write_eq_setCell hlast rfl⟩

/-- A store sets a cell and does nothing else. -/
theorem write_eq (h : plan.HasCells f) (hfits : w.Fits plan) (native : Native) :
    ∃ cell value, f.write native w = (native, f.setCell cell value) := by
  cases w with
  | value index abi =>
    obtain ⟨cell, -, -, hwrite⟩ := h.write_value hfits native
    exact ⟨cell, abi, hwrite⟩
  | error address =>
    obtain ⟨cell, -, -, hwrite⟩ := h.write_error hfits native
    exact ⟨cell, .pointer address, hwrite⟩

/-- After a store its own parameter finds what was stored, and every other what it found before. -/
theorem outValue?_write (h : plan.HasCells f) (hfits : w.Fits plan) (native : Native)
    (index : Nat) :
    (f.write native w).2.outValue? index = (w.valueOf? index).or (f.outValue? index) := by
  cases w with
  | value declared abi =>
    obtain ⟨cell, hdeclared, hlength, hwrite⟩ := h.write_value hfits native
    rw [hwrite, CalleeWrite.valueOf?]
    by_cases heq : declared = index
    · subst heq
      rw [if_pos rfl, Option.some_or]
      exact Frame.outValue?_setCell hdeclared hlength
    · rw [if_neg heq, Option.none_or]
      refine Frame.outValue?_setCell_of_ne fun other slot hother => heq ?_
      -- The two parameters would share an argument, which belongs to one of them.
      have hsame := h.cellsInOrder.eq_of_cell? (List.mem_of_find?_eq_some hdeclared)
        (List.mem_of_find?_eq_some hother) rfl rfl
      have hindex := List.find?_some hother
      rw [← hsame] at hindex
      exact of_decide_eq_true hindex
  | error address =>
    obtain ⟨cell, hcell, -, hwrite⟩ := h.write_error hfits native
    rw [hwrite, CalleeWrite.valueOf?, Option.none_or]
    refine Frame.outValue?_setCell_of_ne fun other slot hother => ?_
    have hsame := h.cellsInOrder.eq_of_cell? (Frame.mem_of_errorCell? hcell)
      (List.mem_of_find?_eq_some hother) rfl rfl
    cases hsame

/-- After a store of an error its address is found, and after any other store the one that was found
before. -/
theorem errorAddress_write (h : plan.HasCells f) (hfits : w.Fits plan) (native : Native) :
    (f.write native w).2.errorAddress = w.address?.getD f.errorAddress := by
  cases w with
  | value index abi =>
    obtain ⟨cell, hdeclared, -, hwrite⟩ := h.write_value hfits native
    rw [hwrite, CalleeWrite.address?, Option.getD_none]
    refine Frame.errorAddress_setCell_of_ne fun hcell => ?_
    have hsame := h.cellsInOrder.eq_of_cell? (Frame.mem_of_errorCell? hcell)
      (List.mem_of_find?_eq_some hdeclared) rfl rfl
    cases hsame
  | error address =>
    obtain ⟨cell, hcell, hlength, hwrite⟩ := h.write_error hfits native
    rw [hwrite]
    exact Frame.errorAddress_setCell hcell hlength

/-- The cells stay what they are, whatever is stored. -/
theorem write (h : plan.HasCells f) (hfits : w.Fits plan) (native : Native) :
    plan.HasCells (f.write native w).2 := by
  obtain ⟨cell, value, hwrite⟩ := h.write_eq hfits native
  constructor
  case cellsInOrder =>
    rw [hwrite]
    exact h.cellsInOrder.setCell cell value
  case param =>
    intro q hq hcell
    obtain ⟨other, hdeclared, hlength⟩ := h.param q hq hcell
    refine ⟨other, ?_, ?_⟩ <;> rw [hwrite]
    · exact hdeclared
    · rw [Frame.length_block_setCell, hlength]
  case error =>
    intro hthrows
    obtain ⟨other, hlast, hcell, hlength⟩ := h.error hthrows
    refine ⟨other, ?_, ?_, ?_⟩ <;> rw [hwrite]
    · exact hlast
    · exact hcell
    · rw [Frame.length_block_setCell, hlength]

/-- The cells are there whatever else is stored, and wherever. -/
theorem rewritten {f' : Frame} (h : plan.HasCells f) (hafter : f.Rewritten f') :
    plan.HasCells f' := by
  constructor
  case cellsInOrder =>
    have hcells : f.arguments.filterMap (·.cell?) = List.range f.storage.cells.length :=
      h.cellsInOrder
    rw [Frame.CellsInOrder, hafter.arguments_eq, hafter.length_cells, hcells]
  case param =>
    intro q hq hcell
    rw [hafter.declared?_eq]
    obtain ⟨cell, hdeclared, hlength⟩ := h.param q hq hcell
    exact ⟨cell, hdeclared, (hafter.length_block cell).trans hlength⟩
  case error =>
    intro hthrows
    obtain ⟨cell, hlast, hcell, hlength⟩ := h.error hthrows
    refine ⟨cell, ?_, ?_, ?_⟩
    · rw [hafter.arguments_eq, hlast]
    · rw [Frame.errorCell?, hafter.arguments_eq]
      exact hcell
    · rw [hafter.length_block, hlength]

end CallablePlan.HasCells

/-- A store that goes from one state to another leaves all that it does not go to. -/
structure CalleeWrite.Confined (w : CalleeWrite) (before after : Native × Frame) : Prop where
  /-- Native memory stays. -/
  native_eq : after.1 = before.1
  /-- The arguments stay, those that are passed by value and the addresses of cells. -/
  arguments_eq : after.2.arguments = before.2.arguments
  /-- The texts and arrays that arguments point to stay. -/
  buffers_eq : after.2.storage.buffers = before.2.storage.buffers
  /-- Other parameters find what they found. -/
  outValue_eq : ∀ index, w.valueOf? index = none →
    after.2.outValue? index = before.2.outValue? index
  /-- The error stays, unless one is stored. -/
  errorAddress_eq : w.address? = none → after.2.errorAddress = before.2.errorAddress

/-- Every store that the callee may make is confined to its cell. -/
theorem CallablePlan.HasCells.confined (h : plan.HasCells f) (hfits : w.Fits plan)
    (native : Native) : w.Confined (native, f) (f.write native w) := by
  obtain ⟨cell, value, hwrite⟩ := h.write_eq hfits native
  constructor
  case native_eq => rw [hwrite]
  case arguments_eq =>
    rw [hwrite]
    exact f.setCell_arguments cell value
  case buffers_eq =>
    rw [hwrite]
    exact f.setCell_buffers cell value
  case outValue_eq =>
    intro index hindex
    rw [h.outValue?_write hfits, hindex, Option.none_or]
  case errorAddress_eq =>
    intro haddress
    rw [h.errorAddress_write hfits, haddress, Option.getD_none]

/-! ### One store after another -/

namespace CallablePlan.HasCells

variable {writes : List CalleeWrite}

/-- The cells stay what they are through all stores, and nothing but cells is changed. -/
theorem writeAll (h : plan.HasCells f) (hfits : ∀ w ∈ writes, w.Fits plan) (native : Native) :
    plan.HasCells (f.writeAll native writes).2 := by
  induction writes using List.reverseRecOn with
  | nil => exact h
  | append_singleton writes w ih =>
    rw [Frame.writeAll_append_singleton]
    have hbefore := ih fun w hw => hfits w (List.mem_append_left _ hw)
    exact hbefore.write (hfits w (by simp)) _

/-- A parameter finds what was stored last for it, or what it found at first. -/
theorem outValue?_writeAll (h : plan.HasCells f) (hfits : ∀ w ∈ writes, w.Fits plan)
    (native : Native) (index : Nat) :
    (f.writeAll native writes).2.outValue? index =
      (CalleeWrite.lastValue? writes index).or (f.outValue? index) := by
  induction writes using List.reverseRecOn with
  | nil => rfl
  | append_singleton writes w ih =>
    have hall : ∀ w ∈ writes, w.Fits plan := fun w hw => hfits w (List.mem_append_left _ hw)
    rw [Frame.writeAll_append_singleton, CalleeWrite.lastValue?_append_singleton,
      (h.writeAll hall native).outValue?_write (hfits w (by simp)), ih hall, Option.or_assoc]

/-- The error is the one whose address was stored last, or the first. -/
theorem errorAddress_writeAll (h : plan.HasCells f) (hfits : ∀ w ∈ writes, w.Fits plan)
    (native : Native) :
    (f.writeAll native writes).2.errorAddress =
      (CalleeWrite.lastAddress? writes).getD f.errorAddress := by
  induction writes using List.reverseRecOn with
  | nil => rfl
  | append_singleton writes w ih =>
    have hall : ∀ w ∈ writes, w.Fits plan := fun w hw => hfits w (List.mem_append_left _ hw)
    rw [Frame.writeAll_append_singleton, CalleeWrite.lastAddress?_append_singleton,
      (h.writeAll hall native).errorAddress_write (hfits w (by simp)), ih hall, Option.getD_or]

/-- Each store of a run is confined to its cell. -/
theorem confined_of_getElem? (h : plan.HasCells f) (hfits : ∀ w ∈ writes, w.Fits plan)
    (native : Native) {i : Nat} (hi : writes[i]? = some w) :
    w.Confined (f.writeAll native (writes.take i)) (f.writeAll native (writes.take (i + 1))) := by
  have hbefore : plan.HasCells (f.writeAll native (writes.take i)).2 :=
    h.writeAll (fun w hw => hfits w (List.mem_of_mem_take hw)) native
  have htake : writes.take (i + 1) = writes.take i ++ [w] := by
    rw [List.take_add_one, hi, Option.toList_some]
  rw [htake, Frame.writeAll_append_singleton]
  exact hbefore.confined (hfits w (List.mem_of_getElem? hi)) _

end CallablePlan.HasCells

/-! ### The frame before the call -/

/-- A cell that was put in has eight bytes. -/
theorem length_block_cell {store : Storage} {cell : Nat} {initial : AbiValue}
    (hbytes : store.cells[cell]? = some (cellBytes initial)) :
    (store.block (.cell cell)).length = 8 := by
  rw [Storage.block, List.getD_eq_getElem?_getD, hbytes, Option.getD_some, length_cellBytes]

/-- The arguments of planned parameters are not the one for an error. -/
theorem findSome?_errorCell?_of_carries {store : Storage}
    {pairs : List (DeclaredPlan × Option HostValue)} {arguments : List Argument}
    (h : List.Forall₂ (Argument.Carries store) pairs arguments) :
    arguments.findSome? (·.errorCell?) = none := by
  induction h with
  | nil => rfl
  | cons hfirst _ ih =>
    rw [List.findSome?_cons_of_isNone (by cases hfirst <;> rfl)]
    exact ih

/-- The argument of the receiver is not the one for an error. -/
theorem Argument.CarryReceiver.errorCell?_eq_none {store : Storage} {receiver? : Option ParamPlan}
    {value? : Option HostValue} {arguments : List Argument}
    (h : Argument.CarryReceiver store receiver? value? arguments) :
    arguments.findSome? (·.errorCell?) = none := by
  cases h <;> rfl

/-- The cell of a parameter starts with this value: the zero of its slot if the parameter only goes
out, and else the host's value for it, converted. -/
def CallablePlan.StartsWith (plan : CallablePlan) (args : List HostValue) (f : Frame)
    (q : DeclaredPlan) (initial : AbiValue) : Prop :=
  f.outValue? q.index = some initial ∧
    if q.direction = .output then initial = .zero q.conversion.slot
    else ∃ value, (q, value) ∈ plan.declaredArgs args ∧
      q.conversion.Converted q.isNullable q.item f.storage value initial

namespace CallablePlan.Marshalled

variable {receiver declared error : List Argument}

/-- The cell for an error is that of the last argument of a throwing callable. -/
theorem errorCell?_eq (h : plan.Marshalled args f receiver declared error) :
    f.errorCell? = if plan.throws then some (f.storage.cells.length - 1) else none := by
  rw [Frame.errorCell?, h.arguments_eq, List.findSome?_append, List.findSome?_append,
    h.carryReceiver.errorCell?_eq_none, findSome?_errorCell?_of_carries h.carries, h.error_eq]
  split <;> rfl

/-- A parameter that uses a cell is passed the address of one, which starts as its direction
says. -/
theorem exists_outCell (h : plan.Marshalled args f receiver declared error)
    (hindices : plan.params.Pairwise (·.index < ·.index)) (hq : q ∈ plan.params)
    (hcell : q.usesCell = true) :
    ∃ cell initial, f.declared? q.index = some (.outCell q.index cell q.conversion.slot) ∧
      (f.storage.block (.cell cell)).length = 8 ∧ plan.StartsWith args f q initial := by
  obtain ⟨i, hi⟩ := List.getElem?_of_mem hq
  obtain ⟨value?, argument, hpair, -, hcarries, hdeclared⟩ := h.exists_argument hindices hi
  have htakes : value?.isSome = q.takesHostValue :=
    isSome_of_mem_pairArgs (length_declaredValues h.arity) _ hpair
  simp only [ParamPlan.takesHostValue, hcell, Bool.and_true] at htakes
  cases hcarries with
  | value hcell' => simp [hcell] at hcell'
  | @cell _ value abi cell _ hconverted hbytes =>
    have hdirection : q.direction ≠ .output := by simpa using htakes
    refine ⟨cell, abi, hdeclared, length_block_cell hbytes, ?_, ?_⟩
    · rw [Frame.outValue?, hdeclared, ← hconverted.slot]
      simp only [hbytes, Option.map_some, Slot.decodeCell_cellBytes]
    · rw [if_neg hdirection]
      exact ⟨value, mem_declaredArgs h.arity hpair, hconverted⟩
  | @empty _ cell _ hbytes =>
    have hdirection : q.direction = .output := by simpa using htakes
    refine ⟨cell, .zero q.conversion.slot, hdeclared, length_block_cell hbytes, ?_,
      if_pos hdirection ▸ rfl⟩
    rw [Frame.outValue?, hdeclared]
    simp only [hbytes, Option.map_some, Slot.decodeCell_void]

end CallablePlan.Marshalled

namespace CallablePlan

/-- The cell for an error starts with zeros. -/
theorem getElem?_errorCell (hargs : plan.marshalArgs args = .ok f) (hthrows : plan.throws = true) :
    f.storage.cells[f.storage.cells.length - 1]? = some (cellBytes .void) := by
  obtain ⟨-, f₁, -, -, rfl⟩ := marshalArgs_eq_ok hargs
  rw [if_pos hthrows, Frame.pushErrorCell_cells]
  simp

/-- A marshalled frame has its cells. -/
theorem marshalArgs_hasCells (hplan : p.plan c = .ok plan) (hargs : plan.marshalArgs args = .ok f) :
    plan.HasCells f := by
  have hindices := (Planner.plan_plans hplan).params.pairwise_index
  obtain ⟨receiver, declared, error, hmarshalled⟩ := marshalArgs_marshalled hargs
  constructor
  case cellsInOrder => exact hmarshalled.cellsInOrder
  case param =>
    intro q hq hcell
    obtain ⟨cell, initial, hdeclared, hlength, -⟩ := hmarshalled.exists_outCell hindices hq hcell
    exact ⟨cell, hdeclared, hlength⟩
  case error =>
    intro hthrows
    refine ⟨f.storage.cells.length - 1, ?_, ?_, ?_⟩
    · rw [hmarshalled.arguments_eq, hmarshalled.error_eq, if_pos hthrows, List.getLast?_concat]
    · rw [hmarshalled.errorCell?_eq, if_pos hthrows]
    · exact length_block_cell (getElem?_errorCell hargs hthrows)

/-- No error is reported before the call. -/
theorem errorAddress_marshalArgs (hargs : plan.marshalArgs args = .ok f) :
    f.errorAddress = .null := by
  obtain ⟨receiver, declared, error, hmarshalled⟩ := marshalArgs_marshalled hargs
  rw [Frame.errorAddress, hmarshalled.errorCell?_eq]
  by_cases hthrows : plan.throws = true
  · simp only [if_pos hthrows, Option.bind_some, getElem?_errorCell hargs hthrows]
    rfl
  · rw [if_neg hthrows]
    rfl

end CallablePlan

/-! ### Reading the cells back -/

/-- Reading the cell of a parameter gives this result: its value is converted, with the length that
the frame holds for an array. -/
def DeclaredPlan.ReadsOut (q : DeclaredPlan) (m : Memory) (f : Frame)
    (result : Except MarshalError HostValue) : Prop :=
  ∃ value, f.outValue? q.index = some value ∧
    q.conversion.fromAbi m value (CallablePlan.arrayLength? q.conversion f) = result

namespace DeclaredPlan

/-- Reading a cell gives one result. -/
theorem ReadsOut.unique {m : Memory} {result result' : Except MarshalError HostValue}
    (h : q.ReadsOut m f result) (h' : q.ReadsOut m f result') : result = result' := by
  obtain ⟨value, hvalue, hread⟩ := h
  obtain ⟨value', hvalue', hread'⟩ := h'
  obtain rfl : value = value' := Option.some.inj (hvalue.symm.trans hvalue')
  exact hread.symm.trans hread'

/-- Reading a cell that holds a value gives a result. -/
theorem exists_readsOut (m : Memory) (h : (f.outValue? q.index).isSome = true) :
    ∃ result, q.ReadsOut m f result := by
  obtain ⟨value, hvalue⟩ := Option.isSome_iff_exists.mp h
  exact ⟨_, value, hvalue, rfl⟩

end DeclaredPlan

namespace CallablePlan

/-- The parameters that use a cell, in the order of their declaration. -/
def cellParams (plan : CallablePlan) : List DeclaredPlan := plan.params.filter (·.usesCell)

variable {m : Memory} {params : List DeclaredPlan} {e : MarshalError}

/-- Reading cells stops at the first that is rejected. -/
theorem collect_cons_error (h : q.ReadsOut m f (.error e)) :
    collect m f (q :: params) = .error e := by
  obtain ⟨value, hvalue, hread⟩ := h
  simp only [collect, hvalue, hread]

/-- Reading cells goes on behind one that is accepted. -/
theorem collect_cons_ok {host : HostValue} (h : q.ReadsOut m f (.ok host)) :
    collect m f (q :: params) = (collect m f params).map ((q.ident, host) :: ·) := by
  obtain ⟨value, hvalue, hread⟩ := h
  simp only [collect, hvalue, hread]

/-- Cells are read if each of them is, into one pair for each. -/
theorem collect_eq_ok_iff (hvalues : ∀ q ∈ params, (f.outValue? q.index).isSome = true)
    {pairs : List (String × HostValue)} :
    collect m f params = .ok pairs ↔
      List.Forall₂ (fun q pair => pair.1 = q.ident ∧ q.ReadsOut m f (.ok pair.2)) params pairs := by
  induction params generalizing pairs with
  | nil => simp [collect, eq_comm]
  | cons q params ih =>
    have hrest : ∀ q ∈ params, (f.outValue? q.index).isSome = true :=
      fun q hq => hvalues q (List.mem_cons_of_mem _ hq)
    obtain ⟨result, hresult⟩ := DeclaredPlan.exists_readsOut m (hvalues q List.mem_cons_self)
    rw [List.forall₂_cons_left_iff]
    cases result with
    | error e =>
      rw [collect_cons_error hresult]
      refine iff_of_false (by simp) ?_
      rintro ⟨pair, others, ⟨-, hread⟩, -⟩
      cases hresult.unique hread
    | ok host =>
      rw [collect_cons_ok hresult]
      constructor
      · intro h
        cases hothers : collect m f params with
        | error e => simp [hothers, Except.map] at h
        | ok others =>
          obtain rfl : (q.ident, host) :: others = pairs := by simpa [hothers, Except.map] using h
          exact ⟨_, others, ⟨rfl, hresult⟩, (ih hrest).mp hothers, rfl⟩
      · rintro ⟨⟨ident, host'⟩, others, ⟨rfl, hread⟩, hothers, rfl⟩
        obtain rfl : host = host' := Except.ok.inj (hresult.unique hread)
        rw [(ih hrest).mpr hothers]
        rfl

/-- Reading cells fails with the error of the first that is rejected. -/
theorem collect_eq_error_iff (hvalues : ∀ q ∈ params, (f.outValue? q.index).isSome = true) :
    collect m f params = .error e ↔
      ∃ before q rest, params = before ++ q :: rest ∧
        (∀ q' ∈ before, ∃ host, q'.ReadsOut m f (.ok host)) ∧ q.ReadsOut m f (.error e) := by
  constructor
  · intro h
    induction params with
    | nil => simp [collect] at h
    | cons q params ih =>
      obtain ⟨result, hresult⟩ := DeclaredPlan.exists_readsOut m (hvalues q List.mem_cons_self)
      cases result with
      | error e' =>
        rw [collect_cons_error hresult] at h
        exact ⟨[], q, params, rfl, by simp, Except.error.inj h ▸ hresult⟩
      | ok host =>
        have hfails : collect m f params = .error e := by
          rw [collect_cons_ok hresult] at h
          cases hothers : collect m f params with
          | error e' => simpa [hothers, Except.map] using h
          | ok others => simp [hothers, Except.map] at h
        obtain ⟨before, failed, rest, rfl, hbefore, hfailed⟩ :=
          ih (fun q hq => hvalues q (List.mem_cons_of_mem _ hq)) hfails
        refine ⟨q :: before, failed, rest, rfl, ?_, hfailed⟩
        exact List.forall_mem_cons.mpr ⟨⟨host, hresult⟩, hbefore⟩
  · rintro ⟨before, failed, rest, rfl, hbefore, hfailed⟩
    clear hvalues
    induction before with
    | nil => exact collect_cons_error hfailed
    | cons q before ih =>
      obtain ⟨⟨host, hread⟩, hothers⟩ := List.forall_mem_cons.mp hbefore
      rw [List.cons_append, collect_cons_ok hread, ih hothers]
      rfl

end CallablePlan

/-! ### The whole call -/

/-- What stands in the cells of a frame after stores of the callee, and what reading them gives. -/
structure CallablePlan.CellsAfter (plan : CallablePlan) (args : List HostValue) (f : Frame)
    (native : Native) (writes : List CalleeWrite) (after : Native × Frame) : Prop where
  /-- The cell of a parameter holds the value that was stored last for it, and if there is none what
  it started with. -/
  outValue : ∀ q ∈ plan.params, q.usesCell = true → ∃ initial, plan.StartsWith args f q initial ∧
    after.2.outValue? q.index = some ((CalleeWrite.lastValue? writes q.index).getD initial)
  /-- The error is the one that was stored last; if none was stored there is none. -/
  errorAddress : after.2.errorAddress = (CalleeWrite.lastAddress? writes).getD .null
  /-- No store changes anything but its cell. -/
  confined : ∀ (i : Nat) (w : CalleeWrite), writes[i]? = some w →
    w.Confined (f.writeAll native (writes.take i)) (f.writeAll native (writes.take (i + 1)))
  /-- Cells are read in the order of the declaration, and none of them twice. -/
  ordered : plan.cellParams.Pairwise (·.index < ·.index)
  /-- Where reading the cells succeeds there is one pair for each, with what its cell is read as. -/
  collect_ok : ∀ pairs, plan.collectOut after.1 after.2 = .ok pairs ↔
    List.Forall₂ (fun q pair => pair.1 = q.ident ∧
      q.ReadsOut (after.2.memory after.1) after.2 (.ok pair.2)) plan.cellParams pairs
  /-- Where it fails, the error is that of the first cell that cannot be read. -/
  collect_error : ∀ e, plan.collectOut after.1 after.2 = .error e ↔
    ∃ before q rest, plan.cellParams = before ++ q :: rest ∧
      (∀ q' ∈ before, ∃ host, q'.ReadsOut (after.2.memory after.1) after.2 (.ok host)) ∧
      q.ReadsOut (after.2.memory after.1) after.2 (.error e)

/-- Whatever the callee stores through the arguments of a marshalled frame, in whatever order, the
cells hold what was stored last for their parameters and are read back one by one. -/
theorem CallablePlan.marshalArgs_cellsAfter {writes : List CalleeWrite}
    (hplan : p.plan c = .ok plan) (hargs : plan.marshalArgs args = .ok f)
    (hfits : ∀ w ∈ writes, w.Fits plan) (native : Native) :
    plan.CellsAfter args f native writes (f.writeAll native writes) := by
  have hindices := (Planner.plan_plans hplan).params.pairwise_index
  obtain ⟨receiver, declared, error, hmarshalled⟩ := marshalArgs_marshalled hargs
  have hcells := marshalArgs_hasCells hplan hargs
  have hvalues : ∀ q ∈ plan.cellParams,
      ((f.writeAll native writes).2.outValue? q.index).isSome = true := by
    intro q hq
    obtain ⟨hmem, hcell⟩ := List.mem_filter.mp hq
    exact (hcells.writeAll hfits native).outValue_isSome q hmem hcell
  constructor
  case outValue =>
    intro q hq hcell
    obtain ⟨cell, initial, -, -, hinitial⟩ := hmarshalled.exists_outCell hindices hq hcell
    refine ⟨initial, hinitial, ?_⟩
    rw [hcells.outValue?_writeAll hfits, hinitial.1, Option.or_some]
  case errorAddress =>
    rw [hcells.errorAddress_writeAll hfits, errorAddress_marshalArgs hargs]
  case confined => exact fun i w hi => hcells.confined_of_getElem? hfits native hi
  case ordered => exact hindices.filter _
  case collect_ok => exact fun pairs => collect_eq_ok_iff hvalues
  case collect_error => exact fun e => collect_eq_error_iff hvalues

/-- The stores of a callee of the sample call: it reports an error, and stores twice for one
parameter. -/
def Sample.stores : List CalleeWrite :=
  [.value 5 (.i64 7), .value 4 (.i32 9), .error (.native 8192), .value 5 (.i64 8)]

/-- The cells of the sample call hold what was stored last, and are read in order. -/
theorem CallablePlan.marshalArgs_cellsAfter_sample :
    ∃ plan f, Sample.planner.plan Sample.fill = .ok plan ∧
      plan.marshalArgs Sample.fillArgs = .ok f ∧ (∀ w ∈ Sample.stores, w.Fits plan) ∧
      ∀ native, plan.CellsAfter Sample.fillArgs f native Sample.stores
          (f.writeAll native Sample.stores) ∧
        plan.collectOut (f.writeAll native Sample.stores).1 (f.writeAll native Sample.stores).2 =
          .ok [("offset", .int 9), ("written", .int 8)] := by
  refine ⟨_, _, by rfl, by rfl, by decide, fun native => ⟨?_, by rfl⟩⟩
  exact @marshalArgs_cellsAfter Sample.planner Sample.fill _ Sample.fillArgs _ Sample.stores
    (by rfl) (by rfl) (by decide) native

end ForeignCall
