import ForeignCall.Plan.Call
import ForeignCall.Proofs.Conversion.CallIn

/-!
# What marshalling puts into a frame

Marshalling adds one native argument for the receiver, one for each planned parameter and, for a
throwing callable, one for the error.  `Argument.Carries` says what the argument of a parameter is:
the converted value, or a cell that starts with it or with zeros.  It speaks of the finished frame,
since buffers and cells are only ever added (`passAll_passes`).

`CallablePlan.Passed` says this of a frame that all host arguments have been passed in, whether or
not their lengths fit.  `CallablePlan.Marshalled` gathers what is known of the frame in the end, and
`CallablePlan.marshalArgs_marshalled` opens a successful call of `marshalArgs` once and for all.
The arguments of parameters are then looked up in it by position and by declared index
(`CallablePlan.Marshalled.exists_argument`).
-/

namespace ForeignCall

/-! ### Host arguments and the parameters they are for -/

namespace CallablePlan

/-- The host arguments for declared parameters: all but the receiver. -/
def declaredValues (p : CallablePlan) (args : List HostValue) : List HostValue :=
  if p.receiver.isSome then args.tail else args

/-- Each declared parameter that takes a host value, with the value that it is given. -/
def declaredArgs (p : CallablePlan) (args : List HostValue) : List (DeclaredPlan × HostValue) :=
  (p.params.filter (·.takesHostValue)).zip (p.declaredValues args)

end CallablePlan

/-- Pairing goes through all parameters in order. -/
theorem map_fst_pairArgs (params : List DeclaredPlan) (values : List HostValue) :
    (pairArgs params values).map (·.1) = params := by
  induction params generalizing values with
  | nil => rfl
  | cons q params ih =>
    by_cases hq : q.takesHostValue = true <;> simp [pairArgs, hq, ih]

/-- The indices of parameters grow along a pairing as they do along the parameters. -/
theorem pairwise_index_pairArgs {params : List DeclaredPlan}
    (h : params.Pairwise (·.index < ·.index)) (values : List HostValue) :
    (pairArgs params values).Pairwise (·.1.index < ·.1.index) := by
  rw [← map_fst_pairArgs params values, List.pairwise_map] at h
  exact h

/-- The values of a pairing stand beside the parameters that take them. -/
theorem filterMap_pairArgs {params : List DeclaredPlan} {values : List HostValue}
    (h : values.length = params.countP (·.takesHostValue)) :
    (pairArgs params values).filterMap (fun pair => pair.2.map (pair.1, ·)) =
      (params.filter (·.takesHostValue)).zip values := by
  induction params generalizing values with
  | nil => simp [pairArgs]
  | cons q params ih =>
    by_cases hq : q.takesHostValue = true
    · simp only [List.countP_cons, hq, if_true] at h
      cases values with
      | nil => simp at h
      | cons value values =>
        have hrest : values.length = params.countP (·.takesHostValue) := by simpa using h
        simp [pairArgs, hq, ih hrest]
    · simp only [List.countP_cons, hq, Bool.false_eq_true, if_false, Nat.add_zero] at h
      simp [pairArgs, hq, ih h]

/-- Where there is a value for each parameter that takes one, these are the parameters that stand
beside a value. -/
theorem isSome_of_mem_pairArgs {params : List DeclaredPlan} {values : List HostValue}
    (h : values.length = params.countP (·.takesHostValue)) :
    ∀ pair ∈ pairArgs params values, pair.2.isSome = pair.1.takesHostValue := by
  induction params generalizing values with
  | nil => simp [pairArgs]
  | cons q params ih =>
    intro pair hpair
    by_cases hq : q.takesHostValue = true
    · simp only [List.countP_cons, hq, if_true] at h
      cases values with
      | nil => simp at h
      | cons value values =>
        simp only [pairArgs, hq, if_true, List.mem_cons] at hpair
        rcases hpair with rfl | hpair
        · exact hq.symm
        · exact ih (by simpa using h) pair hpair
    · simp only [List.countP_cons, hq, Bool.false_eq_true, if_false, Nat.add_zero] at h
      simp only [pairArgs, hq, List.mem_cons, Bool.false_eq_true, if_false] at hpair
      rcases hpair with rfl | hpair
      · exact (Bool.not_eq_true _ ▸ hq).symm
      · exact ih h pair hpair

/-- Only cells start without a value. -/
theorem isSome_or_usesCell_of_mem_pairArgs {params : List DeclaredPlan} {values : List HostValue}
    (h : values.length = params.countP (·.takesHostValue)) :
    ∀ pair ∈ pairArgs params values, pair.2.isSome = true ∨ pair.1.usesCell = true := by
  intro pair hpair
  rw [isSome_of_mem_pairArgs h pair hpair]
  cases hcell : pair.1.usesCell <;> simp [ParamPlan.takesHostValue, hcell]

/-! ### Arguments of declared parameters -/

/-- The cell that an argument is the address of. -/
def Argument.cell? : Argument → Option Nat
  | byValue _ _ => none
  | outCell _ cell _ => some cell
  | errorCell cell => some cell

@[simp] theorem Argument.cell?_byValue (declared : Option Nat) (value : AbiValue) :
    (byValue declared value).cell? = none := rfl

@[simp] theorem Argument.cell?_outCell (declared cell : Nat) (slot : Slot) :
    (outCell declared cell slot).cell? = some cell := rfl

@[simp] theorem Argument.cell?_errorCell (cell : Nat) : (errorCell cell).cell? = some cell := rfl

/-- What the native argument of a parameter is, given the host's value for it: the converted value,
or the address of a cell that holds the converted value or zeros. -/
inductive Argument.Carries (store : Storage) : DeclaredPlan × Option HostValue → Argument → Prop
  | value {q : DeclaredPlan} {value : HostValue} {abi : AbiValue} (hcell : q.usesCell = false)
      (hconverted : q.conversion.Converted q.isNullable q.item store value abi) :
      Carries store (q, some value) (.byValue (some q.index) abi)
  | cell {q : DeclaredPlan} {value : HostValue} {abi : AbiValue} {cell : Nat}
      (hcell : q.usesCell = true)
      (hconverted : q.conversion.Converted q.isNullable q.item store value abi)
      (hbytes : store.cells[cell]? = some (cellBytes abi)) :
      Carries store (q, some value) (.outCell q.index cell q.conversion.slot)
  | empty {q : DeclaredPlan} {cell : Nat} (hcell : q.usesCell = true)
      (hbytes : store.cells[cell]? = some (cellBytes .void)) :
      Carries store (q, none) (.outCell q.index cell q.conversion.slot)

variable {store store' : Storage} {f f' : Frame} {pair : DeclaredPlan × Option HostValue}
  {argument : Argument}

/-- Arguments stay what they are when the storage grows. -/
theorem Argument.Carries.extends (h : Carries store pair argument) (hs : store.Extends store') :
    Carries store' pair argument := by
  cases h with
  | value hcell hconverted => exact .value hcell (hconverted.extends hs)
  | cell hcell hconverted hbytes => exact .cell hcell (hconverted.extends hs) (hs.cell hbytes)
  | empty hcell hbytes => exact .empty hcell (hs.cell hbytes)

/-- The argument of a parameter is found under the index of the parameter and no other. -/
theorem Argument.Carries.isDeclared (h : Carries store pair argument) (index : Nat) :
    argument.isDeclared index = (pair.1.index == index) := by
  cases h <;> simp [Argument.isDeclared]

/-- The cells of a frame are those of its arguments, in their order. -/
def Frame.CellsInOrder (f : Frame) : Prop :=
  f.arguments.filterMap (·.cell?) = List.range f.storage.cells.length

namespace Frame.CellsInOrder

theorem empty : Frame.empty.CellsInOrder := rfl

/-- Converting a value adds no cell. -/
theorem grows (h : f.CellsInOrder) (hgrows : f.Grows f') : f'.CellsInOrder := by
  unfold CellsInOrder
  rw [hgrows.arguments, hgrows.cells]
  exact h

/-- An argument that is passed by value adds no cell. -/
theorem pushValue (h : f.CellsInOrder) (declared : Option Nat) (value : AbiValue) :
    (f.pushValue declared value).CellsInOrder := by
  have hf : f.arguments.filterMap (·.cell?) = List.range f.storage.cells.length := h
  simp [CellsInOrder, hf]

/-- The cell of a parameter comes behind the others. -/
theorem pushCell (h : f.CellsInOrder) (declared : Nat) (slot : Slot) (initial : Option AbiValue) :
    (f.pushCell declared slot initial).CellsInOrder := by
  have hf : f.arguments.filterMap (·.cell?) = List.range f.storage.cells.length := h
  simp [CellsInOrder, hf, List.range_succ]

/-- The cell of an error comes behind the others. -/
theorem pushErrorCell (h : f.CellsInOrder) : f.pushErrorCell.CellsInOrder := by
  have hf : f.arguments.filterMap (·.cell?) = List.range f.storage.cells.length := h
  simp [CellsInOrder, hf, List.range_succ]

/-- The cell of an argument is one of the frame. -/
theorem lt_of_mem (h : f.CellsInOrder) {cell : Nat} (hmem : argument ∈ f.arguments)
    (hcell : argument.cell? = some cell) : cell < f.storage.cells.length := by
  have hrange : cell ∈ f.arguments.filterMap (·.cell?) :=
    List.mem_filterMap.mpr ⟨argument, hmem, hcell⟩
  rw [h] at hrange
  exact List.mem_range.mp hrange

end Frame.CellsInOrder

/-! ### Passing parameters in order -/

/-- `f'` is `f` with one argument for each parameter of `pairs`, which carries what the host passed
for it. -/
structure Frame.Passes (f f' : Frame) (pairs : List (DeclaredPlan × Option HostValue))
    (arguments : List Argument) : Prop where
  arguments_eq : f'.arguments = f.arguments ++ arguments
  extends_storage : f.storage.Extends f'.storage
  carries : List.Forall₂ (Argument.Carries f'.storage) pairs arguments
  cellsInOrder : f.CellsInOrder → f'.CellsInOrder

/-- The arguments of further parameters come behind those that are there. -/
theorem Frame.Passes.append {f'' : Frame} {pairs pairs' : List (DeclaredPlan × Option HostValue)}
    {arguments arguments' : List Argument} (h : f.Passes f' pairs arguments)
    (h' : f'.Passes f'' pairs' arguments') :
    f.Passes f'' (pairs ++ pairs') (arguments ++ arguments') where
  arguments_eq := by rw [h'.arguments_eq, h.arguments_eq, List.append_assoc]
  extends_storage := h.extends_storage.trans h'.extends_storage
  carries :=
    List.rel_append (h.carries.imp fun _ _ hc => hc.extends h'.extends_storage) h'.carries
  cellsInOrder := h'.cellsInOrder ∘ h.cellsInOrder

/-- Passing one parameter that has a value or a cell adds one argument. -/
theorem DeclaredPlan.pass_passes {q : DeclaredPlan} {value? : Option HostValue}
    (hvalue : value?.isSome = true ∨ q.usesCell = true) (h : q.pass value? f = .ok f') :
    ∃ argument, f.Passes f' [(q, value?)] [argument] := by
  cases value? with
  | none =>
    have hcell : q.usesCell = true := by simpa using hvalue
    obtain rfl : f.pushCell q.index q.conversion.slot none = f' := by simpa [pass, hcell] using h
    exact ⟨_, rfl, f.pushCell_extends _ _ _, .cons (.empty hcell (by simp)) .nil,
      fun hf => hf.pushCell _ _ _⟩
  | some value =>
    rcases hto : q.conversion.toAbi value q.isNullable q.item f with ⟨e | abi, f₁⟩
    · simp [pass, hto] at h
    have hgrows : f.Grows f₁ := Conversion.grows_of_toAbi hto
    by_cases hcell : q.usesCell = true
    · obtain rfl : f₁.pushCell q.index q.conversion.slot (some abi) = f' := by
        simpa [pass, hto, hcell] using h
      have hextends := f₁.pushCell_extends q.index q.conversion.slot (some abi)
      refine ⟨.outCell q.index f₁.storage.cells.length q.conversion.slot, ?_,
        hgrows.extends.trans hextends, ?_, fun hf => (hf.grows hgrows).pushCell _ _ _⟩
      · rw [Frame.pushCell_arguments, hgrows.arguments]
      · exact .cons (.cell hcell ⟨f, f₁, hto, hextends⟩ (by simp)) .nil
    · obtain rfl : f₁.pushValue (some q.index) abi = f' := by simpa [pass, hto, hcell] using h
      refine ⟨.byValue (some q.index) abi, ?_, hgrows.extends, ?_,
        fun hf => (hf.grows hgrows).pushValue _ _⟩
      · rw [Frame.pushValue_arguments, hgrows.arguments]
      · exact .cons (.value (by simpa using hcell) ⟨f, f₁, hto, .refl _⟩) .nil

/-- Passing parameters adds one argument for each of them. -/
theorem passAll_passes {pairs : List (DeclaredPlan × Option HostValue)}
    (hvalues : ∀ pair ∈ pairs, pair.2.isSome = true ∨ pair.1.usesCell = true)
    (h : passAll pairs f = .ok f') : ∃ arguments, f.Passes f' pairs arguments := by
  induction pairs generalizing f with
  | nil =>
    cases h
    exact ⟨[], by simp, .refl _, .nil, id⟩
  | cons pair rest ih =>
    obtain ⟨q, value?⟩ := pair
    cases hpass : q.pass value? f with
    | error e => simp [passAll, hpass] at h
    | ok f₁ =>
      obtain ⟨argument, hfirst⟩ := DeclaredPlan.pass_passes (hvalues _ List.mem_cons_self) hpass
      obtain ⟨arguments, hrest⟩ :=
        ih (fun pair hpair => hvalues pair (List.mem_cons_of_mem _ hpair))
          (by simpa [passAll, hpass] using h)
      exact ⟨argument :: arguments, hfirst.append hrest⟩

/-! ### The argument for an error -/

namespace Frame

/-- The argument for an error belongs to no declared parameter. -/
@[simp] theorem declared?_pushErrorCell (f : Frame) (index : Nat) :
    f.pushErrorCell.declared? index = f.declared? index := by
  simp [declared?, Argument.isDeclared]

/-- The cell for an error leaves what the other cells hold. -/
theorem outValue?_pushErrorCell (h : f.CellsInOrder) (index : Nat) :
    f.pushErrorCell.outValue? index = f.outValue? index := by
  unfold outValue?
  rw [declared?_pushErrorCell]
  cases hargument : f.declared? index with
  | none => rfl
  | some argument =>
    cases argument with
    | outCell declared cell slot =>
      have hlt : cell < f.storage.cells.length :=
        h.lt_of_mem (List.mem_of_find?_eq_some hargument) rfl
      simp [List.getElem?_append_left hlt]
    | _ => rfl

/-- The cell for an error leaves the lengths of arrays. -/
theorem arrayLength?_pushErrorCell (h : f.CellsInOrder) (index : Nat) :
    f.pushErrorCell.arrayLength? index = f.arrayLength? index := by
  unfold arrayLength?
  rw [declared?_pushErrorCell, outValue?_pushErrorCell h]

end Frame

/-! ### The whole frame -/

/-- The arguments that stand for the receiver, given the host's value for it: none where there is no
receiver. -/
inductive Argument.CarryReceiver (store : Storage) :
    Option ParamPlan → Option HostValue → List Argument → Prop
  | absent (value? : Option HostValue) : CarryReceiver store none value? []
  | present {q : ParamPlan} {value : HostValue} {abi : AbiValue}
      (hconverted : q.conversion.Converted q.isNullable q.receiverItem store value abi) :
      CarryReceiver store (some q) (some value) [.byValue none abi]

/-- A receiver's argument stays what it is when the storage grows. -/
theorem Argument.CarryReceiver.extends {receiver? : Option ParamPlan} {value? : Option HostValue}
    {arguments : List Argument} (h : CarryReceiver store receiver? value? arguments)
    (hs : store.Extends store') : CarryReceiver store' receiver? value? arguments := by
  cases h with
  | absent => exact .absent _
  | present hconverted => exact .present (hconverted.extends hs)

theorem Argument.CarryReceiver.length_eq {receiver? : Option ParamPlan}
    {value? : Option HostValue} {arguments : List Argument}
    (h : CarryReceiver store receiver? value? arguments) :
    arguments.length = if receiver?.isSome then 1 else 0 := by
  cases h <;> rfl

/-- The argument of the receiver belongs to no declared parameter. -/
theorem Argument.CarryReceiver.find?_eq_none {receiver? : Option ParamPlan}
    {value? : Option HostValue} {arguments : List Argument}
    (h : CarryReceiver store receiver? value? arguments) (index : Nat) :
    arguments.find? (·.isDeclared index) = none := by
  cases h <;> rfl

/-- The frame with the arguments for the receiver and for the declared parameters. -/
def CallablePlan.passArgs (p : CallablePlan) (args : List HostValue) :
    Except MarshalError Frame :=
  match p.passReceiver args.head? .empty with
  | .error e => .error e
  | .ok f => passAll (pairArgs p.params (p.declaredValues args)) f

/-- What the frame is that all host arguments have been passed in. -/
structure CallablePlan.Passed (p : CallablePlan) (args : List HostValue) (f : Frame)
    (receiver declared : List Argument) : Prop where
  arguments_eq : f.arguments = receiver ++ declared
  carryReceiver : Argument.CarryReceiver f.storage p.receiver args.head? receiver
  carries : List.Forall₂ (Argument.Carries f.storage)
    (pairArgs p.params (p.declaredValues args)) declared
  cellsInOrder : f.CellsInOrder

/-- What a frame is that marshalling has made of host arguments. -/
structure CallablePlan.Marshalled (p : CallablePlan) (args : List HostValue) (f : Frame)
    (receiver declared error : List Argument) : Prop where
  arity : args.length = p.hostArity
  arguments_eq : f.arguments = receiver ++ declared ++ error
  carryReceiver : Argument.CarryReceiver f.storage p.receiver args.head? receiver
  carries : List.Forall₂ (Argument.Carries f.storage)
    (pairArgs p.params (p.declaredValues args)) declared
  error_eq : error = if p.throws then [.errorCell (f.storage.cells.length - 1)] else []
  cellsInOrder : f.CellsInOrder
  lengths : ∀ count ∈ (pairArgs p.params (p.declaredValues args)).filterMap arrayCount?,
    p.lengthConflict? f count = none

namespace CallablePlan

variable {p : CallablePlan} {args : List HostValue}

/-- There is a value for each declared parameter that takes one. -/
theorem length_declaredValues (h : args.length = p.hostArity) :
    (p.declaredValues args).length = p.params.countP (·.takesHostValue) := by
  unfold hostArity at h
  unfold declaredValues
  split at h <;> simp_all

/-- A parameter that stands beside a value was given the value. -/
theorem mem_declaredArgs (h : args.length = p.hostArity) {q : DeclaredPlan} {value : HostValue}
    (hpair : (q, some value) ∈ pairArgs p.params (p.declaredValues args)) :
    (q, value) ∈ p.declaredArgs args := by
  rw [declaredArgs, ← filterMap_pairArgs (length_declaredValues h)]
  exact List.mem_filterMap.mpr ⟨_, hpair, rfl⟩

/-- A parameter that was given a value stands beside it. -/
theorem mem_pairArgs (h : args.length = p.hostArity) {q : DeclaredPlan} {value : HostValue}
    (hgiven : (q, value) ∈ p.declaredArgs args) :
    (q, some value) ∈ pairArgs p.params (p.declaredValues args) := by
  rw [declaredArgs, ← filterMap_pairArgs (length_declaredValues h)] at hgiven
  obtain ⟨⟨q', value?⟩, hpair, hvalue⟩ := List.mem_filterMap.mp hgiven
  cases value? <;> cases hvalue
  exact hpair

/-- Without a receiver all values are for declared parameters. -/
theorem declaredValues_of_none (h : p.receiver = none) (args : List HostValue) :
    p.declaredValues args = args := by
  simp [declaredValues, h]

/-- With a receiver the values behind the first are for declared parameters. -/
theorem declaredValues_cons {q : ParamPlan} (h : p.receiver = some q) (value : HostValue)
    (rest : List HostValue) : p.declaredValues (value :: rest) = rest := by
  simp [declaredValues, h]

/-- Where there is a receiver there is a value for it. -/
theorem exists_eq_cons (harity : args.length = p.hostArity) {q : ParamPlan}
    (hq : p.receiver = some q) : ∃ value rest, args = value :: rest := by
  refine List.exists_cons_of_length_pos ?_
  simp only [harity, hostArity, hq, Option.isSome_some, if_true]
  omega

/-- Passing the receiver adds its argument, if there is one. -/
theorem passReceiver_carryReceiver (harity : args.length = p.hostArity)
    (h : p.passReceiver args.head? f = .ok f') :
    ∃ receiver, f'.arguments = f.arguments ++ receiver ∧
      Argument.CarryReceiver f'.storage p.receiver args.head? receiver ∧
      (f.CellsInOrder → f'.CellsInOrder) := by
  cases hreceiver : p.receiver with
  | none =>
    obtain rfl : f = f' := by simpa [passReceiver, hreceiver] using h
    exact ⟨[], by simp, .absent _, id⟩
  | some q =>
    obtain ⟨value, rest, rfl⟩ := exists_eq_cons harity hreceiver
    rcases hto : q.conversion.toAbi value q.isNullable q.receiverItem f with ⟨e | abi, f₁⟩
    · simp [passReceiver, hreceiver, hto] at h
    have hgrows : f.Grows f₁ := Conversion.grows_of_toAbi hto
    obtain rfl : f₁.pushValue none abi = f' := by
      simpa [passReceiver, hreceiver, hto] using h
    refine ⟨[.byValue none abi], ?_, .present ⟨f, f₁, hto, .refl _⟩,
      fun hf => (hf.grows hgrows).pushValue _ _⟩
    rw [Frame.pushValue_arguments, hgrows.arguments]

/-- The cell for an error brings no conflict of lengths. -/
theorem lengthConflict?_pushErrorCell (h : f.CellsInOrder) (count : Nat × Nat) :
    p.lengthConflict? f.pushErrorCell count = p.lengthConflict? f count := by
  unfold lengthConflict?
  rw [Frame.arrayLength?_pushErrorCell h]

/-- Arguments are passed after the receiver. -/
theorem passArgs_eq_ok (h : p.passArgs args = .ok f) :
    ∃ f₀, p.passReceiver args.head? .empty = .ok f₀ ∧
      passAll (pairArgs p.params (p.declaredValues args)) f₀ = .ok f := by
  cases hreceiver : p.passReceiver args.head? .empty with
  | error e => simp [passArgs, hreceiver] at h
  | ok f₀ => exact ⟨f₀, rfl, by simpa [passArgs, hreceiver] using h⟩

/-- Passing arguments makes a frame as `Passed` says. -/
theorem passArgs_passed (harity : args.length = p.hostArity) (h : p.passArgs args = .ok f) :
    ∃ receiver declared, p.Passed args f receiver declared := by
  obtain ⟨f₀, hreceiver, hpass⟩ := passArgs_eq_ok h
  obtain ⟨receiver, hreceiver_eq, hcarry, hcells₀⟩ := passReceiver_carryReceiver harity hreceiver
  obtain ⟨declared, hpasses⟩ := passAll_passes
    (isSome_or_usesCell_of_mem_pairArgs (length_declaredValues harity)) hpass
  refine ⟨receiver, declared, ?_⟩
  exact
    { arguments_eq := by rw [hpasses.arguments_eq, hreceiver_eq]; rfl
      carryReceiver := hcarry.extends hpasses.extends_storage
      carries := hpasses.carries
      cellsInOrder := hpasses.cellsInOrder (hcells₀ .empty) }

/-- Marshalling the right number of arguments passes them, and then compares lengths. -/
theorem marshalArgs_eq (harity : args.length = p.hostArity) :
    p.marshalArgs args =
      match p.passArgs args with
      | .error e => .error e
      | .ok f =>
        match ((pairArgs p.params (p.declaredValues args)).filterMap arrayCount?).findSome?
            (p.lengthConflict? f) with
        | some e => .error e
        | none => .ok (if p.throws then f.pushErrorCell else f) := by
  have hvalues : (if p.receiver.isSome then args.tail else args) = p.declaredValues args := rfl
  unfold marshalArgs passArgs
  rw [if_neg (not_not.mpr harity), hvalues]
  dsimp only
  cases p.passReceiver args.head? .empty with
  | error e => rfl
  | ok f₀ => rfl

/-- What a successful call of `marshalArgs` has done, step by step. -/
theorem marshalArgs_eq_ok (h : p.marshalArgs args = .ok f) :
    args.length = p.hostArity ∧ ∃ f₁, p.passArgs args = .ok f₁ ∧
      (∀ count ∈ (pairArgs p.params (p.declaredValues args)).filterMap arrayCount?,
        p.lengthConflict? f₁ count = none) ∧
      f = if p.throws then f₁.pushErrorCell else f₁ := by
  by_cases harity : args.length = p.hostArity
  case neg => simp [marshalArgs, harity] at h
  rw [marshalArgs_eq harity] at h
  cases hpass : p.passArgs args with
  | error e => simp [hpass] at h
  | ok f₁ =>
    cases hconflict : ((pairArgs p.params (p.declaredValues args)).filterMap
        arrayCount?).findSome? (p.lengthConflict? f₁) with
    | some e => simp [hpass, hconflict] at h
    | none =>
      have hf : (if p.throws then f₁.pushErrorCell else f₁) = f := by
        simpa [hpass, hconflict] using h
      exact ⟨harity, f₁, rfl, List.findSome?_eq_none_iff.mp hconflict, hf.symm⟩

/-- A successful call of `marshalArgs` makes a frame as `Marshalled` says. -/
theorem marshalArgs_marshalled (h : p.marshalArgs args = .ok f) :
    ∃ receiver declared error, p.Marshalled args f receiver declared error := by
  obtain ⟨harity, f₁, hpass, hlengths, rfl⟩ := marshalArgs_eq_ok h
  obtain ⟨receiver, declared, hpassed⟩ := passArgs_passed harity hpass
  by_cases hthrows : p.throws = true
  · have hextends := f₁.pushErrorCell_extends
    rw [if_pos hthrows]
    refine ⟨receiver, declared, [.errorCell f₁.storage.cells.length], ?_⟩
    exact
      { arity := harity
        arguments_eq := by rw [Frame.pushErrorCell_arguments, hpassed.arguments_eq]
        carryReceiver := hpassed.carryReceiver.extends hextends
        carries := hpassed.carries.imp fun _ _ hc => hc.extends hextends
        error_eq := by simp [hthrows]
        cellsInOrder := hpassed.cellsInOrder.pushErrorCell
        lengths := fun count hcount => by
          rw [lengthConflict?_pushErrorCell hpassed.cellsInOrder]
          exact hlengths count hcount }
  · rw [if_neg hthrows]
    refine ⟨receiver, declared, [], ?_⟩
    exact
      { arity := harity
        arguments_eq := by rw [hpassed.arguments_eq, List.append_nil]
        carryReceiver := hpassed.carryReceiver
        carries := hpassed.carries
        error_eq := by simp [hthrows]
        cellsInOrder := hpassed.cellsInOrder
        lengths := hlengths }

end CallablePlan

/-! ### Finding arguments -/

/-- Where the indices of parameters grow, the argument of each is found under its index. -/
theorem find?_of_carries {pairs : List (DeclaredPlan × Option HostValue)}
    {arguments : List Argument} (h : List.Forall₂ (Argument.Carries store) pairs arguments)
    (hindices : pairs.Pairwise (·.1.index < ·.1.index)) {i : Nat} (hi : pairs[i]? = some pair) :
    ∃ argument, arguments[i]? = some argument ∧ argument.Carries store pair ∧
      arguments.find? (·.isDeclared pair.1.index) = some argument := by
  induction h generalizing i with
  | nil => simp at hi
  | @cons first argument rest others hfirst _ ih =>
    obtain ⟨hbefore, hrest⟩ := List.pairwise_cons.mp hindices
    cases i with
    | zero =>
      obtain rfl : first = pair := by simpa using hi
      exact ⟨argument, rfl, hfirst, by simp [hfirst.isDeclared]⟩
    | succ i =>
      have hi' : rest[i]? = some pair := by simpa using hi
      obtain ⟨argument', hget, hcarries, hfind⟩ := ih hrest hi'
      have hlt : first.1.index < pair.1.index := hbefore pair (List.mem_of_getElem? hi')
      refine ⟨argument', by simpa using hget, hcarries, ?_⟩
      rw [List.find?_cons_of_neg (by simp [hfirst.isDeclared, Nat.ne_of_lt hlt]), hfind]

/-- Under an index that no parameter has, no argument is found. -/
theorem find?_eq_none_of_carries {pairs : List (DeclaredPlan × Option HostValue)}
    {arguments : List Argument} (h : List.Forall₂ (Argument.Carries store) pairs arguments)
    {index : Nat} (hindex : ∀ pair ∈ pairs, pair.1.index ≠ index) :
    arguments.find? (·.isDeclared index) = none := by
  induction h with
  | nil => rfl
  | cons hfirst _ ih =>
    have hne := hindex _ List.mem_cons_self
    rw [List.find?_cons_of_neg (by simp [hfirst.isDeclared, hne])]
    exact ih fun pair hpair => hindex pair (List.mem_cons_of_mem _ hpair)

namespace CallablePlan.Marshalled

variable {p : CallablePlan} {args : List HostValue} {receiver declared error : List Argument}

/-- The receiver has one argument. -/
theorem length_receiver (h : p.Marshalled args f receiver declared error) :
    receiver.length = if p.receiver.isSome then 1 else 0 :=
  h.carryReceiver.length_eq

/-- The argument of the receiver is the first, and is the first host value converted. -/
theorem exists_receiver (h : p.Marshalled args f receiver declared error) {q : ParamPlan}
    (hq : p.receiver = some q) :
    ∃ value abi, args.head? = some value ∧ f.args.head? = some abi ∧
      q.conversion.Converted q.isNullable q.receiverItem f.storage value abi := by
  have hcarry := h.carryReceiver
  have harguments := h.arguments_eq
  rw [hq] at hcarry
  generalize args.head? = value? at hcarry ⊢
  cases hcarry with
  | @present _ value abi hconverted =>
    exact ⟨value, abi, rfl, by simp [Frame.args, harguments, Argument.value], hconverted⟩

/-- Every planned parameter has one argument. -/
theorem length_declared (h : p.Marshalled args f receiver declared error) :
    declared.length = p.params.length := by
  rw [← h.carries.length_eq, ← List.length_map, map_fst_pairArgs]

/-- The arguments of the receiver and for an error belong to no declared parameter. -/
theorem declared?_eq_find? (h : p.Marshalled args f receiver declared error) (index : Nat) :
    f.declared? index = declared.find? (·.isDeclared index) := by
  have hreceiver : receiver.find? (·.isDeclared index) = none := h.carryReceiver.find?_eq_none index
  have herror : error.find? (·.isDeclared index) = none := by
    rw [h.error_eq]
    split <;> rfl
  rw [Frame.declared?, h.arguments_eq, List.find?_append, List.find?_append, hreceiver, herror]
  simp

/-- A planned parameter has its argument behind those of the receiver and of the parameters before
it, and the argument is found under its index. -/
theorem exists_argument (h : p.Marshalled args f receiver declared error)
    (hindices : p.params.Pairwise (·.index < ·.index)) {i : Nat} {q : DeclaredPlan}
    (hq : p.params[i]? = some q) :
    ∃ value? argument, (q, value?) ∈ pairArgs p.params (p.declaredValues args) ∧
      f.arguments[receiver.length + i]? = some argument ∧
      argument.Carries f.storage (q, value?) ∧ f.declared? q.index = some argument := by
  have hfst := map_fst_pairArgs p.params (p.declaredValues args)
  have hi := congrArg (·[i]?) hfst
  simp only [List.getElem?_map, hq, Option.map_eq_some_iff] at hi
  obtain ⟨⟨_, value?⟩, hpair, rfl⟩ := hi
  have hpairs := pairwise_index_pairArgs hindices (p.declaredValues args)
  obtain ⟨argument, hget, hcarries, hfind⟩ := find?_of_carries h.carries hpairs hpair
  refine ⟨value?, argument, List.mem_of_getElem? hpair, ?_, hcarries, ?_⟩
  · have hlt : i < declared.length := (List.getElem?_eq_some_iff.mp hget).1
    rw [h.arguments_eq, List.append_assoc, List.getElem?_append_right (by omega),
      Nat.add_sub_cancel_left, List.getElem?_append_left hlt, hget]
  · rw [h.declared?_eq_find?, hfind]

/-- Under an index that no planned parameter has, there is no argument. -/
theorem declared?_eq_none (h : p.Marshalled args f receiver declared error) {index : Nat}
    (hindex : ∀ q ∈ p.params, q.index ≠ index) : f.declared? index = none := by
  rw [h.declared?_eq_find?]
  refine find?_eq_none_of_carries h.carries fun pair hpair => hindex _ ?_
  rw [← map_fst_pairArgs p.params (p.declaredValues args)]
  exact List.mem_map_of_mem hpair

/-- A parameter that is passed by value was given a host value, and its argument is that value
converted. -/
theorem exists_byValue (h : p.Marshalled args f receiver declared error)
    (hindices : p.params.Pairwise (·.index < ·.index)) {q : DeclaredPlan} (hq : q ∈ p.params)
    (hcell : q.usesCell = false) :
    ∃ value abi, (q, value) ∈ p.declaredArgs args ∧
      f.declared? q.index = some (.byValue (some q.index) abi) ∧
      q.conversion.Converted q.isNullable q.item f.storage value abi := by
  obtain ⟨i, hi⟩ := List.getElem?_of_mem hq
  obtain ⟨value?, argument, hpair, -, hcarries, hdeclared⟩ := h.exists_argument hindices hi
  cases hcarries with
  | @value _ value abi _ hconverted =>
    exact ⟨value, abi, mem_declaredArgs h.arity hpair, hdeclared, hconverted⟩
  | cell hcell' => simp [hcell] at hcell'
  | empty hcell' => simp [hcell] at hcell'

end CallablePlan.Marshalled

end ForeignCall
