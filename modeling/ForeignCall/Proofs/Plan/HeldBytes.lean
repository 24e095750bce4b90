import Mathlib.Algebra.BigOperators.Group.List.Basic
import Mathlib.Algebra.Order.Ring.Nat
import ForeignCall.Proofs.Conversion.Arrays
import ForeignCall.Proofs.Conversion.Texts
import ForeignCall.Proofs.Plan.Marshalling
import ForeignCall.Proofs.Planning

/-!
# The bytes that a call holds

For the time of a call a frame holds copies of the texts and arrays that the host passes.
`Conversion.weight` says how many bytes a value takes by itself, read off the value and its
conversion, and `CallablePlan.heldBytes_marshalArgs` that a frame holds just the sum of these: no
copy is made twice, dropped or cut, and the cells of parameters and of an error hold none.

Each step of marshalling adds the weight of the value that it is given to the bytes that are held
(`Conversion.heldBytes_toAbi`, `DeclaredPlan.heldBytes_pass`), and a run adds the sum of them
(`ScalarConversion.heldBytes_toAbiAll` over the elements of an array, `heldBytes_passAll` over the
declared parameters).
-/

namespace ForeignCall

/-! ### The weights of values -/

/-- The bytes that are kept of a value on its own: those of a text, and the zero byte after it. -/
def ScalarConversion.weight : ScalarConversion → HostValue → Nat
  | .string, .string text => text.utf8ByteSize + 1
  | _, _ => 0

/-- The bytes that are kept of an array: the slots of its elements and of the terminator, if it has
one, and what is kept of each element on its own. -/
def ArrayConversion.weight (c : ArrayConversion) : HostValue → Nat
  | .array items =>
    (items.length + if c.length.isZeroTerminated then 1 else 0) * c.element.slot.size +
      (items.map c.element.scalar.weight).sum
  | _ => 0

/-- The bytes that are kept of a host value. -/
def Conversion.weight : Conversion → HostValue → Nat
  | scalar c => c.weight
  | array c => c.weight

@[simp] theorem ScalarConversion.weight_handle (c : ScalarConversion) (h : Handle) :
    c.weight (.handle h) = 0 := by
  cases c <;> rfl

@[simp] theorem ScalarConversion.weight_null (c : ScalarConversion) : c.weight .null = 0 := by
  cases c <;> rfl

variable {value : HostValue} {abi : AbiValue} {nullable : Bool} {item : String} {f f' : Frame}

/-! ### Conversions -/

namespace ScalarConversion

variable {c : ScalarConversion}

/-- Of a single value its weight is kept. -/
theorem heldBytes_toAbi (h : c.toAbi value nullable item f = (.ok abi, f')) :
    f'.heldBytes = f.heldBytes + c.weight value := by
  cases toAbi_accepts h with
  | void | boolean | numeric | enumeration => rfl
  | string => rw [Frame.heldBytes_hold, length_stringBytes, weight]
  | handle => rw [weight_handle, Nat.add_zero]
  | null => rw [weight_null, Nat.add_zero]

/-- Of the elements of an array their weights are kept. -/
theorem heldBytes_toAbiAll {items : List HostValue} {values : List AbiValue}
    (h : c.toAbiAll nullable item items f = (.ok values, f')) :
    f'.heldBytes = f.heldBytes + (items.map c.weight).sum := by
  induction items generalizing f values with
  | nil =>
    cases h
    rfl
  | cons first rest ih =>
    rcases hfirst : c.toAbi first nullable item f with ⟨e | abi, f₁⟩
    · simp [toAbiAll_cons_error hfirst] at h
    rcases hrest : c.toAbiAll nullable item rest f₁ with ⟨e | others, f₂⟩
    · simp [toAbiAll_cons_ok hfirst, hrest, Except.map] at h
    obtain rfl : f₂ = f' := by
      rw [toAbiAll_cons_ok hfirst, hrest] at h
      exact congrArg Prod.snd h
    rw [ih hrest, heldBytes_toAbi hfirst, List.map_cons, List.sum_cons, Nat.add_assoc]

end ScalarConversion

/-- The elements and the terminator take one slot each. -/
theorem ArrayConversion.length_elementBytes_contents (c : ArrayConversion) {values : List AbiValue}
    (hslot : ∀ v ∈ values, v.slot = c.element.slot) :
    (elementBytes (c.contents values)).length =
      (values.length + if c.length.isZeroTerminated then 1 else 0) * c.element.slot.size := by
  rw [length_elementBytes (c.slot_of_mem_contents hslot), contents, List.length_append]
  split <;> rfl

/-- Of an array its weight is kept. -/
theorem ArrayConversion.heldBytes_toAbi {c : ArrayConversion}
    (h : c.toAbi value nullable item f = (.ok abi, f')) :
    f'.heldBytes = f.heldBytes + c.weight value := by
  cases toAbi_accepts h with
  | null | handle => rfl
  | @items items values f₁ _ hvalues _ =>
    have hconverted := ScalarConversion.toAbiAll_converted hvalues
    have hslot := ElementConversion.slot_of_converted hconverted
    rw [Frame.heldBytes_hold, c.length_elementBytes_contents hslot,
      ScalarConversion.heldBytes_toAbiAll hvalues, ← hconverted.length_eq, weight, Nat.add_assoc,
      Nat.add_comm (List.sum _)]

/-- Of a host value its weight is kept. -/
theorem Conversion.heldBytes_toAbi {c : Conversion}
    (h : c.toAbi value nullable item f = (.ok abi, f')) :
    f'.heldBytes = f.heldBytes + c.weight value := by
  cases c with
  | scalar c => exact ScalarConversion.heldBytes_toAbi h
  | array c => exact ArrayConversion.heldBytes_toAbi h

/-! ### Arguments -/

@[simp] theorem Frame.heldBytes_pushValue (f : Frame) (declared : Option Nat) (value : AbiValue) :
    (f.pushValue declared value).heldBytes = f.heldBytes := rfl

@[simp] theorem Frame.heldBytes_pushCell (f : Frame) (declared : Nat) (slot : Slot)
    (initial : Option AbiValue) : (f.pushCell declared slot initial).heldBytes = f.heldBytes := rfl

@[simp] theorem Frame.heldBytes_pushErrorCell (f : Frame) :
    f.pushErrorCell.heldBytes = f.heldBytes := rfl

/-- A parameter that is given no value holds nothing. -/
theorem DeclaredPlan.heldBytes_pass_none {q : DeclaredPlan} (h : q.pass none f = .ok f') :
    f'.heldBytes = f.heldBytes := by
  cases h
  split
  · exact f.heldBytes_pushCell _ _ _
  · rfl

/-- A parameter that is given a value holds what is kept of it, in a cell or not. -/
theorem DeclaredPlan.heldBytes_pass {q : DeclaredPlan} (h : q.pass (some value) f = .ok f') :
    f'.heldBytes = f.heldBytes + q.conversion.weight value := by
  rcases hto : q.conversion.toAbi value q.isNullable q.item f with ⟨e | abi, f₁⟩
  · simp [pass, hto] at h
  obtain rfl : (if q.usesCell then f₁.pushCell q.index q.conversion.slot (some abi)
      else f₁.pushValue (some q.index) abi) = f' := by simpa [pass, hto] using h
  rw [← Conversion.heldBytes_toAbi hto]
  split
  · exact f₁.heldBytes_pushCell _ _ _
  · exact f₁.heldBytes_pushValue _ _

/-- The declared parameters hold what is kept of the values that they are given. -/
theorem heldBytes_passAll {pairs : List (DeclaredPlan × Option HostValue)}
    (h : passAll pairs f = .ok f') :
    f'.heldBytes = f.heldBytes +
      ((pairs.filterMap fun pair => pair.2.map (pair.1, ·)).map fun given =>
        given.1.conversion.weight given.2).sum := by
  induction pairs generalizing f with
  | nil =>
    cases h
    rfl
  | cons pair rest ih =>
    obtain ⟨q, value?⟩ := pair
    cases hpass : q.pass value? f with
    | error e => simp [passAll, hpass] at h
    | ok f₁ =>
      have hrest := ih (f := f₁) (by simpa [passAll, hpass] using h)
      cases value? with
      | none =>
        rw [hrest, DeclaredPlan.heldBytes_pass_none hpass]
        rfl
      | some value =>
        rw [hrest, DeclaredPlan.heldBytes_pass hpass, Nat.add_assoc]
        rfl

namespace CallablePlan

variable {p : CallablePlan} {args : List HostValue}

/-- The host passes one value for each of its parameters. -/
theorem length_hostParams (p : CallablePlan) : p.hostParams.length = p.hostArity := by
  rw [hostParams, hostArity, List.length_append, List.length_map, List.countP_eq_length_filter]
  cases p.receiver <;> rfl

/-- The host parameters with their values are the receiver with the first value, if there is a
receiver, and the declared parameters with theirs. -/
theorem zip_hostParams (harity : args.length = p.hostArity) :
    p.hostParams.zip args = p.receiver.toList.zip args.head?.toList ++
      (p.declaredArgs args).map (Prod.map (·.toParamPlan) id) := by
  rw [hostParams, declaredArgs, ← List.zip_map_left]
  cases hq : p.receiver with
  | none =>
    rw [declaredValues_of_none hq]
    rfl
  | some q =>
    obtain ⟨value, rest, rfl⟩ := exists_eq_cons harity hq
    rw [declaredValues_cons hq]
    rfl

/-- The receiver holds what is kept of the first value. -/
theorem heldBytes_passReceiver {value? : Option HostValue}
    (h : p.passReceiver value? f = .ok f') :
    f'.heldBytes = f.heldBytes +
      ((p.receiver.toList.zip value?.toList).map fun given =>
        given.1.conversion.weight given.2).sum := by
  rcases hreceiver : p.receiver with _ | q
  · obtain rfl : f = f' := by simpa [passReceiver, hreceiver] using h
    rfl
  rcases value? with _ | value
  · obtain rfl : f = f' := by simpa [passReceiver, hreceiver] using h
    rfl
  rcases hto : q.conversion.toAbi value q.isNullable q.receiverItem f with ⟨e | abi, f₁⟩
  · simp [passReceiver, hreceiver, hto] at h
  obtain rfl : f₁.pushValue none abi = f' := by simpa [passReceiver, hreceiver, hto] using h
  rw [Frame.heldBytes_pushValue, Conversion.heldBytes_toAbi hto]
  rfl

/-- A frame that arguments were passed in holds what is kept of them. -/
theorem heldBytes_passArgs (harity : args.length = p.hostArity) (h : p.passArgs args = .ok f) :
    f.heldBytes = ((p.hostParams.zip args).map fun given =>
      given.1.conversion.weight given.2).sum := by
  obtain ⟨f₀, hreceiver, hpass⟩ := passArgs_eq_ok h
  have hempty : Frame.empty.heldBytes = 0 := rfl
  rw [heldBytes_passAll hpass, heldBytes_passReceiver hreceiver, hempty, Nat.zero_add,
    filterMap_pairArgs (length_declaredValues harity), zip_hostParams harity, List.map_append,
    List.sum_append, List.map_map]
  rfl

/-- The buffers of a marshalled frame are what is kept of the values that the host passes, one for
each of its parameters, and nothing else. -/
theorem heldBytes_marshalArgs (hargs : p.marshalArgs args = .ok f) :
    args.length = p.hostParams.length ∧
      f.heldBytes = ((p.hostParams.zip args).map fun given =>
        given.1.conversion.weight given.2).sum := by
  obtain ⟨harity, f₁, hpass, -, rfl⟩ := marshalArgs_eq_ok hargs
  refine ⟨harity.trans p.length_hostParams.symm, ?_⟩
  rw [← heldBytes_passArgs harity hpass]
  split
  · exact f₁.heldBytes_pushErrorCell
  · rfl

end CallablePlan

namespace Sample

/-- A throwing function with an array of texts that ends with a zero, a text that goes both ways, an
integer, and a parameter that comes out. -/
def join : Callable :=
  { function "join" [
      { parameter "texts" "utf8" .input with
        shape := some (.array ⟨.unqualified "utf8", .zeroTerminated, none, none⟩) },
      parameter "separator" "utf8" .inout, parameter "limit" "gint" .input,
      parameter "written" "gint64" .output] with
    throws := true }

/-- Host arguments for `join`. -/
def joinArgs : List HostValue :=
  [.array [.string "é", .string "ab"], .string "hi", .int 5]

end Sample

/-- The array weighs three slots, for the texts and the zero behind them, and three bytes for each
text; the text weighs three bytes, and the integer and the cells weigh nothing. -/
theorem CallablePlan.heldBytes_marshalArgs_sample :
    ∃ plan f, Sample.planner.plan Sample.join = .ok plan ∧
      plan.marshalArgs Sample.joinArgs = .ok f ∧ f.storage.cells.length = 3 ∧
      ((plan.hostParams.zip Sample.joinArgs).map fun given =>
        given.1.conversion.weight given.2) = [3 * 8 + (3 + 3), 3, 0] ∧
      Sample.joinArgs.length = plan.hostParams.length ∧
      f.heldBytes = ((plan.hostParams.zip Sample.joinArgs).map fun given =>
        given.1.conversion.weight given.2).sum := by
  refine ⟨_, _, by rfl, by rfl, by rfl, by rfl, ?_⟩
  exact CallablePlan.heldBytes_marshalArgs (by rfl)

end ForeignCall
