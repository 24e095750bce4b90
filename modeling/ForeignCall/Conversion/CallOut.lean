import ForeignCall.Conversion
import ForeignCall.Frame

/-!
# From slot values to host values

What a native value means to the host.  Texts and arrays are read from memory, which is left as it
is; an array of unknown length stays an address.
-/

namespace ForeignCall

/-- The value stands in another slot than the conversion reads. -/
def slotMismatch (expected : String) (value : AbiValue) : MarshalError :=
  .typeMismatch expected value.slot.name

/-- The address in a pointer slot. -/
def AbiValue.address (value : AbiValue) : Except MarshalError Address :=
  match value.toAddress? with
  | some address => .ok address
  | none => .error (slotMismatch "pointer" value)

/-- The host's view of an address: null, or a handle. -/
def HostValue.ofAddress (address : Address) (typeName : Option TypeName) : HostValue :=
  if address.isNull then .null else .handle ⟨address, typeName⟩

/-- The low 32 bits of an integer, with a sign or without. -/
def EnumConversion.reading (c : EnumConversion) (n : Int64) : Int64 :=
  if c.unsigned then n.toUInt64.toUInt32.toUInt64.toInt64 else n.toInt32.toInt64

/-- The text at an address, up to its zero byte. -/
def Memory.readString (m : Memory) (address : Address) : Except MarshalError String :=
  match cString? (m.bytesFrom address) with
  | none => .error .unreadable
  | some bytes =>
    match Text.decode bytes with
    | .ok text => .ok text
    | .error fault => .error (.invalidUtf8 fault.describe)

namespace ScalarConversion

/-- Converts one slot value. -/
def fromAbi (c : ScalarConversion) (m : Memory) (value : AbiValue) :
    Except MarshalError HostValue :=
  match c with
  | void => .ok .void
  | boolean =>
    match value.toInt64? with
    | some n => .ok (.bool (n != 0))
    | none => .error (slotMismatch "bool" value)
  | numeric slot =>
    if slot.isFloat then
      match value.toFloatBits? with
      | some bits => .ok (.float bits)
      | none => .error (slotMismatch "float" value)
    else
      match value.toInt64? with
      | some n => .ok (.int n)
      | none => .error (slotMismatch "int" value)
  | enumeration conversion =>
    match value.toInt64? with
    | some n => .ok (.int (conversion.reading n))
    | none => .error (slotMismatch "int" value)
  | string =>
    match value.address with
    | .error e => .error e
    | .ok address => if address.isNull then .ok .null else (m.readString address).map .string
  | pointer => value.address.map (.ofAddress · none)
  | handle name | callback name => value.address.map (.ofAddress · (some name))

end ScalarConversion

/-- The number of values of a slot before the first zero, if the bytes hold one.  A value that takes
no bytes is zero, so the search moves on. -/
def terminatedLength? (s : Slot) (bytes : List Byte) : Option Nat :=
  match h : s.decode? bytes with
  | none => none
  | some value =>
    if hzero : value.isZero then some 0
    else (terminatedLength? s (bytes.drop s.size)).map (· + 1)
termination_by bytes.length
decreasing_by
  have hfits : s.size ≤ bytes.length := Slot.isSome_decode?_iff.mp (h ▸ rfl)
  have hpos : s.size ≠ 0 := by
    rw [← Slot.slot_of_decode? h]
    exact mt AbiValue.isZero_of_size_eq_zero hzero
  rw [List.length_drop]
  omega

/-- A search that starts at a value ends there if the value is zero, and else goes on behind it. -/
theorem terminatedLength?_eq {s : Slot} {bytes : List Byte} {value : AbiValue}
    (h : s.decode? bytes = some value) :
    terminatedLength? s bytes =
      if value.isZero then some 0
      else (terminatedLength? s (bytes.drop s.size)).map (· + 1) := by
  rw [terminatedLength?]
  split
  · rename_i hnone
    rw [h] at hnone
    cases hnone
  · rename_i other hother
    obtain rfl : value = other := Option.some.inj (h.symm.trans hother)
    split <;> rfl

/-- Converts `count` elements that stand one after another, up to the first that is rejected. -/
def ElementConversion.fromAbiAll (c : ElementConversion) (m : Memory) :
    Nat → List Byte → Except MarshalError (List HostValue)
  | 0, _ => .ok []
  | count + 1, bytes =>
    match c.slot.decode? bytes with
    | none => .error .unreadable
    | some value =>
      match c.scalar.fromAbi m value with
      | .error e => .error e
      | .ok first => (c.fromAbiAll m count (bytes.drop c.slot.size)).map (first :: ·)

namespace ArrayConversion

/-- The number of elements of the array at an address; `length` is what a length parameter holds.
Nothing is known of an array of unknown length. -/
def count (c : ArrayConversion) (m : Memory) (address : Address) (length : Option Nat) :
    Except MarshalError (Option Nat) :=
  match c.length with
  | .fixed count => .ok (some count)
  | .param index =>
    match length with
    | some count => .ok (some count)
    | none => .error (.arrayLengthUnavailable index)
  | .zeroTerminated =>
    match terminatedLength? c.element.slot (m.bytesFrom address) with
    | some count => .ok (some count)
    | none => .error .unreadable
  | .unknown => .ok none

/-- Converts the array at an address. -/
def fromAddress (c : ArrayConversion) (m : Memory) (address : Address) (length : Option Nat) :
    Except MarshalError HostValue :=
  if address.isNull then .ok .null
  else
    match c.count m address length with
    | .error e => .error e
    | .ok none => .ok (.handle (.untyped address))
    | .ok (some count) => (c.element.fromAbiAll m count (m.bytesFrom address)).map .array

/-- Converts the address of an array. -/
def fromAbi (c : ArrayConversion) (m : Memory) (value : AbiValue) (length : Option Nat) :
    Except MarshalError HostValue :=
  match value.address with
  | .error e => .error e
  | .ok address => c.fromAddress m address length

end ArrayConversion

namespace Conversion

/-- Converts a slot value into the host's value.  `length` is the number of elements of an array
whose length another parameter holds. -/
def fromAbi (c : Conversion) (m : Memory) (value : AbiValue) (length : Option Nat) :
    Except MarshalError HostValue :=
  match c with
  | scalar conversion => conversion.fromAbi m value
  | array conversion => conversion.fromAbi m value length

end Conversion

end ForeignCall
