import ForeignCall.Conversion
import ForeignCall.Frame

/-!
# From host values to slot values

Each conversion takes the host values of its kind.  Strings and arrays are copied into buffers of
the frame, which keeps them also when a later step fails.
-/

namespace ForeignCall

namespace Slot

/-- The integers that a slot takes.  The unsigned slot of 64 bits takes every host integer, as its
bits. -/
def Holds (s : Slot) (n : Int) : Prop :=
  match s with
  | .i8 => -128 ≤ n ∧ n < 128
  | .u8 => 0 ≤ n ∧ n < 256
  | .i16 => -32768 ≤ n ∧ n < 32768
  | .u16 => 0 ≤ n ∧ n < 65536
  | .i32 => -2147483648 ≤ n ∧ n < 2147483648
  | .u32 => 0 ≤ n ∧ n < 4294967296
  | .i64 | .u64 => -9223372036854775808 ≤ n ∧ n < 9223372036854775808
  | .f32 | .f64 | .pointer | .void => False

instance (s : Slot) (n : Int) : Decidable (s.Holds n) :=
  match s with
  | .i8 | .u8 | .i16 | .u16 | .i32 | .u32 | .i64 | .u64 => inferInstanceAs (Decidable (_ ∧ _))
  | .f32 | .f64 | .pointer | .void => inferInstanceAs (Decidable False)

/-- The low bits of an integer in a slot. -/
def ofInt64 (s : Slot) (value : Int64) : AbiValue :=
  match s with
  | .i8 => .i8 value.toInt8
  | .u8 => .u8 value.toUInt64.toUInt8
  | .i16 => .i16 value.toInt16
  | .u16 => .u16 value.toUInt64.toUInt16
  | .i32 => .i32 value.toInt32
  | .u32 => .u32 value.toUInt64.toUInt32
  | .i64 => .i64 value
  | .u64 => .u64 value.toUInt64
  | .f32 => .f32 (Ieee.narrow (Ieee.ofInt64 value))
  | .f64 => .f64 (Ieee.ofInt64 value)
  | .pointer => .null
  | .void => .void

/-- A float in a slot, narrowed to 32 bits if the slot is. -/
def ofFloatBits (s : Slot) (bits : UInt64) : AbiValue :=
  match s with
  | .f32 => .f32 (Ieee.narrow bits)
  | _ => .f64 bits

end Slot

/-- A number in a slot: integers in range, and in a slot for floats both integers and floats. -/
def numericToAbi (s : Slot) (value : HostValue) : Except MarshalError AbiValue :=
  let mismatch := .error (.typeMismatch (if s.isFloat then "float" else "int") value.kindName)
  match value with
  | .int n =>
    if s.isInteger then
      if s.Holds n.toInt then .ok (s.ofInt64 n) else .error (.integerOverflow n s)
    else if s.isFloat then .ok (s.ofInt64 n)
    else mismatch
  | .float bits => if s.isFloat then .ok (s.ofFloatBits bits) else mismatch
  | _ => mismatch

/-- The value of an enumeration: the low bits of any integer that 32 bits hold, with a sign or
without. -/
def enumToAbi (value : HostValue) : Except MarshalError AbiValue :=
  match value with
  | .int n =>
    if Slot.i32.Holds n.toInt ∨ Slot.u32.Holds n.toInt then .ok (.i32 n.toInt32)
    else .error (.integerOverflow n .i32)
  | _ => .error (.typeMismatch "int" value.kindName)

/-- The bytes of a text and the zero byte after them. -/
def stringBytes (text : String) : List Byte :=
  (Text.utf8 text).map .known ++ [.zero]

/-- Keeps a copy of a text; a zero byte inside it would end it early. -/
def stringToAbi (text : String) (f : Frame) : Except MarshalError AbiValue × Frame :=
  match (Text.utf8 text).idxOf? 0 with
  | some position => (.error (.interiorNul position), f)
  | none =>
    let (address, f) := f.hold (stringBytes text)
    (.ok address, f)

namespace ScalarConversion

/-- Null is an untyped address of its own; a typed address or a text must be declared nullable, and
a number is never null. -/
def nullToAbi (c : ScalarConversion) (nullable : Bool) (item : String) :
    Except MarshalError AbiValue :=
  match c with
  | void => .ok .void
  | boolean | numeric _ | enumeration _ => .error (.typeMismatch c.expected "null")
  | pointer => .ok .null
  | string | handle _ | callback _ => if nullable then .ok .null else .error (.unexpectedNull item)

/-- Converts one host value. -/
def toAbi (c : ScalarConversion) (value : HostValue) (nullable : Bool) (item : String)
    (f : Frame) : Except MarshalError AbiValue × Frame :=
  let mismatch := .error (.typeMismatch c.expected value.kindName)
  match value with
  | .null => (c.nullToAbi nullable item, f)
  | value =>
    match c with
    | void => (.ok .void, f)
    | boolean =>
      match value with
      | .bool b => (.ok (.i32 (if b then 1 else 0)), f)
      | _ => (mismatch, f)
    | numeric slot => (numericToAbi slot value, f)
    | enumeration _ => (enumToAbi value, f)
    | string =>
      match value with
      | .string text => stringToAbi text f
      | .handle h => (.ok (.pointer h.address), f)
      | _ => (mismatch, f)
    | pointer | handle _ =>
      match value with
      | .handle h => (.ok (.pointer h.address), f)
      | _ => (mismatch, f)
    | callback name =>
      match value with
      | .handle h => (.ok (.pointer h.address), f)
      | _ =>
        (.error (.unsupported ("callback " ++ name.display)
          "host functions cannot be passed as native callbacks"), f)

/-- Converts host values in order, up to the first that is rejected. -/
def toAbiAll (c : ScalarConversion) (nullable : Bool) (item : String) :
    List HostValue → Frame → Except MarshalError (List AbiValue) × Frame
  | [], f => (.ok [], f)
  | value :: rest, f =>
    match c.toAbi value nullable item f with
    | (.error e, f) => (.error e, f)
    | (.ok first, f) =>
      match c.toAbiAll nullable item rest f with
      | (.error e, f) => (.error e, f)
      | (.ok others, f) => (.ok (first :: others), f)

end ScalarConversion

namespace ArrayConversion

/-- Keeps the converted elements, and after them the terminator if the array has one. -/
def holdElements (c : ArrayConversion) (values : List AbiValue) (f : Frame) :
    Except MarshalError AbiValue × Frame :=
  if c.length.isZeroTerminated then
    match values.findIdx? (·.isZero) with
    | some index => (.error (.terminatorInArray index), f)
    | none =>
      let (address, f) := f.holdBuffer (.ofValues c.element.slot (values ++ [.zero c.element.slot]))
      (.ok address, f)
  else
    let (address, f) := f.holdBuffer (.ofValues c.element.slot values)
    (.ok address, f)

/-- Converts the elements of a host array, unless their number is not the one declared. -/
def itemsToAbi (c : ArrayConversion) (items : List HostValue) (item : String) (f : Frame) :
    Except MarshalError AbiValue × Frame :=
  match c.element.scalar.toAbiAll c.element.isNullable item items f with
  | (.error e, f) => (.error e, f)
  | (.ok values, f) => c.holdElements values f

/-- Converts a host array, a handle that stands for one, or null if the declaration allows it. -/
def toAbi (c : ArrayConversion) (value : HostValue) (nullable : Bool) (item : String)
    (f : Frame) : Except MarshalError AbiValue × Frame :=
  match value with
  | .null => (if nullable then .ok .null else .error (.unexpectedNull item), f)
  | .handle h => (.ok (.pointer h.address), f)
  | .array items =>
    match c.length with
    | .fixed count =>
      if items.length = count then c.itemsToAbi items item f
      else (.error (.arrayLengthMismatch count items.length), f)
    | _ => c.itemsToAbi items item f
  | _ => (.error (.typeMismatch "array" value.kindName), f)

end ArrayConversion

namespace Conversion

/-- Converts a host value into the value of the conversion's slot.  `item` names the value in
messages. -/
def toAbi (c : Conversion) (value : HostValue) (nullable : Bool) (item : String) (f : Frame) :
    Except MarshalError AbiValue × Frame :=
  match c with
  | scalar conversion => conversion.toAbi value nullable item f
  | array conversion => conversion.toAbi value nullable item f

end Conversion

end ForeignCall
