/-!
# Native slots

A slot is the form in which one value crosses a native call: an integer of a width and a
signedness, a float, an address, or nothing.  The host is a 64-bit machine, so an address takes
eight bytes.
-/

namespace ForeignCall

/-- The native representation of one argument or result. -/
inductive Slot
  | i8
  | u8
  | i16
  | u16
  | i32
  | u32
  | i64
  | u64
  | f32
  | f64
  | pointer
  | void
  deriving DecidableEq, Repr, Inhabited

namespace Slot

/-- The name of a slot in signatures and messages. -/
def name : Slot → String
  | i8 => "i8"
  | u8 => "u8"
  | i16 => "i16"
  | u16 => "u16"
  | i32 => "i32"
  | u32 => "u32"
  | i64 => "i64"
  | u64 => "u64"
  | f32 => "f32"
  | f64 => "f64"
  | pointer => "pointer"
  | void => "void"

/-- The number of bytes that a value of the slot takes in memory. -/
def size : Slot → Nat
  | i8 | u8 => 1
  | i16 | u16 => 2
  | i32 | u32 | f32 => 4
  | i64 | u64 | f64 | pointer => 8
  | void => 0

/-- No value takes more than eight bytes. -/
theorem size_le (s : Slot) : s.size ≤ 8 := by cases s <;> decide

/-- A slot for integers. -/
def isInteger : Slot → Bool
  | i8 | u8 | i16 | u16 | i32 | u32 | i64 | u64 => true
  | _ => false

/-- A slot for integers with a sign. -/
def isSigned : Slot → Bool
  | i8 | i16 | i32 | i64 => true
  | _ => false

/-- A slot for floating-point numbers. -/
def isFloat : Slot → Bool
  | f32 | f64 => true
  | _ => false

/-- A slot for numbers. -/
def isNumeric (s : Slot) : Bool := s.isInteger || s.isFloat

end Slot

end ForeignCall
