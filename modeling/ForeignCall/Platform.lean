import ForeignCall.BasicType
import ForeignCall.Slot

/-!
# Platforms

The widths of the integers whose size is the platform's choice, and with them the slot of every
basic type.
-/

namespace ForeignCall

/-- The width of an integer whose size is the platform's choice. -/
inductive Width
  | w32
  | w64
  deriving DecidableEq, Repr, Inhabited

namespace Width

/-- The slot of a signed integer of this width. -/
def signed : Width → Slot
  | w32 => .i32
  | w64 => .i64

/-- The slot of an unsigned integer of this width. -/
def unsigned : Width → Slot
  | w32 => .u32
  | w64 => .u64

/-- The number of bits. -/
def bits : Width → Nat
  | w32 => 32
  | w64 => 64

end Width

/-- The widths of long integers, of sizes and of integers that hold an address. -/
structure Platform where
  long : Width
  size : Width
  pointer : Width
  deriving DecidableEq, Repr

namespace Platform

/-- Longs and sizes of 32 bits, addresses of 64: what bindings assume unless told otherwise. -/
def reference : Platform where
  long := .w32
  size := .w32
  pointer := .w64

instance : Inhabited Platform := ⟨reference⟩

/-- Longs, sizes and addresses of 64 bits. -/
def lp64 : Platform where
  long := .w64
  size := .w64
  pointer := .w64

/-- Longs of 32 bits, sizes and addresses of 64. -/
def llp64 : Platform where
  long := .w32
  size := .w64
  pointer := .w64

/-- The slot of a basic type. -/
def slotOf (p : Platform) : BasicType → Slot
  | .boolean => .i32
  | .char | .uchar | .uint8 => .u8
  | .int8 => .i8
  | .int16 | .short => .i16
  | .uint16 | .ushort | .unichar2 => .u16
  | .int | .int32 => .i32
  | .uint | .uint32 | .unichar => .u32
  | .int64 | .offset => .i64
  | .uint64 => .u64
  | .long => p.long.signed
  | .ulong => p.long.unsigned
  | .ssize => p.size.signed
  | .size | .gtype => p.size.unsigned
  | .intptr => p.pointer.signed
  | .uintptr => p.pointer.unsigned
  | .float => .f32
  | .double => .f64
  | .pointer | .constPointer | .utf8 | .filename => .pointer
  | .void => .void

end Platform

end ForeignCall
