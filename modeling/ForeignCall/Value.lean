import ForeignCall.Address
import ForeignCall.Ieee
import ForeignCall.Slot
import ForeignCall.TypeName

/-!
# Values

What a host passes and receives, and what stands in a native slot.  Floating-point numbers are kept
as their bits, and host integers of every width as 64 bits with a sign; an unsigned integer above
that range keeps its bits.
-/

namespace ForeignCall

/-- The address of a native object, with the type it is known to have. -/
structure Handle where
  address : Address
  typeName : Option TypeName
  deriving DecidableEq, Repr, Inhabited

namespace Handle

/-- A handle of an unknown type. -/
def untyped (address : Address) : Handle where
  address := address
  typeName := none

/-- The handle holds the null address. -/
def isNull (h : Handle) : Bool := h.address.isNull

end Handle

/-- A value of the host. -/
inductive HostValue
  | void
  | null
  | bool (value : Bool)
  | int (value : Int64)
  | float (bits : UInt64)
  | string (text : String)
  | handle (handle : Handle)
  | array (items : List HostValue)
  deriving Repr, Inhabited

namespace HostValue

/-- The word for the kind of a value. -/
def kindName : HostValue → String
  | void => "void"
  | null => "null"
  | bool _ => "bool"
  | int _ => "int"
  | float _ => "float"
  | string _ => "string"
  | handle _ => "handle"
  | array _ => "array"

/-- The value is void. -/
def isVoid : HostValue → Bool
  | void => true
  | _ => false

/-- The value is null; a handle of the null address is not. -/
def isNull : HostValue → Bool
  | null => true
  | _ => false

/-- The text of a string. -/
def toString? : HostValue → Option String
  | string text => some text
  | _ => none

/-- The number of an integer. -/
def toInt64? : HostValue → Option Int64
  | int value => some value
  | _ => none

/-- The truth value of a boolean. -/
def toBool? : HostValue → Option Bool
  | bool value => some value
  | _ => none

/-- An integer of 32 bits with a sign. -/
def ofInt32 (value : Int32) : HostValue := int value.toInt64

/-- An integer of 32 bits without a sign. -/
def ofUInt32 (value : UInt32) : HostValue := int value.toUInt64.toInt64

end HostValue

/-- A value in a native slot. -/
inductive AbiValue
  | void
  | i8 (value : Int8)
  | u8 (value : UInt8)
  | i16 (value : Int16)
  | u16 (value : UInt16)
  | i32 (value : Int32)
  | u32 (value : UInt32)
  | i64 (value : Int64)
  | u64 (value : UInt64)
  | f32 (bits : UInt32)
  | f64 (bits : UInt64)
  | pointer (address : Address)
  deriving DecidableEq, Repr, Inhabited

namespace AbiValue

/-- The null pointer. -/
def null : AbiValue := pointer .null

/-- The slot that the value stands in. -/
def slot : AbiValue → Slot
  | void => .void
  | i8 _ => .i8
  | u8 _ => .u8
  | i16 _ => .i16
  | u16 _ => .u16
  | i32 _ => .i32
  | u32 _ => .u32
  | i64 _ => .i64
  | u64 _ => .u64
  | f32 _ => .f32
  | f64 _ => .f64
  | pointer _ => .pointer

/-- An integer widened to 64 bits; an unsigned one of that width keeps its bits. -/
def toInt64? : AbiValue → Option Int64
  | i8 value => some value.toInt64
  | u8 value => some value.toUInt64.toInt64
  | i16 value => some value.toInt64
  | u16 value => some value.toUInt64.toInt64
  | i32 value => some value.toInt64
  | u32 value => some value.toUInt64.toInt64
  | i64 value => some value
  | u64 value => some value.toInt64
  | _ => none

/-- A float widened to 64 bits. -/
def toFloatBits? : AbiValue → Option UInt64
  | f32 bits => some (Ieee.widen bits)
  | f64 bits => some bits
  | _ => none

/-- The address of a pointer. -/
def toAddress? : AbiValue → Option Address
  | pointer address => some address
  | _ => none

/-- The zero of a slot. -/
def zero : Slot → AbiValue
  | .void => void
  | .i8 => i8 0
  | .u8 => u8 0
  | .i16 => i16 0
  | .u16 => u16 0
  | .i32 => i32 0
  | .u32 => u32 0
  | .i64 => i64 0
  | .u64 => u64 0
  | .f32 => f32 0
  | .f64 => f64 0
  | .pointer => null

@[simp] theorem slot_zero (s : Slot) : (zero s).slot = s := by cases s <;> rfl

/-- The value is the zero of its slot.  Both zeros of a float are zero. -/
def isZero : AbiValue → Bool
  | void => true
  | i8 value => value == 0
  | u8 value => value == 0
  | i16 value => value == 0
  | u16 value => value == 0
  | i32 value => value == 0
  | u32 value => value == 0
  | i64 value => value == 0
  | u64 value => value == 0
  | f32 bits => bits <<< 1 == 0
  | f64 bits => bits <<< 1 == 0
  | pointer address => address.isNull

@[simp] theorem isZero_zero (s : Slot) : (zero s).isZero = true := by cases s <;> rfl

/-- The values that are zero: the zeros of the slots, and a negative zero for each width of
floats. -/
def IsZero (v : AbiValue) : Prop :=
  v = zero v.slot ∨ v = f32 0x80000000 ∨ v = f64 0x8000000000000000

instance (v : AbiValue) : Decidable v.IsZero := inferInstanceAs (Decidable (_ ∨ _))

theorem isZero_iff {v : AbiValue} : v.isZero = true ↔ v.IsZero := by
  cases v with
  | f32 bits =>
    have hshift : bits <<< 1 = 0 ↔ bits = 0 ∨ bits = 0x80000000 := by
      simp only [← UInt32.toNat_inj, UInt32.toNat_shiftLeft, Nat.shiftLeft_eq]
      have hbits : bits.toNat < 4294967296 := bits.toNat_lt
      simp
      omega
    simp [isZero, IsZero, zero, slot, hshift]
  | f64 bits =>
    have hshift : bits <<< 1 = 0 ↔ bits = 0 ∨ bits = 0x8000000000000000 := by
      simp only [← UInt64.toNat_inj, UInt64.toNat_shiftLeft, Nat.shiftLeft_eq]
      have hbits : bits.toNat < 18446744073709551616 := bits.toNat_lt
      simp
      omega
    simp [isZero, IsZero, zero, slot, hshift]
  | _ => simp [isZero, IsZero, zero, slot, null, Address.isNull]

theorem isZero_eq_false_iff {v : AbiValue} : v.isZero = false ↔ ¬ v.IsZero := by
  rw [← isZero_iff, Bool.not_eq_true]

/-- A value that takes no bytes is zero. -/
theorem isZero_of_size_eq_zero {v : AbiValue} (h : v.slot.size = 0) : v.isZero = true := by
  cases v <;> first | rfl | cases h

end AbiValue

end ForeignCall
