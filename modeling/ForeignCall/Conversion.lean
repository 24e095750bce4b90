import ForeignCall.Entity
import ForeignCall.Platform
import ForeignCall.Value

/-!
# Conversions

How a value crosses between the host and a native slot.  A scalar conversion carries one value; an
array conversion carries a list of them through a buffer, each by the scalar conversion of its
element.
-/

namespace ForeignCall

/-- The conversion of an enumeration or bitfield: the low 32 bits of the value, read back with a
sign or without. -/
structure EnumConversion where
  name : TypeName
  unsigned : Bool
  deriving DecidableEq, Repr, Inhabited

namespace EnumConversion

/-- The conversion of a declared enumeration. -/
def ofEntry (name : TypeName) (entry : Enumeration) : EnumConversion where
  name := name
  unsigned := entry.isUnsigned

end EnumConversion

/-- How a single value crosses. -/
inductive ScalarConversion
  /-- There is no value. -/
  | void
  /-- A truth value as one or zero. -/
  | boolean
  /-- A number in a slot. -/
  | numeric (slot : Slot)
  | enumeration (conversion : EnumConversion)
  /-- The address of a text that ends with a zero byte. -/
  | string
  /-- An untyped address. -/
  | pointer
  /-- The address of an object of a type. -/
  | handle (name : TypeName)
  /-- The address of a native function. -/
  | callback (name : TypeName)
  deriving DecidableEq, Repr, Inhabited

namespace ScalarConversion

/-- The slot of the value. -/
def slot : ScalarConversion → Slot
  | void => .void
  | boolean | enumeration _ => .i32
  | numeric slot => slot
  | string | pointer | handle _ | callback _ => .pointer

/-- The word for the host values that the conversion takes. -/
def expected : ScalarConversion → String
  | void => "void"
  | boolean => "bool"
  | numeric slot => if slot.isFloat then "float" else "int"
  | enumeration _ => "int"
  | string => "string"
  | pointer | handle _ | callback _ => "handle"

end ScalarConversion

/-- How an element of an array crosses. -/
inductive ElementConversion
  | boolean
  | numeric (slot : Slot)
  | enumeration (conversion : EnumConversion)
  | string
  /-- The address of an object, of a type if it is known. -/
  | handle (name : Option TypeName)
  deriving DecidableEq, Repr, Inhabited

namespace ElementConversion

/-- The slot of one element in the buffer. -/
def slot : ElementConversion → Slot
  | boolean | enumeration _ => .i32
  | numeric slot => slot
  | string | handle _ => .pointer

/-- The conversion of an element on its own. -/
def scalar : ElementConversion → ScalarConversion
  | boolean => .boolean
  | numeric slot => .numeric slot
  | enumeration conversion => .enumeration conversion
  | string => .string
  | handle (some name) => .handle name
  | handle none => .pointer

/-- Elements may be null: objects may, all else must carry a value. -/
def isNullable : ElementConversion → Bool
  | handle _ => true
  | _ => false

end ElementConversion

/-- How an array crosses. -/
structure ArrayConversion where
  element : ElementConversion
  length : ArrayLength
  deriving DecidableEq, Repr, Inhabited

/-- How a parameter or return value crosses. -/
inductive Conversion
  | scalar (conversion : ScalarConversion)
  | array (conversion : ArrayConversion)
  deriving DecidableEq, Repr, Inhabited

namespace Conversion

/-- The slot of the value; an array is passed by the address of its buffer. -/
def slot : Conversion → Slot
  | scalar conversion => conversion.slot
  | array _ => .pointer

/-- There is no value. -/
def isVoid : Conversion → Bool
  | scalar .void => true
  | _ => false

/-- The parameter that holds the length of an array. -/
def lengthParam? : Conversion → Option Nat
  | array ⟨_, .param index⟩ => some index
  | _ => none

end Conversion

end ForeignCall
