import ForeignCall.TypeName

/-!
# Host types

The types that a binding shows for parameters and return values.
-/

namespace ForeignCall

/-- The type of a value on the host's side. -/
inductive HostType
  | void
  | boolean
  | integer
  | float
  | string
  /-- An untyped address. -/
  | pointer
  /-- An enumeration or bitfield, carried as an integer. -/
  | enumeration (name : TypeName)
  /-- An object behind its address. -/
  | handle (name : TypeName)
  | callback (name : TypeName)
  | array (element : HostType)
  deriving DecidableEq, Repr, Inhabited

namespace HostType

/-- The entity that a type names, also as the element of an array. -/
def entity? : HostType → Option TypeName
  | enumeration name | handle name | callback name => some name
  | array element => element.entity?
  | _ => none

/-- The text of a type. -/
def display : HostType → String
  | void => "void"
  | boolean => "bool"
  | integer => "int"
  | float => "float"
  | string => "string"
  | pointer => "pointer"
  | enumeration name | handle name | callback name => name.display
  | array element => "[" ++ element.display ++ "]"

end HostType

end ForeignCall
