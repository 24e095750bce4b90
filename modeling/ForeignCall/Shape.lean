import ForeignCall.TypeName

/-!
# Declared shapes

What a declaration says about a value: the name of its type, or an array with an element type and
a rule for its length; who owns the memory afterwards; and which way the value goes.
-/

namespace ForeignCall

/-- How the number of elements of an array is known. -/
inductive ArrayLength
  /-- The declared parameter of this index holds it. -/
  | param (index : Nat)
  /-- It is this constant. -/
  | fixed (count : Nat)
  /-- The array ends before its first zero element. -/
  | zeroTerminated
  /-- It is not known. -/
  | unknown
  deriving DecidableEq, Repr, Inhabited

namespace ArrayLength

/-- A length parameter wins over a constant, and a constant over a terminator. -/
def ofAttributes (length fixedSize : Option Nat) (terminated : Bool) : ArrayLength :=
  match length, fixedSize with
  | some index, _ => param index
  | none, some count => fixed count
  | none, none => if terminated then zeroTerminated else unknown

/-- The array ends before its first zero element. -/
def isZeroTerminated : ArrayLength → Bool
  | zeroTerminated => true
  | _ => false

end ArrayLength

/-- An array type; one with a container is a boxed array object. -/
structure ArraySpec where
  element : TypeName
  length : ArrayLength
  container : Option TypeName
  cType : Option String
  deriving DecidableEq, Repr, Inhabited

/-- The declared type of a value. -/
inductive Shape
  | scalar (name : TypeName)
  | array (spec : ArraySpec)
  deriving DecidableEq, Repr, Inhabited

namespace Shape

/-- The shape is an array. -/
def isArray : Shape → Bool
  | scalar _ => false
  | array _ => true

end Shape

/-- Who owns a value after the call: nothing changes hands, the container does, or all of it. -/
inductive Transfer
  | none
  | container
  | full
  deriving DecidableEq, Repr, Inhabited

namespace Transfer

/-- The word for a transfer in declarations. -/
def name : Transfer → String
  | none => "none"
  | container => "container"
  | full => "full"

/-- Reads the attribute of a declaration. -/
def ofAttribute? (text : String) : Option Transfer :=
  if text = "none" then some .none
  else if text = "container" then some container
  else if text = "full" then some full
  else Option.none

end Transfer

/-- Which way a parameter carries its value. -/
inductive Direction
  | input
  | output
  | inout
  deriving DecidableEq, Repr, Inhabited

namespace Direction

/-- The word for a direction in declarations. -/
def name : Direction → String
  | input => "in"
  | output => "out"
  | inout => "inout"

/-- Reads the attribute of a declaration. -/
def ofAttribute? (text : String) : Option Direction :=
  if text = "in" then some input
  else if text = "out" then some output
  else if text = "inout" then some inout
  else none

/-- The native argument is the address of the value. -/
def isByReference : Direction → Bool
  | input => false
  | output | inout => true

end Direction

end ForeignCall
