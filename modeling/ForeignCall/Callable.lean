import ForeignCall.Parameter

/-!
# Callables

Functions, methods, constructors and callbacks as a library description declares them.
-/

namespace ForeignCall

/-- The kinds of callables. -/
inductive CallableKind
  | function
  | method
  | constructor
  | callback
  deriving DecidableEq, Repr, Inhabited

namespace CallableKind

/-- The word for a kind. -/
def name : CallableKind → String
  | function => "function"
  | method => "method"
  | constructor => "constructor"
  | callback => "callback"

end CallableKind

/-- A declared callable.  Its linkage names the native symbol and is empty when it has none. -/
structure Callable where
  name : String
  linkage : String
  kind : CallableKind
  receiver : Option Parameter
  params : List Parameter
  result : ReturnValue
  throws : Bool
  deprecated : Bool
  introspectable : Bool
  owner : Option String
  deriving DecidableEq, Repr, Inhabited

namespace Callable

/-- The flags as bits: throwing is the lowest, deprecated the next. -/
def flagBits (c : Callable) : Nat :=
  (if c.throws then 1 else 0) + (if c.deprecated then 2 else 0)

/-- The name of a callable, after the name of its owner if it has one. -/
def displayName (c : Callable) : String :=
  match c.owner with
  | some owner => owner ++ "." ++ c.name
  | none => c.name

/-- The callable as a member of a record. -/
def ownedBy (c : Callable) (owner : String) : Callable :=
  { c with owner := some owner }

/-- The declared parameters that are no variadic marker. -/
def fixedParams (c : Callable) : List Parameter :=
  c.params.filter (!·.isVariadic)

end Callable

end ForeignCall
