import ForeignCall.Shape

/-!
# Parameters and return values

The declared parameters and return values of a callable.  A declaration without a shape has no
type descriptor; the marker of a variable argument list is a parameter named `...`.
-/

namespace ForeignCall

/-- The flags of a parameter. -/
structure ParamFlags where
  /-- The value may be null. -/
  nullable : Bool
  /-- The argument may be left out. -/
  optional : Bool
  /-- The caller provides the storage that the callee fills. -/
  callerAllocates : Bool
  deriving DecidableEq, Repr

namespace ParamFlags

/-- No flag is set. -/
def empty : ParamFlags where
  nullable := false
  optional := false
  callerAllocates := false

instance : Inhabited ParamFlags := ⟨empty⟩

/-- The flags as bits, the first flag lowest. -/
def bits (f : ParamFlags) : Nat :=
  (if f.nullable then 1 else 0) + (if f.optional then 2 else 0) +
    (if f.callerAllocates then 4 else 0)

end ParamFlags

/-- A declared parameter. -/
structure Parameter where
  name : String
  shape : Option Shape
  transfer : Transfer
  direction : Direction
  flags : ParamFlags
  deriving DecidableEq, Repr, Inhabited

namespace Parameter

/-- The marker of a variable argument list. -/
def variadic : Parameter where
  name := "..."
  shape := none
  transfer := .none
  direction := .input
  flags := .empty

/-- The parameter is the marker of a variable argument list. -/
def isVariadic (p : Parameter) : Bool := p.name == "..."

/-- The value may be null. -/
def isNullable (p : Parameter) : Bool := p.flags.nullable

end Parameter

/-- A declared return value. -/
structure ReturnValue where
  shape : Option Shape
  transfer : Transfer
  nullable : Bool
  deriving DecidableEq, Repr, Inhabited

namespace ReturnValue

/-- Nothing is returned. -/
def none : ReturnValue where
  shape := some (.scalar (.unqualified "none"))
  transfer := .none
  nullable := false

end ReturnValue

end ForeignCall
