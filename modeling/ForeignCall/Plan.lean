import ForeignCall.Callable
import ForeignCall.Conversion
import ForeignCall.HostType
import ForeignCall.Signature

/-!
# Plans

How each value of a callable crosses, decided once from its declaration.  A parameter that is passed
by reference has a cell in the frame, unless the caller provides the storage and hands over its
address; a parameter that only carries a value out of a cell takes none from the host.
-/

namespace ForeignCall

/-- How a parameter crosses. -/
structure ParamPlan where
  name : String
  /-- The name as an identifier of the host. -/
  ident : String
  hostType : HostType
  /-- The conversion of the value, also when its address is passed. -/
  conversion : Conversion
  /-- The slot of the native argument. -/
  slot : Slot
  direction : Direction
  transfer : Transfer
  flags : ParamFlags
  deriving DecidableEq, Repr, Inhabited

namespace ParamPlan

/-- The value may be null. -/
def isNullable (p : ParamPlan) : Bool := p.flags.nullable

/-- The value stands in a cell of the frame. -/
def usesCell (p : ParamPlan) : Bool :=
  p.direction.isByReference && !(p.flags.callerAllocates && p.conversion.slot == .pointer)

/-- The host passes a value. -/
def takesHostValue (p : ParamPlan) : Bool := !(p.direction == .output && p.usesCell)

end ParamPlan

/-- How a declared parameter crosses, with its position among the declared parameters. -/
structure DeclaredPlan extends ParamPlan where
  index : Nat
  deriving DecidableEq, Repr, Inhabited

/-- How a return value crosses. -/
structure ReturnPlan where
  hostType : HostType
  conversion : Conversion
  slot : Slot
  transfer : Transfer
  nullable : Bool
  deriving DecidableEq, Repr, Inhabited

/-- How a callable is called. -/
structure CallablePlan where
  /-- The name, after the name of the owner if there is one. -/
  name : String
  linkage : String
  kind : CallableKind
  receiver : Option ParamPlan
  /-- The declared parameters without the variadic marker. -/
  params : List DeclaredPlan
  result : ReturnPlan
  /-- An address for an error follows the arguments. -/
  throws : Bool
  deriving DecidableEq, Repr, Inhabited

namespace CallablePlan

/-- The number of values that the host passes. -/
def hostArity (p : CallablePlan) : Nat :=
  (if p.receiver.isSome then 1 else 0) + p.params.countP (·.takesHostValue)

/-- The parameters that the host passes values for, the receiver first. -/
def hostParams (p : CallablePlan) : List ParamPlan :=
  p.receiver.toList ++ (p.params.filter (·.takesHostValue)).map (·.toParamPlan)

/-- The native signature that the plan implies. -/
def signature (p : CallablePlan) : Signature where
  params :=
    p.receiver.toList.map (·.slot) ++ p.params.map (·.slot) ++
      (if p.throws then [.pointer] else [])
  result := p.result.slot

end CallablePlan

end ForeignCall
