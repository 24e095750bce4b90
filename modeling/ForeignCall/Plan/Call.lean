import ForeignCall.Conversion.CallIn
import ForeignCall.Conversion.CallOut
import ForeignCall.Plan

/-!
# Calls

A plan turns host arguments into a frame, and after the native call turns the result, the cells and
a reported error into what the host sees.
-/

namespace ForeignCall

/-- The words for the receiver in messages. -/
def ParamPlan.receiverItem (p : ParamPlan) : String := "instance parameter '" ++ p.name ++ "'"

namespace DeclaredPlan

/-- The words for a parameter in messages. -/
def item (p : DeclaredPlan) : String := "parameter '" ++ p.name ++ "'"

/-- Adds the argument of a parameter to the frame: its cell, which starts with the host's value if
there is one, or the value itself. -/
def pass (p : DeclaredPlan) (value : Option HostValue) (f : Frame) : Except MarshalError Frame :=
  match value with
  | none => .ok (if p.usesCell then f.pushCell p.index p.conversion.slot none else f)
  | some value =>
    match p.conversion.toAbi value p.isNullable p.item f with
    | (.error e, _) => .error e
    | (.ok abi, f) =>
      .ok (if p.usesCell then f.pushCell p.index p.conversion.slot (some abi)
        else f.pushValue (some p.index) abi)

end DeclaredPlan

/-- Each parameter with the host's value for it, if it takes one. -/
def pairArgs : List DeclaredPlan → List HostValue → List (DeclaredPlan × Option HostValue)
  | [], _ => []
  | p :: ps, values =>
    if p.takesHostValue then (p, values.head?) :: pairArgs ps values.tail
    else (p, none) :: pairArgs ps values

/-- Adds the arguments of parameters in order, up to the first that is rejected. -/
def passAll : List (DeclaredPlan × Option HostValue) → Frame → Except MarshalError Frame
  | [], f => .ok f
  | (p, value) :: rest, f =>
    match p.pass value f with
    | .error e => .error e
    | .ok f => passAll rest f

/-- The length parameter and the number of elements of a host array that has a length parameter. -/
def arrayCount? (pair : DeclaredPlan × Option HostValue) : Option (Nat × Nat) :=
  match pair.1.conversion.lengthParam?, pair.2 with
  | some index, some (.array items) => some (index, items.length)
  | _, _ => none

namespace CallablePlan

/-- The declared parameter of this index is passed by value. -/
def isByValue (p : CallablePlan) (index : Nat) : Bool :=
  p.params.any fun param => param.index == index && !param.usesCell

/-- A length that is passed by value differs from the number of elements. -/
def lengthConflict? (p : CallablePlan) (f : Frame) (count : Nat × Nat) : Option MarshalError :=
  if p.isByValue count.1 then
    match f.arrayLength? count.1 with
    | some expected =>
      if expected = count.2 then none else some (.arrayLengthMismatch expected count.2)
    | none => none
  else none

/-- Adds the receiver's argument to the frame. -/
def passReceiver (p : CallablePlan) (value : Option HostValue) (f : Frame) :
    Except MarshalError Frame :=
  match p.receiver, value with
  | some receiver, some value =>
    match receiver.conversion.toAbi value receiver.isNullable receiver.receiverItem f with
    | (.error e, _) => .error e
    | (.ok abi, f) => .ok (f.pushValue none abi)
  | _, _ => .ok f

/-- Turns host arguments into a frame.  There is one argument for each of `hostParams`; lengths are
compared with their arrays once all are converted. -/
def marshalArgs (p : CallablePlan) (args : List HostValue) : Except MarshalError Frame :=
  if args.length ≠ p.hostArity then .error (.arityMismatch p.hostArity args.length)
  else
    let pairs := pairArgs p.params (if p.receiver.isSome then args.tail else args)
    match p.passReceiver args.head? .empty with
    | .error e => .error e
    | .ok f =>
      match passAll pairs f with
      | .error e => .error e
      | .ok f =>
        match (pairs.filterMap arrayCount?).findSome? (p.lengthConflict? f) with
        | some e => .error e
        | none => .ok (if p.throws then f.pushErrorCell else f)

/-- The number of elements that the frame holds for an array with a length parameter. -/
def arrayLength? (c : Conversion) (f : Frame) : Option Nat :=
  c.lengthParam?.bind f.arrayLength?

/-- Turns the native result into a host value; a reported error takes its place. -/
def unmarshalReturn (p : CallablePlan) (native : Native) (f : Frame) (value : AbiValue) :
    Except MarshalError HostValue × Frame :=
  let (reported, f) := if p.throws then f.takeError native else (none, f)
  match reported with
  | some e => (.error e, f)
  | none =>
    (p.result.conversion.fromAbi (f.memory native) value (arrayLength? p.result.conversion f), f)

/-- Reads the cells of parameters in order, up to the first that is rejected. -/
def collect (m : Memory) (f : Frame) :
    List DeclaredPlan → Except MarshalError (List (String × HostValue))
  | [] => .ok []
  | p :: rest =>
    match f.outValue? p.index with
    | none => collect m f rest
    | some value =>
      match p.conversion.fromAbi m value (arrayLength? p.conversion f) with
      | .error e => .error e
      | .ok host => (collect m f rest).map ((p.ident, host) :: ·)

/-- The values that the callee left in the cells, under the identifiers of their parameters. -/
def collectOut (p : CallablePlan) (native : Native) (f : Frame) :
    Except MarshalError (List (String × HostValue)) :=
  collect (f.memory native) f (p.params.filter (·.usesCell))

end CallablePlan

end ForeignCall
