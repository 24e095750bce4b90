import ForeignCall.Resolution

/-!
# Native signatures

The slots of a native function's arguments and result, derived from its declaration: the receiver
first, then the declared parameters without the variadic marker, and last the address for an error
if the callable throws.  What is passed by reference is an address, and so is what a constructor
returns.
-/

namespace ForeignCall

/-- The slots of the arguments in order, and of the result. -/
structure Signature where
  params : List Slot
  result : Slot
  deriving DecidableEq, Repr, Inhabited

namespace Signature

/-- The number of native arguments. -/
def arity (s : Signature) : Nat := s.params.length

/-- The text of a signature. -/
def display (s : Signature) : String :=
  "(" ++ ", ".intercalate (s.params.map (·.name)) ++ ") -> " ++ s.result.name

/-- The slot of a declared shape. -/
def shapeSlot (r : Registry) (p : Platform) (shape : Shape) : Slot := (r.resolveShape shape).slot p

/-- The slot of a declared parameter of a callable. -/
def paramSlot (r : Registry) (p : Platform) (callable : String) (param : Parameter) :
    Except SignatureError Slot :=
  match param.shape with
  | none => .error (.missingTypeDescriptor callable ("parameter '" ++ param.name ++ "'"))
  | some shape => .ok (if param.direction.isByReference then .pointer else shapeSlot r p shape)

/-- The slots of declared parameters in order. -/
def paramSlots (r : Registry) (p : Platform) (callable : String) :
    List Parameter → Except SignatureError (List Slot)
  | [] => .ok []
  | param :: rest =>
    match paramSlot r p callable param with
    | .error e => .error e
    | .ok slot => (paramSlots r p callable rest).map (slot :: ·)

/-- The slot of a callable's result. -/
def resultSlot (r : Registry) (p : Platform) (c : Callable) : Except SignatureError Slot :=
  if c.kind = .constructor then .ok .pointer
  else
    match c.result.shape with
    | none => .error (.missingTypeDescriptor c.displayName "return value")
    | some shape => .ok (shapeSlot r p shape)

/-- The signature of a declared callable.  Only a callback needs no native symbol. -/
def ofCallable (r : Registry) (p : Platform) (c : Callable) : Except SignatureError Signature :=
  if c.kind ≠ .callback ∧ c.linkage.isEmpty then .error (.missingLinkage c.displayName)
  else
    match paramSlots r p c.displayName (c.receiver.toList ++ c.fixedParams) with
    | .error e => .error e
    | .ok slots =>
      (resultSlot r p c).map fun result =>
        { params := slots ++ (if c.throws then [.pointer] else []), result := result }

end Signature

end ForeignCall
