import ForeignCall.Error
import ForeignCall.Identifier
import ForeignCall.Plan

/-!
# Planning

Decides how the parameters and the return value of a callable cross, from the registry of its
namespace, the platform and the words that the host reserves.
-/

namespace ForeignCall

/-- What planning depends on. -/
structure Planner where
  registry : Registry
  platform : Platform
  identifiers : IdentifierPolicy
  deriving DecidableEq, Repr

namespace Planner

/-- The conversion and host type of a basic type. -/
def ofBasic (p : Planner) (b : BasicType) : ScalarConversion × HostType :=
  if b.isVoid then (.void, .void)
  else if b.isBoolean then (.boolean, .boolean)
  else if b.isString then (.string, .string)
  else if b.isPointer then (.pointer, .pointer)
  else (.numeric (p.platform.slotOf b), if b.isFloat then .float else .integer)

/-- The conversion and host type of a named type. -/
def ofName (p : Planner) (name : TypeName) : ScalarConversion × HostType :=
  match p.registry.resolve name with
  | .basic b =>
    match p.registry.enumeration? name with
    | some (name, entry) => (.enumeration (.ofEntry name entry), .enumeration name)
    | none => p.ofBasic b
  | .callback name => (.callback name, .callback name)
  | .object name => (.handle name, .handle name)

/-- The conversion and host type of an array element of a class. -/
def ofElementClass (p : Planner) : TypeClass → Except MarshalError (ElementConversion × HostType)
  | .basic b =>
    if b.isVoid then .error (.unsupported "array of none" "array elements must carry a value")
    else if b.isBoolean then .ok (.boolean, .boolean)
    else if b.isString then .ok (.string, .string)
    else if b.isPointer then .ok (.handle none, .pointer)
    else .ok (.numeric (p.platform.slotOf b), if b.isFloat then .float else .integer)
  | .callback name => .ok (.handle (some name), .callback name)
  | .object name => .ok (.handle (some name), .handle name)

/-- The conversion and host type of an array element of a named type. -/
def ofElement (p : Planner) (name : TypeName) :
    Except MarshalError (ElementConversion × HostType) :=
  match p.registry.enumeration? name with
  | some (name, entry) => .ok (.enumeration (.ofEntry name entry), .enumeration name)
  | none => p.ofElementClass (p.registry.resolve name)

/-- The conversion and host type of a declared shape; a boxed array is an object. -/
def conversion (p : Planner) : Shape → Except MarshalError (Conversion × HostType)
  | .scalar name =>
    let (conversion, hostType) := p.ofName name
    .ok (.scalar conversion, hostType)
  | .array spec =>
    match spec.container with
    | some container =>
      let name := p.registry.localize container
      .ok (.scalar (.handle name), .handle name)
    | none =>
      (p.ofElement spec.element).map fun (element, hostType) =>
        (.array ⟨element, spec.length⟩, .array hostType)

/-- Plans a parameter. -/
def planParam (p : Planner) (param : Parameter) : Except MarshalError ParamPlan :=
  match param.shape with
  | none => .error (.missingTypeDescriptor ("parameter '" ++ param.name ++ "'"))
  | some shape =>
    (p.conversion shape).map fun (conversion, hostType) =>
      { name := param.name
        ident := p.identifiers.sanitize param.name
        hostType := hostType
        conversion := conversion
        slot := if param.direction.isByReference then .pointer else conversion.slot
        direction := param.direction
        transfer := param.transfer
        flags := param.flags }

/-- Plans declared parameters that start at position `index`; the variadic marker takes a position
but has no plan. -/
def planParams (p : Planner) (index : Nat) :
    List Parameter → Except MarshalError (List DeclaredPlan)
  | [] => .ok []
  | param :: rest =>
    if param.isVariadic then p.planParams (index + 1) rest
    else
      match p.planParam param with
      | .error e => .error e
      | .ok plan => (p.planParams (index + 1) rest).map ({ plan with index := index } :: ·)

/-- Plans a return value. -/
def planReturn (p : Planner) (ret : ReturnValue) : Except MarshalError ReturnPlan :=
  match ret.shape with
  | none => .error (.missingTypeDescriptor "return value")
  | some shape =>
    (p.conversion shape).map fun (conversion, hostType) =>
      { hostType := hostType
        conversion := conversion
        slot := conversion.slot
        transfer := ret.transfer
        nullable := ret.nullable }

/-- The type that a constructor returns a handle of: its owner, or else the type it declares. -/
def constructed (p : Planner) (c : Callable) : Except MarshalError TypeName :=
  match c.owner, c.result.shape with
  | some owner, _ => .ok (.unqualified owner)
  | none, some (.scalar name) => .ok (p.registry.localize name)
  | none, _ => .error (.missingTypeDescriptor "constructor return value")

/-- Plans what a constructor returns. -/
def planConstructed (p : Planner) (c : Callable) : Except MarshalError ReturnPlan :=
  (p.constructed c).map fun name =>
    { hostType := .handle name
      conversion := .scalar (.handle name)
      slot := .pointer
      transfer := c.result.transfer
      nullable := c.result.nullable }

/-- Plans the receiver, if there is one. -/
def planReceiver (p : Planner) : Option Parameter → Except MarshalError (Option ParamPlan)
  | none => .ok none
  | some receiver => (p.planParam receiver).map some

/-- Plans a callable. -/
def plan (p : Planner) (c : Callable) : Except MarshalError CallablePlan :=
  match p.planReceiver c.receiver with
  | .error e => .error e
  | .ok receiver =>
    match p.planParams 0 c.params with
    | .error e => .error e
    | .ok params =>
      (if c.kind = .constructor then p.planConstructed c else p.planReturn c.result).map
        fun result =>
          { name := c.displayName
            linkage := c.linkage
            kind := c.kind
            receiver := receiver
            params := params
            result := result
            throws := c.throws }

end Planner

end ForeignCall
