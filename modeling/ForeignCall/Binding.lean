import ForeignCall.Diagnostics
import ForeignCall.Plan.Call
import ForeignCall.Planner
import ForeignCall.Signature.Table

/-!
# Binding a namespace

Every callable of a namespace gets a plan and a signature: first the functions, then the callables
of each record, then the callbacks, which only get a signature.  A callable that cannot be bound is
reported and left out; of several callables of one linkage the last one stays.
-/

namespace ForeignCall

/-- Why something could not be bound. -/
inductive BindingError
  | registration (cause : RegistrationError)
  | marshal (cause : MarshalError)
  | signature (cause : SignatureError)
  deriving DecidableEq, Repr

namespace BindingError

/-- The wording of the cause. -/
def message : BindingError → String
  | registration cause => cause.message
  | marshal cause => cause.message
  | signature cause => cause.message

/-- Nothing of the namespace can be bound. -/
def isFatal : BindingError → Bool
  | registration _ => true
  | marshal _ | signature _ => false

end BindingError

/-- What binding can be told. -/
structure BindingOptions where
  platform : Platform
  /-- Bind also what is marked as not introspectable. -/
  includeNonIntrospectable : Bool
  /-- Words that the host reserves besides those of its language. -/
  reservedWords : List String
  deriving DecidableEq, Repr

namespace BindingOptions

/-- The options that hold unless told otherwise. -/
def standard : BindingOptions where
  platform := .reference
  includeNonIntrospectable := false
  reservedWords := []

instance : Inhabited BindingOptions := ⟨standard⟩

/-- The words of the language and the words of the options. -/
def identifiers (o : BindingOptions) : IdentifierPolicy :=
  IdentifierPolicy.standard.withReserved o.reservedWords

/-- What planning depends on. -/
def planner (o : BindingOptions) (r : Registry) : Planner where
  registry := r
  platform := o.platform
  identifiers := o.identifiers

end BindingOptions

/-- A bound callable. -/
structure CallableBinding where
  plan : CallablePlan
  signature : Signature
  deprecated : Bool
  deriving DecidableEq, Repr, Inhabited

namespace CallableBinding

/-- The name, after the name of the owner if there is one. -/
def name (b : CallableBinding) : String := b.plan.name

/-- The native symbol. -/
def linkage (b : CallableBinding) : String := b.plan.linkage

/-- Binds a callable: its signature must exist, and every value of it must have a conversion. -/
def ofCallable (p : Planner) (c : Callable) : Except BindingError CallableBinding :=
  match Signature.ofCallable p.registry p.platform c with
  | .error e => .error (.signature e)
  | .ok signature =>
    match p.plan c with
    | .error e => .error (.marshal e)
    | .ok plan => .ok { plan := plan, signature := signature, deprecated := c.deprecated }

end CallableBinding

/-- What a namespace is bound to. -/
structure Bindings where
  space : String
  version : String
  library : Option String
  signatures : SignatureTable
  callables : List CallableBinding
  callbackSignatures : SignatureTable
  diagnostics : Diagnostics
  deriving DecidableEq, Repr, Inhabited

namespace Bindings

/-- Nothing of a model is bound yet. -/
def ofModel (m : Model) : Bindings where
  space := m.name
  version := m.version
  library := m.primaryLibrary
  signatures := .empty
  callables := []
  callbackSignatures := .empty
  diagnostics := .empty

/-- The bound callable of a linkage. -/
def callable? (b : Bindings) (linkage : String) : Option CallableBinding :=
  b.callables.find? (·.linkage == linkage)

/-- The first bound callable of a name. -/
def callableNamed? (b : Bindings) (name : String) : Option CallableBinding :=
  b.callables.find? (·.name == name)

/-- Adds a bound callable in the place of those of its linkage; the signature that the linkage had
before is handed back. -/
def insert (b : Bindings) (c : CallableBinding) : Option Signature × Bindings :=
  let (displaced, signatures) := b.signatures.insert c.linkage c.signature
  let kept :=
    if displaced.isSome then b.callables.filter (·.linkage != c.linkage) else b.callables
  (displaced, { b with signatures := signatures, callables := kept ++ [c] })

/-- Adds a bound callable, with a warning if it takes the place of another. -/
def add (b : Bindings) (c : CallableBinding) : Bindings :=
  let (displaced, b) := b.insert c
  if displaced.isSome then
    { b with
      diagnostics :=
        b.diagnostics.warning ("duplicate linkage identifier '" ++ c.linkage ++ "'") (some c.name) }
  else b

/-- Binds a callable of the model, or says why not. -/
def bindCallable (o : BindingOptions) (p : Planner) (b : Bindings) (c : Callable) : Bindings :=
  if !c.introspectable && !o.includeNonIntrospectable then
    { b with
      diagnostics :=
        b.diagnostics.info "skipped non-introspectable callable" (some c.displayName) }
  else
    match CallableBinding.ofCallable p c with
    | .ok binding => b.add binding
    | .error e =>
      { b with diagnostics := b.diagnostics.error e.message (some c.displayName) }

/-- Binds the callables of a record. -/
def bindRecord (o : BindingOptions) (p : Planner) (b : Bindings) (r : Record) : Bindings :=
  if !r.introspectable && !o.includeNonIntrospectable then
    { b with
      diagnostics := b.diagnostics.info "skipped non-introspectable record" (some r.name) }
  else r.callables.foldl (bindCallable o p) b

/-- Gives a callback its signature. -/
def bindCallback (p : Planner) (b : Bindings) (c : Callback) : Bindings :=
  match Signature.ofCallable p.registry p.platform c.signature with
  | .ok signature =>
    { b with callbackSignatures := (b.callbackSignatures.insert c.name signature).2 }
  | .error e => { b with diagnostics := b.diagnostics.error e.message (some c.name) }

end Bindings

/-- Binds a namespace; only a model that cannot be registered fails. -/
def Model.bind (m : Model) (o : BindingOptions) : Except BindingError Bindings :=
  match Registry.ofModel m with
  | .error e => .error (.registration e)
  | .ok r =>
    let p := o.planner r
    let b := m.functions.foldl (Bindings.bindCallable o p) (.ofModel m)
    let b := m.records.foldl (Bindings.bindRecord o p) b
    .ok (m.callbacks.foldl (Bindings.bindCallback p) b)

end ForeignCall
