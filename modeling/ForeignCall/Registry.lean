import ForeignCall.Error
import ForeignCall.Model

/-!
# Registries

The entities of one namespace under their unqualified names.  A name belongs to one entity of
whatever kind; the registry records the kind of each name it has given away, and keeps the entities
of each kind in a table of their own.
-/

namespace ForeignCall

/-- The entities of a namespace. -/
structure Registry where
  space : String
  /-- The kind of each name that is taken. -/
  kinds : List (String × EntityKind)
  aliases : List (String × Alias)
  /-- Enumerations and bitfields. -/
  enumerations : List (String × Enumeration)
  callbacks : List (String × Callback)
  records : List (String × Record)
  deriving DecidableEq, Repr

namespace Registry

/-- A registry without entities. -/
def empty (space : String) : Registry where
  space := space
  kinds := []
  aliases := []
  enumerations := []
  callbacks := []
  records := []

/-- The number of entities. -/
def size (r : Registry) : Nat := r.kinds.length

/-! ### Registration -/

/-- Takes a name for an entity of a kind. -/
def claim (r : Registry) (name : String) (kind : EntityKind) : Except RegistrationError Registry :=
  if name.isEmpty then .error (.unnamedEntity r.space kind.name)
  else if (r.kinds.lookup name).isSome then .error (.duplicateEntity r.space name kind.name)
  else .ok { r with kinds := r.kinds ++ [(name, kind)] }

/-- Puts an entity into the table of its kind. -/
def file (r : Registry) : Entity → Registry
  | .typeAlias entry => { r with aliases := r.aliases ++ [(entry.name, entry)] }
  | .enumeration entry => { r with enumerations := r.enumerations ++ [(entry.name, entry)] }
  | .callback entry => { r with callbacks := r.callbacks ++ [(entry.name, entry)] }
  | .record entry => { r with records := r.records ++ [(entry.name, entry)] }

/-- Registers an entity under its name, as one of a kind. -/
def registerAs (r : Registry) (kind : EntityKind) (entity : Entity) :
    Except RegistrationError Registry :=
  (r.claim entity.name kind).map (·.file entity)

/-- Registers an entity as what it is; a bitfield is told apart from an enumeration. -/
def register (r : Registry) : Entity → Except RegistrationError Registry
  | .typeAlias entry => r.registerAs .typeAlias (.typeAlias entry)
  | .enumeration entry =>
    r.registerAs (if entry.isBitfield then .bitfield else .enumeration) (.enumeration entry)
  | .callback entry => r.registerAs .callback (.callback entry)
  | .record entry => r.registerAs .record (.record entry)

/-- Registers entities in order up to the first that is refused; the registry holds those before
it. -/
def registerAll (r : Registry) : List Entity → Registry × Option RegistrationError
  | [] => (r, none)
  | entity :: rest =>
    match r.register entity with
    | .ok r => r.registerAll rest
    | .error e => (r, some e)

end Registry

/-- The entities of a model in the order of their registration. -/
def Model.entities (m : Model) : List Entity :=
  m.aliases.map .typeAlias ++ m.enumerations.map .enumeration ++ m.bitfields.map .enumeration ++
    m.callbacks.map .callback ++ m.records.map .record

namespace Registry

/-- Registers the entities of a model. -/
def registerModel (r : Registry) (m : Model) : Registry × Option RegistrationError :=
  r.registerAll m.entities

/-- The registry of a model. -/
def ofModel (m : Model) : Except RegistrationError Registry :=
  if m.name.isEmpty then .error .missingNamespaceName
  else
    match (empty m.name).registerModel m with
    | (r, none) => .ok r
    | (_, some e) => .error e

/-! ### Looking up -/

/-- The name refers into the registry's namespace. -/
def owns (r : Registry) (name : TypeName) : Bool := name.isIn r.space

/-- The name as seen from inside the registry's namespace. -/
def localize (r : Registry) (name : TypeName) : TypeName := name.localized r.space

/-- The entity of an unqualified name. -/
def lookupLocal (r : Registry) (name : String) : Option Entity :=
  match r.kinds.lookup name with
  | none => none
  | some .typeAlias => (r.aliases.lookup name).map .typeAlias
  | some .enumeration | some .bitfield => (r.enumerations.lookup name).map .enumeration
  | some .callback => (r.callbacks.lookup name).map .callback
  | some .record => (r.records.lookup name).map .record

/-- The entity that a name denotes; names of other namespaces denote none. -/
def lookup (r : Registry) (name : TypeName) : Option Entity :=
  if r.owns name then r.lookupLocal name.name else none

/-- The name denotes an entity. -/
def contains (r : Registry) (name : TypeName) : Bool := (r.lookup name).isSome

end Registry

end ForeignCall
