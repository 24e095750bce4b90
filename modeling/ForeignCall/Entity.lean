import ForeignCall.Callable

/-!
# Entities

What a namespace can declare under a name of its own: aliases, enumerations and bitfields,
callbacks, and records of every kind.
-/

namespace ForeignCall

/-- A second name for a type. -/
structure Alias where
  name : String
  target : TypeName
  cType : Option String
  deriving DecidableEq, Repr, Inhabited

/-- A member of an enumeration. -/
structure Member where
  name : String
  value : Int64
  deriving DecidableEq, Repr, Inhabited

/-- An enumeration, or a bitfield, whose members are combined. -/
structure Enumeration where
  name : String
  isBitfield : Bool
  members : List Member
  cType : Option String
  errorDomain : Option String
  deriving DecidableEq, Repr, Inhabited

namespace Enumeration

/-- The value of the first member of a name. -/
def valueOf? (e : Enumeration) (name : String) : Option Int64 :=
  (e.members.find? (·.name == name)).map (·.value)

/-- The name of the first member of a value. -/
def nameOf? (e : Enumeration) (value : Int64) : Option String :=
  (e.members.find? (·.value == value)).map (·.name)

/-- The values do not fit the signed reading of 32 bits: some member lies above it, or the entry is
a bitfield without a negative member. -/
def isUnsigned (e : Enumeration) : Bool :=
  e.members.any (fun m => decide (2147483647 < m.value)) ||
    (e.isBitfield && e.members.all (fun m => decide (0 ≤ m.value)))

end Enumeration

/-- A function type that native code calls back. -/
structure Callback where
  name : String
  cType : Option String
  signature : Callable
  deriving DecidableEq, Repr, Inhabited

/-- The kinds of types that are handled through their address. -/
inductive RecordKind
  | record
  | classType
  | interfaceType
  | unionType
  deriving DecidableEq, Repr, Inhabited

namespace RecordKind

/-- The word for a kind. -/
def name : RecordKind → String
  | record => "record"
  | classType => "class"
  | interfaceType => "interface"
  | unionType => "union"

end RecordKind

/-- A type that is handled through its address, with its callables. -/
structure Record where
  name : String
  cType : Option String
  kind : RecordKind
  parent : Option TypeName
  introspectable : Bool
  constructors : List Callable
  methods : List Callable
  functions : List Callable
  deriving DecidableEq, Repr, Inhabited

namespace Record

/-- Constructors first, then methods, then functions. -/
def callables (r : Record) : List Callable :=
  r.constructors ++ r.methods ++ r.functions

/-- The record as the owner of all its callables. -/
def ownCallables (r : Record) : Record :=
  { r with
    constructors := r.constructors.map (·.ownedBy r.name)
    methods := r.methods.map (·.ownedBy r.name)
    functions := r.functions.map (·.ownedBy r.name) }

end Record

/-- The kinds of entities. -/
inductive EntityKind
  | typeAlias
  | enumeration
  | bitfield
  | callback
  | record
  deriving DecidableEq, Repr, Inhabited

namespace EntityKind

/-- The word for a kind. -/
def name : EntityKind → String
  | typeAlias => "alias"
  | enumeration => "enumeration"
  | bitfield => "bitfield"
  | callback => "callback"
  | record => "record"

end EntityKind

/-- A named entity of a namespace. -/
inductive Entity
  | typeAlias (entry : Alias)
  | enumeration (entry : Enumeration)
  | callback (entry : Callback)
  | record (entry : Record)
  deriving DecidableEq, Repr

namespace Entity

/-- The name under which the entity is declared. -/
def name : Entity → String
  | typeAlias entry => entry.name
  | enumeration entry => entry.name
  | callback entry => entry.name
  | record entry => entry.name

/-- The kind of the entity; a bitfield is told apart from an enumeration. -/
def kind : Entity → EntityKind
  | typeAlias _ => .typeAlias
  | enumeration entry => if entry.isBitfield then .bitfield else .enumeration
  | callback _ => .callback
  | record _ => .record

end Entity

end ForeignCall
