import ForeignCall.Platform
import ForeignCall.Registry

/-!
# Resolution

What a declared type stands for.  Alias links are followed first; the name they lead to is then a
keyword, an enumeration, a callback, or else the name of something that is handled through its
address.  A chain of links that is too long leads nowhere: the name it started from is kept.
-/

namespace ForeignCall

/-- What a type name stands for. -/
inductive TypeClass
  /-- A basic type; every enumeration is one of 32 bits. -/
  | basic (type : BasicType)
  | callback (name : TypeName)
  /-- Something handled through its address: a record, or a name that is not known. -/
  | object (name : TypeName)
  deriving DecidableEq, Repr, Inhabited

namespace TypeClass

/-- The basic type, if it is one. -/
def basic? : TypeClass → Option BasicType
  | basic type => some type
  | _ => none

/-- The type is handled through its address. -/
def isObject : TypeClass → Bool
  | object _ => true
  | _ => false

/-- The slot of a value of the class. -/
def slot (p : Platform) : TypeClass → Slot
  | basic type => p.slotOf type
  | callback _ | object _ => .pointer

end TypeClass

/-- What a declared shape stands for. -/
inductive Resolved
  | scalar (type : BasicType)
  | array (element : TypeClass) (length : ArrayLength)
  | object (name : TypeName)
  | callback (name : TypeName)
  /-- A boxed array object. -/
  | container (name : TypeName)
  deriving DecidableEq, Repr, Inhabited

namespace Resolved

/-- The slot of a value; arrays and references are addresses. -/
def slot (p : Platform) : Resolved → Slot
  | scalar type => p.slotOf type
  | array .. | object _ | callback _ | container _ => .pointer

end Resolved

/-- The keyword that a name spells; a qualified name spells none. -/
def TypeName.keyword? (name : TypeName) : Option BasicType :=
  if name.isQualified then none else BasicType.ofKeyword? name.name

/-- The number of alias links after which a chain counts as too long. -/
def maxAliasDepth : Nat := 64

namespace Registry

/-- Looks at up to `depth` names from `name` on: the first of them that is no alias. -/
def chase (r : Registry) : Nat → TypeName → Option TypeName
  | 0, _ => none
  | depth + 1, name =>
    match r.lookup name with
    | some (.typeAlias entry) => r.chase depth entry.target
    | _ => some name

/-- The name that alias links lead to; the name itself if they lead too far. -/
def followAliases (r : Registry) (name : TypeName) : TypeName :=
  (r.chase maxAliasDepth name).getD name

/-- The enumeration that a name denotes through aliases, under its name inside the namespace. -/
def enumeration? (r : Registry) (name : TypeName) : Option (TypeName × Enumeration) :=
  let terminal := r.followAliases name
  match r.lookup terminal with
  | some (.enumeration entry) => some (r.localize terminal, entry)
  | _ => none

/-- The class of a name that is no alias. -/
def classify (r : Registry) (name : TypeName) : TypeClass :=
  match name.keyword? with
  | some type => .basic type
  | none =>
    match r.lookup name with
    | some (.enumeration _) => .basic .int32
    | some (.callback _) => .callback (r.localize name)
    | _ => .object (r.localize name)

/-- The class of a name. -/
def resolve (r : Registry) (name : TypeName) : TypeClass := r.classify (r.followAliases name)

/-- What a declared shape stands for. -/
def resolveShape (r : Registry) : Shape → Resolved
  | .scalar name =>
    match r.resolve name with
    | .basic type => .scalar type
    | .callback name => .callback name
    | .object name => .object name
  | .array spec =>
    match spec.container with
    | some container => .container (r.localize container)
    | none => .array (r.resolve spec.element) spec.length

end Registry

end ForeignCall
