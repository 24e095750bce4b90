/-!
# Type names

A type reference as a library description writes it: a local name, and the namespace in front of
it when there is one.  Everything before the last dot is the namespace, so that `A.B.C` is the name
`C` of the namespace `A.B`; a name that only starts with a dot has no namespace.
-/

namespace ForeignCall

/-- A type reference: its local name and the namespace it is qualified with. -/
structure TypeName where
  name : String
  qualifier : Option String
  deriving DecidableEq, Repr, Inhabited

namespace TypeName

/-- The unqualified name. -/
def unqualified (name : String) : TypeName where
  name := name
  qualifier := none

/-- The name as seen from outside its namespace. -/
def qualified (space name : String) : TypeName where
  name := name
  qualifier := some space

/-- What stands before and after the last dot, if there is a dot. -/
def splitAtLastDot : List Char → Option (List Char × List Char)
  | [] => none
  | c :: cs =>
    match splitAtLastDot cs with
    | some (before, after) => some (c :: before, after)
    | none => if c = '.' then some ([], cs) else none

/-- Reads a possibly dotted name; an empty text before the last dot is no namespace. -/
def parse (text : String) : TypeName :=
  match splitAtLastDot text.toList with
  | none => unqualified text
  | some ([], after) => unqualified (String.ofList after)
  | some (before, after) => qualified (String.ofList before) (String.ofList after)

/-- The name carries a namespace. -/
def isQualified (t : TypeName) : Bool := t.qualifier.isSome

/-- The name refers into `space`: an unqualified name refers into whatever namespace it is in. -/
def isIn (t : TypeName) (space : String) : Bool :=
  match t.qualifier with
  | none => true
  | some q => q == space

/-- The name as seen from inside `space`; a name of another namespace stays as it is. -/
def localized (t : TypeName) (space : String) : TypeName :=
  if t.isIn space then unqualified t.name else t

/-- The text of a name: its namespace, a dot and the local name. -/
def display (t : TypeName) : String :=
  match t.qualifier with
  | none => t.name
  | some q => q ++ "." ++ t.name

end TypeName

end ForeignCall
