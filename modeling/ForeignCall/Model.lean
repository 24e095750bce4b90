import ForeignCall.Entity
import ForeignCall.Text.WhiteSpace

/-!
# Namespace models

The declarations of one namespace, as a loader hands them over: its entities in the order of their
declaration, its functions, and the libraries that hold the native symbols.
-/

namespace ForeignCall

/-- The declarations of a namespace. -/
structure Model where
  name : String
  version : String
  sharedLibraries : List String
  aliases : List Alias
  enumerations : List Enumeration
  bitfields : List Enumeration
  callbacks : List Callback
  records : List Record
  functions : List Callable
  deriving DecidableEq, Repr, Inhabited

/-- The libraries that an attribute lists: its pieces between commas, without the white space
around them and without those that are blank. -/
def sharedLibraryList (listed : String) : List String :=
  ((Text.commaPieces listed.toList).map Text.trim).filterMap fun piece =>
    if piece.isEmpty then none else some (String.ofList piece)

namespace Model

/-- A namespace without declarations. -/
def empty (name version : String) : Model where
  name := name
  version := version
  sharedLibraries := []
  aliases := []
  enumerations := []
  bitfields := []
  callbacks := []
  records := []
  functions := []

/-- Sets the libraries from an attribute. -/
def withSharedLibrary (m : Model) (listed : String) : Model :=
  { m with sharedLibraries := sharedLibraryList listed }

/-- Files enumerations and bitfields apart, each in the order given. -/
def withEnumerations (m : Model) (entries : List Enumeration) : Model :=
  { m with
    enumerations := m.enumerations ++ entries.filter (!·.isBitfield)
    bitfields := m.bitfields ++ entries.filter (·.isBitfield) }

/-- The library that is listed first. -/
def primaryLibrary (m : Model) : Option String := m.sharedLibraries.head?

end Model

end ForeignCall
