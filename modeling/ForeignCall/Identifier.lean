/-!
# Identifiers

How a declared name becomes an identifier of the host language: dashes become underscores, and an
underscore goes in front of what is empty, starts with a digit or is a word that the language
reserves.
-/

namespace ForeignCall

/-- The words that the host language reserves. -/
def reservedWords : List String :=
  ["abstract", "as", "async", "await", "become", "box", "break", "const", "continue", "crate",
    "do", "dyn", "else", "enum", "extern", "false", "final", "fn", "for", "gen", "if", "impl",
    "in", "let", "loop", "macro", "match", "mod", "move", "mut", "override", "priv", "pub", "ref",
    "return", "self", "Self", "static", "struct", "super", "trait", "true", "try", "type",
    "typeof", "unsafe", "unsized", "use", "virtual", "where", "while", "yield"]

/-- The words that no identifier may be. -/
structure IdentifierPolicy where
  reserved : List String
  deriving DecidableEq, Repr

namespace IdentifierPolicy

/-- The policy of the host language. -/
def standard : IdentifierPolicy where
  reserved := reservedWords

instance : Inhabited IdentifierPolicy := ⟨standard⟩

/-- Reserves more words. -/
def withReserved (p : IdentifierPolicy) (words : List String) : IdentifierPolicy where
  reserved := p.reserved ++ words

/-- The word is reserved. -/
def isReserved (p : IdentifierPolicy) (word : String) : Bool := p.reserved.contains word

/-- The name with its dashes replaced. -/
def replaceDashes (name : String) : String :=
  String.ofList (name.toList.map fun c => if c = '-' then '_' else c)

/-- The text starts with a decimal digit. -/
def startsWithDigit (name : String) : Bool :=
  match name.toList with
  | c :: _ => c.isDigit
  | [] => false

/-- The identifier for a name. -/
def sanitize (p : IdentifierPolicy) (name : String) : String :=
  let word := replaceDashes name
  if word.isEmpty || startsWithDigit word || p.isReserved word then "_" ++ word else word

end IdentifierPolicy

end ForeignCall
