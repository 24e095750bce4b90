/-!
# Diagnostics

What a binding run has to say about the declarations it was given, in the order of its finding.
-/

namespace ForeignCall

/-- How serious a message is. -/
inductive Severity
  /-- A declaration could not be bound. -/
  | error
  /-- A declaration was bound, but something is suspicious. -/
  | warning
  /-- A declaration was passed over. -/
  | info
  deriving DecidableEq, Repr, Inhabited

namespace Severity

/-- The word for a severity. -/
def name : Severity → String
  | error => "error"
  | warning => "warning"
  | info => "info"

end Severity

/-- A message, about an entity if it is about one. -/
structure Diagnostic where
  severity : Severity
  message : String
  entity : Option String
  deriving DecidableEq, Repr, Inhabited

namespace Diagnostic

/-- The text of a message. -/
def display (d : Diagnostic) : String :=
  match d.entity with
  | some entity => entity ++ ": " ++ d.severity.name ++ ": " ++ d.message
  | none => d.severity.name ++ ": " ++ d.message

end Diagnostic

/-- Messages in the order of their finding. -/
structure Diagnostics where
  items : List Diagnostic
  deriving DecidableEq, Repr, Inhabited

namespace Diagnostics

/-- No message. -/
def empty : Diagnostics where
  items := []

/-- Adds a message. -/
def add (d : Diagnostics) (item : Diagnostic) : Diagnostics where
  items := d.items ++ [item]

/-- Adds an error. -/
def error (d : Diagnostics) (message : String) (entity : Option String) : Diagnostics :=
  d.add ⟨.error, message, entity⟩

/-- Adds a warning. -/
def warning (d : Diagnostics) (message : String) (entity : Option String) : Diagnostics :=
  d.add ⟨.warning, message, entity⟩

/-- Adds a piece of information. -/
def info (d : Diagnostics) (message : String) (entity : Option String) : Diagnostics :=
  d.add ⟨.info, message, entity⟩

/-- The messages of a severity. -/
def ofSeverity (d : Diagnostics) (severity : Severity) : List Diagnostic :=
  d.items.filter (·.severity == severity)

/-- The errors. -/
def errors (d : Diagnostics) : List Diagnostic := d.ofSeverity .error

/-- The warnings. -/
def warnings (d : Diagnostics) : List Diagnostic := d.ofSeverity .warning

/-- The number of messages. -/
def size (d : Diagnostics) : Nat := d.items.length

/-- There is an error. -/
def hasErrors (d : Diagnostics) : Bool := !d.errors.isEmpty

/-- There is a warning. -/
def hasWarnings (d : Diagnostics) : Bool := !d.warnings.isEmpty

/-- The messages, each on a line of its own. -/
def display (d : Diagnostics) : String :=
  String.join (d.items.map fun item => item.display ++ "\n")

/-- A new message comes behind those of its severity. -/
theorem ofSeverity_add (d : Diagnostics) (item : Diagnostic) (severity : Severity) :
    (d.add item).ofSeverity severity =
      if item.severity = severity then d.ofSeverity severity ++ [item]
      else d.ofSeverity severity := by
  by_cases h : item.severity = severity <;> simp [ofSeverity, add, h]

/-- Every message is of one severity. -/
theorem size_eq (d : Diagnostics) :
    d.size = (d.ofSeverity .info).length + d.errors.length + d.warnings.length := by
  unfold size errors warnings ofSeverity
  induction d.items with
  | nil => rfl
  | cons item rest ih =>
    cases hseverity : item.severity <;> simp [hseverity] <;> omega

end Diagnostics

end ForeignCall
