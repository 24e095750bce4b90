import ForeignCall.Slot

/-!
# Errors

Why a namespace cannot be registered, a value not be converted, a signature not be built; and the
wording of each cause.
-/

namespace ForeignCall

/-- Why an entity or a namespace cannot be registered. -/
inductive RegistrationError
  | missingNamespaceName
  | duplicateEntity (space name kind : String)
  | unnamedEntity (space kind : String)
  deriving DecidableEq, Repr

namespace RegistrationError

/-- The wording of a cause. -/
def message : RegistrationError → String
  | missingNamespaceName => "namespace has no name"
  | duplicateEntity space name kind =>
    "duplicate " ++ kind ++ " '" ++ name ++ "' in namespace " ++ space
  | unnamedEntity space kind => "unnamed " ++ kind ++ " in namespace " ++ space

end RegistrationError

/-- Why a callable cannot be planned or a value not be converted. -/
inductive MarshalError
  /-- A declaration has no shape. -/
  | missingTypeDescriptor (item : String)
  /-- There is no conversion for what is declared or passed. -/
  | unsupported (what reason : String)
  /-- The value is of another kind than the conversion takes. -/
  | typeMismatch (expected actual : String)
  /-- The integer lies outside the range of the slot. -/
  | integerOverflow (value : Int64) (target : Slot)
  /-- Null stands where the declaration does not allow it. -/
  | unexpectedNull (item : String)
  /-- The string holds a zero byte, at this byte position. -/
  | interiorNul (position : Nat)
  /-- Native text is not UTF-8. -/
  | invalidUtf8 (detail : String)
  /-- An array has another number of elements than its constant or its length argument says. -/
  | arrayLengthMismatch (expected actual : Nat)
  /-- An element would end the array before its end. -/
  | terminatorInArray (index : Nat)
  /-- The parameter that holds a length has none to give. -/
  | arrayLengthUnavailable (index : Nat)
  /-- The number of host arguments is wrong. -/
  | arityMismatch (expected actual : Nat)
  /-- The callee reported an error. -/
  | native (domain : UInt32) (code : Int32) (text : String)
  /-- Native code left an address that cannot be read. -/
  | unreadable
  deriving DecidableEq, Repr

namespace MarshalError

/-- The wording of a cause. -/
def message : MarshalError → String
  | missingTypeDescriptor item => item ++ " has no type descriptor"
  | unsupported what reason => "unsupported marshalling of " ++ what ++ ": " ++ reason
  | typeMismatch expected actual =>
    "type mismatch: expected " ++ expected ++ ", got " ++ actual
  | integerOverflow value target =>
    "integer overflow: " ++ toString value.toInt ++ " does not fit in " ++ target.name
  | unexpectedNull item => "null passed for non-nullable " ++ item
  | interiorNul position =>
    "string contains an interior NUL byte at position " ++ toString position
  | invalidUtf8 detail => "invalid UTF-8 in native string: " ++ detail
  | arrayLengthMismatch expected actual =>
    "array length mismatch: expected " ++ toString expected ++ " elements, got " ++
      toString actual
  | terminatorInArray index =>
    "element " ++ toString index ++ " of a zero-terminated array is zero"
  | arrayLengthUnavailable index =>
    "length of array is held by parameter " ++ toString index ++ ", which is unavailable"
  | arityMismatch expected actual =>
    "expected " ++ toString expected ++ " arguments, got " ++ toString actual
  | native domain code text =>
    "native error (domain " ++ toString domain.toNat ++ ", code " ++ toString code.toInt ++
      "): " ++ text
  | unreadable => "native memory is not readable"

end MarshalError

/-- Why a signature cannot be built. -/
inductive SignatureError
  | missingTypeDescriptor (callable item : String)
  | missingLinkage (callable : String)
  deriving DecidableEq, Repr

namespace SignatureError

/-- The wording of a cause. -/
def message : SignatureError → String
  | missingTypeDescriptor callable item => callable ++ ": " ++ item ++ " has no type descriptor"
  | missingLinkage callable => callable ++ " has no linkage identifier"

end SignatureError

end ForeignCall
