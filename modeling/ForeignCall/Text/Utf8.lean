/-!
# UTF-8

The bytes of texts, and texts read from bytes.  A malformed byte string is reported by the first
place where it cannot go on: the index of the ill-formed sequence and the number of bytes in it
that could still have begun a character, or that the bytes end inside one.
-/

namespace ForeignCall.Text

/-- The bytes of a text. -/
def utf8 (text : String) : List UInt8 := text.toByteArray.data.toList

/-- The text that the bytes encode, if they encode one. -/
def ofUtf8? (bytes : List UInt8) : Option String :=
  String.fromUTF8? (ByteArray.mk bytes.toArray)

/-- How a byte string begins: with a character, with bytes that begin none, or with the beginning
of one. -/
inductive Head
  | character (size : Nat)
  | malformed (size : Nat)
  | truncated
  deriving DecidableEq, Repr

/-- A byte that continues a character. -/
def isContinuation (b : UInt8) : Bool := 0x80 ≤ b && b ≤ 0xBF

/-- The bytes that may stand second after a lead byte, and the number of bytes of the character;
nothing if the byte leads no character of several bytes. -/
def leadRange? (lead : UInt8) : Option (UInt8 × UInt8 × Nat) :=
  if 0xC2 ≤ lead && lead ≤ 0xDF then some (0x80, 0xBF, 2)
  else if lead == 0xE0 then some (0xA0, 0xBF, 3)
  else if lead == 0xED then some (0x80, 0x9F, 3)
  else if 0xE1 ≤ lead && lead ≤ 0xEF then some (0x80, 0xBF, 3)
  else if lead == 0xF0 then some (0x90, 0xBF, 4)
  else if 0xF1 ≤ lead && lead ≤ 0xF3 then some (0x80, 0xBF, 4)
  else if lead == 0xF4 then some (0x80, 0x8F, 4)
  else none

/-- Looks for `missing` more continuations after `seen` bytes of a character of `size` bytes. -/
def continuations (size : Nat) : Nat → Nat → List UInt8 → Head
  | 0, _, _ => .character size
  | _ + 1, _, [] => .truncated
  | missing + 1, seen, b :: rest =>
    if isContinuation b then continuations size missing (seen + 1) rest else .malformed seen

/-- How the bytes after a lead byte go on. -/
def head (lead : UInt8) (rest : List UInt8) : Head :=
  if lead < 0x80 then .character 1
  else
    match leadRange? lead with
    | none => .malformed 1
    | some (low, high, size) =>
      match rest with
      | [] => .truncated
      | b :: rest =>
        if low ≤ b && b ≤ high then continuations size (size - 2) 2 rest else .malformed 1

/-- Where a byte string stops being UTF-8: the index of the sequence, and the number of its bytes,
or nothing if the bytes end inside it. -/
structure Fault where
  index : Nat
  size : Option Nat
  deriving DecidableEq, Repr

namespace Fault

/-- The wording of a fault. -/
def describe (f : Fault) : String :=
  match f.size with
  | some n => "invalid utf-8 sequence of " ++ toString n ++ " bytes from index " ++ toString f.index
  | none => "incomplete utf-8 byte sequence from index " ++ toString f.index

end Fault

/-- The first fault of a byte string that starts at `index`. -/
def firstFault? (index : Nat) (bytes : List UInt8) : Option Fault :=
  match bytes with
  | [] => none
  | lead :: rest =>
    match head lead rest with
    | .character size => firstFault? (index + 1 + (size - 1)) (rest.drop (size - 1))
    | .malformed size => some ⟨index, some size⟩
    | .truncated => some ⟨index, none⟩
termination_by bytes.length
decreasing_by simp only [List.length_drop, List.length_cons]; omega

/-- Reads a text, or says where the bytes stop being one. -/
def decode (bytes : List UInt8) : Except Fault String :=
  match ofUtf8? bytes with
  | some text => .ok text
  | none => .error ((firstFault? 0 bytes).getD ⟨bytes.length, none⟩)

/-- The bytes of the replacement character. -/
def replacement : List UInt8 := [0xEF, 0xBF, 0xBD]

/-- The bytes with every ill-formed sequence replaced; bytes that end inside a character are one
such sequence. -/
def repair (bytes : List UInt8) : List UInt8 :=
  match bytes with
  | [] => []
  | lead :: rest =>
    match head lead rest with
    | .character size => lead :: rest.take (size - 1) ++ repair (rest.drop (size - 1))
    | .malformed size => replacement ++ repair (rest.drop (size - 1))
    | .truncated => replacement
termination_by bytes.length
decreasing_by all_goals simp only [List.length_drop, List.length_cons]; omega

/-- Reads a text whatever the bytes are: well-formed bytes as they stand, others repaired. -/
def decodeLossy (bytes : List UInt8) : String :=
  match ofUtf8? bytes with
  | some text => text
  | none => (ofUtf8? (repair bytes)).getD ""

/-- The order of texts by their bytes. -/
def bytewiseLess (a b : String) : Bool := decide (utf8 a < utf8 b)

end ForeignCall.Text
