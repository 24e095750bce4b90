/-!
# Addresses and bytes

An address is a number in native memory, or a place in a block that a call frame owns.  Where an
owned block stands is not known: only that no two of its places are the same, that none is null,
and that it keeps its place for as long as the frame lives.  A byte of memory is therefore either
known, or one of the eight bytes of the address of an owned place.
-/

namespace ForeignCall

/-- A block of memory that a call frame owns. -/
inductive Block
  /-- The buffer of this index: a string or the elements of an array. -/
  | buffer (index : Nat)
  /-- The cell of this index, which the callee may fill. -/
  | cell (index : Nat)
  deriving DecidableEq, Repr, Inhabited

/-- An address. -/
inductive Address
  | native (value : UInt64)
  | owned (block : Block) (offset : Nat)
  deriving DecidableEq, Repr

namespace Address

/-- The null address. -/
def null : Address := native 0

instance : Inhabited Address := ⟨null⟩

/-- The address is null. -/
def isNull (a : Address) : Bool := a == null

theorem isNull_eq_false_iff {a : Address} : a.isNull = false ↔ a ≠ null := by
  simp [isNull]

/-- The address that lies `n` bytes further on. -/
def advance (a : Address) (n : Nat) : Address :=
  match a with
  | native value => native (value + UInt64.ofNat n)
  | owned block offset => owned block (offset + n)

end Address

/-- A byte of memory. -/
inductive Byte
  | known (value : UInt8)
  /-- The byte of this index in the address of a place in an owned block. -/
  | ofAddress (block : Block) (offset : Nat) (index : Nat)
  deriving DecidableEq, Repr

namespace Byte

/-- The zero byte. -/
def zero : Byte := known 0

instance : Inhabited Byte := ⟨zero⟩

/-- The value of a byte.  A byte of an owned address has no value of its own; it counts as one that
is not zero, so that it never ends a string. -/
def value : Byte → UInt8
  | known value => value
  | ofAddress .. => 0xFF

end Byte

end ForeignCall
