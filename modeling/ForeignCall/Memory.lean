import ForeignCall.Codec

/-!
# Memory

What can be read and written during a call: regions of native memory, and the buffers and cells
that the call's frame owns.  Memory is read as the list of the bytes that stand from an address on,
up to the end of their region or block.  A store that does not fit there changes nothing.
-/

namespace ForeignCall

/-- A stretch of native memory. -/
structure Region where
  base : UInt64
  bytes : List Byte
  deriving DecidableEq, Repr, Inhabited

namespace Region

/-- The distance of an address from the base, if the address lies in the region. -/
def offset? (r : Region) (a : UInt64) : Option Nat :=
  if r.base.toNat ≤ a.toNat ∧ a.toNat < r.base.toNat + r.bytes.length then
    some (a.toNat - r.base.toNat)
  else none

end Region

/-- Native memory. -/
abbrev Native := List Region

/-- The memory that a frame owns. -/
structure Storage where
  /-- Strings and array elements. -/
  buffers : List (List Byte)
  /-- The cells that the callee may fill, of eight bytes each. -/
  cells : List (List Byte)
  deriving DecidableEq, Repr, Inhabited

namespace Storage

/-- Nothing is owned. -/
def empty : Storage where
  buffers := []
  cells := []

/-- The bytes of a block. -/
def block (s : Storage) : Block → List Byte
  | .buffer index => s.buffers.getD index []
  | .cell index => s.cells.getD index []

end Storage

/-- The bytes with `new` in place of those from `offset` on, if it fits. -/
def overwrite (bytes : List Byte) (offset : Nat) (new : List Byte) : List Byte :=
  if offset + new.length ≤ bytes.length then
    bytes.take offset ++ new ++ bytes.drop (offset + new.length)
  else bytes

@[simp] theorem length_overwrite (bytes : List Byte) (offset : Nat) (new : List Byte) :
    (overwrite bytes offset new).length = bytes.length := by
  unfold overwrite
  split
  · simp only [List.length_append, List.length_take, List.length_drop]
    omega
  · rfl

/-- What a store puts into a block stands there afterwards. -/
theorem drop_overwrite (bytes : List Byte) (offset : Nat) (new : List Byte)
    (hfits : offset + new.length ≤ bytes.length) :
    (overwrite bytes offset new).drop offset = new ++ bytes.drop (offset + new.length) := by
  have hbefore : (bytes.take offset).length = offset := by
    rw [List.length_take]
    omega
  rw [overwrite, if_pos hfits, List.append_assoc, List.drop_append_of_le_length (by omega),
    List.drop_eq_nil_of_le (by omega), List.nil_append]

/-- All memory that a call can reach. -/
structure Memory where
  native : Native
  storage : Storage
  deriving DecidableEq, Repr, Inhabited

namespace Native

/-- The bytes from an address on. -/
def bytesFrom : Native → UInt64 → List Byte
  | [], _ => []
  | r :: rs, a =>
    match r.offset? a with
    | some offset => r.bytes.drop offset
    | none => bytesFrom rs a

/-- Stores bytes at an address. -/
def store : Native → UInt64 → List Byte → Native
  | [], _, _ => []
  | r :: rs, a, new =>
    match r.offset? a with
    | some offset => { r with bytes := overwrite r.bytes offset new } :: rs
    | none => r :: store rs a new

end Native

namespace Storage

/-- Stores bytes in a block. -/
def store (s : Storage) (b : Block) (offset : Nat) (new : List Byte) : Storage :=
  match b with
  | .buffer index => { s with buffers := s.buffers.modify index (overwrite · offset new) }
  | .cell index => { s with cells := s.cells.modify index (overwrite · offset new) }

end Storage

namespace Memory

/-- The bytes from an address on. -/
def bytesFrom (m : Memory) : Address → List Byte
  | .native a => m.native.bytesFrom a
  | .owned block offset => (m.storage.block block).drop offset

/-- Stores bytes at an address. -/
def store (m : Memory) (a : Address) (new : List Byte) : Memory :=
  match a with
  | .native a => { m with native := m.native.store a new }
  | .owned block offset => { m with storage := m.storage.store block offset new }

/-- The value of a slot at an address. -/
def read? (m : Memory) (a : Address) (s : Slot) : Option AbiValue :=
  s.decode? (m.bytesFrom a)

end Memory

/-- The values before the first zero byte, if there is one. -/
def cString? : List Byte → Option (List UInt8)
  | [] => none
  | b :: rest => if b.value = 0 then some [] else (cString? rest).map (b.value :: ·)

end ForeignCall
