import ForeignCall.Codec

/-!
# Cells

A cell has eight bytes.  The value that it holds stands at its start, whichever slot it is of, so
native code that stores a value of that slot through the address of the cell stores it there too
(`cellBytes_eq`), and reading the cell is reading at its address (`Slot.decode?_eq_decodeCell`).
-/

namespace ForeignCall

/-- A cell of zeros with other bytes in place of its first `count`. -/
def cellFrom (count : Nat) (first : List Byte) : List Byte :=
  first ++ (List.replicate 8 Byte.zero).drop count

/-- The bytes of a cell that holds a value, and zeros after it. -/
def cellBytes : AbiValue → List Byte
  | .void => List.replicate 8 .zero
  | .i8 value => cellFrom 1 (numberBytes 1 value.toUInt8.toNat)
  | .u8 value => cellFrom 1 (numberBytes 1 value.toNat)
  | .i16 value => cellFrom 2 (numberBytes 2 value.toUInt16.toNat)
  | .u16 value => cellFrom 2 (numberBytes 2 value.toNat)
  | .i32 value => cellFrom 4 (numberBytes 4 value.toUInt32.toNat)
  | .u32 value => cellFrom 4 (numberBytes 4 value.toNat)
  | .i64 value => numberBytes 8 value.toUInt64.toNat
  | .u64 value => numberBytes 8 value.toNat
  | .f32 bits => cellFrom 4 (numberBytes 4 bits.toNat)
  | .f64 bits => numberBytes 8 bits.toNat
  | .pointer address => cellFrom 8 address.encode

/-- The value of a slot that a cell holds. -/
def Slot.decodeCell (s : Slot) (cell : List Byte) : AbiValue :=
  match s with
  | .i8 => .i8 (UInt8.ofNat (numberOf (cell.take 1))).toInt8
  | .u8 => .u8 (UInt8.ofNat (numberOf (cell.take 1)))
  | .i16 => .i16 (UInt16.ofNat (numberOf (cell.take 2))).toInt16
  | .u16 => .u16 (UInt16.ofNat (numberOf (cell.take 2)))
  | .i32 => .i32 (UInt32.ofNat (numberOf (cell.take 4))).toInt32
  | .u32 => .u32 (UInt32.ofNat (numberOf (cell.take 4)))
  | .i64 => .i64 (UInt64.ofNat (numberOf cell)).toInt64
  | .u64 => .u64 (UInt64.ofNat (numberOf cell))
  | .f32 => .f32 (UInt32.ofNat (numberOf (cell.take 4)))
  | .f64 => .f64 (UInt64.ofNat (numberOf cell))
  | .pointer => .pointer (Address.decode (cell.take 8))
  | .void => .void

/-- What a cell holds for a slot stands in the slot. -/
@[simp] theorem Slot.slot_decodeCell (s : Slot) (cell : List Byte) :
    (s.decodeCell cell).slot = s := by
  cases s <;> rfl

/-- A cell starts with the bytes of its value as native code stores it. -/
theorem cellBytes_eq (v : AbiValue) :
    cellBytes v = v.encode ++ List.replicate (8 - v.slot.size) .zero := by
  cases v <;> simp [cellBytes, cellFrom, AbiValue.encode, AbiValue.slot, AbiValue.bits, Slot.size,
    numberBytes, littleEndian, Byte.zero]

@[simp] theorem length_cellBytes (v : AbiValue) : (cellBytes v).length = 8 := by
  rw [cellBytes_eq, List.length_append, v.length_encode, List.length_replicate]
  cases v <;> rfl

/-- A cell holds the value of its first bytes, as many as the slot has. -/
theorem Slot.decodeCell_eq_ofBytes (s : Slot) {cell : List Byte} (h : cell.length = 8) :
    s.decodeCell cell = s.ofBytes (cell.take s.size) := by
  have hcell : cell.take 8 = cell := List.take_of_length_le (Nat.le_of_eq h)
  cases s <;> simp only [decodeCell, ofBytes, ofBits, size, hcell]

/-- What is read at the start of eight bytes is what they hold as a cell. -/
theorem Slot.decode?_eq_decodeCell (s : Slot) {cell : List Byte} (h : cell.length = 8) :
    s.decode? cell = some (s.decodeCell cell) := by
  have hfits : s.size ≤ cell.length := h ▸ s.size_le
  rw [decode?_eq_ofBytes, firstBytes?, if_pos hfits, Option.map_some, decodeCell_eq_ofBytes s h]

/-- A cell that begins with the bytes of a value holds the value, whatever else stands in it. -/
theorem Slot.decodeCell_encode_append (v : AbiValue) {rest : List Byte}
    (h : (v.encode ++ rest).length = 8) : v.slot.decodeCell (v.encode ++ rest) = v := by
  have hread := decode?_encode_append v rest
  rw [decode?_eq_decodeCell _ h] at hread
  exact Option.some.inj hread

/-- A cell holds the value that was put into it. -/
@[simp] theorem Slot.decodeCell_cellBytes (v : AbiValue) : v.slot.decodeCell (cellBytes v) = v := by
  have hlength := length_cellBytes v
  rw [cellBytes_eq] at hlength ⊢
  exact decodeCell_encode_append v hlength

/-- Zeros are the zero of every slot. -/
@[simp] theorem Slot.decodeCell_void (s : Slot) : s.decodeCell (cellBytes .void) = .zero s := by
  cases s <;> rfl

end ForeignCall
