import ForeignCall.Proofs.Conversion.Arrays
import ForeignCall.Proofs.Frame.Writes

/-!
# One form of a value in buffers and cells

Slot values are written in two places, one behind another into the buffer of an array
(`TypedBuffer.bytes`) and each by itself into a cell of eight bytes (`cellBytes`), and native code
may write into a cell too.  They are read in two ways, at an address (`Slot.decode?`) and from a
cell of the frame (`Slot.decodeCell`).  Each of the four has a width of its own for every slot.  All
go by one form: a value takes the bytes of its slot, the low bits in the first (`AbiValue.byte`),
and what follows them is not looked at (`AbiValue.Begins`).

So a value that was packed into a buffer is read at its index times the size of the slot
(`Slot.Packs`), and a cell is read as the value that its first bytes are those of, whatever an older
and wider value has left behind them (`AbiValue.FillsCells`).  `Slot.codecs_agree` says both.
-/

namespace ForeignCall

/-! ### The bytes of a value -/

/-- A byte of a number, counted from the low end. -/
theorem littleEndian_getElem {n count index : Nat} (h : index < (littleEndian n count).length) :
    (littleEndian n count)[index] = UInt8.ofNat (n >>> (8 * index)) := by
  induction count generalizing n index with
  | zero => exact absurd h (Nat.not_lt_zero index)
  | succ count ih =>
    cases index with
    | zero => rfl
    | succ index =>
      have hbyte : n >>> 8 = n / 256 := Nat.shiftRight_eq_div_pow n 8
      have hshift : n >>> (8 * (index + 1)) = (n / 256) >>> (8 * index) := by
        rw [Nat.mul_succ, Nat.add_comm, Nat.shiftRight_add, hbyte]
      simp only [littleEndian, List.getElem_cons_succ]
      rw [hshift]
      exact ih _

namespace AbiValue

variable {v : AbiValue} {bytes : List Byte}

/-- The byte of a value at an index: eight of its bits, the low ones first, or one of the bytes of
the address of an owned place. -/
def byte (v : AbiValue) (index : Nat) : Byte :=
  match v with
  | pointer (.owned block offset) => .ofAddress block offset index
  | pointer (.native address) => .known (UInt8.ofNat (address.toNat >>> (8 * index)))
  | number => .known (UInt8.ofNat (number.bits >>> (8 * index)))

/-- The bytes begin with those of the value. -/
def Begins (v : AbiValue) (bytes : List Byte) : Prop :=
  ∀ index < v.slot.size, bytes[index]? = some (v.byte index)

/-- A value is encoded byte by byte. -/
theorem getElem_encode {index : Nat} (h : index < v.encode.length) :
    v.encode[index] = v.byte index := by
  cases v with
  | pointer address =>
    cases address with
    | native value => simp [encode, Address.encode, numberBytes, byte, littleEndian_getElem]
    | owned block offset => simp [encode, Address.encode, byte]
  | _ => simp [encode, numberBytes, byte, littleEndian_getElem]

theorem begins_iff : v.Begins bytes ↔ v.encode <+: bytes := by
  rw [List.prefix_iff_getElem?, Begins, ← v.length_encode]
  constructor
  · intro h index hindex
    rw [h index hindex, getElem_encode hindex]
  · intro h index hindex
    rw [h index hindex, getElem_encode hindex]

/-- A value is found where bytes begin with it. -/
theorem Begins.decode?_eq (h : v.Begins bytes) : v.slot.decode? bytes = some v := by
  obtain ⟨rest, rfl⟩ := begins_iff.mp h
  exact Slot.decode?_encode_append v rest

end AbiValue

/-! ### Buffers -/

/-- Values of a slot in the buffer for the slot. -/
structure Slot.Packs (s : Slot) (values : List AbiValue) : Prop where
  byteLength_eq : (TypedBuffer.ofValues s values).byteLength = values.length * s.size
  /-- A frame that keeps the buffer holds as many bytes more. -/
  held : ∀ f : Frame, (f.holdBuffer (.ofValues s values)).2.heldBytes =
    f.heldBytes + (TypedBuffer.ofValues s values).byteLength
  /-- Each value stands at its index times the size of the slot. -/
  begins : ∀ (i : Nat) (h : i < values.length),
    values[i].Begins ((TypedBuffer.ofValues s values).bytes.drop (i * s.size))
  /-- There it is read, as soon as the buffer is kept and for as long as the frame lives. -/
  read : ∀ (f later : Frame) (native : Native),
    (f.holdBuffer (.ofValues s values)).2.storage.Extends later.storage →
    ∃ a, (f.holdBuffer (.ofValues s values)).1 = .pointer a ∧
      ∀ (i : Nat) (h : i < values.length),
        (later.memory native).read? (a.advance (i * s.size)) s = some values[i]

/-- In front of the bytes of a value are those of the values before it. -/
theorem drop_elementBytes {s : Slot} {values : List AbiValue} (hslot : ∀ v ∈ values, v.slot = s)
    {i : Nat} (h : i < values.length) :
    (elementBytes values).drop (i * s.size) =
      values[i].encode ++ elementBytes (values.drop (i + 1)) := by
  have hbefore : (elementBytes (values.take i)).length = i * s.size := by
    have hfirst : ∀ v ∈ values.take i, v.slot = s := fun v hv => hslot v (List.mem_of_mem_take hv)
    rw [length_elementBytes hfirst, List.length_take, Nat.min_eq_left (Nat.le_of_lt h)]
  have hsplit : elementBytes values =
      elementBytes (values.take i) ++ elementBytes (values.drop i) := by
    rw [elementBytes, elementBytes, elementBytes, ← List.flatMap_append, List.take_append_drop]
  rw [hsplit, ← hbefore, List.drop_left, List.drop_eq_getElem_cons h]
  rfl

/-- From further on in a buffer stand its bytes without the first. -/
theorem Memory.bytesFrom_advance_of_holdsAt {m : Memory} {a : Address} {bytes : List Byte}
    (h : m.storage.HoldsAt (.pointer a) bytes) (n : Nat) :
    m.bytesFrom (a.advance n) = bytes.drop n := by
  rw [← bytesFrom_of_holdsAt h]
  obtain ⟨index, ha, -⟩ := h
  obtain rfl : a = .owned (.buffer index) 0 := by simpa using ha
  simp only [bytesFrom, Address.advance, List.drop_drop]

/-- Values of one slot are packed without gaps. -/
theorem Slot.packs {s : Slot} {values : List AbiValue} (hslot : ∀ v ∈ values, v.slot = s) :
    s.Packs values := by
  have hbytes := TypedBuffer.bytes_ofValues hslot
  have hbegins : ∀ (i : Nat) (h : i < values.length),
      values[i].Begins ((TypedBuffer.ofValues s values).bytes.drop (i * s.size)) := by
    intro i hi
    rw [hbytes, AbiValue.begins_iff, drop_elementBytes hslot hi]
    exact List.prefix_append _ _
  constructor
  case byteLength_eq => rw [← TypedBuffer.length_bytes, hbytes, length_elementBytes hslot]
  case held =>
    intro f
    rw [Frame.holdBuffer, Frame.heldBytes_hold, TypedBuffer.length_bytes]
  case begins => exact hbegins
  case read =>
    intro f later native hextends
    have hheld := (f.hold_holdsAt (TypedBuffer.ofValues s values).bytes).extends hextends
    refine ⟨_, rfl, fun i hi => ?_⟩
    have hdecode := (hbegins i hi).decode?_eq
    rw [hslot _ (List.getElem_mem hi)] at hdecode
    rw [Memory.read?, Memory.bytesFrom_advance_of_holdsAt hheld]
    exact hdecode

/-! ### Cells -/

namespace AbiValue

variable {v : AbiValue}

/-- The eight bytes of a cell begin like those of a cell that was filled with the value.  The others
may be left from a wider value. -/
def Occupies (v : AbiValue) (cell : List Byte) : Prop :=
  cell.length = 8 ∧ cell.take v.slot.size = (cellBytes v).take v.slot.size

/-- A value in cells. -/
structure FillsCells (v : AbiValue) : Prop where
  length_eq : (cellBytes v).length = 8
  begins : v.Begins (cellBytes v)
  /-- It is what every cell holds that it occupies. -/
  decodeCell : ∀ cell : List Byte, v.Occupies cell → v.slot.decodeCell cell = v
  /-- It is read at the address of such a cell, -/
  read : ∀ (f : Frame) (native : Native) (cell : Nat), v.Occupies (f.storage.block (.cell cell)) →
    (f.memory native).read? (.owned (.cell cell) 0) v.slot = some v
  /-- handed back by the parameter that has the cell -/
  outValue : ∀ (f : Frame) (index declared cell : Nat),
    v.Occupies (f.storage.block (.cell cell)) →
    f.declared? index = some (.outCell declared cell v.slot) → f.outValue? index = some v
  /-- and reported if it is the address in the cell for an error. -/
  error : ∀ (f : Frame) (cell : Nat) (a : Address), v = .pointer a →
    v.Occupies (f.storage.block (.cell cell)) → f.errorCell? = some cell → f.errorAddress = a

/-- A cell that a value occupies begins with the bytes of the value. -/
theorem Occupies.begins {cell : List Byte} (h : v.Occupies cell) : v.Begins cell := by
  obtain ⟨-, hfirst⟩ := h
  have hencode : (cellBytes v).take v.slot.size = v.encode := by
    rw [cellBytes_eq, ← v.length_encode, List.take_left]
  rw [begins_iff, ← hencode, ← hfirst]
  exact List.take_prefix _ _

/-- A cell that a value occupies holds the value. -/
theorem Occupies.decodeCell_eq {cell : List Byte} (h : v.Occupies cell) :
    v.slot.decodeCell cell = v := by
  have hread := h.begins.decode?_eq
  rw [Slot.decode?_eq_decodeCell _ h.1] at hread
  exact Option.some.inj hread

/-- Every reader of cells finds the value, whatever stands behind it. -/
theorem fillsCells (v : AbiValue) : v.FillsCells := by
  constructor
  case length_eq => exact length_cellBytes v
  case begins =>
    rw [begins_iff, cellBytes_eq]
    exact List.prefix_append _ _
  case decodeCell => exact fun cell hcell => hcell.decodeCell_eq
  case read =>
    intro f native cell hcell
    exact hcell.begins.decode?_eq
  case outValue =>
    intro f index declared cell hcell hdeclared
    have hbytes := Frame.getElem?_cells hcell.1
    simp only [Frame.outValue?, hdeclared, hbytes, Option.map_some, hcell.decodeCell_eq]
  case error =>
    rintro f cell a rfl hcell herror
    have hbytes := Frame.getElem?_cells hcell.1
    have hdecode : Slot.pointer.decodeCell (f.storage.block (.cell cell)) = .pointer a :=
      hcell.decodeCell_eq
    simp only [Frame.errorAddress, herror, Option.bind_some, hbytes, hdecode]
    rfl

end AbiValue

/-! ### Both -/

/-- Buffers and cells hold a value in one form, and both ways of reading find the value again. -/
theorem Slot.codecs_agree :
    (∀ (s : Slot) (values : List AbiValue), (∀ v ∈ values, v.slot = s) → s.Packs values) ∧
    ∀ v : AbiValue, v.FillsCells := by
  constructor
  · intro s values hslot
    exact packs hslot
  · intro v
    exact v.fillsCells

/-- Two numbers in a buffer, and one of them in a cell that held a wider value before. -/
theorem Slot.codecs_agree_sample :
    let values : List AbiValue := [.i16 (-2), .i16 300]
    let cell : List Byte := [.known 0xFE, .known 0xFF] ++ List.replicate 6 (.known 7)
    let f : Frame := ⟨[.outCell 0 0 .i16], ⟨[], [cell]⟩⟩
    (∀ v ∈ values, v.slot = .i16) ∧ (TypedBuffer.ofValues .i16 values).byteLength = 4 ∧
      (AbiValue.i16 (-2)).Occupies cell ∧ f.outValue? 0 = some (.i16 (-2)) := by
  intro values cell f
  have hslot : ∀ v ∈ values, v.slot = .i16 := by decide
  have hcell : (AbiValue.i16 (-2)).Occupies cell := ⟨rfl, rfl⟩
  have hpacks : Slot.i16.Packs values := codecs_agree.1 .i16 values hslot
  have hfills : (AbiValue.i16 (-2)).FillsCells := codecs_agree.2 _
  exact ⟨hslot, hpacks.byteLength_eq, hcell, hfills.outValue f 0 0 0 hcell rfl⟩

end ForeignCall
