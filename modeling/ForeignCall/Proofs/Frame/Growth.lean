import ForeignCall.Frame

/-!
# Frames that grow

A frame owns its buffers and cells for as long as it lives, and new ones only ever come behind the
old ones.  `Storage.Extends` says so of the memory of a frame, and `Frame.Grows` of a frame that
converting a host value has added buffers to.  `Storage.HoldsAt` names the bytes of the buffer that
a pointer leads to; since it survives `Extends`, what a conversion has put into a frame can still be
read from every later one.
-/

namespace ForeignCall

namespace Storage

variable {s s' s'' : Storage}

/-! ### Storage with more blocks -/

/-- Every block of `s` stands unchanged in `s'`, which may have more blocks behind them. -/
structure Extends (s s' : Storage) : Prop where
  /-- No buffer is lost or rewritten. -/
  buffers : s.buffers <+: s'.buffers
  /-- No cell is lost or rewritten. -/
  cells : s.cells <+: s'.cells

theorem Extends.refl (s : Storage) : s.Extends s :=
  ⟨List.prefix_rfl, List.prefix_rfl⟩

theorem Extends.trans (h : s.Extends s') (h' : s'.Extends s'') : s.Extends s'' :=
  ⟨h.buffers.trans h'.buffers, h.cells.trans h'.cells⟩

/-- The value is the address of a buffer that holds exactly these bytes. -/
def HoldsAt (s : Storage) (value : AbiValue) (bytes : List Byte) : Prop :=
  ∃ index, value = .pointer (.owned (.buffer index) 0) ∧ s.buffers[index]? = some bytes

/-- A buffer keeps its bytes when the storage grows. -/
theorem HoldsAt.extends {value : AbiValue} {bytes : List Byte} (h : s.HoldsAt value bytes)
    (hs : s.Extends s') : s'.HoldsAt value bytes := by
  obtain ⟨index, rfl, hbytes⟩ := h
  obtain ⟨hlt, hget⟩ := List.getElem?_eq_some_iff.mp hbytes
  refine ⟨index, rfl, ?_⟩
  rw [List.prefix_iff_getElem?.mp hs.buffers index hlt, hget]

/-- A cell keeps its bytes when the storage grows. -/
theorem Extends.cell {index : Nat} {bytes : List Byte} (hs : s.Extends s')
    (h : s.cells[index]? = some bytes) : s'.cells[index]? = some bytes := by
  obtain ⟨hlt, hget⟩ := List.getElem?_eq_some_iff.mp h
  rw [List.prefix_iff_getElem?.mp hs.cells index hlt, hget]

end Storage

/-- From the address of a buffer on stand its bytes. -/
theorem Memory.bytesFrom_of_holdsAt {m : Memory} {address : Address} {bytes : List Byte}
    (h : m.storage.HoldsAt (.pointer address) bytes) : m.bytesFrom address = bytes := by
  obtain ⟨index, haddress, hbytes⟩ := h
  obtain rfl : address = .owned (.buffer index) 0 := by simpa using haddress
  simp [bytesFrom, Storage.block, List.getD_eq_getElem?_getD, hbytes]

/-- The address of a buffer is not null. -/
theorem Storage.HoldsAt.isNull {s : Storage} {address : Address} {bytes : List Byte}
    (h : s.HoldsAt (.pointer address) bytes) : address.isNull = false := by
  obtain ⟨index, haddress, -⟩ := h
  obtain rfl : address = .owned (.buffer index) 0 := by simpa using haddress
  rfl

namespace Frame

variable {f f' f'' : Frame}

/-! ### Frames with more buffers -/

/-- `f'` is `f` with buffers added: its arguments and cells are those of `f`. -/
structure Grows (f f' : Frame) : Prop where
  arguments : f'.arguments = f.arguments
  cells : f'.storage.cells = f.storage.cells
  buffers : f.storage.buffers <+: f'.storage.buffers

theorem Grows.refl (f : Frame) : f.Grows f :=
  ⟨rfl, rfl, List.prefix_rfl⟩

theorem Grows.trans (h : f.Grows f') (h' : f'.Grows f'') : f.Grows f'' :=
  ⟨h'.arguments.trans h.arguments, h'.cells.trans h.cells, h.buffers.trans h'.buffers⟩

/-- Adding buffers extends the storage. -/
theorem Grows.extends (h : f.Grows f') : f.storage.Extends f'.storage where
  buffers := h.buffers
  cells := by simp only [h.cells, List.prefix_rfl]

/-- Keeping a buffer adds it and nothing else. -/
theorem hold_grows (f : Frame) (bytes : List Byte) : f.Grows (f.hold bytes).2 :=
  ⟨rfl, rfl, ⟨[bytes], rfl⟩⟩

/-- A buffer takes as many bytes as it has. -/
theorem heldBytes_hold (f : Frame) (bytes : List Byte) :
    (f.hold bytes).2.heldBytes = f.heldBytes + bytes.length := by
  simp [hold, heldBytes]

/-- The address that keeping a buffer hands out leads to its bytes. -/
theorem hold_holdsAt (f : Frame) (bytes : List Byte) :
    (f.hold bytes).2.storage.HoldsAt (f.hold bytes).1 bytes :=
  ⟨f.storage.buffers.length, rfl, by simp [hold]⟩

/-! ### Adding arguments -/

@[simp] theorem pushValue_storage (f : Frame) (declared : Option Nat) (value : AbiValue) :
    (f.pushValue declared value).storage = f.storage := rfl

@[simp] theorem pushValue_arguments (f : Frame) (declared : Option Nat) (value : AbiValue) :
    (f.pushValue declared value).arguments = f.arguments ++ [.byValue declared value] := rfl

@[simp] theorem pushCell_arguments (f : Frame) (declared : Nat) (slot : Slot)
    (initial : Option AbiValue) :
    (f.pushCell declared slot initial).arguments =
      f.arguments ++ [.outCell declared f.storage.cells.length slot] := rfl

@[simp] theorem pushErrorCell_arguments (f : Frame) :
    f.pushErrorCell.arguments = f.arguments ++ [.errorCell f.storage.cells.length] := rfl

@[simp] theorem pushCell_cells (f : Frame) (declared : Nat) (slot : Slot)
    (initial : Option AbiValue) :
    (f.pushCell declared slot initial).storage.cells =
      f.storage.cells ++ [cellBytes (initial.getD .void)] := rfl

@[simp] theorem pushErrorCell_cells (f : Frame) :
    f.pushErrorCell.storage.cells = f.storage.cells ++ [cellBytes .void] := rfl

/-- A new cell leaves the blocks that are there. -/
theorem addCell_extends (f : Frame) (bytes : List Byte) :
    f.storage.Extends (f.addCell bytes).storage :=
  ⟨List.prefix_rfl, ⟨[bytes], rfl⟩⟩

theorem pushCell_extends (f : Frame) (declared : Nat) (slot : Slot) (initial : Option AbiValue) :
    f.storage.Extends (f.pushCell declared slot initial).storage :=
  f.addCell_extends _

theorem pushErrorCell_extends (f : Frame) : f.storage.Extends f.pushErrorCell.storage :=
  f.addCell_extends _

end Frame

end ForeignCall
