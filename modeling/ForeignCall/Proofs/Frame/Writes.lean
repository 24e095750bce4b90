import ForeignCall.Frame

/-!
# Stores of the callee

A callee hands values back by storing them through the arguments that are addresses of cells: the
value of a parameter (`CalleeWrite.value`), or the address of an error (`CalleeWrite.error`).  Such
a store rewrites the first bytes of one cell (`Frame.setCell`), as many as its slot takes, and
leaves the rest of the frame.  Of a store to any address at all it can still be said that it changes
no argument and no length of a cell (`Frame.Rewritten`).

What a cell holds afterwards is read with the slot of its parameter, which takes as many bytes as
were stored, so older bytes behind them do not show (`Frame.outValue?_setCell`).
-/

namespace ForeignCall

/-- A store of the callee through an argument that is the address of a cell. -/
inductive CalleeWrite
  /-- A value for the declared parameter of that index. -/
  | value (index : Nat) (abi : AbiValue)
  /-- The address of an error. -/
  | error (address : Address)
  deriving DecidableEq, Repr

namespace CalleeWrite

/-- What is stored. -/
def stored : CalleeWrite → AbiValue
  | value _ abi => abi
  | error address => .pointer address

/-- What is stored for a declared parameter. -/
def valueOf? (w : CalleeWrite) (index : Nat) : Option AbiValue :=
  match w with
  | value declared abi => if declared = index then some abi else none
  | error _ => none

/-- The address of an error that is stored. -/
def address? : CalleeWrite → Option Address
  | value _ _ => none
  | error address => some address

/-- The argument that the store goes through: that of the parameter, or for an error the last. -/
def argument? (w : CalleeWrite) (f : Frame) : Option Argument :=
  match w with
  | value index _ => f.declared? index
  | error _ => f.arguments.getLast?

/-- The value that is stored last for a declared parameter. -/
def lastValue? (writes : List CalleeWrite) (index : Nat) : Option AbiValue :=
  (writes.filterMap (·.valueOf? index)).getLast?

/-- The address of an error that is stored last. -/
def lastAddress? (writes : List CalleeWrite) : Option Address :=
  (writes.filterMap (·.address?)).getLast?

/-- The last value is that of the last store, unless the store is not for the parameter. -/
theorem lastValue?_append_singleton (writes : List CalleeWrite) (w : CalleeWrite) (index : Nat) :
    lastValue? (writes ++ [w]) index = (w.valueOf? index).or (lastValue? writes index) := by
  unfold lastValue?
  cases hvalue : w.valueOf? index with
  | none => simp [hvalue]
  | some value => simp [hvalue]

/-- The last error is that of the last store, unless the store is for a parameter. -/
theorem lastAddress?_append_singleton (writes : List CalleeWrite) (w : CalleeWrite) :
    lastAddress? (writes ++ [w]) = w.address?.or (lastAddress? writes) := by
  unfold lastAddress?
  cases haddress : w.address? with
  | none => simp [haddress]
  | some address => simp [haddress]

end CalleeWrite

namespace Frame

/-- The callee stores a value through an argument. -/
def write (native : Native) (f : Frame) (w : CalleeWrite) : Native × Frame :=
  match (w.argument? f).bind (·.value.toAddress?) with
  | some a => f.store native a w.stored
  | none => (native, f)

/-- The callee stores values one after another. -/
def writeAll (native : Native) (f : Frame) (writes : List CalleeWrite) : Native × Frame :=
  writes.foldl (fun state w => state.2.write state.1 w) (native, f)

theorem writeAll_append_singleton (native : Native) (f : Frame) (writes : List CalleeWrite)
    (w : CalleeWrite) : f.writeAll native (writes ++ [w]) =
      (f.writeAll native writes).2.write (f.writeAll native writes).1 w := by
  simp [writeAll]

/-! ### Any store -/

/-- The frame `f'` is `f` with other bytes in its blocks.  Its arguments are those of `f`, and so
are the lengths of its cells. -/
structure Rewritten (f f' : Frame) : Prop where
  arguments_eq : f'.arguments = f.arguments
  lengths_eq : f'.storage.cells.map (·.length) = f.storage.cells.map (·.length)

namespace Rewritten

variable {f f' f'' : Frame}

theorem refl (f : Frame) : f.Rewritten f := ⟨rfl, rfl⟩

theorem trans (h : f.Rewritten f') (h' : f'.Rewritten f'') : f.Rewritten f'' :=
  ⟨h'.arguments_eq.trans h.arguments_eq, h'.lengths_eq.trans h.lengths_eq⟩

/-- Under every index the same argument is found. -/
theorem declared?_eq (h : f.Rewritten f') (index : Nat) :
    f'.declared? index = f.declared? index := by
  simp only [declared?, h.arguments_eq]

/-- There are as many cells as before. -/
theorem length_cells (h : f.Rewritten f') :
    f'.storage.cells.length = f.storage.cells.length := by
  simpa using congrArg List.length h.lengths_eq

/-- Every cell has as many bytes as before. -/
theorem length_block (h : f.Rewritten f') (cell : Nat) :
    (f'.storage.block (.cell cell)).length = (f.storage.block (.cell cell)).length := by
  have hlength := congrArg (·[cell]?) h.lengths_eq
  simp only [List.getElem?_map] at hlength
  have hgetD : ∀ bytes? : Option (List Byte),
      (bytes?.getD []).length = (bytes?.map (·.length)).getD 0 := by
    intro bytes?
    cases bytes? <;> rfl
  simp only [Storage.block, List.getD_eq_getElem?_getD, hgetD, hlength]

/-- A parameter that finds a value in its cell finds one afterwards. -/
theorem isSome_outValue? (h : f.Rewritten f') (index : Nat) :
    (f'.outValue? index).isSome = (f.outValue? index).isSome := by
  unfold outValue?
  rw [h.declared?_eq]
  cases f.declared? index with
  | none => rfl
  | some argument =>
    cases argument with
    | outCell declared cell slot =>
      dsimp only
      rw [Option.isSome_map, Option.isSome_map, Bool.eq_iff_iff]
      simp only [isSome_getElem?, h.length_cells]
    | _ => rfl

end Rewritten

/-- A store anywhere rewrites bytes. -/
theorem rewritten_store (f : Frame) (native : Native) (a : Address) (value : AbiValue) :
    f.Rewritten (f.store native a value).2 := by
  refine ⟨rfl, ?_⟩
  cases a with
  | native b => rfl
  | owned block offset =>
    cases block with
    | buffer index => rfl
    | cell index =>
      simp only [store, Memory.store, Storage.store, memory]
      refine List.ext_getElem? fun i => ?_
      simp only [List.getElem?_map, List.getElem?_modify]
      cases f.storage.cells[i]? with
      | none => rfl
      | some bytes =>
        by_cases hi : index = i <;> simp [hi]

/-- Whatever the callee stores, it rewrites bytes. -/
theorem rewritten_writeAll (native : Native) (f : Frame) (writes : List CalleeWrite) :
    f.Rewritten (f.writeAll native writes).2 := by
  induction writes generalizing native f with
  | nil => exact .refl f
  | cons w writes ih =>
    have hfirst : f.Rewritten (f.write native w).2 := by
      unfold write
      split
      · exact f.rewritten_store native _ _
      · exact .refl f
    exact hfirst.trans (ih (f.write native w).1 (f.write native w).2)

/-! ### One cell -/

variable {f : Frame} {native : Native} {index cell : Nat} {value : AbiValue} {argument : Argument}

/-- The frame with a value in the first bytes of a cell. -/
def setCell (f : Frame) (cell : Nat) (value : AbiValue) : Frame :=
  { f with storage := f.storage.store (.cell cell) 0 value.encode }

@[simp] theorem setCell_arguments (f : Frame) (cell : Nat) (value : AbiValue) :
    (f.setCell cell value).arguments = f.arguments := rfl

@[simp] theorem setCell_buffers (f : Frame) (cell : Nat) (value : AbiValue) :
    (f.setCell cell value).storage.buffers = f.storage.buffers := rfl

@[simp] theorem declared?_setCell (f : Frame) (cell : Nat) (value : AbiValue) (index : Nat) :
    (f.setCell cell value).declared? index = f.declared? index := rfl

@[simp] theorem errorCell?_setCell (f : Frame) (cell : Nat) (value : AbiValue) :
    (f.setCell cell value).errorCell? = f.errorCell? := rfl

/-- A store through the address of a cell sets the cell, and leaves native memory. -/
theorem write_eq_setCell {w : CalleeWrite} (hargument : w.argument? f = some argument)
    (hvalue : argument.value = .pointer (.owned (.cell cell) 0)) :
    f.write native w = (native, f.setCell cell w.stored) := by
  simp only [write, hargument, Option.bind_some, hvalue, AbiValue.toAddress?]
  rfl

/-- The bytes of the cell that was set. -/
theorem block_setCell (f : Frame) (cell : Nat) (value : AbiValue) :
    (f.setCell cell value).storage.block (.cell cell) =
      overwrite (f.storage.block (.cell cell)) 0 value.encode := by
  simp only [setCell, Storage.store, Storage.block, List.getD_eq_getElem?_getD,
    List.getElem?_modify_eq]
  cases f.storage.cells[cell]? with
  | some bytes => rfl
  | none =>
    -- There is no such cell, and nothing fits into it.
    simp only [Option.map_eq_map, Option.map_none, Option.getD_none, overwrite, List.length_nil]
    split
    · have hnil : value.encode = [] := List.length_eq_zero_iff.mp (by omega)
      rw [hnil]
      rfl
    · rfl

/-- Another cell stays as it is. -/
theorem getElem?_setCell_of_ne (f : Frame) {other : Nat} (hne : other ≠ cell) (value : AbiValue) :
    (f.setCell cell value).storage.cells[other]? = f.storage.cells[other]? := by
  simp only [setCell, Storage.store, List.getElem?_modify_ne _ _ (Ne.symm hne)]

/-- The bytes of another cell stay. -/
theorem block_setCell_of_ne (f : Frame) {other : Nat} (hne : other ≠ cell) (value : AbiValue) :
    (f.setCell cell value).storage.block (.cell other) = f.storage.block (.cell other) := by
  simp only [Storage.block, List.getD_eq_getElem?_getD, getElem?_setCell_of_ne f hne]

/-- A cell keeps its length. -/
theorem length_block_setCell (f : Frame) (cell other : Nat) (value : AbiValue) :
    ((f.setCell cell value).storage.block (.cell other)).length =
      (f.storage.block (.cell other)).length := by
  by_cases heq : other = cell
  · rw [heq, block_setCell, length_overwrite]
  · rw [block_setCell_of_ne f heq]

/-- A cell of eight bytes is one of the cells. -/
theorem getElem?_cells (h : (f.storage.block (.cell cell)).length = 8) :
    f.storage.cells[cell]? = some (f.storage.block (.cell cell)) := by
  rw [Storage.block, List.getD_eq_getElem?_getD] at h ⊢
  cases hcell : f.storage.cells[cell]? with
  | none => simp [hcell] at h
  | some bytes => rfl

/-- A cell that was set holds the value, whatever bytes stand behind it. -/
theorem decodeCell_setCell (hlength : (f.storage.block (.cell cell)).length = 8)
    (value : AbiValue) :
    (f.setCell cell value).storage.cells[cell]?.map value.slot.decodeCell = some value := by
  have hset : ((f.setCell cell value).storage.block (.cell cell)).length = 8 := by
    rw [length_block_setCell, hlength]
  have hfits : 0 + value.encode.length ≤ (f.storage.block (.cell cell)).length := by
    rw [hlength, value.length_encode, Nat.zero_add]
    exact value.slot.size_le
  have hbytes := drop_overwrite (f.storage.block (.cell cell)) 0 value.encode hfits
  rw [List.drop_zero, ← block_setCell] at hbytes
  rw [getElem?_cells hset, Option.map_some]
  rw [hbytes] at hset ⊢
  exact congrArg some (Slot.decodeCell_encode_append value hset)

/-- A parameter finds in its cell what was stored there. -/
theorem outValue?_setCell {declared : Nat}
    (hdeclared : f.declared? index = some (.outCell declared cell value.slot))
    (hlength : (f.storage.block (.cell cell)).length = 8) :
    (f.setCell cell value).outValue? index = some value := by
  rw [outValue?, declared?_setCell, hdeclared]
  exact decodeCell_setCell hlength value

/-- A parameter of another cell finds what it found before. -/
theorem outValue?_setCell_of_ne
    (hother : ∀ declared slot, f.declared? index ≠ some (.outCell declared cell slot)) :
    (f.setCell cell value).outValue? index = f.outValue? index := by
  simp only [outValue?, declared?_setCell]
  cases hdeclared : f.declared? index with
  | none => rfl
  | some argument =>
    cases argument with
    | outCell declared other slot =>
      have hne : other ≠ cell := fun heq => hother declared slot (heq ▸ hdeclared)
      simp only [getElem?_setCell_of_ne f hne]
    | _ => rfl

/-- The address that was stored in the cell for an error is the one that is found there. -/
theorem errorAddress_setCell {address : Address} (hcell : f.errorCell? = some cell)
    (hlength : (f.storage.block (.cell cell)).length = 8) :
    (f.setCell cell (.pointer address)).errorAddress = address := by
  obtain ⟨bytes, hbytes, hdecode⟩ :=
    Option.map_eq_some_iff.mp (decodeCell_setCell hlength (.pointer address))
  have hpointer : Slot.pointer.decodeCell bytes = .pointer address := hdecode
  simp only [errorAddress, errorCell?_setCell, hcell, Option.bind_some, hbytes, hpointer]
  rfl

/-- The cell for an error keeps its address when another is set. -/
theorem errorAddress_setCell_of_ne (hother : f.errorCell? ≠ some cell) :
    (f.setCell cell value).errorAddress = f.errorAddress := by
  simp only [errorAddress, errorCell?_setCell]
  cases hcell : f.errorCell? with
  | none => rfl
  | some other =>
    have hne : other ≠ cell := fun heq => hother (heq ▸ hcell)
    simp only [Option.bind_some, getElem?_setCell_of_ne f hne]

end Frame

end ForeignCall
