import ForeignCall.Proofs.Conversion.Reading
import ForeignCall.Proofs.Frame.Writes

/-!
# Errors that a callee reports

A callee reports an error by the address of a record: a domain, a code and the address of a message
(`Memory.HasError`).  The message is read as a text (`Memory.HasMessage`): none as the empty one,
and malformed bytes as a repaired text.

Taking an error clears its cell first, which is the same as storing the null address there
(`Frame.clearError_eq_setCell`), and then reads the record.  A record takes more bytes than a cell
has, so it is read as it was (`Frame.hasError_clearError`), and so is its message
(`Frame.hasMessage_clearError`), unless the message stands in the cell that was cleared: then
nothing but zeros is left of it (`Frame.hasMessage_clearError_self`).
-/

namespace ForeignCall

variable {m m' : Memory} {a text : Address} {domain : UInt32} {code : Int32} {message : String}

/-! ### Records -/

namespace Memory

/-- The record of an error stands at the address; `text` is the address of its message. -/
structure HasError (m : Memory) (a : Address) (domain : UInt32) (code : Int32) (text : Address) :
    Prop where
  domain_eq : m.read? a .u32 = some (.u32 domain)
  code_eq : m.read? (a.advance 4) .i32 = some (.i32 code)
  text_eq : m.read? (a.advance 8) .pointer = some (.pointer text)

/-- The message at an address. -/
inductive HasMessage (m : Memory) (a : Address) : String → Prop
  /-- No message counts as the empty one. -/
  | absent (ha : a = .null) : HasMessage m a ""
  /-- The bytes up to the zero byte are those of a text. -/
  | valid {message : String} (ha : a ≠ .null) (hspells : m.Spells a (Text.utf8 message)) :
    HasMessage m a message
  /-- They are those of no text. -/
  | malformed {bytes : List UInt8} (ha : a ≠ .null) (hspells : m.Spells a bytes)
    (hbytes : ¬ Text.WellFormed bytes) : HasMessage m a (Text.decodeLossy bytes)

/-- A message is absent, or what its bytes are decoded to. -/
theorem HasMessage.absent_or_decoded (h : m.HasMessage a message) :
    (a = .null ∧ message = "") ∨
      (a ≠ .null ∧ ∃ bytes, m.Spells a bytes ∧ Text.decodeLossy bytes = message) := by
  cases h with
  | absent ha => exact .inl ⟨ha, rfl⟩
  | valid ha hspells =>
    refine .inr ⟨ha, _, hspells, ?_⟩
    rw [Text.decodeLossy, Text.ofUtf8?_utf8]
  | malformed ha hspells _ => exact .inr ⟨ha, _, hspells, rfl⟩

/-- A record is read as the error that it is the record of. -/
theorem HasError.errorRecord (h : m.HasError a domain code text)
    (hmessage : m.HasMessage text message) : m.errorRecord a = .native domain code message := by
  simp only [Memory.errorRecord, h.domain_eq, h.code_eq, h.text_eq]
  obtain ⟨rfl, rfl⟩ | ⟨hne, bytes, hspells, rfl⟩ := hmessage.absent_or_decoded
  · rfl
  · obtain ⟨rest, hstands⟩ := hspells.stands
    simp [Address.isNull_eq_false_iff.mpr hne, hstands, cString?_known hspells.nonzero rest]

/-- A message is made of the bytes at its address. -/
theorem HasMessage.of_bytesFrom (h : m.HasMessage a message)
    (hbytes : m'.bytesFrom a = m.bytesFrom a) : m'.HasMessage a message := by
  have hspells {bytes : List UInt8} (hbefore : m.Spells a bytes) : m'.Spells a bytes :=
    ⟨hbefore.nonzero, by rw [hbytes]; exact hbefore.stands⟩
  cases h with
  | absent ha => exact .absent ha
  | valid ha hbefore => exact .valid ha (hspells hbefore)
  | malformed ha hbefore hmalformed => exact .malformed ha (hspells hbefore) hmalformed

end Memory

/-! ### The cell for an error -/

namespace Frame

variable {f : Frame} {cell : Nat}

/-- The address lies in the cell for an error. -/
def InErrorCell (f : Frame) (a : Address) : Prop :=
  ∃ cell offset, f.errorCell? = some cell ∧ a = .owned (.cell cell) offset

/-- No offset leads out of the cell or into it. -/
theorem inErrorCell_advance {n : Nat} : f.InErrorCell (a.advance n) ↔ f.InErrorCell a := by
  cases a with
  | native value => simp [InErrorCell, Address.advance]
  | owned block offset => simp [InErrorCell, Address.advance]

/-- Clearing the cell stores the null address there. -/
theorem clearError_eq_setCell (hcell : f.errorCell? = some cell) :
    f.clearError = f.setCell cell (.pointer .null) := by
  simp only [clearError, hcell]
  rfl

/-- Outside the cell everything is read as before. -/
theorem bytesFrom_clearError (ha : ¬ f.InErrorCell a) (native : Native) :
    (f.clearError.memory native).bytesFrom a = (f.memory native).bytesFrom a := by
  cases hcell : f.errorCell? with
  | none => simp only [clearError, hcell]
  | some cell =>
    rw [clearError_eq_setCell hcell]
    rcases a with value | ⟨index | other, offset⟩
    · rfl
    · rfl
    · have hne : other ≠ cell := fun heq => ha ⟨cell, offset, hcell, by rw [heq]⟩
      simp only [Memory.bytesFrom, memory, block_setCell_of_ne f hne]

section EightBytes

variable (hcell : f.errorCell? = some cell)
  (hlength : (f.storage.block (.cell cell)).length = 8) (native : Native)
include hcell hlength

/-- In the cell there are zeros. -/
theorem bytesFrom_clearError_self (offset : Nat) :
    (f.clearError.memory native).bytesFrom (.owned (.cell cell) offset) =
      List.replicate (8 - offset) .zero := by
  have hblock : f.clearError.storage.block (.cell cell) = List.replicate 8 .zero := by
    have hencode : (AbiValue.pointer .null).encode = List.replicate 8 .zero := rfl
    rw [clearError_eq_setCell hcell, block_setCell, hencode, overwrite, if_pos (by simp [hlength]),
      List.drop_eq_nil_of_le (by simp [hlength])]
    rfl
  simp only [Memory.bytesFrom, memory, hblock, List.drop_replicate]

/-- A record does not fit into the cell. -/
theorem not_inErrorCell_of_hasError (h : (f.memory native).HasError a domain code text) :
    ¬ f.InErrorCell a := by
  rintro ⟨other, offset, hother, rfl⟩
  obtain rfl : cell = other := Option.some.inj (hcell.symm.trans hother)
  -- the address of the message would stand behind the cell
  have hbytes : (f.memory native).bytesFrom ((Address.owned (.cell cell) offset).advance 8) = [] :=
    List.drop_eq_nil_of_le (by simp only [memory]; omega)
  have htext := h.text_eq
  rw [Memory.read?, hbytes] at htext
  cases htext

/-- A record is read as it was. -/
theorem hasError_clearError (h : (f.memory native).HasError a domain code text) :
    (f.clearError.memory native).HasError a domain code text := by
  have ha : ¬ f.InErrorCell a := not_inErrorCell_of_hasError hcell hlength native h
  have hread (n : Nat) (s : Slot) : (f.clearError.memory native).read? (a.advance n) s =
      (f.memory native).read? (a.advance n) s := by
    rw [Memory.read?, bytesFrom_clearError (mt inErrorCell_advance.mp ha), Memory.read?]
  refine ⟨?_, (hread 4 .i32).trans h.code_eq, (hread 8 .pointer).trans h.text_eq⟩
  rw [Memory.read?, bytesFrom_clearError ha]
  exact h.domain_eq

/-- Of a message in the cell nothing is left. -/
theorem hasMessage_clearError_self (htext : f.InErrorCell text)
    (h : (f.memory native).HasMessage text message) :
    (f.clearError.memory native).HasMessage text "" := by
  obtain ⟨other, offset, hother, rfl⟩ := htext
  obtain rfl : cell = other := Option.some.inj (hcell.symm.trans hother)
  obtain ⟨hnull, -⟩ | ⟨hne, bytes, hspells, -⟩ := h.absent_or_decoded
  · cases hnull
  · have hoffset : offset < 8 := by
      obtain ⟨rest, hstands⟩ := hspells.stands
      have hpos := congrArg List.length hstands
      simp only [Memory.bytesFrom, memory, List.length_drop, hlength, List.length_append,
        List.length_cons] at hpos
      omega
    have hzeros := bytesFrom_clearError_self hcell hlength native offset
    obtain ⟨n, hn⟩ : ∃ n, 8 - offset = n + 1 := ⟨7 - offset, by omega⟩
    rw [hn, List.replicate_succ] at hzeros
    exact .valid hne ⟨by decide, _, hzeros⟩

end EightBytes

/-- Any other message is read as it was. -/
theorem hasMessage_clearError (htext : ¬ f.InErrorCell text) {native : Native}
    (h : (f.memory native).HasMessage text message) :
    (f.clearError.memory native).HasMessage text message :=
  h.of_bytesFrom (bytesFrom_clearError htext native)

/-! ### Taking the error -/

/-- Where no error is reported none is taken, and the frame stays. -/
theorem takeError_of_null (h : f.errorAddress = .null) (native : Native) :
    f.takeError native = (none, f) := by
  have hnull : f.errorAddress.isNull = true := by
    rw [h]
    rfl
  rw [takeError, if_pos hnull]

/-- A reported error is read after its cell was cleared. -/
theorem takeError_of_ne_null (h : f.errorAddress ≠ .null) (native : Native) :
    f.takeError native =
      (some ((f.clearError.memory native).errorRecord f.errorAddress), f.clearError) := by
  have hnull : ¬ f.errorAddress.isNull = true := by simp [Address.isNull, h]
  rw [takeError, if_neg hnull]

end Frame

end ForeignCall
