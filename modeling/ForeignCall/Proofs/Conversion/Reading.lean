import Mathlib.Data.List.Forall2
import ForeignCall.Conversion.CallIn
import ForeignCall.Conversion.CallOut
import ForeignCall.Proofs.Text.Utf8

/-!
# Reading texts and elements

The bytes that a text or the elements of an array were kept as are read back as that text and those
elements.  Bytes without a zero end at the zero byte behind them (`Memory.Spells`), and those of a
text are decoded to the text (`Text.decode_utf8`).

Elements of one slot stand at multiples of its size, which is what makes them a row (`Slot.Row`).
Wherever a row comes from, its values are converted one after another
(`ElementConversion.fromAbiAll_of_row`), and a search for a terminator stops at the first zero
(`Slot.terminatedLength?_of_row`).  The elements that were kept in a buffer are a row
(`Slot.row_elementBytes`).
-/

namespace ForeignCall

/-! ### Texts -/

/-- Known bytes that are not zero are read up to the zero byte behind them. -/
theorem cString?_known {bytes : List UInt8} (h : 0 ∉ bytes) (rest : List Byte) :
    cString? (bytes.map .known ++ .zero :: rest) = some bytes := by
  induction bytes with
  | nil => rfl
  | cons b bytes ih =>
    obtain ⟨hb, hbytes⟩ := List.ne_and_not_mem_of_not_mem_cons h
    have hvalue : (Byte.known b).value ≠ 0 := Ne.symm hb
    simp only [List.map_cons, List.cons_append, cString?]
    rw [if_neg hvalue, ih hbytes]
    rfl

/-- The bytes at an address up to the zero byte behind them. -/
structure Memory.Spells (m : Memory) (address : Address) (bytes : List UInt8) : Prop where
  nonzero : 0 ∉ bytes
  stands : ∃ rest, m.bytesFrom address = bytes.map .known ++ .zero :: rest

/-- What is read at an address is what the bytes there are decoded to. -/
theorem Memory.Spells.readString {m : Memory} {address : Address} {bytes : List UInt8}
    (h : m.Spells address bytes) :
    m.readString address =
      (Text.decode bytes).mapError fun fault => .invalidUtf8 fault.describe := by
  obtain ⟨rest, hstands⟩ := h.stands
  have hread : cString? (m.bytesFrom address) = some bytes := by
    rw [hstands, cString?_known h.nonzero rest]
  simp only [Memory.readString, hread]
  cases Text.decode bytes <;> rfl

/-- A text that was kept is read back where it stands. -/
theorem Memory.readString_of_bytesFrom {m : Memory} {address : Address} {text : String}
    (htext : 0 ∉ Text.utf8 text) (hbytes : m.bytesFrom address = stringBytes text) :
    m.readString address = .ok text := by
  have hspells : m.Spells address (Text.utf8 text) := ⟨htext, [], hbytes⟩
  rw [hspells.readString, Text.decode_utf8]
  rfl

/-! ### Elements -/

/-- The bytes of the elements, one element at a time. -/
theorem elementBytes_cons (v : AbiValue) (values : List AbiValue) :
    elementBytes (v :: values) = v.encode ++ elementBytes values := rfl

/-- Behind the bytes of a value stand those that follow it. -/
theorem AbiValue.drop_encode_append (v : AbiValue) (rest : List Byte) :
    (v.encode ++ rest).drop v.slot.size = rest := by
  rw [← v.length_encode, List.drop_left]

/-- The values stand in the bytes one after another, at multiples of the size of their slot.  Other
bytes may follow. -/
def Slot.Row (s : Slot) (values : List AbiValue) (bytes : List Byte) : Prop :=
  ∀ (i : Nat) (h : i < values.length), s.decode? (bytes.drop (i * s.size)) = some values[i]

namespace Slot

variable {s : Slot} {v : AbiValue} {values others : List AbiValue} {bytes : List Byte}

/-- A row is its first value, and the row of the others behind the bytes of the first. -/
theorem row_cons :
    s.Row (v :: values) bytes ↔ s.decode? bytes = some v ∧ s.Row values (bytes.drop s.size) := by
  have hskip : ∀ i, (bytes.drop s.size).drop (i * s.size) = bytes.drop ((i + 1) * s.size) := by
    intro i
    rw [List.drop_drop, Nat.succ_mul, Nat.add_comm]
  constructor
  · intro h
    have hfirst := h 0 (Nat.succ_pos _)
    rw [Nat.zero_mul, List.drop_zero] at hfirst
    refine ⟨hfirst, fun i hi => ?_⟩
    rw [hskip]
    exact h (i + 1) (Nat.succ_lt_succ hi)
  · rintro ⟨hfirst, hrest⟩ i hi
    cases i with
    | zero => simpa using hfirst
    | succ i =>
      rw [← hskip]
      exact hrest i (Nat.lt_of_succ_lt_succ hi)

/-- The first values of a row are a row. -/
theorem Row.left (h : s.Row (values ++ others) bytes) : s.Row values bytes := by
  intro i hi
  have hlt : i < (values ++ others).length := by
    rw [List.length_append]
    omega
  rw [h i hlt, List.getElem_append_left hi]

/-- Kept values of one slot stand in a row. -/
theorem row_elementBytes (h : ∀ v ∈ values, v.slot = s) (rest : List Byte) :
    s.Row values (elementBytes values ++ rest) := by
  induction values with
  | nil => exact fun i hi => absurd hi (Nat.not_lt_zero i)
  | cons v values ih =>
    have hv : v.slot = s := h v (by simp)
    have hrest := ih fun w hw => h w (by simp [hw])
    rw [elementBytes_cons, List.append_assoc, row_cons, ← hv]
    refine ⟨decode?_encode_append v _, ?_⟩
    rwa [AbiValue.drop_encode_append, hv]

/-- In a row the search for a terminator stops at the first zero. -/
theorem terminatedLength?_of_row {terminator : AbiValue} (h : s.Row (values ++ [terminator]) bytes)
    (hvalues : ∀ v ∈ values, v.isZero = false) (hterminator : terminator.isZero = true) :
    terminatedLength? s bytes = some values.length := by
  induction values generalizing bytes with
  | nil =>
    obtain ⟨hfirst, -⟩ := row_cons.mp h
    rw [terminatedLength?_eq hfirst, if_pos hterminator]
    rfl
  | cons v values ih =>
    obtain ⟨hfirst, hrest⟩ := row_cons.mp h
    have hnonzero : ¬ v.isZero = true := by simp [hvalues v]
    rw [terminatedLength?_eq hfirst, if_neg hnonzero,
      ih hrest fun w hw => hvalues w (List.mem_cons_of_mem v hw)]
    rfl

end Slot

/-- Values in a row are converted one after another, up to the first that is rejected. -/
theorem ElementConversion.fromAbiAll_of_row {c : ElementConversion} {m : Memory}
    {values : List AbiValue} {bytes : List Byte} (h : c.slot.Row values bytes) :
    c.fromAbiAll m values.length bytes = values.mapM (c.scalar.fromAbi m) := by
  induction values generalizing bytes with
  | nil => rfl
  | cons v values ih =>
    obtain ⟨hfirst, hrest⟩ := Slot.row_cons.mp h
    simp only [List.length_cons, fromAbiAll, hfirst, ih hrest, List.mapM_cons]
    cases c.scalar.fromAbi m v with
    | error e => rfl
    | ok host => cases values.mapM (c.scalar.fromAbi m) <;> rfl

/-- An array without zero elements ends at its terminator. -/
theorem terminatedLength?_bytes {s : Slot} {values : List AbiValue}
    (hslot : ∀ v ∈ values, v.slot = s) (hzero : ∀ v ∈ values, v.isZero = false) :
    terminatedLength? s (elementBytes (values ++ [.zero s])) = some values.length := by
  have hall : ∀ v ∈ values ++ [.zero s], v.slot = s := by
    simpa [or_imp, forall_and] using hslot
  have hrow := Slot.row_elementBytes hall []
  rw [List.append_nil] at hrow
  exact Slot.terminatedLength?_of_row hrow hzero (AbiValue.isZero_zero s)

/-- Elements that stand one after another are converted one after another. -/
theorem ElementConversion.fromAbiAll_bytes {c : ElementConversion} {m : Memory}
    {values : List AbiValue} {hosts : List HostValue} (hslot : ∀ v ∈ values, v.slot = c.slot)
    (h : List.Forall₂ (fun host v => c.scalar.fromAbi m v = .ok host) hosts values)
    (rest : List Byte) :
    c.fromAbiAll m values.length (elementBytes values ++ rest) = .ok hosts := by
  rw [fromAbiAll_of_row (Slot.row_elementBytes hslot rest)]
  clear hslot
  induction h with
  | nil => rfl
  | cons hfirst _ ih =>
    rw [List.mapM_cons, hfirst, ih]
    rfl

end ForeignCall
