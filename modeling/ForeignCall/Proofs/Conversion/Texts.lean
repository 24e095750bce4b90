import ForeignCall.Proofs.Conversion.CallIn
import ForeignCall.Proofs.Conversion.Reading

/-!
# Texts that cross

A text is kept as its bytes with a zero byte behind them, so a text with a NUL in it cannot be
passed: it is refused at the number of bytes before the first one (`TextPassed`).  What stands at an
address is read up to the first zero byte (`Memory.Spells`).  These bytes are a text exactly if they
are well-formed UTF-8, and the text is then passed as the same bytes again (`TextRead`).  Both hold
of the conversion of texts, whatever the frame and the memory (`Conversion.string_exact`).

Positions and sizes count bytes and not characters, which differ as soon as a character takes more
than one byte.  The bytes of a character other than NUL are not zero
(`Text.zero_mem_utf8EncodeChar_iff`), so the zero bytes of a text are its NULs.
-/

namespace ForeignCall

/-! ### Zero bytes of texts -/

namespace Text

/-- A zero byte is a character of its own. -/
theorem IsCharacter.eq_of_zero_mem {bytes : List UInt8} (h : IsCharacter bytes)
    (hzero : 0 ∈ bytes) : bytes = [0] := by
  cases h with
  | one ha => rw [List.mem_singleton.mp hzero]
  | several ha hb htail =>
    -- every byte of a longer character has its highest bit set
    exfalso
    rcases List.mem_cons.mp hzero with rfl | hzero
    · simp [Announces] at ha
    rcases List.mem_cons.mp hzero with rfl | hzero
    · exact absurd hb.continues.left (by decide)
    · exact absurd (htail 0 hzero).left (by decide)

/-- Only NUL is encoded with a zero byte. -/
theorem zero_mem_utf8EncodeChar_iff {c : Char} : 0 ∈ String.utf8EncodeChar c ↔ c = '\x00' := by
  constructor
  · intro h
    have hbytes : String.utf8EncodeChar c = [0] := (isCharacter_utf8EncodeChar c).eq_of_zero_mem h
    have hutf8 : utf8 (String.ofList [c]) = utf8 (String.ofList ['\x00']) := by
      simp only [utf8_eq_flatMap, String.toList_ofList, List.flatMap_cons, List.flatMap_nil, hbytes]
      rfl
    exact List.head_eq_of_cons_eq (String.ofList_injective (utf8_injective hutf8))
  · rintro rfl
    decide

/-- The zero bytes of a text are its NULs. -/
theorem zero_mem_utf8_iff {text : String} : 0 ∈ utf8 text ↔ '\x00' ∈ text.toList := by
  simp only [utf8_eq_flatMap, List.mem_flatMap, zero_mem_utf8EncodeChar_iff, exists_eq_right]

/-- A text with a NUL has a part before the first one. -/
theorem exists_before_nul {text : String} (h : '\x00' ∈ text.toList) :
    ∃ before after, text = before ++ "\x00" ++ after ∧ '\x00' ∉ before.toList := by
  obtain ⟨before, after, htext, hbefore⟩ := List.eq_append_cons_of_mem h
  refine ⟨String.ofList before, String.ofList after, ?_, by rwa [String.toList_ofList]⟩
  apply String.toList_injective
  simp [htext]

/-- The first zero byte of a text stands behind the bytes before its first NUL. -/
theorem idxOf?_utf8 {before : String} (h : '\x00' ∉ before.toList) (after : String) :
    (utf8 (before ++ "\x00" ++ after)).idxOf? 0 = some before.utf8ByteSize := by
  have hbefore : 0 ∉ utf8 before := mt zero_mem_utf8_iff.mp h
  have hbytes : utf8 (before ++ "\x00" ++ after) = utf8 before ++ 0 :: utf8 after := by
    rw [utf8_append, utf8_append, List.append_assoc]
    rfl
  rw [hbytes, ← length_utf8, List.idxOf?_eq_some_iff]
  refine ⟨by simp, by simp, fun j hj heq => hbefore ?_⟩
  rw [List.getElem_append_left hj] at heq
  exact heq ▸ List.getElem_mem hj

end Text

/-! ### Passing texts -/

/-- A text is kept with one byte more than it has. -/
theorem length_stringBytes (text : String) :
    (stringBytes text).length = text.utf8ByteSize + 1 := by
  rw [stringBytes, List.length_append, List.length_map, Text.length_utf8, List.length_singleton]

/-- A text with a NUL is refused at the first one. -/
theorem stringToAbi_nul {before : String} (h : '\x00' ∉ before.toList) (after : String)
    (f : Frame) :
    stringToAbi (before ++ "\x00" ++ after) f = (.error (.interiorNul before.utf8ByteSize), f) := by
  simp only [stringToAbi, Text.idxOf?_utf8 h]

/-- How a text is passed.  One without a NUL is kept, which takes its bytes and one more.  Any other
is refused for the first NUL, whose position is the number of bytes before it. -/
structure TextPassed (text : String) (f : Frame)
    (result : Except MarshalError AbiValue × Frame) : Prop where
  accepted_iff : (∃ abi, result.1 = .ok abi) ↔ '\x00' ∉ text.toList
  heldBytes : ∀ abi, result.1 = .ok abi →
    result.2.heldBytes = f.heldBytes + text.utf8ByteSize + 1
  refused : '\x00' ∈ text.toList → ∃ before after, text = before ++ "\x00" ++ after ∧
    '\x00' ∉ before.toList ∧ result = (.error (.interiorNul before.utf8ByteSize), f)

/-- A text is kept, or refused for its first NUL. -/
theorem stringToAbi_passed (text : String) (f : Frame) :
    TextPassed text f (stringToAbi text f) := by
  by_cases hnul : '\x00' ∈ text.toList
  · obtain ⟨before, after, rfl, hbefore⟩ := Text.exists_before_nul hnul
    have hresult := stringToAbi_nul hbefore after f
    exact {
      accepted_iff := by simp [hresult]
      heldBytes := by simp [hresult]
      refused := fun _ => ⟨before, after, rfl, hbefore, hresult⟩ }
  · have hzero : 0 ∉ Text.utf8 text := mt Text.zero_mem_utf8_iff.mp hnul
    have hresult : stringToAbi text f =
        (.ok (f.hold (stringBytes text)).1, (f.hold (stringBytes text)).2) :=
      stringToAbi_eq_ok.mpr ⟨hzero, rfl⟩
    have hheld : (f.hold (stringBytes text)).2.heldBytes = f.heldBytes + text.utf8ByteSize + 1 := by
      rw [Frame.heldBytes_hold, length_stringBytes, Nat.add_assoc]
    exact {
      accepted_iff := by simp [hresult, hnul]
      heldBytes := fun _ _ => by rw [hresult, hheld]
      refused := fun h => absurd h hnul }

/-! ### Reading texts -/

/-- How bytes are read as a text.  They are one if they are well formed, and the text is passed as
the same bytes again.  Others are refused for the first fault in them. -/
structure TextRead (bytes : List UInt8) (result : Except MarshalError HostValue) : Prop where
  accepted_iff : (∃ text, result = .ok (.string text) ∧ Text.utf8 text = bytes) ↔
    Text.WellFormed bytes
  refused : ¬ Text.WellFormed bytes → ∃ fault, Text.firstFault? 0 bytes = some fault ∧
    result = .error (.invalidUtf8 fault.describe)
  passed : ∀ text, result = .ok (.string text) → ∀ nullable item f,
    (Conversion.scalar .string).toAbi (.string text) nullable item f =
      (.ok (f.hold (bytes.map .known ++ [.zero])).1, (f.hold (bytes.map .known ++ [.zero])).2)

/-- The text at an address is read there. -/
theorem ScalarConversion.fromAbi_string {m : Memory} {a : Address} (ha : a ≠ .null) :
    string.fromAbi m (.pointer a) = (m.readString a).map .string := by
  have hisNull : a.isNull = false := Address.isNull_eq_false_iff.mpr ha
  simp only [fromAbi, AbiValue.address, AbiValue.toAddress?, hisNull, Bool.false_eq_true, if_false]

/-- Bytes that end at a zero byte are read as a text, or refused for the first fault. -/
theorem Memory.Spells.textRead {m : Memory} {a : Address} {bytes : List UInt8}
    (h : m.Spells a bytes) : TextRead bytes ((m.readString a).map .string) := by
  by_cases hbytes : Text.WellFormed bytes
  · obtain ⟨text, rfl⟩ := Text.wellFormed_iff.mp hbytes
    have hresult : (m.readString a).map HostValue.string = .ok (.string text) := by
      rw [h.readString, Text.decode_utf8]
      rfl
    refine ⟨⟨fun _ => hbytes, fun _ => ⟨text, hresult, rfl⟩⟩, absurd hbytes, ?_⟩
    intro text' htext' nullable item f
    obtain rfl : text = text' := by
      rw [hresult] at htext'
      exact HostValue.string.inj (Except.ok.inj htext')
    exact stringToAbi_eq_ok.mpr ⟨h.nonzero, rfl⟩
  · obtain ⟨fault, hfault, hdecode⟩ := Text.exists_decode_eq_error hbytes
    have hresult : (m.readString a).map HostValue.string =
        .error (.invalidUtf8 fault.describe) := by
      rw [h.readString, hdecode]
      rfl
    exact {
      accepted_iff := by simp [hresult, hbytes]
      refused := fun _ => ⟨fault, hfault, hresult⟩
      passed := by simp [hresult] }

/-- A text is kept as its bytes with a zero byte behind them, or refused for its first NUL.  Bytes
that end at a zero byte are read as the text that they encode, which is passed as the same bytes
again, or refused if they encode none. -/
theorem Conversion.string_exact :
    (∀ text nullable item f,
      TextPassed text f ((scalar .string).toAbi (.string text) nullable item f)) ∧
    ∀ (m : Memory) (a : Address) (bytes : List UInt8) (length : Option Nat), a ≠ .null →
      m.Spells a bytes → TextRead bytes ((scalar .string).fromAbi m (.pointer a) length) := by
  constructor
  · intro text nullable item f
    exact stringToAbi_passed text f
  · intro m a bytes length ha hspells
    have hread : (scalar .string).fromAbi m (.pointer a) length = (m.readString a).map .string :=
      ScalarConversion.fromAbi_string ha
    rw [hread]
    exact hspells.textRead

/-- A text of two bytes for its one character is read up to the zero byte, and takes three bytes. -/
theorem Conversion.string_exact_sample :
    let bytes : List UInt8 := [0xC3, 0xA9]
    let m : Memory := ⟨[⟨4096, bytes.map .known ++ [.zero, .known 0x61]⟩], .empty⟩
    (Address.native 4096 ≠ .null ∧ m.Spells (.native 4096) bytes) ∧
    (scalar .string).fromAbi m (.pointer (.native 4096)) none = .ok (.string "é") ∧
    ((scalar .string).toAbi (.string "é") false "x" .empty).2.heldBytes = 3 := by
  intro bytes m
  have hspells : m.Spells (.native 4096) bytes := ⟨by decide, [.known 0x61], rfl⟩
  have hread := string_exact.right m (.native 4096) bytes none (by decide) hspells
  obtain ⟨text, htext, hutf8⟩ := hread.accepted_iff.mpr (Text.wellFormed_iff.mpr ⟨"é", by decide⟩)
  obtain rfl : text = "é" := Text.utf8_injective (hutf8.trans (by decide))
  have hpassed := string_exact.left "é" false "x" .empty
  obtain ⟨abi, habi⟩ := hpassed.accepted_iff.mpr (by decide)
  exact ⟨⟨by decide, hspells⟩, htext, hpassed.heldBytes abi habi⟩

end ForeignCall
