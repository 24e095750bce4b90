import Mathlib.Data.List.Basic
import Mathlib.Tactic.MkIffOfInductiveProp
import ForeignCall.Text.Utf8

/-!
# Well-formed UTF-8

A character takes one to four bytes.  `Text.IsCharacter` says which byte strings these are: the lead
byte announces how many there are, and behind some lead bytes the second byte has a narrower range
than the others (`Text.Follows`), which keeps out overlong forms, surrogates and numbers above the
last character.  These byte strings are the encodings of characters (`Text.isCharacter_iff`), and
they are what the search for faults goes over (`Text.head_of_isCharacter`,
`Text.isCharacter_of_head`).

So the search and the reader agree.  The well-formed byte strings are the bytes of texts
(`Text.wellFormed_iff`), a fault is found in all others and in no well-formed one
(`Text.firstFault?_eq_none_iff`), and bytes that are refused are refused for the fault that is found
(`Text.exists_decode_eq_error`).
-/

namespace ForeignCall.Text

/-! ### The bytes of characters -/

/-- A byte that continues a character. -/
def Continues (b : UInt8) : Prop := 0x80 ≤ b.toNat ∧ b.toNat ≤ 0xBF

/-- The number of bytes that a lead byte announces, itself included. -/
def Announces (a : UInt8) (size : Nat) : Prop :=
  (0xC2 ≤ a.toNat ∧ a.toNat ≤ 0xDF ∧ size = 2) ∨
  (0xE0 ≤ a.toNat ∧ a.toNat ≤ 0xEF ∧ size = 3) ∨
  (0xF0 ≤ a.toNat ∧ a.toNat ≤ 0xF4 ∧ size = 4)

/-- A byte that may stand behind a lead byte. -/
@[mk_iff]
structure Follows (a b : UInt8) : Prop where
  continues : Continues b
  /-- A shorter form is not taken for one of three bytes. -/
  overlong_three : a.toNat = 0xE0 → 0xA0 ≤ b.toNat
  /-- Surrogates are no characters. -/
  surrogate : a.toNat = 0xED → b.toNat ≤ 0x9F
  /-- A shorter form is not taken for one of four bytes. -/
  overlong_four : a.toNat = 0xF0 → 0x90 ≤ b.toNat
  /-- No character has a number above `0x10FFFF`. -/
  last : a.toNat = 0xF4 → b.toNat ≤ 0x8F

/-- The bytes of one character. -/
inductive IsCharacter : List UInt8 → Prop
  | one {a : UInt8} (ha : a.toNat < 0x80) : IsCharacter [a]
  | several {a b : UInt8} {tail : List UInt8} (ha : Announces a (tail.length + 2))
      (hb : Follows a b) (htail : ∀ c ∈ tail, Continues c) : IsCharacter (a :: b :: tail)

/-- Byte strings that are put together from those of characters. -/
inductive WellFormed : List UInt8 → Prop
  | nil : WellFormed []
  | append {character rest : List UInt8} (hcharacter : IsCharacter character)
      (hrest : WellFormed rest) : WellFormed (character ++ rest)

/-- A number below 256 is that of a byte. -/
theorem toNat_ofNat_of_lt {n : Nat} (h : n < 256) : (UInt8.ofNat n).toNat = n := by
  rw [UInt8.toNat_ofNat', Nat.mod_eq_of_lt h]

/-- A character is encoded as the bytes of one. -/
theorem isCharacter_utf8EncodeChar (c : Char) : IsCharacter (String.utf8EncodeChar c) := by
  have hvalid : c.val.toNat < 0xD800 ∨ 0xDFFF < c.val.toNat ∧ c.val.toNat < 0x110000 := c.valid
  have hlow : ∀ n, (UInt8.ofNat (n % 0x40 + 0x80)).toNat = n % 0x40 + 0x80 := fun n =>
    toNat_ofNat_of_lt (by omega)
  have hcontinues : ∀ n, Continues (UInt8.ofNat (n % 0x40 + 0x80)) := by
    intro n
    rw [Continues, hlow]
    omega
  unfold String.utf8EncodeChar
  dsimp only
  generalize c.val.toNat = v at hvalid ⊢
  split
  · refine .one ?_
    rw [toNat_ofNat_of_lt] <;> omega
  split
  · have hlead : (UInt8.ofNat (v / 64 % 0x20 + 0xC0)).toNat = v / 64 + 0xC0 := by
      rw [toNat_ofNat_of_lt] <;> omega
    have hfollows : Follows (UInt8.ofNat (v / 64 % 0x20 + 0xC0)) (UInt8.ofNat (v % 0x40 + 0x80)) :=
      ⟨hcontinues _, by omega, by omega, by omega, by omega⟩
    refine .several (.inl ⟨by omega, by omega, rfl⟩) hfollows (by simp)
  split
  · have hlead : (UInt8.ofNat (v / 4096 % 0x10 + 0xE0)).toNat = v / 4096 + 0xE0 := by
      rw [toNat_ofNat_of_lt] <;> omega
    have hsecond := hlow (v / 64)
    have hfollows : Follows (UInt8.ofNat (v / 4096 % 0x10 + 0xE0))
        (UInt8.ofNat (v / 64 % 0x40 + 0x80)) :=
      ⟨hcontinues _, by omega, by omega, by omega, by omega⟩
    exact .several (.inr (.inl ⟨by omega, by omega, rfl⟩)) hfollows
      (List.forall_mem_singleton.mpr (hcontinues v))
  · have hlead : (UInt8.ofNat (v / 262144 % 0x08 + 0xF0)).toNat = v / 262144 + 0xF0 := by
      rw [toNat_ofNat_of_lt] <;> omega
    have hsecond := hlow (v / 4096)
    have hfollows : Follows (UInt8.ofNat (v / 262144 % 0x08 + 0xF0))
        (UInt8.ofNat (v / 4096 % 0x40 + 0x80)) :=
      ⟨hcontinues _, by omega, by omega, by omega, by omega⟩
    have hthird := hcontinues (v / 64)
    exact .several (.inr (.inr ⟨by omega, by omega, rfl⟩)) hfollows
      (List.forall_mem_cons.mpr ⟨hthird, List.forall_mem_singleton.mpr (hcontinues v)⟩)

/-- A number that is not too large and no surrogate is that of a character. -/
theorem exists_char {n : Nat} (h : n < 0xD800 ∨ 0xDFFF < n ∧ n < 0x110000) :
    ∃ c : Char, c.val.toNat = n :=
  ⟨Char.ofNatAux n h, rfl⟩

/-- A byte is that of its number. -/
theorem ofNat_eq {b : UInt8} {n : Nat} (h : n = b.toNat) : UInt8.ofNat n = b := by
  rw [h, UInt8.ofNat_toNat]

/-- The bytes of a character encode one. -/
theorem exists_utf8EncodeChar {bytes : List UInt8} (h : IsCharacter bytes) :
    ∃ c : Char, bytes = String.utf8EncodeChar c := by
  cases h with
  | @one a ha =>
    obtain ⟨ch, hch⟩ := exists_char (n := a.toNat) (by omega)
    refine ⟨ch, ?_⟩
    simp only [String.utf8EncodeChar, hch]
    rw [if_pos (by omega), UInt8.ofNat_toNat]
  | @several a b tail ha hb htail =>
    obtain ⟨⟨hlow, hhigh⟩, hoverlong, hsurrogate, hoverlong', hlast⟩ := hb
    rcases ha with ⟨ha, ha', hsize⟩ | ⟨ha, ha', hsize⟩ | ⟨ha, ha', hsize⟩
    · obtain rfl : tail = [] := List.length_eq_zero_iff.mp (by omega)
      obtain ⟨ch, hch⟩ := exists_char
        (n := (a.toNat - 0xC0) * 64 + (b.toNat - 0x80)) (by omega)
      refine ⟨ch, ?_⟩
      simp only [String.utf8EncodeChar, hch]
      rw [if_neg (by omega), if_pos (by omega), ofNat_eq (b := a) (by omega),
        ofNat_eq (b := b) (by omega)]
    · obtain ⟨c, rfl⟩ := List.length_eq_one_iff.mp (show tail.length = 1 by omega)
      obtain ⟨hc, hc'⟩ : Continues c := htail c (by simp)
      obtain ⟨ch, hch⟩ := exists_char
        (n := (a.toNat - 0xE0) * 4096 + (b.toNat - 0x80) * 64 + (c.toNat - 0x80)) (by omega)
      refine ⟨ch, ?_⟩
      simp only [String.utf8EncodeChar, hch]
      rw [if_neg (by omega), if_neg (by omega), if_pos (by omega), ofNat_eq (b := a) (by omega),
        ofNat_eq (b := b) (by omega), ofNat_eq (b := c) (by omega)]
    · obtain ⟨c, d, rfl⟩ := List.length_eq_two.mp (show tail.length = 2 by omega)
      obtain ⟨hc, hc'⟩ : Continues c := htail c (by simp)
      obtain ⟨hd, hd'⟩ : Continues d := htail d (by simp)
      obtain ⟨ch, hch⟩ := exists_char (n := (a.toNat - 0xF0) * 262144 +
        (b.toNat - 0x80) * 4096 + (c.toNat - 0x80) * 64 + (d.toNat - 0x80)) (by omega)
      refine ⟨ch, ?_⟩
      simp only [String.utf8EncodeChar, hch]
      rw [if_neg (by omega), if_neg (by omega), if_neg (by omega), ofNat_eq (b := a) (by omega),
        ofNat_eq (b := b) (by omega), ofNat_eq (b := c) (by omega), ofNat_eq (b := d) (by omega)]

/-- The bytes of a character are the encodings of characters. -/
theorem isCharacter_iff {bytes : List UInt8} :
    IsCharacter bytes ↔ ∃ c : Char, bytes = String.utf8EncodeChar c := by
  constructor
  · exact exists_utf8EncodeChar
  · rintro ⟨c, rfl⟩
    exact isCharacter_utf8EncodeChar c

/-! ### The search for faults -/

/-- What a lead byte says of the bytes behind it. -/
theorem leadRange?_eq (a : UInt8) :
    leadRange? a =
      if 0xC2 ≤ a.toNat ∧ a.toNat ≤ 0xDF then some (0x80, 0xBF, 2)
      else if 0xE0 ≤ a.toNat ∧ a.toNat ≤ 0xEF then
        some (if a.toNat = 0xE0 then 0xA0 else 0x80, if a.toNat = 0xED then 0x9F else 0xBF, 3)
      else if 0xF0 ≤ a.toNat ∧ a.toNat ≤ 0xF4 then
        some (if a.toNat = 0xF0 then 0x90 else 0x80, if a.toNat = 0xF4 then 0x8F else 0xBF, 4)
      else none := by
  simp only [leadRange?, Bool.and_eq_true, decide_eq_true_eq, beq_iff_eq, UInt8.le_iff_toNat_le,
    ← UInt8.toNat_inj, UInt8.reduceToNat]
  repeat' split
  all_goals first | rfl | omega

/-- A byte that is no lead byte announces nothing. -/
theorem not_announces_of_leadRange? {a : UInt8} (h : leadRange? a = none) (size : Nat) :
    ¬ Announces a size := by
  rw [leadRange?_eq] at h
  unfold Announces
  repeat' split at h
  all_goals first | omega | cases h

/-- A byte in a range lies there as a number. -/
theorem inRange_iff {low high b : UInt8} :
    (decide (low ≤ b) && decide (b ≤ high)) = true ↔
      low.toNat ≤ b.toNat ∧ b.toNat ≤ high.toNat := by
  simp [UInt8.le_iff_toNat_le]

/-- A lead byte announces a number of bytes, and the range behind it is that of the bytes that may
follow it. -/
theorem announces_of_leadRange? {a low high : UInt8} {size : Nat}
    (h : leadRange? a = some (low, high, size)) :
    Announces a size ∧ ∀ b, low.toNat ≤ b.toNat ∧ b.toNat ≤ high.toNat ↔ Follows a b := by
  simp only [follows_iff, Continues]
  rw [leadRange?_eq] at h
  split at h
  · obtain ⟨rfl, rfl, rfl⟩ : 0x80 = low ∧ 0xBF = high ∧ 2 = size := by simpa using h
    refine ⟨.inl (by omega), fun b => ?_⟩
    simp only [UInt8.reduceToNat]
    omega
  split at h
  · obtain ⟨rfl, rfl, rfl⟩ : (if a.toNat = 0xE0 then 0xA0 else 0x80) = low ∧
        (if a.toNat = 0xED then 0x9F else 0xBF) = high ∧ 3 = size := by simpa using h
    refine ⟨.inr (.inl (by omega)), fun b => ?_⟩
    split <;> split <;> simp only [UInt8.reduceToNat] <;> omega
  split at h
  · obtain ⟨rfl, rfl, rfl⟩ : (if a.toNat = 0xF0 then 0x90 else 0x80) = low ∧
        (if a.toNat = 0xF4 then 0x8F else 0xBF) = high ∧ 4 = size := by simpa using h
    refine ⟨.inr (.inr (by omega)), fun b => ?_⟩
    split <;> split <;> simp only [UInt8.reduceToNat] <;> omega
  · cases h

theorem isContinuation_iff {b : UInt8} : isContinuation b = true ↔ Continues b :=
  inRange_iff

/-- The continuations that are missing are found if as many stand there. -/
theorem continuations_append {size seen : Nat} {tail : List UInt8} (h : ∀ b ∈ tail, Continues b)
    (rest : List UInt8) :
    continuations size tail.length seen (tail ++ rest) = .character size := by
  induction tail generalizing seen with
  | nil => cases rest <;> rfl
  | cons b tail ih =>
    obtain ⟨hb, htail⟩ := List.forall_mem_cons.mp h
    rw [List.length_cons, List.cons_append, continuations, if_pos (isContinuation_iff.mpr hb),
      ih htail]

/-- Where no continuation is missing, as many as were looked for stand there. -/
theorem exists_of_continuations {size missing seen n : Nat} {bytes : List UInt8}
    (h : continuations size missing seen bytes = .character n) :
    n = size ∧ ∃ tail rest, bytes = tail ++ rest ∧ tail.length = missing ∧
      ∀ b ∈ tail, Continues b := by
  induction missing generalizing seen bytes with
  | zero =>
    have hn : Head.character size = .character n := by cases bytes <;> exact h
    exact ⟨(Head.character.inj hn).symm, [], bytes, rfl, rfl, List.forall_mem_nil _⟩
  | succ missing ih =>
    cases bytes with
    | nil => cases h
    | cons b bytes =>
      rw [continuations] at h
      split at h
      · obtain ⟨hn, tail, rest, rfl, hlength, htail⟩ := ih h
        refine ⟨hn, b :: tail, rest, rfl, by rw [List.length_cons, hlength], ?_⟩
        exact List.forall_mem_cons.mpr ⟨isContinuation_iff.mp ‹_›, htail⟩
      · cases h

/-- Where the bytes of a character stand, one is found. -/
theorem head_of_isCharacter {a : UInt8} {tail : List UInt8} (h : IsCharacter (a :: tail))
    (rest : List UInt8) : head a (tail ++ rest) = .character (tail.length + 1) := by
  cases h with
  | one ha => rw [head, if_pos (UInt8.lt_iff_toNat_lt.mpr ha), List.length_nil]
  | @several _ b tail ha hb htail =>
    have hlead : ¬ a < 0x80 := by
      intro hlt
      have hlt : a.toNat < 0x80 := UInt8.lt_iff_toNat_lt.mp hlt
      unfold Announces at ha
      omega
    rcases hrange : leadRange? a with _ | ⟨low, high, size⟩
    · exact absurd ha (not_announces_of_leadRange? hrange _)
    obtain ⟨hannounces, hfollows⟩ := announces_of_leadRange? hrange
    obtain rfl : size = tail.length + 2 := by
      unfold Announces at ha hannounces
      omega
    simp only [head, if_neg hlead, hrange, List.cons_append]
    rw [if_pos (inRange_iff.mpr ((hfollows b).mpr hb))]
    exact continuations_append htail rest

/-- Where a character is found, its bytes stand. -/
theorem isCharacter_of_head {a : UInt8} {rest : List UInt8} {size : Nat}
    (h : head a rest = .character size) :
    ∃ tail rest', rest = tail ++ rest' ∧ size = tail.length + 1 ∧ IsCharacter (a :: tail) := by
  unfold head at h
  split at h
  · refine ⟨[], rest, rfl, (Head.character.inj h).symm, .one ?_⟩
    exact UInt8.lt_iff_toNat_lt.mp ‹_›
  split at h
  · cases h
  · rename_i low high n hrange
    obtain ⟨hannounces, hfollows⟩ := announces_of_leadRange? hrange
    split at h
    · cases h
    · rename_i b rest
      split at h
      · rename_i hb
        obtain ⟨rfl, tail, rest', rfl, hlength, htail⟩ := exists_of_continuations h
        have hsize : size = tail.length + 2 := by
          unfold Announces at hannounces
          omega
        refine ⟨b :: tail, rest', rfl, hsize, ?_⟩
        rw [hsize] at hannounces
        exact .several hannounces ((hfollows b).mp (inRange_iff.mp hb)) htail
      · cases h

/-- The search goes over the bytes of a character. -/
theorem firstFault?_append {index : Nat} {bytes : List UInt8} (h : IsCharacter bytes)
    (rest : List UInt8) :
    firstFault? index (bytes ++ rest) = firstFault? (index + bytes.length) rest := by
  cases bytes with
  | nil => cases h
  | cons a tail =>
    rw [List.cons_append, firstFault?, head_of_isCharacter h rest]
    simp only [Nat.add_sub_cancel, List.drop_left, List.length_cons]
    rw [Nat.add_right_comm, Nat.add_assoc]

/-- No fault is found in well-formed bytes. -/
theorem firstFault?_of_wellFormed {index : Nat} {bytes : List UInt8} (h : WellFormed bytes) :
    firstFault? index bytes = none := by
  induction h generalizing index with
  | nil => rw [firstFault?]
  | append hcharacter _ ih =>
    rw [firstFault?_append hcharacter]
    exact ih

/-- Bytes without a fault are well formed. -/
theorem wellFormed_of_firstFault? {index : Nat} {bytes : List UInt8}
    (h : firstFault? index bytes = none) : WellFormed bytes := by
  fun_induction firstFault? index bytes with
  | case1 => exact .nil
  | case2 index lead rest size hhead ih =>
    obtain ⟨tail, rest', rfl, rfl, hcharacter⟩ := isCharacter_of_head hhead
    rw [Nat.add_sub_cancel, List.drop_left] at h ih
    exact .append hcharacter (ih h)
  | case3 => cases h
  | case4 => cases h

/-- A fault is found exactly in bytes that are not well formed. -/
theorem firstFault?_eq_none_iff {index : Nat} {bytes : List UInt8} :
    firstFault? index bytes = none ↔ WellFormed bytes :=
  ⟨wellFormed_of_firstFault?, firstFault?_of_wellFormed⟩

/-! ### Texts and their bytes -/

/-- The bytes of a text are the encodings of its characters. -/
theorem utf8_eq_flatMap (text : String) :
    utf8 text = text.toList.flatMap String.utf8EncodeChar := by
  rw [utf8, ← String.utf8Encode_toList, List.utf8Encode, List.data_toByteArray]

/-- The bytes of two texts, one behind the other. -/
theorem utf8_append (before after : String) :
    utf8 (before ++ after) = utf8 before ++ utf8 after := by
  simp only [utf8_eq_flatMap, String.toList_append, List.flatMap_append]

/-- A text has as many bytes as it takes. -/
theorem length_utf8 (text : String) : (utf8 text).length = text.utf8ByteSize := by
  rw [utf8, Array.length_toList]
  rfl

/-- The bytes of a text are well formed, and well-formed bytes are those of a text. -/
theorem wellFormed_iff {bytes : List UInt8} : WellFormed bytes ↔ ∃ text, utf8 text = bytes := by
  constructor
  · intro h
    induction h with
    | nil => exact ⟨"", rfl⟩
    | append hcharacter _ ih =>
      obtain ⟨c, rfl⟩ := isCharacter_iff.mp hcharacter
      obtain ⟨text, rfl⟩ := ih
      refine ⟨String.ofList (c :: text.toList), ?_⟩
      rw [utf8_eq_flatMap, utf8_eq_flatMap, String.toList_ofList, List.flatMap_cons]
  · rintro ⟨text, rfl⟩
    rw [utf8_eq_flatMap]
    induction text.toList with
    | nil => exact .nil
    | cons c chars ih => exact .append (isCharacter_utf8EncodeChar c) ih

/-- The bytes of a text encode it. -/
theorem ofUtf8?_utf8 (text : String) : ofUtf8? (utf8 text) = some text := by
  have hbytes : ByteArray.mk (utf8 text).toArray = text.toByteArray := by simp [utf8]
  rw [ofUtf8?, hbytes, String.fromUTF8?, dif_pos text.isValidUTF8]
  rfl

/-- Texts with the same bytes are the same. -/
theorem utf8_injective : Function.Injective utf8 := by
  intro text text' h
  have hsome : some text = some text' := by rw [← ofUtf8?_utf8, h, ofUtf8?_utf8]
  exact Option.some.inj hsome

/-- Bytes are read as a text if they are its bytes. -/
theorem ofUtf8?_eq_some_iff {bytes : List UInt8} {text : String} :
    ofUtf8? bytes = some text ↔ utf8 text = bytes := by
  constructor
  · intro h
    unfold ofUtf8? String.fromUTF8? at h
    split at h
    · rw [← Option.some.inj h]
      rfl
    · cases h
  · rintro rfl
    exact ofUtf8?_utf8 text

/-- The bytes of a text are read as the text. -/
theorem decode_utf8 (text : String) : decode (utf8 text) = .ok text := by
  rw [decode, ofUtf8?_utf8]

/-- Bytes that are not well formed are refused for the first fault in them. -/
theorem exists_decode_eq_error {bytes : List UInt8} (h : ¬ WellFormed bytes) :
    ∃ fault, firstFault? 0 bytes = some fault ∧ decode bytes = .error fault := by
  obtain ⟨fault, hfault⟩ := Option.ne_none_iff_exists'.mp (mt firstFault?_eq_none_iff.mp h)
  have hnone : ofUtf8? bytes = none := by
    rw [Option.eq_none_iff_forall_ne_some]
    intro text htext
    exact h (wellFormed_iff.mpr ⟨text, ofUtf8?_eq_some_iff.mp htext⟩)
  refine ⟨fault, hfault, ?_⟩
  rw [decode, hnone, hfault]
  rfl

end ForeignCall.Text
