import ForeignCall.Proofs.Conversion.CallIn
import ForeignCall.Proofs.Conversion.Numbers

/-!
# Integers that cross

A slot for integers takes the host integers in its range (`Slot.InRange`) and refuses all others.
Nothing is lost in either direction: an integer that is taken is read back, and whatever stands in
the slot is read as an integer in the range which is converted into the same bits again
(`Conversion.numeric_exact`).

An enumeration takes more integers than it can read: those that 32 bits hold with a sign or without.
They are read back in one of the two ranges (`EnumConversion.Reads`), as the only integer there with
the same low 32 bits.  Which range it is follows from the declared members, so all of them come back
as they are declared unless some lie below zero and others above the range with a sign
(`Enumeration.preserves_members_iff`).
-/

namespace ForeignCall

variable {s : Slot} {abi : AbiValue} {n : Int64} {c : EnumConversion}

/-! ### Integer slots -/

namespace Slot

/-- The host integers that a slot for integers takes, which are those that two's complement has for
its width, with a sign or without.  The slot of 64 bits without a sign takes every host integer, as
its bits. -/
def InRange (s : Slot) (n : Int64) : Prop :=
  if s = .u64 then True
  else if s.isSigned then -(2 ^ (8 * s.size - 1)) ≤ n.toInt ∧ n.toInt < 2 ^ (8 * s.size - 1)
  else 0 ≤ n.toInt ∧ n.toInt < 2 ^ (8 * s.size)

/-- What a slot for integers holds is told by its width and its sign. -/
theorem holds_iff_inRange (hs : s.isInteger = true) : s.Holds n.toInt ↔ s.InRange n := by
  cases s with
  | i8 | u8 | i16 | u16 | i32 | u32 | i64 => simp [InRange, Holds, isSigned, size]
  | u64 =>
    have hlow : -9223372036854775808 ≤ n.toInt := n.le_toInt
    have hhigh : n.toInt < 9223372036854775808 := n.toInt_lt
    simp [InRange, Holds, hlow, hhigh]
  | f32 | f64 | pointer | void => cases hs

end Slot

namespace ScalarConversion

/-- An integer in the range of a slot is put there, and any other is refused. -/
theorem toAbi_numeric_int (hs : s.isInteger = true) (n : Int64) (nullable : Bool) (item : String)
    (f : Frame) :
    (numeric s).toAbi (.int n) nullable item f =
      (if s.Holds n.toInt then .ok (s.ofInt64 n) else .error (.integerOverflow n s), f) := by
  simp only [toAbi, numericToAbi, hs, if_true]

/-- What stands in a slot for integers is read as the integer. -/
theorem fromAbi_numeric_int (hs : s.isInteger = true) (h : abi.toInt64? = some n) (m : Memory) :
    (numeric s).fromAbi m abi = .ok (.int n) := by
  simp only [fromAbi, Slot.isFloat_of_isInteger hs, h, Bool.false_eq_true, if_false]

/-- What was read from a slot for integers is converted into what was read. -/
theorem toAbi_of_toInt64? (hs : abi.slot.isInteger = true) (h : abi.toInt64? = some n)
    (nullable : Bool) (item : String) (f : Frame) :
    (numeric abi.slot).toAbi (.int n) nullable item f = (.ok abi, f) := by
  rw [toAbi_numeric_int hs, if_pos (AbiValue.holds_of_toInt64? h), AbiValue.ofInt64_of_toInt64? h]

end ScalarConversion

/-- A slot for integers takes the integers in its range and no others.  Those that it takes are read
back, and every value of the slot is read as an integer in the range that is converted into the same
value again. -/
theorem Conversion.numeric_exact (hs : s.isInteger = true) :
    (∀ n nullable item f,
      (s.InRange n → ∃ abi, abi.slot = s ∧
        (scalar (.numeric s)).toAbi (.int n) nullable item f = (.ok abi, f) ∧
        ∀ m length, (scalar (.numeric s)).fromAbi m abi length = .ok (.int n)) ∧
      (¬ s.InRange n →
        (scalar (.numeric s)).toAbi (.int n) nullable item f =
          (.error (.integerOverflow n s), f))) ∧
    ∀ abi : AbiValue, abi.slot = s → ∃ n, s.InRange n ∧
      (∀ m length, (scalar (.numeric s)).fromAbi m abi length = .ok (.int n)) ∧
      ∀ nullable item f, (scalar (.numeric s)).toAbi (.int n) nullable item f = (.ok abi, f) := by
  refine ⟨fun n nullable item f => ⟨fun hn => ?_, fun hn => ?_⟩, ?_⟩
  · have hholds : s.Holds n.toInt := (Slot.holds_iff_inRange hs).mpr hn
    refine ⟨s.ofInt64 n, s.slot_ofInt64 n, ?_, fun m length => ?_⟩
    · have hto := ScalarConversion.toAbi_numeric_int hs n nullable item f
      rwa [if_pos hholds] at hto
    · exact ScalarConversion.fromAbi_numeric_int hs (Slot.toInt64?_ofInt64 hholds) m
  · have hto := ScalarConversion.toAbi_numeric_int hs n nullable item f
    rwa [if_neg fun hholds => hn ((Slot.holds_iff_inRange hs).mp hholds)] at hto
  · rintro abi rfl
    obtain ⟨n, hn⟩ := AbiValue.exists_toInt64? hs
    refine ⟨n, (Slot.holds_iff_inRange hs).mp (AbiValue.holds_of_toInt64? hn), ?_, ?_⟩
    · exact fun m length => ScalarConversion.fromAbi_numeric_int hs hn m
    · exact ScalarConversion.toAbi_of_toInt64? hs hn

/-- The last value of 64 bits is read as a negative integer, which is converted into it again, and
an integer just outside the range of a slot is refused. -/
theorem Conversion.numeric_exact_sample :
    (Slot.u64.isInteger = true ∧ ∃ n, Slot.u64.InRange n ∧
      (∀ m length, (scalar (.numeric .u64)).fromAbi m (.u64 0xFFFFFFFFFFFFFFFF) length =
        .ok (.int n)) ∧
      ∀ nullable item f, (scalar (.numeric .u64)).toAbi (.int n) nullable item f =
        (.ok (.u64 0xFFFFFFFFFFFFFFFF), f)) ∧
    Slot.i8.isInteger = true ∧ ¬ Slot.i8.InRange 128 ∧
      (scalar (.numeric .i8)).toAbi (.int 128) false "x" .empty =
        (.error (.integerOverflow 128 .i8), .empty) := by
  have hread := (@Conversion.numeric_exact .u64 rfl).2 (.u64 0xFFFFFFFFFFFFFFFF) rfl
  have houtside : ¬ Slot.i8.InRange 128 := mt (Slot.holds_iff_inRange rfl).mpr (by decide)
  have hrefused := ((@Conversion.numeric_exact .i8 rfl).1 128 false "x" .empty).2 houtside
  exact ⟨⟨rfl, hread⟩, rfl, houtside, hrefused⟩

/-! ### Enumerations -/

namespace EnumConversion

/-- 32 bits hold the integer, with a sign or without. -/
def Takes (n : Int64) : Prop := -(2 ^ 31) ≤ n.toInt ∧ n.toInt ≤ 2 ^ 32 - 1

instance (n : Int64) : Decidable (Takes n) := inferInstanceAs (Decidable (_ ∧ _))

/-- The integers that the values of an enumeration are read as. -/
def Reads (c : EnumConversion) (z : Int) : Prop :=
  if c.unsigned then 0 ≤ z ∧ z < 2 ^ 32 else -(2 ^ 31) ≤ z ∧ z < 2 ^ 31

/-- The slots of 32 bits together hold what an enumeration takes. -/
theorem takes_iff : Takes n ↔ Slot.i32.Holds n.toInt ∨ Slot.u32.Holds n.toInt := by
  simp only [Takes, Slot.Holds]
  omega

/-- What is read lies in the range of the conversion. -/
theorem reads_reading (c : EnumConversion) (n : Int64) : c.Reads (c.reading n).toInt := by
  rw [Reads, toInt_reading]
  split
  · omega
  · have hlow := @Int.le_bmod n.toInt (2 ^ 32) (by omega)
    have hhigh := @Int.bmod_lt n.toInt (2 ^ 32) (by omega)
    omega

/-- What is read has the same low 32 bits. -/
theorem reading_emod (c : EnumConversion) (n : Int64) :
    (c.reading n).toInt % 2 ^ 32 = n.toInt % 2 ^ 32 := by
  rw [toInt_reading]
  split
  · exact Int.emod_emod_of_dvd _ (Int.dvd_refl _)
  · exact Int.bmod_emod

/-- What is read is taken again. -/
theorem takes_reading (c : EnumConversion) (n : Int64) : Takes (c.reading n) := by
  have hreads := c.reads_reading n
  unfold Reads at hreads
  unfold Takes
  split at hreads <;> omega

/-- Converted again, what is read keeps its bits. -/
theorem toInt32_reading (c : EnumConversion) (n : Int64) : (c.reading n).toInt32 = n.toInt32 := by
  apply Int32.toInt_inj.mp
  have hmod : (c.reading n).toInt % (2 ^ 32 : Nat) = n.toInt % (2 ^ 32 : Nat) := c.reading_emod n
  rw [Int64.toInt_toInt32, Int64.toInt_toInt32, ← Int.emod_bmod, hmod, Int.emod_bmod]

/-- The low 32 bits of an integer in the range of the conversion determine it. -/
theorem Reads.eq_of_emod_eq {y z : Int} (hy : c.Reads y) (hz : c.Reads z)
    (h : y % 2 ^ 32 = z % 2 ^ 32) : y = z := by
  unfold Reads at hy hz
  split at hy
  · rw [if_pos ‹_›] at hz
    omega
  · rw [if_neg ‹_›] at hz
    omega

/-- An integer is read as it is if it lies in the range of the conversion. -/
theorem reading_eq_iff (c : EnumConversion) (n : Int64) : c.reading n = n ↔ c.Reads n.toInt := by
  constructor
  · intro h
    rw [← h]
    exact c.reads_reading n
  · intro h
    exact Int64.toInt_inj.mp ((c.reads_reading n).eq_of_emod_eq h (c.reading_emod n))

end EnumConversion

namespace ScalarConversion

/-- An enumeration keeps the low 32 bits of what it takes, and refuses any other integer. -/
theorem toAbi_enumeration_int (c : EnumConversion) (n : Int64) (nullable : Bool) (item : String)
    (f : Frame) :
    (enumeration c).toAbi (.int n) nullable item f =
      (if Slot.i32.Holds n.toInt ∨ Slot.u32.Holds n.toInt then .ok (.i32 n.toInt32)
        else .error (.integerOverflow n .i32), f) := rfl

end ScalarConversion

namespace EnumConversion

/-- What becomes of an integer that is passed as a value of an enumeration. -/
structure Crosses (c : EnumConversion) (n : Int64) : Prop where
  /-- If 32 bits hold it, it is read back as the one integer in the range of the conversion that has
  the same low 32 bits. -/
  taken : Takes n → ∃ abi w,
    (∀ nullable item f,
      (Conversion.scalar (.enumeration c)).toAbi (.int n) nullable item f = (.ok abi, f)) ∧
    (∀ m length, (Conversion.scalar (.enumeration c)).fromAbi m abi length = .ok (.int w)) ∧
    c.Reads w.toInt ∧ w.toInt % 2 ^ 32 = n.toInt % 2 ^ 32 ∧
    ∀ z, c.Reads z → z % 2 ^ 32 = n.toInt % 2 ^ 32 → z = w.toInt
  /-- Otherwise it is refused. -/
  refused : ¬ Takes n → ∀ nullable item f,
    (Conversion.scalar (.enumeration c)).toAbi (.int n) nullable item f =
      (.error (.integerOverflow n .i32), f)

/-- The integer is taken, and read back as it is. -/
def Preserves (c : EnumConversion) (n : Int64) : Prop :=
  ∃ abi, (∀ nullable item f,
      (Conversion.scalar (.enumeration c)).toAbi (.int n) nullable item f = (.ok abi, f)) ∧
    ∀ m length, (Conversion.scalar (.enumeration c)).fromAbi m abi length = .ok (.int n)

/-- What an enumeration takes is converted into its low 32 bits. -/
theorem toAbi_of_takes (h : Takes n) (nullable : Bool) (item : String) (f : Frame) :
    (Conversion.scalar (.enumeration c)).toAbi (.int n) nullable item f =
      (.ok (.i32 n.toInt32), f) := by
  have hto := ScalarConversion.toAbi_enumeration_int c n nullable item f
  rwa [if_pos (takes_iff.mp h)] at hto

/-- Every integer crosses as its low 32 bits, or is refused. -/
theorem crosses (c : EnumConversion) (n : Int64) : c.Crosses n where
  taken h := by
    refine ⟨.i32 n.toInt32, c.reading n, toAbi_of_takes h, fun m _ => ?_, c.reads_reading n,
      c.reading_emod n, fun z hz hmod => ?_⟩
    · exact ScalarConversion.fromAbi_enumeration_int c n m
    · exact hz.eq_of_emod_eq (c.reads_reading n) (hmod.trans (c.reading_emod n).symm)
  refused h nullable item f := by
    have hto := ScalarConversion.toAbi_enumeration_int c n nullable item f
    rwa [if_neg fun hholds => h (takes_iff.mpr hholds)] at hto

/-- Of what an enumeration takes, the integers in the range of the conversion are preserved. -/
theorem preserves_iff (h : Takes n) : c.Preserves n ↔ c.Reads n.toInt := by
  rw [← reading_eq_iff]
  constructor
  · rintro ⟨abi, hto, hfrom⟩
    obtain rfl : AbiValue.i32 n.toInt32 = abi := by
      have htwice := (toAbi_of_takes h false "" .empty).symm.trans (hto false "" .empty)
      exact Except.ok.inj (congrArg Prod.fst htwice)
    let m : Memory := ⟨[], .empty⟩
    have hread : Except.ok (HostValue.int (c.reading n)) = .ok (.int n) :=
      (ScalarConversion.fromAbi_enumeration_int c n m).symm.trans (hfrom m none)
    exact HostValue.int.inj (Except.ok.inj hread)
  · intro hreading
    refine ⟨.i32 n.toInt32, toAbi_of_takes h, fun m _ => ?_⟩
    have hfrom := ScalarConversion.fromAbi_enumeration_int c n m
    rwa [hreading] at hfrom

end EnumConversion

namespace Enumeration

variable {entry : Enumeration}

/-- Some member lies below zero. -/
def HasNegative (entry : Enumeration) : Prop := ∃ member ∈ entry.members, member.value.toInt < 0

/-- Some member lies above the integers of 32 bits with a sign. -/
def HasAboveSigned (entry : Enumeration) : Prop :=
  ∃ member ∈ entry.members, 2 ^ 31 - 1 < member.value.toInt

/-- The conversion of an entry is without a sign if a member asks for it, or if the entry is a
bitfield and no member forbids it. -/
theorem isUnsigned_iff :
    entry.isUnsigned = true ↔
      entry.HasAboveSigned ∨ entry.isBitfield = true ∧ ¬ entry.HasNegative := by
  have habove : (2147483647 : Int64).toInt = 2147483647 := rfl
  have hzero : (0 : Int64).toInt = 0 := rfl
  simp [isUnsigned, HasAboveSigned, HasNegative, Int64.lt_iff_toInt_lt, Int64.le_iff_toInt_le,
    habove, hzero]

/-- Which members lie in the range of the conversion is a matter of those that do not fit its
sign. -/
theorem reads_members_iff (hmembers : ∀ member ∈ entry.members, EnumConversion.Takes member.value) :
    (∀ member ∈ entry.members, c.Reads member.value.toInt) ↔
      if c.unsigned then ¬ entry.HasNegative else ¬ entry.HasAboveSigned := by
  unfold EnumConversion.Reads
  split
  · constructor
    · rintro hreads ⟨member, hmember, hnegative⟩
      have hrange := hreads member hmember
      omega
    · intro hnegative member hmember
      have hle : 0 ≤ member.value.toInt := Int.not_lt.mp fun hlt => hnegative ⟨member, hmember, hlt⟩
      have htakes := (hmembers member hmember).2
      omega
  · constructor
    · rintro hreads ⟨member, hmember, habove⟩
      have hrange := hreads member hmember
      omega
    · intro habove member hmember
      have hle : member.value.toInt ≤ 2 ^ 31 - 1 :=
        Int.not_lt.mp fun hlt => habove ⟨member, hmember, hlt⟩
      have htakes := (hmembers member hmember).1
      omega

/-- An integer that is passed as a value of an enumeration crosses as its low 32 bits, if 32 bits
hold it at all.  So the members of an entry come back as they are declared, unless some are negative
and others lie above the integers with a sign. -/
theorem preserves_members_iff (name : TypeName)
    (hmembers : ∀ member ∈ entry.members, EnumConversion.Takes member.value) :
    (∀ (c : EnumConversion) (n : Int64), c.Crosses n) ∧
      ((∀ member ∈ entry.members,
        (EnumConversion.ofEntry name entry).Preserves member.value) ↔
          ¬ (entry.HasNegative ∧ entry.HasAboveSigned)) := by
  refine ⟨EnumConversion.crosses, ?_⟩
  have hreads : (∀ member ∈ entry.members,
      (EnumConversion.ofEntry name entry).Preserves member.value) ↔
        ∀ member ∈ entry.members, (EnumConversion.ofEntry name entry).Reads member.value.toInt :=
    forall₂_congr fun member hmember => EnumConversion.preserves_iff (hmembers member hmember)
  rw [hreads, reads_members_iff hmembers]
  have hunsigned : (EnumConversion.ofEntry name entry).unsigned = entry.isUnsigned := rfl
  rw [hunsigned]
  by_cases h : entry.isUnsigned = true
  · rw [if_pos h]
    constructor
    · rintro hnegative ⟨hmember, -⟩
      exact hnegative hmember
    · intro hboth hnegative
      -- A negative member makes the conversion one with a sign, unless another lies above.
      rcases isUnsigned_iff.mp h with habove | ⟨-, hnone⟩
      · exact hboth ⟨hnegative, habove⟩
      · exact hnone hnegative
  · rw [if_neg h]
    have habove : ¬ entry.HasAboveSigned := fun habove => h (isUnsigned_iff.mpr (.inl habove))
    exact iff_of_true habove fun hboth => habove hboth.2

/-- Members at both ends of 32 bits without a sign are preserved. -/
theorem preserves_members_iff_sample :
    ∃ entry : Enumeration, entry.HasAboveSigned ∧
      (∀ member ∈ entry.members, EnumConversion.Takes member.value) ∧
      ∀ member ∈ entry.members,
        (EnumConversion.ofEntry (.unqualified "Access") entry).Preserves member.value := by
  let entry : Enumeration := ⟨"Access", true, [⟨"NONE", 0⟩, ⟨"ALL", 0xFFFFFFFF⟩], none, none⟩
  have htakes : ∀ member ∈ entry.members, EnumConversion.Takes member.value := by decide
  have habove : entry.HasAboveSigned := ⟨⟨"ALL", 0xFFFFFFFF⟩, by decide, by decide⟩
  have hnegative : ¬ entry.HasNegative := by
    rintro ⟨member, hmember, hlt⟩
    exact absurd hlt ((by decide : ∀ m ∈ entry.members, ¬ m.value.toInt < 0) member hmember)
  refine ⟨entry, habove, htakes, ?_⟩
  exact (@preserves_members_iff entry (.unqualified "Access") htakes).2.mpr fun h => hnegative h.1

end Enumeration

end ForeignCall
