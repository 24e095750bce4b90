import Mathlib.Algebra.Group.Int.Defs
import Mathlib.Algebra.Group.Nat.Defs
import ForeignCall.Conversion.CallIn
import ForeignCall.Conversion.CallOut

/-!
# Integers in slots

A host integer that an integer slot takes is found again when the slot is widened
(`Slot.toInt64?_ofInt64`).  An enumeration keeps the low 32 bits of a value, which are read back
with a sign or without: as the residue between `0` and `2 ^ 32`, or as the one around zero
(`EnumConversion.toInt_reading`).
-/

namespace ForeignCall

/-! ### Words and integers -/

/-- The signed reading of 64 bits is the residue around zero of their unsigned reading. -/
theorem toInt_eq_bmod_toNat (n : Int64) : n.toInt = (n.toUInt64.toNat : Int).bmod (2 ^ 64) := by
  rw [← Int64.toInt_toBitVec, BitVec.toInt_eq_toNat_bmod]
  rfl

/-- The unsigned reading of 64 bits is the residue of their signed reading. -/
theorem toNat_toUInt64_eq_emod (n : Int64) : (n.toUInt64.toNat : Int) = n.toInt % 2 ^ 64 := by
  have hlt : n.toUInt64.toNat < 2 ^ 64 := n.toUInt64.toNat_lt
  have hmod : n.toInt % (2 ^ 64 : Nat) = (n.toUInt64.toNat : Int) % (2 ^ 64 : Nat) := by
    rw [toInt_eq_bmod_toNat, Int.bmod_emod]
  omega

/-- Below the sign bit the two readings of 64 bits agree. -/
theorem toInt_toInt64_of_lt {x : UInt64} (hx : x.toNat < 2 ^ 63) : x.toInt64.toInt = x.toNat := by
  rw [toInt_eq_bmod_toNat, UInt64.toUInt64_toInt64, Int.bmod_eq_of_le (by omega) (by omega)]

/-- An integer without a sign that takes fewer bits than 64 is found again after widening. -/
theorem toInt64_eq_of_toNat_eq {x : UInt64} {n : Int64} (hx : x.toNat < 2 ^ 63)
    (h : (x.toNat : Int) = n.toInt) : x.toInt64 = n := by
  apply Int64.toInt_inj.mp
  rw [toInt_toInt64_of_lt hx, h]

/-! ### Slots -/

/-- An integer in the range of a slot is found again in the slot. -/
theorem Slot.toInt64?_ofInt64 {s : Slot} {n : Int64} (hn : s.Holds n.toInt) :
    (s.ofInt64 n).toInt64? = some n := by
  have hbits : (n.toUInt64.toNat : Int) = n.toInt % 2 ^ 64 := toNat_toUInt64_eq_emod n
  cases s with
  | i8 | i16 | i32 =>
    obtain ⟨hlow, hhigh⟩ := hn
    refine congrArg some (Int64.toInt_inj.mp ?_)
    simp only [Int8.toInt_toInt64, Int16.toInt_toInt64, Int32.toInt_toInt64, Int64.toInt_toInt8,
      Int64.toInt_toInt16, Int64.toInt_toInt32]
    exact Int.bmod_eq_of_le (by omega) (by omega)
  | u8 | u16 | u32 =>
    obtain ⟨hlow, hhigh⟩ := hn
    refine congrArg some (toInt64_eq_of_toNat_eq ?_ ?_) <;> simp <;> omega
  | i64 => rfl
  | u64 => exact congrArg some (Int64.toInt64_toUInt64 n)
  | f32 | f64 | pointer | void => cases hn

/-- Every value of a slot for integers is an integer. -/
theorem AbiValue.exists_toInt64? {v : AbiValue} (h : v.slot.isInteger = true) :
    ∃ n, v.toInt64? = some n := by
  cases v <;> first | exact ⟨_, rfl⟩ | cases h

/-- An integer that is found in a slot is in the range of the slot. -/
theorem AbiValue.holds_of_toInt64? {v : AbiValue} {n : Int64} (h : v.toInt64? = some n) :
    v.slot.Holds n.toInt := by
  cases v with
  | i8 x | i16 x | i32 x =>
    obtain rfl := Option.some.inj h
    have hlow := x.le_toInt
    have hhigh := x.toInt_lt
    simp [Slot.Holds, slot]
    omega
  | u8 x | u16 x | u32 x =>
    obtain rfl := Option.some.inj h
    have hlt := x.toNat_lt
    rw [slot, toInt_toInt64_of_lt] <;> simp [Slot.Holds] <;> omega
  | i64 | u64 =>
    have hlow := n.le_toInt
    have hhigh := n.toInt_lt
    simp [Slot.Holds, slot]
    omega
  | void | f32 | f64 | pointer => cases h

/-- An integer that is found in a slot is held there by the same bits. -/
theorem AbiValue.ofInt64_of_toInt64? {v : AbiValue} {n : Int64} (h : v.toInt64? = some n) :
    v.slot.ofInt64 n = v := by
  cases v with
  | void | f32 | f64 | pointer => cases h
  | _ =>
    obtain rfl := Option.some.inj h
    simp [Slot.ofInt64, slot]

/-! ### Enumerations -/

/-- An enumeration reads the low 32 bits of an integer, with a sign or without. -/
theorem EnumConversion.toInt_reading (c : EnumConversion) (n : Int64) :
    (c.reading n).toInt = if c.unsigned then n.toInt % 2 ^ 32 else n.toInt.bmod (2 ^ 32) := by
  unfold reading
  split
  · have hbits : (n.toUInt64.toNat : Int) = n.toInt % 2 ^ 64 := toNat_toUInt64_eq_emod n
    rw [toInt_toInt64_of_lt] <;> simp <;> omega
  · rw [Int32.toInt_toInt64, Int64.toInt_toInt32]

/-- Narrowing to 32 bits first leaves the low bits that an enumeration reads. -/
theorem EnumConversion.reading_toInt32 (c : EnumConversion) (n : Int64) :
    c.reading n.toInt32.toInt64 = c.reading n := by
  apply Int64.toInt_inj.mp
  rw [toInt_reading, toInt_reading, Int32.toInt_toInt64, Int64.toInt_toInt32]
  have hmod : n.toInt.bmod (2 ^ 32) % (2 ^ 32 : Nat) = n.toInt % (2 ^ 32 : Nat) := Int.bmod_emod
  split
  · omega
  · exact Int.bmod_bmod

/-- The low 32 bits of an integer are read as those of the integer. -/
theorem ScalarConversion.fromAbi_enumeration_int (c : EnumConversion) (n : Int64) (m : Memory) :
    (enumeration c).fromAbi m (.i32 n.toInt32) = .ok (.int (c.reading n)) := by
  rw [← c.reading_toInt32 n]
  rfl

end ForeignCall
