import ForeignCall.Proofs.Conversion.ArrayReading
import ForeignCall.Proofs.Conversion.Arrays
import ForeignCall.Proofs.Conversion.Integers

/-!
# Native arrays that come back as they were

A native array that is read and passed on again reaches native code with the same bytes, if its
elements are integers, values of an enumeration or addresses (`ElementConversion.isLossless`).
Whatever bits an element has, the host value that it is read as is accepted again, and is converted
into these bits (`ElementConversion.exists_fromAbi`).  Truth values and texts are left out: any
integer but zero is read as true, and a text is copied to another address.  So are floats, since a
float of 32 bits is read as one of 64.

With the elements the array keeps its length, and its terminator if it has one
(`ArrayConversion.reencodes`).
-/

namespace ForeignCall

variable {v : AbiValue} {values : List AbiValue} {m : Memory} {a : Address} {length : Option Nat}

/-! ### Elements -/

namespace ElementConversion

variable {c : ElementConversion}

/-- What an element is read as tells all of its bits. -/
def isLossless : ElementConversion → Bool
  | numeric s => s.isInteger
  | enumeration _ | handle _ => true
  | boolean | string => false

/-- An address is read as null or as a handle, and either is converted into the address again. -/
theorem exists_fromAbi_handle (name : Option TypeName) (m : Memory) (address : Address) :
    ∃ host, (handle name).scalar.fromAbi m (.pointer address) = .ok host ∧
      ∀ item f, (handle name).scalar.toAbi host true item f = (.ok (.pointer address), f) := by
  have hread : (handle name).scalar.fromAbi m (.pointer address) =
      .ok (.ofAddress address name) := by
    cases name <;> rfl
  refine ⟨_, hread, fun item f => ?_⟩
  by_cases hnull : address = .null
  · subst hnull
    cases name <;> rfl
  · have hhandle : HostValue.ofAddress address name = .handle ⟨address, name⟩ := by
      simp [HostValue.ofAddress, Address.isNull, hnull]
    rw [hhandle]
    cases name <;> rfl

/-- Every value of the slot is read as a host value that is converted into it again. -/
theorem exists_fromAbi (hc : c.isLossless = true) (hv : v.slot = c.slot) (m : Memory) :
    ∃ host, c.scalar.fromAbi m v = .ok host ∧
      ∀ item f, c.scalar.toAbi host c.isNullable item f = (.ok v, f) := by
  cases c with
  | boolean | string => cases hc
  | numeric s =>
    obtain rfl : v.slot = s := hv
    obtain ⟨n, hn⟩ := AbiValue.exists_toInt64? (v := v) hc
    exact ⟨.int n, ScalarConversion.fromAbi_numeric_int hc hn m,
      ScalarConversion.toAbi_of_toInt64? hc hn false⟩
  | enumeration c =>
    cases v with
    | i32 value =>
      have hbits : (c.reading value.toInt64).toInt32 = value := by
        rw [c.toInt32_reading, Int32.toInt32_toInt64]
      refine ⟨.int (c.reading value.toInt64), rfl, fun item f => ?_⟩
      have htakes := c.takes_reading value.toInt64
      have hto := EnumConversion.toAbi_of_takes htakes (c := c) false item f
      rwa [hbits] at hto
    | _ => cases hv
  | handle name =>
    cases v with
    | pointer address => exact exists_fromAbi_handle name m address
    | _ => cases hv

/-- Values of the slot are read as host values that are converted into them again. -/
theorem exists_mapM_fromAbi (hc : c.isLossless = true) (hvalues : ∀ v ∈ values, v.slot = c.slot)
    (m : Memory) :
    ∃ hosts, values.mapM (c.scalar.fromAbi m) = .ok hosts ∧ hosts.length = values.length ∧
      ∀ item f, c.scalar.toAbiAll c.isNullable item hosts f = (.ok values, f) := by
  induction values with
  | nil => exact ⟨[], rfl, rfl, fun _ _ => rfl⟩
  | cons v values ih =>
    obtain ⟨hv, hrest⟩ := List.forall_mem_cons.mp hvalues
    obtain ⟨host, hfrom, hto⟩ := exists_fromAbi hc hv m
    obtain ⟨hosts, hfromAll, hcount, htoAll⟩ := ih hrest
    refine ⟨host :: hosts, ?_, by rw [List.length_cons, hcount, List.length_cons], fun item f => ?_⟩
    · rw [List.mapM_cons, hfrom, hfromAll]
      rfl
    · rw [ScalarConversion.toAbiAll_cons_ok (hto item f), htoAll item f]
      rfl

end ElementConversion

/-! ### Arrays -/

namespace ArrayConversion

variable {c : ArrayConversion}

/-- The values are all elements of an array: as many as the constant or the given length says, or
those in front of the first zero. -/
inductive Spans (c : ArrayConversion) (length : Option Nat) (values : List AbiValue) : Prop
  | fixed (hlength : c.length = .fixed values.length)
  | param {index : Nat} (hlength : c.length = .param index) (hcount : length = some values.length)
  | terminated (hlength : c.length = .zeroTerminated) (hvalues : ∀ v ∈ values, ¬ v.IsZero)

/-- Such an array is found with as many elements, may be passed with as many, and none of them is a
zero that would end it early. -/
theorem Spans.count (h : c.Spans length values)
    (hrow : c.element.slot.Row (c.contents values) (m.bytesFrom a)) :
    c.count m a length = .ok (some values.length) ∧ c.Admits values.length ∧
      (c.length = .zeroTerminated → ∀ v ∈ values, v.isZero = false) := by
  cases h with
  | fixed hlength =>
    refine ⟨by simp only [ArrayConversion.count, hlength], fun n hn => ?_, fun hz => ?_⟩
    · rw [hlength] at hn
      exact ArrayLength.fixed.inj hn
    · rw [hlength] at hz
      cases hz
  | param hlength hcount =>
    refine ⟨by simp only [ArrayConversion.count, hlength, hcount], fun n hn => ?_, fun hz => ?_⟩
    · rw [hlength] at hn
      cases hn
    · rw [hlength] at hz
      cases hz
  | terminated hlength hvalues =>
    have hcontents : c.contents values = values ++ [.zero c.element.slot] := by
      rw [contents, if_pos (ArrayLength.isZeroTerminated_iff.mpr hlength)]
    rw [hcontents] at hrow
    have hnonzero : ∀ v ∈ values, v.isZero = false := fun v hv =>
      AbiValue.isZero_eq_false_iff.mpr (hvalues v hv)
    have hzero : (AbiValue.zero c.element.slot).isZero = true := AbiValue.isZero_zero _
    refine ⟨count_of_terminated hlength hrow hnonzero hzero, fun n hn => ?_, fun _ => hnonzero⟩
    rw [hlength] at hn
    cases hn

/-- Where the elements of an array stand in memory, behind them the terminator if the array has one,
they are read as a host array, and this is converted into a buffer of the same bytes. -/
theorem reencodes (helement : c.element.isLossless = true) (ha : a ≠ .null)
    (hvalues : ∀ v ∈ values, v.slot = c.element.slot) (hspans : c.Spans length values)
    (hmemory : elementBytes (c.contents values) <+: m.bytesFrom a) :
    ∃ hosts, (Conversion.array c).fromAbi m (.pointer a) length = .ok (.array hosts) ∧
      hosts.length = values.length ∧
      ∀ nullable item f, (Conversion.array c).toAbi (.array hosts) nullable item f =
        (.ok (f.hold (elementBytes (c.contents values))).1,
          (f.hold (elementBytes (c.contents values))).2) := by
  have hisNull : a.isNull = false := Address.isNull_eq_false_iff.mpr ha
  have hrow : c.element.slot.Row (c.contents values) (m.bytesFrom a) := by
    obtain ⟨rest, hrest⟩ := hmemory
    rw [← hrest]
    exact Slot.row_elementBytes (c.slot_of_mem_contents hvalues) rest
  obtain ⟨hcount, hadmits, hzero⟩ := hspans.count hrow
  obtain ⟨hosts, hfrom, hlength, hto⟩ := ElementConversion.exists_mapM_fromAbi helement hvalues m
  refine ⟨hosts, ?_, hlength, fun nullable item f => ?_⟩
  · have hread := fromAddress_eq_mapM hisNull hcount hrow.left
    rw [hfrom] at hread
    exact hread
  · rw [← hlength] at hadmits
    have hitems : (Conversion.array c).toAbi (.array hosts) nullable item f =
        c.itemsToAbi hosts item f := toAbi_of_admits hadmits nullable item f
    rw [hitems, itemsToAbi, hto item f]
    exact holdElements_of_slot hvalues hzero f

/-- Values of an enumeration without a sign, in front of a zero, come back as they were. -/
theorem reencodes_sample :
    let c : ArrayConversion := ⟨.enumeration ⟨.unqualified "Access", true⟩, .zeroTerminated⟩
    let values : List AbiValue := [.i32 (-1), .i32 5]
    let m : Memory := ⟨[⟨4096, elementBytes (c.contents values)⟩], .empty⟩
    (c.element.isLossless = true ∧ c.Spans none values ∧
      elementBytes (c.contents values) <+: m.bytesFrom (.native 4096)) ∧
    ∃ hosts, (Conversion.array c).fromAbi m (.pointer (.native 4096)) none = .ok (.array hosts) ∧
      hosts.length = 2 ∧
      ∃ abi f, (Conversion.array c).toAbi (.array hosts) false "x" .empty = (.ok abi, f) ∧
        f.storage.HoldsAt abi (elementBytes [.i32 (-1), .i32 5, .i32 0]) := by
  intro c values m
  have hspans : c.Spans none values := .terminated rfl (by decide)
  have hmemory : elementBytes (c.contents values) <+: m.bytesFrom (.native 4096) :=
    List.prefix_rfl
  obtain ⟨hosts, hfrom, hcount, hto⟩ :=
    @reencodes values m (.native 4096) none c rfl (by decide) (by decide) hspans hmemory
  refine ⟨⟨rfl, hspans, hmemory⟩, hosts, hfrom, hcount, _, _, hto false "x" .empty, ?_⟩
  exact Frame.hold_holdsAt _ _

end ArrayConversion

end ForeignCall
