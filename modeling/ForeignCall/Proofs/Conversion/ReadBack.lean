import ForeignCall.Proofs.Conversion.CallIn
import ForeignCall.Proofs.Conversion.Numbers
import ForeignCall.Proofs.Conversion.Reading

/-!
# Converted values read back

The two directions of a conversion are inverse up to a normal form: whatever memory later looks
like, as long as the buffers that were made for a host value still stand, converting the slot value
back yields the normal form of that host value (`Conversion.Converted.readsBack`).

The normal form forgets what does not cross: the members of an enumeration are integers of 32 bits,
a number in a float slot is the float that the slot holds, a handle is one of the declared type, and
an array of unknown length is an address.  Where a host passes the address of a text or an array of
its own (`Conversion.PassesRaw`) nothing was copied, and nothing is said.
-/

namespace ForeignCall

/-! ### Normal forms -/

/-- The value is a handle. -/
def HostValue.isHandle : HostValue → Bool
  | handle _ => true
  | _ => false

/-- The number of items of a host array. -/
def HostValue.itemCount? : HostValue → Option Nat
  | array items => some items.length
  | _ => none

/-- The float that a slot for floats holds of one: one of 32 bits rounds it. -/
def Slot.rounded (s : Slot) (bits : UInt64) : UInt64 :=
  match s with
  | .f32 => Ieee.widen (Ieee.narrow bits)
  | _ => bits

namespace ScalarConversion

/-- The type that a conversion gives to the handles it yields. -/
def declaredType? : ScalarConversion → Option TypeName
  | handle name | callback name => some name
  | _ => none

/-- What the host receives in the place of a value that it passed. -/
def normalForm : ScalarConversion → HostValue → HostValue
  | void, _ => .void
  | numeric s, .int n => if s.isFloat then .float (s.rounded (Ieee.ofInt64 n)) else .int n
  | numeric s, .float bits => .float (s.rounded bits)
  | enumeration c, .int n =>
    .int (.ofInt (if c.unsigned then n.toInt % 2 ^ 32 else n.toInt.bmod (2 ^ 32)))
  | c, .handle h => if h.isNull then .null else .handle ⟨h.address, c.declaredType?⟩
  | _, value => value

/-- A handle stands in the place of a text. -/
def PassesRaw (c : ScalarConversion) (value : HostValue) : Prop :=
  c = .string ∧ value.isHandle = true

end ScalarConversion

namespace ArrayConversion

/-- What the host receives in the place of an array that was passed as `abi`. -/
def normalForm (c : ArrayConversion) (abi : AbiValue) (value : HostValue) : HostValue :=
  match value, c.length, abi with
  | .array _, .unknown, .pointer address => .handle (.untyped address)
  | .array items, _, _ => .array (items.map c.element.scalar.normalForm)
  | value, _, _ => value

/-- A handle stands in the place of the array or of a text in it. -/
def PassesRaw (c : ArrayConversion) (value : HostValue) : Prop :=
  value.isHandle = true ∨
    ∃ items, value = .array items ∧ ∃ item ∈ items, c.element.scalar.PassesRaw item

end ArrayConversion

namespace Conversion

/-- What the host receives in the place of a value that was passed as `abi`. -/
def normalForm (c : Conversion) (abi : AbiValue) (value : HostValue) : HostValue :=
  match c with
  | scalar c => c.normalForm value
  | array c => c.normalForm abi value

/-- A handle stands in the place of a text or an array. -/
def PassesRaw (c : Conversion) (value : HostValue) : Prop :=
  match c with
  | scalar c => c.PassesRaw value
  | array c => c.PassesRaw value

end Conversion

variable {m : Memory} {value : HostValue} {abi : AbiValue} {nullable : Bool} {item : String}
  {f f' : Frame}

/-! ### Scalars -/

namespace ScalarConversion

/-- A number reads back as the slot holds it. -/
theorem fromAbi_numeric {s : Slot} (h : numericToAbi s value = .ok abi) :
    (numeric s).fromAbi m abi = .ok ((numeric s).normalForm value) := by
  rcases numericToAbi_eq_ok.mp h with
    ⟨n, rfl, hs, hn, rfl⟩ | ⟨n, rfl, hs, rfl⟩ | ⟨bits, rfl, hs, rfl⟩
  · have hfloat : s.isFloat = false := Slot.isFloat_of_isInteger hs
    simp only [fromAbi, normalForm, hfloat, Slot.toInt64?_ofInt64 hn, Bool.false_eq_true, if_false]
  · cases s <;> first | rfl | cases hs
  · cases s <;> first | rfl | cases hs

/-- A value of an enumeration reads back as its low 32 bits. -/
theorem fromAbi_enumeration (c : EnumConversion) (n : Int64) :
    (enumeration c).fromAbi m (.i32 n.toInt32) = .ok ((enumeration c).normalForm (.int n)) := by
  have hreading : c.reading n =
      .ofInt (if c.unsigned then n.toInt % 2 ^ 32 else n.toInt.bmod (2 ^ 32)) := by
    rw [← EnumConversion.toInt_reading, Int64.ofInt_toInt]
  rw [fromAbi_enumeration_int, hreading]
  rfl

/-- An address reads back as a handle of the declared type, or as null. -/
theorem fromAbi_handle {c : ScalarConversion} (h : Handle) (hc : c.isAddress = true)
    (hstring : c ≠ .string) :
    c.fromAbi m (.pointer h.address) = .ok (c.normalForm (.handle h)) := by
  cases c <;> first | rfl | exact absurd rfl hstring | cases hc

/-- A scalar reads back as its normal form while the buffers made for it stand. -/
theorem fromAbi_of_accepts {c : ScalarConversion} (h : Accepts nullable f c value abi f')
    (hm : f'.storage.Extends m.storage) (hraw : ¬ c.PassesRaw value) :
    c.fromAbi m abi = .ok (c.normalForm value) := by
  cases h with
  | void value => rfl
  | boolean b => cases b <;> rfl
  | numeric hnumber => exact fromAbi_numeric hnumber
  | enumeration c hn => exact fromAbi_enumeration c _
  | @string text htext =>
    have hholds := (f.hold_holdsAt (stringBytes text)).extends hm
    have hread := Memory.readString_of_bytesFrom htext (Memory.bytesFrom_of_holdsAt hholds)
    simp only [fromAbi, Frame.hold, AbiValue.address, AbiValue.toAddress?, hholds.isNull] at hread ⊢
    rw [hread]
    rfl
  | handle h hc =>
    refine fromAbi_handle h hc ?_
    rintro rfl
    exact hraw ⟨rfl, rfl⟩
  | null hc hnull => cases c <;> first | rfl | cases hc

end ScalarConversion

/-- A converted scalar reads back as its normal form. -/
theorem Conversion.Converted.fromAbi_scalar {c : ScalarConversion}
    (h : (Conversion.scalar c).Converted nullable item m.storage value abi)
    (hraw : ¬ c.PassesRaw value) : c.fromAbi m abi = .ok (c.normalForm value) := by
  obtain ⟨f, f', hto, hf⟩ := h
  exact ScalarConversion.fromAbi_of_accepts (ScalarConversion.toAbi_accepts hto) hf hraw

/-! ### Arrays -/

namespace ElementConversion

/-- Converted elements read back, each as its normal form. -/
theorem fromAbi_of_converted {c : ElementConversion} {items : List HostValue}
    {values : List AbiValue}
    (h : List.Forall₂ ((Conversion.scalar c.scalar).Converted nullable item m.storage) items values)
    (hraw : ∀ i ∈ items, ¬ c.scalar.PassesRaw i) :
    List.Forall₂ (fun host v => c.scalar.fromAbi m v = .ok host)
      (items.map c.scalar.normalForm) values := by
  induction h with
  | nil => exact .nil
  | cons hfirst _ ih =>
    refine .cons (hfirst.fromAbi_scalar (hraw _ (by simp))) (ih fun i hi => hraw i ?_)
    exact List.mem_cons_of_mem _ hi

end ElementConversion

namespace ArrayConversion

/-- A host array that was passed is found in the buffer that was made for it. -/
theorem fromAbi_of_buffer {c : ArrayConversion} {items : List HostValue} {values : List AbiValue}
    {address : Address}
    (hlength : ∀ count, c.length = .fixed count → items.length = count)
    (hterminated : c.length = .zeroTerminated → ∀ v ∈ values, v.isZero = false)
    (hvalues : List.Forall₂
      ((Conversion.scalar c.element.scalar).Converted nullable item m.storage) items values)
    (hholds : m.storage.HoldsAt (.pointer address) (elementBytes (c.contents values)))
    (hraw : ∀ i ∈ items, ¬ c.element.scalar.PassesRaw i) :
    c.fromAbi m (.pointer address) (some items.length) =
      .ok (c.normalForm (.pointer address) (.array items)) := by
  have hslot := ElementConversion.slot_of_converted hvalues
  have hbytes : m.bytesFrom address = elementBytes (c.contents values) :=
    Memory.bytesFrom_of_holdsAt hholds
  have hcount : values.length = items.length := hvalues.length_eq.symm
  have hread : c.element.fromAbiAll m items.length (m.bytesFrom address) =
      .ok (items.map c.element.scalar.normalForm) := by
    rw [hbytes, contents, elementBytes, List.flatMap_append, ← hcount]
    exact ElementConversion.fromAbiAll_bytes hslot
      (ElementConversion.fromAbi_of_converted hvalues hraw) _
  have hopen : c.fromAbi m (.pointer address) (some items.length) =
      c.fromAddress m address (some items.length) := rfl
  rw [hopen, fromAddress, hholds.isNull]
  rcases hc : c.length with index | count | _ | _
  · simp [count, hc, hread, normalForm, Except.map]
  · obtain rfl : items.length = count := hlength count hc
    simp [ArrayConversion.count, hc, hread, normalForm, Except.map]
  · have hend : terminatedLength? c.element.slot (m.bytesFrom address) = some items.length := by
      rw [hbytes, contents, hc, ← hcount]
      exact terminatedLength?_bytes hslot (hterminated hc)
    simp [count, hc, hend, hread, normalForm, Except.map]
  · simp [count, hc, normalForm]

end ArrayConversion

/-- A converted host array stands in a buffer, element by element. -/
theorem Conversion.Converted.exists_buffer {c : ArrayConversion} {items : List HostValue}
    (h : (Conversion.array c).Converted nullable item m.storage (.array items) abi) :
    (∀ count, c.length = .fixed count → items.length = count) ∧
      ∃ values, (c.length = .zeroTerminated → ∀ v ∈ values, v.isZero = false) ∧
        m.storage.HoldsAt abi (elementBytes (c.contents values)) ∧
        List.Forall₂ ((Conversion.scalar c.element.scalar).Converted c.element.isNullable item
          m.storage) items values := by
  obtain ⟨f, f', hto, hf⟩ := h
  have haccepts : c.Accepts nullable item f (.array items) abi f' :=
    ArrayConversion.toAbi_accepts hto
  cases haccepts with
  | @items _ values f₁ hlength hvalues hterminated =>
    have hgrows := f₁.hold_grows (elementBytes (c.contents values))
    refine ⟨hlength, values, hterminated, (f₁.hold_holdsAt _).extends hf, ?_⟩
    exact (ScalarConversion.toAbiAll_converted hvalues).imp fun _ _ hconverted =>
      hconverted.extends (hgrows.extends.trans hf)

/-- A converted array reads back as its normal form. -/
theorem Conversion.Converted.fromAbi_array {c : ArrayConversion}
    (h : (Conversion.array c).Converted nullable item m.storage value abi)
    (hraw : ¬ c.PassesRaw value) :
    c.fromAbi m abi value.itemCount? = .ok (c.normalForm abi value) := by
  obtain ⟨f, f', hto, hf⟩ := h
  cases ArrayConversion.toAbi_accepts hto with
  | null hnull => rcases c with ⟨_, _ | _ | _ | _⟩ <;> rfl
  | handle h => exact absurd (.inl rfl) hraw
  | @items items _ _ _ _ _ =>
    obtain ⟨hlength, values, hterminated, hholds, hvalues⟩ := exists_buffer ⟨_, _, hto, hf⟩
    refine ArrayConversion.fromAbi_of_buffer hlength hterminated hvalues hholds ?_
    exact fun i hi hi' => hraw (.inr ⟨items, rfl, i, hi, hi'⟩)

/-! ### Arguments that read back -/

/-- Only arrays with a length parameter ask for their length. -/
theorem Conversion.fromAbi_of_lengthParam? {c : Conversion} (hc : c.lengthParam? = none)
    (length length' : Option Nat) : c.fromAbi m abi length = c.fromAbi m abi length' := by
  cases c with
  | scalar c => rfl
  | array c =>
    rcases c with ⟨element, index | count | _ | _⟩
    · cases hc
    all_goals rfl

/-- The argument `abi` tells in the memory `m` what the host passed. -/
structure Conversion.ReadsBack (c : Conversion) (m : Memory) (value : HostValue) (abi : AbiValue) :
    Prop where
  /-- It reads back as the normal form; the length matters where a parameter holds it. -/
  fromAbi_eq : ¬ c.PassesRaw value → ∀ length,
    (c.lengthParam?.isSome = true → length = value.itemCount?) →
      c.fromAbi m abi length = .ok (c.normalForm abi value)
  /-- A host array stands behind it in a buffer of its own, and each of its elements reads back. -/
  buffer : ∀ a items, c = .array a → value = .array items → ∃ values,
    m.storage.HoldsAt abi (elementBytes (a.contents values)) ∧
      List.Forall₂ (fun i v => v.slot = a.element.slot ∧ (¬ a.element.scalar.PassesRaw i →
        a.element.scalar.fromAbi m v = .ok (a.element.scalar.normalForm i))) items values

/-- A converted value reads back in every memory in which the buffers made for it still stand. -/
theorem Conversion.Converted.readsBack {c : Conversion}
    (h : c.Converted nullable item m.storage value abi) : c.ReadsBack m value abi where
  fromAbi_eq hraw length hlength := by
    have hcount : c.fromAbi m abi value.itemCount? = .ok (c.normalForm abi value) := by
      cases c with
      | scalar c => exact h.fromAbi_scalar hraw
      | array c => exact h.fromAbi_array hraw
    cases hc : c.lengthParam? with
    | none => rw [Conversion.fromAbi_of_lengthParam? hc length value.itemCount?, hcount]
    | some index => rw [hlength (by rw [hc]; rfl), hcount]
  buffer a items hc hvalue := by
    subst hc hvalue
    obtain ⟨-, values, -, hholds, hvalues⟩ := h.exists_buffer
    refine ⟨values, hholds, hvalues.imp fun i v hconverted => ⟨?_, hconverted.fromAbi_scalar⟩⟩
    exact hconverted.slot.trans a.element.slot_scalar

end ForeignCall
