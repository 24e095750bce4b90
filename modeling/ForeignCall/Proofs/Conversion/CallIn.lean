import Mathlib.Data.List.Forall2
import ForeignCall.Conversion.CallIn
import ForeignCall.Proofs.Frame.Growth

/-!
# What converting a host value does

Whether it succeeds or fails, a conversion only adds buffers to the frame
(`Conversion.toAbi_grows`).  The relations `ScalarConversion.Accepts` and `ArrayConversion.Accepts`
list what a successful conversion can have been, one constructor for each kind of host value that is
accepted; everything later on is read off them, first of all that the result stands in the slot of
the conversion (`Conversion.toAbi_slot`).

`Conversion.Converted` forgets in which frame a value was converted and keeps what matters later on:
that the buffers made for it are still there.  The elements of a converted array are converted in
this sense, each on its own (`ScalarConversion.toAbiAll_converted`).
-/

namespace ForeignCall

variable {s : Slot} {value : HostValue} {abi : AbiValue} {nullable : Bool} {item : String}
  {f f' : Frame}

/-! ### Conversions only add buffers -/

theorem stringToAbi_grows (text : String) (f : Frame) : f.Grows (stringToAbi text f).2 := by
  unfold stringToAbi
  split
  · exact .refl f
  · exact f.hold_grows _

namespace ScalarConversion

/-- Converting a scalar adds buffers to the frame and changes nothing else in it. -/
theorem toAbi_grows (c : ScalarConversion) (value : HostValue) (nullable : Bool) (item : String)
    (f : Frame) : f.Grows (c.toAbi value nullable item f).2 := by
  cases c with
  | string =>
    cases value with
    | string text => exact stringToAbi_grows text f
    | _ => exact .refl f
  | _ => cases value <;> exact .refl f

/-- Elements are rejected with the first of them. -/
theorem toAbiAll_cons_error {c : ScalarConversion} {rest : List HostValue} {e : MarshalError}
    (h : c.toAbi value nullable item f = (.error e, f')) :
    c.toAbiAll nullable item (value :: rest) f = (.error e, f') := by
  simp only [toAbiAll, h]

/-- Behind an element that is accepted the others are converted, in the frame that it leaves. -/
theorem toAbiAll_cons_ok {c : ScalarConversion} {rest : List HostValue}
    (h : c.toAbi value nullable item f = (.ok abi, f')) :
    c.toAbiAll nullable item (value :: rest) f =
      ((c.toAbiAll nullable item rest f').1.map (abi :: ·),
        (c.toAbiAll nullable item rest f').2) := by
  rcases ha : c.toAbiAll nullable item rest f' with ⟨e | others, f''⟩ <;>
    simp only [toAbiAll, h, ha, Except.map]

/-- Converting elements adds buffers to the frame, also when one of them is rejected. -/
theorem toAbiAll_grows (c : ScalarConversion) (nullable : Bool) (item : String)
    (values : List HostValue) (f : Frame) : f.Grows (c.toAbiAll nullable item values f).2 := by
  induction values generalizing f with
  | nil => exact .refl f
  | cons value rest ih =>
    have hfirst : f.Grows (c.toAbi value nullable item f).2 := c.toAbi_grows value nullable item f
    rcases hc : c.toAbi value nullable item f with ⟨e | first, f₁⟩
    · rw [toAbiAll_cons_error hc]
      rwa [hc] at hfirst
    · rw [toAbiAll_cons_ok hc]
      rw [hc] at hfirst
      exact hfirst.trans (ih f₁)

end ScalarConversion

namespace ArrayConversion

theorem holdElements_grows (c : ArrayConversion) (values : List AbiValue) (f : Frame) :
    f.Grows (c.holdElements values f).2 := by
  unfold holdElements
  split
  · split
    · exact .refl f
    · exact f.hold_grows _
  · exact f.hold_grows _

theorem itemsToAbi_grows (c : ArrayConversion) (items : List HostValue) (item : String)
    (f : Frame) : f.Grows (c.itemsToAbi items item f).2 := by
  have hall := c.element.scalar.toAbiAll_grows c.element.isNullable item items f
  unfold itemsToAbi
  rcases ha : c.element.scalar.toAbiAll c.element.isNullable item items f with ⟨e | values, f₁⟩
  · simpa only [ha] using hall
  · rw [ha] at hall
    exact hall.trans (c.holdElements_grows values f₁)

/-- Converting an array adds buffers to the frame and changes nothing else in it. -/
theorem toAbi_grows (c : ArrayConversion) (value : HostValue) (nullable : Bool) (item : String)
    (f : Frame) : f.Grows (c.toAbi value nullable item f).2 := by
  cases value with
  | array items =>
    unfold toAbi
    dsimp only
    split
    · split
      · exact c.itemsToAbi_grows items item f
      · exact .refl f
    · exact c.itemsToAbi_grows items item f
  | _ => exact .refl f

end ArrayConversion

/-- Whatever becomes of it, a conversion adds buffers to the frame and changes nothing else. -/
theorem Conversion.toAbi_grows (c : Conversion) (value : HostValue) (nullable : Bool)
    (item : String) (f : Frame) : f.Grows (c.toAbi value nullable item f).2 := by
  cases c with
  | scalar c => exact c.toAbi_grows value nullable item f
  | array c => exact c.toAbi_grows value nullable item f

/-- The frame that a conversion leaves is the one before it with buffers added. -/
theorem Conversion.grows_of_toAbi {c : Conversion} {result : Except MarshalError AbiValue}
    (h : c.toAbi value nullable item f = (result, f')) : f.Grows f' := by
  have hgrows := c.toAbi_grows value nullable item f
  rwa [h] at hgrows

/-! ### What the single conversions accept -/

@[simp] theorem Slot.slot_ofInt64 (s : Slot) (n : Int64) : (s.ofInt64 n).slot = s := by
  cases s <;> rfl

theorem Slot.slot_ofFloatBits (bits : UInt64) (hs : s.isFloat = true) :
    (s.ofFloatBits bits).slot = s := by
  cases s <;> first | rfl | cases hs

/-- A slot for integers is none for floats. -/
theorem Slot.isFloat_of_isInteger (hs : s.isInteger = true) : s.isFloat = false := by
  cases s <;> first | rfl | cases hs

/-- A number is accepted if it is an integer in the range of an integer slot, or any number at all
where the slot is one for floats. -/
theorem numericToAbi_eq_ok :
    numericToAbi s value = .ok abi ↔
      (∃ n, value = .int n ∧ s.isInteger = true ∧ s.Holds n.toInt ∧ abi = s.ofInt64 n) ∨
      (∃ n, value = .int n ∧ s.isFloat = true ∧ abi = s.ofInt64 n) ∨
      (∃ bits, value = .float bits ∧ s.isFloat = true ∧ abi = s.ofFloatBits bits) := by
  cases value with
  | int n =>
    by_cases hinteger : s.isInteger = true
    · have hfloat : s.isFloat = false := Slot.isFloat_of_isInteger hinteger
      by_cases hholds : s.Holds n.toInt <;>
        simp [numericToAbi, hinteger, hfloat, hholds, @eq_comm _ abi]
    · by_cases hfloat : s.isFloat = true <;>
        simp [numericToAbi, hinteger, hfloat, @eq_comm _ abi]
  | float bits =>
    by_cases hfloat : s.isFloat = true <;> simp [numericToAbi, hfloat, @eq_comm _ abi]
  | _ => simp [numericToAbi]

theorem numericToAbi_slot (h : numericToAbi s value = .ok abi) : abi.slot = s := by
  rcases numericToAbi_eq_ok.mp h with ⟨n, -, -, -, rfl⟩ | ⟨n, -, -, rfl⟩ | ⟨bits, -, hs, rfl⟩
  · exact s.slot_ofInt64 n
  · exact s.slot_ofInt64 n
  · exact Slot.slot_ofFloatBits bits hs

/-- A value of an enumeration is accepted if 32 bits hold it, with a sign or without. -/
theorem enumToAbi_eq_ok :
    enumToAbi value = .ok abi ↔
      ∃ n, value = .int n ∧ (Slot.i32.Holds n.toInt ∨ Slot.u32.Holds n.toInt) ∧
        abi = .i32 n.toInt32 := by
  cases value with
  | int n =>
    by_cases hn : Slot.i32.Holds n.toInt ∨ Slot.u32.Holds n.toInt
    · simp only [enumToAbi, if_pos hn, Except.ok.injEq, HostValue.int.injEq]
      exact ⟨fun h => ⟨n, rfl, hn, h.symm⟩, fun ⟨m, hm, _, h⟩ => by rw [hm]; exact h.symm⟩
    · simp only [enumToAbi, if_neg hn, HostValue.int.injEq, reduceCtorEq, false_iff]
      rintro ⟨m, rfl, hm, -⟩
      exact hn hm
  | _ => simp [enumToAbi]

/-- A text is accepted if it holds no zero byte, and is then kept with one at its end. -/
theorem stringToAbi_eq_ok {text : String} :
    stringToAbi text f = (.ok abi, f') ↔
      0 ∉ Text.utf8 text ∧ f.hold (stringBytes text) = (abi, f') := by
  unfold stringToAbi
  split
  · rename_i position hposition
    have hmem : 0 ∈ Text.utf8 text := by
      by_contra hnot
      rw [List.idxOf?_eq_none_iff.mpr hnot] at hposition
      cases hposition
    simp [hmem]
  · rename_i hnone
    have hnot : 0 ∉ Text.utf8 text := List.idxOf?_eq_none_iff.mp hnone
    simp [hnot, Prod.ext_iff]

namespace ScalarConversion

/-- The value is an address: of a text, of an object or of a function. -/
def isAddress : ScalarConversion → Bool
  | string | pointer | handle _ | callback _ => true
  | void | boolean | numeric _ | enumeration _ => false

theorem slot_of_isAddress {c : ScalarConversion} (hc : c.isAddress = true) : c.slot = .pointer := by
  cases c <;> first | rfl | cases hc

/-- What a scalar conversion accepts, the slot value that it yields and the frame afterwards. -/
inductive Accepts (nullable : Bool) (f : Frame) :
    ScalarConversion → HostValue → AbiValue → Frame → Prop
  | void (value : HostValue) : Accepts nullable f .void value .void f
  | boolean (b : Bool) : Accepts nullable f .boolean (.bool b) (.i32 (if b then 1 else 0)) f
  | numeric {s : Slot} {value : HostValue} {abi : AbiValue}
      (hnumber : numericToAbi s value = .ok abi) : Accepts nullable f (.numeric s) value abi f
  | enumeration (c : EnumConversion) {n : Int64}
      (hn : Slot.i32.Holds n.toInt ∨ Slot.u32.Holds n.toInt) :
      Accepts nullable f (.enumeration c) (.int n) (.i32 n.toInt32) f
  | string {text : String} (htext : 0 ∉ Text.utf8 text) :
      Accepts nullable f .string (.string text) (f.hold (stringBytes text)).1
        (f.hold (stringBytes text)).2
  | handle {c : ScalarConversion} (h : Handle) (hc : c.isAddress = true) :
      Accepts nullable f c (.handle h) (.pointer h.address) f
  | null {c : ScalarConversion} (hc : c.isAddress = true)
      (hnull : c = .pointer ∨ nullable = true) : Accepts nullable f c .null .null f

theorem nullToAbi_accepts {c : ScalarConversion} (h : c.nullToAbi nullable item = .ok abi) :
    Accepts nullable f c .null abi f := by
  cases c with
  | void => cases h; exact .void .null
  | pointer => cases h; exact .null rfl (.inl rfl)
  | boolean | numeric | enumeration => cases h
  | string | handle | callback =>
    simp only [nullToAbi] at h
    split at h <;> cases h
    exact .null rfl (.inr ‹_›)

/-- A scalar conversion succeeds only as `Accepts` says. -/
theorem toAbi_accepts {c : ScalarConversion}
    (h : c.toAbi value nullable item f = (.ok abi, f')) : Accepts nullable f c value abi f' := by
  have hresult : (c.toAbi value nullable item f).1 = .ok abi := congrArg Prod.fst h
  by_cases hnull : value = .null
  · subst hnull
    obtain rfl : f = f' := congrArg Prod.snd h
    exact nullToAbi_accepts hresult
  · cases c with
    | void =>
      cases value <;> first | exact absurd rfl hnull | (cases h; exact .void _)
    | boolean =>
      cases value with
      | bool b => cases h; exact .boolean b
      | _ => cases hresult
    | numeric s =>
      cases value with
      | int n =>
        obtain rfl : f = f' := congrArg Prod.snd h
        exact .numeric hresult
      | float bits =>
        obtain rfl : f = f' := congrArg Prod.snd h
        exact .numeric hresult
      | _ => cases hresult
    | enumeration c =>
      obtain rfl : f = f' := by cases value <;> exact congrArg Prod.snd h
      have henum : enumToAbi value = .ok abi := by
        cases value <;> exact hresult
      obtain ⟨n, rfl, hn, rfl⟩ := enumToAbi_eq_ok.mp henum
      exact .enumeration c hn
    | string =>
      cases value with
      | string text =>
        obtain ⟨htext, hhold⟩ := stringToAbi_eq_ok.mp h
        obtain ⟨rfl, rfl⟩ := Prod.ext_iff.mp hhold
        exact .string htext
      | handle h' => cases h; exact .handle h' rfl
      | null => exact absurd rfl hnull
      | _ => cases hresult
    | pointer | handle | callback =>
      cases value with
      | handle h' => cases h; exact .handle h' rfl
      | null => exact absurd rfl hnull
      | _ => cases hresult

/-- A converted scalar stands in the slot of its conversion. -/
theorem toAbi_slot {c : ScalarConversion} (h : c.toAbi value nullable item f = (.ok abi, f')) :
    abi.slot = c.slot := by
  cases toAbi_accepts h with
  | void | boolean | enumeration => rfl
  | numeric hnumber => exact numericToAbi_slot hnumber
  | string => rfl
  | handle _ hc => exact (slot_of_isAddress hc).symm
  | null hc => exact (slot_of_isAddress hc).symm

end ScalarConversion

/-! ### Converted values in a storage -/

/-- The host value was converted into the slot value in some frame, and what that frame held
afterwards still stands in the storage. -/
def Conversion.Converted (c : Conversion) (nullable : Bool) (item : String) (store : Storage)
    (value : HostValue) (abi : AbiValue) : Prop :=
  ∃ f f', c.toAbi value nullable item f = (.ok abi, f') ∧ f'.storage.Extends store

/-- A converted value stays one when the storage grows. -/
theorem Conversion.Converted.extends {c : Conversion} {store store' : Storage}
    (h : c.Converted nullable item store value abi) (hs : store.Extends store') :
    c.Converted nullable item store' value abi := by
  obtain ⟨f, f', hto, hf⟩ := h
  exact ⟨f, f', hto, hf.trans hs⟩

/-- Elements that were converted one after another are all converted in the frame that they
leave. -/
theorem ScalarConversion.toAbiAll_converted {c : ScalarConversion} {values : List HostValue}
    {results : List AbiValue} (h : c.toAbiAll nullable item values f = (.ok results, f')) :
    List.Forall₂ ((Conversion.scalar c).Converted nullable item f'.storage) values results := by
  induction values generalizing f results with
  | nil => cases h; exact .nil
  | cons value rest ih =>
    rcases hc : c.toAbi value nullable item f with ⟨e | first, f₁⟩
    · simp [toAbiAll_cons_error hc] at h
    rcases ha : c.toAbiAll nullable item rest f₁ with ⟨e | others, f₂⟩
    · simp [toAbiAll_cons_ok hc, ha, Except.map] at h
    obtain ⟨rfl, rfl⟩ : first :: others = results ∧ f₂ = f' := by
      simpa [toAbiAll_cons_ok hc, ha, Except.map] using h
    have hgrows : f₁.Grows f₂ := by
      have hall := c.toAbiAll_grows nullable item rest f₁
      rwa [ha] at hall
    exact .cons ⟨f, f₁, hc, hgrows.extends⟩ (ih ha)

namespace ElementConversion

/-- The slot of an element is the slot of its conversion. -/
@[simp] theorem slot_scalar (c : ElementConversion) : c.scalar.slot = c.slot := by
  rcases c with _ | _ | _ | _ | ⟨_ | _⟩ <;> rfl

/-- Converted elements stand in the slot of the elements. -/
theorem slot_of_converted {c : ElementConversion} {items : List HostValue}
    {values : List AbiValue} {store : Storage}
    (h : List.Forall₂ ((Conversion.scalar c.scalar).Converted nullable item store) items values) :
    ∀ v ∈ values, v.slot = c.slot := by
  induction h with
  | nil => simp
  | cons hfirst _ ih =>
    intro v hv
    rcases List.mem_cons.mp hv with rfl | hv
    · obtain ⟨f, f', hto, -⟩ := hfirst
      exact (ScalarConversion.toAbi_slot hto).trans c.slot_scalar
    · exact ih v hv

end ElementConversion

/-! ### What an array conversion accepts -/

namespace ArrayConversion

/-- The elements as they stand in the buffer: behind them the terminator, if the array has one. -/
def contents (c : ArrayConversion) (values : List AbiValue) : List AbiValue :=
  values ++ if c.length.isZeroTerminated then [.zero c.element.slot] else []

/-- What an array conversion accepts, the pointer that it yields and the frame afterwards. -/
inductive Accepts (c : ArrayConversion) (nullable : Bool) (item : String) (f : Frame) :
    HostValue → AbiValue → Frame → Prop
  | null (hnull : nullable = true) : Accepts c nullable item f .null .null f
  | handle (h : Handle) : Accepts c nullable item f (.handle h) (.pointer h.address) f
  | items {items : List HostValue} {values : List AbiValue} {f₁ : Frame}
      (hlength : ∀ count, c.length = .fixed count → items.length = count)
      (hvalues : c.element.scalar.toAbiAll c.element.isNullable item items f = (.ok values, f₁))
      (hterminated : c.length = .zeroTerminated → ∀ v ∈ values, v.isZero = false) :
      Accepts c nullable item f (.array items) (f₁.hold (elementBytes (c.contents values))).1
        (f₁.hold (elementBytes (c.contents values))).2

/-- The terminator stands in the slot of the elements. -/
theorem slot_of_mem_contents (c : ArrayConversion) {values : List AbiValue}
    (hslot : ∀ v ∈ values, v.slot = c.element.slot) :
    ∀ v ∈ c.contents values, v.slot = c.element.slot := by
  intro v hv
  rcases List.mem_append.mp hv with hv | hv
  · exact hslot v hv
  · split at hv
    · rw [List.mem_singleton.mp hv, AbiValue.slot_zero]
    · cases hv

/-- No element is left out of the buffer, and neither is the terminator. -/
theorem holdBuffer_contents (c : ArrayConversion) {values : List AbiValue}
    (hslot : ∀ v ∈ values, v.slot = c.element.slot) (f : Frame) :
    f.holdBuffer (.ofValues c.element.slot (c.contents values)) =
      f.hold (elementBytes (c.contents values)) := by
  rw [Frame.holdBuffer, TypedBuffer.bytes_ofValues (c.slot_of_mem_contents hslot)]

/-- Elements are kept unless one of them would end the array early. -/
theorem holdElements_eq_ok {c : ArrayConversion} {values : List AbiValue}
    (hslot : ∀ v ∈ values, v.slot = c.element.slot)
    (h : c.holdElements values f = (.ok abi, f')) :
    (c.length = .zeroTerminated → ∀ v ∈ values, v.isZero = false) ∧
      f.hold (elementBytes (c.contents values)) = (abi, f') := by
  rw [← c.holdBuffer_contents hslot]
  unfold holdElements at h
  by_cases hz : c.length.isZeroTerminated = true
  · rw [if_pos hz] at h
    rcases hfind : values.findIdx? (·.isZero) with _ | index
    · rw [hfind] at h
      refine ⟨fun _ => by simpa using hfind, ?_⟩
      simpa [contents, hz, Prod.ext_iff] using h
    · simp [hfind] at h
  · rw [if_neg hz] at h
    refine ⟨fun hlength => absurd (by rw [hlength]; rfl) hz, ?_⟩
    simpa [contents, hz, Prod.ext_iff] using h

/-- An array conversion succeeds only as `Accepts` says. -/
theorem toAbi_accepts {c : ArrayConversion} (h : c.toAbi value nullable item f = (.ok abi, f')) :
    c.Accepts nullable item f value abi f' := by
  cases value with
  | null =>
    by_cases hnull : nullable = true
    · obtain ⟨rfl, rfl⟩ : AbiValue.null = abi ∧ f = f' := by simpa [toAbi, hnull] using h
      exact .null hnull
    · simp [toAbi, hnull] at h
  | handle h' => cases h; exact .handle h'
  | array items =>
    obtain ⟨hlength, hitems⟩ : (∀ count, c.length = .fixed count → items.length = count) ∧
        c.itemsToAbi items item f = (.ok abi, f') := by
      rcases hc : c.length with index | count | _ | _ <;> simp only [toAbi, hc] at h
      · exact ⟨by simp, h⟩
      · by_cases hcount : items.length = count
        · exact ⟨by simp [hcount], by simpa [hcount] using h⟩
        · simp [hcount] at h
      · exact ⟨by simp, h⟩
      · exact ⟨by simp, h⟩
    rcases hvalues : c.element.scalar.toAbiAll c.element.isNullable item items f
      with ⟨e | values, f₁⟩
    · simp [itemsToAbi, hvalues] at hitems
    have hslot := ElementConversion.slot_of_converted (ScalarConversion.toAbiAll_converted hvalues)
    obtain ⟨hterminated, hhold⟩ :=
      holdElements_eq_ok hslot (by simpa [itemsToAbi, hvalues] using hitems)
    obtain ⟨rfl, rfl⟩ := Prod.ext_iff.mp hhold
    exact .items hlength hvalues hterminated
  | _ => simp [toAbi] at h

/-- A converted array is a pointer. -/
theorem toAbi_slot {c : ArrayConversion} (h : c.toAbi value nullable item f = (.ok abi, f')) :
    abi.slot = .pointer := by
  cases toAbi_accepts h <;> rfl

end ArrayConversion

/-- What a conversion yields stands in the slot of the conversion. -/
theorem Conversion.toAbi_slot {c : Conversion}
    (h : c.toAbi value nullable item f = (.ok abi, f')) : abi.slot = c.slot := by
  cases c with
  | scalar c => exact ScalarConversion.toAbi_slot h
  | array c => exact ArrayConversion.toAbi_slot h

/-- A converted value stands in the slot of its conversion. -/
theorem Conversion.Converted.slot {c : Conversion} {store : Storage}
    (h : c.Converted nullable item store value abi) : abi.slot = c.slot := by
  obtain ⟨f, f', hto, -⟩ := h
  exact Conversion.toAbi_slot hto

end ForeignCall
