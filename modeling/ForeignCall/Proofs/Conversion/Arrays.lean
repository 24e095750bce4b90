import ForeignCall.Proofs.Conversion.Independence
import ForeignCall.Proofs.Conversion.Reading

/-!
# Host arrays as arguments

What becomes of a host array follows from what becomes of each of its items on its own
(`ElementConversion.alone`).  Three things can go wrong, and they are looked for one after another:
the number of items is not the declared one, an item is not accepted, and, in an array that ends at
a zero element, an item is converted into zero.  So an item that is not accepted is reported even
where a zero stands in front of it.

Otherwise all elements are found in a new buffer, at multiples of the size of their slot
(`Frame.PackedInto`).  The step that fills the buffer would pass over a value of another slot, and
nothing is lost only because every element is converted into the slot of the buffer
(`ArrayConversion.holdBuffer_contents`).  The result is `ArrayConversion.toAbi_callsIn`.
-/

namespace ForeignCall

variable {item : String} {f f' : Frame}

/-! ### Items on their own -/

namespace ElementConversion

/-- What becomes of an item that is converted on its own.  The frame makes no difference but for the
number of the buffer that a text is kept in. -/
def alone (c : ElementConversion) (item : String) (host : HostValue) :
    Except MarshalError AbiValue :=
  (c.scalar.toAbi host c.isNullable item .empty).1

variable {c : ElementConversion} {host : HostValue}

/-- An item is rejected in every frame as it is on its own. -/
theorem toAbi_of_alone_error {e : MarshalError} (h : c.alone item host = .error e) (f : Frame) :
    (c.scalar.toAbi host c.isNullable item f).1 = .error e :=
  Conversion.toAbi_eq_error (c := .scalar c.scalar) h f

/-- An item that is accepted on its own is accepted in every frame, and is zero in both or in
neither. -/
theorem toAbi_of_alone_ok {v : AbiValue} (h : c.alone item host = .ok v) (f : Frame) :
    ∃ v' f', c.scalar.toAbi host c.isNullable item f = (.ok v', f') ∧ v'.isZero = v.isZero := by
  have hsame := c.scalar.map_anonymous_toAbi host c.isNullable item .empty f
  rcases same_error_or_ok hsame with ⟨e, f₁, f₂, halone, -⟩ | ⟨w, v', f₁, f₂, halone, hto, hv⟩
  · rw [alone, halone] at h
    cases h
  · rw [alone, halone] at h
    obtain rfl : w = v := Except.ok.inj h
    have hzero : v'.isZero = w.isZero := by
      rw [← v'.isZero_anonymous, ← hv, w.isZero_anonymous]
    exact ⟨v', f₂, hto, hzero⟩

/-- The slot value comes from an item that is accepted on its own, and is zero if that one is. -/
def SameZero (c : ElementConversion) (item : String) (host : HostValue) (v : AbiValue) : Prop :=
  ∃ w, c.alone item host = .ok w ∧ v.isZero = w.isZero

/-- Items that are accepted on their own are accepted one after another. -/
theorem exists_toAbiAll {items : List HostValue} (h : ∀ i ∈ items, ∃ v, c.alone item i = .ok v)
    (f : Frame) :
    ∃ values f', c.scalar.toAbiAll c.isNullable item items f = (.ok values, f') ∧
      List.Forall₂ (c.SameZero item) items values := by
  induction items generalizing f with
  | nil => exact ⟨[], f, rfl, .nil⟩
  | cons first rest ih =>
    obtain ⟨w, hw⟩ := h first (by simp)
    have hrest : ∀ i ∈ rest, ∃ v, c.alone item i = .ok v := fun i hi => h i (by simp [hi])
    obtain ⟨v, f₁, hto, hzero⟩ := toAbi_of_alone_ok hw f
    obtain ⟨others, f₂, hall, hsame⟩ := ih hrest f₁
    refine ⟨v :: others, f₂, ?_, .cons ⟨w, hw, hzero⟩ hsame⟩
    rw [ScalarConversion.toAbiAll_cons_ok hto, hall]
    rfl

/-- Among items the first that is not accepted on its own decides how the conversion fails. -/
theorem toAbiAll_of_rejected {before after : List HostValue} {e : MarshalError}
    (hbefore : ∀ b ∈ before, ∃ v, c.alone item b = .ok v) (hhost : c.alone item host = .error e)
    (f : Frame) :
    (c.scalar.toAbiAll c.isNullable item (before ++ host :: after) f).1 = .error e := by
  induction before generalizing f with
  | nil =>
    have hto : c.scalar.toAbi host c.isNullable item f =
        (.error e, (c.scalar.toAbi host c.isNullable item f).2) :=
      Prod.ext (toAbi_of_alone_error hhost f) rfl
    rw [List.nil_append, ScalarConversion.toAbiAll_cons_error hto]
  | cons b before ih =>
    obtain ⟨w, hw⟩ := hbefore b (by simp)
    obtain ⟨v, f₁, hto, -⟩ := toAbi_of_alone_ok hw f
    have hrest := ih (fun b' hb' => hbefore b' (by simp [hb'])) f₁
    rw [List.cons_append, ScalarConversion.toAbiAll_cons_ok hto, hrest]
    rfl

/-- The first converted element that is zero comes from the first item that is zero on its own. -/
theorem findIdx?_isZero {before after : List HostValue} {values : List AbiValue} {w : AbiValue}
    (hvalues : List.Forall₂ (c.SameZero item) (before ++ host :: after) values)
    (hbefore : ∀ b ∈ before, ∀ v, c.alone item b = .ok v → ¬ v.IsZero)
    (hhost : c.alone item host = .ok w) (hzero : w.IsZero) :
    values.findIdx? (·.isZero) = some before.length := by
  induction before generalizing values with
  | nil =>
    rcases hvalues with _ | ⟨⟨w', hw', hsame⟩, -⟩
    rw [hhost] at hw'
    obtain rfl : w = w' := Except.ok.inj hw'
    simp [List.findIdx?_cons, hsame, AbiValue.isZero_iff.mpr hzero]
  | cons b before ih =>
    rcases hvalues with _ | @⟨_, v, _, rest, ⟨w', hw', hsame⟩, hrest⟩
    have hnonzero : w'.isZero = false :=
      AbiValue.isZero_eq_false_iff.mpr (hbefore b (by simp) w' hw')
    have hfound := ih hrest fun b' hb' => hbefore b' (by simp [hb'])
    simp [List.findIdx?_cons, hsame, hnonzero, hfound]

/-- Items none of which is zero on its own are converted into elements none of which is zero. -/
theorem isZero_eq_false {items : List HostValue} {values : List AbiValue}
    (hvalues : List.Forall₂ (c.SameZero item) items values)
    (hitems : ∀ i ∈ items, ∀ w, c.alone item i = .ok w → ¬ w.IsZero) :
    ∀ v ∈ values, v.isZero = false := by
  induction hvalues with
  | nil => simp
  | @cons first v rest values hfirst _ ih =>
    obtain ⟨w, hw, hsame⟩ := hfirst
    have hw' : w.isZero = false := AbiValue.isZero_eq_false_iff.mpr (hitems first (by simp) w hw)
    have hrest := ih fun i hi => hitems i (by simp [hi])
    exact List.forall_mem_cons.mpr ⟨hsame.trans hw', hrest⟩

end ElementConversion

/-! ### Elements in a buffer -/

/-- The frame `f'` is `f` with buffers added.  The last of them holds the values, one after another
at multiples of the size of the slot (`Slot.Row`) and nothing else, and `abi` is its address. -/
structure Frame.PackedInto (f f' : Frame) (s : Slot) (values : List AbiValue) (abi : AbiValue) :
    Prop where
  /-- Nothing that was there is touched. -/
  grows : f.Grows f'
  /-- The buffer is a new one, and no other part of the conversion uses it. -/
  buffer : ∃ before bytes, f.storage.buffers <+: before ∧
    f'.storage.buffers = before ++ [bytes] ∧
    abi = .pointer (.owned (.buffer before.length) 0) ∧
    bytes.length = values.length * s.size ∧ s.Row values bytes

/-- Keeping the bytes of values of one slot packs them into a new buffer. -/
theorem Frame.packedInto_hold {f₁ : Frame} {s : Slot} {values : List AbiValue} (hgrows : f.Grows f₁)
    (hslot : ∀ v ∈ values, v.slot = s) :
    f.PackedInto (f₁.hold (elementBytes values)).2 s values (f₁.hold (elementBytes values)).1 where
  grows := hgrows.trans (f₁.hold_grows _)
  buffer := by
    have hrow := Slot.row_elementBytes hslot []
    rw [List.append_nil] at hrow
    exact ⟨f₁.storage.buffers, elementBytes values, hgrows.buffers, rfl, rfl,
      length_elementBytes hslot, hrow⟩

/-! ### Arrays -/

theorem ArrayLength.isZeroTerminated_iff {length : ArrayLength} :
    length.isZeroTerminated = true ↔ length = .zeroTerminated := by
  cases length <;> simp [isZeroTerminated]

namespace ArrayConversion

variable {c : ArrayConversion} {items : List HostValue}

/-- The array may have this number of items: a declared number must be met. -/
def Admits (c : ArrayConversion) (count : Nat) : Prop :=
  ∀ n, c.length = .fixed n → count = n

/-- What becomes of a host array, told by what becomes of its items on their own. -/
structure CallsIn (c : ArrayConversion) (items : List HostValue) (item : String) (f : Frame)
    (result : Except MarshalError AbiValue × Frame) : Prop where
  /-- Another number of items than the declared one is refused before any of them is converted. -/
  wrongLength : ∀ n, c.length = .fixed n → items.length ≠ n →
    result = (.error (.arrayLengthMismatch n items.length), f)
  /-- The first item that is not accepted is refused. -/
  rejected : c.Admits items.length → ∀ before host after e, items = before ++ host :: after →
    (∀ b ∈ before, ∃ v, c.element.alone item b = .ok v) → c.element.alone item host = .error e →
    result.1 = .error e
  /-- The first element that would end the array early is refused if all items are accepted. -/
  terminator : c.length = .zeroTerminated → (∀ i ∈ items, ∃ v, c.element.alone item i = .ok v) →
    ∀ before host after v, items = before ++ host :: after →
    (∀ b ∈ before, ∀ w, c.element.alone item b = .ok w → ¬ w.IsZero) →
    c.element.alone item host = .ok v → v.IsZero →
    result.1 = .error (.terminatorInArray before.length)
  /-- Otherwise the elements are packed into a new buffer, in order, and behind them one zero if the
  array ends at a zero. -/
  packed : c.Admits items.length →
    (∀ i ∈ items, ∃ v, c.element.alone item i = .ok v ∧
      (c.length = .zeroTerminated → ¬ v.IsZero)) →
    ∃ values abi, result.1 = .ok abi ∧
      List.Forall₂ ((Conversion.scalar c.element.scalar).Converted c.element.isNullable item
        result.2.storage) items values ∧
      f.PackedInto result.2 c.element.slot
        (values ++ if c.length = .zeroTerminated then [.zero c.element.slot] else []) abi

/-- An array of an admitted number of items is converted item by item. -/
theorem toAbi_of_admits (h : c.Admits items.length) (nullable : Bool) (item : String) (f : Frame) :
    c.toAbi (.array items) nullable item f = c.itemsToAbi items item f := by
  unfold toAbi
  dsimp only
  split
  · rename_i count hcount
    rw [if_pos (h count hcount)]
  · rfl

/-- Elements among which no terminator is found are all kept, and the terminator with them. -/
theorem holdElements_of_slot {values : List AbiValue}
    (hslot : ∀ v ∈ values, v.slot = c.element.slot)
    (hzero : c.length = .zeroTerminated → ∀ v ∈ values, v.isZero = false) (f : Frame) :
    c.holdElements values f =
      (.ok (f.hold (elementBytes (c.contents values))).1,
        (f.hold (elementBytes (c.contents values))).2) := by
  -- All values stand in the slot of the buffer, so filling it passes over none of them.
  rw [← c.holdBuffer_contents hslot]
  unfold holdElements
  by_cases hz : c.length.isZeroTerminated = true
  · have hnone : values.findIdx? (·.isZero) = none := by
      simpa using hzero (ArrayLength.isZeroTerminated_iff.mp hz)
    rw [if_pos hz, hnone]
    simp [contents, hz]
  · rw [if_neg hz]
    simp [contents, hz]

/-- Elements among which no terminator is found are packed into a new buffer. -/
theorem packedInto_holdElements {values : List AbiValue} {f₁ : Frame} (hgrows : f.Grows f₁)
    (hslot : ∀ v ∈ values, v.slot = c.element.slot)
    (hzero : c.length = .zeroTerminated → ∀ v ∈ values, v.isZero = false) :
    ∃ abi f', c.holdElements values f₁ = (.ok abi, f') ∧ f₁.Grows f' ∧
      f.PackedInto f' c.element.slot (c.contents values) abi := by
  have hcontents := c.slot_of_mem_contents hslot
  exact ⟨_, _, holdElements_of_slot hslot hzero f₁, f₁.hold_grows _,
    Frame.packedInto_hold hgrows hcontents⟩

/-- A host array is refused for its length, for its first item that is not accepted or for its
first element that would end it early, in this order, and else stands in a new buffer without
anything left out. -/
theorem toAbi_callsIn (c : ArrayConversion) (items : List HostValue) (nullable : Bool)
    (item : String) (f : Frame) :
    c.CallsIn items item f (c.toAbi (.array items) nullable item f) where
  wrongLength n hn hcount := by
    simp only [toAbi, hn]
    rw [if_neg hcount]
  rejected hlength before host after e hitems hbefore hhost := by
    have hall : c.element.scalar.toAbiAll c.element.isNullable item items f =
        (.error e, (c.element.scalar.toAbiAll c.element.isNullable item items f).2) := by
      refine Prod.ext ?_ rfl
      rw [hitems]
      exact ElementConversion.toAbiAll_of_rejected hbefore hhost f
    rw [toAbi_of_admits hlength, itemsToAbi, hall]
  terminator hlength hitems before host after v hsplit hbefore hhost hzero := by
    have hadmits : c.Admits items.length := fun n hn => by simp [hlength] at hn
    obtain ⟨values, f₁, hall, hsame⟩ := ElementConversion.exists_toAbiAll hitems f
    have hfound : values.findIdx? (·.isZero) = some before.length :=
      ElementConversion.findIdx?_isZero (hsplit ▸ hsame) hbefore hhost hzero
    rw [toAbi_of_admits hadmits, itemsToAbi, hall]
    simp only [holdElements, ArrayLength.isZeroTerminated_iff.mpr hlength, if_true, hfound]
  packed hlength hitems := by
    have haccepted : ∀ i ∈ items, ∃ v, c.element.alone item i = .ok v := fun i hi => by
      obtain ⟨v, hv, -⟩ := hitems i hi
      exact ⟨v, hv⟩
    obtain ⟨values, f₁, hall, hsame⟩ := ElementConversion.exists_toAbiAll haccepted f
    have hconverted := ScalarConversion.toAbiAll_converted hall
    have hslot := ElementConversion.slot_of_converted hconverted
    have hgrows : f.Grows f₁ := by
      have hall' := c.element.scalar.toAbiAll_grows c.element.isNullable item items f
      rwa [hall] at hall'
    have hzero : c.length = .zeroTerminated → ∀ v ∈ values, v.isZero = false := by
      intro hz
      refine ElementConversion.isZero_eq_false hsame fun i hi w hw => ?_
      obtain ⟨w', hw', hnonzero⟩ := hitems i hi
      rw [hw] at hw'
      obtain rfl : w = w' := Except.ok.inj hw'
      exact hnonzero hz
    obtain ⟨abi, f', hheld, hgrows', hpacked⟩ := packedInto_holdElements hgrows hslot hzero
    have hresult : c.toAbi (.array items) nullable item f = (.ok abi, f') := by
      rw [toAbi_of_admits hlength, itemsToAbi, hall]
      exact hheld
    rw [hresult]
    refine ⟨values, abi, rfl, hconverted.imp fun i v hv => hv.extends hgrows'.extends, ?_⟩
    simpa only [contents, ArrayLength.isZeroTerminated_iff] using hpacked

-- The zero in front is not what the array is refused for.
example : (toAbi ⟨.numeric .i32, .zeroTerminated⟩ (.array [.int 0, .bool true]) false "flags"
    .empty).1 = .error (.typeMismatch "int" "bool") := by
  decide

end ArrayConversion

end ForeignCall
