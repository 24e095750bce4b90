import ForeignCall.Proofs.Conversion.CallIn

/-!
# Conversions in different frames

A conversion puts texts and elements into buffers of the frame, so the address that it yields
depends on how many buffers are there already.  Nothing else does: two frames reject the same values
with the same errors, and what they make of a value that both accept is the same but for the number
of the buffer (`Conversion.map_anonymous_toAbi`).

The one place where a conversion looks at slot values is the search for a terminator among converted
elements.  It asks whether they are zero, which no address of a buffer is, whatever its number.
-/

namespace ForeignCall

variable {value : HostValue} {nullable : Bool} {item : String} {e : MarshalError}

/-! ### Values but for their buffers -/

/-- The value with the number of the buffer forgotten, if it is the address of one. -/
def AbiValue.anonymous : AbiValue → AbiValue
  | pointer (.owned (.buffer _) offset) => pointer (.owned (.buffer 0) offset)
  | value => value

namespace AbiValue

/-- No address of a buffer is null, whatever the number of the buffer. -/
@[simp] theorem isZero_anonymous (value : AbiValue) : value.anonymous.isZero = value.isZero := by
  unfold anonymous
  split
  · simp [isZero, Address.isNull, Address.null]
  · rfl

/-- No address of a buffer is an integer. -/
@[simp] theorem toInt64?_anonymous (value : AbiValue) :
    value.anonymous.toInt64? = value.toInt64? := by
  unfold anonymous
  split <;> rfl

/-- Whether and where there is a zero among values does not depend on the numbers of buffers. -/
theorem findIdx?_isZero_eq {values values' : List AbiValue}
    (h : values.map anonymous = values'.map anonymous) :
    values.findIdx? (·.isZero) = values'.findIdx? (·.isZero) := by
  have hforget : ∀ l : List AbiValue,
      l.findIdx? (·.isZero) = (l.map anonymous).findIdx? (·.isZero) := by
    intro l
    rw [List.findIdx?_map]
    congr 1
    funext value
    exact (isZero_anonymous value).symm
  rw [hforget values, hforget values', h]

end AbiValue

/-- Results of steps in two frames that agree up to `g` are the same error, or values that agree up
to `g`. -/
theorem same_error_or_ok {α β : Type} {g : α → β} {x y : Except MarshalError α × Frame}
    (h : x.1.map g = y.1.map g) :
    (∃ e f f', x = (.error e, f) ∧ y = (.error e, f')) ∨
      ∃ a b f f', x = (.ok a, f) ∧ y = (.ok b, f') ∧ g a = g b := by
  obtain ⟨e | a, f⟩ := x <;> obtain ⟨e' | b, f'⟩ := y
  case error.error =>
    obtain rfl : e = e' := Except.error.inj h
    exact .inl ⟨e, f, f', rfl, rfl⟩
  case ok.ok => exact .inr ⟨a, b, f, f', rfl, rfl, Except.ok.inj h⟩
  all_goals cases h

/-! ### Scalars -/

/-- A text is kept or rejected in all frames alike. -/
theorem map_anonymous_stringToAbi (text : String) (f f' : Frame) :
    (stringToAbi text f).1.map AbiValue.anonymous =
      (stringToAbi text f').1.map AbiValue.anonymous := by
  unfold stringToAbi
  cases (Text.utf8 text).idxOf? 0 with
  | some position => rfl
  | none => rfl

namespace ScalarConversion

/-- A scalar is converted or rejected in all frames alike. -/
theorem map_anonymous_toAbi (c : ScalarConversion) (value : HostValue) (nullable : Bool)
    (item : String) (f f' : Frame) :
    (c.toAbi value nullable item f).1.map AbiValue.anonymous =
      (c.toAbi value nullable item f').1.map AbiValue.anonymous := by
  cases c with
  | string =>
    cases value with
    | string text => exact map_anonymous_stringToAbi text f f'
    | _ => rfl
  | _ => cases value <;> rfl

/-- Elements are converted, or the first of them that is not accepted is rejected, in all frames
alike. -/
theorem map_anonymous_toAbiAll (c : ScalarConversion) (nullable : Bool) (item : String)
    (values : List HostValue) (f f' : Frame) :
    (c.toAbiAll nullable item values f).1.map (List.map AbiValue.anonymous) =
      (c.toAbiAll nullable item values f').1.map (List.map AbiValue.anonymous) := by
  induction values generalizing f f' with
  | nil => rfl
  | cons value rest ih =>
    rcases same_error_or_ok (c.map_anonymous_toAbi value nullable item f f') with
      ⟨e, f₁, f₁', hfirst, hfirst'⟩ | ⟨first, first', f₁, f₁', hfirst, hfirst', hvalue⟩
    · rw [toAbiAll_cons_error hfirst, toAbiAll_cons_error hfirst']
    · rw [toAbiAll_cons_ok hfirst, toAbiAll_cons_ok hfirst']
      rcases same_error_or_ok (ih f₁ f₁') with
        ⟨e, f₂, f₂', hrest, hrest'⟩ | ⟨others, others', f₂, f₂', hrest, hrest', hothers⟩
      · simp only [hrest, hrest', Except.map]
      · simp only [hrest, hrest', Except.map, List.map_cons, hvalue, hothers]

end ScalarConversion

/-! ### Arrays -/

namespace ArrayConversion

variable {values values' : List AbiValue}

/-- Elements are kept, or found to end the array early, in all frames alike. -/
theorem map_anonymous_holdElements (c : ArrayConversion) (f f' : Frame)
    (h : values.map AbiValue.anonymous = values'.map AbiValue.anonymous) :
    (c.holdElements values f).1.map AbiValue.anonymous =
      (c.holdElements values' f').1.map AbiValue.anonymous := by
  have hindex := AbiValue.findIdx?_isZero_eq h
  unfold holdElements
  by_cases hz : c.length.isZeroTerminated = true
  · rw [if_pos hz, if_pos hz, hindex]
    cases values'.findIdx? (·.isZero) with
    | some index => rfl
    | none => rfl
  · rw [if_neg hz, if_neg hz]
    rfl

/-- The elements of a host array are converted or rejected in all frames alike. -/
theorem map_anonymous_itemsToAbi (c : ArrayConversion) (items : List HostValue) (item : String)
    (f f' : Frame) :
    (c.itemsToAbi items item f).1.map AbiValue.anonymous =
      (c.itemsToAbi items item f').1.map AbiValue.anonymous := by
  have hall := c.element.scalar.map_anonymous_toAbiAll c.element.isNullable item items f f'
  rcases same_error_or_ok hall with
    ⟨e, f₁, f₁', hitems, hitems'⟩ | ⟨values, values', f₁, f₁', hitems, hitems', hvalues⟩
  · simp only [itemsToAbi, hitems, hitems']
  · simp only [itemsToAbi, hitems, hitems']
    exact c.map_anonymous_holdElements f₁ f₁' hvalues

/-- An array is converted or rejected in all frames alike. -/
theorem map_anonymous_toAbi (c : ArrayConversion) (value : HostValue) (nullable : Bool)
    (item : String) (f f' : Frame) :
    (c.toAbi value nullable item f).1.map AbiValue.anonymous =
      (c.toAbi value nullable item f').1.map AbiValue.anonymous := by
  cases value with
  | array items =>
    have hitems := c.map_anonymous_itemsToAbi items item f f'
    unfold toAbi
    cases c.length with
    | fixed count =>
      by_cases hcount : items.length = count
      · simpa only [if_pos hcount] using hitems
      · simp only [if_neg hcount]
    | _ => exact hitems
  | _ => rfl

end ArrayConversion

/-! ### All conversions -/

namespace Conversion

variable {c : Conversion}

/-- What becomes of a host value is the same in all frames, but for the number of the buffer that it
may be kept in. -/
theorem map_anonymous_toAbi (c : Conversion) (value : HostValue) (nullable : Bool) (item : String)
    (f f' : Frame) :
    (c.toAbi value nullable item f).1.map AbiValue.anonymous =
      (c.toAbi value nullable item f').1.map AbiValue.anonymous := by
  cases c with
  | scalar c => exact c.map_anonymous_toAbi value nullable item f f'
  | array c => exact c.map_anonymous_toAbi value nullable item f f'

/-- A value that is rejected in one frame is rejected in every other, with the same error. -/
theorem toAbi_eq_error {f : Frame} (h : (c.toAbi value nullable item f).1 = .error e)
    (f' : Frame) : (c.toAbi value nullable item f').1 = .error e := by
  rcases same_error_or_ok (c.map_anonymous_toAbi value nullable item f f') with
    ⟨e', f₁, f₁', hto, hto'⟩ | ⟨abi, abi', f₁, f₁', hto, -, -⟩
  · rw [hto] at h
    rw [hto', h]
  · rw [hto] at h
    cases h

/-- A value that is accepted in one frame is accepted in every other, and stands for the same
integer if it stands for any. -/
theorem exists_toAbi_eq_ok {f : Frame} {abi : AbiValue}
    (h : (c.toAbi value nullable item f).1 = .ok abi) (f' : Frame) :
    ∃ abi', (c.toAbi value nullable item f').1 = .ok abi' ∧ abi'.toInt64? = abi.toInt64? := by
  rcases same_error_or_ok (c.map_anonymous_toAbi value nullable item f f') with
    ⟨e, f₁, f₁', hto, -⟩ | ⟨abi₁, abi', f₁, f₁', hto, hto', hvalue⟩
  · rw [hto] at h
    cases h
  · rw [hto] at h
    obtain rfl : abi₁ = abi := Except.ok.inj h
    refine ⟨abi', by rw [hto'], ?_⟩
    rw [← abi'.toInt64?_anonymous, ← hvalue, abi₁.toInt64?_anonymous]

end Conversion

end ForeignCall
