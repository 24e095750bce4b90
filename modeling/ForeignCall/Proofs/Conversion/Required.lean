import ForeignCall.Proofs.Conversion.CallIn

/-!
# Values that must not be null

A text, an object, a function and an array cross as addresses (`Conversion.isReference`), and only
the declaration of a value can allow null for one of them.  Where it does not, null is refused as
such, and what a conversion copies is never null: the buffer of an empty text or an empty array has
an address like any other (`Frame.isNull_hold`).

A handle is passed on as the address that it holds, and nobody asks whether that is null.  So a
required value is null exactly if the host passed a handle of the null address
(`Conversion.toAbi_required`).
-/

namespace ForeignCall

variable {value : HostValue} {abi : AbiValue} {item : String} {f f' : Frame}

/-! ### Addresses that a conversion yields -/

/-- The value is the address of a text, an object, a function or an array; null must be allowed by
the declaration. -/
def Conversion.isReference : Conversion → Bool
  | scalar .string | scalar (.handle _) | scalar (.callback _) | array _ => true
  | _ => false

/-- The slot value is an address, which is null exactly if the host value is a handle of the null
address. -/
def AbiValue.NullIfHandle (abi : AbiValue) (value : HostValue) : Prop :=
  ∃ address, abi = .pointer address ∧
    (address.isNull = true ↔ ∃ h, value = .handle h ∧ h.isNull = true)

/-- The address of a buffer is not null, not even if the buffer is empty. -/
theorem Frame.isNull_hold (f : Frame) (bytes : List Byte) :
    ∃ address, (f.hold bytes).1 = .pointer address ∧ address.isNull = false :=
  ⟨_, rfl, rfl⟩

/-- A value that is copied into a buffer is not null, and it is no handle. -/
theorem AbiValue.nullIfHandle_hold (f : Frame) (bytes : List Byte)
    (hvalue : ∀ h, value ≠ .handle h) : (f.hold bytes).1.NullIfHandle value := by
  obtain ⟨address, haddress, hnull⟩ := f.isNull_hold bytes
  refine ⟨address, haddress, ?_⟩
  rw [hnull]
  refine iff_of_false Bool.false_ne_true ?_
  rintro ⟨h, hh, -⟩
  exact hvalue h hh

/-- A handle is null exactly if the address that it holds is. -/
theorem AbiValue.nullIfHandle_handle (h : Handle) :
    (AbiValue.pointer h.address).NullIfHandle (.handle h) := by
  refine ⟨h.address, rfl, fun hnull => ⟨h, rfl, hnull⟩, ?_⟩
  rintro ⟨h', hh, hnull⟩
  obtain rfl : h = h' := HostValue.handle.inj hh
  exact hnull

/-! ### Required values -/

/-- A required text, object or function that is accepted is null only as a handle. -/
theorem ScalarConversion.nullIfHandle_of_accepts {c : ScalarConversion}
    (hc : (Conversion.scalar c).isReference = true) (h : Accepts false f c value abi f') :
    abi.NullIfHandle value := by
  cases h with
  | void | boolean | numeric | enumeration => cases hc
  | string => exact AbiValue.nullIfHandle_hold f _ (by simp)
  | handle h => exact AbiValue.nullIfHandle_handle h
  | null _ hnull =>
    rcases hnull with rfl | hnull
    · cases hc
    · cases hnull

/-- A required array that is accepted is null only as a handle. -/
theorem ArrayConversion.nullIfHandle_of_accepts {c : ArrayConversion}
    (h : c.Accepts false item f value abi f') : abi.NullIfHandle value := by
  cases h with
  | null hnull => cases hnull
  | handle h => exact AbiValue.nullIfHandle_handle h
  | @items _ _ f₁ => exact AbiValue.nullIfHandle_hold f₁ _ (by simp)

namespace Conversion

variable {c : Conversion}

/-- Null is refused for a required value, and leaves the frame as it is. -/
theorem toAbi_null_required (hc : c.isReference = true) (item : String) (f : Frame) :
    c.toAbi .null false item f = (.error (.unexpectedNull item), f) := by
  cases c with
  | scalar c => cases c <;> first | rfl | cases hc
  | array c => rfl

/-- Where null is not allowed the host value null is refused, and what is accepted is an address
that is null exactly if the host passed a handle of the null address. -/
theorem toAbi_required (hc : c.isReference = true) (item : String) (f : Frame) :
    c.toAbi .null false item f = (.error (.unexpectedNull item), f) ∧
    ∀ value abi f', c.toAbi value false item f = (.ok abi, f') →
      ∃ address, abi = .pointer address ∧
        (address.isNull = true ↔ ∃ h, value = .handle h ∧ h.isNull = true) := by
  refine ⟨toAbi_null_required hc item f, fun value abi f' h => ?_⟩
  cases c with
  | scalar c => exact ScalarConversion.nullIfHandle_of_accepts hc (ScalarConversion.toAbi_accepts h)
  | array c => exact ArrayConversion.nullIfHandle_of_accepts (ArrayConversion.toAbi_accepts h)

/-- An empty text and an empty array that must not be null are not. -/
theorem toAbi_required_sample :
    (scalar .string).isReference = true ∧
      (∃ address f', (scalar .string).toAbi (.string "") false "x" .empty =
        (.ok (.pointer address), f') ∧ address.isNull = false) ∧
    (array ⟨.handle none, .zeroTerminated⟩).isReference = true ∧
      ∃ address f', (array ⟨.handle none, .zeroTerminated⟩).toAbi (.array []) false "x" .empty =
        (.ok (.pointer address), f') ∧ address.isNull = false := by
  obtain ⟨-, htext⟩ := @toAbi_required (scalar .string) rfl "x" .empty
  obtain ⟨-, harray⟩ := @toAbi_required (array ⟨.handle none, .zeroTerminated⟩) rfl "x" .empty
  refine ⟨rfl, ?_, rfl, ?_⟩
  · obtain ⟨address, habi, hnull⟩ := htext (.string "") _ _ rfl
    refine ⟨address, _, Prod.ext (congrArg Except.ok habi) rfl, ?_⟩
    rw [Bool.eq_false_iff, Ne, hnull]
    simp
  · obtain ⟨address, habi, hnull⟩ := harray (.array []) _ _ rfl
    refine ⟨address, _, Prod.ext (congrArg Except.ok habi) rfl, ?_⟩
    rw [Bool.eq_false_iff, Ne, hnull]
    simp

/-- A handle of the null address is passed as null where null is not allowed. -/
theorem null_handle_passes_as_required :
    ∃ f', (scalar (.handle (.unqualified "Widget"))).toAbi
        (.handle ⟨.null, some (.unqualified "Widget")⟩) false "parameter 'widget'" .empty =
      (.ok .null, f') ∧
    (scalar (.handle (.unqualified "Widget"))).toAbi .null false "parameter 'widget'" .empty =
      (.error (.unexpectedNull "parameter 'widget'"), .empty) :=
  ⟨_, rfl, rfl⟩

end Conversion

end ForeignCall
