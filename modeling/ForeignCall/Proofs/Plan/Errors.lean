import ForeignCall.Proofs.Frame.Errors
import ForeignCall.Proofs.Plan.ArrayResults

/-!
# Reported errors

When a call is over its result is converted (`CallablePlan.convertReturn`), unless the callee
reported an error, which then takes the place of the result.  The error is taken from the frame, and
nothing else is (`Frame.ErrorTaken`): taking it stores the null address in its cell, and no two
arguments share a cell.  So the same error is not reported again, and what the callee left in the
other cells is still there.

No conversion fails with an error of a callee (`Conversion.unreported_fromAbi`), so such an error
always comes from the callee, and never from a callable that does not throw.

`CallablePlan.marshalArgs_reportsErrors` says all this of the frame of a call, whatever has been
stored since it was made.
-/

namespace ForeignCall

variable {p : Planner} {c : Callable} {plan : CallablePlan} {args : List HostValue}
  {f after : Frame}

/-! ### Conversions report no errors of callees -/

/-- The result is not the error of a callee. -/
def Unreported {α : Type} (result : Except MarshalError α) : Prop :=
  ∀ domain code text, result ≠ .error (.native domain code text)

namespace Unreported

variable {α β : Type}

theorem ok (a : α) : Unreported (.ok a) := fun _ _ _ h => by cases h

/-- Whether an error is one of a callee does not depend on the result that it stands in for. -/
theorem of_error {e : MarshalError} {result : Except MarshalError α} (h : Unreported result)
    (hresult : result = .error e) : Unreported (.error e : Except MarshalError β) := by
  intro domain code text heq
  exact h domain code text (hresult.trans (congrArg Except.error (Except.error.inj heq)))

/-- Going on with a result reports nothing. -/
theorem map {result : Except MarshalError α} (h : Unreported result) (g : α → β) :
    Unreported (result.map g) := by
  cases hresult : result with
  | error e => exact h.of_error hresult
  | ok a => exact .ok (g a)

end Unreported

/-- A value of another slot is no error of a callee. -/
theorem unreported_slotMismatch {α : Type} (expected : String) (value : AbiValue) :
    Unreported (.error (slotMismatch expected value) : Except MarshalError α) := by
  intro domain code text heq
  cases heq

/-- A slot that holds no address is no error of a callee. -/
theorem AbiValue.unreported_address (value : AbiValue) : Unreported value.address := by
  unfold address
  split
  · exact .ok _
  · exact unreported_slotMismatch _ value

/-- Texts that cannot be read are no error of a callee. -/
theorem Memory.unreported_readString (m : Memory) (a : Address) : Unreported (m.readString a) := by
  intro domain code text heq
  unfold readString at heq
  split at heq
  · cases heq
  · split at heq <;> cases heq

/-- Converting a slot value reports no error of a callee. -/
theorem ScalarConversion.unreported_fromAbi (c : ScalarConversion) (m : Memory)
    (value : AbiValue) : Unreported (c.fromAbi m value) := by
  cases c <;> simp only [fromAbi]
  case void => exact .ok _
  case boolean | enumeration =>
    split
    · exact .ok _
    · exact unreported_slotMismatch _ value
  case numeric slot =>
    split <;> split
    · exact .ok _
    · exact unreported_slotMismatch _ value
    · exact .ok _
    · exact unreported_slotMismatch _ value
  case string =>
    split
    · exact value.unreported_address.of_error ‹_›
    · split
      · exact .ok _
      · exact (m.unreported_readString _).map _
  case pointer | handle | callback => exact value.unreported_address.map _

/-- Neither does converting elements. -/
theorem ElementConversion.unreported_fromAbiAll (c : ElementConversion) (m : Memory) (count : Nat)
    (bytes : List Byte) : Unreported (c.fromAbiAll m count bytes) := by
  induction count generalizing bytes with
  | zero => exact .ok []
  | succ count ih =>
    unfold fromAbiAll
    split
    · exact fun _ _ _ h => by cases h
    · split
      · exact (c.scalar.unreported_fromAbi m _).of_error ‹_›
      · exact (ih _).map _

/-- Neither does converting an array. -/
theorem ArrayConversion.unreported_fromAbi (c : ArrayConversion) (m : Memory) (value : AbiValue)
    (length : Option Nat) : Unreported (c.fromAbi m value length) := by
  have hcount (a : Address) : Unreported (c.count m a length) := by
    intro domain code text heq
    unfold count at heq
    split at heq
    · cases heq
    · split at heq <;> cases heq
    · split at heq <;> cases heq
    · cases heq
  unfold fromAbi
  split
  · exact value.unreported_address.of_error ‹_›
  · unfold fromAddress
    split
    · exact .ok _
    · split
      · exact (hcount _).of_error ‹_›
      · exact .ok _
      · exact (c.element.unreported_fromAbiAll m _ _).map _

/-- Neither does any conversion. -/
theorem Conversion.unreported_fromAbi (c : Conversion) (m : Memory) (value : AbiValue)
    (length : Option Nat) : Unreported (c.fromAbi m value length) := by
  cases c with
  | scalar conversion => exact conversion.unreported_fromAbi m value
  | array conversion => exact conversion.unreported_fromAbi m value length

/-! ### Taking an error -/

/-- The error is gone from the frame, and all else that can be asked of it is as before. -/
structure Frame.ErrorTaken (before after : Frame) : Prop where
  errorAddress_eq : after.errorAddress = .null
  args_eq : after.args = before.args
  outValue_eq : ∀ index, after.outValue? index = before.outValue? index
  declaredArg_eq : ∀ index, after.declaredArg? index = before.declaredArg? index
  arrayLength_eq : ∀ index, after.arrayLength? index = before.arrayLength? index
  heldBytes_eq : after.heldBytes = before.heldBytes

/-- Where there is no error none is taken. -/
theorem Frame.ErrorTaken.refl (h : f.errorAddress = .null) : f.ErrorTaken f where
  errorAddress_eq := h
  args_eq := rfl
  outValue_eq _ := rfl
  declaredArg_eq _ := rfl
  arrayLength_eq _ := rfl
  heldBytes_eq := rfl

namespace CallablePlan

/-- Clearing the cell for an error is a store that the callee could make itself, of the null
address. -/
theorem HasCells.write_null (h : plan.HasCells f) (hthrows : plan.throws = true)
    (native : Native) : f.write native (.error .null) = (native, f.clearError) := by
  have hfits : (CalleeWrite.error .null).Fits plan := hthrows
  obtain ⟨cell, hcell, -, hwrite⟩ := h.write_error hfits native
  rw [hwrite, Frame.clearError_eq_setCell hcell]

/-- Clearing the cell for an error takes the error and nothing else. -/
theorem HasCells.errorTaken_clearError (h : plan.HasCells f) (hthrows : plan.throws = true) :
    f.ErrorTaken f.clearError := by
  have hfits : (CalleeWrite.error .null).Fits plan := hthrows
  have hconfined := h.confined hfits []
  have herror := h.errorAddress_write hfits []
  rw [h.write_null hthrows] at hconfined herror
  have harguments : f.clearError.arguments = f.arguments := hconfined.arguments_eq
  have hbuffers : f.clearError.storage.buffers = f.storage.buffers := hconfined.buffers_eq
  have hout : ∀ index, f.clearError.outValue? index = f.outValue? index :=
    fun index => hconfined.outValue_eq index rfl
  have hdeclared : ∀ index, f.clearError.declaredArg? index = f.declaredArg? index := by
    intro index
    simp only [Frame.declaredArg?, Frame.declared?, harguments]
  constructor
  case errorAddress_eq => exact herror
  case args_eq => simp only [Frame.args, harguments]
  case outValue_eq => exact hout
  case declaredArg_eq => exact hdeclared
  case arrayLength_eq =>
    intro index
    simp only [Frame.arrayLength?_eq, Frame.content?, hout, hdeclared]
  case heldBytes_eq => simp only [Frame.heldBytes, hbuffers]

/-- A callable that does not throw has no error to report, whatever is stored. -/
theorem errorAddress_of_not_throws (hargs : plan.marshalArgs args = .ok f)
    (hafter : f.Rewritten after) (hthrows : plan.throws = false) : after.errorAddress = .null := by
  obtain ⟨receiver, declared, error, hmarshalled⟩ := marshalArgs_marshalled hargs
  have hcell : after.errorCell? = none := by
    have hbefore := hmarshalled.errorCell?_eq
    rw [if_neg (by simp [hthrows])] at hbefore
    rw [Frame.errorCell?, hafter.arguments_eq]
    exact hbefore
  rw [Frame.errorAddress, hcell]
  rfl

/-! ### The result of a call -/

/-- The native result as the host sees it where no error is reported. -/
def convertReturn (plan : CallablePlan) (native : Native) (f : Frame) (value : AbiValue) :
    Except MarshalError HostValue :=
  plan.result.conversion.fromAbi (f.memory native) value (arrayLength? plan.result.conversion f)

/-- A reported error takes the place of the result, and leaves a frame without it. -/
theorem unmarshalReturn_of_ne_null (hthrows : plan.throws = true) (h : f.errorAddress ≠ .null)
    (native : Native) (value : AbiValue) : plan.unmarshalReturn native f value =
      (.error ((f.clearError.memory native).errorRecord f.errorAddress), f.clearError) := by
  rw [unmarshalReturn, if_pos hthrows, Frame.takeError_of_ne_null h]

/-- A throwing callable reports the error whose record the callee left, with what is left of its
message when the cell for the error has been cleared. -/
theorem HasCells.unmarshalReturn_reported {domain : UInt32} {code : Int32} {text : Address}
    {message : String} (h : plan.HasCells f) (hthrows : plan.throws = true)
    (hne : f.errorAddress ≠ .null) (native : Native)
    (herror : (f.memory native).HasError f.errorAddress domain code text)
    (hmessage : (f.clearError.memory native).HasMessage text message) (value : AbiValue) :
    (plan.unmarshalReturn native f value).1 = .error (.native domain code message) := by
  obtain ⟨cell, -, hcell, hlength⟩ := h.error hthrows
  have hrecord : (f.clearError.memory native).HasError f.errorAddress domain code text :=
    Frame.hasError_clearError hcell hlength native herror
  rw [unmarshalReturn_of_ne_null hthrows hne, hrecord.errorRecord hmessage]

/-- How errors are reported from a frame. -/
structure ReportsErrors (plan : CallablePlan) (f : Frame) : Prop where
  /-- The error of a throwing callable is the one whose address the callee stores. -/
  stored : plan.throws = true → ∀ native a,
    (f.write native (.error a)).2.errorAddress = a
  /-- A callable that does not throw reports none. -/
  silent : plan.throws = false → f.errorAddress = .null ∧
    ∀ native value, Unreported (plan.unmarshalReturn native f value).1
  /-- Where no error is reported, the result is converted. -/
  converted : f.errorAddress = .null → ∀ native value,
    plan.unmarshalReturn native f value = (plan.convertReturn native f value, f)
  /-- Where one is, it takes the place of every result. -/
  reported : f.errorAddress ≠ .null → ∀ native domain code text message,
    (f.memory native).HasError f.errorAddress domain code text →
    (f.memory native).HasMessage text message → ¬ f.InErrorCell text →
    ∀ value, (plan.unmarshalReturn native f value).1 = .error (.native domain code message)
  /-- So it does with a message that stands in the cell for the error, of which nothing is left. -/
  reported_cleared : f.errorAddress ≠ .null → ∀ native domain code text message,
    (f.memory native).HasError f.errorAddress domain code text →
    (f.memory native).HasMessage text message → f.InErrorCell text →
    ∀ value, (plan.unmarshalReturn native f value).1 = .error (.native domain code "")
  /-- Afterwards there is no error, and all else is as before. -/
  taken : ∀ native value, f.ErrorTaken (plan.unmarshalReturn native f value).2
  /-- Every further result is converted. -/
  next : ∀ native value native' value', plan.unmarshalReturn native'
      (plan.unmarshalReturn native f value).2 value' =
    (plan.convertReturn native' (plan.unmarshalReturn native f value).2 value',
      (plan.unmarshalReturn native f value).2)

/-- Whatever is stored after the frame of a call was made: an error that the callee reports takes
the place of the result once, and nothing else of the frame is touched. -/
theorem marshalArgs_reportsErrors (hplan : p.plan c = .ok plan)
    (hargs : plan.marshalArgs args = .ok f) (hafter : f.Rewritten after) :
    plan.ReportsErrors after := by
  have hcells : plan.HasCells after := (marshalArgs_hasCells hplan hargs).rewritten hafter
  have hthrows : after.errorAddress ≠ .null → plan.throws = true := by
    intro hne
    by_contra hthrows
    exact hne (errorAddress_of_not_throws hargs hafter (by simpa using hthrows))
  have htaken : ∀ native value, after.ErrorTaken (plan.unmarshalReturn native after value).2 := by
    intro native value
    by_cases hnull : after.errorAddress = .null
    · rw [unmarshalReturn_eq hnull]
      exact .refl hnull
    · rw [unmarshalReturn_of_ne_null (hthrows hnull) hnull]
      exact hcells.errorTaken_clearError (hthrows hnull)
  constructor
  case stored =>
    intro hthrows native a
    exact hcells.errorAddress_write (w := .error a) hthrows native
  case silent =>
    intro hsilent
    have hnull := errorAddress_of_not_throws hargs hafter hsilent
    refine ⟨hnull, fun native value => ?_⟩
    rw [unmarshalReturn_eq hnull]
    exact plan.result.conversion.unreported_fromAbi _ value _
  case converted => exact fun hnull => unmarshalReturn_eq hnull
  case reported =>
    intro hne native domain code text message herror hmessage htext
    exact hcells.unmarshalReturn_reported (hthrows hne) hne native herror
      (Frame.hasMessage_clearError htext hmessage)
  case reported_cleared =>
    intro hne native domain code text message herror hmessage htext
    obtain ⟨cell, -, hcell, hlength⟩ := hcells.error (hthrows hne)
    exact hcells.unmarshalReturn_reported (hthrows hne) hne native herror
      (Frame.hasMessage_clearError_self hcell hlength native htext hmessage)
  case taken => exact htaken
  case next =>
    intro native value native' value'
    exact unmarshalReturn_eq (htaken native value).errorAddress_eq native' value'

end CallablePlan

namespace Sample

/-- Native memory with the record of an error at an address, and a text behind the record. -/
def errorMemory (base : UInt64) (text : Address) : Native :=
  [⟨base, elementBytes [.u32 7, .i32 3, .pointer text] ++ stringBytes "no such file"⟩]

/-- A throwing function without parameters. -/
def load : Callable := { function "load" [] with throws := true }

end Sample

/-- The error of the sample call is reported with its message, and the values that the callee stored
stay in their cells. -/
theorem CallablePlan.marshalArgs_reportsErrors_sample :
    ∃ plan f after native, Sample.planner.plan Sample.fill = .ok plan ∧
      plan.marshalArgs Sample.fillArgs = .ok f ∧ f.Rewritten after ∧
      native = Sample.errorMemory 8192 (.native 8208) ∧
      after = (f.writeAll native Sample.stores).2 ∧
      after.errorAddress = .native 8192 ∧
      (after.memory native).HasError (.native 8192) 7 3 (.native 8208) ∧
      (after.memory native).HasMessage (.native 8208) "no such file" ∧
      ∀ value, (plan.unmarshalReturn native after value).1 =
          .error (.native 7 3 "no such file") ∧
        after.ErrorTaken (plan.unmarshalReturn native after value).2 := by
  refine ⟨_, _, _, _, by rfl, by rfl, Frame.rewritten_writeAll _ _ Sample.stores, rfl, rfl, by rfl,
    ?_, ?_, ?_⟩
  · exact ⟨by rfl, by rfl, by rfl⟩
  · exact .valid (by decide) ⟨by decide, [], by rfl⟩
  · intro value
    have hreports := @marshalArgs_reportsErrors Sample.planner Sample.fill _ Sample.fillArgs _ _
      (by rfl) (by rfl) (Frame.rewritten_writeAll (Sample.errorMemory 8192 (.native 8208)) _
        Sample.stores)
    refine ⟨?_, hreports.taken _ value⟩
    refine hreports.reported (by decide) _ 7 3 (.native 8208) "no such file" ?_ ?_ ?_ value
    · exact ⟨by rfl, by rfl, by rfl⟩
    · exact .valid (by decide) ⟨by decide, [], by rfl⟩
    · rintro ⟨cell, offset, -, hnative⟩
      cases hnative

/-- The address 0x10000048 of a record is stored as bytes that spell a text.  As the message of that
record the text is not reported, since the cell is cleared first. -/
theorem CallablePlan.message_of_errorCell_lost :
    ∃ plan f after native, Sample.planner.plan Sample.load = .ok plan ∧
      plan.marshalArgs [] = .ok f ∧
      native = Sample.errorMemory 0x10000048 (.owned (.cell 0) 0) ∧
      after = (f.write native (.error (.native 0x10000048))).2 ∧
      after.errorAddress = .native 0x10000048 ∧
      (after.memory native).HasError (.native 0x10000048) 7 3 (.owned (.cell 0) 0) ∧
      (after.memory native).HasMessage (.owned (.cell 0) 0) "H" ∧
      ∀ value, (plan.unmarshalReturn native after value).1 = .error (.native 7 3 "") ∧
        (plan.unmarshalReturn native after value).1 ≠ .error (.native 7 3 "H") := by
  refine ⟨_, _, _, _, by rfl, by rfl, rfl, rfl, by rfl, ?_, ?_, ?_⟩
  · exact ⟨by rfl, by rfl, by rfl⟩
  · exact .valid (by decide) ⟨by decide, [.known 0, .known 16, .zero, .zero, .zero, .zero], by rfl⟩
  · intro value
    suffices h : (CallablePlan.unmarshalReturn _ _ _ value).1 = .error (.native 7 3 "") from
      ⟨h, by rw [h]; simp⟩
    rfl

end ForeignCall
