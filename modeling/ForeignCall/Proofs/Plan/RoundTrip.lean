import ForeignCall.Proofs.Conversion.ReadBack
import ForeignCall.Proofs.Plan.Marshalling
import ForeignCall.Proofs.Planning

/-!
# Frames read back

Every argument that goes in can be recovered from the finished frame: converting the native argument
back gives the host value that was passed, in the normal form of its conversion, whatever native
memory holds (`CallablePlan.marshalArgs_readsBack`).  Each conversion was made in a frame that grew
afterwards, so this is `Conversion.Converted.readsBack` in the memory of the last frame.
-/

namespace ForeignCall

variable {p : Planner} {c : Callable} {plan : CallablePlan} {args : List HostValue} {f : Frame}

/-- A parameter that goes in has no cell. -/
theorem ParamPlan.usesCell_of_input {q : ParamPlan} (h : q.direction = .input) :
    q.usesCell = false := by
  simp [usesCell, h, Direction.isByReference]

/-- The arguments that go in read back, all of them from one frame. -/
theorem CallablePlan.marshalArgs_readsBack (hplan : p.plan c = .ok plan)
    (hargs : plan.marshalArgs args = .ok f) (native : Native) :
    (∀ receiver, c.receiver = some receiver →
      ∃ r value abi, p.planParam receiver = .ok r ∧ args.head? = some value ∧
        f.args.head? = some abi ∧ r.conversion.ReadsBack (f.memory native) value abi) ∧
    ∀ k param, c.params[k]? = some param → param.isVariadic = false → param.direction = .input →
      ∃ q value abi, q ∈ plan.params ∧ q.index = k ∧ p.planParam param = .ok q.toParamPlan ∧
        (q, value) ∈ plan.declaredArgs args ∧ f.declaredArg? k = some abi ∧
        q.conversion.ReadsBack (f.memory native) value abi := by
  have hplans := Planner.plan_plans hplan
  obtain ⟨receiver, declared, error, hmarshalled⟩ := marshalArgs_marshalled hargs
  refine ⟨fun r hr => ?_, fun k param hk hfixed hdirection => ?_⟩
  · obtain ⟨q, hq, hplanned⟩ := hplans.exists_receiver hr
    obtain ⟨value, abi, hvalue, habi, hconverted⟩ := hmarshalled.exists_receiver hq
    refine ⟨q, value, abi, hplanned, hvalue, habi, ?_⟩
    exact Conversion.Converted.readsBack (m := f.memory native) hconverted
  · obtain ⟨q, hq, rfl, hplanned⟩ := hplans.getElem? hk hfixed
    have hmem : q ∈ plan.params := List.mem_of_getElem? hq
    have hcell : q.usesCell = false :=
      ParamPlan.usesCell_of_input ((Planner.direction_of_planParam hplanned).trans hdirection)
    obtain ⟨value, abi, hvalue, hdeclared, hconverted⟩ :=
      hmarshalled.exists_byValue hplans.params.pairwise_index hmem hcell
    refine ⟨q, value, abi, hmem, rfl, hplanned, hvalue, ?_,
      Conversion.Converted.readsBack (m := f.memory native) hconverted⟩
    simp [Frame.declaredArg?, hdeclared, Argument.value]

/-- The receiver of the sample call reads back as a handle of its type, and the array as itself. -/
theorem CallablePlan.marshalArgs_readsBack_sample :
    ∃ plan f, Sample.planner.plan Sample.fill = .ok plan ∧
      plan.marshalArgs Sample.fillArgs = .ok f ∧ ∀ native,
        (∃ abi, f.args.head? = some abi ∧
          (ScalarConversion.handle (.unqualified "Buffer")).fromAbi (f.memory native) abi =
            .ok (.handle ⟨.native 4096, some (.unqualified "Buffer")⟩)) ∧
        ∃ abi, f.declaredArg? 1 = some abi ∧
          (ArrayConversion.mk (.numeric .i32) (.param 2)).fromAbi (f.memory native) abi (some 2) =
            .ok (.array [.int 1, .int 2]) := by
  refine ⟨_, _, by rfl, by rfl, fun native => ?_⟩
  obtain ⟨hreceiver, hdeclared⟩ := @marshalArgs_readsBack Sample.planner Sample.fill _
    Sample.fillArgs _ (by rfl) (by rfl) native
  constructor
  · obtain ⟨r, value, abi, hplanned, hvalue, habi, hback⟩ := hreceiver _ rfl
    cases hplanned
    cases hvalue
    refine ⟨abi, habi, hback.fromAbi_eq ?_ none (fun h => by cases h)⟩
    rintro ⟨h, -⟩
    cases h
  · obtain ⟨q, value, abi, -, hindex, hplanned, hvalue, habi, hback⟩ :=
      hdeclared 1 (Sample.values 2) rfl rfl rfl
    have hconversion : q.conversion = .array ⟨.numeric .i32, .param 2⟩ :=
      congrArg ParamPlan.conversion (Except.ok.inj hplanned).symm
    have hvalues : (q.index, value) ∈ [(0, HostValue.string "hi"), (1, .array [.int 1, .int 2]),
        (2, .int 2), (4, .int 5)] :=
      List.mem_map_of_mem (f := fun pair => (pair.1.index, pair.2)) hvalue
    obtain rfl : value = .array [.int 1, .int 2] := by simpa [hindex] using hvalues
    rw [hconversion] at hback
    refine ⟨abi, habi, hback.fromAbi_eq ?_ (some 2) fun _ => rfl⟩
    simp [Conversion.PassesRaw, ArrayConversion.PassesRaw, ScalarConversion.PassesRaw,
      HostValue.isHandle]

/-- An integer in a float slot comes back as a float, and one of more than 24 bits in a slot of 32
bits not even with its value. -/
theorem CallablePlan.int_in_float_slot_comes_back_rounded :
    ∃ plan f q abi,
      Sample.planner.plan (Sample.function "scale" [Sample.parameter "factor" "gfloat" .input]) =
        .ok plan ∧
      plan.marshalArgs [.int 16777217] = .ok f ∧ q ∈ plan.params ∧ q.direction = .input ∧
      f.declaredArg? q.index = some abi ∧ ∀ native length,
        q.conversion.fromAbi (f.memory native) abi length ≠ .ok (.int 16777217) ∧
        q.conversion.fromAbi (f.memory native) abi length = .ok (.float 0x4170000000000000) := by
  refine ⟨_, _, _, _, by rfl, by rfl, List.mem_singleton_self _, by rfl, by rfl,
    fun native length => ⟨?_, by rfl⟩⟩
  intro h
  cases h

end ForeignCall
