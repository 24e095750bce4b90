import ForeignCall.Proofs.Conversion.Numbers
import ForeignCall.Proofs.Frame.Contents
import ForeignCall.Proofs.Plan.Marshalling
import ForeignCall.Proofs.Planning

/-!
# Lengths and their arrays

A host that passes an array passes its length as an argument of its own.  Marshalling compares the
two once all arguments are converted, through the slot value of the length: what stands in the slot
of an integer is the host's integer again, so a length that is not negative is the number of
elements (`CallablePlan.marshalArgs_length_eq_iff`).  A negative one counts as no length at all, and
nothing is compared.
-/

namespace ForeignCall

variable {p : Planner} {c : Callable} {plan : CallablePlan} {args : List HostValue} {f : Frame}
  {store : Storage} {s : Slot} {nullable : Bool} {item : String} {value : HostValue}
  {abi : AbiValue}

/-! ### Lengths in slots -/

/-- What stands in the slot of an integer is the integer that the host passed. -/
theorem Conversion.Converted.exists_int (h : (Conversion.scalar (.numeric s)).Converted nullable
    item store value abi) (hs : s.isInteger = true) :
    ∃ n, value = .int n ∧ abi.toInt64? = some n := by
  obtain ⟨f, f', hto, -⟩ := h
  cases ScalarConversion.toAbi_accepts hto with
  | numeric hnumber =>
    have hfloat : s.isFloat = false := Slot.isFloat_of_isInteger hs
    rcases numericToAbi_eq_ok.mp hnumber with
      ⟨n, rfl, -, hn, rfl⟩ | ⟨n, -, hs', -⟩ | ⟨bits, -, hs', -⟩
    · exact ⟨n, rfl, Slot.toInt64?_ofInt64 hn⟩
    · simp [hfloat] at hs'
    · simp [hfloat] at hs'
  | handle _ hc => cases hc
  | null hc _ => cases hc

/-! ### Arrays and their lengths -/

namespace CallablePlan

/-- The comparison is passed by equal numbers and by negative lengths. -/
theorem lengthConflict?_eq_none_iff {index actual : Nat} {n : Int64}
    (hvalue : plan.isByValue index = true)
    (hlength : f.arrayLength? index = if 0 ≤ n.toInt then some n.toInt.toNat else none) :
    plan.lengthConflict? f (index, actual) = none ↔ n.toInt = actual ∨ n.toInt < 0 := by
  simp only [lengthConflict?, hvalue, if_true, hlength]
  by_cases hn : 0 ≤ n.toInt
  · by_cases heq : n.toInt.toNat = actual
    · simp only [if_pos hn, if_pos heq, true_iff]
      omega
    · simp only [if_pos hn, if_neg heq, reduceCtorEq, false_iff]
      omega
  · simp only [if_neg hn, true_iff]
    omega

/-- A host array with a length parameter is among the arrays that are compared. -/
theorem mem_arrayCounts {q : DeclaredPlan} {items : List HostValue} {index : Nat}
    (harity : args.length = plan.hostArity) (hitems : (q, .array items) ∈ plan.declaredArgs args)
    (hq : q.conversion.lengthParam? = some index) :
    (index, items.length) ∈
      (pairArgs plan.params (plan.declaredValues args)).filterMap arrayCount? := by
  have hpair : (q, some (.array items)) ∈ pairArgs plan.params (plan.declaredValues args) :=
    mem_pairArgs harity hitems
  exact List.mem_filterMap.mpr ⟨_, hpair, by simp [arrayCount?, hq]⟩

/-- The length that goes with an array is an integer of the host, and the number of elements unless
it is negative. -/
theorem marshalArgs_length_eq_iff (hplan : p.plan c = .ok plan)
    (hargs : plan.marshalArgs args = .ok f) {q len : DeclaredPlan} {items : List HostValue}
    (hitems : (q, .array items) ∈ plan.declaredArgs args)
    (hq : q.conversion.lengthParam? = some len.index) (hlen : len ∈ plan.params)
    (hcell : len.usesCell = false) (hconversion : len.conversion = .scalar (.numeric s))
    (hs : s.isInteger = true) :
    ∃ n : Int64, (len, .int n) ∈ plan.declaredArgs args ∧
      (n.toInt = (items.length : Int) ↔ 0 ≤ n.toInt) := by
  have hplans := Planner.plan_plans hplan
  obtain ⟨receiver, declared, error, hmarshalled⟩ := marshalArgs_marshalled hargs
  obtain ⟨value, abi, hvalue, hdeclared, hconverted⟩ :=
    hmarshalled.exists_byValue hplans.params.pairwise_index hlen hcell
  rw [hconversion] at hconverted
  obtain ⟨n, rfl, hn⟩ := hconverted.exists_int hs
  have hbyValue : plan.isByValue len.index = true := by
    rw [isByValue, List.any_eq_true]
    exact ⟨len, hlen, by simp [hcell]⟩
  have hlength : f.arrayLength? len.index = if 0 ≤ n.toInt then some n.toInt.toNat else none :=
    (Frame.arrayLength?_byValue hdeclared).trans (AbiValue.count?_of_toInt64? hn)
  have hconflict := hmarshalled.lengths _ (mem_arrayCounts hmarshalled.arity hitems hq)
  rw [lengthConflict?_eq_none_iff hbyValue hlength] at hconflict
  refine ⟨n, hvalue, ?_⟩
  omega

/-- The array of the sample call and the length that goes with it. -/
theorem marshalArgs_length_eq_iff_sample :
    ∃ plan f q len, Sample.planner.plan Sample.fill = .ok plan ∧
      plan.marshalArgs Sample.fillArgs = .ok f ∧
      (q, .array [.int 1, .int 2]) ∈ plan.declaredArgs Sample.fillArgs ∧
      q.conversion.lengthParam? = some len.index ∧ len ∈ plan.params ∧
      len.usesCell = false ∧ len.conversion = .scalar (.numeric .i32) ∧
      ∃ n : Int64, (len, .int n) ∈ plan.declaredArgs Sample.fillArgs ∧
        (n.toInt = 2 ↔ 0 ≤ n.toInt) := by
  refine ⟨_, _, _, _, by rfl, by rfl, .tail _ (.head _), rfl, .tail _ (.tail _ (.head _)), rfl, rfl,
    ?_⟩
  exact @marshalArgs_length_eq_iff Sample.planner Sample.fill _ Sample.fillArgs _ .i32 (by rfl)
    (by rfl) _ _ [.int 1, .int 2] (.tail _ (.head _)) rfl (.tail _ (.tail _ (.head _))) rfl rfl rfl

end CallablePlan

/-- A function of an array and its length. -/
def Sample.sum : Callable :=
  Sample.function "sum" [Sample.values 1, Sample.parameter "n_values" "gint" .input]

/-- Three elements with a length of minus one. -/
def Sample.sumArgs : List HostValue := [.array [.int 1, .int 2, .int 3], .int (-1)]

/-- A negative length goes with an array of any size: three elements are passed as minus one. -/
theorem CallablePlan.negative_length_is_accepted :
    ∃ plan f q len, Sample.planner.plan Sample.sum = .ok plan ∧
      plan.marshalArgs Sample.sumArgs = .ok f ∧
      (q, .array [.int 1, .int 2, .int 3]) ∈ plan.declaredArgs Sample.sumArgs ∧
      q.conversion.lengthParam? = some len.index ∧ len ∈ plan.params ∧
      len.usesCell = false ∧ len.conversion = .scalar (.numeric .i32) ∧
      f.declaredArg? len.index = some (.i32 (-1)) ∧
      (len, .int 3) ∉ plan.declaredArgs Sample.sumArgs := by
  refine ⟨_, _, _, _, by rfl, by rfl, .head _, rfl, .tail _ (.head _), rfl, rfl, by rfl, ?_⟩
  intro h
  have hvalues : (1, HostValue.int 3) ∈
      [(0, HostValue.array [.int 1, .int 2, .int 3]), (1, .int (-1))] :=
    List.mem_map_of_mem (f := fun pair => (pair.1.index, pair.2)) h
  simp at hvalues

end ForeignCall
