import ForeignCall.Proofs.Conversion.Independence
import ForeignCall.Proofs.Frame.Contents
import ForeignCall.Proofs.Plan.Marshalling
import ForeignCall.Proofs.Planning

/-!
# Which host arguments are accepted

Marshalling converts the host arguments one after another into one frame, and each conversion adds
to what the next one finds.  All the same no argument has a say in what becomes of another: a
conversion rejects the same values in all frames, so marshalling stops at the first argument that
its own parameter rejects when it is tried alone (`CallablePlan.passArgs_eq_error`), and passes them
all if there is none (`CallablePlan.exists_passArgs_eq_ok`).  Only then lengths are compared with
their arrays.  `CallablePlan.Decided` puts the four outcomes together, each with what comes before
it.

Lengths are compared for the arrays of declared parameters.  A receiver may have the shape of an
array too, and its length is not looked at (`CallablePlan.length_of_receiver_is_not_compared`); no
other array of the host is left out (`CallablePlan.firstHostMismatch?_eq`).
-/

namespace ForeignCall

variable {value : HostValue} {item : String} {e : MarshalError} {f f' : Frame}

/-! ### One argument alone -/

/-- Why a parameter rejects a host value that is tried alone, on an empty frame.  `item` names the
parameter in messages. -/
def ParamPlan.rejection? (q : ParamPlan) (item : String) (value : HostValue) :
    Option MarshalError :=
  match (q.conversion.toAbi value q.isNullable item .empty).1 with
  | .error e => some e
  | .ok _ => none

/-- The number of elements that a host value stands for as a length, converted alone. -/
def DeclaredPlan.count? (q : DeclaredPlan) (value : HostValue) : Option Nat :=
  match (q.conversion.toAbi value q.isNullable q.item .empty).1 with
  | .error _ => none
  | .ok abi => abi.count?

namespace ParamPlan

variable {q : ParamPlan}

/-- What a parameter rejects alone it rejects in every frame. -/
theorem toAbi_eq_error (h : q.rejection? item value = some e) (f : Frame) :
    ∃ f', q.conversion.toAbi value q.isNullable item f = (.error e, f') := by
  unfold rejection? at h
  split at h
  case h_1 e' hresult =>
    obtain rfl : e' = e := Option.some.inj h
    exact ⟨_, Prod.ext (Conversion.toAbi_eq_error hresult f) rfl⟩
  case h_2 => cases h

/-- What a parameter does not reject alone it accepts in every frame. -/
theorem exists_toAbi_eq_ok (h : q.rejection? item value = none) (f : Frame) :
    ∃ abi f', q.conversion.toAbi value q.isNullable item f = (.ok abi, f') := by
  unfold rejection? at h
  split at h
  case h_1 => cases h
  case h_2 abi hresult =>
    obtain ⟨abi', habi', -⟩ := Conversion.exists_toAbi_eq_ok hresult f
    exact ⟨abi', _, Prod.ext habi' rfl⟩

end ParamPlan

/-- The number that a converted value stands for is the one that it stands for alone. -/
theorem DeclaredPlan.count?_of_converted {q : DeclaredPlan} {store : Storage} {abi : AbiValue}
    (h : q.conversion.Converted q.isNullable q.item store value abi) :
    abi.count? = q.count? value := by
  obtain ⟨f, f', hto, -⟩ := h
  have hresult : (q.conversion.toAbi value q.isNullable q.item f).1 = .ok abi :=
    congrArg Prod.fst hto
  obtain ⟨alone, halone, hsame⟩ := Conversion.exists_toAbi_eq_ok hresult .empty
  simp only [count?, halone, AbiValue.count?, hsame]

/-! ### Declared parameters in order -/

namespace DeclaredPlan

variable {q : DeclaredPlan} {value? : Option HostValue}

/-- Why a parameter rejects the value that it is given, if it is given one. -/
def pairRejection? (pair : DeclaredPlan × Option HostValue) : Option MarshalError :=
  pair.2.bind (pair.1.rejection? pair.1.item)

/-- A parameter is not passed if it rejects its value. -/
theorem pass_eq_error (h : pairRejection? (q, value?) = some e) (f : Frame) :
    q.pass value? f = .error e := by
  obtain ⟨value, rfl, hrejection⟩ := Option.bind_eq_some_iff.mp h
  obtain ⟨f₁, hto⟩ := ParamPlan.toAbi_eq_error hrejection f
  simp only [pass, hto]

/-- A parameter is passed if it does not reject its value, or is given none. -/
theorem exists_pass_eq_ok (h : pairRejection? (q, value?) = none) (f : Frame) :
    ∃ f', q.pass value? f = .ok f' := by
  cases value? with
  | none => exact ⟨_, rfl⟩
  | some value =>
    obtain ⟨abi, f₁, hto⟩ := ParamPlan.exists_toAbi_eq_ok h f
    simp only [pass, hto, Except.ok.injEq, exists_eq']

end DeclaredPlan

section

variable {pairs : List (DeclaredPlan × Option HostValue)}

/-- Passing parameters stops at the first that rejects its value, whatever the frame holds. -/
theorem passAll_eq_error (h : pairs.findSome? DeclaredPlan.pairRejection? = some e) (f : Frame) :
    passAll pairs f = .error e := by
  induction pairs generalizing f with
  | nil => cases h
  | cons pair rest ih =>
    rw [List.findSome?_cons] at h
    cases hpair : DeclaredPlan.pairRejection? pair with
    | some e' =>
      obtain rfl : e' = e := by simpa [hpair] using h
      simp only [passAll, DeclaredPlan.pass_eq_error hpair f]
    | none =>
      obtain ⟨f₁, hpass⟩ := DeclaredPlan.exists_pass_eq_ok hpair f
      rw [hpair] at h
      simp only [passAll, hpass, ih h f₁]

/-- Parameters are passed if none of them rejects its value, whatever the frame holds. -/
theorem exists_passAll_eq_ok (h : ∀ pair ∈ pairs, DeclaredPlan.pairRejection? pair = none)
    (f : Frame) : ∃ f', passAll pairs f = .ok f' := by
  induction pairs generalizing f with
  | nil => exact ⟨f, rfl⟩
  | cons pair rest ih =>
    obtain ⟨hpair, hrest⟩ := List.forall_mem_cons.mp h
    obtain ⟨f₁, hpass⟩ := DeclaredPlan.exists_pass_eq_ok hpair f
    simp only [passAll, hpass]
    exact ih hrest f₁

end

/-- Searching the parameters with what they are given is searching those that are given a value. -/
theorem findSome?_pairArgs {α : Type} {params : List DeclaredPlan} {values : List HostValue}
    (h : values.length = params.countP (·.takesHostValue))
    (g : DeclaredPlan → HostValue → Option α) :
    (pairArgs params values).findSome? (fun pair => pair.2.bind (g pair.1)) =
      ((params.filter (·.takesHostValue)).zip values).findSome? fun given => g given.1 given.2 := by
  rw [← filterMap_pairArgs h, ← List.head?_filterMap, ← List.head?_filterMap,
    List.filterMap_filterMap]
  congr 2
  funext pair
  obtain ⟨q, value?⟩ := pair
  cases value? with
  | none => rfl
  | some value => rfl

/-! ### All arguments -/

namespace CallablePlan

/-- The words in messages for the parameters that the host passes values for, the receiver first. -/
def hostItems (p : CallablePlan) : List String :=
  p.receiver.toList.map (·.receiverItem) ++ (p.params.filter (·.takesHostValue)).map (·.item)

/-- Each parameter that the host passes a value for, with its words in messages, and the value. -/
def hostArgs (p : CallablePlan) (args : List HostValue) :
    List ((ParamPlan × String) × HostValue) :=
  (p.hostParams.zip p.hostItems).zip args

/-- Why the first of the host arguments is rejected that its own parameter does not accept. -/
def firstRejection? (p : CallablePlan) (args : List HostValue) : Option MarshalError :=
  (p.hostArgs args).findSome? fun given => given.1.1.rejection? given.1.2 given.2

/-- How a host array differs from the length that the frame holds for it. -/
def mismatch? (p : CallablePlan) (f : Frame) (q : ParamPlan) (value : HostValue) :
    Option MarshalError :=
  match q.conversion.lengthParam?, value with
  | some index, .array items => p.lengthConflict? f (index, items.length)
  | _, _ => none

/-- How the first array of a declared parameter differs from its length that does. -/
def firstMismatch? (p : CallablePlan) (f : Frame) (args : List HostValue) : Option MarshalError :=
  (p.declaredArgs args).findSome? fun given => p.mismatch? f given.1.toParamPlan given.2

/-- How the first of all host arrays differs from its length that does. -/
def firstHostMismatch? (p : CallablePlan) (f : Frame) (args : List HostValue) :
    Option MarshalError :=
  (p.hostArgs args).findSome? fun given => p.mismatch? f given.1.1 given.2

/-- How the receiver differs from its length, if it is an array. -/
def receiverMismatch? (p : CallablePlan) (f : Frame) (args : List HostValue) :
    Option MarshalError :=
  p.receiver.bind fun q => args.head?.bind (p.mismatch? f q)

variable {p : CallablePlan} {args : List HostValue}

/-- Why the receiver rejects its value, if there is a receiver. -/
def receiverRejection? (p : CallablePlan) (args : List HostValue) : Option MarshalError :=
  p.receiver.bind fun q => args.head?.bind (q.rejection? q.receiverItem)

/-- Searching the host arguments is looking at that of the receiver, and then searching those of the
declared parameters. -/
theorem findSome?_hostArgs {α : Type} (harity : args.length = p.hostArity)
    (g : ParamPlan → String → HostValue → Option α) :
    (p.hostArgs args).findSome? (fun given => g given.1.1 given.1.2 given.2) =
      (p.receiver.bind fun q => args.head?.bind (g q q.receiverItem)).or
        ((p.declaredArgs args).findSome? fun given =>
          g given.1.toParamPlan given.1.item given.2) := by
  have hdeclared : ((((p.params.filter (·.takesHostValue)).map (·.toParamPlan)).zip
        ((p.params.filter (·.takesHostValue)).map (·.item))).zip
        (p.declaredValues args)).findSome? (fun given => g given.1.1 given.1.2 given.2) =
      (p.declaredArgs args).findSome? fun given => g given.1.toParamPlan given.1.item given.2 := by
    rw [List.zip_map', List.zip_map_left, List.findSome?_map]
    rfl
  rw [← hdeclared, hostArgs, hostParams, hostItems]
  cases hq : p.receiver with
  | none =>
    rw [declaredValues_of_none hq]
    rfl
  | some q =>
    obtain ⟨value, rest, rfl⟩ := exists_eq_cons harity hq
    rw [declaredValues_cons hq]
    simp only [Option.toList_some, List.map_cons, List.map_nil, List.cons_append, List.nil_append,
      List.zip_cons_cons, List.findSome?_cons, Option.bind_some, List.head?_cons]
    cases g q q.receiverItem value <;> rfl

/-- The first argument to be rejected is that of the receiver, or the first among those of the
declared parameters. -/
theorem firstRejection?_eq (harity : args.length = p.hostArity) :
    p.firstRejection? args = (p.receiverRejection? args).or
      ((pairArgs p.params (p.declaredValues args)).findSome? DeclaredPlan.pairRejection?) := by
  have hpairs := findSome?_pairArgs (length_declaredValues harity)
    fun q value => q.rejection? q.item value
  rw [firstRejection?, findSome?_hostArgs harity fun q item value => q.rejection? item value]
  exact congrArg _ hpairs.symm

/-- The first array to differ from its length is the receiver, or the first among those of the
declared parameters. -/
theorem firstHostMismatch?_eq (harity : args.length = p.hostArity) (f : Frame) :
    p.firstHostMismatch? f args = (p.receiverMismatch? f args).or (p.firstMismatch? f args) :=
  findSome?_hostArgs harity fun q _ value => p.mismatch? f q value

/-- The receiver is not passed if it rejects its value. -/
theorem passReceiver_eq_error (h : p.receiverRejection? args = some e) (f : Frame) :
    p.passReceiver args.head? f = .error e := by
  obtain ⟨q, hq, hbind⟩ := Option.bind_eq_some_iff.mp h
  obtain ⟨value, hvalue, hrejection⟩ := Option.bind_eq_some_iff.mp hbind
  obtain ⟨f₁, hto⟩ := ParamPlan.toAbi_eq_error hrejection f
  simp only [passReceiver, hq, hvalue, hto]

/-- The receiver is passed if it does not reject its value. -/
theorem exists_passReceiver_eq_ok (h : p.receiverRejection? args = none) (f : Frame) :
    ∃ f', p.passReceiver args.head? f = .ok f' := by
  unfold passReceiver
  split
  case h_1 q value hq hvalue =>
    have hrejection : q.rejection? q.receiverItem value = none := by
      simpa [receiverRejection?, hq, hvalue] using h
    obtain ⟨abi, f₁, hto⟩ := ParamPlan.exists_toAbi_eq_ok hrejection f
    exact ⟨_, by rw [hto]⟩
  case h_2 => exact ⟨f, rfl⟩

/-- Passing arguments stops at the first that its own parameter rejects. -/
theorem passArgs_eq_error (harity : args.length = p.hostArity)
    (h : p.firstRejection? args = some e) : p.passArgs args = .error e := by
  rw [firstRejection?_eq harity] at h
  cases hreceiver : p.receiverRejection? args with
  | some e' =>
    obtain rfl : e' = e := by simpa [hreceiver] using h
    simp only [passArgs, passReceiver_eq_error hreceiver]
  | none =>
    rw [hreceiver, Option.none_or] at h
    obtain ⟨f₀, hpass⟩ := exists_passReceiver_eq_ok hreceiver .empty
    simp only [passArgs, hpass, passAll_eq_error h f₀]

/-- Arguments are passed if none is rejected by its own parameter. -/
theorem exists_passArgs_eq_ok (harity : args.length = p.hostArity)
    (h : p.firstRejection? args = none) : ∃ f, p.passArgs args = .ok f := by
  rw [firstRejection?_eq harity, Option.or_eq_none_iff, List.findSome?_eq_none_iff] at h
  obtain ⟨hreceiver, hdeclared⟩ := h
  obtain ⟨f₀, hpass⟩ := exists_passReceiver_eq_ok hreceiver .empty
  simp only [passArgs, hpass]
  exact exists_passAll_eq_ok hdeclared f₀

/-- The length that a frame holds for a parameter without a cell is the one that the host's value
for it stands for. -/
theorem arrayLength?_of_passArgs (harity : args.length = p.hostArity)
    (hindices : p.params.Pairwise (·.index < ·.index)) (h : p.passArgs args = .ok f)
    {q : DeclaredPlan} (hgiven : (q, value) ∈ p.declaredArgs args) (hcell : q.usesCell = false) :
    f.arrayLength? q.index = q.count? value := by
  obtain ⟨receiver, declared, hpassed⟩ := passArgs_passed harity h
  have hpairs := pairwise_index_pairArgs hindices (p.declaredValues args)
  obtain ⟨i, hi⟩ := List.getElem?_of_mem (mem_pairArgs harity hgiven)
  obtain ⟨argument, -, hcarried, hfind⟩ := find?_of_carries hpassed.carries hpairs hi
  have hdeclared : f.declared? q.index = some argument := by
    rw [Frame.declared?, hpassed.arguments_eq, List.find?_append,
      hpassed.carryReceiver.find?_eq_none, Option.none_or, hfind]
  cases hcarried with
  | value _ hconverted =>
    rw [Frame.arrayLength?_byValue hdeclared, DeclaredPlan.count?_of_converted hconverted]
  | cell hcell' => simp [hcell] at hcell'

/-- The arrays that marshalling compares with their lengths are those that declared parameters were
given. -/
theorem findSome?_lengthConflict? (harity : args.length = p.hostArity) (f : Frame) :
    ((pairArgs p.params (p.declaredValues args)).filterMap arrayCount?).findSome?
      (p.lengthConflict? f) = p.firstMismatch? f args := by
  rw [firstMismatch?, declaredArgs,
    ← findSome?_pairArgs (length_declaredValues harity) fun q => p.mismatch? f q.toParamPlan,
    ← List.head?_filterMap, ← List.head?_filterMap, List.filterMap_filterMap]
  congr 2
  funext pair
  obtain ⟨q, value?⟩ := pair
  cases hq : q.conversion.lengthParam? with
  | none => cases value? <;> simp [arrayCount?, mismatch?, hq]
  | some index =>
    cases value? with
    | none => simp [arrayCount?, hq]
    | some value => cases value <;> simp [arrayCount?, mismatch?, hq]

end CallablePlan

/-! ### Outcomes -/

/-- What decides on the outcome of marshalling, in the order in which it does. -/
structure CallablePlan.Decided (plan : CallablePlan) (args : List HostValue)
    (result : Except MarshalError Frame) : Prop where
  /-- A wrong number of arguments is reported with the right one. -/
  wrongNumber : args.length ≠ plan.hostArity →
    result = .error (.arityMismatch plan.hostArity args.length)
  /-- Otherwise the first argument that its own parameter rejects alone is reported. -/
  rejected : args.length = plan.hostArity → ∀ e, plan.firstRejection? args = some e →
    result = .error e
  /-- Otherwise all arguments are passed. -/
  passed : args.length = plan.hostArity → plan.firstRejection? args = none →
    ∃ f, plan.passArgs args = .ok f
  /-- The lengths in the frame are those that the host's values stand for alone. -/
  count : args.length = plan.hostArity → ∀ f, plan.passArgs args = .ok f →
    ∀ q value, (q, value) ∈ plan.declaredArgs args → q.usesCell = false →
      f.arrayLength? q.index = q.count? value
  /-- Where all arguments are passed, the first array that differs from its length is reported. -/
  mismatched : args.length = plan.hostArity → ∀ f, plan.passArgs args = .ok f →
    ∀ e, plan.firstMismatch? f args = some e → result = .error e
  /-- Otherwise the result is the frame, with a cell for an error if the callable throws. -/
  accepted : args.length = plan.hostArity → ∀ f, plan.passArgs args = .ok f →
    plan.firstMismatch? f args = none → result = .ok (if plan.throws then f.pushErrorCell else f)
  /-- The arrays that are looked at are those of the host other than the receiver. -/
  compared : args.length = plan.hostArity → ∀ f, plan.firstHostMismatch? f args =
    (plan.receiverMismatch? f args).or (plan.firstMismatch? f args)

/-- Marshalling is decided by the number of the arguments, by each of them alone and then by the
lengths of arrays. -/
theorem CallablePlan.marshalArgs_decided {p : Planner} {c : Callable} {plan : CallablePlan}
    (hplan : p.plan c = .ok plan) (args : List HostValue) :
    plan.Decided args (plan.marshalArgs args) := by
  have hindices := (Planner.plan_plans hplan).params.pairwise_index
  constructor
  case wrongNumber =>
    intro harity
    rw [marshalArgs, if_pos harity]
  case rejected =>
    intro harity e hrejection
    rw [marshalArgs_eq harity, passArgs_eq_error harity hrejection]
  case passed => exact exists_passArgs_eq_ok
  case count => exact fun harity f hpass q value => arrayLength?_of_passArgs harity hindices hpass
  case mismatched =>
    intro harity f hpass e hmismatch
    simp only [marshalArgs_eq harity, hpass, findSome?_lengthConflict? harity, hmismatch]
  case compared => exact firstHostMismatch?_eq
  case accepted =>
    intro harity f hpass hmismatch
    simp only [marshalArgs_eq harity, hpass, findSome?_lengthConflict? harity, hmismatch]

/-- Host arguments for `fill` with this label, and this length for two elements. -/
def Sample.labelled (label length : HostValue) : List HostValue :=
  [.handle (.untyped (.native 4096)), label, .array [.int 1, .int 2], length, .int 5]

/-- A null label is reported before a length that is no integer, and a length of three only where
nothing else is wrong. -/
theorem CallablePlan.marshalArgs_decided_sample :
    ∃ plan, Sample.planner.plan Sample.fill = .ok plan ∧
      (∀ args, plan.Decided args (plan.marshalArgs args)) ∧
      plan.marshalArgs [.null] = .error (.arityMismatch 5 1) ∧
      plan.marshalArgs (Sample.labelled .null .null) =
        .error (.unexpectedNull "parameter 'label'") ∧
      plan.marshalArgs (Sample.labelled (.string "hi") .null) =
        .error (.typeMismatch "int" "null") ∧
      plan.marshalArgs (Sample.labelled (.string "hi") (.int 3)) =
        .error (.arrayLengthMismatch 3 2) ∧
      (plan.marshalArgs (Sample.labelled (.string "hi") (.int 2))).isOk = true := by
  refine ⟨_, by rfl, fun args => ?_, by rfl, by rfl, by rfl, by rfl, by rfl⟩
  exact @marshalArgs_decided Sample.planner Sample.fill _ (by rfl) args

/-- A method of an array, with the length of the array. -/
def Sample.total : Callable :=
  { Sample.function "total" [Sample.parameter "n_values" "gint" .input] with
    kind := .method
    receiver := some (Sample.values 0) }

/-- Three elements with a length of five. -/
def Sample.totalArgs : List HostValue := [.array [.int 1, .int 2, .int 3], .int 5]

/-- The array that a receiver is may differ from its length: three elements are passed as five. -/
theorem CallablePlan.length_of_receiver_is_not_compared :
    ∃ plan receiver f, Sample.planner.plan Sample.total = .ok plan ∧
      Sample.totalArgs.length = plan.hostArity ∧ plan.firstRejection? Sample.totalArgs = none ∧
      plan.hostParams.head? = some receiver ∧ receiver.conversion.lengthParam? = some 0 ∧
      plan.isByValue 0 = true ∧ plan.passArgs Sample.totalArgs = .ok f ∧
      f.arrayLength? 0 = some 5 ∧
      plan.firstHostMismatch? f Sample.totalArgs = some (.arrayLengthMismatch 5 3) ∧
      plan.marshalArgs Sample.totalArgs = .ok f :=
  ⟨_, _, _, by rfl, by rfl, by rfl, by rfl, by rfl, by rfl, by rfl, by rfl, by rfl, by rfl⟩

end ForeignCall
