import Mathlib.Data.List.Forall2
import ForeignCall.Planner

/-!
# What plans look like

A plan follows its declaration parameter by parameter.  `Planner.planParam_eq_ok` says what planning
one parameter gives, and `Planner.PlansAll` what planning a list of them gives: the planned
parameters are the declared ones without the variadic markers, each under its declared index.
`Planner.Plans` gathers what the plan of a callable takes from its declaration; with it come the
places of the planned parameters (`Planner.Plans.getElem?`, `Planner.Plans.exists_of_mem`), which
are those that counting the parameters before them gives.
-/

namespace ForeignCall

/-! ### Positions of declared parameters -/

namespace Callable

/-- The declared parameter of this index exists and is no variadic marker. -/
def DeclaresFixed (c : Callable) (index : Nat) : Prop :=
  ∃ param, c.params[index]? = some param ∧ param.isVariadic = false

/-- The number of parameters without the variadic markers that are declared before an index. -/
def fixedBefore (c : Callable) (index : Nat) : Nat :=
  (c.params.take index).countP (!·.isVariadic)

/-- The position of a declared parameter among the native arguments: behind the receiver, if there
is one, and behind the parameters declared before it. -/
def nativePosition (c : Callable) (index : Nat) : Nat :=
  (if c.receiver.isSome then 1 else 0) + c.fixedBefore index

end Callable

namespace Planner

variable {p : Planner} {c : Callable} {plan : CallablePlan} {params : List Parameter}
  {plans : List DeclaredPlan} {index : Nat}

/-! ### Arrays -/

/-- An array is planned as the handle of its container, or as an array of what its elements are
planned as. -/
theorem conversion_array_eq_ok {spec : ArraySpec} {conversion : Conversion} {hostType : HostType}
    (h : p.conversion (.array spec) = .ok (conversion, hostType)) :
    (∃ container, conversion = .scalar (.handle (p.registry.localize container)) ∧
        hostType = .handle (p.registry.localize container)) ∨
      ∃ element inner, p.ofElement spec.element = .ok (element, inner) ∧
        conversion = .array ⟨element, spec.length⟩ ∧ hostType = .array inner := by
  cases hcontainer : spec.container with
  | some container =>
    obtain ⟨rfl, rfl⟩ : .scalar (.handle (p.registry.localize container)) = conversion ∧
        .handle (p.registry.localize container) = hostType := by
      simpa [Planner.conversion, hcontainer] using h
    exact .inl ⟨container, rfl, rfl⟩
  | none =>
    cases helement : p.ofElement spec.element with
    | error e => simp [Planner.conversion, hcontainer, helement, Except.map] at h
    | ok found =>
      obtain ⟨element, inner⟩ := found
      obtain ⟨rfl, rfl⟩ : .array ⟨element, spec.length⟩ = conversion ∧ .array inner = hostType := by
        simpa [Planner.conversion, hcontainer, helement, Except.map] using h
      exact .inr ⟨element, inner, rfl, rfl, rfl⟩

/-! ### Single parameters -/

/-- A parameter is planned from its shape, and passed by its address where it goes both ways or
out. -/
theorem planParam_eq_ok {param : Parameter} {q : ParamPlan} :
    p.planParam param = .ok q ↔
      ∃ shape conversion hostType, param.shape = some shape ∧
        p.conversion shape = .ok (conversion, hostType) ∧
        q = { name := param.name
              ident := p.identifiers.sanitize param.name
              hostType := hostType
              conversion := conversion
              slot := if param.direction.isByReference then .pointer else conversion.slot
              direction := param.direction
              transfer := param.transfer
              flags := param.flags } := by
  unfold planParam
  cases hshape : param.shape with
  | none => simp
  | some shape =>
    cases hconversion : p.conversion shape with
    | error e => simp [hconversion, Except.map]
    | ok result =>
      obtain ⟨conversion, hostType⟩ := result
      simp only [hconversion, Except.map, Except.ok.injEq, Option.some.injEq]
      constructor
      · rintro rfl
        exact ⟨shape, conversion, hostType, rfl, hconversion, rfl⟩
      · rintro ⟨shape', conversion', hostType', rfl, hconversion', rfl⟩
        obtain ⟨rfl, rfl⟩ : conversion = conversion' ∧ hostType = hostType' := by
          simpa [hconversion] using hconversion'
        rfl

/-- A planned parameter keeps its direction. -/
theorem direction_of_planParam {param : Parameter} {q : ParamPlan}
    (h : p.planParam param = .ok q) : q.direction = param.direction := by
  obtain ⟨shape, conversion, hostType, -, -, rfl⟩ := planParam_eq_ok.mp h
  rfl

/-- A planned parameter keeps its name. -/
theorem name_of_planParam {param : Parameter} {q : ParamPlan} (h : p.planParam param = .ok q) :
    q.name = param.name := by
  obtain ⟨shape, conversion, hostType, -, -, rfl⟩ := planParam_eq_ok.mp h
  rfl

/-- The identifier of a planned parameter is made from its name. -/
theorem ident_of_planParam {param : Parameter} {q : ParamPlan} (h : p.planParam param = .ok q) :
    q.ident = p.identifiers.sanitize q.name := by
  obtain ⟨shape, conversion, hostType, -, -, rfl⟩ := planParam_eq_ok.mp h
  rfl

/-- The native argument of a planned parameter is an address if its direction says so, and else
stands in the slot of the conversion. -/
theorem slot_of_planParam {param : Parameter} {q : ParamPlan} (h : p.planParam param = .ok q) :
    q.slot = if q.direction.isByReference then .pointer else q.conversion.slot := by
  obtain ⟨shape, conversion, hostType, -, -, rfl⟩ := planParam_eq_ok.mp h
  rfl

/-! ### Declared parameters in order -/

/-- The plans of declared parameters that start at position `index`: the variadic marker takes a
position and has no plan. -/
inductive PlansAll (p : Planner) : Nat → List Parameter → List DeclaredPlan → Prop
  | nil (index : Nat) : PlansAll p index [] []
  | variadic {index : Nat} {param : Parameter} {params : List Parameter}
      {plans : List DeclaredPlan} (hvariadic : param.isVariadic = true)
      (hrest : PlansAll p (index + 1) params plans) : PlansAll p index (param :: params) plans
  | fixed {param : Parameter} {params : List Parameter} {q : DeclaredPlan}
      {plans : List DeclaredPlan} (hfixed : param.isVariadic = false)
      (hplan : p.planParam param = .ok q.toParamPlan)
      (hrest : PlansAll p (q.index + 1) params plans) :
      PlansAll p q.index (param :: params) (q :: plans)

/-- Planning declared parameters gives their plans. -/
theorem planParams_plansAll (h : p.planParams index params = .ok plans) :
    p.PlansAll index params plans := by
  induction params generalizing index plans with
  | nil => cases h; exact .nil index
  | cons param rest ih =>
    by_cases hvariadic : param.isVariadic = true
    · rw [planParams, if_pos hvariadic] at h
      exact .variadic hvariadic (ih h)
    · rw [planParams, if_neg hvariadic] at h
      cases hplan : p.planParam param with
      | error e => simp [hplan] at h
      | ok q =>
        cases hrest : p.planParams (index + 1) rest with
        | error e => simp [hplan, hrest, Except.map] at h
        | ok others =>
          obtain rfl : { q with index := index } :: others = plans := by
            simpa [hplan, hrest, Except.map] using h
          exact .fixed (q := { q with index := index }) (by simpa using hvariadic) hplan (ih hrest)

namespace PlansAll

/-- The plan of a declared parameter stands behind the plans of those declared before it. -/
theorem getElem? (h : p.PlansAll index params plans) {k : Nat} {param : Parameter}
    (hk : params[k]? = some param) (hfixed : param.isVariadic = false) :
    ∃ q, plans[(params.take k).countP (!·.isVariadic)]? = some q ∧ q.index = index + k ∧
      p.planParam param = .ok q.toParamPlan := by
  induction h generalizing k with
  | nil => simp at hk
  | variadic hvariadic _ ih =>
    cases k with
    | zero =>
      obtain rfl := Option.some.inj hk
      rw [hvariadic] at hfixed
      cases hfixed
    | succ k =>
      obtain ⟨q, hq, hindex, hplan⟩ := ih (by simpa using hk)
      exact ⟨q, by simpa [hvariadic] using hq, by omega, hplan⟩
  | @fixed first _ q _ hfirst hplan _ ih =>
    cases k with
    | zero =>
      obtain rfl := Option.some.inj hk
      exact ⟨q, rfl, rfl, hplan⟩
    | succ k =>
      obtain ⟨q', hq', hindex, hplan'⟩ := ih (by simpa using hk)
      exact ⟨q', by simpa [hfirst] using hq', by omega, hplan'⟩

/-- Every plan is that of a declared parameter. -/
theorem exists_of_mem (h : p.PlansAll index params plans) {q : DeclaredPlan} (hq : q ∈ plans) :
    ∃ k param, params[k]? = some param ∧ param.isVariadic = false ∧ q.index = index + k ∧
      p.planParam param = .ok q.toParamPlan := by
  induction h with
  | nil => simp at hq
  | variadic _ _ ih =>
    obtain ⟨k, param, hk, hfixed, hindex, hplan⟩ := ih hq
    exact ⟨k + 1, param, by simpa using hk, hfixed, by omega, hplan⟩
  | @fixed first _ q' _ hfirst hplan' _ ih =>
    rcases List.mem_cons.mp hq with rfl | hq
    · exact ⟨0, first, rfl, hfirst, rfl, hplan'⟩
    · obtain ⟨k, param, hk, hfixed, hindex, hplan⟩ := ih hq
      exact ⟨k + 1, param, by simpa using hk, hfixed, by omega, hplan⟩

/-- The declared indices grow from each plan to the next. -/
theorem pairwise_index (h : p.PlansAll index params plans) :
    plans.Pairwise (·.index < ·.index) := by
  induction h with
  | nil => exact .nil
  | variadic _ _ ih => exact ih
  | fixed _ _ hrest ih =>
    refine .cons (fun q hq => ?_) ih
    obtain ⟨k, -, -, -, hindex, -⟩ := hrest.exists_of_mem hq
    omega

/-- The declared parameters without the variadic markers are planned one by one. -/
theorem forall₂ (h : p.PlansAll index params plans) :
    List.Forall₂ (fun param q => p.planParam param = .ok q)
      (params.filter (!·.isVariadic)) (plans.map (·.toParamPlan)) := by
  induction h with
  | nil => exact .nil
  | variadic hvariadic _ ih =>
    rw [List.filter_cons_of_neg (by simp [hvariadic])]
    exact ih
  | fixed hfixed hplan _ ih =>
    rw [List.filter_cons_of_pos (by simp [hfixed]), List.map_cons]
    exact .cons hplan ih

end PlansAll

/-! ### Callables -/

/-- What the plan of a callable takes from its declaration. -/
structure Plans (p : Planner) (c : Callable) (plan : CallablePlan) : Prop where
  receiver : p.planReceiver c.receiver = .ok plan.receiver
  params : p.PlansAll 0 c.params plan.params
  result : (if c.kind = .constructor then p.planConstructed c else p.planReturn c.result) =
    .ok plan.result
  kind : plan.kind = c.kind
  throws : plan.throws = c.throws
  name : plan.name = c.displayName
  linkage : plan.linkage = c.linkage

/-- A callable is planned as `Plans` says. -/
theorem plan_plans (h : p.plan c = .ok plan) : p.Plans c plan := by
  unfold Planner.plan at h
  cases hreceiver : p.planReceiver c.receiver with
  | error e => simp [hreceiver] at h
  | ok receiver =>
    cases hparams : p.planParams 0 c.params with
    | error e => simp [hreceiver, hparams] at h
    | ok params =>
      cases hresult : (if c.kind = .constructor then p.planConstructed c
          else p.planReturn c.result) with
      | error e => simp [hreceiver, hparams, hresult, Except.map] at h
      | ok result =>
        simp only [hreceiver, hparams, hresult, Except.map, Except.ok.injEq] at h
        subst h
        exact ⟨hreceiver, planParams_plansAll hparams, hresult, rfl, rfl, rfl, rfl⟩

namespace Plans

/-- A declared receiver is planned as a parameter. -/
theorem exists_receiver (h : p.Plans c plan) {receiver : Parameter}
    (hc : c.receiver = some receiver) :
    ∃ q, plan.receiver = some q ∧ p.planParam receiver = .ok q := by
  have hreceiver := h.receiver
  rw [hc] at hreceiver
  cases hplan : p.planParam receiver with
  | error e => simp [planReceiver, hplan, Except.map] at hreceiver
  | ok q => exact ⟨q, by simpa [planReceiver, hplan, Except.map, eq_comm] using hreceiver, rfl⟩

/-- A plan has a receiver if its callable declares one. -/
theorem isSome_receiver (h : p.Plans c plan) : plan.receiver.isSome = c.receiver.isSome := by
  cases hc : c.receiver with
  | none =>
    have hreceiver := h.receiver
    rw [hc] at hreceiver
    have hnone : none = plan.receiver := by simpa [planReceiver] using hreceiver
    rw [← hnone]
    rfl
  | some receiver =>
    obtain ⟨q, hq, -⟩ := h.exists_receiver hc
    rw [hq]
    rfl

/-- The declared parameter of an index is planned under that index, at the place that counting the
parameters before it gives. -/
theorem getElem? (h : p.Plans c plan) {k : Nat} {param : Parameter}
    (hk : c.params[k]? = some param) (hfixed : param.isVariadic = false) :
    ∃ q, plan.params[c.fixedBefore k]? = some q ∧ q.index = k ∧
      p.planParam param = .ok q.toParamPlan := by
  simpa [Callable.fixedBefore] using h.params.getElem? hk hfixed

/-- A planned parameter is the one that is declared under its index. -/
theorem exists_of_mem (h : p.Plans c plan) {q : DeclaredPlan} (hq : q ∈ plan.params) :
    ∃ param, c.params[q.index]? = some param ∧ param.isVariadic = false ∧
      p.planParam param = .ok q.toParamPlan := by
  obtain ⟨k, param, hk, hfixed, hindex, hplan⟩ := h.params.exists_of_mem hq
  obtain rfl : q.index = k := by omega
  exact ⟨param, hk, hfixed, hplan⟩

/-- The receiver and the declared parameters without the variadic markers are planned one by
one. -/
theorem forall₂ (h : p.Plans c plan) :
    List.Forall₂ (fun param q => p.planParam param = .ok q) (c.receiver.toList ++ c.fixedParams)
      (plan.receiver.toList ++ plan.params.map (·.toParamPlan)) := by
  refine List.rel_append ?_ h.params.forall₂
  cases hc : c.receiver with
  | none =>
    have hnone := h.isSome_receiver
    rw [hc, Option.isSome_none, Option.isSome_eq_false_iff, Option.isNone_iff_eq_none] at hnone
    rw [hnone]
    exact .nil
  | some receiver =>
    obtain ⟨q, hq, hplan⟩ := h.exists_receiver hc
    rw [hq]
    exact .cons hplan .nil

end Plans

end Planner

/-! ### Calls to look at -/

namespace Sample

/-- Planning in a namespace without entities. -/
def planner : Planner where
  registry := .empty "Demo"
  platform := .reference
  identifiers := .standard

/-- A parameter of a named type. -/
def parameter (name type : String) (direction : Direction) : Parameter where
  name := name
  shape := some (.scalar (.unqualified type))
  transfer := .none
  direction := direction
  flags := .empty

/-- A parameter that is an array of integers, with its length in a declared parameter. -/
def values (index : Nat) : Parameter where
  name := "values"
  shape := some (.array ⟨.unqualified "gint", .param index, none, none⟩)
  transfer := .none
  direction := .input
  flags := .empty

/-- A function that returns nothing. -/
def function (name : String) (params : List Parameter) : Callable where
  name := name
  linkage := "demo_" ++ name
  kind := .function
  receiver := none
  params := params
  result := .none
  throws := false
  deprecated := false
  introspectable := true
  owner := none

/-- A throwing method with a text, an array and its length, a variadic marker, and two parameters
that are passed by reference. -/
def fill : Callable :=
  { function "fill" [parameter "label" "utf8" .input, values 2, parameter "n_values" "gint" .input,
      .variadic, parameter "offset" "gint" .inout, parameter "written" "gint64" .output] with
    kind := .method
    receiver := some (parameter "self" "Buffer" .input)
    throws := true
    owner := some "Buffer" }

/-- Host arguments for `fill`, which takes none for its last parameter. -/
def fillArgs : List HostValue :=
  [.handle (.untyped (.native 4096)), .string "hi", .array [.int 1, .int 2], .int 2, .int 5]

end Sample

end ForeignCall
