import ForeignCall.Proofs.Identifiers
import ForeignCall.Proofs.Plan.Cells

/-!
# The identifiers of planned parameters

What the callee leaves in the cells is handed to the host under the identifiers of the parameters.
Each identifier is made from the name of its parameter without a look at the others, so it need not
belong to one parameter alone: the identifiers of a plan are all different exactly if no two names
clash, and so are the keys of what is collected (`Planner.plan_keyed`).  Different names clash as
soon as they differ in nothing but a dash (`Planner.plan_keys_repeated`).
-/

namespace ForeignCall

variable {p : Planner} {c : Callable} {plan : CallablePlan} {args : List HostValue}
  {f f' : Frame} {native : Native} {pairs : List (String × HostValue)}

namespace Planner.Plans

/-- Planned parameters have the names of the declared ones without the variadic markers. -/
theorem map_name (h : p.Plans c plan) :
    plan.params.map (·.name) = c.fixedParams.map (·.name) := by
  have hnames : List.Forall₂ (· = ·) (c.fixedParams.map (·.name))
      ((plan.params.map (·.toParamPlan)).map (·.name)) := by
    rw [List.forall₂_map_left_iff, List.forall₂_map_right_iff]
    exact h.params.forall₂.imp fun param q hplan => (name_of_planParam hplan).symm
  rw [List.forall₂_eq_eq_eq, List.map_map] at hnames
  exact hnames.symm

/-- Of parameters of a plan the identifiers are all different exactly if no two of their names
clash. -/
theorem nodup_ident_iff (h : p.Plans c plan) {params : List DeclaredPlan}
    (hparams : params ⊆ plan.params) : (params.map (·.ident)).Nodup ↔
      params.Pairwise fun q q' => ¬ p.identifiers.Clash q.name q'.name := by
  have hident : ∀ q ∈ params, q.ident = p.identifiers.sanitize q.name := by
    intro q hq
    obtain ⟨param, -, -, hplan⟩ := h.exists_of_mem (hparams hq)
    exact ident_of_planParam hplan
  rw [List.Nodup, List.pairwise_map]
  refine List.Pairwise.iff_of_mem fun {q q'} hq hq' => not_congr ?_
  rw [hident q hq, hident q' hq', IdentifierPolicy.sanitize_eq_sanitize_iff]

end Planner.Plans

namespace CallablePlan

/-- What is collected stands under the identifiers of the parameters with a cell. -/
theorem map_fst_of_collectOut (hplan : p.plan c = .ok plan) (hargs : plan.marshalArgs args = .ok f)
    (hafter : f.Rewritten f') (hpairs : plan.collectOut native f' = .ok pairs) :
    pairs.map (·.1) = plan.cellParams.map (·.ident) := by
  have hcells := (marshalArgs_hasCells hplan hargs).rewritten hafter
  have hvalues : ∀ q ∈ plan.cellParams, (f'.outValue? q.index).isSome = true := by
    intro q hq
    obtain ⟨hmem, hcell⟩ := List.mem_filter.mp hq
    exact hcells.outValue_isSome q hmem hcell
  have hread := (collect_eq_ok_iff hvalues).mp hpairs
  have hkeys : List.Forall₂ (· = ·) (plan.cellParams.map (·.ident)) (pairs.map (·.1)) := by
    rw [List.forall₂_map_left_iff, List.forall₂_map_right_iff]
    exact hread.imp fun q pair hpair => hpair.1.symm
  rw [List.forall₂_eq_eq_eq] at hkeys
  exact hkeys.symm

/-- How the parameters of a plan are told apart by their identifiers. -/
structure Keyed (p : Planner) (c : Callable) (plan : CallablePlan) : Prop where
  /-- Planned parameters have the names of the declared ones without the variadic markers. -/
  names_eq : plan.params.map (·.name) = c.fixedParams.map (·.name)
  /-- The identifiers are all different exactly if no two names clash. -/
  nodup_iff : (plan.params.map (·.ident)).Nodup ↔
    c.fixedParams.Pairwise fun a b => ¬ p.identifiers.Clash a.name b.name
  /-- Plain names that are all different have identifiers that are. -/
  nodup_of_isPlain : (∀ a ∈ c.fixedParams, IdentifierPolicy.IsPlain a.name) →
    (c.fixedParams.map (·.name)).Nodup → (plan.params.map (·.ident)).Nodup
  /-- Whatever the callee stores, and wherever, what is collected stands under the identifiers of
  the parameters with a cell. -/
  keys_eq : ∀ args f f' native pairs, plan.marshalArgs args = .ok f → f.Rewritten f' →
    plan.collectOut native f' = .ok pairs → pairs.map (·.1) = plan.cellParams.map (·.ident)
  /-- These are all different exactly if no two names of parameters with a cell clash. -/
  nodup_keys_iff : (plan.cellParams.map (·.ident)).Nodup ↔
    plan.cellParams.Pairwise fun q q' => ¬ p.identifiers.Clash q.name q'.name

end CallablePlan

/-- The identifiers of planned parameters are those of their names, and belong to one parameter
each exactly if no two of the names clash. -/
theorem Planner.plan_keyed (hplan : p.plan c = .ok plan) : plan.Keyed p c := by
  have hplans := plan_plans hplan
  have hnodup : (plan.params.map (·.ident)).Nodup ↔
      c.fixedParams.Pairwise fun a b => ¬ p.identifiers.Clash a.name b.name := by
    have hnames : (plan.params.map (·.name)).Pairwise (¬ p.identifiers.Clash · ·) ↔
        (c.fixedParams.map (·.name)).Pairwise (¬ p.identifiers.Clash · ·) := by
      rw [hplans.map_name]
    rw [List.pairwise_map, List.pairwise_map] at hnames
    exact (hplans.nodup_ident_iff (List.Subset.refl _)).trans hnames
  constructor
  case names_eq => exact hplans.map_name
  case nodup_iff => exact hnodup
  case nodup_of_isPlain =>
    intro hplain hnames
    rw [hnodup]
    refine (List.pairwise_map.mp hnames).imp_of_mem fun ha hb hne hclash => ?_
    exact hne (hclash.eq_of_isPlain (hplain _ ha) (hplain _ hb))
  case keys_eq =>
    intro args f f' native pairs hargs hafter hpairs
    exact CallablePlan.map_fst_of_collectOut hplan hargs hafter hpairs
  case nodup_keys_iff => exact hplans.nodup_ident_iff (List.filter_subset_self _)

/-- The names of the sample call do not clash, and its parameters have identifiers of their own. -/
theorem Planner.plan_keyed_sample :
    ∃ plan, Sample.planner.plan Sample.fill = .ok plan ∧ plan.Keyed Sample.planner Sample.fill ∧
      (Sample.fill.fixedParams.Pairwise fun a b =>
        ¬ Sample.planner.identifiers.Clash a.name b.name) ∧
      (plan.params.map (·.ident)).Nodup := by
  have hnames : Sample.fill.fixedParams.Pairwise fun a b =>
      ¬ Sample.planner.identifiers.Clash a.name b.name := by decide
  have hkeyed := @Planner.plan_keyed Sample.planner Sample.fill _ (by rfl)
  exact ⟨_, by rfl, hkeyed, hnames, hkeyed.nodup_iff.mpr hnames⟩

/-- A function with two results whose names differ in a dash. -/
def Sample.measure : Callable :=
  Sample.function "measure" [Sample.parameter "n-items" "gint" .output,
    Sample.parameter "n_items" "gint" .output]

/-- Two results are handed to the host under one identifier, though their names differ. -/
theorem Planner.plan_keys_repeated :
    ∃ plan f, Sample.planner.plan Sample.measure = .ok plan ∧
      (Sample.measure.fixedParams.map (·.name)).Nodup ∧ ¬ (plan.params.map (·.ident)).Nodup ∧
      plan.marshalArgs [] = .ok f ∧
      plan.collectOut [] (f.writeAll [] [.value 0 (.i32 1), .value 1 (.i32 2)]).2 =
        .ok [("n_items", .int 1), ("n_items", .int 2)] := by
  refine ⟨_, _, by rfl, by decide, by decide, by rfl, by rfl⟩

end ForeignCall
