import ForeignCall.Binding
import ForeignCall.Proofs.Planning
import ForeignCall.Proofs.Signature.Agreement

/-!
# Bound callables

Binding a namespace adds, drops and replaces bound callables, but each one that is left is some
declared callable bound on its own (`Model.bind_boundFrom`).  Its plan and its signature then agree
as those of a single callable do (`Model.bind_signature_eq_iff`).
-/

namespace ForeignCall

/-- The callables that a model declares, other than its callbacks. -/
def Model.callables (m : Model) : List Callable :=
  m.functions ++ m.records.flatMap (·.callables)

namespace Bindings

variable {o : BindingOptions} {p : Planner} {b : Bindings} {cs : List Callable}

/-- Every bound callable is one of `cs`, bound on its own. -/
def BoundFrom (p : Planner) (cs : List Callable) (b : Bindings) : Prop :=
  ∀ binding ∈ b.callables, ∃ c ∈ cs, CallableBinding.ofCallable p c = .ok binding

/-- What is bound after an insertion was bound before, or was inserted. -/
theorem mem_callables_insert {inserted binding : CallableBinding}
    (h : binding ∈ (b.insert inserted).2.callables) :
    binding ∈ b.callables ∨ binding = inserted := by
  have hkept : binding ∈
      (if (b.signatures.insert inserted.linkage inserted.signature).1.isSome then
        b.callables.filter (·.linkage != inserted.linkage) else b.callables) ++ [inserted] := h
  rcases List.mem_append.mp hkept with hkept | hnew
  · refine .inl ?_
    split at hkept
    · exact List.mem_of_mem_filter hkept
    · exact hkept
  · exact .inr (List.mem_singleton.mp hnew)

/-- A warning adds no bound callable. -/
theorem callables_add (b : Bindings) (binding : CallableBinding) :
    (b.add binding).callables = (b.insert binding).2.callables := by
  unfold add
  dsimp only
  split <;> rfl

/-- Binding a callable keeps where the bound callables come from. -/
theorem BoundFrom.bindCallable (h : b.BoundFrom p cs) {c : Callable} (hc : c ∈ cs) :
    (b.bindCallable o p c).BoundFrom p cs := by
  unfold Bindings.bindCallable
  split
  · exact h
  · cases hbound : CallableBinding.ofCallable p c with
    | error e => exact h
    | ok bound =>
      intro binding hbinding
      rw [callables_add] at hbinding
      rcases mem_callables_insert hbinding with hold | rfl
      · exact h binding hold
      · exact ⟨c, hc, hbound⟩

/-- Binding a record keeps where the bound callables come from. -/
theorem BoundFrom.bindRecord (h : b.BoundFrom p cs) {r : Record} (hr : r.callables ⊆ cs) :
    (b.bindRecord o p r).BoundFrom p cs := by
  unfold Bindings.bindRecord
  split
  · exact h
  · exact List.foldlRecOn (motive := BoundFrom p cs) _ _ h
      fun b hb c hc => hb.bindCallable (hr hc)

/-- Callbacks add no bound callable. -/
theorem BoundFrom.bindCallback (h : b.BoundFrom p cs) (c : Callback) :
    (b.bindCallback p c).BoundFrom p cs := by
  unfold Bindings.bindCallback
  split <;> exact h

end Bindings

variable {m : Model} {o : BindingOptions} {bs : Bindings}

/-- What a model is bound to are callables that it declares, each bound on its own. -/
theorem Model.bind_boundFrom (h : m.bind o = .ok bs) :
    ∃ r, Registry.ofModel m = .ok r ∧ bs.BoundFrom (o.planner r) m.callables := by
  unfold Model.bind at h
  cases hregistry : Registry.ofModel m with
  | error e => simp [hregistry] at h
  | ok r =>
    simp only [hregistry, Except.ok.injEq] at h
    subst h
    refine ⟨r, rfl, ?_⟩
    have hstart : (Bindings.ofModel m).BoundFrom (o.planner r) m.callables := by
      intro binding hbinding
      cases hbinding
    have hfunctions := List.foldlRecOn (motive := Bindings.BoundFrom (o.planner r) m.callables)
      m.functions (Bindings.bindCallable o (o.planner r)) hstart
      fun b hb c hc => hb.bindCallable (List.mem_append_left _ hc)
    have hrecords := List.foldlRecOn (motive := Bindings.BoundFrom (o.planner r) m.callables)
      m.records (Bindings.bindRecord o (o.planner r)) hfunctions
      fun b hb record hrecord => hb.bindRecord fun c hc =>
        List.mem_append_right _ (List.mem_flatMap.mpr ⟨record, hrecord, hc⟩)
    exact List.foldlRecOn (motive := Bindings.BoundFrom (o.planner r) m.callables)
      m.callbacks (Bindings.bindCallback (o.planner r)) hrecords
      fun b hb c _ => hb.bindCallback c

/-- The plan of a bound callable implies its signature exactly where no name clashes of a value that
is passed itself. -/
theorem Model.bind_signature_eq_iff (h : m.bind o = .ok bs) :
    ∃ r, Registry.ofModel m = .ok r ∧ ∀ binding ∈ bs.callables, ∃ c ∈ m.callables,
      CallableBinding.ofCallable (o.planner r) c = .ok binding ∧
        (binding.plan.signature = binding.signature ↔
          ∀ name ∈ c.directNames, ¬ (o.planner r).Clashes name) := by
  obtain ⟨r, hr, hbound⟩ := bind_boundFrom h
  refine ⟨r, hr, fun binding hbinding => ?_⟩
  obtain ⟨c, hc, hbinding⟩ := hbound binding hbinding
  refine ⟨c, hc, hbinding, ?_⟩
  unfold CallableBinding.ofCallable at hbinding
  cases hsignature : Signature.ofCallable (o.planner r).registry (o.planner r).platform c with
  | error e => simp [hsignature] at hbinding
  | ok signature =>
    cases hplan : (o.planner r).plan c with
    | error e => simp [hsignature, hplan] at hbinding
    | ok plan =>
      obtain rfl : { plan := plan, signature := signature, deprecated := c.deprecated } =
          binding := by
        simpa [hsignature, hplan] using hbinding
      exact Planner.plan_signature_eq_iff hplan hsignature

/-- A namespace with an enumeration that is named like a keyword, and a function of it. -/
def Sample.seekModel : Model :=
  { Model.empty "Demo" "1.0" with
    enumerations := [⟨"gint64", false, [⟨"A", 0⟩], none, none⟩]
    functions := [Sample.function "seek" [Sample.parameter "offset" "gint64" .input]] }

/-- The one callable of the sample namespace is bound, and agrees with its signature if neither the
name of its parameter nor that of its result clashes. -/
theorem Model.bind_signature_eq_iff_sample :
    ∃ bs r binding, Sample.seekModel.bind .standard = .ok bs ∧
      Registry.ofModel Sample.seekModel = .ok r ∧ bs.callables = [binding] ∧
      (binding.plan.signature = binding.signature ↔
        ∀ name ∈ [TypeName.unqualified "gint64", .unqualified "none"],
          ¬ (BindingOptions.standard.planner r).Clashes name) := by
  obtain ⟨r, hr, hbindings⟩ := bind_signature_eq_iff (m := Sample.seekModel) (o := .standard)
    (by rfl)
  refine ⟨_, r, _, by rfl, hr, by rfl, ?_⟩
  obtain ⟨c, hc, -, hagree⟩ := hbindings _ (.head _)
  obtain rfl : c = _ := List.mem_singleton.mp hc
  exact hagree

/-- The plan takes the slot of the enumeration, the signature that of the keyword. -/
theorem Model.bind_signature_ne_of_keyword :
    ∃ bs binding, Sample.seekModel.bind .standard = .ok bs ∧ binding ∈ bs.callables ∧
      binding.plan.signature = ⟨[.i32], .void⟩ ∧ binding.signature = ⟨[.i64], .void⟩ ∧
      binding.plan.signature ≠ binding.signature := by
  refine ⟨_, _, by rfl, .head _, by rfl, by rfl, ?_⟩
  intro h
  cases h

end ForeignCall
