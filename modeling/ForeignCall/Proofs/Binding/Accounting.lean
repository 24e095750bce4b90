import Mathlib.Data.Finset.Card
import ForeignCall.Proofs.Binding.LastWins
import ForeignCall.Proofs.Registry.Contents

/-!
# Nothing is lost silently

Every declaration that binding comes to leaves a trace: a skipped record or callable a piece of
information, one that fails an error, a bound callable a binding, and where it displaces an earlier
one a warning.  `Model.bind_accounts` says which messages there are and that the numbers add up.

`Bindings.Accounts` carries the messages along the passes over functions and records.  The number of
warnings follows from `Bindings.Tracks`, since a bound callable displaces another exactly if its
linkage is not new; the number of callback signatures from the names of the callbacks, which are
different since the registry took them.
-/

namespace ForeignCall

/-! ### Messages about declarations -/

/-- The message about a callable that is passed over. -/
def Callable.passedOver (c : Callable) : Diagnostic where
  severity := .info
  message := "skipped non-introspectable callable"
  entity := some c.displayName

/-- The message about a record that is passed over. -/
def Record.passedOver (r : Record) : Diagnostic where
  severity := .info
  message := "skipped non-introspectable record"
  entity := some r.name

namespace Planner

/-- Why a callable cannot be bound: its signature cannot be built, or else it cannot be planned. -/
def failure? (p : Planner) (c : Callable) : Option BindingError :=
  match Signature.ofCallable p.registry p.platform c with
  | .error e => some (.signature e)
  | .ok _ =>
    match p.plan c with
    | .error e => some (.marshal e)
    | .ok _ => none

/-- Why a callback has no signature. -/
def callbackFailure? (p : Planner) (c : Callback) : Option SignatureError :=
  match Signature.ofCallable p.registry p.platform c.signature with
  | .error e => some e
  | .ok _ => none

/-- The messages about callbacks that have no signature. -/
def callbackFailures (p : Planner) (callbacks : List Callback) : List Diagnostic :=
  callbacks.filterMap fun c =>
    (p.callbackFailure? c).map fun e => ⟨.error, e.message, some c.name⟩

end Planner

namespace BindingOptions

/-- The messages about callables that binding does not look at. -/
def passedOver (o : BindingOptions) (cs : List Callable) : List Diagnostic :=
  (cs.filter (!o.admits ·.introspectable)).map (·.passedOver)

/-- The messages about a record that binding does not look at, or else about those of its callables
that it does not look at. -/
def passedOverIn (o : BindingOptions) (r : Record) : List Diagnostic :=
  if o.admits r.introspectable then o.passedOver r.callables else [r.passedOver]

/-- The messages about callables that binding looks at and that fail. -/
def failures (o : BindingOptions) (p : Planner) (cs : List Callable) : List Diagnostic :=
  (cs.filter (o.admits ·.introspectable)).filterMap fun c =>
    (p.failure? c).map fun e => ⟨.error, e.message, some c.displayName⟩

end BindingOptions

/-! ### Counting declarations -/

section Counting

variable {o : BindingOptions} {p : Planner} {c : Callable}

theorem BindingOptions.passedOver_append (o : BindingOptions) (cs ds : List Callable) :
    o.passedOver (cs ++ ds) = o.passedOver cs ++ o.passedOver ds := by
  simp [passedOver]

/-- A callable fails as binding it says. -/
theorem Planner.failure?_eq (p : Planner) (c : Callable) : p.failure? c =
    match CallableBinding.ofCallable p c with
    | .error e => some e
    | .ok _ => none := by
  unfold failure? CallableBinding.ofCallable
  cases Signature.ofCallable p.registry p.platform c with
  | error e => rfl
  | ok signature => cases p.plan c <;> rfl

/-- A callable fails exactly if it cannot be bound. -/
theorem Planner.isSome_failure? (p : Planner) (c : Callable) :
    (p.failure? c).isSome = !p.binds c := by
  rw [failure?_eq, ← CallableBinding.isOk_ofCallable]
  cases CallableBinding.ofCallable p c <;> rfl

/-- Every callable is passed over, fails or is bound. -/
theorem BindingOptions.length_split (o : BindingOptions) (p : Planner) (cs : List Callable) :
    (o.passedOver cs).length + (o.failures p cs).length + (o.bound p cs).length = cs.length := by
  induction cs with
  | nil => rfl
  | cons c rest ih =>
    have hfailure := p.isSome_failure? c
    simp only [passedOver, failures, bound, List.length_map] at ih ⊢
    cases hadmits : o.admits c.introspectable with
    | false =>
      simp only [List.filter_cons, hadmits, Bool.not_false, if_true, Bool.false_eq_true, if_false,
        Bool.false_and, List.length_cons]
      omega
    | true =>
      cases hbinds : p.binds c with
      | false =>
        obtain ⟨e, he⟩ := Option.isSome_iff_exists.mp (hfailure.trans (by rw [hbinds]; rfl))
        simp only [List.filter_cons, hadmits, hbinds, he, Bool.not_true, Bool.false_eq_true,
          if_false, if_true, Bool.and_false, List.filterMap_cons, Option.map_some,
          List.length_cons]
        omega
      | true =>
        have hnone : p.failure? c = none := by
          rw [hbinds] at hfailure
          exact Option.isSome_eq_false_iff.mp hfailure |> Option.isNone_iff_eq_none.mp
        simp only [List.filter_cons, hadmits, hbinds, hnone, Bool.not_true, Bool.false_eq_true,
          if_false, if_true, Bool.and_true, List.filterMap_cons, Option.map_none,
          List.length_cons]
        omega

/-- Of the records, those that are passed over leave one message each, and the others those of their
callables. -/
theorem BindingOptions.length_passedOverIn (o : BindingOptions) (rs : List Record) :
    (rs.flatMap o.passedOverIn).length =
      (o.passedOver ((rs.filter (o.admits ·.introspectable)).flatMap (·.callables))).length +
        (rs.filter (!o.admits ·.introspectable)).length := by
  induction rs with
  | nil => rfl
  | cons r rest ih =>
    rw [List.flatMap_cons, List.length_append, ih]
    cases hadmits : o.admits r.introspectable with
    | false => simp [passedOverIn, hadmits]; omega
    | true => simp [passedOverIn, passedOver, hadmits]; omega

/-- The messages of information are about callables that are passed over among those that binding
comes to, and about the records that it does not look at. -/
theorem Model.length_passedOver (m : Model) (o : BindingOptions) :
    (o.passedOver m.functions ++ m.records.flatMap o.passedOverIn).length =
      (o.passedOver (m.offered o)).length +
        (m.records.filter (!o.admits ·.introspectable)).length := by
  rw [offered, o.passedOver_append, List.length_append, List.length_append,
    o.length_passedOverIn, Nat.add_assoc]

/-- A further linkage counts if it is a new one. -/
theorem card_linkages_append_singleton (cs : List Callable) (c : Callable) :
    (((cs ++ [c]).map (·.linkage)).toFinset).card =
      ((cs.map (·.linkage)).toFinset).card + if c.linkage ∈ cs.map (·.linkage) then 0 else 1 := by
  have hinsert : ((cs ++ [c]).map (·.linkage)).toFinset =
      insert c.linkage (cs.map (·.linkage)).toFinset := by
    rw [List.map_append, List.toFinset_append, Finset.union_comm]
    rfl
  rw [hinsert]
  by_cases hmem : c.linkage ∈ cs.map (·.linkage)
  · rw [if_pos hmem, Finset.insert_eq_of_mem (List.mem_toFinset.mpr hmem), Nat.add_zero]
  · rw [if_neg hmem, Finset.card_insert_of_notMem fun h => hmem (List.mem_toFinset.mp h)]

end Counting

/-! ### Messages along the passes -/

namespace Bindings

variable {o : BindingOptions} {p : Planner} {b : Bindings} {c : Callable}
  {binding : CallableBinding} {bound seen : List Callable} {infos : List Diagnostic}

/-- An added callable is reported if it displaces another. -/
theorem diagnostics_add (b : Bindings) (binding : CallableBinding) :
    (b.add binding).diagnostics =
      if (b.signatures.get? binding.linkage).isSome then
        b.diagnostics.warning ("duplicate linkage identifier '" ++ binding.linkage ++ "'")
          (some binding.name)
      else b.diagnostics := by
  unfold add insert SignatureTable.insert
  dsimp only
  split <;> rfl

theorem callbackSignatures_add (b : Bindings) (binding : CallableBinding) :
    (b.add binding).callbackSignatures = b.callbackSignatures := by
  unfold add
  dsimp only
  split <;> rfl

/-- There are as many bound callables as linkages. -/
theorem Tracks.length_callables (h : b.Tracks p bound) :
    b.callables.length = (bound.map (·.linkage)).toFinset.card := by
  rw [List.card_toFinset, ← map_linkage_lastByLinkage, List.length_map]
  exact h.callables.length_eq.symm

/-- The linkages that have a signature are those of the callables that were bound. -/
theorem Tracks.isSome_get?_iff (h : b.Tracks p bound) (linkage : String) :
    (b.signatures.get? linkage).isSome = true ↔ linkage ∈ bound.map (·.linkage) := by
  have hlinkages : b.callables.map (·.linkage) = (bound.map (·.linkage)).dedup := by
    rw [CallableBinding.map_linkage_eq h.callables, map_linkage_lastByLinkage]
  rw [← List.mem_dedup, ← hlinkages, List.mem_map, Option.isSome_iff_exists]
  constructor
  · rintro ⟨signature, hsignature⟩
    obtain ⟨other, hother, hlinkage, -⟩ := (h.signatures _ _).mp hsignature
    exact ⟨other, hother, hlinkage⟩
  · rintro ⟨other, hother, hlinkage⟩
    exact ⟨other.signature, (h.signatures _ _).mpr ⟨other, hother, hlinkage, rfl⟩⟩

/-- The messages about the callables that were gone through, besides what is bound of them. -/
structure Accounts (o : BindingOptions) (p : Planner) (seen : List Callable)
    (infos : List Diagnostic) (b : Bindings) : Prop extends Tracks p (o.bound p seen) b where
  infos_eq : b.diagnostics.ofSeverity .info = infos
  errors_eq : b.diagnostics.errors = o.failures p seen
  /-- Every bound callable has a linkage that is new, or there is a warning about it. -/
  warnings_eq : b.diagnostics.warnings.length +
    ((o.bound p seen).map (·.linkage)).toFinset.card = (o.bound p seen).length
  callbackSignatures_eq : b.callbackSignatures = .empty

namespace Accounts

theorem ofModel (o : BindingOptions) (p : Planner) (m : Model) :
    (Bindings.ofModel m).Accounts o p [] [] where
  toTracks := .ofModel p m
  infos_eq := rfl
  errors_eq := rfl
  warnings_eq := rfl
  callbackSignatures_eq := rfl

/-- A piece of information counts for no callable. -/
theorem info (h : b.Accounts o p seen infos) {item : Diagnostic}
    (hseverity : item.severity = .info) :
    { b with diagnostics := b.diagnostics.add item }.Accounts o p seen (infos ++ [item]) where
  toTracks := h.toTracks.congr rfl rfl
  infos_eq := by rw [Diagnostics.ofSeverity_add, if_pos hseverity, h.infos_eq]
  errors_eq := by
    rw [← h.errors_eq, Diagnostics.errors, Diagnostics.ofSeverity_add, hseverity]
    rfl
  warnings_eq := by
    rw [← h.warnings_eq, Diagnostics.warnings, Diagnostics.ofSeverity_add, hseverity]
    rfl
  callbackSignatures_eq := h.callbackSignatures_eq

/-- A callable that leaves no error and is not bound does not count otherwise. -/
theorem append_of_passedOver (h : b.Accounts o p seen infos)
    (hadmits : o.admits c.introspectable = false) : b.Accounts o p (seen ++ [c]) infos := by
  have hbound : o.bound p (seen ++ [c]) = o.bound p seen := by
    simp [BindingOptions.bound, hadmits]
  have hfailures : o.failures p (seen ++ [c]) = o.failures p seen := by
    simp [BindingOptions.failures, hadmits]
  constructor
  case toTracks =>
    rw [hbound]
    exact h.toTracks
  case infos_eq => exact h.infos_eq
  case errors_eq => rw [hfailures, h.errors_eq]
  case warnings_eq => rw [hbound, h.warnings_eq]
  case callbackSignatures_eq => exact h.callbackSignatures_eq

/-- A callable that is passed over leaves a piece of information. -/
theorem passOver (h : b.Accounts o p seen infos) (hadmits : o.admits c.introspectable = false) :
    { b with diagnostics := b.diagnostics.add c.passedOver }.Accounts o p (seen ++ [c])
      (infos ++ o.passedOver [c]) := by
  have hinfo : o.passedOver [c] = [c.passedOver] := by simp [BindingOptions.passedOver, hadmits]
  rw [hinfo]
  exact (h.append_of_passedOver hadmits).info rfl

/-- A callable that fails leaves an error. -/
theorem fail (h : b.Accounts o p seen infos) {e : BindingError}
    (hadmits : o.admits c.introspectable = true) (hbinds : p.binds c = false)
    (he : CallableBinding.ofCallable p c = .error e) :
    { b with diagnostics := b.diagnostics.error e.message (some c.displayName) }.Accounts o p
      (seen ++ [c]) (infos ++ o.passedOver [c]) := by
  have hbound : o.bound p (seen ++ [c]) = o.bound p seen := by
    simp [BindingOptions.bound, hbinds]
  have hfailures : o.failures p (seen ++ [c]) =
      o.failures p seen ++ [⟨.error, e.message, some c.displayName⟩] := by
    simp [BindingOptions.failures, hadmits, Planner.failure?_eq, he]
  have hinfo : o.passedOver [c] = [] := by simp [BindingOptions.passedOver, hadmits]
  constructor
  case toTracks =>
    rw [hbound]
    exact h.toTracks.congr rfl rfl
  case infos_eq =>
    rw [hinfo, List.append_nil, ← h.infos_eq]
    exact Diagnostics.ofSeverity_add _ _ _
  case errors_eq =>
    rw [hfailures, ← h.errors_eq]
    exact Diagnostics.ofSeverity_add _ _ _
  case warnings_eq =>
    rw [hbound, ← h.warnings_eq]
    exact congrArg (·.length + _) (Diagnostics.ofSeverity_add _ _ _)
  case callbackSignatures_eq => exact h.callbackSignatures_eq

/-- A callable that is bound leaves a warning if its linkage is not new. -/
theorem add (h : b.Accounts o p seen infos) (hadmits : o.admits c.introspectable = true)
    (hbinds : p.binds c = true) (hc : CallableBinding.IsOf p c binding) :
    (b.add binding).Accounts o p (seen ++ [c]) (infos ++ o.passedOver [c]) := by
  have hbound : o.bound p (seen ++ [c]) = o.bound p seen ++ [c] := by
    simp [BindingOptions.bound, hadmits, hbinds]
  have hfailures : o.failures p (seen ++ [c]) = o.failures p seen := by
    simp [BindingOptions.failures, hadmits, Planner.failure?_eq,
      CallableBinding.ofCallable_eq_ok_iff.mpr hc]
  have hinfo : o.passedOver [c] = [] := by simp [BindingOptions.passedOver, hadmits]
  have hdiagnostics := diagnostics_add b binding
  rw [hc.linkage_eq] at hdiagnostics
  constructor
  case toTracks =>
    rw [hbound]
    exact h.toTracks.add hc
  case infos_eq =>
    rw [hdiagnostics, hinfo, List.append_nil, ← h.infos_eq]
    split
    · exact Diagnostics.ofSeverity_add _ _ _
    · rfl
  case errors_eq =>
    rw [hdiagnostics, hfailures, ← h.errors_eq]
    split
    · exact Diagnostics.ofSeverity_add _ _ _
    · rfl
  case warnings_eq =>
    have hwarnings := h.warnings_eq
    rw [hdiagnostics, hbound, card_linkages_append_singleton, List.length_append,
      List.length_singleton]
    by_cases hold : c.linkage ∈ (o.bound p seen).map (·.linkage)
    · have hlength : (b.diagnostics.warning ("duplicate linkage identifier '" ++ c.linkage ++ "'")
          (some binding.name)).warnings.length = b.diagnostics.warnings.length + 1 :=
        (congrArg List.length (Diagnostics.ofSeverity_add _ _ _)).trans (List.length_append ..)
      rw [if_pos ((h.isSome_get?_iff _).mpr hold), if_pos hold, hlength]
      omega
    · rw [if_neg fun hsome => hold ((h.isSome_get?_iff _).mp hsome), if_neg hold]
      omega
  case callbackSignatures_eq =>
    rw [callbackSignatures_add]
    exact h.callbackSignatures_eq

/-- Binding a callable leaves the trace of what it came to. -/
theorem bindCallable (h : b.Accounts o p seen infos) (c : Callable) :
    (b.bindCallable o p c).Accounts o p (seen ++ [c]) (infos ++ o.passedOver [c]) := by
  rcases bindCallable_cases o p b c with ⟨hadmits, hb⟩ | ⟨hadmits, hbinds, binding, hc, hb⟩ |
    ⟨hadmits, hbinds, e, he, hb⟩
  · rw [hb]
    exact h.passOver hadmits
  · rw [hb]
    exact h.add hadmits hbinds hc
  · rw [hb]
    exact h.fail hadmits hbinds he

/-- Binding callables in order leaves the trace of each. -/
theorem foldl_bindCallable (h : b.Accounts o p seen infos) (cs : List Callable) :
    (cs.foldl (Bindings.bindCallable o p) b).Accounts o p (seen ++ cs)
      (infos ++ o.passedOver cs) := by
  induction cs generalizing b seen infos with
  | nil => simpa [BindingOptions.passedOver] using h
  | cons c rest ih =>
    have hsplit : o.passedOver (c :: rest) = o.passedOver [c] ++ o.passedOver rest :=
      o.passedOver_append [c] rest
    rw [List.foldl_cons, hsplit, ← List.append_assoc, List.append_cons]
    exact ih (h.bindCallable c)

/-- Binding a record leaves a message about it, or the trace of each of its callables. -/
theorem bindRecord (h : b.Accounts o p seen infos) (r : Record) :
    (b.bindRecord o p r).Accounts o p
      (seen ++ if o.admits r.introspectable then r.callables else [])
      (infos ++ o.passedOverIn r) := by
  unfold BindingOptions.passedOverIn
  cases hadmits : o.admits r.introspectable with
  | true =>
    rw [bindRecord_of_admits hadmits, if_pos rfl, if_pos rfl]
    exact h.foldl_bindCallable r.callables
  | false =>
    rw [bindRecord_of_not_admits hadmits, if_neg Bool.false_ne_true, if_neg Bool.false_ne_true,
      List.append_nil]
    exact h.info rfl

/-- Binding records in order leaves the messages about each. -/
theorem foldl_bindRecord (h : b.Accounts o p seen infos) (rs : List Record) :
    (rs.foldl (Bindings.bindRecord o p) b).Accounts o p
      (seen ++ (rs.filter (o.admits ·.introspectable)).flatMap (·.callables))
      (infos ++ rs.flatMap o.passedOverIn) := by
  induction rs generalizing b seen infos with
  | nil => simpa using h
  | cons r rest ih =>
    rw [List.foldl_cons, o.callables_cons, List.flatMap_cons, ← List.append_assoc,
      ← List.append_assoc]
    exact ih (h.bindRecord r)

end Accounts

/-! ### Callbacks -/

/-- A callback gets its signature, or leaves an error. -/
theorem bindCallback_cases (p : Planner) (b : Bindings) (c : Callback) :
    (∃ signature, p.callbackFailure? c = none ∧ b.bindCallback p c =
        { b with callbackSignatures := (b.callbackSignatures.insert c.name signature).2 }) ∨
      ∃ e, p.callbackFailure? c = some e ∧ b.bindCallback p c =
        { b with diagnostics := b.diagnostics.error e.message (some c.name) } := by
  unfold Planner.callbackFailure? bindCallback
  cases Signature.ofCallable p.registry p.platform c.signature with
  | ok signature => exact .inl ⟨signature, rfl, rfl⟩
  | error e => exact .inr ⟨e, rfl, rfl⟩

/-- Callbacks leave errors and no other messages. -/
theorem diagnostics_foldl_bindCallback (p : Planner) (callbacks : List Callback) (b : Bindings) :
    (callbacks.foldl (bindCallback p) b).diagnostics.ofSeverity .info =
        b.diagnostics.ofSeverity .info ∧
      (callbacks.foldl (bindCallback p) b).diagnostics.errors =
        b.diagnostics.errors ++ p.callbackFailures callbacks ∧
      (callbacks.foldl (bindCallback p) b).diagnostics.warnings = b.diagnostics.warnings := by
  induction callbacks generalizing b with
  | nil => exact ⟨rfl, (List.append_nil _).symm, rfl⟩
  | cons c rest ih =>
    obtain ⟨hinfos, herrors, hwarnings⟩ := ih (b.bindCallback p c)
    rw [List.foldl_cons, hinfos, herrors, hwarnings]
    rcases bindCallback_cases p b c with ⟨signature, hnone, hb⟩ | ⟨e, he, hb⟩
    · have hfailures : p.callbackFailures (c :: rest) = p.callbackFailures rest := by
        simp [Planner.callbackFailures, hnone]
      rw [hb, hfailures]
      exact ⟨rfl, rfl, rfl⟩
    · have hfailures : p.callbackFailures (c :: rest) =
          ⟨.error, e.message, some c.name⟩ :: p.callbackFailures rest := by
        simp [Planner.callbackFailures, he]
      have herror : (b.diagnostics.error e.message (some c.name)).errors =
          b.diagnostics.errors ++ [⟨.error, e.message, some c.name⟩] :=
        Diagnostics.ofSeverity_add _ _ _
      rw [hb, hfailures, herror, List.append_assoc]
      exact ⟨Diagnostics.ofSeverity_add _ _ _, rfl, Diagnostics.ofSeverity_add _ _ _⟩

/-- Callbacks of different names that have no signature yet get one each, but for those that leave
an error. -/
theorem size_foldl_bindCallback (p : Planner) {callbacks : List Callback} {b : Bindings}
    (hnames : (callbacks.map (·.name)).Nodup)
    (hnew : ∀ c ∈ callbacks, b.callbackSignatures.get? c.name = none) :
    (callbacks.foldl (bindCallback p) b).callbackSignatures.size +
        (p.callbackFailures callbacks).length =
      b.callbackSignatures.size + callbacks.length := by
  induction callbacks generalizing b with
  | nil => rfl
  | cons c rest ih =>
    obtain ⟨hfresh, hrest⟩ := List.nodup_cons.mp hnames
    have hc := hnew c List.mem_cons_self
    have hothers (d : Callback) (hd : d ∈ rest) := hnew d (List.mem_cons_of_mem _ hd)
    rw [List.foldl_cons, List.length_cons]
    rcases bindCallback_cases p b c with ⟨signature, hnone, hb⟩ | ⟨e, he, hb⟩
    · have hfailures : p.callbackFailures (c :: rest) = p.callbackFailures rest := by
        simp [Planner.callbackFailures, hnone]
      have hstep := ih (b := b.bindCallback p c) hrest fun d hd => by
        have hne : d.name ≠ c.name := fun heq => hfresh (List.mem_map.mpr ⟨d, hd, heq⟩)
        rw [hb, SignatureTable.get?_insert, if_neg hne]
        exact hothers d hd
      have hsize : (b.bindCallback p c).callbackSignatures.size =
          b.callbackSignatures.size + 1 := by
        rw [hb]
        exact SignatureTable.size_insert _ _ _ hc
      rw [hfailures]
      omega
    · have hfailures : (p.callbackFailures (c :: rest)).length =
          (p.callbackFailures rest).length + 1 := by
        simp [Planner.callbackFailures, he]
      have hstep := ih (b := b.bindCallback p c) hrest fun d hd => by
        rw [hb]
        exact hothers d hd
      have hsize : (b.bindCallback p c).callbackSignatures.size = b.callbackSignatures.size := by
        rw [hb]
      omega

/-- Before the callbacks none has a signature, so afterwards each has one or has left an error. -/
theorem Accounts.size_callbackSignatures (h : b.Accounts o p seen infos)
    {callbacks : List Callback} (hnames : (callbacks.map (·.name)).Nodup) :
    (callbacks.foldl (bindCallback p) b).callbackSignatures.size +
        (p.callbackFailures callbacks).length = callbacks.length := by
  have hnew : ∀ c ∈ callbacks, b.callbackSignatures.get? c.name = none := by
    intro c _
    rw [h.callbackSignatures_eq]
    rfl
  have hsize := size_foldl_bindCallback p hnames hnew
  rw [h.callbackSignatures_eq] at hsize
  exact hsize.trans (Nat.zero_add _)

end Bindings

/-! ### The whole run -/

namespace Model

variable {m : Model} {o : BindingOptions} {bs : Bindings}

/-- The passes over functions and records account for all callables that binding comes to. -/
theorem accounts_foldl_bindRecord (m : Model) (o : BindingOptions) (p : Planner) :
    (m.records.foldl (Bindings.bindRecord o p)
      (m.functions.foldl (Bindings.bindCallable o p) (.ofModel m))).Accounts o p (m.offered o)
        (o.passedOver m.functions ++ m.records.flatMap o.passedOverIn) :=
  ((Bindings.Accounts.ofModel o p m).foldl_bindCallable m.functions).foldl_bindRecord m.records

/-- Whatever a bound model declares is bound, or there is a message about it. -/
theorem bind_accounts (h : m.bind o = .ok bs) : ∃ r, Registry.ofModel m = .ok r ∧
    bs.diagnostics.size + bs.callables.length + bs.callbackSignatures.size =
      m.functions.length +
        ((m.records.filter (o.admits ·.introspectable)).flatMap (·.callables)).length +
        (m.records.filter (!o.admits ·.introspectable)).length + m.callbacks.length ∧
    bs.diagnostics.ofSeverity .info =
      o.passedOver m.functions ++ m.records.flatMap o.passedOverIn ∧
    bs.diagnostics.errors =
      o.failures (o.planner r) (m.offered o) ++ (o.planner r).callbackFailures m.callbacks ∧
    bs.diagnostics.warnings.length +
        ((o.bound (o.planner r) (m.offered o)).map (·.linkage)).toFinset.card =
      (o.bound (o.planner r) (m.offered o)).length := by
  obtain ⟨r, hr, rfl⟩ := bind_eq_ok_iff.mp h
  refine ⟨r, hr, ?_⟩
  have haccounts := m.accounts_foldl_bindRecord o (o.planner r)
  generalize hb : m.records.foldl (Bindings.bindRecord o (o.planner r))
    (m.functions.foldl (Bindings.bindCallable o (o.planner r)) (.ofModel m)) = b at haccounts ⊢
  obtain ⟨hinfos, herrors, hwarnings⟩ :=
    Bindings.diagnostics_foldl_bindCallback (o.planner r) m.callbacks b
  have hcallables :=
    (haccounts.toTracks.foldl_bindCallback m.callbacks).length_callables
  have hcallbacks := haccounts.size_callbackSignatures (Registry.nodup_callback_names hr)
  rw [haccounts.infos_eq] at hinfos
  rw [haccounts.errors_eq] at herrors
  refine ⟨?_, hinfos, herrors, by rw [hwarnings]; exact haccounts.warnings_eq⟩
  have hpassed := m.length_passedOver o
  have hsplit := o.length_split (o.planner r) (m.offered o)
  have hbalance := haccounts.warnings_eq
  have hoffered : (m.offered o).length = m.functions.length +
      ((m.records.filter (o.admits ·.introspectable)).flatMap (·.callables)).length :=
    List.length_append
  rw [Diagnostics.size_eq, hinfos, hpassed, herrors, List.length_append, hwarnings, hcallables]
  omega

/-- Of the seven declarations of the sample namespace one is bound, one callback has a signature,
and the other five have left a message. -/
theorem bind_accounts_sample : ∃ bs r, Sample.overlapping.bind .standard = .ok bs ∧
    Registry.ofModel Sample.overlapping = .ok r ∧
    bs.diagnostics.size = 5 ∧ bs.callables.length = 1 ∧ bs.callbackSignatures.size = 1 ∧
    bs.diagnostics.size + bs.callables.length + bs.callbackSignatures.size = 3 + 1 + 1 + 2 ∧
    bs.diagnostics.ofSeverity .info =
      [⟨.info, "skipped non-introspectable callable", some "hidden"⟩,
        ⟨.info, "skipped non-introspectable record", some "Private"⟩] ∧
    bs.diagnostics.errors =
      [⟨.error, "broken: parameter 'x' has no type descriptor", some "broken"⟩,
        ⟨.error, "Broken: parameter 'item' has no type descriptor", some "Broken"⟩] ∧
    bs.diagnostics.warnings.length + 1 = 2 := by
  obtain ⟨r, hr, hcount, hinfos, herrors, hwarnings⟩ :=
    bind_accounts (m := Sample.overlapping) (o := .standard) (by rfl)
  refine ⟨_, r, by rfl, hr, by rfl, by rfl, by rfl, hcount, hinfos, ?_, ?_⟩
  · obtain rfl := Except.ok.inj hr
    exact herrors
  · obtain rfl := Except.ok.inj hr
    exact hwarnings

end Model

end ForeignCall
