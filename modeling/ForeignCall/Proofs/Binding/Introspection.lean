import ForeignCall.Proofs.Binding.LastWins
import ForeignCall.Proofs.Planning.SameTypes

/-!
# Declarations that are not introspectable

A record or a callable can be marked as not introspectable, and is left out then unless the options
ask for it.  `Model.bind_including` says that this option does nothing but override the marks: with
it a namespace is bound as without it the namespace in which everything is introspectable
(`Model.introspected`), down to the diagnostics and their order.

So nothing besides the two tests of the option may read a mark.  Registration reads the names and
kinds of its entities (`Registry.SameNames.registerAll_snd_eq`), planning reads the types of the
namespace (`Model.sameTypes_introspected`), and a step of binding with the option does what the step
without it does to the marked declaration (`Bindings.bindCallable_including` and its companions).
-/

namespace ForeignCall

/-! ### Marking declarations -/

/-- The callable, marked as introspectable. -/
def Callable.introspected (c : Callable) : Callable :=
  { c with introspectable := true }

/-- The callback with its signature marked as introspectable. -/
def Callback.introspected (c : Callback) : Callback :=
  { c with signature := c.signature.introspected }

/-- The record and all its callables, marked as introspectable. -/
def Record.introspected (r : Record) : Record :=
  { r with
    introspectable := true
    constructors := r.constructors.map (·.introspected)
    methods := r.methods.map (·.introspected)
    functions := r.functions.map (·.introspected) }

/-- The namespace with every record and every callable marked as introspectable. -/
def Model.introspected (m : Model) : Model :=
  { m with
    callbacks := m.callbacks.map (·.introspected)
    records := m.records.map (·.introspected)
    functions := m.functions.map (·.introspected) }

theorem Record.callables_introspected (r : Record) :
    r.introspected.callables = r.callables.map (·.introspected) := by
  simp only [Record.callables, Record.introspected, List.map_append]

/-! ### Registration -/

/-- The entity with its marks overridden. -/
def Entity.introspected : Entity → Entity
  | .callback entry => .callback entry.introspected
  | .record entry => .record entry.introspected
  | entity => entity

theorem Entity.name_introspected (entity : Entity) : entity.introspected.name = entity.name := by
  cases entity <;> rfl

theorem Entity.kind_introspected (entity : Entity) : entity.introspected.kind = entity.kind := by
  cases entity <;> rfl

/-- The entities of the marked namespace are those of the namespace, marked. -/
theorem Model.entities_introspected (m : Model) :
    m.introspected.entities = m.entities.map (·.introspected) := by
  simp only [Model.entities, Model.introspected, List.map_append, List.map_map]
  rfl

namespace Registry

@[simp] theorem space_file (r : Registry) (entity : Entity) :
    (r.file entity).space = r.space := by
  cases entity <;> rfl

@[simp] theorem kinds_file (r : Registry) (entity : Entity) :
    (r.file entity).kinds = r.kinds := by
  cases entity <;> rfl

/-- The registries are of one namespace and have given away the same names, to the same kinds. -/
structure SameNames (r r' : Registry) : Prop where
  space_eq : r.space = r'.space
  kinds_eq : r.kinds = r'.kinds

namespace SameNames

variable {r r' : Registry} {entity entity' : Entity}

/-- Entities of one name and one kind are both registered, or both refused for the same reason. -/
theorem register (h : r.SameNames r') (hname : entity.name = entity'.name)
    (hkind : entity.kind = entity'.kind) :
    (∃ e, r.register entity = .error e ∧ r'.register entity' = .error e) ∨
      ∃ s s', r.register entity = .ok s ∧ r'.register entity' = .ok s' ∧ s.SameNames s' := by
  have hclaims : r.claims entity.name = r'.claims entity'.name := by
    rw [claims, claims, h.kinds_eq, hname]
  rw [r.register_eq, r'.register_eq, hclaims, h.space_eq, hname, hkind]
  by_cases hempty : entity'.name = ""
  · exact .inl ⟨_, if_pos hempty, if_pos hempty⟩
  by_cases htaken : r'.claims entity'.name = true
  · rw [if_neg hempty, if_neg hempty, if_pos htaken, if_pos htaken]
    exact .inl ⟨_, rfl, rfl⟩
  · rw [if_neg hempty, if_neg hempty, if_neg htaken, if_neg htaken]
    exact .inr ⟨_, _, rfl, rfl, by simp, by simp [h.kinds_eq]⟩

/-- Whether entities are registered, and why not, is told by their names and kinds. -/
theorem registerAll_snd_eq (h : r.SameNames r') {entities entities' : List Entity}
    (halike : List.Forall₂ (fun entity entity' => entity.name = entity'.name ∧
      entity.kind = entity'.kind) entities entities') :
    (r.registerAll entities).2 = (r'.registerAll entities').2 := by
  induction halike generalizing r r' with
  | nil => rfl
  | cons hentity _ ih =>
    obtain ⟨e, hr, hr'⟩ | ⟨s, s', hr, hr', hsame⟩ := h.register hentity.1 hentity.2
    · rw [registerAll, registerAll, hr, hr']
    · rw [registerAll, registerAll, hr, hr']
      exact ih hsame

end SameNames

/-- Marks play no part in registering a model: either there is a registry both ways, or the same
entity is refused for the same reason. -/
theorem ofModel_introspected (m : Model) :
    (∃ e, ofModel m = .error e ∧ ofModel m.introspected = .error e) ∨
      ∃ r r', ofModel m = .ok r ∧ ofModel m.introspected = .ok r' := by
  have hoffending : ((empty m.name).registerModel m).2 =
      ((empty m.name).registerModel m.introspected).2 := by
    apply SameNames.registerAll_snd_eq ⟨rfl, rfl⟩
    rw [m.entities_introspected, List.forall₂_map_right_iff, List.forall₂_same]
    exact fun entity _ => ⟨entity.name_introspected.symm, entity.kind_introspected.symm⟩
  have hname : m.introspected.name = m.name := rfl
  rw [ofModel, ofModel, hname]
  by_cases hmissing : m.name.isEmpty = true
  · rw [if_pos hmissing, if_pos hmissing]
    exact .inl ⟨_, rfl, rfl⟩
  rw [if_neg hmissing, if_neg hmissing]
  rcases hr : (empty m.name).registerModel m with ⟨r, none | e⟩ <;>
    rcases hr' : (empty m.name).registerModel m.introspected with ⟨r', none | e'⟩ <;>
    rw [hr, hr'] at hoffending
  · exact .inr ⟨r, r', rfl, rfl⟩
  · cases hoffending
  · cases hoffending
  · cases hoffending
    exact .inl ⟨e, rfl, rfl⟩

end Registry

/-! ### Planning -/

/-- Marking its declarations leaves the types of a namespace. -/
theorem Model.sameTypes_introspected (m : Model) : m.SameTypes m.introspected := by
  constructor
  case name_eq => rfl
  case aliases | enumerations => exact fun entry => Iff.rfl
  case callbacks =>
    intro name
    have hnames : m.introspected.callbacks.map (·.name) = m.callbacks.map (·.name) := by
      simp only [Model.introspected, List.map_map]
      rfl
    rw [hnames]

/-- With registries that look alike a callable has the same signature whether it is marked or
not. -/
theorem Signature.ofCallable_introspected {p p' : Planner}
    (h : p.registry.LooksLike p'.registry) (hplatform : p.platform = p'.platform) (c : Callable) :
    Signature.ofCallable p'.registry p'.platform c.introspected =
      Signature.ofCallable p.registry p.platform c :=
  (Planner.alikeCallables_of_looksLike h hplatform c).signature_eq.symm

/-- With registries that look alike a callable is bound to the same plan and signature, or to
neither for the same reason, whether it is marked or not. -/
theorem CallableBinding.ofCallable_introspected {p p' : Planner}
    (h : p.registry.LooksLike p'.registry) (hplatform : p.platform = p'.platform)
    (hidentifiers : p.identifiers = p'.identifiers) (c : Callable) :
    CallableBinding.ofCallable p' c.introspected = CallableBinding.ofCallable p c := by
  have hsignature := Signature.ofCallable_introspected h hplatform c
  have hplan : p'.plan c.introspected = p.plan c :=
    ((Planner.alikeCallables_of_looksLike h hplatform c).plan_eq hidentifiers).symm
  rw [CallableBinding.ofCallable, CallableBinding.ofCallable, hsignature, hplan]
  rfl

/-! ### Binding -/

/-- The options with non-introspectable declarations bound too, or left out. -/
def BindingOptions.including (o : BindingOptions) (included : Bool) : BindingOptions :=
  { o with includeNonIntrospectable := included }

/-- With the option binding looks at every declaration. -/
theorem BindingOptions.admits_including (o : BindingOptions) (introspectable : Bool) :
    (o.including true).admits introspectable = true :=
  Bool.or_true _

namespace Bindings

variable {o : BindingOptions} {p p' : Planner}

/-- A step with the option binds a callable as the step without it binds the marked callable. -/
theorem bindCallable_including {c : Callable}
    (h : CallableBinding.ofCallable p' c.introspected = CallableBinding.ofCallable p c)
    (b : Bindings) :
    b.bindCallable (o.including true) p c =
      b.bindCallable (o.including false) p' c.introspected := by
  have hmarked : (o.including false).admits c.introspected.introspectable = true := rfl
  rw [bindCallable_of_admits (o.admits_including _), bindCallable_of_admits hmarked, h]
  rfl

/-- Callables are bound with the option as the marked callables are without it. -/
theorem bindCallables_including
    (h : ∀ c, CallableBinding.ofCallable p' c.introspected = CallableBinding.ofCallable p c)
    (b : Bindings) (cs : List Callable) :
    cs.foldl (bindCallable (o.including true) p) b =
      (cs.map (·.introspected)).foldl (bindCallable (o.including false) p') b := by
  rw [List.foldl_map]
  exact List.foldl_ext _ _ _ fun b c _ => bindCallable_including (h c) b

/-- A step with the option binds a record as the step without it binds the marked record. -/
theorem bindRecord_including
    (h : ∀ c, CallableBinding.ofCallable p' c.introspected = CallableBinding.ofCallable p c)
    (b : Bindings) (r : Record) :
    b.bindRecord (o.including true) p r =
      b.bindRecord (o.including false) p' r.introspected := by
  have hmarked : (o.including false).admits r.introspected.introspectable = true := rfl
  rw [bindRecord_of_admits (o.admits_including _), bindRecord_of_admits hmarked,
    r.callables_introspected]
  exact bindCallables_including h b r.callables

/-- A callback gets its signature whether it is marked or not. -/
theorem bindCallback_introspected {c : Callback}
    (h : Signature.ofCallable p'.registry p'.platform c.signature.introspected =
      Signature.ofCallable p.registry p.platform c.signature) (b : Bindings) :
    b.bindCallback p' c.introspected = b.bindCallback p c := by
  rw [bindCallback, bindCallback, ← h]
  rfl

end Bindings

/-- Binding what is not introspectable only overrides the marks: it is the same as to mark every
record and every callable as introspectable and to leave out those that are not. -/
theorem Model.bind_including (m : Model) (o : BindingOptions) :
    m.bind (o.including true) = m.introspected.bind (o.including false) := by
  obtain ⟨e, hr, hr'⟩ | ⟨r, r', hr, hr'⟩ := Registry.ofModel_introspected m
  · rw [Model.bind, Model.bind, hr, hr']
  -- The registries hold different records, but binding asks them nothing that tells them apart.
  have hlooks : r.LooksLike r' := m.sameTypes_introspected.looksLike hr hr'
  let p := o.planner r
  let p' := o.planner r'
  have hbinding (c : Callable) :
      CallableBinding.ofCallable p' c.introspected = CallableBinding.ofCallable p c := by
    apply CallableBinding.ofCallable_introspected
    · exact hlooks
    · rfl
    · rfl
  have hfunctions (b : Bindings) :
      m.functions.foldl (Bindings.bindCallable (o.including true) p) b =
        m.introspected.functions.foldl (Bindings.bindCallable (o.including false) p') b :=
    Bindings.bindCallables_including hbinding b m.functions
  have hrecords (b : Bindings) :
      m.records.foldl (Bindings.bindRecord (o.including true) p) b =
        m.introspected.records.foldl (Bindings.bindRecord (o.including false) p') b := by
    rw [Model.introspected, List.foldl_map]
    exact List.foldl_ext _ _ _ fun b r _ => Bindings.bindRecord_including hbinding b r
  have hcallbacks (b : Bindings) :
      m.callbacks.foldl (Bindings.bindCallback p) b =
        m.introspected.callbacks.foldl (Bindings.bindCallback p') b := by
    rw [Model.introspected, List.foldl_map]
    refine List.foldl_ext _ _ _ fun b c _ => (Bindings.bindCallback_introspected ?_ b).symm
    apply Signature.ofCallable_introspected
    · exact hlooks
    · rfl
  calc m.bind (o.including true)
      = .ok (m.callbacks.foldl (Bindings.bindCallback p)
          (m.records.foldl (Bindings.bindRecord (o.including true) p)
            (m.functions.foldl (Bindings.bindCallable (o.including true) p) (.ofModel m)))) := by
        rw [Model.bind, hr]
        rfl
    _ = .ok (m.introspected.callbacks.foldl (Bindings.bindCallback p')
          (m.introspected.records.foldl (Bindings.bindRecord (o.including false) p')
            (m.introspected.functions.foldl (Bindings.bindCallable (o.including false) p')
              (.ofModel m)))) := by
        rw [hfunctions, hrecords, hcallbacks]
    _ = m.introspected.bind (o.including false) := by
        rw [Model.bind, hr']
        rfl

/-- A namespace with a function and a record that are not introspectable. -/
def Sample.hidden : Model :=
  { Model.empty "Demo" "1.0" with
    records := [⟨"Widget", none, .record, none, false, [], [], [function "poke" []]⟩]
    functions := [{ function "reset" [] with introspectable := false }] }

example : (Sample.hidden.bind (BindingOptions.standard.including true)).map
    (·.callables.map (·.name)) = .ok ["reset", "poke"] := by rfl

example : (Sample.hidden.bind (BindingOptions.standard.including false)).map
    (·.callables.map (·.name)) = .ok [] := by rfl

end ForeignCall
