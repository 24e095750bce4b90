import ForeignCall.Proofs.Registry.Contents

/-!
# Runs of registrations

A registry is filled by single registrations and by registrations of whole models, in any order, and
goes on after one that is refused.  `Registry.Lawful` says what can be relied on of it, and
`Registry.run_lawful` that it can be relied on after every run.

The invariant that carries the run is that the registry holds some list of entities
(`Registry.Holds`), to which every further registration only ever adds
(`Registry.Holds.performAll`).
-/

namespace ForeignCall

/-- What can be asked of a registry: to take one entity, or those of a model. -/
inductive Registration
  | entity (entity : Entity)
  | model (model : Model)
  deriving DecidableEq, Repr

namespace Registry

variable {r r' : Registry} {space name : String} {entities : List Entity} {entity : Entity}

/-- The registry after a registration, and why it was refused if it was. -/
def perform (r : Registry) : Registration → Registry × Option RegistrationError
  | .entity entity =>
    match r.register entity with
    | .ok r => (r, none)
    | .error e => (r, some e)
  | .model m => r.registerModel m

/-- The registry after registrations in order, the refused ones among them. -/
def performAll (r : Registry) (registrations : List Registration) : Registry :=
  registrations.foldl (fun r registration => (r.perform registration).1) r

/-- The registry of a namespace after registrations in order. -/
def run (space : String) (registrations : List Registration) : Registry :=
  (empty space).performAll registrations

/-- The number of tables that have a name as a key. -/
def tablesWith (r : Registry) (name : String) : Nat :=
  [(r.aliases.lookup name).isSome, (r.enumerations.lookup name).isSome,
    (r.callbacks.lookup name).isSome, (r.records.lookup name).isSome].count true

/-- What can be relied on of a registry. -/
structure Lawful (r : Registry) : Prop where
  /-- Every table has one value for a key. -/
  nodup_keys : (r.kinds.map (·.1)).Nodup ∧ (r.aliases.map (·.1)).Nodup ∧
    (r.enumerations.map (·.1)).Nodup ∧ (r.callbacks.map (·.1)).Nodup ∧
    (r.records.map (·.1)).Nodup
  /-- A name that is taken is a key of one table, and a name that is not of none. -/
  tablesWith_eq : ∀ name, r.tablesWith name = if r.claims name then 1 else 0
  /-- The tables have as many entities as there are names. -/
  size_eq : r.size =
    r.aliases.length + r.enumerations.length + r.callbacks.length + r.records.length
  /-- A name that is taken denotes one entity however it is written, and the entity is of the
  recorded kind. -/
  lookup_eq : ∀ name kind, r.kinds.lookup name = some kind → ∃ entity,
    r.lookupLocal name = some entity ∧ r.lookup (.unqualified name) = some entity ∧
      r.lookup (.qualified r.space name) = some entity ∧ entity.name = name ∧ entity.kind = kind
  /-- A name of another namespace denotes nothing. -/
  lookup_foreign : ∀ space name, space ≠ r.space → r.lookup (.qualified space name) = none
  /-- An entity is refused exactly if it has no name or one that is taken. -/
  refused_iff : ∀ entity, (r.perform (.entity entity)).2.isSome = true ↔
    entity.name = "" ∨ r.claims entity.name = true
  /-- A refused entity leaves the registry as it is. -/
  eq_of_refused : ∀ entity, (r.perform (.entity entity)).2.isSome = true →
    (r.perform (.entity entity)).1 = r
  /-- An entity that is not refused is found under its name. -/
  lookup_registered : ∀ entity, (r.perform (.entity entity)).2 = none →
    (r.perform (.entity entity)).1.lookupLocal entity.name = some entity
  /-- What is found once is found after any further registrations. -/
  lookup_later : ∀ name entity registrations, r.lookupLocal name = some entity →
    (r.performAll registrations).lookupLocal name = some entity
  /-- The entities of a model that is not refused are all registered, behind those that were there,
  and found under their names. -/
  registered_all : ∀ (m : Model) r', r.perform (.model m) = (r', none) →
    r'.kinds = r.kinds ++ m.entities.map (fun entity => (entity.name, entity.kind)) ∧
      (∀ entity ∈ m.entities, r'.lookupLocal entity.name = some entity) ∧
      ∀ name, r'.lookupLocal name = (r.lookupLocal name).or (m.entities.find? (·.name == name))
  /-- Of a model that is refused, the entities before the offending one are registered and no
  others. -/
  registered_before : ∀ (m : Model) r' e, r.perform (.model m) = (r', some e) →
    ∃ before offending after,
      m.aliases.map Entity.typeAlias ++ m.enumerations.map .enumeration ++
          m.bitfields.map .enumeration ++ m.callbacks.map .callback ++ m.records.map .record =
        before ++ offending :: after ∧
      r'.register offending = .error e ∧ r.registerAll before = (r', none) ∧
      r'.kinds = r.kinds ++ before.map (fun entity => (entity.name, entity.kind)) ∧
      ∀ name, r'.lookupLocal name = (r.lookupLocal name).or (before.find? (·.name == name))

/-! ### What one registry satisfies -/

/-- Every entity stands in one of the tables. -/
theorem length_rows (entities : List Entity) :
    (rows Entity.alias? entities).length + (rows Entity.enumeration? entities).length +
        (rows Entity.callback? entities).length + (rows Entity.record? entities).length =
      entities.length := by
  induction entities with
  | nil => rfl
  | cons entity rest ih =>
    have hcons {α : Type} (part : Entity → Option α) : rows part (entity :: rest) =
        ((part entity).map (entity.name, ·)).toList ++ rows part rest := by
      cases hpart : part entity <;> simp [rows, hpart]
    simp only [hcons, List.length_append, List.length_cons]
    cases entity <;>
      simp [Entity.alias?, Entity.enumeration?, Entity.callback?, Entity.record?] <;> omega

namespace Holds

/-- The keys of a table are all different. -/
theorem nodup_keys_rows {α : Type} (h : r.Holds space entities) (part : Entity → Option α) :
    ((rows part entities).map (·.1)).Nodup :=
  (keys_rows_sublist part entities).nodup h.nodup_names

/-- The one entity of a name stands in one table. -/
theorem tablesWith_eq (h : r.Holds space entities) (name : String) :
    r.tablesWith name = if r.claims name then 1 else 0 := by
  rw [h.eq_holding]
  simp only [tablesWith, claims, holding, lookup_rows _ h.nodup_names]
  cases entities.find? (·.name == name) with
  | none => rfl
  | some entity => cases entity <;> rfl

theorem size_eq (h : r.Holds space entities) : r.size =
    r.aliases.length + r.enumerations.length + r.callbacks.length + r.records.length := by
  have hkinds : r.size = entities.length := by rw [size, h.kinds_eq, List.length_map]
  rw [hkinds, h.eq_holding]
  exact (length_rows entities).symm

/-- A name that is taken denotes the entity that took it. -/
theorem lookup_eq (h : r.Holds space entities) {kind : EntityKind}
    (hkind : r.kinds.lookup name = some kind) :
    ∃ entity, r.lookupLocal name = some entity ∧ r.lookup (.unqualified name) = some entity ∧
      r.lookup (.qualified r.space name) = some entity ∧ entity.name = name ∧
      entity.kind = kind := by
  have hrow : (entities.find? (·.name == name)).bind (some ·.kind) = some kind := by
    rw [h.eq_holding] at hkind
    exact (lookup_rows (some ·.kind) h.nodup_names name).symm.trans hkind
  obtain ⟨entity, hentity, hsome⟩ := Option.bind_eq_some_iff.mp hrow
  have hlocal : r.lookupLocal name = some entity := by rw [h.lookupLocal_eq, hentity]
  refine ⟨entity, hlocal, ?_, ?_, by simpa using List.find?_some hentity, by simpa using hsome⟩
  · simpa [lookup, owns, TypeName.isIn, TypeName.unqualified] using hlocal
  · simpa [lookup, owns, TypeName.isIn, TypeName.qualified] using hlocal

end Holds

theorem lookup_foreign (r : Registry) {other : String} (hspace : other ≠ r.space)
    (name : String) : r.lookup (.qualified other name) = none := by
  simp [lookup, owns, TypeName.isIn, TypeName.qualified, hspace]

/-- A single registration is refused as `register` says, and changes nothing then. -/
theorem perform_entity (r : Registry) (entity : Entity) :
    (∃ r', r.register entity = .ok r' ∧ r.perform (.entity entity) = (r', none)) ∨
      ∃ e, r.register entity = .error e ∧ r.perform (.entity entity) = (r, some e) := by
  cases hregister : r.register entity with
  | ok r' => exact .inl ⟨r', rfl, by simp [perform, hregister]⟩
  | error e => exact .inr ⟨e, rfl, by simp [perform, hregister]⟩

/-! ### What runs keep -/

namespace Holds

/-- Entities that are registered up to the first that is refused come behind those that are
there. -/
theorem exists_registerAll (h : r.Holds space entities) (new : List Entity) :
    ∃ added, (r.registerAll new).1.Holds space (entities ++ added) := by
  rcases hregister : r.registerAll new with ⟨r', _ | e⟩
  · exact ⟨new, h.registerAll hregister⟩
  · obtain ⟨before, -, -, -, hbefore, -⟩ := registerAll_eq_error hregister
    exact ⟨before, h.registerAll hbefore⟩

/-- A registration only adds entities. -/
theorem perform (h : r.Holds space entities) (registration : Registration) :
    ∃ added, (r.perform registration).1.Holds space (entities ++ added) := by
  cases registration with
  | entity entity =>
    rcases r.perform_entity entity with ⟨r', hregister, hperform⟩ | ⟨e, -, hperform⟩
    · rw [hperform]
      exact ⟨[entity], h.register hregister⟩
    · rw [hperform]
      exact ⟨[], by simpa using h⟩
  | model m => exact h.exists_registerAll m.entities

/-- Registrations in order only add entities. -/
theorem performAll (h : r.Holds space entities) (registrations : List Registration) :
    ∃ added, (r.performAll registrations).Holds space (entities ++ added) := by
  induction registrations generalizing r entities with
  | nil => exact ⟨[], by simpa [Registry.performAll] using h⟩
  | cons registration rest ih =>
    obtain ⟨first, hfirst⟩ := h.perform registration
    obtain ⟨others, hothers⟩ := ih hfirst
    exact ⟨first ++ others, by simpa [Registry.performAll] using hothers⟩

/-- An entity is found before those that are added behind it. -/
theorem lookupLocal_append (h : r.Holds space entities) {added : List Entity}
    (h' : r'.Holds space (entities ++ added)) (name : String) :
    r'.lookupLocal name = (r.lookupLocal name).or (added.find? (·.name == name)) := by
  rw [h'.lookupLocal_eq, List.find?_append, h.lookupLocal_eq]

/-- A registry that holds entities under names of their own is lawful. -/
theorem lawful (h : r.Holds space entities) : r.Lawful := by
  constructor
  case nodup_keys =>
    rw [h.eq_holding]
    exact ⟨h.nodup_keys_rows _, h.nodup_keys_rows _, h.nodup_keys_rows _, h.nodup_keys_rows _,
      h.nodup_keys_rows _⟩
  case tablesWith_eq => exact h.tablesWith_eq
  case size_eq => exact h.size_eq
  case lookup_eq => exact fun name kind hkind => h.lookup_eq hkind
  case lookup_foreign => exact fun other name hspace => r.lookup_foreign hspace name
  case refused_iff =>
    intro entity
    rw [← r.exists_register_eq_error_iff entity]
    rcases r.perform_entity entity with ⟨r', hregister, hperform⟩ | ⟨e, hregister, hperform⟩ <;>
      simp [hregister, hperform]
  case eq_of_refused =>
    intro entity hrefused
    rcases r.perform_entity entity with ⟨r', -, hperform⟩ | ⟨e, -, hperform⟩
    · simp [hperform] at hrefused
    · rw [hperform]
  case lookup_registered =>
    intro entity hregistered
    rcases r.perform_entity entity with ⟨r', hregister, hperform⟩ | ⟨e, -, hperform⟩
    · have hnone : entities.find? (·.name == entity.name) = none := by
        rw [List.find?_eq_none]
        intro other hother hname
        exact h.name_notMem hregister (List.mem_map.mpr ⟨other, hother, by simpa using hname⟩)
      rw [hperform, (h.register hregister).lookupLocal_eq, List.find?_append, hnone]
      simp
    · simp [hperform] at hregistered
  case lookup_later =>
    intro name entity registrations hentity
    obtain ⟨added, hadded⟩ := h.performAll registrations
    rw [h.lookupLocal_append hadded, hentity, Option.some_or]
  case registered_all =>
    intro m r' hregistered
    have hadded := h.registerAll (show r.registerAll m.entities = (r', none) from hregistered)
    refine ⟨?_, fun entity hentity => ?_, h.lookupLocal_append hadded⟩
    · rw [hadded.kinds_eq, h.kinds_eq, List.map_append]
    · have hmem : entity ∈ entities ++ m.entities := List.mem_append_right _ hentity
      exact (hadded.lookupLocal_eq_some_iff entity.name entity).mpr ⟨hmem, rfl⟩
  case registered_before =>
    intro m r' e hrefused
    have hregister : r.registerAll m.entities = (r', some e) := hrefused
    obtain ⟨before, offending, after, hmodel, hbefore, hoffending⟩ := registerAll_eq_error hregister
    have hadded := h.registerAll hbefore
    refine ⟨before, offending, after, hmodel, hoffending, hbefore, ?_, h.lookupLocal_append hadded⟩
    rw [hadded.kinds_eq, h.kinds_eq, List.map_append]

end Holds

/-- However a registry was filled, it can be relied on: every name that was given away denotes one
entity of the recorded kind, and goes on doing so. -/
theorem run_lawful (space : String) (registrations : List Registration) :
    (run space registrations).space = space ∧ (run space registrations).Lawful := by
  obtain ⟨entities, hholds⟩ := (Holds.empty space).performAll registrations
  exact ⟨hholds.space_eq, hholds.lawful⟩

end Registry

/-- A namespace that gives a bitfield the name of an enumeration. -/
def Sample.clashing : Model :=
  { Model.empty "Demo" "1.0" with
    enumerations := [⟨"Mode", false, [], none, none⟩]
    bitfields := [⟨"Mode", true, [], none, none⟩, ⟨"Flags", true, [], none, none⟩] }

example : (Registry.run "Demo" [.model Sample.clashing]).kinds = [("Mode", .enumeration)] := by
  rfl

end ForeignCall
