import Mathlib.Data.List.Nodup
import ForeignCall.Registry

/-!
# What a registry holds

A registry is determined by its namespace and by the entities that were registered, in their order:
`Registry.holding` builds it from them.  Its five tables are then five readings of one list
(`Registry.rows`), and looking up a name is a search of that list (`Registry.lookupLocal_holding`).

Registration adds one entity at the end of the list if its name is given and not taken
(`Registry.Holds.register`), so that a list of entities is registered up to the first that is
refused (`Registry.Holds.registerAll`).
-/

namespace ForeignCall

namespace Entity

/-- The alias that an entity is. -/
def alias? : Entity → Option Alias
  | typeAlias entry => some entry
  | _ => none

/-- The enumeration or bitfield that an entity is. -/
def enumeration? : Entity → Option Enumeration
  | enumeration entry => some entry
  | _ => none

/-- The callback that an entity is. -/
def callback? : Entity → Option Callback
  | callback entry => some entry
  | _ => none

/-- The record that an entity is. -/
def record? : Entity → Option Record
  | record entry => some entry
  | _ => none

end Entity

namespace Registry

variable {α : Type} {r r' : Registry} {space : String} {entities new : List Entity}
  {entity : Entity} {name : String}

/-! ### Tables of a list of entities -/

/-- What `part` reads off each entity, under the entity's name. -/
def rows (part : Entity → Option α) (entities : List Entity) : List (String × α) :=
  entities.filterMap fun entity => (part entity).map (entity.name, ·)

/-- The registry that holds entities, with a table for each kind. -/
def holding (space : String) (entities : List Entity) : Registry where
  space := space
  kinds := rows (some ·.kind) entities
  aliases := rows Entity.alias? entities
  enumerations := rows Entity.enumeration? entities
  callbacks := rows Entity.callback? entities
  records := rows Entity.record? entities

/-- The keys of a table are names of entities. -/
theorem keys_rows_sublist (part : Entity → Option α) (entities : List Entity) :
    ((rows part entities).map (·.1)).Sublist (entities.map (·.name)) := by
  induction entities with
  | nil => exact .slnil
  | cons entity rest ih =>
    cases hpart : part entity with
    | none =>
      have hrows : rows part (entity :: rest) = rows part rest := by simp [rows, hpart]
      rw [hrows]
      exact ih.cons entity.name
    | some value =>
      have hrows : rows part (entity :: rest) = (entity.name, value) :: rows part rest := by
        simp [rows, hpart]
      rw [hrows]
      exact ih.cons_cons entity.name

/-- Where no name is given twice, a table is read through the one entity of a name. -/
theorem lookup_rows (part : Entity → Option α) (hnames : (entities.map (·.name)).Nodup)
    (name : String) :
    (rows part entities).lookup name = (entities.find? (·.name == name)).bind part := by
  induction entities with
  | nil => rfl
  | cons entity rest ih =>
    obtain ⟨hfresh, hrest⟩ := List.nodup_cons.mp hnames
    by_cases hname : entity.name = name
    · subst hname
      rw [List.find?_cons_of_pos (by simp)]
      cases hpart : part entity with
      | some value => simp [rows, hpart]
      | none =>
        -- The table has no row for the entity, and no other entity has its name.
        have hnone : rest.find? (·.name == entity.name) = none := by
          rw [List.find?_eq_none]
          intro other hother hsame
          exact hfresh (List.mem_map.mpr ⟨other, hother, by simpa using hsame⟩)
        have hrows : rows part (entity :: rest) = rows part rest := by simp [rows, hpart]
        rw [hrows, ih hrest, hnone]
        simp [hpart]
    · have hne : (name == entity.name) = false := by simpa using Ne.symm hname
      rw [List.find?_cons_of_neg (by simpa using hname), ← ih hrest]
      cases hpart : part entity <;> simp [rows, hpart, List.lookup_cons, hne]

/-- Looking up a name searches the entities for it. -/
theorem lookupLocal_holding (hnames : (entities.map (·.name)).Nodup) (name : String) :
    (holding space entities).lookupLocal name = entities.find? (·.name == name) := by
  simp only [lookupLocal, holding, lookup_rows _ hnames]
  cases hentity : entities.find? (·.name == name) with
  | none => rfl
  | some entity =>
    cases entity with
    | enumeration entry => by_cases hbitfield : entry.isBitfield <;>
        simp [Entity.kind, Entity.enumeration?, hbitfield]
    | _ => rfl

/-! ### Registration -/

/-- The name belongs to an entity. -/
def claims (r : Registry) (name : String) : Bool := (r.kinds.lookup name).isSome

/-- Every entity is registered as one of its own kind. -/
theorem register_eq_registerAs (r : Registry) (entity : Entity) :
    r.register entity = r.registerAs entity.kind entity := by
  cases entity <;> rfl

/-- Registration is refused where the name is missing or taken, and changes nothing then. -/
theorem register_eq (r : Registry) (entity : Entity) :
    r.register entity =
      if entity.name = "" then .error (.unnamedEntity r.space entity.kind.name)
      else if r.claims entity.name then
        .error (.duplicateEntity r.space entity.name entity.kind.name)
      else .ok ({ r with kinds := r.kinds ++ [(entity.name, entity.kind)] }.file entity) := by
  rw [register_eq_registerAs]
  unfold registerAs claim claims
  by_cases hname : entity.name = ""
  · simp [hname, Except.map]
  · by_cases htaken : (r.kinds.lookup entity.name).isSome <;>
      simp [hname, htaken, Except.map]

/-- An entity is refused exactly if it has no name or a name that is taken. -/
theorem exists_register_eq_error_iff (r : Registry) (entity : Entity) :
    (∃ e, r.register entity = .error e) ↔ entity.name = "" ∨ r.claims entity.name = true := by
  rw [register_eq]
  by_cases hname : entity.name = ""
  · simp [hname]
  · by_cases htaken : r.claims entity.name = true <;> simp [hname, htaken]

/-- The registry of a namespace holds these entities, each under a name of its own. -/
structure Holds (r : Registry) (space : String) (entities : List Entity) : Prop where
  eq_holding : r = holding space entities
  nodup_names : (entities.map (·.name)).Nodup

namespace Holds

theorem empty (space : String) : (Registry.empty space).Holds space [] :=
  ⟨rfl, .nil⟩

theorem space_eq (h : r.Holds space entities) : r.space = space := by
  rw [h.eq_holding]
  rfl

theorem kinds_eq (h : r.Holds space entities) :
    r.kinds = entities.map fun entity => (entity.name, entity.kind) := by
  rw [h.eq_holding]
  exact congrFun List.filterMap_eq_map entities

theorem lookupLocal_eq (h : r.Holds space entities) (name : String) :
    r.lookupLocal name = entities.find? (·.name == name) := by
  rw [h.eq_holding]
  exact lookupLocal_holding h.nodup_names name

/-- What is found under a name is the entity that has it. -/
theorem lookupLocal_eq_some_iff (h : r.Holds space entities) (name : String) (entity : Entity) :
    r.lookupLocal name = some entity ↔ entity ∈ entities ∧ entity.name = name := by
  rw [h.lookupLocal_eq]
  constructor
  · intro hfind
    have hname : entity.name = name := by simpa using List.find?_some hfind
    exact ⟨List.mem_of_find?_eq_some hfind, hname⟩
  · rintro ⟨hmem, rfl⟩
    have hsome : (entities.find? (·.name == entity.name)).isSome = true :=
      List.find?_isSome.mpr ⟨entity, hmem, beq_self_eq_true _⟩
    obtain ⟨other, hother⟩ := Option.isSome_iff_exists.mp hsome
    have hsame : other.name = entity.name := by simpa using List.find?_some hother
    have heq : other = entity :=
      List.inj_on_of_nodup_map h.nodup_names (List.mem_of_find?_eq_some hother) hmem hsame
    rw [hother, heq]

/-- A name is taken if an entity has it. -/
theorem claims_iff (h : r.Holds space entities) (name : String) :
    r.claims name = true ↔ name ∈ entities.map (·.name) := by
  rw [claims, h.kinds_eq, List.lookup_isSome_iff]
  constructor
  · rintro ⟨row, hrow, hname⟩
    obtain ⟨entity, hentity, rfl⟩ := List.mem_map.mp hrow
    exact List.mem_map.mpr ⟨entity, hentity, (beq_iff_eq.mp hname).symm⟩
  · intro hname
    obtain ⟨entity, hentity, rfl⟩ := List.mem_map.mp hname
    exact ⟨(entity.name, entity.kind), List.mem_map.mpr ⟨entity, hentity, rfl⟩, beq_self_eq_true _⟩

/-- An entity that is not refused has a new name. -/
theorem name_notMem (h : r.Holds space entities) (hr : r.register entity = .ok r') :
    entity.name ∉ entities.map (·.name) := by
  rw [← h.claims_iff]
  intro htaken
  obtain ⟨e, he⟩ := (r.exists_register_eq_error_iff entity).mpr (.inr htaken)
  rw [hr] at he
  cases he

/-- An entity that is not refused comes behind those that are there. -/
theorem register (h : r.Holds space entities) (hr : r.register entity = .ok r') :
    r'.Holds space (entities ++ [entity]) := by
  have hfresh := h.name_notMem hr
  rw [register_eq] at hr
  by_cases hname : entity.name = ""
  · simp [hname] at hr
  · by_cases htaken : r.claims entity.name = true
    · simp [hname, htaken] at hr
    · have hr' :
          { r with kinds := r.kinds ++ [(entity.name, entity.kind)] }.file entity = r' := by
        simpa [hname, htaken] using hr
      constructor
      · rw [← hr', h.eq_holding]
        cases entity <;> simp [holding, file, rows, Entity.name, Entity.alias?,
          Entity.enumeration?, Entity.callback?, Entity.record?]
      · rw [List.map_append, List.map_singleton, List.nodup_append]
        refine ⟨h.nodup_names, List.nodup_singleton _, fun name hold other hnew heq => hfresh ?_⟩
        rw [← List.mem_singleton.mp hnew, ← heq]
        exact hold

/-- Entities none of which is refused come behind those that are there, in their order. -/
theorem registerAll (h : r.Holds space entities) (hr : r.registerAll new = (r', none)) :
    r'.Holds space (entities ++ new) := by
  induction new generalizing r entities with
  | nil =>
    obtain rfl : r = r' := by simpa [Registry.registerAll] using hr
    simpa using h
  | cons entity rest ih =>
    cases hregister : r.register entity with
    | error e => simp [Registry.registerAll, hregister] at hr
    | ok r₁ =>
      have hrest : r₁.registerAll rest = (r', none) := by
        simpa [Registry.registerAll, hregister] using hr
      simpa using ih (h.register hregister) hrest

/-- Entities with names that are given and not taken are all registered. -/
theorem exists_registerAll_eq_ok (h : r.Holds space entities)
    (hnamed : ∀ entity ∈ new, entity.name ≠ "")
    (hnodup : ((entities ++ new).map (·.name)).Nodup) : ∃ r', r.registerAll new = (r', none) := by
  induction new generalizing r entities with
  | nil => exact ⟨r, rfl⟩
  | cons entity rest ih =>
    have hfree : ¬ r.claims entity.name = true := by
      rw [h.claims_iff]
      intro htaken
      rw [List.map_append, List.map_cons, List.nodup_append] at hnodup
      exact hnodup.2.2 _ htaken _ List.mem_cons_self rfl
    have hregister := r.register_eq entity
    rw [if_neg (hnamed entity List.mem_cons_self), if_neg hfree] at hregister
    obtain ⟨r', hrest⟩ := ih (h.register hregister)
      (fun other hother => hnamed other (List.mem_cons_of_mem _ hother)) (by simpa using hnodup)
    exact ⟨r', by simp [Registry.registerAll, hregister, hrest]⟩

end Holds

/-- Entities are registered up to the first that is refused. -/
theorem registerAll_eq_error {e : RegistrationError} (h : r.registerAll new = (r', some e)) :
    ∃ before offending after, new = before ++ offending :: after ∧
      r.registerAll before = (r', none) ∧ r'.register offending = .error e := by
  induction new generalizing r with
  | nil => simp [registerAll] at h
  | cons entity rest ih =>
    cases hregister : r.register entity with
    | error e' =>
      obtain ⟨rfl, rfl⟩ : r = r' ∧ e' = e := by simpa [registerAll, hregister] using h
      exact ⟨[], entity, rest, rfl, rfl, hregister⟩
    | ok r₁ =>
      have hrest : r₁.registerAll rest = (r', some e) := by
        simpa [registerAll, hregister] using h
      obtain ⟨before, offending, after, rfl, hbefore, hoffending⟩ := ih hrest
      exact ⟨entity :: before, offending, after, rfl, by simp [registerAll, hregister, hbefore],
        hoffending⟩

/-- A registry that was made from a model holds the entities of the model. -/
theorem holds_of_ofModel {m : Model} (h : ofModel m = .ok r) : r.Holds m.name m.entities := by
  unfold ofModel at h
  by_cases hname : m.name.isEmpty = true
  · simp [hname] at h
  · rw [if_neg hname] at h
    rcases hregister : (empty m.name).registerModel m with ⟨r₁, _ | e⟩
    · obtain rfl : r₁ = r := by simpa [hregister] using h
      exact (Holds.empty m.name).registerAll hregister
    · simp [hregister] at h

/-- A model with a name, whose entities have names of their own, is registered. -/
theorem ofModel_eq_ok {m : Model} (hname : m.name ≠ "") (hnamed : ∀ entity ∈ m.entities,
    entity.name ≠ "") (hnodup : (m.entities.map (·.name)).Nodup) :
    ofModel m = .ok (holding m.name m.entities) := by
  have hholds : (empty m.name).Holds m.name [] := .empty m.name
  obtain ⟨r, hr⟩ := hholds.exists_registerAll_eq_ok hnamed hnodup
  have hmodel : ofModel m = .ok r := by
    rw [ofModel, if_neg (by simpa using hname), registerModel, hr]
  rw [hmodel, (holds_of_ofModel hmodel).eq_holding]

/-- The callbacks of a registered model have names of their own. -/
theorem nodup_callback_names {m : Model} (h : ofModel m = .ok r) :
    (m.callbacks.map (·.name)).Nodup := by
  have hnames := (holds_of_ofModel h).nodup_names
  have hcallbacks : (m.callbacks.map Entity.callback).Sublist m.entities :=
    (List.sublist_append_right _ _).trans (List.sublist_append_left _ _)
  have hsublist := hcallbacks.map Entity.name
  rw [List.map_map] at hsublist
  exact hsublist.nodup hnames

end Registry

end ForeignCall
