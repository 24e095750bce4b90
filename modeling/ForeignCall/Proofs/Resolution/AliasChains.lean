import ForeignCall.Proofs.Registry.Contents
import ForeignCall.Resolution

/-!
# Alias chains

An alias may stand for a name that is an alias again.  `Registry.target?` is one link of such a
chain, and `Registry.afterLinks?` is the name that a number of links leads to.

Following aliases looks at as many names as the depth allows, and it looks at a name before it takes
the link from there.  A chain is followed to its end if it has fewer links than the depth
(`Registry.chase_eq_some`), and is given up if it has as many (`Registry.chase_eq_none`); a chain
that runs in a circle has as many links as one likes.  `Registry.followAliases_chain` puts the two
together: the longest chain that is followed has one link less than `maxAliasDepth`.

The name that following aliases comes to is no alias, or else it is the name that was given; either
way following it again changes nothing (`Registry.followAliases_followAliases`).
-/

namespace ForeignCall

namespace Registry

variable {r : Registry} {name terminal : TypeName} {depth links : Nat}

/-! ### Links -/

/-- The name that a name is an alias of. -/
def target? (r : Registry) (name : TypeName) : Option TypeName :=
  ((r.lookup name).bind Entity.alias?).map (·.target)

/-- The name that alias links lead to in so many steps, if there are as many. -/
def afterLinks? (r : Registry) : Nat → TypeName → Option TypeName
  | 0, name => some name
  | links + 1, name => (r.target? name).bind (r.afterLinks? links)

/-- A chain that goes on for a number of links goes on for any smaller number of them. -/
theorem isSome_afterLinks?_of_le {fewer : Nat} (hle : fewer ≤ links)
    (h : (r.afterLinks? links name).isSome = true) : (r.afterLinks? fewer name).isSome = true := by
  induction fewer generalizing links name with
  | zero => rfl
  | succ fewer ih =>
    obtain ⟨more, rfl⟩ : ∃ more, links = more + 1 := ⟨links - 1, by omega⟩
    have hle' : fewer ≤ more := Nat.le_of_succ_le_succ hle
    cases htarget : r.target? name with
    | none => simp [afterLinks?, htarget] at h
    | some target =>
      have hmore : (r.afterLinks? more target).isSome = true := by
        simpa [afterLinks?, htarget] using h
      have hfewer : (r.afterLinks? fewer target).isSome = true := ih hle' hmore
      simpa [afterLinks?, htarget] using hfewer

/-! ### Looking at the names of a chain -/

/-- A name that is looked at is the end of its chain, or its link is taken. -/
theorem chase_succ (r : Registry) (depth : Nat) (name : TypeName) :
    r.chase (depth + 1) name =
      match r.target? name with
      | some target => r.chase depth target
      | none => some name := by
  rw [chase, target?]
  rcases r.lookup name with _ | ⟨_ | _ | _ | _⟩ <;> rfl

/-- The end of a chain is found if its links are fewer than the names that are looked at. -/
theorem chase_eq_some (hchain : r.afterLinks? links name = some terminal)
    (hend : r.target? terminal = none) (hlinks : links < depth) :
    r.chase depth name = some terminal := by
  induction links generalizing name depth with
  | zero =>
    obtain ⟨depth, rfl⟩ : ∃ less, depth = less + 1 := ⟨depth - 1, by omega⟩
    obtain rfl : name = terminal := Option.some.inj hchain
    rw [chase_succ, hend]
  | succ links ih =>
    obtain ⟨depth, rfl⟩ : ∃ less, depth = less + 1 := ⟨depth - 1, by omega⟩
    have hlinks' : links < depth := Nat.lt_of_succ_lt_succ hlinks
    obtain ⟨target, htarget, hrest⟩ := Option.bind_eq_some_iff.mp hchain
    rw [chase_succ, htarget]
    exact ih hrest hlinks'

/-- Nothing is found in a chain with as many links as names are looked at. -/
theorem chase_eq_none (hchain : (r.afterLinks? depth name).isSome = true) :
    r.chase depth name = none := by
  induction depth generalizing name with
  | zero => rfl
  | succ depth ih =>
    obtain ⟨other, hother⟩ := Option.isSome_iff_exists.mp hchain
    obtain ⟨target, htarget, hrest⟩ := Option.bind_eq_some_iff.mp hother
    have hchain' : (r.afterLinks? depth target).isSome = true := by rw [hrest, Option.isSome_some]
    rw [chase_succ, htarget]
    exact ih hchain'

/-- What is found is no alias. -/
theorem target?_of_chase (h : r.chase depth name = some terminal) : r.target? terminal = none := by
  induction depth generalizing name with
  | zero => cases h
  | succ depth ih =>
    rw [chase_succ] at h
    cases htarget : r.target? name with
    | none =>
      rw [htarget] at h
      obtain rfl : name = terminal := Option.some.inj h
      exact htarget
    | some target =>
      rw [htarget] at h
      exact ih h

/-! ### Following aliases -/

/-- A name that is no alias stands for itself. -/
theorem followAliases_of_target?_eq_none (h : r.target? name = none) :
    r.followAliases name = name := by
  have hstart : r.afterLinks? 0 name = some name := rfl
  have hchase : r.chase maxAliasDepth name = some name := chase_eq_some hstart h (by decide)
  rw [followAliases, hchase, Option.getD_some]

/-- Following aliases again changes nothing: a name at the end of its chain is no alias, and one
whose chain was given up is given up once more. -/
@[simp] theorem followAliases_followAliases (r : Registry) (name : TypeName) :
    r.followAliases (r.followAliases name) = r.followAliases name := by
  cases hchase : r.chase maxAliasDepth name with
  | some terminal =>
    have hterminal : r.followAliases name = terminal := by
      rw [followAliases, hchase, Option.getD_some]
    rw [hterminal]
    exact followAliases_of_target?_eq_none (target?_of_chase hchase)
  | none =>
    have hgiven : r.followAliases name = name := by rw [followAliases, hchase, Option.getD_none]
    rw [hgiven, hgiven]

/-- Following aliases comes to the end of a chain that has fewer than `maxAliasDepth` links, and to
the name that it was given where the chain has more or never ends. -/
theorem followAliases_chain (r : Registry) (name : TypeName) :
    (∀ links terminal, r.afterLinks? links name = some terminal → r.target? terminal = none →
      r.followAliases name = if links < maxAliasDepth then terminal else name) ∧
    ((∀ links, (r.afterLinks? links name).isSome = true) → r.followAliases name = name) := by
  have hlong (h : (r.afterLinks? maxAliasDepth name).isSome = true) :
      r.followAliases name = name := by
    rw [followAliases, chase_eq_none h, Option.getD_none]
  refine ⟨fun links terminal hchain hend => ?_, fun hendless => hlong (hendless maxAliasDepth)⟩
  by_cases hlinks : links < maxAliasDepth
  · rw [if_pos hlinks, followAliases, chase_eq_some hchain hend hlinks, Option.getD_some]
  · have hle : maxAliasDepth ≤ links := Nat.le_of_not_lt hlinks
    have hsome : (r.afterLinks? links name).isSome = true := by rw [hchain, Option.isSome_some]
    rw [if_neg hlinks]
    exact hlong (isSome_afterLinks?_of_le hle hsome)

end Registry

/-! ### Chains of any length -/

namespace Sample

/-- The names of a chain of links in order: the aliases, and then a basic type. -/
def chainName (links place : Nat) : String :=
  if place < links then String.ofList (List.replicate (place + 1) 'T') else "gint"

/-- A namespace whose aliases are one chain of links to a basic type. -/
def chainModel (links : Nat) : Model :=
  { Model.empty "Demo" "1.0" with
    aliases := (List.range links).map fun place =>
      ⟨chainName links place, .unqualified (chainName links (place + 1)), none⟩ }

/-- The registry of the chain. -/
def chain (links : Nat) : Registry := .holding "Demo" (chainModel links).entities

/-- A registry whose one alias stands for itself. -/
def loop : Registry := .holding "Demo" [.typeAlias ⟨"Loop", .unqualified "Loop", none⟩]

variable {links place : Nat}

/-- The aliases of the chain. -/
theorem mem_entities_chainModel {entity : Entity} :
    entity ∈ (chainModel links).entities ↔ ∃ place < links, entity = .typeAlias
      ⟨chainName links place, .unqualified (chainName links (place + 1)), none⟩ := by
  simp [Model.entities, chainModel, Model.empty, eq_comm]

/-- The aliases of the chain have names of their own. -/
theorem nodup_names_chainModel (links : Nat) :
    ((chainModel links).entities.map (·.name)).Nodup := by
  have hnames : (chainModel links).entities.map (·.name) =
      (List.range links).map (chainName links) := by
    simp [Model.entities, chainModel, Model.empty, Entity.name]
  rw [hnames]
  refine List.Nodup.map_on (fun place hplace other hother heq => ?_) List.nodup_range
  rw [chainName, chainName, if_pos (List.mem_range.mp hplace), if_pos (List.mem_range.mp hother),
    String.ofList_inj] at heq
  simpa using congrArg List.length heq

theorem chain_holds (links : Nat) : (chain links).Holds "Demo" (chainModel links).entities :=
  ⟨rfl, nodup_names_chainModel links⟩

/-- The model of the chain is registered. -/
theorem ofModel_chainModel (links : Nat) :
    Registry.ofModel (chainModel links) = .ok (chain links) := by
  have hname : (chainModel links).name ≠ "" := by simp [chainModel, Model.empty]
  refine Registry.ofModel_eq_ok hname (fun entity hentity => ?_) (nodup_names_chainModel links)
  obtain ⟨place, hplace, rfl⟩ := mem_entities_chainModel.mp hentity
  simp [Entity.name, chainName, hplace]

/-- Every alias of the chain stands for the next name. -/
theorem target?_chain (hplace : place < links) :
    (chain links).target? (.unqualified (chainName links place)) =
      some (.unqualified (chainName links (place + 1))) := by
  have hlookup := ((chain_holds links).lookupLocal_eq_some_iff (chainName links place) _).mpr
    ⟨mem_entities_chainModel.mpr ⟨place, hplace, rfl⟩, rfl⟩
  simp [Registry.target?, Registry.lookup, Registry.owns, TypeName.isIn, TypeName.unqualified,
    hlookup, Entity.alias?]

/-- The basic type at the end of the chain is no alias. -/
theorem target?_chain_end (links : Nat) : (chain links).target? (.unqualified "gint") = none := by
  have hlookup : (chain links).lookupLocal "gint" = none := by
    rw [Option.eq_none_iff_forall_ne_some]
    intro entity hentity
    obtain ⟨hmem, hname⟩ := ((chain_holds links).lookupLocal_eq_some_iff _ _).mp hentity
    obtain ⟨place, hplace, rfl⟩ := mem_entities_chainModel.mp hmem
    rw [Entity.name, chainName, if_pos hplace] at hname
    have hletters := congrArg String.toList hname
    simp [List.replicate_succ] at hletters
  have hname : (chain links).lookup (.unqualified "gint") = none := by
    rw [Registry.lookup]
    split
    · exact hlookup
    · rfl
  rw [Registry.target?, hname, Option.bind_none, Option.map_none]

/-- The links of the chain lead from name to name. -/
theorem afterLinks?_chain (place : Nat) {steps : Nat} (hsteps : place + steps ≤ links) :
    (chain links).afterLinks? steps (.unqualified (chainName links place)) =
      some (.unqualified (chainName links (place + steps))) := by
  induction steps generalizing place with
  | zero => rfl
  | succ steps ih =>
    have hnext := ih (place + 1) (by omega)
    rw [Registry.afterLinks?, target?_chain (by omega), Option.bind_some, hnext, Nat.add_right_comm,
      Nat.add_assoc]

end Sample

/-- An alias of itself has links without end. -/
theorem Sample.isSome_afterLinks?_loop (links : Nat) :
    (loop.afterLinks? links (.unqualified "Loop")).isSome = true := by
  have hloop : loop.target? (.unqualified "Loop") = some (.unqualified "Loop") := by decide
  induction links with
  | zero => rfl
  | succ links ih => rwa [Registry.afterLinks?, hloop, Option.bind_some]

/-- A chain of 63 links is followed to its end, and an alias of itself is given back. -/
theorem Registry.followAliases_chain_sample :
    (Registry.ofModel (Sample.chainModel 63) = .ok (Sample.chain 63) ∧
      (Sample.chain 63).afterLinks? 63 (.unqualified "T") = some (.unqualified "gint") ∧
      (Sample.chain 63).target? (.unqualified "gint") = none ∧
      (Sample.chain 63).followAliases (.unqualified "T") = .unqualified "gint") ∧
    (∀ links, (Sample.loop.afterLinks? links (.unqualified "Loop")).isSome = true) ∧
      Sample.loop.followAliases (.unqualified "Loop") = .unqualified "Loop" := by
  have hchain : (Sample.chain 63).afterLinks? 63 (.unqualified "T") = some (.unqualified "gint") :=
    Sample.afterLinks?_chain 0 (Nat.le_refl 63)
  have hend := Sample.target?_chain_end 63
  refine ⟨⟨Sample.ofModel_chainModel 63, hchain, hend, ?_⟩, Sample.isSome_afterLinks?_loop, ?_⟩
  · exact (Registry.followAliases_chain _ _).1 63 _ hchain hend
  · exact (Registry.followAliases_chain _ _).2 Sample.isSome_afterLinks?_loop

/-- A chain of 64 links is given up although no longer than the longest that is to be followed. -/
theorem Registry.chain_of_maxAliasDepth_is_given_up :
    Registry.ofModel (Sample.chainModel 64) = .ok (Sample.chain 64) ∧ 64 ≤ maxAliasDepth ∧
      (Sample.chain 64).afterLinks? 64 (.unqualified "T") = some (.unqualified "gint") ∧
      (Sample.chain 64).target? (.unqualified "gint") = none ∧
      (Sample.chain 64).followAliases (.unqualified "T") = .unqualified "T" ∧
      (Sample.chain 64).followAliases (.unqualified "T") ≠ .unqualified "gint" := by
  have hchain : (Sample.chain 64).afterLinks? 64 (.unqualified "T") = some (.unqualified "gint") :=
    Sample.afterLinks?_chain 0 (Nat.le_refl 64)
  have hgiven : (Sample.chain 64).followAliases (.unqualified "T") = .unqualified "T" := by
    rw [Registry.followAliases, maxAliasDepth, Registry.chase_eq_none (by rw [hchain]; rfl)]
    rfl
  refine ⟨Sample.ofModel_chainModel 64, Nat.le_refl 64, hchain, Sample.target?_chain_end 64, hgiven,
    ?_⟩
  rw [hgiven]
  decide

end ForeignCall
