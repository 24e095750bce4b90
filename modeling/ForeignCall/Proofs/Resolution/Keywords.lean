import ForeignCall.Proofs.Planning
import ForeignCall.Proofs.Resolution.AliasChains

/-!
# Keywords as type names

A type name that spells a keyword is meant to be understood without looking it up.  Aliases are
followed before keywords are looked for, though, so an alias that is declared under the spelling of
a keyword is followed like any other; and a plan asks for an enumeration of the name even where the
keyword has been found.

`Registry.EndsAt` is where a chain of aliases ends that is followed, and
`Registry.followAliases_cases` says that there is such an end or the name itself is kept.  A keyword
stands for its basic type exactly if the end of its chain does (`Registry.resolve_keyword_iff`), and
it is planned as its basic type exactly if the end of its chain is no enumeration and a basic type
that is planned the same way (`Planner.ofName_keyword_iff`).  Callbacks, records and, for the class,
enumerations of the same spelling make no difference (`Planner.keyword_reading`).
-/

namespace ForeignCall

namespace Registry

variable {r : Registry} {name terminal : TypeName} {depth : Nat} {k : String} {b : BasicType}

/-! ### Where aliases end -/

/-- Alias links lead from a name to one that is no alias, and there are few enough of them to be
followed. -/
def EndsAt (r : Registry) (name terminal : TypeName) : Prop :=
  ∃ links < maxAliasDepth, r.afterLinks? links name = some terminal ∧ r.target? terminal = none

/-- A name that is found by looking at names is the end of a chain with fewer links. -/
theorem exists_afterLinks?_of_chase (h : r.chase depth name = some terminal) :
    ∃ links < depth, r.afterLinks? links name = some terminal := by
  induction depth generalizing name with
  | zero => cases h
  | succ depth ih =>
    rw [chase_succ] at h
    cases htarget : r.target? name with
    | none =>
      rw [htarget] at h
      exact ⟨0, Nat.succ_pos depth, h⟩
    | some target =>
      rw [htarget] at h
      obtain ⟨links, hlinks, hchain⟩ := ih h
      refine ⟨links + 1, Nat.succ_lt_succ hlinks, ?_⟩
      rw [afterLinks?, htarget, Option.bind_some, hchain]

/-- Following aliases comes to the end of the chain. -/
theorem EndsAt.followAliases_eq (h : r.EndsAt name terminal) : r.followAliases name = terminal := by
  obtain ⟨links, hlinks, hchain, hend⟩ := h
  rw [followAliases, chase_eq_some hchain hend hlinks, Option.getD_some]

/-- A name that is no alias is where it ends itself. -/
theorem endsAt_self (h : r.target? name = none) : r.EndsAt name name :=
  ⟨0, by decide, rfl, h⟩

/-- Following aliases comes to the end of the chain, or keeps a name that is an alias. -/
theorem followAliases_cases (r : Registry) (name : TypeName) :
    r.EndsAt name (r.followAliases name) ∨
      (∀ terminal, ¬ r.EndsAt name terminal) ∧ r.followAliases name = name := by
  cases hchase : r.chase maxAliasDepth name with
  | some terminal =>
    have hfollow : r.followAliases name = terminal := by
      rw [followAliases, hchase, Option.getD_some]
    obtain ⟨links, hlinks, hchain⟩ := exists_afterLinks?_of_chase hchase
    rw [hfollow]
    exact .inl ⟨links, hlinks, hchain, target?_of_chase hchase⟩
  | none =>
    refine .inr ⟨fun terminal hends => ?_, by rw [followAliases, hchase, Option.getD_none]⟩
    obtain ⟨links, hlinks, hchain, hend⟩ := hends
    rw [chase_eq_some hchain hend hlinks] at hchase
    cases hchase

/-- An enumeration is no alias. -/
theorem target?_of_enumeration {entry : Enumeration}
    (h : r.lookup name = some (.enumeration entry)) : r.target? name = none := by
  rw [target?, h]
  rfl

/-! ### The class of a keyword -/

/-- A keyword that is no alias stands for its basic type, whatever else has its spelling. -/
theorem classify_of_keyword? (h : name.keyword? = some b) : r.classify name = .basic b := by
  rw [classify, h]

/-- A keyword stands for its basic type exactly if the name that its aliases end at does. -/
theorem resolve_keyword_iff (r : Registry) (hk : BasicType.ofKeyword? k = some b) :
    r.resolve (.unqualified k) = .basic b ↔
      ∀ terminal, r.EndsAt (.unqualified k) terminal → r.classify terminal = .basic b := by
  have hself : r.classify (.unqualified k) = .basic b := classify_of_keyword? hk
  rw [resolve]
  rcases r.followAliases_cases (.unqualified k) with hends | ⟨hnone, hkept⟩
  · refine ⟨fun h terminal hterminal => ?_, fun h => h _ hends⟩
    rw [← hterminal.followAliases_eq]
    exact h
  · rw [hkept]
    exact iff_of_true hself fun terminal hterminal => absurd hterminal (hnone terminal)

end Registry

/-! ### The conversion of a keyword -/

namespace Planner

variable {p : Planner} {k : String} {b : BasicType} {name terminal : TypeName}

/-- A basic type is planned neither as an enumeration nor as a name. -/
theorem entity?_ofBasic (p : Planner) (b : BasicType) : (p.ofBasic b).2.entity? = none := by
  cases b <;> rfl

/-- A name that is no alias is planned as a basic type exactly if it denotes no enumeration and
stands for a basic type that is planned the same way. -/
theorem ofName_eq_ofBasic_iff (p : Planner) (b : BasicType)
    (hterminal : p.registry.followAliases name = terminal) :
    p.ofName name = p.ofBasic b ↔
      (∀ entry, p.registry.lookup terminal ≠ some (.enumeration entry)) ∧
        ∃ b', p.registry.classify terminal = .basic b' ∧ p.ofBasic b' = p.ofBasic b := by
  have hentity := p.entity?_ofBasic b
  have hresolve : p.registry.resolve name = p.registry.classify terminal := by
    rw [Registry.resolve, hterminal]
  unfold ofName
  rw [hresolve, Registry.enumeration?, hterminal]
  cases hclass : p.registry.classify terminal with
  | basic b' =>
    rcases p.registry.lookup terminal with _ | ⟨_ | entry | _ | _⟩
    case some.enumeration =>
      refine iff_of_false (fun h => ?_) fun h => h.1 entry rfl
      rw [← h] at hentity
      cases hentity
    all_goals simp
  | callback name' =>
    refine iff_of_false (fun h => ?_) (by simp)
    rw [← h] at hentity
    cases hentity
  | object name' =>
    refine iff_of_false (fun h => ?_) (by simp)
    rw [← h] at hentity
    cases hentity

/-- A keyword is planned as its basic type exactly if the name that its aliases end at is no
enumeration and stands for a basic type that is planned the same way. -/
theorem ofName_keyword_iff (p : Planner) (hk : BasicType.ofKeyword? k = some b) :
    p.ofName (.unqualified k) = p.ofBasic b ↔
      ∀ terminal, p.registry.EndsAt (.unqualified k) terminal →
        (∀ entry, p.registry.lookup terminal ≠ some (.enumeration entry)) ∧
          ∃ b', p.registry.classify terminal = .basic b' ∧ p.ofBasic b' = p.ofBasic b := by
  have hself : p.registry.classify (.unqualified k) = .basic b := Registry.classify_of_keyword? hk
  rcases p.registry.followAliases_cases (.unqualified k) with hends | ⟨hnone, hkept⟩
  · rw [p.ofName_eq_ofBasic_iff b rfl]
    refine ⟨fun h terminal hterminal => ?_, fun h => h _ hends⟩
    rw [← hterminal.followAliases_eq]
    exact h
  · -- The chain is given up, so the keyword is itself an alias and no enumeration.
    rw [p.ofName_eq_ofBasic_iff b hkept]
    refine iff_of_true ⟨fun entry hentry => ?_, b, hself, rfl⟩ fun terminal hterminal =>
      absurd hterminal (hnone terminal)
    exact hnone _ (Registry.endsAt_self (Registry.target?_of_enumeration hentry))

/-- The shape of a name is planned as the name is. -/
theorem conversion_scalar_eq_ofBasic_iff (p : Planner) (name : TypeName) (b : BasicType) :
    p.conversion (.scalar name) = .ok (.scalar (p.ofBasic b).1, (p.ofBasic b).2) ↔
      p.ofName name = p.ofBasic b := by
  simp [conversion, Prod.ext_iff]

/-- How a keyword is read: as its basic type exactly if the name that its aliases end at stands for
that type, and planned as its basic type exactly if that name moreover is no enumeration.  A keyword
of which there is no alias always stands for its basic type, whatever is declared under its
spelling, and is planned as such unless that is an enumeration. -/
theorem keyword_reading (p : Planner) (hk : BasicType.ofKeyword? k = some b) :
    (p.registry.resolve (.unqualified k) = .basic b ↔
      ∀ terminal, p.registry.EndsAt (.unqualified k) terminal →
        p.registry.classify terminal = .basic b) ∧
    (p.conversion (.scalar (.unqualified k)) = .ok (.scalar (p.ofBasic b).1, (p.ofBasic b).2) ↔
      ∀ terminal, p.registry.EndsAt (.unqualified k) terminal →
        (∀ entry, p.registry.lookup terminal ≠ some (.enumeration entry)) ∧
          ∃ b', p.registry.classify terminal = .basic b' ∧ p.ofBasic b' = p.ofBasic b) ∧
    (p.registry.target? (.unqualified k) = none →
      p.registry.resolve (.unqualified k) = .basic b ∧
      (p.conversion (.scalar (.unqualified k)) = .ok (.scalar (p.ofBasic b).1, (p.ofBasic b).2) ↔
        ∀ entry, p.registry.lookup (.unqualified k) ≠ some (.enumeration entry))) := by
  have hself : p.registry.classify (.unqualified k) = .basic b := Registry.classify_of_keyword? hk
  refine ⟨p.registry.resolve_keyword_iff hk, ?_, fun hnone => ?_⟩
  · rw [p.conversion_scalar_eq_ofBasic_iff, p.ofName_keyword_iff hk]
  · have hkept : p.registry.followAliases (.unqualified k) = .unqualified k :=
      Registry.followAliases_of_target?_eq_none hnone
    refine ⟨by rw [Registry.resolve, hkept, hself], ?_⟩
    rw [p.conversion_scalar_eq_ofBasic_iff, p.ofName_eq_ofBasic_iff b hkept]
    exact and_iff_left ⟨b, hself, rfl⟩

end Planner

/-! ### Declarations under the spelling of a keyword -/

namespace Sample

/-- A namespace with aliases, an enumeration and a callback that are named like keywords. -/
def keywordModel : Model :=
  { Model.empty "Demo" "1.0" with
    aliases := [⟨"gint", .unqualified "utf8", none⟩, ⟨"gshort", .unqualified "gint16", none⟩]
    enumerations := [⟨"gint64", false, [], none, none⟩]
    callbacks := [⟨"gfloat", none, function "gfloat" []⟩] }

/-- Planning in that namespace. -/
def keywordPlanner : Planner :=
  { planner with registry := .holding "Demo" keywordModel.entities }

end Sample

/-- A keyword that a callback is named like is read as its basic type, and one that is an alias of
another keyword of the same slot is planned as if it were. -/
theorem Planner.keyword_reading_sample :
    Registry.ofModel Sample.keywordModel = .ok Sample.keywordPlanner.registry ∧
    BasicType.ofKeyword? "gfloat" = some .float ∧
      Sample.keywordPlanner.registry.resolve (.unqualified "gfloat") = .basic .float ∧
      Sample.keywordPlanner.conversion (.scalar (.unqualified "gfloat")) =
        .ok (.scalar (.numeric .f32), .float) ∧
    BasicType.ofKeyword? "gshort" = some .short ∧
      Sample.keywordPlanner.conversion (.scalar (.unqualified "gshort")) =
        .ok (.scalar (.numeric .i16), .integer) := by
  have hfloat : BasicType.ofKeyword? "gfloat" = some .float := by decide
  have hshort : BasicType.ofKeyword? "gshort" = some .short := by decide
  obtain ⟨-, -, hdirect⟩ := Sample.keywordPlanner.keyword_reading hfloat
  obtain ⟨hresolve, hconversion⟩ := hdirect (by decide)
  obtain ⟨-, hplanned, -⟩ := Sample.keywordPlanner.keyword_reading hshort
  refine ⟨by rfl, hfloat, hresolve, hconversion.mpr ?_, hshort, hplanned.mpr ?_⟩
  · intro entry h
    cases h
  · intro terminal hends
    obtain rfl : Sample.keywordPlanner.registry.followAliases (.unqualified "gshort") = terminal :=
      hends.followAliases_eq
    refine ⟨fun entry h => ?_, .int16, by decide, by decide⟩
    cases h

/-- An alias of the spelling of a keyword is followed, and an enumeration of the spelling of another
is planned, in the place of the basic types. -/
theorem Planner.keywords_are_looked_up :
    Registry.ofModel Sample.keywordModel = .ok Sample.keywordPlanner.registry ∧
    BasicType.ofKeyword? "gint" = some .int ∧
      Sample.keywordPlanner.registry.resolve (.unqualified "gint") = .basic .utf8 ∧
      Sample.keywordPlanner.registry.resolve (.unqualified "gint") ≠ .basic .int ∧
      Sample.keywordPlanner.conversion (.scalar (.unqualified "gint")) =
        .ok (.scalar .string, .string) ∧
    BasicType.ofKeyword? "gint64" = some .int64 ∧
      Sample.keywordPlanner.registry.resolve (.unqualified "gint64") = .basic .int64 ∧
      Sample.keywordPlanner.conversion (.scalar (.unqualified "gint64")) =
        .ok (.scalar (.enumeration ⟨.unqualified "gint64", false⟩),
          .enumeration (.unqualified "gint64")) ∧
      Sample.keywordPlanner.conversion (.scalar (.unqualified "gint64")) ≠
        .ok (.scalar (.numeric .i64), .integer) := by
  refine ⟨by rfl, by decide, by decide, by decide, by rfl, by decide, by decide, by rfl, ?_⟩
  intro h
  cases h

end ForeignCall
