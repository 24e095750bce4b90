import ForeignCall.Identifier

/-!
# Identifiers for names

Each declared name is turned into an identifier by itself: its dashes become underscores, and some
of the words that this gives get an underscore in front.

Whether a word is reserved is asked before the underscore and not again, so a reserved word comes
out where a word that gets an underscore becomes one by it (`IdentifierPolicy.Usable`).  A policy
that reserves no word with an underscore in front rules this out, and then a second turn changes
nothing (`IdentifierPolicy.sanitize_usable`).

Either step can lead two names to one identifier.  `IdentifierPolicy.Clash` lists how, and
`IdentifierPolicy.sanitize_eq_sanitize_iff` says that there is no other way.  Names that neither
have a dash nor start with an underscore keep apart (`IdentifierPolicy.Clash.eq_of_isPlain`).
-/

namespace ForeignCall

namespace IdentifierPolicy

variable {p : IdentifierPolicy} {a b : String}

/-! ### One name -/

/-- The first character of the text is a decimal digit. -/
def DigitInFront (text : String) : Prop :=
  ∃ c, text.toList.head? = some c ∧ '0' ≤ c ∧ c ≤ '9'

theorem startsWithDigit_iff {text : String} :
    startsWithDigit text = true ↔ DigitInFront text := by
  unfold startsWithDigit DigitInFront
  cases text.toList with
  | nil => simp
  | cons c rest => simp [Char.isDigit, Char.le_def]

/-- The policy puts an underscore in front of the word. -/
def marks (p : IdentifierPolicy) (word : String) : Bool :=
  word.isEmpty || startsWithDigit word || p.isReserved word

theorem sanitize_of_marks (h : p.marks (replaceDashes a) = true) :
    p.sanitize a = "_" ++ replaceDashes a :=
  if_pos h

theorem sanitize_of_not_marks (h : p.marks (replaceDashes a) = false) :
    p.sanitize a = replaceDashes a :=
  if_neg (Bool.eq_false_iff.mp h)

theorem marks_eq_true_iff {word : String} :
    p.marks word = true ↔
      word = "" ∨ DigitInFront word ∨ p.isReserved word = true := by
  simp [marks, startsWithDigit_iff, or_assoc]

theorem marks_eq_false_iff {word : String} :
    p.marks word = false ↔
      word ≠ "" ∧ ¬ DigitInFront word ∧ p.isReserved word = false := by
  simp [marks, ← startsWithDigit_iff, and_assoc]

/-- Without dashes nothing is replaced. -/
theorem replaceDashes_of_notMem (h : '-' ∉ a.toList) : replaceDashes a = a := by
  have hkept : ∀ c ∈ a.toList, (if c = '-' then '_' else c) = id c := by
    intro c hc
    apply if_neg
    rintro rfl
    exact h hc
  rw [replaceDashes, List.map_congr_left hkept, List.map_id, String.ofList_toList]

/-- No dash is left. -/
theorem dash_notMem_replaceDashes (name : String) : '-' ∉ (replaceDashes name).toList := by
  intro hdash
  rw [replaceDashes, String.toList_ofList] at hdash
  obtain ⟨c, -, hc⟩ := List.mem_map.mp hdash
  split at hc
  · exact absurd hc (by decide)
  · exact absurd hc ‹_›

/-- A name is not longer than itself, so it does not come out with an underscore in front. -/
theorem ne_underscore_replaceDashes (name : String) : name ≠ "_" ++ replaceDashes name := by
  intro heq
  have hlength := congrArg (·.toList.length) heq
  simp [replaceDashes] at hlength

/-- The names that are left as they are have no dash and get no underscore. -/
theorem sanitize_eq_self_iff : p.sanitize a = a ↔ '-' ∉ a.toList ∧ p.marks a = false := by
  constructor
  · intro hself
    cases hmarks : p.marks (replaceDashes a) with
    | true =>
      rw [sanitize_of_marks hmarks] at hself
      exact absurd hself.symm (ne_underscore_replaceDashes a)
    | false =>
      rw [sanitize_of_not_marks hmarks] at hself
      have hdash := dash_notMem_replaceDashes a
      rw [hself] at hdash hmarks
      exact ⟨hdash, hmarks⟩
  · rintro ⟨hdash, hmarks⟩
    rw [← replaceDashes_of_notMem hdash] at hmarks
    rw [sanitize_of_not_marks hmarks, replaceDashes_of_notMem hdash]

/-! ### Use of an identifier -/

/-- What can be relied on of the identifier for a name. -/
structure Usable (p : IdentifierPolicy) (name identifier : String) : Prop where
  ne_empty : identifier ≠ ""
  dash_notMem : '-' ∉ identifier.toList
  not_digitInFront : ¬ DigitInFront identifier
  /-- But for its dashes the name is kept, and nothing but an underscore comes in front of it. -/
  eq_or_eq : identifier = replaceDashes name ∨ identifier = "_" ++ replaceDashes name
  /-- It is a reserved word exactly if it got the underscore and became one by that. -/
  isReserved_iff : p.isReserved identifier = true ↔
    (replaceDashes name = "" ∨ DigitInFront (replaceDashes name) ∨
      p.isReserved (replaceDashes name) = true) ∧ p.isReserved ("_" ++ replaceDashes name) = true

/-- The identifier of every name can be relied on so far. -/
theorem usable (p : IdentifierPolicy) (name : String) : p.Usable name (p.sanitize name) := by
  have hdash := dash_notMem_replaceDashes name
  cases hmarks : p.marks (replaceDashes name) with
  | true =>
    rw [sanitize_of_marks hmarks]
    constructor
    case ne_empty => simp
    case dash_notMem => simpa using hdash
    case not_digitInFront =>
      rw [← startsWithDigit_iff]
      simp [startsWithDigit]
    case eq_or_eq => exact .inr rfl
    case isReserved_iff => rw [← marks_eq_true_iff, hmarks, eq_self_iff_true, true_and]
  | false =>
    rw [sanitize_of_not_marks hmarks]
    obtain ⟨hempty, hdigit, hreserved⟩ := marks_eq_false_iff.mp hmarks
    constructor
    case ne_empty => exact hempty
    case dash_notMem => exact hdash
    case not_digitInFront => exact hdigit
    case eq_or_eq => exact .inl rfl
    case isReserved_iff => simp [hempty, hdigit, hreserved]

/-- No word that the policy reserves has an underscore in front. -/
def UnderscoreFree (p : IdentifierPolicy) : Prop :=
  ∀ word ∈ p.reserved, word.toList.head? ≠ some '_'

instance (p : IdentifierPolicy) : Decidable p.UnderscoreFree :=
  inferInstanceAs (Decidable (∀ word ∈ p.reserved, _))

/-- More words can be reserved if they have no underscore in front either. -/
theorem underscoreFree_withReserved {words : List String} :
    (p.withReserved words).UnderscoreFree ↔
      p.UnderscoreFree ∧ ∀ word ∈ words, word.toList.head? ≠ some '_' := by
  simp only [UnderscoreFree, withReserved, List.forall_mem_append]

/-- Then what has an underscore in front is not reserved. -/
theorem UnderscoreFree.isReserved_underscore (h : p.UnderscoreFree) (word : String) :
    p.isReserved ("_" ++ word) = false := by
  rw [isReserved, List.contains_eq_mem, decide_eq_false_iff_not]
  intro hmem
  apply h _ hmem
  simp

/-- Every identifier can be used but for those that the underscore makes a reserved word.  There are
none of these if no reserved word has an underscore in front, as in the host language, and then an
identifier is left as it is.  The names that are left as they are could be used from the start. -/
theorem sanitize_usable (p : IdentifierPolicy) (name : String) :
    p.Usable name (p.sanitize name) ∧
    (p.sanitize name = name ↔
      name ≠ "" ∧ '-' ∉ name.toList ∧ ¬ DigitInFront name ∧ p.isReserved name = false) ∧
    (p.UnderscoreFree → p.isReserved (p.sanitize name) = false ∧
      p.sanitize (p.sanitize name) = p.sanitize name) ∧
    standard.UnderscoreFree := by
  have husable := p.usable name
  refine ⟨husable, ?_, fun hfree => ?_, by decide⟩
  · rw [sanitize_eq_self_iff, marks_eq_false_iff, and_left_comm]
  · have hreserved : p.isReserved (p.sanitize name) = false := by
      rw [← Bool.not_eq_true, husable.isReserved_iff]
      simp [hfree.isReserved_underscore]
    refine ⟨hreserved, sanitize_eq_self_iff.mpr ⟨husable.dash_notMem, ?_⟩⟩
    exact marks_eq_false_iff.mpr ⟨husable.ne_empty, husable.not_digitInFront, hreserved⟩

/-- A name that becomes a reserved word with its dash replaced gets the underscore. -/
theorem sanitize_usable_sample :
    let p := standard.withReserved ["n_items"]
    p.UnderscoreFree ∧ p.sanitize "n-items" = "_n_items" ∧
      p.isReserved (p.sanitize "n-items") = false ∧
      p.sanitize (p.sanitize "n-items") = p.sanitize "n-items" := by
  intro p
  have hfree : p.UnderscoreFree := underscoreFree_withReserved.mpr ⟨by decide, by decide⟩
  obtain ⟨-, -, hlaw, -⟩ := p.sanitize_usable "n-items"
  obtain ⟨hreserved, hagain⟩ := hlaw hfree
  exact ⟨hfree, by decide, hreserved, hagain⟩

example : (standard.withReserved ["_type"]).sanitize "type" = "_type" := by decide

/-! ### Two names -/

/-- The name `b` is left as it is, and is what the name `a` becomes by the underscore in front of
it. -/
def Takes (p : IdentifierPolicy) (a b : String) : Prop :=
  p.marks (replaceDashes a) = true ∧ p.marks (replaceDashes b) = false ∧
    replaceDashes b = "_" ++ replaceDashes a

/-- The names have one identifier: they differ in nothing but dashes and underscores, or one is what
the other becomes by an underscore in front. -/
def Clash (p : IdentifierPolicy) (a b : String) : Prop :=
  replaceDashes a = replaceDashes b ∨ p.Takes a b ∨ p.Takes b a

instance (p : IdentifierPolicy) (a b : String) : Decidable (p.Takes a b) :=
  inferInstanceAs (Decidable (_ ∧ _ ∧ _))

instance (p : IdentifierPolicy) (a b : String) : Decidable (p.Clash a b) :=
  inferInstanceAs (Decidable (_ ∨ _ ∨ _))

/-- Two names have one identifier exactly if they clash. -/
theorem sanitize_eq_sanitize_iff : p.sanitize a = p.sanitize b ↔ p.Clash a b := by
  have hcancel : "_" ++ replaceDashes a = "_" ++ replaceDashes b ↔
      replaceDashes a = replaceDashes b := by
    simp
  cases ha : p.marks (replaceDashes a) <;> cases hb : p.marks (replaceDashes b)
  · rw [sanitize_of_not_marks ha, sanitize_of_not_marks hb]
    simp [Clash, Takes, ha, hb]
  · rw [sanitize_of_not_marks ha, sanitize_of_marks hb]
    have hne : replaceDashes a ≠ replaceDashes b := fun h => by simp [h, hb] at ha
    simp [Clash, Takes, ha, hb, hne]
  · rw [sanitize_of_marks ha, sanitize_of_not_marks hb]
    have hne : replaceDashes a ≠ replaceDashes b := fun h => by simp [h, hb] at ha
    simp [Clash, Takes, ha, hb, hne, eq_comm]
  · rw [sanitize_of_marks ha, sanitize_of_marks hb, hcancel]
    simp [Clash, Takes, ha, hb]

/-! ### Plain names -/

/-- The name has no dash, and no underscore in front. -/
def IsPlain (name : String) : Prop :=
  '-' ∉ name.toList ∧ name.toList.head? ≠ some '_'

/-- A plain name is not what another becomes. -/
theorem not_takes_of_isPlain (hb : IsPlain b) : ¬ p.Takes a b := by
  rintro ⟨-, -, htaken⟩
  rw [replaceDashes_of_notMem hb.1] at htaken
  apply hb.2
  rw [htaken]
  simp

/-- Plain names do not clash with each other. -/
theorem Clash.eq_of_isPlain (h : p.Clash a b) (ha : IsPlain a) (hb : IsPlain b) : a = b := by
  rcases h with hsame | htaken | htaken
  · rwa [replaceDashes_of_notMem ha.1, replaceDashes_of_notMem hb.1] at hsame
  · exact absurd htaken (not_takes_of_isPlain hb)
  · exact absurd htaken (not_takes_of_isPlain ha)

end IdentifierPolicy

end ForeignCall
