import ForeignCall.TypeName

/-!
# Type names as texts

A name is written as its namespace, a dot and its local name, and a text is read by splitting it at
its last dot.  `TypeName.ReadsAs` lists what a text can be: a local name, a local name behind a dot,
or a namespace and a local name with a dot between them.  Every text is one of these in one way
(`TypeName.parse_eq_iff`), because no local name that is read has a dot of its own.

So a name comes back from its text if its local name has no dot, since the text would be split
there, and if its namespace is not empty, since an empty one is dropped.  A text comes back from the
name that it is read as unless its one dot stands in front, since that dot is dropped with the
empty namespace (`TypeName.text_comes_back`).
-/

namespace ForeignCall

namespace TypeName

/-! ### The last dot -/

/-- Where there is no dot, nothing is split. -/
theorem splitAtLastDot_of_notMem {cs : List Char} (h : '.' ∉ cs) : splitAtLastDot cs = none := by
  induction cs with
  | nil => rfl
  | cons c cs ih =>
    obtain ⟨hc, hrest⟩ := List.ne_and_not_mem_of_not_mem_cons h
    rw [splitAtLastDot, ih hrest]
    exact if_neg (Ne.symm hc)

/-- A dot with no dot behind it is where a text is split, whatever stands in front. -/
theorem splitAtLastDot_append (before : List Char) {after : List Char} (h : '.' ∉ after) :
    splitAtLastDot (before ++ '.' :: after) = some (before, after) := by
  induction before with
  | nil =>
    rw [List.nil_append, splitAtLastDot, splitAtLastDot_of_notMem h]
    exact if_pos rfl
  | cons c before ih => rw [List.cons_append, splitAtLastDot, ih]

/-- One of the dots of a text is the last. -/
theorem exists_last_dot {cs : List Char} (h : '.' ∈ cs) :
    ∃ before after, cs = before ++ '.' :: after ∧ '.' ∉ after := by
  obtain ⟨after, before, hsplit, hafter⟩ := List.eq_append_cons_of_mem (List.mem_reverse.mpr h)
  refine ⟨before.reverse, after.reverse, ?_, ?_⟩
  · rw [← List.reverse_reverse cs, hsplit]
    simp
  · rwa [List.mem_reverse]

/-! ### Reading a text -/

/-- What a text is read as. -/
inductive ReadsAs : String → TypeName → Prop
  | localName {name : String} (hname : '.' ∉ name.toList) : ReadsAs name (unqualified name)
  /-- The empty text in front of the dot is no namespace. -/
  | leadingDot {name : String} (hname : '.' ∉ name.toList) :
    ReadsAs ("." ++ name) (unqualified name)
  /-- The namespace may have dots, also at its ends. -/
  | dotted {space name : String} (hspace : space ≠ "") (hname : '.' ∉ name.toList) :
    ReadsAs (space ++ "." ++ name) (qualified space name)

variable {text : String} {t : TypeName}

/-- A text can be taken for one of the three forms. -/
theorem exists_readsAs (text : String) : ∃ t, ReadsAs text t := by
  by_cases hdot : '.' ∈ text.toList
  · obtain ⟨before, after, hsplit, hafter⟩ := exists_last_dot hdot
    have htext : text = String.ofList before ++ "." ++ String.ofList after := by
      apply String.toList_inj.mp
      simp [hsplit]
    have hname : '.' ∉ (String.ofList after).toList := by rwa [String.toList_ofList]
    by_cases hbefore : before = []
    · subst hbefore
      rw [htext]
      exact ⟨_, .leadingDot hname⟩
    · have hspace : String.ofList before ≠ "" := by
        intro hempty
        apply hbefore
        rw [← String.toList_ofList (l := before), hempty]
        rfl
      rw [htext]
      exact ⟨_, .dotted hspace hname⟩
  · exact ⟨_, .localName hdot⟩

/-- The form of a text is the one that the reader finds. -/
theorem ReadsAs.parse_eq (h : ReadsAs text t) : parse text = t := by
  cases h with
  | localName hname => simp only [parse, splitAtLastDot_of_notMem hname]
  | @leadingDot name hname =>
    have hsplit : splitAtLastDot ("." ++ name).toList = some ([], name.toList) := by
      rw [String.toList_append]
      exact splitAtLastDot_append [] hname
    simp only [parse, hsplit, String.ofList_toList]
  | @dotted space name hspace hname =>
    have hsplit : splitAtLastDot (space ++ "." ++ name).toList =
        some (space.toList, name.toList) := by
      rw [String.toList_append, String.toList_append, List.append_assoc]
      exact splitAtLastDot_append space.toList hname
    -- The reader looks at the text in front of the dot, and drops it only where it is empty.
    cases hchars : space.toList with
    | nil => exact absurd (String.toList_eq_nil_iff.mp hchars) hspace
    | cons c cs =>
      have hback : String.ofList (c :: cs) = space := by rw [← hchars, String.ofList_toList]
      rw [hchars] at hsplit
      simp only [parse, hsplit, hback, String.ofList_toList]

theorem parse_eq_iff : parse text = t ↔ ReadsAs text t := by
  constructor
  · rintro rfl
    obtain ⟨t, ht⟩ := exists_readsAs text
    rwa [ht.parse_eq]
  · exact ReadsAs.parse_eq

/-! ### There and back -/

/-- No name that is read has a dot in its local name or an empty namespace. -/
theorem ReadsAs.faithful (h : ReadsAs text t) :
    '.' ∉ t.name.toList ∧ t.qualifier ≠ some "" := by
  cases h with
  | localName hname => exact ⟨hname, by simp [unqualified]⟩
  | leadingDot hname => exact ⟨hname, by simp [unqualified]⟩
  | dotted hspace hname => exact ⟨hname, by simpa [qualified] using hspace⟩

/-- The text of such a name is of the form that gives the name. -/
theorem readsAs_display (hname : '.' ∉ t.name.toList) (hspace : t.qualifier ≠ some "") :
    ReadsAs t.display t := by
  obtain ⟨name, qualifier⟩ := t
  cases qualifier with
  | none => exact .localName hname
  | some space => exact .dotted (fun hempty => hspace (congrArg some hempty)) hname

/-- The text has one dot, and the dot stands in front. -/
def OnlyLeadingDot (text : String) : Prop :=
  text.toList.head? = some '.' ∧ '.' ∉ text.toList.tail

instance (text : String) : Decidable (OnlyLeadingDot text) :=
  inferInstanceAs (Decidable (_ ∧ _))

/-- A text is written again as it was, but without a dot that was its only one and in front. -/
theorem ReadsAs.display_eq (h : ReadsAs text t) :
    t.display = if OnlyLeadingDot text then String.ofList text.toList.tail else text := by
  cases h with
  | localName hname =>
    have hnot : ¬ OnlyLeadingDot text := by
      rintro ⟨hhead, -⟩
      exact hname (List.mem_of_head? hhead)
    rw [if_neg hnot]
    rfl
  | @leadingDot name hname =>
    have honly : OnlyLeadingDot ("." ++ name) := ⟨by simp, by simpa using hname⟩
    rw [if_pos honly]
    simp [display, unqualified]
  | @dotted space name hspace hname =>
    have hnot : ¬ OnlyLeadingDot (space ++ "." ++ name) := by
      rintro ⟨-, htail⟩
      apply htail
      cases hchars : space.toList with
      | nil => exact absurd (String.toList_eq_nil_iff.mp hchars) hspace
      | cons c cs => simp [hchars]
    rw [if_neg hnot]
    rfl

/-- The names that come back from their texts are those whose local name has no dot and whose
namespace is not empty.  All texts come back from the names that they are read as but those whose
only dot stands in front, which lose it. -/
theorem text_comes_back :
    (∀ t : TypeName, parse t.display = t ↔ '.' ∉ t.name.toList ∧ t.qualifier ≠ some "") ∧
    ∀ text : String, (parse text).display =
      if OnlyLeadingDot text then String.ofList text.toList.tail else text := by
  refine ⟨fun t => ⟨fun hback => ?_, fun ⟨hname, hspace⟩ => ?_⟩, fun text => ?_⟩
  · exact (parse_eq_iff.mp hback).faithful
  · exact (readsAs_display hname hspace).parse_eq
  · exact (parse_eq_iff.mp rfl).display_eq

example : (parse ".Variant").display = "Variant" ∧ (parse "..Variant").display = "..Variant" := by
  decide

end TypeName

end ForeignCall
