import Mathlib.Data.List.Dedup
import Mathlib.Data.List.Induction
import ForeignCall.Proofs.Text.Utf8
import ForeignCall.Signature.Table

/-!
# What a signature table remembers

A table that was filled by insertions, in whatever order and with whatever names repeated, shows two
things of them: which names there were, and what was inserted last for each
(`SignatureTable.insertAll_shows`).

`SignatureTable.Records` is the invariant.  No name is stored twice, and the signature that is found
for a name is the last one inserted for it.  Both survive an insertion, which takes out the entry of
its name first.  How the entries are stored is of no importance.  Sorting keeps them all
(`SignatureTable.perm_entries`), and sorted names of which none comes twice ascend strictly
(`SignatureTable.Sorted.ascends`), so there is one list that a sort by the names can give
(`SignatureTable.Records.eq_entries`).  That list is the same for two histories which end with the
same signature for each name (`SignatureTable.entries_insertAll_eq_iff`).
-/

namespace ForeignCall

/-! ### The order of names -/

namespace Text

variable {a b c : String}

theorem bytewiseLess_iff : bytewiseLess a b = true ↔ utf8 a < utf8 b := by
  rw [bytewiseLess, decide_eq_true_eq]

theorem bytewiseLess_trans (hab : bytewiseLess a b = true) (hbc : bytewiseLess b c = true) :
    bytewiseLess a c = true := by
  rw [bytewiseLess_iff] at hab hbc ⊢
  exact List.lt_trans hab hbc

/-- A text does not come before itself. -/
theorem ne_of_bytewiseLess (h : bytewiseLess a b = true) : a ≠ b := by
  rintro rfl
  exact List.lt_irrefl _ (bytewiseLess_iff.mp h)

theorem bytewiseLess_asymm (h : bytewiseLess a b = true) : ¬ bytewiseLess b a = true :=
  fun h' => ne_of_bytewiseLess (bytewiseLess_trans h h') rfl

/-- Of two texts one comes first, since texts with the same bytes are the same. -/
theorem bytewiseLess_of_not (hne : a ≠ b) (h : ¬ bytewiseLess a b = true) :
    bytewiseLess b a = true := by
  rw [bytewiseLess_iff] at h ⊢
  by_contra h'
  exact hne (utf8_injective (List.le_antisymm (List.not_lt.mp h') (List.not_lt.mp h)))

/-- What comes behind neither of two texts in a row. -/
theorem not_bytewiseLess_trans (hab : ¬ bytewiseLess b a = true) (hbc : ¬ bytewiseLess c b = true) :
    ¬ bytewiseLess c a = true := by
  rw [bytewiseLess_iff, List.not_lt] at hab hbc ⊢
  exact List.le_trans hab hbc

end Text

namespace SignatureTable

variable {rows inserted : List (String × Signature)} {t : SignatureTable} {name : String}
  {signature : Signature}

/-! ### Sorted entries -/

/-- No entry comes in front of one whose name is before its own. -/
def Sorted (rows : List (String × Signature)) : Prop :=
  rows.Pairwise fun a b => ¬ Text.bytewiseLess b.1 a.1 = true

/-- The names of the entries strictly ascend by their bytes. -/
def Ascends (rows : List (String × Signature)) : Prop :=
  rows.Pairwise fun a b => Text.bytewiseLess a.1 b.1 = true

theorem notBehind_iff {a b : String × Signature} :
    notBehind a b = true ↔ ¬ Text.bytewiseLess b.1 a.1 = true := by
  rw [notBehind, Bool.not_eq_true', Bool.not_eq_true]

theorem notBehind_trans (a b c : String × Signature) (hab : notBehind a b = true)
    (hbc : notBehind b c = true) : notBehind a c = true := by
  rw [notBehind_iff] at hab hbc ⊢
  exact Text.not_bytewiseLess_trans hab hbc

theorem notBehind_total (a b : String × Signature) : (notBehind a b || notBehind b a) = true := by
  rw [Bool.or_eq_true, notBehind_iff, notBehind_iff]
  by_contra h
  obtain ⟨hba, hab⟩ := not_or.mp h
  exact Text.bytewiseLess_asymm (not_not.mp hba) (not_not.mp hab)

/-- The list of the entries has what is stored. -/
theorem perm_entries (t : SignatureTable) : t.entries.Perm t.stored :=
  List.mergeSort_perm t.stored notBehind

theorem sorted_entries (t : SignatureTable) : Sorted t.entries :=
  (List.pairwise_mergeSort notBehind_trans notBehind_total t.stored).imp notBehind_iff.mp

/-- Sorted names of which none comes twice ascend. -/
theorem Sorted.ascends (h : Sorted rows) (hnodup : (rows.map (·.1)).Nodup) : Ascends rows :=
  (List.pairwise_map.mp hnodup).imp₂ (fun _ _ hne hnot => Text.bytewiseLess_of_not hne.symm hnot) h

/-- There is one order in which entries ascend. -/
theorem Ascends.eq_of_perm {others : List (String × Signature)} (h : Ascends rows)
    (hothers : Ascends others) (hperm : rows.Perm others) : rows = others := by
  refine hperm.eq_of_pairwise (fun a b _ _ hless hless' => ?_) h hothers
  exact absurd hless' (Text.bytewiseLess_asymm hless)

/-! ### Entries of different names -/

/-- Where no name comes twice, the entry that is found for a name is the only one. -/
theorem mem_iff_lookup (hnodup : (rows.map (·.1)).Nodup) :
    (name, signature) ∈ rows ↔ rows.lookup name = some signature := by
  induction rows with
  | nil => simp
  | cons first rest ih =>
    obtain ⟨hfirst, hrest⟩ := List.nodup_cons.mp hnodup
    rw [List.mem_cons, lookup_cons, ih hrest]
    by_cases hname : name = first.1
    · have hnone : rest.lookup name ≠ some signature := by
        intro hfound
        have hentry := (ih hrest).mpr hfound
        exact hfirst (List.mem_map.mpr ⟨_, hentry, hname⟩)
      simp [hname ▸ hnone, hname, Prod.ext_iff, eq_comm]
    · simp [hname, Prod.ext_iff]

/-- An insertion leaves no name twice. -/
theorem nodup_insert (hnodup : (t.stored.map (·.1)).Nodup) (name : String)
    (signature : Signature) : ((t.insert name signature).2.stored.map (·.1)).Nodup := by
  have hothers : ((t.stored.filter (·.1 != name)).map (·.1)).Sublist (t.stored.map (·.1)) :=
    List.filter_sublist.map _
  have hnew : name ∉ (t.stored.filter (·.1 != name)).map (·.1) := by
    simp
  exact List.nodup_cons.mpr ⟨hnew, hnodup.sublist hothers⟩

/-! ### Histories -/

/-- The signature that was inserted last for a name. -/
def lastSignature? (inserted : List (String × Signature)) (name : String) : Option Signature :=
  ((inserted.filter (·.1 == name)).map (·.2)).getLast?

theorem lastSignature?_append_singleton (inserted : List (String × Signature)) (name : String)
    (signature : Signature) (key : String) :
    lastSignature? (inserted ++ [(name, signature)]) key =
      if key = name then some signature else lastSignature? inserted key := by
  by_cases hkey : key = name
  · simp [lastSignature?, hkey]
  · simp [lastSignature?, hkey, Ne.symm hkey]

/-- A name has a last signature if one was inserted for it. -/
theorem isSome_lastSignature?_iff :
    (lastSignature? inserted name).isSome = true ↔ name ∈ inserted.map (·.1) := by
  simp [lastSignature?]

/-- The table that is filled by insertions one after another. -/
def insertAll (inserted : List (String × Signature)) : SignatureTable :=
  inserted.foldl (fun t entry => (t.insert entry.1 entry.2).2) empty

/-- The table holds what was inserted last for each name, once for each. -/
structure Records (t : SignatureTable) (inserted : List (String × Signature)) : Prop where
  nodup : (t.stored.map (·.1)).Nodup
  get?_eq : ∀ name, t.get? name = lastSignature? inserted name

/-- An insertion is recorded as the last one. -/
theorem Records.insert (h : t.Records inserted) (name : String) (signature : Signature) :
    (t.insert name signature).2.Records (inserted ++ [(name, signature)]) where
  nodup := nodup_insert h.nodup name signature
  get?_eq key := by rw [get?_insert, lastSignature?_append_singleton, h.get?_eq]

/-- Insertions one after another are recorded. -/
theorem insertAll_records (inserted : List (String × Signature)) :
    (insertAll inserted).Records inserted := by
  induction inserted using List.reverseRecOn with
  | nil => exact ⟨.nil, fun _ => rfl⟩
  | append_singleton inserted entry ih =>
    have hstep : insertAll (inserted ++ [entry]) =
        ((insertAll inserted).insert entry.1 entry.2).2 := by
      simp [insertAll]
    rw [hstep]
    exact ih.insert entry.1 entry.2

/-! ### What a table shows -/

namespace Records

/-- A name has a signature if one was inserted for it. -/
theorem contains_iff (h : t.Records inserted) :
    t.contains name = true ↔ name ∈ inserted.map (·.1) := by
  rw [contains, h.get?_eq, isSome_lastSignature?_iff]

/-- Names are listed once. -/
theorem nodup_entries (h : t.Records inserted) : (t.entries.map (·.1)).Nodup :=
  (t.perm_entries.map _).nodup_iff.mpr h.nodup

/-- The names of the listed entries ascend. -/
theorem ascends (h : t.Records inserted) : Ascends t.entries :=
  t.sorted_entries.ascends h.nodup_entries

/-- Whichever way the entries are sorted by their names, they are listed like this. -/
theorem eq_entries (h : t.Records inserted) (hperm : rows.Perm t.stored) (hsorted : Sorted rows) :
    rows = t.entries := by
  have hnodup : (rows.map (·.1)).Nodup := (hperm.map _).nodup_iff.mpr h.nodup
  exact (hsorted.ascends hnodup).eq_of_perm h.ascends (hperm.trans t.perm_entries.symm)

/-- The entries are the names with what was inserted last for them. -/
theorem mem_entries_iff (h : t.Records inserted) :
    (name, signature) ∈ t.entries ↔ lastSignature? inserted name = some signature := by
  rw [t.perm_entries.mem_iff, mem_iff_lookup h.nodup, ← h.get?_eq]
  rfl

/-- The names of the entries are the names that were inserted. -/
theorem mem_names_iff (h : t.Records inserted) :
    name ∈ t.entries.map (·.1) ↔ name ∈ inserted.map (·.1) := by
  have hsome : name ∈ inserted.map (·.1) ↔
      ∃ signature, lastSignature? inserted name = some signature := by
    rw [← isSome_lastSignature?_iff, Option.isSome_iff_exists]
  rw [hsome, List.mem_map]
  constructor
  · rintro ⟨⟨name, signature⟩, hentry, rfl⟩
    exact ⟨signature, h.mem_entries_iff.mp hentry⟩
  · rintro ⟨signature, hsignature⟩
    exact ⟨(name, signature), h.mem_entries_iff.mpr hsignature, rfl⟩

/-- There are as many entries as different names. -/
theorem size_eq (h : t.Records inserted) : t.size = (inserted.map (·.1)).dedup.length := by
  have hperm : (t.entries.map (·.1)).Perm (inserted.map (·.1)).dedup := by
    rw [List.perm_ext_iff_of_nodup h.nodup_entries (List.nodup_dedup _)]
    intro name
    rw [List.mem_dedup, h.mem_names_iff]
  rw [size, ← hperm.length_eq, List.length_map, t.perm_entries.length_eq]

end Records

/-- What can be read from a table after insertions. -/
structure Shows (t : SignatureTable) (inserted : List (String × Signature)) : Prop where
  /-- A further insertion hands back what was inserted last for its name. -/
  insert_fst : ∀ name signature, (t.insert name signature).1 = lastSignature? inserted name
  size_eq : t.size = (inserted.map (·.1)).dedup.length
  /-- Every name that was inserted has one entry, and no other has any. -/
  count_eq : ∀ name, (t.entries.map (·.1)).count name =
    if name ∈ inserted.map (·.1) then 1 else 0
  ascends : Ascends t.entries
  /-- Neither the order in which the entries are stored nor the way of sorting them shows. -/
  eq_entries : ∀ rows : List (String × Signature), rows.Perm t.stored → Sorted rows →
    rows = t.entries
  /-- An entry has what was inserted last for its name. -/
  mem_entries_iff : ∀ name signature,
    (name, signature) ∈ t.entries ↔ lastSignature? inserted name = some signature
  get?_eq : ∀ name, t.get? name = lastSignature? inserted name
  contains_iff : ∀ name, t.contains name = true ↔ name ∈ inserted.map (·.1)

/-- After any insertions a table shows each name that was inserted once, in the order of the names,
with what was inserted last for it. -/
theorem insertAll_shows (inserted : List (String × Signature)) :
    (insertAll inserted).Shows inserted := by
  have h := insertAll_records inserted
  constructor
  case insert_fst => exact fun name _ => h.get?_eq name
  case size_eq => exact h.size_eq
  case count_eq =>
    intro name
    rw [h.nodup_entries.count, if_congr h.mem_names_iff rfl rfl]
  case ascends => exact h.ascends
  case eq_entries => exact fun _ => h.eq_entries
  case mem_entries_iff => exact fun _ _ => h.mem_entries_iff
  case get?_eq => exact h.get?_eq
  case contains_iff => exact fun _ => h.contains_iff

/-- Two histories are listed alike exactly if they end with the same signature for each name. -/
theorem entries_insertAll_eq_iff {others : List (String × Signature)} :
    (insertAll inserted).entries = (insertAll others).entries ↔
      ∀ name, lastSignature? inserted name = lastSignature? others name := by
  have h := insertAll_records inserted
  have h' := insertAll_records others
  constructor
  · intro heq name
    apply Option.ext
    intro signature
    rw [← h.mem_entries_iff, ← h'.mem_entries_iff, heq]
  · intro hlast
    have hperm : (insertAll inserted).entries.Perm (insertAll others).entries := by
      rw [List.perm_ext_iff_of_nodup h.nodup_entries.of_map h'.nodup_entries.of_map]
      rintro ⟨name, signature⟩
      rw [h.mem_entries_iff, h'.mem_entries_iff, hlast]
    exact h.ascends.eq_of_perm h'.ascends hperm

end SignatureTable

end ForeignCall
