import ForeignCall.Signature
import ForeignCall.Text.Utf8

/-!
# Signature tables

Signatures under the names of their symbols.  A name has one signature: the last one that was
inserted.  A table keeps its entries as they happen to stand, and sorts them by the bytes of the
names whenever it is listed.
-/

namespace ForeignCall

/-- Signatures by name, in no particular order. -/
structure SignatureTable where
  stored : List (String × Signature)
  deriving DecidableEq, Repr, Inhabited

namespace SignatureTable

/-- A table without entries. -/
def empty : SignatureTable where
  stored := []

/-- The signature of a name. -/
def get? (t : SignatureTable) (name : String) : Option Signature := t.stored.lookup name

/-- The name has a signature. -/
def contains (t : SignatureTable) (name : String) : Bool := (t.get? name).isSome

/-- The number of names. -/
def size (t : SignatureTable) : Nat := t.stored.length

/-- Gives a name a signature; the signature that it had before is handed back. -/
def insert (t : SignatureTable) (name : String) (signature : Signature) :
    Option Signature × SignatureTable :=
  (t.get? name, { stored := (name, signature) :: t.stored.filter (·.1 != name) })

/-- The name of one entry does not come behind that of another. -/
def notBehind (a b : String × Signature) : Bool := !Text.bytewiseLess b.1 a.1

/-- The entries, sorted by the bytes of their names. -/
def entries (t : SignatureTable) : List (String × Signature) := t.stored.mergeSort notBehind

/-! ### Reading a table after an insertion -/

@[simp] theorem get?_empty (name : String) : empty.get? name = none := rfl

/-- A name is looked up in the first entry and then in the others. -/
theorem lookup_cons (key : String) (entry : String × Signature)
    (rest : List (String × Signature)) :
    (entry :: rest).lookup key = if key = entry.1 then some entry.2 else rest.lookup key := by
  rw [List.lookup_cons]
  by_cases hkey : key = entry.1
  · rw [if_pos hkey, beq_iff_eq.mpr hkey]
  · rw [if_neg hkey, beq_eq_false_iff_ne.mpr hkey]

/-- Without the entries of one name any other is looked up as before. -/
theorem lookup_filter_ne {key name : String} (hkey : key ≠ name)
    (rows : List (String × Signature)) :
    (rows.filter (·.1 != name)).lookup key = rows.lookup key := by
  induction rows with
  | nil => rfl
  | cons entry rest ih =>
    by_cases hname : entry.1 = name
    · rw [List.filter_cons_of_neg (by simp [hname]), lookup_cons, ih, hname, if_neg hkey]
    · rw [List.filter_cons_of_pos (by simp [hname]), lookup_cons, lookup_cons, ih]

/-- A name has the signature that was inserted for it last. -/
theorem get?_insert (t : SignatureTable) (name : String) (signature : Signature) (key : String) :
    (t.insert name signature).2.get? key = if key = name then some signature else t.get? key := by
  unfold get? insert
  rw [lookup_cons]
  by_cases hkey : key = name
  · rw [if_pos hkey, if_pos hkey]
  · rw [if_neg hkey, if_neg hkey, lookup_filter_ne hkey]

/-- A name that has no signature yet takes a place of its own. -/
theorem size_insert (t : SignatureTable) (name : String) (signature : Signature)
    (h : t.get? name = none) : (t.insert name signature).2.size = t.size + 1 := by
  have hothers : t.stored.filter (·.1 != name) = t.stored := by
    rw [List.filter_eq_self]
    intro entry hentry
    rw [bne_comm]
    exact List.lookup_eq_none_iff.mp h entry hentry
  simp [insert, size, hothers]

end SignatureTable

end ForeignCall
