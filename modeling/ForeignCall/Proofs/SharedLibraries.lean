import Mathlib.Data.List.DropRight
import ForeignCall.Model

/-!
# Lists of shared libraries

An attribute lists libraries between commas.  `Text.SplitsInto` says which pieces a text has between
its commas, and `Model.Spreads` says which pieces a list of libraries may be written as: each
library with any white space around it, in order, and blank pieces anywhere.  The libraries of an
attribute are those that its pieces spread, as long as each is a name that a list can hold
(`Model.sharedLibraryList_eq_iff`).

White space has no comma, so the pieces are free of commas exactly if the libraries are
(`Model.Spreads.commas_iff`).  Trimming therefore neither hides a separator nor makes one: the
libraries of an attribute are split into the same pieces that they are spread into, and come back
from them (`Model.libraries_come_back`).
-/

namespace ForeignCall

namespace Text

variable {before cs after : List Char}

/-! ### White space at the ends -/

/-- White space alone. -/
def IsBlank (cs : List Char) : Prop := ∀ c ∈ cs, isWhiteSpace c = true

instance (cs : List Char) : Decidable (IsBlank cs) :=
  decidable_of_iff (cs.all isWhiteSpace = true) List.all_eq_true

/-- No white space at either end. -/
structure IsTrimmed (cs : List Char) : Prop where
  head : ∀ c ∈ cs.head?, isWhiteSpace c = false
  last : ∀ c ∈ cs.getLast?, isWhiteSpace c = false

/-- A comma is no white space. -/
theorem IsBlank.comma_notMem (h : IsBlank cs) : ',' ∉ cs := by
  intro hcomma
  exact absurd (h ',' hcomma) (by decide)

/-- Trimming drops white space from the front and then from the back. -/
theorem trim_eq_rdropWhile (cs : List Char) :
    trim cs = (cs.dropWhile isWhiteSpace).rdropWhile isWhiteSpace := rfl

/-- What is trimmed off a text is white space on its two sides. -/
theorem exists_eq_append_trim (cs : List Char) :
    ∃ before after, IsBlank before ∧ IsBlank after ∧ cs = before ++ trim cs ++ after := by
  refine ⟨cs.takeWhile isWhiteSpace, (cs.dropWhile isWhiteSpace).rtakeWhile isWhiteSpace,
    fun c hc => List.mem_takeWhile_imp hc, fun c hc => List.mem_rtakeWhile_imp hc, ?_⟩
  rw [trim_eq_rdropWhile, List.append_assoc, List.rdropWhile_append_rtakeWhile,
    List.takeWhile_append_dropWhile]

theorem trim_append_left (h : IsBlank before) : trim (before ++ cs) = trim cs := by
  rw [trim, List.dropWhile_append_of_pos h, trim]

theorem trim_append_right (h : IsBlank after) : trim (cs ++ after) = trim cs := by
  have hback : ∀ c ∈ after.reverse, isWhiteSpace c = true :=
    fun c hc => h c (List.mem_reverse.mp hc)
  rw [trim, List.dropWhile_append, trim]
  split
  · rename_i hempty
    rw [List.isEmpty_iff.mp hempty, List.dropWhile_eq_nil_iff.mpr h]
  · rw [List.reverse_append, List.dropWhile_append_of_pos hback]

/-- What is left has no white space at its ends. -/
theorem isTrimmed_trim (cs : List Char) : IsTrimmed (trim cs) := by
  rw [trim_eq_rdropWhile]
  constructor
  · intro c hc
    -- It begins where the search from the front has stopped.
    obtain ⟨rest, hrest⟩ := List.head?_eq_some_iff.mp hc
    obtain ⟨dropped, hdropped⟩ := List.rdropWhile_prefix isWhiteSpace (cs.dropWhile isWhiteSpace)
    rw [hrest, List.cons_append] at hdropped
    have hstop := List.head?_dropWhile_not isWhiteSpace cs
    rwa [← hdropped] at hstop
  · intro c hc
    obtain ⟨hne, hlast⟩ := List.mem_getLast?_eq_getLast hc
    have hstop := List.rdropWhile_last_not isWhiteSpace (cs.dropWhile isWhiteSpace) hne
    rw [hlast]
    exact Bool.eq_false_iff.mpr hstop

theorem IsTrimmed.trim_eq (h : IsTrimmed cs) : trim cs = cs := by
  have hfront : cs.dropWhile isWhiteSpace = cs := by
    cases cs with
    | nil => rfl
    | cons c rest => exact List.dropWhile_cons_of_neg (by simp [h.head c rfl])
  have hback : cs.rdropWhile isWhiteSpace = cs := by
    rw [List.rdropWhile_eq_self_iff]
    intro hne
    simp [h.last _ (List.getLast?_eq_some_getLast hne)]
  rw [trim_eq_rdropWhile, hfront, hback]

theorem trim_eq_nil_iff : trim cs = [] ↔ IsBlank cs := by
  constructor
  · intro h
    obtain ⟨before, after, hbefore, hafter, hcs⟩ := exists_eq_append_trim cs
    rw [hcs, h, List.append_nil]
    exact List.forall_mem_append.mpr ⟨hbefore, hafter⟩
  · intro h
    rw [← List.append_nil cs, trim_append_left h]
    rfl

/-! ### Pieces between commas -/

theorem commaPieces_eq_splitOn (cs : List Char) : commaPieces cs = cs.splitOn ',' := by
  induction cs with
  | nil => rfl
  | cons c cs ih =>
    rw [commaPieces, ih, List.splitOn_cons_eq_if_modifyHead]
    by_cases hc : c = ','
    · simp [hc]
    · cases hpieces : cs.splitOn ',' with
      | nil => exact absurd hpieces (List.splitOn_ne_nil ',' cs)
      | cons piece pieces => simp [hc]

theorem comma_notMem_of_mem_commaPieces : ∀ piece ∈ commaPieces cs, ',' ∉ piece := by
  fun_induction commaPieces cs with
  | case1 => simp
  | case2 cs ih => exact List.forall_mem_cons.mpr ⟨List.not_mem_nil, ih⟩
  | case3 c cs hc hpieces ih => simpa using Ne.symm hc
  | case4 c cs hc piece pieces hpieces ih =>
    rw [hpieces] at ih
    obtain ⟨hpiece, hrest⟩ := List.forall_mem_cons.mp ih
    refine List.forall_mem_cons.mpr ⟨?_, hrest⟩
    exact List.not_mem_cons_of_ne_of_not_mem (Ne.symm hc) hpiece

/-- The pieces of a text between its commas. -/
structure SplitsInto (text : String) (pieces : List String) : Prop where
  /-- A text without a comma is one piece, also if it is empty. -/
  nonempty : pieces ≠ []
  commas : ∀ piece ∈ pieces, ',' ∉ piece.toList
  joined : ",".intercalate pieces = text

/-- The pieces that are found are these. -/
theorem SplitsInto.commaPieces_eq {text : String} {pieces : List String}
    (h : SplitsInto text pieces) : commaPieces text.toList = pieces.map String.toList := by
  have hcommas : ∀ piece ∈ pieces.map String.toList, ',' ∉ piece :=
    List.forall_mem_map.mpr h.commas
  rw [← h.joined, String.toList_intercalate, commaPieces_eq_splitOn]
  exact List.splitOn_intercalate ',' hcommas (by simpa using h.nonempty)

theorem exists_splitsInto (text : String) : ∃ pieces, SplitsInto text pieces := by
  refine ⟨(commaPieces text.toList).map String.ofList, ?_, ?_, ?_⟩
  · simp [commaPieces_eq_splitOn, List.splitOn_ne_nil]
  · intro piece hpiece
    obtain ⟨cs, hcs, rfl⟩ := List.mem_map.mp hpiece
    rw [String.toList_ofList]
    exact comma_notMem_of_mem_commaPieces cs hcs
  · apply String.toList_inj.mp
    rw [String.toList_intercalate, List.map_map, commaPieces_eq_splitOn]
    simp [Function.comp_def, List.intercalate_splitOn]

end Text

namespace Model

open Text

variable {library listed : String} {libraries pieces : List String}

/-! ### Libraries among pieces -/

/-- The pieces that a list of libraries may be written as. -/
inductive Spreads : List String → List String → Prop
  | nil : Spreads [] []
  /-- A blank piece may stand anywhere and is no library. -/
  | blank {piece : String} {libraries pieces : List String} (hpiece : IsBlank piece.toList)
      (hrest : Spreads libraries pieces) : Spreads libraries (piece :: pieces)
  | library (before after : String) {library : String} {libraries pieces : List String}
      (hbefore : IsBlank before.toList) (hafter : IsBlank after.toList)
      (hrest : Spreads libraries pieces) :
      Spreads (library :: libraries) ((before ++ library ++ after) :: pieces)

/-- A name that a list can hold: it comes back from any piece that has only white space around
it. -/
structure IsListed (library : String) : Prop where
  nonempty : library ≠ ""
  comma : ',' ∉ library.toList
  trimmed : IsTrimmed library.toList

/-- Whatever is put around libraries has no comma. -/
theorem Spreads.commas_iff (h : Spreads libraries pieces) :
    (∀ piece ∈ pieces, ',' ∉ piece.toList) ↔ ∀ library ∈ libraries, ',' ∉ library.toList := by
  induction h with
  | nil => rfl
  | blank hpiece hrest ih => simp [hpiece.comma_notMem, ih]
  | library before after hbefore hafter hrest ih =>
    simp [hbefore.comma_notMem, hafter.comma_notMem, ih]

/-- The libraries that are read from pieces. -/
def librariesAmong (pieces : List String) : List String :=
  (pieces.map fun piece => trim piece.toList).filterMap fun cs =>
    if cs.isEmpty then none else some (String.ofList cs)

theorem librariesAmong_cons_of_isBlank {piece : String} (h : IsBlank piece.toList) :
    librariesAmong (piece :: pieces) = librariesAmong pieces := by
  simp [librariesAmong, trim_eq_nil_iff.mpr h]

theorem librariesAmong_cons_of_not_isBlank {piece : String} (h : ¬ IsBlank piece.toList) :
    librariesAmong (piece :: pieces) =
      String.ofList (trim piece.toList) :: librariesAmong pieces := by
  simp [librariesAmong, mt trim_eq_nil_iff.mp h]

theorem sharedLibraryList_eq_librariesAmong (h : SplitsInto listed pieces) :
    sharedLibraryList listed = librariesAmong pieces := by
  rw [sharedLibraryList, h.commaPieces_eq, List.map_map]
  rfl

/-- The pieces are the libraries that are read from them, with white space and blank pieces. -/
theorem spreads_librariesAmong (pieces : List String) :
    Spreads (librariesAmong pieces) pieces := by
  induction pieces with
  | nil => exact .nil
  | cons piece pieces ih =>
    by_cases hblank : IsBlank piece.toList
    · rw [librariesAmong_cons_of_isBlank hblank]
      exact .blank hblank ih
    · obtain ⟨before, after, hbefore, hafter, hpiece⟩ := exists_eq_append_trim piece.toList
      have hsplit : piece =
          String.ofList before ++ String.ofList (trim piece.toList) ++ String.ofList after := by
        apply String.toList_inj.mp
        simpa using hpiece
      rw [librariesAmong_cons_of_not_isBlank hblank]
      -- Only the piece as a whole is taken apart, not the one inside the library's name.
      conv_rhs => rw [hsplit]
      exact .library _ _ (by simpa using hbefore) (by simpa using hafter) ih

/-- A library without white space at its ends is no white space, whatever stands around it. -/
theorem IsListed.not_isBlank (h : IsListed library) (before after : String) :
    ¬ IsBlank (before ++ library ++ after).toList := by
  intro hblank
  cases hchars : library.toList with
  | nil => exact h.nonempty (String.toList_eq_nil_iff.mp hchars)
  | cons c cs =>
    have hc : isWhiteSpace c = true := hblank c (by simp [hchars])
    have hhead : isWhiteSpace c = false := h.trimmed.head c (by simp [hchars])
    rw [hc] at hhead
    contradiction

/-- Pieces give back the libraries that were spread into them. -/
theorem Spreads.librariesAmong_eq (h : Spreads libraries pieces)
    (hlisted : ∀ library ∈ libraries, IsListed library) : librariesAmong pieces = libraries := by
  induction h with
  | nil => rfl
  | blank hpiece hrest ih => rw [librariesAmong_cons_of_isBlank hpiece, ih hlisted]
  | @library before after library _ _ hbefore hafter hrest ih =>
    obtain ⟨hlibrary, hlibraries⟩ := List.forall_mem_cons.mp hlisted
    have htrim : trim (before ++ library ++ after).toList = library.toList := by
      rw [String.toList_append, String.toList_append, trim_append_right hafter,
        trim_append_left hbefore, hlibrary.trimmed.trim_eq]
    rw [librariesAmong_cons_of_not_isBlank (hlibrary.not_isBlank before after), htrim,
      String.ofList_toList, ih hlibraries]

/-! ### Attributes -/

theorem isListed_of_mem_sharedLibraryList (h : library ∈ sharedLibraryList listed) :
    IsListed library := by
  obtain ⟨pieces, hpieces⟩ := exists_splitsInto listed
  rw [sharedLibraryList_eq_librariesAmong hpieces] at h
  have hcomma : ',' ∉ library.toList :=
    (spreads_librariesAmong pieces).commas_iff.mp hpieces.commas library h
  obtain ⟨cs, hcs, hlibrary⟩ := List.mem_filterMap.mp h
  obtain ⟨piece, -, rfl⟩ := List.mem_map.mp hcs
  split at hlibrary
  · cases hlibrary
  · rename_i hne
    obtain rfl := Option.some.inj hlibrary
    refine ⟨fun hempty => hne ?_, hcomma, ?_⟩
    · simpa using hempty
    · simpa using isTrimmed_trim piece.toList

/-- Pieces joined with commas are an attribute of the libraries that were spread into them. -/
theorem Spreads.sharedLibraryList_eq (h : Spreads libraries pieces)
    (hlisted : ∀ library ∈ libraries, IsListed library) :
    sharedLibraryList (",".intercalate pieces) = libraries := by
  by_cases hne : pieces = []
  · subst hne
    cases h
    rfl
  · have hcommas : ∀ piece ∈ pieces, ',' ∉ piece.toList :=
      h.commas_iff.mpr fun library hlibrary => (hlisted library hlibrary).comma
    rw [sharedLibraryList_eq_librariesAmong ⟨hne, hcommas, rfl⟩, h.librariesAmong_eq hlisted]

/-- The pieces of an attribute settle its libraries. -/
theorem sharedLibraryList_eq_iff :
    sharedLibraryList listed = libraries ↔
      (∀ library ∈ libraries, IsListed library) ∧
      ∃ pieces, SplitsInto listed pieces ∧ Spreads libraries pieces := by
  constructor
  · rintro rfl
    obtain ⟨pieces, hpieces⟩ := exists_splitsInto listed
    refine ⟨fun library => isListed_of_mem_sharedLibraryList, pieces, hpieces, ?_⟩
    rw [sharedLibraryList_eq_librariesAmong hpieces]
    exact spreads_librariesAmong pieces
  · rintro ⟨hlisted, pieces, hpieces, hspreads⟩
    rw [← hpieces.joined]
    exact hspreads.sharedLibraryList_eq hlisted

/-- A model has the libraries that stand between the commas of its attribute, in order, without the
white space around them and without blank pieces.  Written between commas again, with any white
space around them and any blank pieces, they are the same libraries of any other model, and the
first of them is the same. -/
theorem libraries_come_back (m : Model) (listed : String) :
    (∀ libraries, (m.withSharedLibrary listed).sharedLibraries = libraries ↔
      (∀ library ∈ libraries, IsListed library) ∧
      ∃ pieces, SplitsInto listed pieces ∧ Spreads libraries pieces) ∧
    ∀ (other : Model) (pieces : List String),
      Spreads (m.withSharedLibrary listed).sharedLibraries pieces →
      (other.withSharedLibrary (",".intercalate pieces)).sharedLibraries =
          (m.withSharedLibrary listed).sharedLibraries ∧
        (other.withSharedLibrary (",".intercalate pieces)).primaryLibrary =
          (m.withSharedLibrary listed).primaryLibrary := by
  refine ⟨fun libraries => sharedLibraryList_eq_iff, fun other pieces hspreads => ?_⟩
  have hback : (other.withSharedLibrary (",".intercalate pieces)).sharedLibraries =
      (m.withSharedLibrary listed).sharedLibraries :=
    hspreads.sharedLibraryList_eq fun library => isListed_of_mem_sharedLibraryList
  exact ⟨hback, congrArg List.head? hback⟩

theorem libraries_come_back_sample :
    let m := (empty "Sample" "1.0").withSharedLibrary "\u00A0libsample-1.0.so.0\t,, lib extra.so ,"
    let pieces := ["", "libsample-1.0.so.0\u3000", " ", "\nlib extra.so"]
    Spreads m.sharedLibraries pieces ∧
      ((empty "Other" "2.0").withSharedLibrary (",".intercalate pieces)).sharedLibraries =
        m.sharedLibraries ∧
      ((empty "Other" "2.0").withSharedLibrary (",".intercalate pieces)).primaryLibrary =
        some "libsample-1.0.so.0" := by
  intro m pieces
  have hlibraries : m.sharedLibraries = ["libsample-1.0.so.0", "lib extra.so"] := by decide
  have hspreads : Spreads m.sharedLibraries pieces := by
    rw [hlibraries]
    exact .blank (by decide) (.library "" "\u3000" (by decide) (by decide)
      (.blank (by decide) (.library "\n" "" (by decide) (by decide) .nil)))
  obtain ⟨hback, hprimary⟩ :=
    (libraries_come_back (empty "Sample" "1.0") _).2 (empty "Other" "2.0") pieces hspreads
  exact ⟨hspreads, hback, hprimary⟩

end Model

end ForeignCall
