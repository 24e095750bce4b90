import ForeignCall.Proofs.Conversion.Reading

/-!
# Arrays in memory

An array is known by the address of its first element.  `Memory.HasArray` says that values stand
there: each is read at its own multiple of the size of their slot, and all of them in one piece of
memory.  Where regions of native memory keep apart (`Native.Apart`) the second half is no further
demand (`Memory.hasArray_iff_row`).

Once it is known how many elements there are, the array is read as the list of the converted values,
or as the error of the first value that cannot be converted
(`ArrayConversion.fromAddress_eq_mapM`).
-/

namespace ForeignCall

variable {m : Memory} {a : Address} {s : Slot} {values : List AbiValue}

/-! ### Pieces of memory -/

/-- Regions of native memory do not overlap, and none reaches beyond the last address. -/
structure Native.Apart (native : Native) : Prop where
  /-- The bytes of a region have addresses. -/
  inside : ∀ r ∈ native, r.base.toNat + r.bytes.length ≤ 18446744073709551616
  /-- Of two regions one ends before the other starts. -/
  apart : native.Pairwise fun r r' =>
    r.base.toNat + r.bytes.length ≤ r'.base.toNat ∨ r'.base.toNat + r'.bytes.length ≤ r.base.toNat

instance (native : Native) : Decidable native.Apart :=
  decidable_of_iff ((∀ r ∈ native, r.base.toNat + r.bytes.length ≤ 18446744073709551616) ∧
      native.Pairwise fun r r' => r.base.toNat + r.bytes.length ≤ r'.base.toNat ∨
        r'.base.toNat + r'.bytes.length ≤ r.base.toNat)
    ⟨fun h => ⟨h.1, h.2⟩, fun h => ⟨h.inside, h.apart⟩⟩

namespace Region

variable {r : Region} {b : UInt64} {offset : Nat}

/-- An address lies in a region if the region has a byte for it. -/
theorem offset?_eq_some_iff :
    r.offset? b = some offset ↔
      r.base.toNat + offset = b.toNat ∧ b.toNat < r.base.toNat + r.bytes.length := by
  unfold offset?
  split
  · rw [Option.some.injEq]
    omega
  · simp only [reduceCtorEq, false_iff]
    omega

theorem offset?_eq_none_iff :
    r.offset? b = none ↔ b.toNat < r.base.toNat ∨ r.base.toNat + r.bytes.length ≤ b.toNat := by
  unfold offset?
  split
  · simp only [reduceCtorEq, false_iff]
    omega
  · simp only [true_iff]
    omega

end Region

namespace Native

variable {native : Native} {b : UInt64} {n : Nat}

/-- Bytes that are found from an address on are those of one region. -/
theorem exists_region (h : n < (native.bytesFrom b).length) :
    ∃ r ∈ native, ∃ offset, r.offset? b = some offset ∧ n < (r.bytes.drop offset).length := by
  induction native with
  | nil => simp [bytesFrom] at h
  | cons r rs ih =>
    unfold bytesFrom at h
    split at h
    · exact ⟨r, List.mem_cons_self, _, ‹_›, h⟩
    · obtain ⟨r', hr', hfound⟩ := ih h
      exact ⟨r', List.mem_cons_of_mem _ hr', hfound⟩

/-- Inside a region that keeps apart from the others, the bytes from further on are those from an
address on without the first. -/
theorem bytesFrom_add (hnative : native.Apart) (h : n < (native.bytesFrom b).length) :
    native.bytesFrom (b + UInt64.ofNat n) = (native.bytesFrom b).drop n := by
  obtain ⟨r, hr, offset, hoffset, hn⟩ := exists_region h
  obtain ⟨hbase, hlt⟩ := Region.offset?_eq_some_iff.mp hoffset
  rw [List.length_drop] at hn
  have hinside := hnative.inside r hr
  have hsum : (b + UInt64.ofNat n).toNat = b.toNat + n := by
    rw [UInt64.toNat_add, UInt64.toNat_ofNat']
    omega
  induction native with
  | nil => cases hr
  | cons first rest ih =>
    obtain ⟨hfirst, hrest⟩ := List.pairwise_cons.mp hnative.apart
    cases hfound : first.offset? b with
    | some offset' =>
      obtain ⟨hbase', hlt'⟩ := Region.offset?_eq_some_iff.mp hfound
      -- The address lies in both regions, and regions that keep apart have no address in common.
      have hmem : r = first := by
        rcases List.mem_cons.mp hr with rfl | hr
        · rfl
        · have hapart := hfirst r hr
          omega
      subst hmem
      have hfurther : r.offset? (b + UInt64.ofNat n) = some (offset' + n) := by
        rw [Region.offset?_eq_some_iff, hsum]
        omega
      simp only [bytesFrom, hfound, hfurther, List.drop_drop]
    | none =>
      have hr' : r ∈ rest := by
        rcases List.mem_cons.mp hr with rfl | hr
        · rw [hoffset] at hfound
          cases hfound
        · exact hr
      have hfurther : first.offset? (b + UInt64.ofNat n) = none := by
        have hapart := hfirst r hr'
        rw [Region.offset?_eq_none_iff] at hfound ⊢
        omega
      have hapart : Apart rest :=
        ⟨fun r hr => hnative.inside r (List.mem_cons_of_mem _ hr), hrest⟩
      simp only [bytesFrom, hfound, hfurther] at h ⊢
      exact ih hapart h hr'

end Native

/-- Inside a region or a block, the bytes from further on are those from an address on without the
first. -/
theorem Memory.bytesFrom_advance {n : Nat} (hnative : m.native.Apart)
    (h : n < (m.bytesFrom a).length) :
    m.bytesFrom (a.advance n) = (m.bytesFrom a).drop n := by
  cases a with
  | native b => exact Native.bytesFrom_add hnative h
  | owned block offset => simp only [Address.advance, bytesFrom, List.drop_drop]

/-! ### Arrays -/

/-- From the address on stand values of a slot, in their order. -/
structure Memory.HasArray (m : Memory) (a : Address) (s : Slot) (values : List AbiValue) :
    Prop where
  /-- Each value is read at its own address. -/
  read : ∀ (i : Nat) (h : i < values.length),
    m.read? (a.advance (i * s.size)) s = some values[i]
  /-- They stand in one piece: the bytes from a value on are those from the first on, without the
  bytes of the values before it. -/
  onePiece : ∀ i < values.length,
    m.bytesFrom (a.advance (i * s.size)) = (m.bytesFrom a).drop (i * s.size)

/-- The values of an array stand in a row. -/
theorem Memory.HasArray.row (h : m.HasArray a s values) : s.Row values (m.bytesFrom a) := by
  intro i hi
  have hread := h.read i hi
  rw [Memory.read?, h.onePiece i hi] at hread
  exact hread

/-- Where regions keep apart, a row of values is an array. -/
theorem Memory.hasArray_iff_row (hnative : m.native.Apart) :
    m.HasArray a s values ↔ s.Row values (m.bytesFrom a) := by
  constructor
  · exact HasArray.row
  intro hrow
  have honePiece : ∀ i < values.length,
      m.bytesFrom (a.advance (i * s.size)) = (m.bytesFrom a).drop (i * s.size) := by
    intro i hi
    have hvalue := hrow i hi
    by_cases hsize : s.size = 0
    · -- A value without bytes may stand where no byte does.
      cases a with
      | native b => simp [hsize, Address.advance]
      | owned block offset => simp [hsize, Address.advance]
    · refine bytesFrom_advance hnative ?_
      have hfits := Slot.isSome_decode?_iff.mp (Option.isSome_of_eq_some hvalue)
      rw [List.length_drop] at hfits
      omega
  refine ⟨fun i hi => ?_, honePiece⟩
  rw [read?, honePiece i hi]
  exact hrow i hi

/-! ### Reading an array -/

namespace ArrayConversion

variable {c : ArrayConversion} {length : Option Nat}

/-- An array of a known number of elements is read as the list of its converted values, up to the
first that is rejected. -/
theorem fromAddress_eq_mapM (ha : a.isNull = false)
    (hcount : c.count m a length = .ok (some values.length))
    (hrow : c.element.slot.Row values (m.bytesFrom a)) :
    c.fromAddress m a length = (values.mapM (c.element.scalar.fromAbi m)).map .array := by
  unfold fromAddress
  rw [ha, hcount, ← ElementConversion.fromAbiAll_of_row hrow]
  rfl

/-- The elements in front of the first zero are those that an array has which ends at a zero. -/
theorem count_of_terminated {terminator : AbiValue} (hlength : c.length = .zeroTerminated)
    (hrow : c.element.slot.Row (values ++ [terminator]) (m.bytesFrom a))
    (hvalues : ∀ v ∈ values, v.isZero = false) (hterminator : terminator.isZero = true) :
    c.count m a length = .ok (some values.length) := by
  have hend : terminatedLength? c.element.slot (m.bytesFrom a) = some values.length :=
    Slot.terminatedLength?_of_row hrow hvalues hterminator
  simp only [count, hlength, hend]

end ArrayConversion

end ForeignCall
