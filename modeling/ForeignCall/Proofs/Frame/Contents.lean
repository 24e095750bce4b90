import ForeignCall.Frame

/-!
# What parameters hold

A frame tells two things of a declared parameter: the argument that was passed for it and, if that
is the address of a cell, the value in the cell.  `Frame.content?` is what the parameter holds, the
value in the cell before the argument.

The length of an array is what its length parameter holds, read as a host integer of 64 bits with a
sign (`Frame.arrayLength?_eq`).  So a negative length is none, and an unsigned one beyond the range
of host integers counts as negative.
-/

namespace ForeignCall

/-! ### Numbers of elements -/

namespace AbiValue

/-- The number of elements that a slot value stands for as a length; a negative number is none. -/
def count? (value : AbiValue) : Option Nat :=
  value.toInt64?.bind fun n => if 0 ≤ n then some n.toInt.toNat else none

variable {value : AbiValue} {n : Int64}

/-- An integer stands for as many elements as it says, unless it is negative. -/
theorem count?_of_toInt64? (h : value.toInt64? = some n) :
    value.count? = if 0 ≤ n.toInt then some n.toInt.toNat else none := by
  have hle : 0 ≤ n ↔ 0 ≤ n.toInt := Int64.le_iff_toInt_le
  simp only [count?, h, Option.bind_some, hle]

/-- A number of elements is none that is negative. -/
theorem count?_eq_none (h : ∀ n, value.toInt64? = some n → n.toInt < 0) : value.count? = none := by
  cases hn : value.toInt64? with
  | none => simp only [count?, hn, Option.bind_none]
  | some n =>
    have hnegative : ¬ 0 ≤ n.toInt := Int.not_le.mpr (h n hn)
    rw [count?_of_toInt64? hn, if_neg hnegative]

end AbiValue

/-! ### Declared parameters -/

namespace Frame

variable {f : Frame} {index : Nat} {declared : Option Nat} {abi : AbiValue}

/-- What a declared parameter holds: the value in its cell if it has one, and the argument that was
passed for it otherwise. -/
def content? (f : Frame) (index : Nat) : Option AbiValue :=
  (f.outValue? index).or (f.declaredArg? index)

/-- A parameter holds something if it has an argument. -/
theorem isSome_content? (f : Frame) (index : Nat) :
    (f.content? index).isSome = (f.declaredArg? index).isSome := by
  simp only [content?, outValue?, declaredArg?]
  cases f.declared? index with
  | none => rfl
  | some argument => cases argument <;> simp

/-- A parameter that is passed by value holds the value. -/
theorem content?_byValue (h : f.declared? index = some (.byValue declared abi)) :
    f.content? index = some abi := by
  rw [content?, outValue?, declaredArg?, h]
  rfl

/-- The length that a frame holds for a parameter is the number that its content stands for.  The
address of a cell stands for none. -/
theorem arrayLength?_eq (f : Frame) (index : Nat) :
    f.arrayLength? index = (f.content? index).bind (·.count?) := by
  unfold arrayLength? content? declaredArg? outValue?
  cases f.declared? index with
  | none => rfl
  | some argument =>
    cases argument with
    | byValue declared value =>
      cases hn : value.toInt64? <;> simp [Argument.value, AbiValue.count?, hn]
    | outCell declared cell slot =>
      dsimp only
      cases f.storage.cells[cell]? with
      | none => rfl
      | some bytes =>
        cases hn : (slot.decodeCell bytes).toInt64? <;> simp [AbiValue.count?, hn]
    | errorCell cell => rfl

/-- A length that is passed by value is the number that the value stands for. -/
theorem arrayLength?_byValue (h : f.declared? index = some (.byValue declared abi)) :
    f.arrayLength? index = abi.count? := by
  rw [arrayLength?_eq, content?_byValue h, Option.bind_some]

end Frame

end ForeignCall
