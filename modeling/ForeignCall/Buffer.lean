import ForeignCall.Codec

/-!
# Buffers of elements

The elements of an array are kept in a buffer of numbers of one width, or of addresses.  Values of
the slot that the buffer is for all go into it, one behind another as native code stores them
(`TypedBuffer.bytes_ofValues`), and the length of the buffer is the number of its bytes
(`TypedBuffer.length_bytes`).
-/

namespace ForeignCall

/-- A buffer of elements of one kind. -/
inductive TypedBuffer
  | i8 (values : List Int8)
  | u8 (values : List UInt8)
  | i16 (values : List Int16)
  | u16 (values : List UInt16)
  | i32 (values : List Int32)
  | u32 (values : List UInt32)
  | i64 (values : List Int64)
  | u64 (values : List UInt64)
  | f32 (bits : List UInt32)
  | f64 (bits : List UInt64)
  | pointer (addresses : List Address)
  deriving DecidableEq, Repr, Inhabited

namespace TypedBuffer

/-- The buffer of a slot with the values that stand in the slot; the others are left out.  Elements
that have no slot are kept as addresses. -/
def ofValues (s : Slot) (values : List AbiValue) : TypedBuffer :=
  match s with
  | .i8 => i8 (values.filterMap fun | .i8 value => some value | _ => none)
  | .u8 => u8 (values.filterMap fun | .u8 value => some value | _ => none)
  | .i16 => i16 (values.filterMap fun | .i16 value => some value | _ => none)
  | .u16 => u16 (values.filterMap fun | .u16 value => some value | _ => none)
  | .i32 => i32 (values.filterMap fun | .i32 value => some value | _ => none)
  | .u32 => u32 (values.filterMap fun | .u32 value => some value | _ => none)
  | .i64 => i64 (values.filterMap fun | .i64 value => some value | _ => none)
  | .u64 => u64 (values.filterMap fun | .u64 value => some value | _ => none)
  | .f32 => f32 (values.filterMap fun | .f32 bits => some bits | _ => none)
  | .f64 => f64 (values.filterMap fun | .f64 bits => some bits | _ => none)
  | .pointer | .void => pointer (values.filterMap fun | .pointer a => some a | _ => none)

/-- The number of bytes that the elements take. -/
def byteLength : TypedBuffer → Nat
  | i8 values => values.length * 1
  | u8 values => values.length * 1
  | i16 values => values.length * 2
  | u16 values => values.length * 2
  | i32 values => values.length * 4
  | u32 values => values.length * 4
  | i64 values => values.length * 8
  | u64 values => values.length * 8
  | f32 bits => bits.length * 4
  | f64 bits => bits.length * 8
  | pointer addresses => addresses.length * 8

/-- The elements as they stand in memory. -/
def bytes : TypedBuffer → List Byte
  | i8 values => values.flatMap fun value => numberBytes 1 value.toUInt8.toNat
  | u8 values => values.flatMap fun value => numberBytes 1 value.toNat
  | i16 values => values.flatMap fun value => numberBytes 2 value.toUInt16.toNat
  | u16 values => values.flatMap fun value => numberBytes 2 value.toNat
  | i32 values => values.flatMap fun value => numberBytes 4 value.toUInt32.toNat
  | u32 values => values.flatMap fun value => numberBytes 4 value.toNat
  | i64 values => values.flatMap fun value => numberBytes 8 value.toUInt64.toNat
  | u64 values => values.flatMap fun value => numberBytes 8 value.toNat
  | f32 bits => bits.flatMap fun value => numberBytes 4 value.toNat
  | f64 bits => bits.flatMap fun value => numberBytes 8 value.toNat
  | pointer addresses => addresses.flatMap (·.encode)

/-- The length of a buffer is the number of its bytes. -/
@[simp] theorem length_bytes (b : TypedBuffer) : b.bytes.length = b.byteLength := by
  cases b with
  | pointer addresses => exact length_flatMap_width fun a _ => a.length_encode
  | _ => exact length_flatMap_width fun _ _ => length_numberBytes _ _

/-- Elements of one kind are put into a buffer one behind another. -/
theorem flatMap_filterMap {α : Type} {values : List AbiValue} {kept : AbiValue → Option α}
    {encode : α → List Byte}
    (h : ∀ v ∈ values, ((kept v).map encode).getD [] = v.encode) :
    (values.filterMap kept).flatMap encode = elementBytes values := by
  induction values with
  | nil => rfl
  | cons v rest ih =>
    obtain ⟨hv, hrest⟩ := List.forall_mem_cons.mp h
    rw [elementBytes, List.flatMap_cons, ← hv, ← elementBytes, ← ih hrest]
    cases hkept : kept v with
    | none => rw [List.filterMap_cons_none hkept]; rfl
    | some value => rw [List.filterMap_cons_some hkept]; rfl

/-- Values of the slot of a buffer are all put into it, as native code stores them.  Values without
a slot have no bytes, so it does not show that they are left out. -/
theorem bytes_ofValues {s : Slot} {values : List AbiValue} (hslot : ∀ v ∈ values, v.slot = s) :
    (ofValues s values).bytes = elementBytes values := by
  cases s <;>
  · refine flatMap_filterMap fun v hv => ?_
    have hv := hslot v hv
    cases v <;> first | rfl | cases hv

end TypedBuffer

end ForeignCall
