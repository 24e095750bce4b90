import ForeignCall.Value

/-!
# Slot values in memory

The bytes of a slot value as native code stores it, low bytes first, and the value whose bytes those
are.  The address of an owned place is written as its eight bytes, and reads back only from those
eight in their order.  A value takes as many bytes as its slot (`AbiValue.length_encode`).

Reading a slot has a width of its own for each (`Slot.decode?`).  It takes the value of the first
bytes, as many as the slot has (`Slot.decode?_eq_ofBytes`), and so finds a value wherever bytes
begin with those of the value (`Slot.decode?_encode_append`).
-/

namespace ForeignCall

/-! ### Numbers -/

/-- The low `count` bytes of a number, lowest first. -/
def littleEndian (n : Nat) : Nat → List UInt8
  | 0 => []
  | count + 1 => UInt8.ofNat n :: littleEndian (n / 256) count

/-- The number whose bytes these are, lowest first. -/
def ofLittleEndian : List UInt8 → Nat
  | [] => 0
  | b :: rest => b.toNat + 256 * ofLittleEndian rest

@[simp] theorem length_littleEndian (n count : Nat) : (littleEndian n count).length = count := by
  induction count generalizing n with
  | zero => rfl
  | succ count ih => simp [littleEndian, ih]

/-- The low bytes of a number hold its remainder. -/
theorem ofLittleEndian_littleEndian (n count : Nat) :
    ofLittleEndian (littleEndian n count) = n % Nat.pow 256 count := by
  induction count generalizing n with
  | zero => simp [littleEndian, ofLittleEndian, Nat.mod_one]
  | succ count ih =>
    have hpow : Nat.pow 256 (count + 1) = 256 * Nat.pow 256 count := Nat.pow_succ'
    rw [hpow, Nat.mod_mul]
    simp [littleEndian, ofLittleEndian, ih]

/-- The low `count` bytes of a number, as they stand in memory. -/
def numberBytes (count n : Nat) : List Byte := (littleEndian n count).map .known

/-- The number that bytes of memory hold. -/
def numberOf (bytes : List Byte) : Nat := ofLittleEndian (bytes.map (·.value))

@[simp] theorem length_numberBytes (count n : Nat) : (numberBytes count n).length = count := by
  simp [numberBytes]

@[simp] theorem numberOf_numberBytes (count n : Nat) :
    numberOf (numberBytes count n) = n % Nat.pow 256 count := by
  have hvalues : (numberBytes count n).map Byte.value = littleEndian n count := by
    simp [numberBytes, Byte.value, Function.comp_def]
  rw [numberOf, hvalues, ofLittleEndian_littleEndian]

/-! ### Addresses -/

/-- The bytes of an address. -/
def Address.encode : Address → List Byte
  | native value => numberBytes 8 value.toNat
  | owned block offset => (List.range 8).map (.ofAddress block offset)

/-- The address that eight bytes hold: the owned place whose address they are, or a number. -/
def Address.decode (bytes : List Byte) : Address :=
  match bytes with
  | .ofAddress block offset 0 :: _ =>
    if bytes = (owned block offset).encode then owned block offset
    else native (UInt64.ofNat (numberOf bytes))
  | _ => native (UInt64.ofNat (numberOf bytes))

@[simp] theorem Address.length_encode (a : Address) : a.encode.length = 8 := by
  cases a <;> simp [encode]

/-- An address reads back from its bytes. -/
@[simp] theorem Address.decode_encode (a : Address) : decode a.encode = a := by
  cases a with
  | native value =>
    have hnumber : numberOf (numberBytes 8 value.toNat) = value.toNat := by
      rw [numberOf_numberBytes]
      exact Nat.mod_eq_of_lt value.toNat_lt
    have hknown : decode (numberBytes 8 value.toNat) =
        native (UInt64.ofNat (numberOf (numberBytes 8 value.toNat))) := by
      simp [numberBytes, littleEndian, decode]
    rw [encode, hknown, hnumber, UInt64.ofNat_toNat]
  | owned block offset => simp [encode, decode, List.range, List.range.loop]

/-! ### Values as they are stored -/

namespace AbiValue

/-- The bits of a number, as a natural number; addresses have bytes of their own. -/
def bits : AbiValue → Nat
  | void | pointer _ => 0
  | i8 value => value.toUInt8.toNat
  | u8 value => value.toNat
  | i16 value => value.toUInt16.toNat
  | u16 value => value.toNat
  | i32 value => value.toUInt32.toNat
  | u32 value => value.toNat
  | i64 value => value.toUInt64.toNat
  | u64 value => value.toNat
  | f32 bits => bits.toNat
  | f64 bits => bits.toNat

/-- The bytes of a value as native code stores it, as many as its slot takes. -/
def encode : AbiValue → List Byte
  | pointer address => address.encode
  | value => numberBytes value.slot.size value.bits

@[simp] theorem length_encode (v : AbiValue) : v.encode.length = v.slot.size := by
  cases v <;> simp [encode, slot, Slot.size]

end AbiValue

namespace Slot

/-- The number of a slot with these bits. -/
def ofBits (s : Slot) (n : Nat) : AbiValue :=
  match s with
  | .i8 => .i8 (UInt8.ofNat n).toInt8
  | .u8 => .u8 (UInt8.ofNat n)
  | .i16 => .i16 (UInt16.ofNat n).toInt16
  | .u16 => .u16 (UInt16.ofNat n)
  | .i32 => .i32 (UInt32.ofNat n).toInt32
  | .u32 => .u32 (UInt32.ofNat n)
  | .i64 => .i64 (UInt64.ofNat n).toInt64
  | .u64 => .u64 (UInt64.ofNat n)
  | .f32 => .f32 (UInt32.ofNat n)
  | .f64 => .f64 (UInt64.ofNat n)
  | .pointer => .pointer (.native (UInt64.ofNat n))
  | .void => .void

/-- The value of a slot whose bytes these are. -/
def ofBytes (s : Slot) (bytes : List Byte) : AbiValue :=
  match s with
  | .pointer => .pointer (Address.decode bytes)
  | s => s.ofBits (numberOf bytes)

/-- The value of bytes for a slot stands in the slot. -/
@[simp] theorem slot_ofBytes (s : Slot) (bytes : List Byte) : (s.ofBytes bytes).slot = s := by
  cases s <;> rfl

/-- A value is that of its bytes. -/
@[simp] theorem ofBytes_encode (v : AbiValue) : v.slot.ofBytes v.encode = v := by
  cases v <;>
    simp [AbiValue.encode, AbiValue.slot, AbiValue.bits, ofBytes, ofBits, size,
      -UInt8.toInt8_ofNat', -UInt16.toInt16_ofNat', -UInt32.toInt32_ofNat', -UInt64.toInt64_ofNat']

end Slot

/-- The bytes of values, one after another. -/
def elementBytes (values : List AbiValue) : List Byte := values.flatMap (·.encode)

/-- Values of one width take as many bytes as their number times the width. -/
theorem length_flatMap_width {α : Type} {encode : α → List Byte} {width : Nat} {values : List α}
    (h : ∀ value ∈ values, (encode value).length = width) :
    (values.flatMap encode).length = values.length * width := by
  induction values with
  | nil => simp
  | cons value rest ih =>
    obtain ⟨hvalue, hrest⟩ := List.forall_mem_cons.mp h
    rw [List.flatMap_cons, List.length_append, hvalue, ih hrest, List.length_cons, Nat.succ_mul,
      Nat.add_comm]

/-- Values of one slot take the size of the slot each. -/
theorem length_elementBytes {s : Slot} {values : List AbiValue} (h : ∀ v ∈ values, v.slot = s) :
    (elementBytes values).length = values.length * s.size :=
  length_flatMap_width fun v hv => by rw [v.length_encode, h v hv]

/-! ### Values as they are read -/

/-- The first `count` bytes, if there are as many. -/
def firstBytes? (count : Nat) (bytes : List Byte) : Option (List Byte) :=
  if count ≤ bytes.length then some (bytes.take count) else none

/-- The number in the first `count` bytes, if there are as many. -/
def numberAt? (count : Nat) (bytes : List Byte) : Option Nat :=
  (firstBytes? count bytes).map numberOf

theorem firstBytes?_append {count : Nat} {first : List Byte} (h : first.length = count)
    (rest : List Byte) : firstBytes? count (first ++ rest) = some first := by
  have hfits : count ≤ (first ++ rest).length := by
    rw [List.length_append]
    omega
  rw [firstBytes?, if_pos hfits, List.take_left' h]

namespace Slot

/-- The value of a slot that is read where bytes start, if there are enough of them. -/
def decode? (s : Slot) (bytes : List Byte) : Option AbiValue :=
  match s with
  | .i8 => (numberAt? 1 bytes).map fun n => .i8 (UInt8.ofNat n).toInt8
  | .u8 => (numberAt? 1 bytes).map fun n => .u8 (UInt8.ofNat n)
  | .i16 => (numberAt? 2 bytes).map fun n => .i16 (UInt16.ofNat n).toInt16
  | .u16 => (numberAt? 2 bytes).map fun n => .u16 (UInt16.ofNat n)
  | .i32 => (numberAt? 4 bytes).map fun n => .i32 (UInt32.ofNat n).toInt32
  | .u32 => (numberAt? 4 bytes).map fun n => .u32 (UInt32.ofNat n)
  | .i64 => (numberAt? 8 bytes).map fun n => .i64 (UInt64.ofNat n).toInt64
  | .u64 => (numberAt? 8 bytes).map fun n => .u64 (UInt64.ofNat n)
  | .f32 => (numberAt? 4 bytes).map fun n => .f32 (UInt32.ofNat n)
  | .f64 => (numberAt? 8 bytes).map fun n => .f64 (UInt64.ofNat n)
  | .pointer => (firstBytes? 8 bytes).map fun first => .pointer (Address.decode first)
  | .void => some .void

variable {s : Slot} {bytes : List Byte} {v : AbiValue}

/-- What is read for a slot is the value of the first bytes, as many as the slot has. -/
theorem decode?_eq_ofBytes (s : Slot) (bytes : List Byte) :
    s.decode? bytes = (firstBytes? s.size bytes).map s.ofBytes := by
  cases s with
  | void => simp [decode?, firstBytes?, size, ofBytes, ofBits]
  | pointer => rfl
  | _ =>
    rw [decode?, numberAt?, Option.map_map]
    rfl

/-- A value is read where there are as many bytes as its slot has. -/
theorem isSome_decode?_iff : (s.decode? bytes).isSome = true ↔ s.size ≤ bytes.length := by
  rw [decode?_eq_ofBytes, Option.isSome_map, firstBytes?]
  split <;> simp [*]

/-- What is read stands in the slot that it is read for. -/
theorem slot_of_decode? (h : s.decode? bytes = some v) : v.slot = s := by
  rw [decode?_eq_ofBytes] at h
  obtain ⟨first, -, rfl⟩ := Option.map_eq_some_iff.mp h
  exact s.slot_ofBytes first

/-- A value is read from its bytes, whatever follows them. -/
theorem decode?_encode_append (v : AbiValue) (rest : List Byte) :
    v.slot.decode? (v.encode ++ rest) = some v := by
  rw [decode?_eq_ofBytes, firstBytes?_append v.length_encode, Option.map_some, ofBytes_encode]

end Slot

end ForeignCall
