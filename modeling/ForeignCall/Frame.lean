import ForeignCall.Buffer
import ForeignCall.Cell
import ForeignCall.Error
import ForeignCall.Memory
import ForeignCall.Text.Utf8

/-!
# Call frames

A frame holds the arguments of one native call in their order, and the memory they point to: the
buffers of strings and arrays, a cell for each value that the callee hands back, and the cell of a
throwing callable's error.  Buffers and cells are only ever added, so an address that was handed
out stays good.
-/

namespace ForeignCall

/-- A native argument. -/
inductive Argument
  /-- A value, of the declared parameter of that index if there is one. -/
  | byValue (declared : Option Nat) (value : AbiValue)
  /-- The address of the cell of a declared parameter, whose value is of that slot. -/
  | outCell (declared : Nat) (cell : Nat) (slot : Slot)
  /-- The address of the cell for an error. -/
  | errorCell (cell : Nat)
  deriving DecidableEq, Repr, Inhabited

namespace Argument

/-- The value in the argument's slot. -/
def value : Argument → AbiValue
  | byValue _ value => value
  | outCell _ cell _ => .pointer (.owned (.cell cell) 0)
  | errorCell cell => .pointer (.owned (.cell cell) 0)

/-- The argument belongs to the declared parameter of this index. -/
def isDeclared (a : Argument) (index : Nat) : Bool :=
  match a with
  | byValue declared _ => declared == some index
  | outCell declared _ _ => declared == index
  | errorCell _ => false

/-- The cell that receives an error. -/
def errorCell? : Argument → Option Nat
  | errorCell cell => some cell
  | _ => none

end Argument

/-- The arguments of a call and the memory they point to. -/
structure Frame where
  arguments : List Argument
  storage : Storage
  deriving DecidableEq, Repr, Inhabited

namespace Frame

/-- A frame without arguments. -/
def empty : Frame where
  arguments := []
  storage := .empty

/-- The argument values in native order. -/
def args (f : Frame) : List AbiValue := f.arguments.map (·.value)

/-- The number of native arguments. -/
def size (f : Frame) : Nat := f.arguments.length

/-- The number of bytes in the buffers. -/
def heldBytes (f : Frame) : Nat := f.storage.buffers.flatten.length

/-- The frame's memory together with native memory. -/
def memory (f : Frame) (native : Native) : Memory where
  native := native
  storage := f.storage

/-! ### Building -/

/-- Keeps a buffer; the value is its address. -/
def hold (f : Frame) (bytes : List Byte) : AbiValue × Frame :=
  (.pointer (.owned (.buffer f.storage.buffers.length) 0),
    { f with storage := { f.storage with buffers := f.storage.buffers ++ [bytes] } })

/-- Keeps the elements of an array. -/
def holdBuffer (f : Frame) (b : TypedBuffer) : AbiValue × Frame := f.hold b.bytes

/-- Adds an argument that is passed by value. -/
def pushValue (f : Frame) (declared : Option Nat) (value : AbiValue) : Frame :=
  { f with arguments := f.arguments ++ [.byValue declared value] }

/-- Adds a cell. -/
def addCell (f : Frame) (bytes : List Byte) : Frame :=
  { f with storage := { f.storage with cells := f.storage.cells ++ [bytes] } }

/-- Adds the cell of a declared parameter: it starts with a value, or with zeros. -/
def pushCell (f : Frame) (declared : Nat) (slot : Slot) (initial : Option AbiValue) : Frame :=
  let index := f.storage.cells.length
  let f := f.addCell (cellBytes (initial.getD .void))
  { f with arguments := f.arguments ++ [.outCell declared index slot] }

/-- Adds the argument of a throwing callable. -/
def pushErrorCell (f : Frame) : Frame :=
  let index := f.storage.cells.length
  let f := f.addCell (cellBytes .void)
  { f with arguments := f.arguments ++ [.errorCell index] }

/-! ### Reading back -/

/-- The argument of a declared parameter. -/
def declared? (f : Frame) (index : Nat) : Option Argument :=
  f.arguments.find? (·.isDeclared index)

/-- The native argument of a declared parameter. -/
def declaredArg? (f : Frame) (index : Nat) : Option AbiValue :=
  (f.declared? index).map (·.value)

/-- What the cell of a declared parameter holds. -/
def outValue? (f : Frame) (index : Nat) : Option AbiValue :=
  match f.declared? index with
  | some (.outCell _ cell slot) => f.storage.cells[cell]?.map slot.decodeCell
  | _ => none

/-- The number of elements that a declared parameter holds, in its cell if it has one; a negative
number is none. -/
def arrayLength? (f : Frame) (index : Nat) : Option Nat :=
  let value? :=
    match f.declared? index with
    | some (.outCell ..) => f.outValue? index
    | some argument => some argument.value
    | none => none
  match value?.bind (·.toInt64?) with
  | some n => if 0 ≤ n then some n.toInt.toNat else none
  | none => none

/-- The cell that receives an error. -/
def errorCell? (f : Frame) : Option Nat := f.arguments.findSome? (·.errorCell?)

/-- The address of the error that the callee reported; null if there is none. -/
def errorAddress (f : Frame) : Address :=
  let held? := f.errorCell?.bind fun cell => f.storage.cells[cell]?
  (held?.bind fun cell => (Slot.pointer.decodeCell cell).toAddress?).getD .null

/-- A store by the callee, to native memory or to the memory of the frame. -/
def store (f : Frame) (native : Native) (a : Address) (value : AbiValue) : Native × Frame :=
  let m := (f.memory native).store a value.encode
  (m.native, { f with storage := m.storage })

/-- Clears the cell that receives an error. -/
def clearError (f : Frame) : Frame :=
  match f.errorCell? with
  | some cell => { f with storage := f.storage.store (.cell cell) 0 (cellBytes .void) }
  | none => f

end Frame

/-- The error record at an address: a domain, a code four bytes on and the address of a text eight
bytes on.  No text is the empty one. -/
def Memory.errorRecord (m : Memory) (a : Address) : MarshalError :=
  match m.read? a .u32, m.read? (a.advance 4) .i32, m.read? (a.advance 8) .pointer with
  | some (.u32 domain), some (.i32 code), some (.pointer text) =>
    if text.isNull then .native domain code ""
    else
      match cString? (m.bytesFrom text) with
      | some bytes => .native domain code (Text.decodeLossy bytes)
      | none => .unreadable
  | _, _, _ => .unreadable

/-- Takes the error that the callee reported, which leaves none.  Its cell is cleared before the
record is read, so a record or a text that stands in the cell itself is read as zeros. -/
def Frame.takeError (f : Frame) (native : Native) : Option MarshalError × Frame :=
  if f.errorAddress.isNull then (none, f)
  else
    let cleared := f.clearError
    (some ((cleared.memory native).errorRecord f.errorAddress), cleared)

end ForeignCall
