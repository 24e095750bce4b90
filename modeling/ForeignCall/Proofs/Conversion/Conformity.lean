import ForeignCall.Proofs.Conversion.CallIn

/-!
# What a conversion leaves of its frame

Converting a host value is a step on a frame that is half built: arguments and cells are in it, and
addresses of its buffers were handed out.  `Conversion.toAbi_conforms` says what the rest of
marshalling relies on: a value that comes out stands in the slot that the signature has for it, and
the frame is kept (`Frame.Keeps`), whether or not a value comes out.  A conversion that fails
may leave buffers behind, like an array that is rejected with a later element, but takes nothing
away.

Nothing is taken away where the frame only grows (`Frame.Grows.keeps`), since an address leads to
its block by the number of the block, and new blocks come behind the old ones.
-/

namespace ForeignCall

/-- The storage has this block. -/
def Storage.Owns (s : Storage) : Block → Prop
  | .buffer index => index < s.buffers.length
  | .cell index => index < s.cells.length

/-- A block stands unchanged in storage with more blocks. -/
theorem Storage.Extends.block_eq {s s' : Storage} (h : s.Extends s') {block : Block}
    (hblock : s.Owns block) : s'.block block = s.block block := by
  cases block with
  | buffer index =>
    have hget : s.buffers[index]? = s'.buffers[index]? := by
      rw [List.prefix_iff_getElem?.mp h.buffers index hblock, List.getElem?_eq_getElem hblock]
    rw [block, block, List.getD_eq_getElem?_getD, List.getD_eq_getElem?_getD, hget]
  | cell index =>
    have hget : s.cells[index]? = s'.cells[index]? := by
      rw [List.prefix_iff_getElem?.mp h.cells index hblock, List.getElem?_eq_getElem hblock]
    rw [block, block, List.getD_eq_getElem?_getD, List.getD_eq_getElem?_getD, hget]

namespace Frame

/-- The address is one of native memory, or lies in a block of the frame. -/
def Reaches (f : Frame) : Address → Prop
  | .native _ => True
  | .owned block _ => f.storage.Owns block

/-- All that there is in `f` is in `f'` too: the same arguments, found under the same indices, the
same cells, and the same buffers, behind which there may be new ones. -/
structure Keeps (f f' : Frame) : Prop where
  arguments_eq : f'.arguments = f.arguments
  cells_eq : f'.storage.cells = f.storage.cells
  declared?_eq : ∀ index, f'.declared? index = f.declared? index
  errorCell?_eq : f'.errorCell? = f.errorCell?
  buffers_eq : ∃ added, f'.storage.buffers = f.storage.buffers ++ added
  /-- From every address that was good the same bytes are read. -/
  bytesFrom_eq : ∀ native a, f.Reaches a →
    (f'.memory native).bytesFrom a = (f.memory native).bytesFrom a

/-- A frame that grows is kept. -/
theorem Grows.keeps {f f' : Frame} (h : f.Grows f') : f.Keeps f' := by
  constructor
  case arguments_eq => exact h.arguments
  case cells_eq => exact h.cells
  case declared?_eq =>
    intro index
    rw [declared?, declared?, h.arguments]
  case errorCell?_eq => rw [errorCell?, errorCell?, h.arguments]
  case buffers_eq =>
    obtain ⟨added, hadded⟩ := h.buffers
    exact ⟨added, hadded.symm⟩
  case bytesFrom_eq =>
    intro native a ha
    cases a with
    | native value => rfl
    | owned block offset => exact congrArg (List.drop offset) (h.extends.block_eq ha)

end Frame

/-- A host value is converted into a value of the conversion's slot, and whether it is converted or
rejected, nothing in the frame changes but that buffers are added. -/
theorem Conversion.toAbi_conforms (c : Conversion) (value : HostValue) (nullable : Bool)
    (item : String) (f : Frame) :
    (∀ abi, (c.toAbi value nullable item f).1 = .ok abi → abi.slot = c.slot) ∧
      f.Keeps (c.toAbi value nullable item f).2 := by
  constructor
  · intro abi hresult
    apply Conversion.toAbi_slot
    exact Prod.ext hresult rfl
  · exact (c.toAbi_grows value nullable item f).keeps

namespace Sample

/-- A conversion of an array of texts. -/
def texts : Conversion := .array ⟨.string, .unknown⟩

/-- A frame with the buffer of a text. -/
def textFrame : Frame := ⟨[], ⟨[stringBytes "a"], []⟩⟩

end Sample

/-- An array of two texts becomes the address of its elements, which come behind the buffers of the
texts. -/
theorem Conversion.toAbi_conforms_sample :
    ∃ abi f', Sample.texts.toAbi (.array [.string "b", .string "c"]) false "value"
        Sample.textFrame = (.ok abi, f') ∧
      abi = .pointer (.owned (.buffer 3) 0) ∧ f'.storage.buffers.length = 4 ∧
      abi.slot = Sample.texts.slot ∧ Sample.textFrame.Keeps f' := by
  refine ⟨_, _, by rfl, by rfl, by rfl, ?_⟩
  obtain ⟨hslot, hkeeps⟩ := Conversion.toAbi_conforms Sample.texts
    (.array [.string "b", .string "c"]) false "value" Sample.textFrame
  exact ⟨hslot _ (by rfl), hkeeps⟩

-- An array that is rejected with its second element leaves the buffer of the first.
example : Sample.texts.toAbi (.array [.string "b", .int 1]) false "value" Sample.textFrame =
    (.error (.typeMismatch "string" "int"), ⟨[], ⟨[stringBytes "a", stringBytes "b"], []⟩⟩) := by
  rfl

end ForeignCall
