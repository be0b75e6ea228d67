import CallFrame.Proofs.InitialRules
import CallFrame.Proofs.RowTable

/-!
# Frame tables and how they are written

A frame table is a list of common information entries and frame descriptions in which a
description names its common information entry by its place in the list. Written as a section,
the items stand one behind the other, and the place becomes the offset of the first byte.

A description has a fixed width apart from its instructions, so the offsets depend on the
sizes of the items alone, and descriptions may name entries before or behind them.

A table is well formed when its offsets can be written, when its instructions may stand where
they stand, and when all its rows have locations in the address space.
-/

namespace CallFrame

theorem toUInt64_ofInt
    (n : Int) :
    (Int64.ofInt n).toUInt64 = UInt64.ofInt n := by
  apply UInt64.toBitVec_inj.mp
  apply BitVec.eq_of_toNat_eq
  simp [UInt64.ofInt, BitVec.toNat_ofInt]
  omega

/-- Adding an offset to a stack pointer in 64 bits is adding it exactly and reducing the sum. -/
theorem toUInt64_add_ofInt
    (sp : UInt64) (offset : Int) :
    (sp.toInt64 + Int64.ofInt offset).toUInt64 = UInt64.ofInt (sp.toNat + offset) := by
  have hsp : UInt64.ofInt sp.toNat = sp := by
    rw [← toUInt64_ofInt, Int64.ofInt_eq_ofNat, ← UInt64.toInt64_ofNat', UInt64.ofNat_toNat,
      UInt64.toUInt64_toInt64]
  rw [UInt64.ofInt_add, Int64.toUInt64_add, UInt64.toUInt64_toInt64, toUInt64_ofInt, hsp]

namespace FrameTable

/-- A common information entry of a table. -/
structure Common where
  codeFactor : UInt64
  dataFactor : Int64
  returnRegister : UInt8
  instructions : List Instruction

/-- A frame description of a table. -/
structure Frame where
  /-- Where the common information entry is in the table. -/
  commonIndex : Nat
  start : UInt64
  range : UInt64
  instructions : List Instruction

/-- An item of a table. -/
inductive Item where
  | common (common : Common)
  | frame (frame : Frame)

namespace Common

def header (common : Common) : CommonEntry where
  codeFactor := common.codeFactor
  dataFactor := common.dataFactor
  returnRegister := common.returnRegister
  cfaRegister := 0
  cfaOffset := 0
  returnOffset := none

def entry (common : Common) : CommonEntry :=
  common.header.withRules common.instructions

/-- The offset of the frame address before the instructions of a frame description: the last
one that is defined, and zero if none is. -/
def cfaOffset (common : Common) : Nat :=
  ((common.instructions.filterMap Instruction.definition?).getLast?.map
    fun rule => rule.2.toNat).getD 0

/-- The bytes behind the marker: the version, an empty augmentation, the factors, the column
and the instructions. -/
def payload (order : ByteOrder) (common : Common) : Bytes :=
  CommonEntry.version :: 0 ::
    (Leb128.encodeUnsigned common.codeFactor ++
      (Leb128.encodeSigned common.dataFactor ++
        common.returnRegister :: common.instructions.flatMap (Instruction.encode order)))

structure WellFormed (common : Common) : Prop where
  codeFactor_lt : common.codeFactor.toNat < 0x8000000000000000
  isInitial : ∀ instruction ∈ common.instructions,
    instruction.IsInitial common.returnRegister

theorem cfaOffset_entry
    (common : Common) :
    common.entry.cfaOffset = Int64.ofInt common.cfaOffset := by
  simp only [entry, CommonEntry.withRules, header, cfaOffset]
  rcases (common.instructions.filterMap Instruction.definition?).getLast? with _ | rule
  · rfl
  · simp [Int64.ofInt_eq_ofNat, ← UInt64.toInt64_ofNat']

theorem result_content_payload
    {common : Common} (h : common.WellFormed) (order : ByteOrder) :
    (CommonEntry.content order).result (common.payload order) = .ok common.entry := by
  have hformat : CommonEntry.checkFormat.run (common.payload order) =
      (.ok (), (common.payload order).drop 2) :=
    rfl
  have hheader : CommonEntry.header.run ((common.payload order).drop 2) =
      (.ok common.header, common.instructions.flatMap (Instruction.encode order)) := by
    rw [CommonEntry.header]
    change Reader.run _ (Leb128.encodeUnsigned common.codeFactor ++ _) = _
    rw [Reader.run_bind_ok (Leb128.run_unsigned_encodeUnsigned _ _),
      Reader.run_bind_ok (Leb128.run_signed_encodeSigned _ _),
      Reader.run_bind_ok (Reader.run_u8_cons _ _)]
    rfl
  rw [Reader.result, CommonEntry.content, Reader.run_bind_ok hformat,
    Reader.run_bind_ok hheader, Reader.run_bind_ok (Reader.run_remainder _),
    Reader.run_ofExcept]
  exact CommonEntry.applyAll_of_isInitial
    (Instruction.steps_encode order common.instructions) h.isInitial

end Common

namespace Frame

/-- The address lies in the range of the description. The end of the range may be the end of
the address space. -/
def Covers (frame : Frame) (pc : UInt64) : Prop :=
  frame.start.toNat ≤ pc.toNat ∧ pc.toNat < frame.start.toNat + frame.range.toNat

/-- The description as it is read back at an offset, with the offset of the common information
entry that it names. -/
def description (order : ByteOrder) (offset : Nat) (commonOffset : UInt32) (frame : Frame) :
    Description where
  offset := offset
  commonOffset := commonOffset
  start := frame.start
  range := frame.range
  instructions := frame.instructions.flatMap (Instruction.encode order)

def rows (frame : Frame) (common : Common) : List ExactRow :=
  ExactRow.table common.codeFactor.toNat common.dataFactor.toInt
    { location := frame.start.toNat, offset := common.cfaOffset } frame.instructions

/-- The distance of the frame address from the stack pointer: the offset of the last row that
begins at the address or before. -/
def cfaOffset (frame : Frame) (common : Common) (pc : UInt64) : Int :=
  ExactRow.offsetAt pc.toNat common.cfaOffset (frame.rows common)

/-- The instructions can be run with the common information entry, and every row that they
open has a location in the address space. -/
structure WellFormed (frame : Frame) (common : Common) : Prop where
  isRunnable : ∀ instruction ∈ frame.instructions,
    instruction.IsRunnable common.codeFactor.toNat
  location_lt : ∀ row ∈ frame.rows common, row.location < 0x10000000000000000

/-- The row in effect in a description that is read back has the offset that the table gives. -/
theorem cfaOffset_description
    {frame : Frame} {common : Common} (hcommon : common.WellFormed)
    (hframe : frame.WellFormed common) (order : ByteOrder) (offset : Nat)
    (commonOffset : UInt32) (pc : UInt64) :
    (frame.description order offset commonOffset).cfaOffset order .inRow common.entry pc =
      .ok (Int64.ofInt (frame.cfaOffset common pc)) := by
  have hsteps := Instruction.steps_encode order frame.instructions
  have htracks : (Row.first common.entry (frame.description order offset commonOffset)).Tracks
      { location := frame.start.toNat, offset := common.cfaOffset } :=
    ⟨rfl, common.cfaOffset_entry⟩
  have hforward : ∀ instruction ∈ frame.instructions,
      instruction.MovesForward common.codeFactor.toNat :=
    fun instruction hmem => (hframe.isRunnable instruction hmem).movesForward
  have hreplay : ∃ last, Row.replay common.entry (Row.first common.entry
      (frame.description order offset commonOffset))
        (Instruction.steps order (frame.instructions.flatMap (Instruction.encode order))) =
          .ok last :=
    Row.exists_replay_eq_ok hsteps hcommon.codeFactor_lt hframe.isRunnable hframe.location_lt
      htracks
  obtain ⟨last, hlast⟩ := hreplay
  have heffect : ∃ found, Row.inEffect .inRow common.entry pc (Row.first common.entry
      (frame.description order offset commonOffset))
        (Instruction.steps order (frame.instructions.flatMap (Instruction.encode order))) =
          .ok found ∧ found.offset = Int64.ofInt (frame.cfaOffset common pc) :=
    Row.inEffect_eq_offsetAt hsteps hforward hlast htracks (Or.inr rfl)
  obtain ⟨found, hfound, hoffset⟩ := heffect
  rw [← hoffset]
  exact congrArg (Row.offset <$> ·) hfound

theorem frameAddress_description
    {frame : Frame} {common : Common} (hcommon : common.WellFormed)
    (hframe : frame.WellFormed common) (order : ByteOrder) (offset : Nat)
    (commonOffset : UInt32) (pc sp : UInt64) :
    (frame.description order offset commonOffset).frameAddress order .inRow common.entry pc sp =
      .ok (UInt64.ofInt (sp.toNat + frame.cfaOffset common pc)) := by
  rw [Description.frameAddress, cfaOffset_description hcommon hframe, ← toUInt64_add_ofInt]
  rfl

end Frame

namespace Item

def content (order : ByteOrder) (pointer : Nat → UInt32) : Item → Content
  | .common entry => .common (entry.payload order)
  | .frame description =>
      .frame (pointer description.commonIndex) description.start description.range
        (description.instructions.flatMap (Instruction.encode order))

/-- The number of bytes of the item. The pointer of a frame description has a fixed width. -/
def size (order : ByteOrder) (item : Item) : Nat :=
  ((item.content order fun _ => 0).encode order).length

def Covers (pc : UInt64) : Item → Prop
  | .common _ => False
  | .frame description => description.Covers pc

theorem length_encode_content
    (order : ByteOrder) (pointer : Nat → UInt32) (item : Item) :
    ((item.content order pointer).encode order).length = item.size order := by
  cases item with
  | common entry =>
      rfl
  | frame description =>
      simp [size, content, Content.encode, Content.entry, Entry.length]

theorem covers_record_content
    (order : ByteOrder) (pointer : Nat → UInt32) (offset : Nat) (pc : UInt64) (item : Item) :
    ((item.content order pointer).record offset).Covers pc ↔ item.Covers pc := by
  cases item with
  | common entry =>
      rfl
  | frame description =>
      rfl

end Item

end FrameTable

/-- A frame table, item by item. -/
abbrev FrameTable := List FrameTable.Item

namespace FrameTable

def size (order : ByteOrder) : FrameTable → Nat
  | [] => 0
  | item :: rest => item.size order + size order rest

/-- Where the item at a place of the table begins. -/
def offsetOf (order : ByteOrder) (table : FrameTable) (index : Nat) : Nat :=
  size order (table.take index)

/-- The content that an item of the table is written as: its place in the table is replaced by
the offset there. -/
def contentOf (order : ByteOrder) (table : FrameTable) : Item → Content :=
  Item.content order fun index => UInt32.ofNat (table.offsetOf order index)

/-- The section that the table is written as. -/
def encode (order : ByteOrder) (table : FrameTable) : Bytes :=
  (table.map (table.contentOf order)).flatMap (Content.encode order)

/-- The table is shorter than the length that announces the 64-bit format, and each frame
description names a common information entry that it can be run with. -/
structure WellFormed (order : ByteOrder) (table : FrameTable) : Prop where
  length_lt : (table.encode order).length < 0xffffffff
  common : ∀ common, .common common ∈ table → common.WellFormed
  frame : ∀ frame, .frame frame ∈ table →
    ∃ common, table[frame.commonIndex]? = some (.common common) ∧ frame.WellFormed common

theorem length_flatMap_encode
    (order : ByteOrder) (table items : FrameTable) :
    ((items.map (table.contentOf order)).flatMap (Content.encode order)).length =
      size order items := by
  induction items with
  | nil =>
      rfl
  | cons item rest ih =>
      rw [List.map_cons, List.flatMap_cons, List.length_append, ih, contentOf,
        Item.length_encode_content, size]

/-- An item is written at the offset of its place. -/
theorem exists_encode_eq
    (order : ByteOrder) {table : FrameTable} {index : Nat} {item : Item}
    (h : table[index]? = some item) :
    ∃ front rest, table.encode order =
        front ++ ((table.contentOf order item).encode order ++ rest) ∧
      front.length = table.offsetOf order index := by
  obtain ⟨hindex, hitem⟩ := List.getElem?_eq_some_iff.mp h
  have htable : table = table.take index ++ item :: table.drop (index + 1) := by
    rw [← hitem, ← List.drop_eq_getElem_cons hindex, List.take_append_drop]
  refine ⟨((table.take index).map (table.contentOf order)).flatMap (Content.encode order),
    ((table.drop (index + 1)).map (table.contentOf order)).flatMap (Content.encode order),
    ?_, table.length_flatMap_encode order _⟩
  rw [← List.flatMap_cons, ← List.map_cons, ← List.flatMap_append, ← List.map_append, ← htable]
  rfl

/-- The offsets of a table that is not too long can be stored in pointers. -/
theorem WellFormed.toNat_offsetOf
    {order : ByteOrder} {table : FrameTable} (h : table.WellFormed order)
    {index : Nat} {item : Item} (hitem : table[index]? = some item) :
    (UInt32.ofNat (table.offsetOf order index)).toNat = table.offsetOf order index ∧
      table.offsetOf order index < 0xffffffff := by
  obtain ⟨front, rest, hencode, hfront⟩ := exists_encode_eq order hitem
  have hlt := h.length_lt
  rw [hencode, List.length_append, hfront] at hlt
  exact ⟨UInt32.toNat_ofNat_of_lt' (by simp only [UInt32.size]; omega), by omega⟩

/-- Every item of a well formed table can be written. -/
theorem WellFormed.writable_contentOf
    {order : ByteOrder} {table : FrameTable} (h : table.WellFormed order)
    {item : Item} (hmem : item ∈ table) :
    (table.contentOf order item).Writable order := by
  obtain ⟨index, hitem⟩ := List.mem_iff_getElem?.mp hmem
  obtain ⟨front, rest, hencode, -⟩ := exists_encode_eq order hitem
  constructor
  · have hlt := h.length_lt
    rw [hencode, List.length_append, List.length_append, Content.encode, Entry.length_encode]
      at hlt
    change _ < 0xffffffff
    omega
  · cases item with
    | common common =>
        trivial
    | frame frame =>
        obtain ⟨common, hcommon, -⟩ := h.frame frame hmem
        obtain ⟨htoNat, hlt⟩ := h.toNat_offsetOf hcommon
        intro hmarker
        have heq := congrArg UInt32.toNat hmarker
        rw [htoNat] at heq
        change _ = 0xffffffff at heq
        omega

end FrameTable

end CallFrame
