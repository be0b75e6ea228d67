import CallFrame.CommonEntry
import CallFrame.Section.Record
import CallFrame.Settings

/-!
# Rows of a frame description

The instructions of a frame description build the rows of a table, each for the addresses
from its location up to that of the next row. Only one row at a time is kept: the row in
effect at a program counter is the one that stands when the first instruction is met with
the location past the program counter.

A shift of the location is exact. A location that leaves the address space, or a distance
that does not fit into 64 bits, is a fault and never wraps around.

Main fact: a successful shift moves the location by exactly the delta times the code
factor, and keeps the offset.
-/

namespace CallFrame

namespace OffsetTiming

/-- The operation code of the instruction that changes the frame address offset. -/
def offsetOpcode : UInt8 := 0x13

/-- Whether an instruction with the given opcode is left out once the location is past
the program counter. -/
def waits (timing : OffsetTiming) (opcode : UInt8) : Bool :=
  !(opcode == offsetOpcode && timing == .early)

@[simp] theorem waits_inRow
    (opcode : UInt8) :
    inRow.waits opcode = true := by
  simp [waits]

theorem waits_early_iff
    {opcode : UInt8} :
    early.waits opcode = true ↔ opcode ≠ offsetOpcode := by
  simp [waits]

end OffsetTiming

/-- A row of the table of a frame description. -/
structure Row where
  /-- The first address of the row. -/
  location : UInt64
  /-- The distance of the frame address from the stack pointer. -/
  offset : Int64
  deriving DecidableEq

namespace Row

/-- The row before the instructions of a frame description. -/
def first (common : CommonEntry) (description : Description) : Row where
  location := description.start
  offset := common.cfaOffset

/-- The location `delta` units of code further on, computed exactly. -/
def target (row : Row) (factor : UInt64) (delta : Int) : Int :=
  row.location.toNat + delta * factor.toNat

/-- The row `delta` units of code further on. Its location has to be an address, and the
factor and the distance have to fit into signed words. -/
def shift (row : Row) (factor : UInt64) (delta : Int) : Except Fault Row :=
  if FitsSigned factor.toNat ∧ FitsSigned (delta * factor.toNat) ∧
      FitsUnsigned (row.target factor delta) then
    .ok { row with location := UInt64.ofNat (row.target factor delta).toNat }
  else
    .error (.locationOverflow row.location)

/-- A successful shift is exact, and keeps the offset. -/
theorem location_of_shift
    {row next : Row} {factor : UInt64} {delta : Int}
    (h : row.shift factor delta = .ok next) :
    (next.location.toNat : Int) = row.target factor delta ∧ next.offset = row.offset := by
  unfold shift at h
  split at h
  · rename_i hfits
    cases h
    obtain ⟨hzero, hlt⟩ := fitsUnsigned_iff.mp hfits.2.2
    refine ⟨?_, rfl⟩
    rw [UInt64.toNat_ofNat_of_lt' (by simp only [UInt64.size]; omega)]
    omega
  · cases h

/-- The row after an instruction. Only advances and changes of the offset are supported
here. -/
def apply (common : CommonEntry) (row : Row) (opcode : UInt8) :
    Instruction → Except Fault Row
  | .advance delta => row.shift common.codeFactor delta.val
  | .advanceByte delta => row.shift common.codeFactor delta.toInt
  | .advanceHalf delta => row.shift common.codeFactor delta.toInt
  | .defineCfaOffset factored => .ok { row with offset := factored * common.dataFactor }
  | _ => .error (.unsupportedInstruction opcode)

/-- The row in effect at a program counter: the one that stands before the first
instruction that is left out. -/
def inEffect (timing : OffsetTiming) (common : CommonEntry) (pc : UInt64) :
    Row → List (Step Instruction) → Except Fault Row
  | row, [] => .ok row
  | row, step :: rest =>
    if timing.waits step.opcode ∧ pc < row.location then
      .ok row
    else do
      let instruction ← step.content
      let row ← row.apply common step.opcode instruction
      inEffect timing common pc row rest

end Row

namespace Description

/-- The distance of the frame address from the stack pointer at a program counter. -/
def cfaOffset (order : ByteOrder) (timing : OffsetTiming) (common : CommonEntry)
    (description : Description) (pc : UInt64) : Except Fault Int64 :=
  Row.offset <$>
    Row.inEffect timing common pc (.first common description)
      (Instruction.steps order description.instructions)

/-- The frame address at a program counter, for the given stack pointer. The sum wraps
around. -/
def frameAddress (order : ByteOrder) (timing : OffsetTiming) (common : CommonEntry)
    (description : Description) (pc sp : UInt64) : Except Fault UInt64 :=
  (fun offset => (sp.toInt64 + offset).toUInt64) <$>
    description.cfaOffset order timing common pc

end Description

end CallFrame
