import CallFrame.Instruction
import CallFrame.Section.Entry

/-!
# Common information entries

A common information entry holds what the frame descriptions that refer to it share: the
alignment factors, the register that stands for the return address, and instructions for
the first row of the table.

Only the plain third version without an augmentation is understood, and of the first row
only the rule for the frame address and the place of the return address are kept. The
initial instructions have to end where the entry ends.

Main fact: what is behind an entry does not matter for what the entry says.
-/

namespace CallFrame

/-- What a common information entry says. -/
structure CommonEntry where
  /-- The unit of all advances of the location. -/
  codeFactor : UInt64
  /-- The unit of factored offsets. -/
  dataFactor : Int64
  /-- The column of the return address. -/
  returnRegister : UInt8
  /-- The register that the frame address is computed from. -/
  cfaRegister : UInt64
  /-- The distance of the frame address from that register. -/
  cfaOffset : Int64
  /-- Where the return address is saved, relative to the frame address. -/
  returnOffset : Option Int64
  deriving DecidableEq

namespace CommonEntry

/-- The supported version. -/
def version : UInt8 := 3

/-- Checks the version and the augmentation string, which has to be empty. -/
def checkFormat : Reader Unit := do
  let found ← Reader.u8
  if found ≠ version then
    .fail (.unsupportedVersion found)
  else
    let augmentation ← Reader.u8
    if augmentation ≠ 0 then
      .fail (.unsupportedAugmentation augmentation)

/-- Reads the factors and the return address register. No rule is set yet. -/
def header : Reader CommonEntry := do
  let codeFactor ← Leb128.unsigned
  let dataFactor ← Leb128.signed
  let returnRegister ← Reader.u8
  return {
    codeFactor, dataFactor, returnRegister
    cfaRegister := 0, cfaOffset := 0, returnOffset := none }

/-- The entry after one of its initial instructions. Others than those that set a kept
rule are not supported here. -/
def apply (entry : CommonEntry) (opcode : UInt8) :
    Instruction → Except Fault CommonEntry
  | .nop => .ok entry
  | .defineCfa register offset =>
    .ok { entry with cfaRegister := register, cfaOffset := offset.toInt64 }
  | .saved register factored =>
    if register.val = entry.returnRegister.toNat then
      .ok { entry with returnOffset := some (factored * entry.dataFactor) }
    else
      .error (.unsupportedInstruction opcode)
  | _ => .error (.unsupportedInstruction opcode)

/-- The entry after all its initial instructions. -/
def applyAll : CommonEntry → List (Step Instruction) → Except Fault CommonEntry
  | entry, [] => .ok entry
  | entry, step :: rest => do
    let instruction ← step.content
    let entry ← entry.apply step.opcode instruction
    applyAll entry rest

/-- Reads everything behind the marker. -/
def content (order : ByteOrder) : Reader CommonEntry := do
  checkFormat
  let entry ← header
  let instructions ← Reader.remainder
  .ofExcept (entry.applyAll (Instruction.steps order instructions))

/-- Reads the common information entry at an offset of the section. -/
def reader (order : ByteOrder) (offset : UInt32) : Reader CommonEntry := do
  Reader.skip offset.toNat
  let entry ← Entry.reader order offset.toNat
  if entry.marker = commonMarker then
    .ofExcept ((content order).result entry.payload)
  else
    .fail (.notCommonEntry offset)

/-- What is behind the entry does not matter. -/
theorem stable_reader
    (order : ByteOrder) (offset : UInt32) :
    (reader order offset).Stable :=
  (Reader.stable_skip _).bind fun _ =>
    (Entry.stable_reader order _).bind fun _ =>
      (Reader.stable_ofExcept _).ite (Reader.stable_fail _)

end CommonEntry

end CallFrame
