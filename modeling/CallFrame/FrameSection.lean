import CallFrame.Row
import CallFrame.Section.Scan

/-!
# Lookups in the frame section

A lookup finds the frame description that covers a program counter, reads the common
information entry it refers to, and takes the offset from the row in effect there.

The search goes through the scan of the section and ends at the first record that covers
the address. It gives up at a limit on the number of records, so that a damaged section
cannot hold it up; a fault of the scan that comes before the match is its answer. The
limit counts the records looked at, and is checked before the record that exceeds it.
-/

namespace CallFrame

namespace Scan

/-- The first frame description among the items that covers the address, where `seen`
records were looked at before. -/
def firstCovering (pc : UInt64) (limit : Nat) :
    Nat → List (Except Fault Record) → Except Fault Description
  | _, [] => .error (.uncovered pc)
  | seen, item :: rest =>
    if limit ≤ seen then
      .error (.tooManyRecords limit)
    else
      match item with
      | .error fault => .error fault
      | .ok (.common _) => firstCovering pc limit (seen + 1) rest
      | .ok (.frame description) =>
        if description.Covers pc then .ok description
        else firstCovering pc limit (seen + 1) rest

end Scan

/-- The frame section of an object, with its byte order. -/
structure FrameSection where
  /-- The byte order of all fixed-width fields. -/
  order : ByteOrder
  /-- The content of the section. -/
  bytes : Bytes

namespace FrameSection

/-- The records of the section, and the fault they may end with. -/
def records (frames : FrameSection) : List (Except Fault Record) :=
  (Scan.start frames.order frames.bytes).items

/-- The frame description that covers the address. -/
def find (frames : FrameSection) (pc : UInt64) (limit : Nat) : Except Fault Description :=
  Scan.firstCovering pc limit 0 frames.records

/-- The common information entry at an offset. -/
def commonEntry (frames : FrameSection) (offset : UInt32) : Except Fault CommonEntry :=
  (CommonEntry.reader frames.order offset).result frames.bytes

/-- The canonical frame address of the function at `pc`, for the stack pointer `sp`. -/
def frameAddress (frames : FrameSection) (settings : Settings) (pc sp : UInt64) :
    Except Fault UInt64 := do
  let description ← frames.find pc settings.maxRecords
  let common ← frames.commonEntry description.commonOffset
  description.frameAddress frames.order settings.offsetTiming common pc sp

end FrameSection

end CallFrame
