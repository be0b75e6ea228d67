import CallFrame.FrameSection

/-!
# Debug sections

The sections of an object that describe its program to a debugger. Lookups of frame
addresses need one of them only; the others are carried along for whoever reads debugging
entries.
-/

namespace CallFrame

/-- The debug sections of an object. A section that the object does not have is empty. -/
structure DebugSections where
  /-- The byte order of the object. -/
  order : ByteOrder
  /-- Abbreviations of debugging entries. -/
  abbreviations : Bytes
  /-- Debugging entries. -/
  info : Bytes
  /-- Texts that debugging entries refer to. -/
  strings : Bytes
  /-- Call frame information. -/
  frames : Bytes
  deriving DecidableEq

namespace DebugSections

/-- The frame section with its byte order. -/
def frameSection (sections : DebugSections) : FrameSection where
  order := sections.order
  bytes := sections.frames

/-- The canonical frame address of the function at `pc`, for the stack pointer `sp`. -/
def frameAddress (sections : DebugSections) (settings : Settings) (pc sp : UInt64) :
    Except Fault UInt64 :=
  sections.frameSection.frameAddress settings pc sp

end DebugSections

end CallFrame
