import CallFrame.DebugSections

/-!
# Object files

A file is read into memory as it is. What its bytes mean is left to a reader of objects, which
says whether they are an object at all, which byte order it has, which of its sections has a
name, and what is in a section. There are many formats, and nothing here depends on one.

The debug sections of an object are the ones of the usual four names. One that the object does
not have is empty. A file is refused when it cannot be read, when it is no object, or when the
bytes of one of the four sections cannot be had.
-/

namespace CallFrame

/-- What reads objects of some format, or of several. -/
structure ObjectReader where
  /-- An object whose headers have been read. -/
  Object : Type
  /-- A section of an object. -/
  Piece : Type
  /-- Reads the headers of an object. -/
  parse? : Bytes → Option Object
  /-- Whether the least significant byte of a field comes first. -/
  isLittleEndian : Object → Bool
  /-- The section of a name. -/
  pieceByName? : Object → String → Option Piece
  /-- The bytes of a section. -/
  data? : Piece → Option Bytes

/-- Why a file has no debug sections to give. -/
inductive FileFault where
  /-- The program cannot find out where its own file is. -/
  | unknownProgram
  /-- The file cannot be read. -/
  | unreadable (path : String)
  /-- The file is no object, or a damaged one. -/
  | damaged
  deriving DecidableEq

/-- The words in which a refused file is reported. -/
def FileFault.message : FileFault → String
  | .unknownProgram => "failed to find the path of the current executable"
  | .unreadable path => s!"failed to read {path}"
  | .damaged => "failed to parse object file"

/-- A file that was read into memory. -/
structure ObjectFile where
  /-- Where the file is. -/
  path : String
  /-- What the file holds. -/
  bytes : Bytes
  deriving DecidableEq

namespace ObjectFile

/-- Reads the file at a path, where `files` gives the content of a file that can be read. -/
def read (files : String → Option Bytes) (path : String) : Except FileFault ObjectFile :=
  match files path with
  | none => .error (.unreadable path)
  | some bytes => .ok { path, bytes }

/-- Reads the file of the program itself, whose path may be unknown. -/
def readOwn (files : String → Option Bytes) (ownPath : Option String) :
    Except FileFault ObjectFile :=
  match ownPath with
  | none => .error .unknownProgram
  | some path => read files path

/-- The bytes of the section of a name. A section that the object does not have is empty. -/
def content (objects : ObjectReader) (object : objects.Object) (name : String) :
    Except FileFault Bytes :=
  match objects.pieceByName? object name with
  | none => .ok []
  | some piece =>
    match objects.data? piece with
    | none => .error .damaged
    | some data => .ok data

/-- The debug sections of a file. -/
def debugSections (objects : ObjectReader) (file : ObjectFile) :
    Except FileFault DebugSections :=
  match objects.parse? file.bytes with
  | none => .error .damaged
  | some object => do
    let abbreviations ← content objects object ".debug_abbrev"
    let info ← content objects object ".debug_info"
    let strings ← content objects object ".debug_str"
    let frames ← content objects object ".debug_frame"
    let order := if objects.isLittleEndian object then .little else .big
    return { order, abbreviations, info, strings, frames }

end ObjectFile

end CallFrame
