import CallFrame.Reader.Field

/-!
# Headers of ELF files

An ELF file begins with sixteen bytes that identify it: a magic number, the width of its
words, its byte order and the version of the format. The file header follows, and says
where the tables of program headers and section headers are. All fields have the byte order
of the file.

Only the fields that lead to the content of a section, or that a file can be refused for,
are kept.
-/

namespace CallFrame

namespace Elf

/-- The width of the words of a file: addresses, file offsets and sizes. -/
inductive WordSize where
  /-- Words of 32 bits. -/
  | half
  /-- Words of 64 bits. -/
  | full
  deriving DecidableEq

namespace WordSize

/-- The code of the width in the identification. -/
def ofCode? : UInt8 → Option WordSize
  | 1 => some .half
  | 2 => some .full
  | _ => none

/-- Reads a word. -/
def word (size : WordSize) (order : ByteOrder) : Reader Nat :=
  match size with
  | .half => Reader.field order 4
  | .full => Reader.field order 8

/-- The number of bytes of a section header. -/
def sectionHeaderSize : WordSize → Nat
  | .half => 40
  | .full => 64

/-- The number of bytes of a program header. -/
def programHeaderSize : WordSize → Nat
  | .half => 32
  | .full => 56

/-- The number of bytes of an entry of a symbol table. -/
def symbolSize : WordSize → Nat
  | .half => 16
  | .full => 24

end WordSize

/-- The code of the byte order in the identification. -/
def orderOfCode? : UInt8 → Option ByteOrder
  | 1 => some .little
  | 2 => some .big
  | _ => none

/-- The magic number that every file begins with. -/
def magic : Bytes := [0x7f, 0x45, 0x4c, 0x46]

/-- The version of the format. -/
def version : UInt8 := 1

/-- What a file says about its own format. -/
structure Identification where
  /-- The width of the words. -/
  size : WordSize
  /-- The byte order of all fields. -/
  order : ByteOrder
  deriving DecidableEq

namespace Identification

/-- The number of bytes of the identification. -/
def length : Nat := 16

/-- The identification that a file begins with. -/
def ofBytes? (bytes : Bytes) : Option Identification :=
  match bytes.slice? 0 length with
  | some (m₀ :: m₁ :: m₂ :: m₃ :: sizeCode :: orderCode :: found :: _) =>
    if [m₀, m₁, m₂, m₃] = magic ∧ found = version then do
      let size ← WordSize.ofCode? sizeCode
      let order ← orderOfCode? orderCode
      return { size, order }
    else
      none
  | _ => none

end Identification

/-- What the file header says about the tables of headers. -/
structure FileHeader where
  /-- Where the table of program headers begins; zero if there is none. -/
  programTable : Nat
  /-- Where the table of section headers begins; zero if there is none. -/
  sectionTable : Nat
  /-- The number of bytes of one program header. -/
  programEntrySize : Nat
  /-- The number of program headers, or the mark that it is stored elsewhere. -/
  programCount : Nat
  /-- The number of bytes of one section header. -/
  sectionEntrySize : Nat
  /-- The number of section headers; zero if it is stored elsewhere. -/
  sectionCount : Nat
  /-- The index of the section with the names of all sections, or the mark that it is
  stored elsewhere. -/
  nameIndex : Nat
  deriving DecidableEq

namespace FileHeader

/-- The number of program headers, and the index of the names, that say that the real one is
stored elsewhere. -/
def elsewhere : Nat := 0xffff

/-- Reads the file header behind the identification. -/
def reader (ident : Identification) : Reader FileHeader := do
  let half := Reader.field ident.order 2
  let word := ident.size.word ident.order
  let _kind ← half
  let _machine ← half
  let _version ← Reader.field ident.order 4
  let _entryPoint ← word
  let programTable ← word
  let sectionTable ← word
  let _flags ← Reader.field ident.order 4
  let _headerSize ← half
  let programEntrySize ← half
  let programCount ← half
  let sectionEntrySize ← half
  let sectionCount ← half
  let nameIndex ← half
  return {
    programTable := programTable
    sectionTable := sectionTable
    programEntrySize := programEntrySize
    programCount := programCount
    sectionEntrySize := sectionEntrySize
    sectionCount := sectionCount
    nameIndex := nameIndex }

end FileHeader

/-- A section header: what the section is called and where its content is. -/
structure SectionHeader where
  /-- Where the name begins in the table of names. -/
  name : Nat
  /-- What kind of section it is. -/
  kind : Nat
  /-- Where the content begins in the file. -/
  offset : Nat
  /-- The number of bytes of the content. -/
  size : Nat
  /-- The index of a related section. -/
  link : Nat
  /-- Something else about the section, depending on its kind. -/
  info : Nat
  deriving DecidableEq

namespace SectionHeader

/-- The kind of a symbol table. -/
def symbols : Nat := 2

/-- The kind of a table of texts. -/
def texts : Nat := 3

/-- The kind of a table of relocations with addends. -/
def relocationsWithAddends : Nat := 4

/-- The kind of a section that has no content in the file. -/
def noContent : Nat := 8

/-- The kind of a table of relocations. -/
def relocations : Nat := 9

/-- The kind of a symbol table for dynamic linking. -/
def dynamicSymbols : Nat := 11

/-- The kind of a table of section indices that have no room in a symbol table. -/
def symbolSections : Nat := 18

/-- Reads a section header. -/
def reader (ident : Identification) : Reader SectionHeader := do
  let word := ident.size.word ident.order
  let name ← Reader.field ident.order 4
  let kind ← Reader.field ident.order 4
  let _flags ← word
  let _address ← word
  let offset ← word
  let size ← word
  let link ← Reader.field ident.order 4
  let info ← Reader.field ident.order 4
  let _alignment ← word
  let _entrySize ← word
  return { name, kind, offset, size, link, info }

/-- The content of the section in the file, if the file has all of it. -/
def content? (header : SectionHeader) (file : Bytes) : Option Bytes :=
  if header.kind = noContent then some [] else file.slice? header.offset header.size

end SectionHeader

end Elf

end CallFrame
