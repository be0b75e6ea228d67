import CallFrame.Elf.Intact
import CallFrame.ObjectFile

/-!
# A reader of ELF files

The table of section headers lists the sections of a file. Their names are in a section of
their own, each name ended by a zero byte; a section is found by its exact name, and the
first of that name is taken. A section whose name cannot be read has no name.

No object is read from a file whose headers are damaged, or one of the tables that
`CallFrame.Elf.Intact` looks at. A section that reaches beyond the end of the file has no bytes.

This is one reader of objects, for one format. Whatever is said of files elsewhere is said for any
reader, and needs this one only where something has to be read.
-/

namespace CallFrame

namespace Elf

/-- A file whose headers have been read. -/
structure File where
  /-- The format of the file. -/
  ident : Identification
  /-- All bytes of the file. -/
  bytes : Bytes
  /-- The section headers, in order. -/
  sections : List SectionHeader
  /-- The header of the section with the names of all sections. -/
  names : Option SectionHeader

namespace File

/-- Reads the headers of a file. -/
def ofBytes? (bytes : Bytes) : Option File := do
  let ident ← Identification.ofBytes? bytes
  let header ← ((FileHeader.reader ident).result (bytes.drop Identification.length)).toOption
  let sections ← sectionTable? ident header bytes
  if ProgramTableIntact ident header bytes ∧ SymbolsIntact ident bytes sections ∧
      RelocationsIntact sections then
    if sections = [] then
      return { ident, bytes, sections, names := none }
    else
      let names ← nameSection? header sections
      return { ident, bytes, sections, names := some names }
  else
    none

/-- The name of a section, if it can be read: the bytes up to the next zero byte of the
table of names. -/
def name? (file : File) (header : SectionHeader) : Option Bytes := do
  let names ← file.names
  let table ← names.content? file.bytes
  let text := table.drop header.name
  if 0 ∈ text then
    return text.takeWhile (· ≠ 0)
  else
    none

/-- The header of the first section with the given name. -/
def find? (file : File) (name : Bytes) : Option SectionHeader :=
  file.sections.find? fun header => file.name? header = some name

end File

/-- The bytes of a name. -/
def sectionName (name : String) : Bytes :=
  name.toUTF8.data.toList

/-- Reads ELF files. A section is its header, with the file that it is in. -/
def reader : ObjectReader where
  Object := File
  Piece := File × SectionHeader
  parse? := File.ofBytes?
  isLittleEndian file := file.ident.order = .little
  pieceByName? file name := (file.find? (sectionName name)).map (file, ·)
  data? piece := piece.2.content? piece.1.bytes

end Elf

end CallFrame
