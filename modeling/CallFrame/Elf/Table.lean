import CallFrame.Elf.Header
import CallFrame.Word

/-!
# Tables of ELF files

The section headers of a file are a table, and so are its program headers. The file header
says where they begin and how long they are.

A number that does not fit into the file header is stored in the first section header: the
number of sections in its size, the index of the names in its link, and the number of
program headers in its info.
-/

namespace CallFrame

namespace Elf

/-- Reads `count` section headers, one behind the other. -/
def sectionHeaders (ident : Identification) : Nat → Reader (List SectionHeader)
  | 0 => return []
  | count + 1 => do
    let header ← SectionHeader.reader ident
    let rest ← sectionHeaders ident count
    return header :: rest

/-- The first section header, which may hold what has no room in the file header. -/
def firstSection? (ident : Identification) (header : FileHeader) (bytes : Bytes) :
    Option SectionHeader :=
  if header.sectionTable = 0 ∨ header.sectionEntrySize ≠ ident.size.sectionHeaderSize then
    none
  else
    ((SectionHeader.reader ident).result (bytes.drop header.sectionTable)).toOption

/-- The table of section headers. It is empty if the file has none. -/
def sectionTable? (ident : Identification) (header : FileHeader) (bytes : Bytes) :
    Option (List SectionHeader) :=
  if header.sectionTable = 0 then
    some []
  else if header.sectionEntrySize ≠ ident.size.sectionHeaderSize then
    none
  else do
    let count ←
      if header.sectionCount = 0 then SectionHeader.size <$> firstSection? ident header bytes
      else some header.sectionCount
    if count = 0 then
      return []
    else
      let table ← bytes.slice? header.sectionTable (count * ident.size.sectionHeaderSize)
      ((sectionHeaders ident count).result table).toOption

/-- The header of the section with the names, in a file that has sections. Index zero stands
for no section. -/
def nameSection? (header : FileHeader) (sections : List SectionHeader) :
    Option SectionHeader := do
  let index ←
    if header.nameIndex = FileHeader.elsewhere then SectionHeader.link <$> sections.head?
    else some header.nameIndex
  let names ← sections[index]?
  if index ≠ 0 ∧
      (names.kind = SectionHeader.noContent ∨ FitsUnsigned (names.offset + names.size)) then
    return names
  else
    none

/-- The number of program headers. -/
def programCount? (ident : Identification) (header : FileHeader) (bytes : Bytes) :
    Option Nat :=
  if header.programCount = FileHeader.elsewhere then
    SectionHeader.info <$> firstSection? ident header bytes
  else
    some header.programCount

end Elf

end CallFrame
