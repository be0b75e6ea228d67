import CallFrame.Elf.Table

/-!
# Intact files

Program headers, symbol tables and relocations do not lead to the debug sections, but a file
in which they are damaged is not trusted with anything else. Of the symbol tables, the first
of each kind counts.

Only what can be told from the headers is looked at, and that all of a table is in the file.
-/

namespace CallFrame

namespace Elf

/-- The file has room for all program headers. -/
def ProgramTableIntact (ident : Identification) (header : FileHeader) (bytes : Bytes) : Prop :=
  header.programTable = 0 ∨
    ∃ count ∈ programCount? ident header bytes,
      count = 0 ∨
        header.programEntrySize = ident.size.programHeaderSize ∧
          (bytes.slice? header.programTable
            (count * ident.size.programHeaderSize)).isSome

instance (ident : Identification) (header : FileHeader) (bytes : Bytes) :
    Decidable (ProgramTableIntact ident header bytes) := by
  unfold ProgramTableIntact
  infer_instance

/-- The content of the section is a sequence of entries of the given width. -/
def SectionHeader.HoldsEntries (header : SectionHeader) (bytes : Bytes) (width : Nat) : Prop :=
  ∃ content ∈ header.content? bytes, content.length % width = 0

instance (header : SectionHeader) (bytes : Bytes) (width : Nat) :
    Decidable (header.HoldsEntries bytes width) := by
  unfold SectionHeader.HoldsEntries
  infer_instance

/-- The index is that of a table of texts, or zero, which stands for none. -/
def TextsAt (sections : List SectionHeader) (index : Nat) : Prop :=
  index = 0 ∨
    ∃ header ∈ sections[index]?,
      header.kind = SectionHeader.texts ∧ FitsUnsigned (header.offset + header.size)

instance (sections : List SectionHeader) (index : Nat) : Decidable (TextsAt sections index) := by
  unfold TextsAt
  infer_instance

/-- The index of the first section of a kind. -/
def firstOfKind? (sections : List SectionHeader) (kind : Nat) : Option Nat :=
  sections.findIdx? fun header => header.kind = kind

/-- The first symbol table of a kind has whole entries, texts for their names, and whole
entries in the tables of sections that belong to it. -/
def SymbolTableIntact (ident : Identification) (bytes : Bytes) (sections : List SectionHeader)
    (kind : Nat) : Prop :=
  ∀ index ∈ firstOfKind? sections kind, ∀ header ∈ sections[index]?,
    header.HoldsEntries bytes ident.size.symbolSize ∧
      TextsAt sections header.link ∧
        ∀ other ∈ sections,
          other.kind = SectionHeader.symbolSections → other.link = index →
            other.HoldsEntries bytes 4

instance (ident : Identification) (bytes : Bytes) (sections : List SectionHeader) (kind : Nat) :
    Decidable (SymbolTableIntact ident bytes sections kind) := by
  unfold SymbolTableIntact
  infer_instance

/-- Both symbol tables are intact. -/
def SymbolsIntact (ident : Identification) (bytes : Bytes) (sections : List SectionHeader) :
    Prop :=
  SymbolTableIntact ident bytes sections SectionHeader.symbols ∧
    SymbolTableIntact ident bytes sections SectionHeader.dynamicSymbols

instance (ident : Identification) (bytes : Bytes) (sections : List SectionHeader) :
    Decidable (SymbolsIntact ident bytes sections) := by
  unfold SymbolsIntact
  infer_instance

/-- The section holds relocations. -/
def SectionHeader.IsRelocations (header : SectionHeader) : Prop :=
  header.kind = SectionHeader.relocations ∨ header.kind = SectionHeader.relocationsWithAddends

instance (header : SectionHeader) : Decidable header.IsRelocations := by
  unfold SectionHeader.IsRelocations
  infer_instance

/-- Relocations for the symbols of the symbol table are for no section in particular, or for
a section that there is and that holds no relocations itself. Without a symbol table, these
are the relocations without symbols. -/
def RelocationsIntact (sections : List SectionHeader) : Prop :=
  ∀ header ∈ sections, header.IsRelocations →
    header.link = (firstOfKind? sections SectionHeader.symbols).getD 0 →
      header.info = 0 ∨ ∃ target ∈ sections[header.info]?, ¬ target.IsRelocations

instance (sections : List SectionHeader) : Decidable (RelocationsIntact sections) := by
  unfold RelocationsIntact
  infer_instance

end Elf

end CallFrame
