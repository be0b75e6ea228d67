import CallFrame.Elf.File
import Mathlib.Algebra.Order.Ring.Nat
import Mathlib.Data.List.Find

/-!
# Images and the files that hold them

An image is a list of sections with their names and contents, and a place in a file for each of its
parts: for the table of section headers, the table of program headers and the content of every
section. The names are texts in the content of one of the sections.

A file holds an image if every part stands in the file at its place. Parts may overlap and there may
be anything between them. A section that reaches beyond the end of the file has a header and no
content that could be read, and a section whose name is not in the table of names has no name.

What a reader of objects makes of such a file is an assumption: it has the byte order of the file,
finds sections by their names and cuts their bytes out of the file.

Main fact: an image has at most one first section of a name, and so provides one content under it.
-/

namespace CallFrame

/-- The bytes from the offset on begin with this part. -/
def Bytes.HoldsAt (bytes : Bytes) (offset : Nat) (part : Bytes) : Prop :=
  ∃ front back, bytes = front ++ (part ++ back) ∧ front.length = offset

theorem Bytes.HoldsAt.exists_drop_eq
    {bytes part : Bytes} {offset : Nat} (h : bytes.HoldsAt offset part) :
    ∃ back, bytes.drop offset = part ++ back := by
  obtain ⟨front, back, rfl, rfl⟩ := h
  exact ⟨back, List.drop_left⟩

theorem Bytes.slice?_eq_some_iff
    {bytes part : Bytes} {offset size : Nat} :
    bytes.slice? offset size = some part ↔ part.length = size ∧ bytes.HoldsAt offset part := by
  constructor
  · intro h
    refine ⟨length_of_slice? h, bytes.take offset, (bytes.drop offset).drop size, ?_, ?_⟩
    · rw [slice?] at h
      split at h
      · cases h
        rw [List.take_append_drop, List.take_append_drop]
      · cases h
    · rw [slice?] at h
      split at h
      · exact List.length_take_of_le (by omega)
      · cases h
  · rintro ⟨rfl, front, back, rfl, rfl⟩
    rw [slice?, if_pos (by simp), List.drop_left, List.take_left]

instance (bytes : Bytes) (offset : Nat) (part : Bytes) : Decidable (bytes.HoldsAt offset part) :=
  decidable_of_iff (bytes.slice? offset part.length = some part)
    (Bytes.slice?_eq_some_iff.trans (and_iff_right rfl))

namespace Elf

/-- The number of bytes of a word. -/
def WordSize.width : WordSize → Nat
  | .half => 4
  | .full => 8

def WordSize.code : WordSize → UInt8
  | .half => 1
  | .full => 2

def orderCode : ByteOrder → UInt8
  | .little => 1
  | .big => 2

/-- A field of this width has room for the number. -/
def Fits (width n : Nat) : Prop :=
  n < 2 ^ (8 * width)

instance (width n : Nat) : Decidable (Fits width n) :=
  inferInstanceAs (Decidable (_ < _))

/-- Numbers as fields, one behind the other. Each is given with the width of its field. -/
def encodeFields (order : ByteOrder) (fields : List (Nat × Nat)) : Bytes :=
  fields.flatMap fun field => order.digits field.1 field.2

/-- A section with the parts of its header that are not read. -/
structure Section where
  header : SectionHeader
  flags : Nat
  address : Nat
  alignment : Nat
  entrySize : Nat
  /-- The name, if the table of names has one for the section. -/
  name : Option Bytes
  /-- What the section holds, unless it reaches beyond the end of the file. -/
  content : Bytes

namespace Section

/-- A section without flags. -/
def plain (name : Option Bytes) (place kind offset size : Nat) (content : Bytes) : Section where
  header := { name := place, kind, offset, size, link := 0, info := 0 }
  flags := 0
  address := 0
  alignment := 1
  entrySize := 0
  name
  content

/-- The fields of the section header in their order. -/
def fields (size : WordSize) (item : Section) : List (Nat × Nat) :=
  [(4, item.header.name), (4, item.header.kind), (size.width, item.flags),
    (size.width, item.address), (size.width, item.header.offset),
    (size.width, item.header.size), (4, item.header.link), (4, item.header.info),
    (size.width, item.alignment), (size.width, item.entrySize)]

def encode (ident : Identification) (item : Section) : Bytes :=
  encodeFields ident.order (item.fields ident.size)

/-- The file has all of the section, which is nothing for one without content. -/
def InFile (bytes : Bytes) (item : Section) : Prop :=
  item.header.kind = SectionHeader.noContent ∨
    item.header.offset + item.header.size ≤ bytes.length

/-- The kinds of sections that are looked into before a wanted one is searched. -/
def IsTable (item : Section) : Prop :=
  item.header.kind ∈ [SectionHeader.symbols, SectionHeader.dynamicSymbols,
    SectionHeader.relocations, SectionHeader.relocationsWithAddends]

/-- The content is compressed, as the flags of the section or its name tell. -/
def IsCompressed (item : Section) : Prop :=
  item.flags.testBit 11 = true ∨ ∃ name ∈ item.name, sectionName ".zdebug_" <+: name

/-- The fields of the header have room for their numbers, and the section is one that is read as it
stands. -/
structure WellFormed (ident : Identification) (item : Section) : Prop where
  name : Fits 4 item.header.name
  kind : Fits 4 item.header.kind
  offset : Fits ident.size.width item.header.offset
  size : Fits ident.size.width item.header.size
  link : Fits 4 item.header.link
  info : Fits 4 item.header.info
  not_isTable : ¬ item.IsTable
  not_isCompressed : ¬ item.IsCompressed

/-- A section without content holds nothing. The content of any other one stands at its place, if
the file reaches that far. -/
structure StoredIn (bytes : Bytes) (item : Section) : Prop where
  content_eq : item.header.kind = SectionHeader.noContent → item.content = []
  holdsAt : item.header.kind ≠ SectionHeader.noContent → item.InFile bytes →
    item.content.length = item.header.size ∧ bytes.HoldsAt item.header.offset item.content

/-- The name is the text that begins at its place in the table, up to a zero byte. A section has no
name if there is no such text. -/
def NamedBy (table : Bytes) (item : Section) : Prop :=
  match item.name with
  | some name => 0 ∉ name ∧ name ++ [0] <+: table.drop item.header.name
  | none => 0 ∉ table.drop item.header.name

section Decidability

variable {item : Section} {ident : Identification} {bytes : Bytes}

instance : Decidable (item.InFile bytes) :=
  inferInstanceAs (Decidable (_ ∨ _))

instance : Decidable item.IsTable :=
  inferInstanceAs (Decidable (_ ∈ _))

instance : Decidable item.IsCompressed :=
  inferInstanceAs (Decidable (_ ∨ _))

theorem wellFormed_iff :
    item.WellFormed ident ↔
      (Fits 4 item.header.name ∧ Fits 4 item.header.kind ∧
        Fits ident.size.width item.header.offset ∧ Fits ident.size.width item.header.size ∧
        Fits 4 item.header.link ∧ Fits 4 item.header.info) ∧
      ¬ item.IsTable ∧ ¬ item.IsCompressed := by
  constructor
  · intro h
    exact ⟨⟨h.name, h.kind, h.offset, h.size, h.link, h.info⟩, h.not_isTable,
      h.not_isCompressed⟩
  · rintro ⟨⟨hname, hkind, hoffset, hsize, hlink, hinfo⟩, htable, hcompressed⟩
    exact ⟨hname, hkind, hoffset, hsize, hlink, hinfo, htable, hcompressed⟩

instance : Decidable (item.WellFormed ident) :=
  decidable_of_iff _ wellFormed_iff.symm

theorem storedIn_iff :
    item.StoredIn bytes ↔
      if item.header.kind = SectionHeader.noContent then item.content = []
      else item.InFile bytes →
        item.content.length = item.header.size ∧
          bytes.HoldsAt item.header.offset item.content := by
  split
  case isTrue hkind =>
      exact ⟨fun h => h.content_eq hkind, fun h => ⟨fun _ => h, fun hother => absurd hkind hother⟩⟩
  case isFalse hkind =>
      exact ⟨fun h => h.holdsAt hkind, fun h => ⟨fun hother => absurd hother hkind, fun _ => h⟩⟩

instance : Decidable (item.StoredIn bytes) :=
  decidable_of_iff _ storedIn_iff.symm

instance (table : Bytes) : (item : Section) → Decidable (item.NamedBy table)
  | { name := some _, .. } => inferInstanceAs (Decidable (_ ∧ _))
  | { name := none, .. } => inferInstanceAs (Decidable (_ ∉ _))

end Decidability

section Content

variable {item : Section} {bytes : Bytes}

theorem StoredIn.content?_of_inFile
    (h : item.StoredIn bytes) (hfile : item.InFile bytes) :
    item.header.content? bytes = some item.content := by
  rw [SectionHeader.content?]
  by_cases hkind : item.header.kind = SectionHeader.noContent
  · rw [if_pos hkind, h.content_eq hkind]
  · rw [if_neg hkind]
    exact Bytes.slice?_eq_some_iff.mpr (h.holdsAt hkind hfile)

theorem content?_of_not_inFile
    (h : ¬ item.InFile bytes) :
    item.header.content? bytes = none := by
  obtain ⟨hkind, hend⟩ := not_or.mp h
  rw [SectionHeader.content?, if_neg hkind, Bytes.slice?, if_neg hend]

end Content

end Section

/-- The sections of a file and the places of its parts, with the parts of the file header that are
not read. -/
structure Image where
  ident : Identification
  /-- What the identification ends with. -/
  padding : Bytes
  kind : Nat
  machine : Nat
  version : Nat
  entryPoint : Nat
  flags : Nat
  headerSize : Nat
  /-- Where the program headers are. -/
  programTable : Nat
  /-- How many program headers there are. -/
  programs : Nat
  programEntrySize : Nat
  /-- Where the section headers are. -/
  sectionTable : Nat
  /-- Which section is the table of names. -/
  nameIndex : Nat
  sections : List Section

namespace Image

def identification (image : Image) : Bytes :=
  magic ++ image.ident.size.code :: orderCode image.ident.order :: Elf.version :: image.padding

/-- What the file header tells. The number of program headers is given elsewhere if it is too
large. -/
def fileHeader (image : Image) : FileHeader where
  programTable := image.programTable
  sectionTable := image.sectionTable
  programEntrySize := image.programEntrySize
  programCount := min image.programs FileHeader.elsewhere
  sectionEntrySize := image.ident.size.sectionHeaderSize
  sectionCount := image.sections.length
  nameIndex := image.nameIndex

/-- The fields of the file header in their order. -/
def headerFields (image : Image) : List (Nat × Nat) :=
  [(2, image.kind), (2, image.machine), (4, image.version),
    (image.ident.size.width, image.entryPoint),
    (image.ident.size.width, image.fileHeader.programTable),
    (image.ident.size.width, image.fileHeader.sectionTable), (4, image.flags),
    (2, image.headerSize), (2, image.fileHeader.programEntrySize),
    (2, image.fileHeader.programCount), (2, image.fileHeader.sectionEntrySize),
    (2, image.fileHeader.sectionCount), (2, image.fileHeader.nameIndex)]

/-- The number of sections and all places can be written, and there is a table of names. -/
structure WellFormed (image : Image) : Prop where
  length_padding : image.padding.length = 9
  length_sections : image.sections.length < 0xff00
  sections : ∀ item ∈ image.sections, item.WellFormed image.ident
  nameIndex_ne : image.nameIndex ≠ 0
  sectionTable_ne : image.sectionTable ≠ 0
  sectionTable : Fits image.ident.size.width image.sectionTable
  programTable : Fits image.ident.size.width image.programTable
  programEntrySize : Fits 2 image.programEntrySize
  /-- A number of program headers that has no room in the file header is in the first section
  header. -/
  programs : image.programs < FileHeader.elsewhere ∨
    ∃ first ∈ image.sections.head?, first.header.info = image.programs

/-- The file holds the headers of the image, the program headers, the sections with their contents
and the names of the sections. -/
structure StoredIn (image : Image) (bytes : Bytes) : Prop where
  length_lt : bytes.length < 2 ^ 64
  identification : bytes.HoldsAt 0 image.identification
  fileHeader : bytes.HoldsAt Identification.length
    (encodeFields image.ident.order image.headerFields)
  sectionTable : bytes.HoldsAt image.sectionTable
    (image.sections.flatMap (Section.encode image.ident))
  programTable : image.programs = 0 ∨
    image.programEntrySize = image.ident.size.programHeaderSize ∧
      image.programTable + image.programs * image.programEntrySize ≤ bytes.length
  sections : ∀ item ∈ image.sections, item.StoredIn bytes
  names : ∃ table, image.sections[image.nameIndex]? = some table ∧ table.InFile bytes ∧
    ∀ item ∈ image.sections, item.NamedBy table.content

/-- The headers of an image that has them one behind the other. -/
def head (image : Image) : Bytes :=
  image.identification ++ encodeFields image.ident.order image.headerFields ++
    image.sections.flatMap (Section.encode image.ident)

/-- The first section of this name. -/
def IsFirst (image : Image) (name : Bytes) (item : Section) : Prop :=
  ∃ front back, image.sections = front ++ item :: back ∧ item.name = some name ∧
    ∀ other ∈ front, other.name ≠ some name

/-- The content of the first section of this name, which is empty if there is no such section. -/
inductive Provides (image : Image) (name : Bytes) : Bytes → Prop
  | first {item : Section} (h : image.IsFirst name item) : Provides image name item.content
  | missing (h : ∀ item ∈ image.sections, item.name ≠ some name) : Provides image name []

section First

variable {image : Image} {name : Bytes} {item : Section}

/-- The first section of this name, if there is one. -/
def first? (image : Image) (name : Bytes) : Option Section :=
  image.sections.find? fun item => item.name = some name

theorem IsFirst.mem
    (h : image.IsFirst name item) :
    item ∈ image.sections := by
  obtain ⟨front, back, hsections, -, -⟩ := h
  rw [hsections]
  exact List.mem_append_right front List.mem_cons_self

theorem first?_eq_some_iff :
    image.first? name = some item ↔ image.IsFirst name item := by
  rw [first?, List.find?_eq_some_iff_append]
  constructor
  · rintro ⟨hname, front, back, hsections, hfront⟩
    refine ⟨front, back, hsections, of_decide_eq_true hname, fun other hother => ?_⟩
    simpa using hfront other hother
  · rintro ⟨front, back, hsections, hname, hfront⟩
    refine ⟨decide_eq_true hname, front, back, hsections, fun other hother => ?_⟩
    simpa using hfront other hother

theorem first?_eq_none_iff :
    image.first? name = none ↔ ∀ item ∈ image.sections, item.name ≠ some name := by
  simp [first?, List.find?_eq_none]

/-- An image provides one content under each name. -/
theorem provides_iff
    {content : Bytes} :
    image.Provides name content ↔ ((image.first? name).map Section.content).getD [] = content := by
  constructor
  · rintro (hfirst | hmissing)
    · rw [first?_eq_some_iff.mpr hfirst]
      rfl
    · rw [first?_eq_none_iff.mpr hmissing]
      rfl
  · rintro rfl
    rcases hfound : image.first? name with _ | item
    · exact Provides.missing (first?_eq_none_iff.mp hfound)
    · exact Provides.first (first?_eq_some_iff.mp hfound)

end First

end Image

end Elf

namespace ObjectReader

open Elf

/-- What an object that is read from a file says of the image in it, where `piece` is what stands
for a section. -/
structure Holds (objects : ObjectReader) (image : Image) (bytes : Bytes) (object : objects.Object)
    (piece : Elf.Section → objects.Piece) : Prop where
  isLittleEndian_iff : objects.isLittleEndian object = true ↔ image.ident.order = .little
  /-- Sections are found by their exact names, and the first one wins. A section without a name is
  passed over. -/
  pieceByName?_of_isFirst {name : String} {item : Elf.Section}
    (h : image.IsFirst (sectionName name) item) :
    objects.pieceByName? object name = some (piece item)
  pieceByName?_of_missing {name : String}
    (h : ∀ item ∈ image.sections, item.name ≠ some (sectionName name)) :
    objects.pieceByName? object name = none
  data?_of_noContent {item : Elf.Section} (hitem : item ∈ image.sections)
    (hkind : item.header.kind = SectionHeader.noContent) :
    objects.data? (piece item) = some []
  /-- The bytes of any other section are those at its place, as far as the file has all of them. -/
  data?_of_content {item : Elf.Section} (hitem : item ∈ image.sections)
    (hkind : item.header.kind ≠ SectionHeader.noContent) :
    objects.data? (piece item) = bytes.slice? item.header.offset item.header.size

/-- What is relied on of a reader of objects that reads ELF files: from a file that holds a
well-formed image, it reads an object with the byte order, the names and the bytes of the image. -/
def ReadsElf (objects : ObjectReader) : Prop :=
  ∀ {image : Image} {bytes : Bytes}, image.WellFormed → image.StoredIn bytes →
    ∃ object piece, objects.parse? bytes = some object ∧ objects.Holds image bytes object piece

end ObjectReader

end CallFrame
