import CallFrame.Elf.File
import CallFrame.Proofs.ElfImages
import Mathlib.Data.List.Find

/-!
# Reading the headers of an image

From a file that holds an image, the reader of ELF files reads the headers of the image: the
identification, the file header, the table of section headers and the table of names. Tables that
it does not need are intact.

Main fact: this reader does what is relied on of a reader of ELF files.
-/

namespace CallFrame

namespace Elf

section Headers

theorem WordSize.word_eq
    (size : WordSize) (order : ByteOrder) :
    size.word order = Reader.field order size.width := by
  cases size <;> rfl

theorem Fits.mod_capacity
    {width n : Nat} (h : Fits width n) :
    n % ByteOrder.capacity width = n := by
  have hcapacity : ByteOrder.capacity width = 2 ^ (8 * width) := by
    clear h
    induction width with
    | zero =>
        rfl
    | succ width ih =>
        rw [ByteOrder.capacity, ih, Nat.mul_succ, Nat.pow_add, Nat.mul_comm]
  rw [hcapacity, Nat.mod_eq_of_lt h]

/-- The number in front is read, as far as its field has room for it. -/
theorem run_field_encodeFields
    (order : ByteOrder) (width n : Nat) (fields : List (Nat × Nat)) (rest : Bytes) :
    (Reader.field order width).run (encodeFields order ((width, n) :: fields) ++ rest) =
      (.ok (n % ByteOrder.capacity width), encodeFields order fields ++ rest) := by
  rw [encodeFields, List.flatMap_cons, List.append_assoc, Reader.run_field_of_le (by simp),
    List.take_append_of_le_length (by simp), List.take_of_length_le (by simp),
    ByteOrder.value_digits]
  congr 1
  exact List.drop_left' (by simp)

theorem length_encodeFields
    (order : ByteOrder) (fields : List (Nat × Nat)) :
    (encodeFields order fields).length = (fields.map Prod.fst).sum := by
  simp [encodeFields, List.length_flatMap]

theorem Section.length_encode
    (ident : Identification) (item : Section) :
    (item.encode ident).length = ident.size.sectionHeaderSize := by
  rw [encode, length_encodeFields]
  cases ident.size <;> rfl

theorem length_flatMap_sectionEncode
    (ident : Identification) (items : List Section) :
    (items.flatMap (Section.encode ident)).length =
      items.length * ident.size.sectionHeaderSize := by
  induction items with
  | nil =>
      exact (Nat.zero_mul _).symm
  | cons item items ih =>
      rw [List.flatMap_cons, List.length_append, ih, item.length_encode, List.length_cons,
        Nat.succ_mul, Nat.add_comm]

theorem Section.run_reader_encode
    {ident : Identification} {item : Section} (h : item.WellFormed ident) (rest : Bytes) :
    (SectionHeader.reader ident).run (item.encode ident ++ rest) = (.ok item.header, rest) := by
  rw [SectionHeader.reader, encode, fields, WordSize.word_eq]
  simp only [Reader.run_bind_ok (run_field_encodeFields _ _ _ _ _), Reader.run_pure,
    h.name.mod_capacity, h.kind.mod_capacity, h.offset.mod_capacity, h.size.mod_capacity,
    h.link.mod_capacity, h.info.mod_capacity]
  rfl

theorem run_sectionHeaders_flatMap_encode
    {ident : Identification} {items : List Section}
    (h : ∀ item ∈ items, item.WellFormed ident) (rest : Bytes) :
    (sectionHeaders ident items.length).run (items.flatMap (Section.encode ident) ++ rest) =
      (.ok (items.map Section.header), rest) := by
  induction items with
  | nil =>
      rfl
  | cons item items ih =>
      obtain ⟨hitem, hitems⟩ := List.forall_mem_cons.mp h
      rw [List.length_cons, sectionHeaders, List.flatMap_cons, List.append_assoc,
        Reader.run_bind_ok (item.run_reader_encode hitem _), Reader.run_bind_ok (ih hitems)]
      rfl

end Headers

namespace Section

theorem NamedBy.name?_eq
    {item : Section} {table : Bytes} {file : File} {names : SectionHeader} (h : item.NamedBy table)
    (hnames : file.names = some names) (htable : names.content? file.bytes = some table) :
    file.name? item.header = item.name := by
  rw [File.name?, hnames]
  simp only [Option.bind_eq_bind, Option.bind_some, htable]
  rw [NamedBy] at h
  rcases hname : item.name with _ | name
  · rw [hname] at h
    exact if_neg h
  · rw [hname] at h
    obtain ⟨hzero, back, hback⟩ := h
    rw [List.append_assoc, List.singleton_append] at hback
    have hname : ∀ byte ∈ name, decide (byte ≠ 0) = true := by
      intro byte hbyte
      refine decide_eq_true ?_
      rintro rfl
      exact hzero hbyte
    rw [← hback, if_pos (by simp), List.takeWhile_append_of_pos hname]
    simp

end Section

namespace Image

variable {image : Image} {bytes : Bytes}

theorem StoredIn.identification_eq
    (hwell : image.WellFormed) (h : image.StoredIn bytes) :
    Identification.ofBytes? bytes = some image.ident := by
  have hlength : image.identification.length = Identification.length := by
    simp [Image.identification, magic, Identification.length, hwell.length_padding]
  have hslice : bytes.slice? 0 Identification.length = some image.identification :=
    Bytes.slice?_eq_some_iff.mpr ⟨hlength, h.identification⟩
  have hsize : WordSize.ofCode? image.ident.size.code = some image.ident.size := by
    cases image.ident.size <;> rfl
  have horder : orderOfCode? (orderCode image.ident.order) = some image.ident.order := by
    cases image.ident.order <;> rfl
  rw [Identification.ofBytes?, hslice]
  change (WordSize.ofCode? image.ident.size.code).bind _ = _
  rw [hsize, Option.bind_some]
  change (orderOfCode? (orderCode image.ident.order)).bind _ = _
  rw [horder]
  rfl

theorem StoredIn.nameIndex_lt
    (h : image.StoredIn bytes) :
    image.nameIndex < image.sections.length := by
  obtain ⟨table, htable, -, -⟩ := h.names
  exact (List.getElem?_eq_some_iff.mp htable).1

theorem StoredIn.fileHeader_eq
    (hwell : image.WellFormed) (h : image.StoredIn bytes) :
    (FileHeader.reader image.ident).result (bytes.drop Identification.length) =
      .ok image.fileHeader := by
  have hindex := h.nameIndex_lt
  have hsections := hwell.length_sections
  have hprograms : Fits 2 image.fileHeader.programCount := by
    simp only [Fits, Image.fileHeader, FileHeader.elsewhere]
    omega
  have hentry : Fits 2 image.fileHeader.sectionEntrySize := by
    simp only [Image.fileHeader]
    cases image.ident.size <;> decide
  have hcount : Fits 2 image.fileHeader.sectionCount := by
    simp only [Fits, Image.fileHeader]
    omega
  have hname : Fits 2 image.fileHeader.nameIndex := by
    simp only [Fits, Image.fileHeader]
    omega
  have hprogramTable : Fits image.ident.size.width image.fileHeader.programTable :=
    hwell.programTable
  have hsectionTable : Fits image.ident.size.width image.fileHeader.sectionTable :=
    hwell.sectionTable
  have hprogramEntry : Fits 2 image.fileHeader.programEntrySize := hwell.programEntrySize
  obtain ⟨back, hback⟩ := h.fileHeader.exists_drop_eq
  rw [hback, Reader.result, FileHeader.reader, headerFields, WordSize.word_eq]
  simp only [Reader.run_bind_ok (run_field_encodeFields _ _ _ _ _), Reader.run_pure,
    hprogramTable.mod_capacity, hsectionTable.mod_capacity, hprogramEntry.mod_capacity,
    hprograms.mod_capacity, hentry.mod_capacity, hcount.mod_capacity, hname.mod_capacity]

/-- The section headers of the image. -/
def headers (image : Image) : List SectionHeader :=
  image.sections.map Section.header

theorem StoredIn.ne_nil
    (h : image.StoredIn bytes) :
    image.sections ≠ [] := by
  intro hnil
  have hindex := h.nameIndex_lt
  rw [hnil] at hindex
  exact Nat.not_lt_zero _ hindex

theorem StoredIn.sectionTable_eq
    (hwell : image.WellFormed) (h : image.StoredIn bytes) :
    sectionTable? image.ident image.fileHeader bytes = some image.headers := by
  have htable : image.fileHeader.sectionTable ≠ 0 := hwell.sectionTable_ne
  have hentry : ¬ image.fileHeader.sectionEntrySize ≠ image.ident.size.sectionHeaderSize :=
    fun hne => hne rfl
  have hcount : image.fileHeader.sectionCount ≠ 0 := fun hzero =>
    h.ne_nil (List.eq_nil_of_length_eq_zero hzero)
  have hslice : bytes.slice? image.fileHeader.sectionTable
      (image.fileHeader.sectionCount * image.ident.size.sectionHeaderSize) =
        some (image.sections.flatMap (Section.encode image.ident)) :=
    Bytes.slice?_eq_some_iff.mpr ⟨length_flatMap_sectionEncode _ _, h.sectionTable⟩
  have hread : (sectionHeaders image.ident image.fileHeader.sectionCount).result
      (image.sections.flatMap (Section.encode image.ident)) = .ok image.headers := by
    have hrun := run_sectionHeaders_flatMap_encode hwell.sections []
    rw [List.append_nil] at hrun
    exact Reader.result_eq_ok_iff.mpr ⟨[], hrun⟩
  rw [sectionTable?, if_neg htable, if_neg hentry]
  simp only [if_neg hcount, Option.bind_eq_bind, Option.bind_some, hslice, hread]
  rfl

/-- The first section header can be read by itself. -/
theorem StoredIn.firstSection_eq
    (hwell : image.WellFormed) (h : image.StoredIn bytes) :
    firstSection? image.ident image.fileHeader bytes = image.headers.head? := by
  have hshape : ¬ (image.fileHeader.sectionTable = 0 ∨
      image.fileHeader.sectionEntrySize ≠ image.ident.size.sectionHeaderSize) := by
    rintro (hzero | hne)
    · exact hwell.sectionTable_ne hzero
    · exact hne rfl
  obtain ⟨back, hback⟩ := h.sectionTable.exists_drop_eq
  rw [firstSection?, if_neg hshape]
  change ((SectionHeader.reader image.ident).result (bytes.drop image.sectionTable)).toOption = _
  rw [hback, headers]
  rcases hsections : image.sections with _ | ⟨first, rest⟩
  · exact absurd hsections h.ne_nil
  · have hfirst := hwell.sections first (by rw [hsections]; exact List.mem_cons_self)
    rw [List.flatMap_cons, List.append_assoc, Reader.result, first.run_reader_encode hfirst]
    rfl

theorem StoredIn.programTableIntact
    (hwell : image.WellFormed) (h : image.StoredIn bytes) :
    ProgramTableIntact image.ident image.fileHeader bytes := by
  have hcount : programCount? image.ident image.fileHeader bytes = some image.programs := by
    rw [programCount?, h.firstSection_eq hwell, headers, List.head?_map]
    -- A number that has no room in the file header is in the first section header.
    by_cases hsmall : image.programs < FileHeader.elsewhere
    · rw [if_neg]
      · exact congrArg some (Nat.min_eq_left (Nat.le_of_lt hsmall))
      · simp only [Image.fileHeader]
        omega
    · obtain ⟨first, hfirst, hinfo⟩ := hwell.programs.resolve_left hsmall
      rw [if_pos]
      · rw [Option.mem_def.mp hfirst, ← hinfo]
        rfl
      · exact Nat.min_eq_right (Nat.not_lt.mp hsmall)
  refine Or.inr ⟨image.programs, hcount, ?_⟩
  rcases h.programTable with hnone | ⟨hentry, hend⟩
  · exact Or.inl hnone
  · refine Or.inr ⟨hentry, ?_⟩
    have hroom : image.fileHeader.programTable +
        image.programs * image.ident.size.programHeaderSize ≤ bytes.length := hentry ▸ hend
    rw [Bytes.slice?, if_pos hroom]
    rfl

theorem firstOfKind?_headers
    (hwell : image.WellFormed) {kind : Nat}
    (hkind : kind = SectionHeader.symbols ∨ kind = SectionHeader.dynamicSymbols) :
    firstOfKind? image.headers kind = none := by
  rw [firstOfKind?, List.findIdx?_eq_none_iff]
  intro header hheader
  obtain ⟨item, hitem, rfl⟩ := List.mem_map.mp hheader
  refine decide_eq_false fun hsame => (hwell.sections item hitem).not_isTable ?_
  rw [Section.IsTable, hsame]
  rcases hkind with rfl | rfl <;> decide

theorem symbolsIntact
    (hwell : image.WellFormed) (bytes : Bytes) :
    SymbolsIntact image.ident bytes image.headers := by
  constructor
  · intro index hindex
    rw [firstOfKind?_headers hwell (Or.inl rfl)] at hindex
    cases hindex
  · intro index hindex
    rw [firstOfKind?_headers hwell (Or.inr rfl)] at hindex
    cases hindex

theorem relocationsIntact
    (hwell : image.WellFormed) :
    RelocationsIntact image.headers := by
  intro header hheader hrelocations
  obtain ⟨item, hitem, rfl⟩ := List.mem_map.mp hheader
  refine absurd ?_ (hwell.sections item hitem).not_isTable
  rcases hrelocations with hkind | hkind
  · rw [Section.IsTable, hkind]
    decide
  · rw [Section.IsTable, hkind]
    decide

theorem StoredIn.exists_nameSection_eq
    (hwell : image.WellFormed) (h : image.StoredIn bytes) :
    ∃ table ∈ image.sections, nameSection? image.fileHeader image.headers = some table.header ∧
      table.InFile bytes ∧ ∀ item ∈ image.sections, item.NamedBy table.content := by
  obtain ⟨table, htable, hfile, hnames⟩ := h.names
  refine ⟨table, List.mem_of_getElem? htable, ?_, hfile, hnames⟩
  have hindex : image.fileHeader.nameIndex ≠ FileHeader.elsewhere := by
    have hlt := h.nameIndex_lt
    have hsections := hwell.length_sections
    simp only [Image.fileHeader, FileHeader.elsewhere]
    omega
  have hheader : image.headers[image.fileHeader.nameIndex]? = some table.header := by
    rw [headers, List.getElem?_map]
    exact congrArg (Option.map Section.header) htable
  -- The table is in the file, so its offset and size add up without leaving a word.
  have hfits : image.fileHeader.nameIndex ≠ 0 ∧ (table.header.kind = SectionHeader.noContent ∨
      FitsUnsigned (table.header.offset + table.header.size)) := by
    refine ⟨hwell.nameIndex_ne, hfile.imp_right fun hend => fitsUnsigned_iff.mpr ?_⟩
    have hlength := h.length_lt
    omega
  rw [nameSection?]
  simp only [if_neg hindex, Option.bind_eq_bind, Option.bind_some, hheader]
  exact if_pos hfits

/-- The file is read with the sections of the image, each under its name. -/
structure Reads (image : Image) (bytes : Bytes) (file : File) : Prop where
  ident : file.ident = image.ident
  bytes : file.bytes = bytes
  sections : file.sections = image.headers
  names : ∀ item ∈ image.sections, file.name? item.header = item.name

theorem StoredIn.exists_reads
    (hwell : image.WellFormed) (h : image.StoredIn bytes) :
    ∃ file, File.ofBytes? bytes = some file ∧ image.Reads bytes file := by
  obtain ⟨table, hmem, hname, hfile, hnames⟩ := h.exists_nameSection_eq hwell
  have hintact : ProgramTableIntact image.ident image.fileHeader bytes ∧
      SymbolsIntact image.ident bytes image.headers ∧ RelocationsIntact image.headers :=
    ⟨h.programTableIntact hwell, symbolsIntact hwell bytes, relocationsIntact hwell⟩
  have hne : image.headers ≠ [] := fun hnil => h.ne_nil (List.map_eq_nil_iff.mp hnil)
  refine ⟨{ ident := image.ident, bytes, sections := image.headers, names := some table.header },
    ?_, rfl, rfl, rfl, fun item hitem => ?_⟩
  · rw [File.ofBytes?, h.identification_eq hwell]
    simp only [Option.bind_eq_bind, Option.bind_some, h.fileHeader_eq hwell, Except.toOption,
      h.sectionTable_eq hwell, if_pos hintact, if_neg hne, hname]
    rfl
  · exact (hnames item hitem).name?_eq rfl ((h.sections table hmem).content?_of_inFile hfile)

theorem Reads.find?_eq
    {file : File} (h : image.Reads bytes file) (name : Bytes) :
    file.find? name = (image.first? name).map Section.header := by
  rw [File.find?, h.sections, headers, List.find?_map]
  refine congrArg _ (List.find?_congr fun item hitem => ?_)
  rw [Function.comp_apply, h.names item hitem]

theorem Reads.find?_of_isFirst
    {file : File} {name : Bytes} {item : Section} (h : image.Reads bytes file)
    (hfirst : image.IsFirst name item) :
    file.find? name = some item.header := by
  rw [h.find?_eq, first?_eq_some_iff.mpr hfirst]
  rfl

theorem Reads.find?_of_missing
    {file : File} {name : Bytes} (h : image.Reads bytes file)
    (hmissing : ∀ item ∈ image.sections, item.name ≠ some name) :
    file.find? name = none := by
  rw [h.find?_eq, first?_eq_none_iff.mpr hmissing]
  rfl

end Image

/-- This reader does what is relied on. -/
theorem reader_readsElf :
    ObjectReader.ReadsElf Elf.reader := by
  intro image bytes hwell hstored
  obtain ⟨file, hfile, hreads⟩ := hstored.exists_reads hwell
  refine ⟨file, fun item => (file, item.header), hfile, ?_⟩
  exact {
    isLittleEndian_iff := by
      rw [← hreads.ident]
      exact decide_eq_true_iff
    pieceByName?_of_isFirst := fun hfirst =>
      congrArg (Option.map (file, ·)) (hreads.find?_of_isFirst hfirst)
    pieceByName?_of_missing := fun hmissing =>
      congrArg (Option.map (file, ·)) (hreads.find?_of_missing hmissing)
    data?_of_noContent := fun _ hkind => if_pos hkind
    data?_of_content := fun {item} _ hkind => by
      change item.header.content? file.bytes = _
      rw [hreads.bytes]
      exact if_neg hkind }

end Elf

end CallFrame
