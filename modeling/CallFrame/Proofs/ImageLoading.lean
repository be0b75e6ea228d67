import CallFrame.Proofs.ElfReading

/-!
# Loading the debug sections of an image

From a file that holds an image, each of the four debug sections is loaded as the content of the
first section of its name, in the byte order of the file. A section that the image does not have is
empty. The file is refused exactly if the first section of one of the four names reaches beyond the
end of the file; what other sections do, and later ones of the same name, makes no difference.

This holds for every reader of objects that reads ELF files as it should.
-/

namespace CallFrame

/-- The names of the debug sections. -/
def debugNames : List String :=
  [".debug_abbrev", ".debug_info", ".debug_str", ".debug_frame"]

namespace ObjectReader

open Elf

namespace Holds

variable {objects : ObjectReader} {image : Image} {bytes : Bytes} {object : objects.Object}
  {piece : Elf.Section → objects.Piece}

theorem order_eq
    (h : objects.Holds image bytes object piece) :
    (if objects.isLittleEndian object then .little else .big) = image.ident.order := by
  cases horder : image.ident.order with
  | little =>
      exact if_pos (h.isLittleEndian_iff.mpr horder)
  | big =>
      refine if_neg fun hlittle => ?_
      cases horder.symm.trans (h.isLittleEndian_iff.mp hlittle)

theorem data?_eq
    (h : objects.Holds image bytes object piece) {item : Elf.Section}
    (hitem : item ∈ image.sections) :
    objects.data? (piece item) = item.header.content? bytes := by
  rw [SectionHeader.content?]
  by_cases hkind : item.header.kind = SectionHeader.noContent
  · rw [if_pos hkind, h.data?_of_noContent hitem hkind]
  · rw [if_neg hkind, h.data?_of_content hitem hkind]

end Holds

end ObjectReader

namespace ObjectFile

open Elf

variable {objects : ObjectReader} {image : Image} {bytes : Bytes} {object : objects.Object}
  {piece : Elf.Section → objects.Piece} {name : String} {item : Elf.Section}

theorem content_of_isFirst
    (h : objects.Holds image bytes object piece) (hstored : image.StoredIn bytes)
    (hfirst : image.IsFirst (sectionName name) item) (hfile : item.InFile bytes) :
    content objects object name = .ok item.content := by
  have hitem := hfirst.mem
  have hdata := (h.data?_eq hitem).trans ((hstored.sections item hitem).content?_of_inFile hfile)
  simp only [content, h.pieceByName?_of_isFirst hfirst, hdata]

theorem content_of_not_inFile
    (h : objects.Holds image bytes object piece)
    (hfirst : image.IsFirst (sectionName name) item) (hcut : ¬ item.InFile bytes) :
    content objects object name = .error .damaged := by
  have hdata := (h.data?_eq hfirst.mem).trans (Elf.Section.content?_of_not_inFile hcut)
  simp only [content, h.pieceByName?_of_isFirst hfirst, hdata]

theorem content_of_missing
    (h : objects.Holds image bytes object piece)
    (hmissing : ∀ item ∈ image.sections, item.name ≠ some (sectionName name)) :
    content objects object name = .ok [] := by
  simp only [content, h.pieceByName?_of_missing hmissing]

/-- If the first section of a name is in the file, or there is none, its content is found. -/
theorem exists_provides
    (h : objects.Holds image bytes object piece) (hstored : image.StoredIn bytes)
    (hfile : ∀ item, image.IsFirst (sectionName name) item → item.InFile bytes) :
    ∃ data, content objects object name = .ok data ∧ image.Provides (sectionName name) data := by
  rcases hfound : image.first? (sectionName name) with _ | item
  · have hmissing := Image.first?_eq_none_iff.mp hfound
    exact ⟨[], content_of_missing h hmissing, .missing hmissing⟩
  · have hfirst := Image.first?_eq_some_iff.mp hfound
    exact ⟨_, content_of_isFirst h hstored hfirst (hfile item hfirst), .first hfirst⟩

/-- A file has sections to give when it is an object and all four contents are found. -/
theorem debugSections_eq_ok_iff
    {file : ObjectFile} {sections : DebugSections} :
    file.debugSections objects = .ok sections ↔
      ∃ object, objects.parse? file.bytes = some object ∧
        content objects object ".debug_abbrev" = .ok sections.abbreviations ∧
        content objects object ".debug_info" = .ok sections.info ∧
        content objects object ".debug_str" = .ok sections.strings ∧
        content objects object ".debug_frame" = .ok sections.frames ∧
        (if objects.isLittleEndian object then .little else .big) = sections.order := by
  rw [debugSections]
  rcases objects.parse? file.bytes with _ | object
  · exact iff_of_false nofun nofun
  · simp only [bind_eq_ok_iff, Option.some.injEq, exists_eq_left']
    constructor
    · rintro ⟨abbreviations, habbrev, info, hinfo, strings, hstr, frames, hframe, hsections⟩
      cases hsections
      exact ⟨habbrev, hinfo, hstr, hframe, rfl⟩
    · rintro ⟨habbrev, hinfo, hstr, hframe, horder⟩
      refine ⟨_, habbrev, _, hinfo, _, hstr, _, hframe, ?_⟩
      rw [horder]
      rfl

theorem eq_damaged_of_content
    {fault : FileFault} (h : content objects object name = .error fault) :
    fault = .damaged := by
  unfold content at h
  split at h
  · cases h
  · split at h
    · cases h
      rfl
    · cases h

/-- A file that was read is at worst damaged. -/
theorem eq_damaged_of_debugSections
    {file : ObjectFile} {fault : FileFault} (h : file.debugSections objects = .error fault) :
    fault = .damaged := by
  rw [debugSections] at h
  rcases hparse : objects.parse? file.bytes with _ | object
  · rw [hparse] at h
    cases h
    rfl
  · simp only [hparse, bind_eq_error_iff] at h
    rcases h with h | ⟨_, -, h | ⟨_, -, h | ⟨_, -, h | ⟨_, -, h⟩⟩⟩⟩
    · exact eq_damaged_of_content h
    · exact eq_damaged_of_content h
    · exact eq_damaged_of_content h
    · exact eq_damaged_of_content h
    · cases h

theorem debugSections_eq_damaged
    {file : ObjectFile} (hparse : objects.parse? file.bytes = some object)
    (hname : name ∈ debugNames) (hcontent : content objects object name = .error .damaged) :
    file.debugSections objects = .error .damaged := by
  rcases hresult : file.debugSections objects with fault | sections
  · rw [eq_damaged_of_debugSections hresult]
  · obtain ⟨other, hother, habbrev, hinfo, hstr, hframe, -⟩ := debugSections_eq_ok_iff.mp hresult
    obtain rfl := Option.some.inj (hparse.symm.trans hother)
    simp only [debugNames, List.mem_cons, List.not_mem_nil, or_false] at hname
    rcases hname with rfl | rfl | rfl | rfl
    · cases hcontent.symm.trans habbrev
    · cases hcontent.symm.trans hinfo
    · cases hcontent.symm.trans hstr
    · cases hcontent.symm.trans hframe

/-- **Loading an image.** From a file that holds a well-formed image, the debug sections are loaded
in the byte order of the image, each with the content of the first section of its name, if the file
has all of these sections. If it does not have all of one of them, it is refused. -/
theorem debugSections_stored
    (hobjects : objects.ReadsElf) (path : String) (hwell : image.WellFormed)
    (hstored : image.StoredIn bytes) :
    ((∀ name ∈ debugNames, ∀ item, image.IsFirst (sectionName name) item → item.InFile bytes) →
      ∃ sections, debugSections objects { path, bytes } = .ok sections ∧
        sections.order = image.ident.order ∧
        image.Provides (sectionName ".debug_abbrev") sections.abbreviations ∧
        image.Provides (sectionName ".debug_info") sections.info ∧
        image.Provides (sectionName ".debug_str") sections.strings ∧
        image.Provides (sectionName ".debug_frame") sections.frames) ∧
    (∀ name ∈ debugNames, ∀ item, image.IsFirst (sectionName name) item →
      item.header.kind ≠ SectionHeader.noContent →
      bytes.length < item.header.offset + item.header.size →
      debugSections objects { path, bytes } = .error .damaged) := by
  obtain ⟨object, piece, hparse, hholds⟩ := hobjects hwell hstored
  constructor
  · intro hall
    obtain ⟨abbreviations, habbrev, hfirst⟩ :=
      exists_provides hholds hstored (hall ".debug_abbrev" (by decide))
    obtain ⟨info, hinfo, hsecond⟩ :=
      exists_provides hholds hstored (hall ".debug_info" (by decide))
    obtain ⟨strings, hstr, hthird⟩ :=
      exists_provides hholds hstored (hall ".debug_str" (by decide))
    obtain ⟨frames, hframe, hfourth⟩ :=
      exists_provides hholds hstored (hall ".debug_frame" (by decide))
    refine ⟨⟨image.ident.order, abbreviations, info, strings, frames⟩, ?_, rfl, hfirst, hsecond,
      hthird, hfourth⟩
    exact debugSections_eq_ok_iff.mpr
      ⟨object, hparse, habbrev, hinfo, hstr, hframe, hholds.order_eq⟩
  · intro name hname item hfirst hkind hend
    have hcut : ¬ item.InFile bytes := not_or.mpr ⟨hkind, Nat.not_le.mpr hend⟩
    exact debugSections_eq_damaged hparse hname (content_of_not_inFile hholds hfirst hcut)

def crowdedNames : Bytes :=
  0 :: sectionName ".debug_abbrev" ++ 0 :: sectionName ".debug_info" ++
    0 :: sectionName ".debug_frame" ++ [0]

/-- The table of names, which has no name itself, holds the abbreviations in the middle of a name,
and the frame section begins with its last byte. There are no debugging entries, no texts, and
a second frame section that reaches far out of the file. -/
def crowdedImage : Image where
  ident := { size := .half, order := .big }
  padding := List.replicate 9 0
  kind := 2
  machine := 8
  version := 1
  entryPoint := 0
  flags := 0
  headerSize := 52
  programTable := 0
  programs := 0
  programEntrySize := 0
  sectionTable := 52
  nameIndex := 1
  sections := [
    Elf.Section.plain (some []) 0 0 0 0 [],
    Elf.Section.plain none 99 3 292 40 crowdedNames,
    Elf.Section.plain (some (sectionName ".debug_abbrev")) 1 1 294 5 (sectionName "debug"),
    Elf.Section.plain (some (sectionName ".debug_info")) 15 SectionHeader.noContent 400 7 [],
    Elf.Section.plain (some (sectionName ".debug_frame")) 27 1 331 2 [0, 0x10],
    Elf.Section.plain (some (sectionName ".debug_frame")) 27 1 331 0xffffffff []]

/-- The headers of the image, the names and the last byte of the frame section. -/
def crowdedFile : Bytes :=
  crowdedImage.head ++ crowdedNames ++ [0x10]

theorem crowdedImage_wellFormed :
    crowdedImage.WellFormed where
  length_padding := rfl
  length_sections := by decide
  sections := by decide +kernel
  nameIndex_ne := by decide
  sectionTable_ne := by decide
  sectionTable := by decide
  programTable := by decide
  programEntrySize := by decide
  programs := Or.inl (by decide)

/-- The image stands in the file, also if the file ends before the last byte. -/
theorem crowdedImage_storedIn :
    ∀ bytes ∈ [crowdedFile, crowdedFile.dropLast], crowdedImage.StoredIn bytes := by
  intro bytes hbytes
  exact {
    length_lt := by revert bytes; decide +kernel
    identification := by revert bytes; decide +kernel
    fileHeader := by revert bytes; decide +kernel
    sectionTable := by revert bytes; decide +kernel
    programTable := Or.inl rfl
    sections := by revert bytes; decide +kernel
    names := ⟨_, rfl, by revert bytes; decide +kernel, by decide +kernel⟩ }

/-- Sections are loaded from places that they share, and the file is refused without the last byte
of the frame section. -/
theorem debugSections_stored_crowded :
    debugSections Elf.reader ⟨"a.out", crowdedFile⟩ =
      .ok { order := .big, abbreviations := sectionName "debug", info := [], strings := [],
            frames := [0, 0x10] } ∧
    debugSections Elf.reader ⟨"a.out", crowdedFile.dropLast⟩ = .error .damaged := by
  have hwhole : ∀ name ∈ debugNames, ∀ item, crowdedImage.IsFirst (sectionName name) item →
      item.InFile crowdedFile := by
    have hfound : ∀ name ∈ debugNames, ∀ item ∈ crowdedImage.first? (sectionName name),
        item.InFile crowdedFile := by
      decide +kernel
    intro name hname item hfirst
    exact hfound name hname item (Image.first?_eq_some_iff.mpr hfirst)
  obtain ⟨hload, -⟩ := debugSections_stored Elf.reader_readsElf "a.out" crowdedImage_wellFormed
    (crowdedImage_storedIn crowdedFile (by simp))
  obtain ⟨-, hrefuse⟩ := debugSections_stored Elf.reader_readsElf "a.out" crowdedImage_wellFormed
    (crowdedImage_storedIn crowdedFile.dropLast (by simp))
  obtain ⟨⟨order, abbreviations, info, strings, frames⟩, hok, rfl, habbrev, hinfo, hstr, hframe⟩ :=
    hload hwhole
  constructor
  · obtain rfl := Image.provides_iff.mp habbrev
    obtain rfl := Image.provides_iff.mp hinfo
    obtain rfl := Image.provides_iff.mp hstr
    obtain rfl := Image.provides_iff.mp hframe
    rw [hok]
    decide +kernel
  · have hfirst : crowdedImage.IsFirst (sectionName ".debug_frame")
        (Elf.Section.plain (some (sectionName ".debug_frame")) 27 1 331 2 [0, 0x10]) :=
      Image.first?_eq_some_iff.mp (by rfl)
    exact hrefuse _ (by decide) _ hfirst (by decide) (by decide +kernel)

end ObjectFile

end CallFrame
