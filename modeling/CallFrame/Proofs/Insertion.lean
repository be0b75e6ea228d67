import CallFrame.Proofs.Growth
import CallFrame.Proofs.Relocation
import CallFrame.Proofs.Unwinding

/-!
# Lookups with unrelated records in between

Records that do not cover the address have no part in a lookup. Where they are put in front of
the frame description that the lookup finds, the search passes over them, finds the same frame
description further on, and has looked at as many records more. The common information entry is
read where it was, as long as it stands in front of what is put in.

What is put in may be read as records and nothing more: a common information entry among it need
not be one that can be understood. And nothing is asked of the bytes behind the frame description.
-/

namespace CallFrame

theorem Record.covers_relocate
    {record : Record} {distance : Nat} {pc : UInt64} :
    (record.relocate distance).Covers pc ↔ record.Covers pc := by
  cases record with
  | common offset =>
      rfl
  | frame description =>
      rfl

namespace Scan

theorem lt_of_firstCovering_eq_ok
    {pc : UInt64} {limit seen : Nat} {items : List (Except Fault Record)}
    {description : Description} (h : firstCovering pc limit seen items = .ok description) :
    seen < limit := by
  cases items with
  | nil =>
      cases h
  | cons item rest =>
      apply Nat.lt_of_not_le
      intro hlimit
      cases (if_pos hlimit).symm.trans h

/-- A search that goes through records and further items either finds one of the records, or
passes over all of them. -/
theorem firstCovering_append_eq_ok
    {pc : UInt64} {limit seen : Nat} {records : List Record}
    {items : List (Except Fault Record)} {description : Description}
    (h : firstCovering pc limit seen (records.map .ok ++ items) = .ok description) :
    .frame description ∈ records ∨
      ((∀ record ∈ records, ¬ record.Covers pc) ∧
        firstCovering pc limit (seen + records.length) items = .ok description) := by
  induction records generalizing seen with
  | nil =>
      exact Or.inr ⟨fun _ hmem => (nomatch hmem), h⟩
  | cons record rest ih =>
      have hseen := Nat.not_le_of_lt (lt_of_firstCovering_eq_ok h)
      by_cases hcovers : record.Covers pc
      · cases record with
        | common offset =>
            exact hcovers.elim
        | frame found =>
            have hfound :
                firstCovering pc limit seen ((Record.frame found :: rest).map .ok ++ items) =
                  .ok found :=
              (if_neg hseen).trans (if_pos hcovers)
            cases hfound.symm.trans h
            exact Or.inl List.mem_cons_self
      · have hskip : firstCovering pc limit seen ((record :: rest).map .ok ++ items) =
            firstCovering pc limit (seen + 1) (rest.map .ok ++ items) := by
          cases record with
          | common offset =>
              exact if_neg hseen
          | frame found =>
              exact (if_neg hseen).trans (if_neg hcovers)
        rcases ih (hskip.symm.trans h) with hmem | ⟨hrest, hitems⟩
        · exact Or.inl (List.mem_cons_of_mem record hmem)
        · refine Or.inr ⟨List.forall_mem_cons.mpr ⟨hcovers, hrest⟩, ?_⟩
          rw [List.length_cons, Nat.add_comm rest.length 1, ← Nat.add_assoc]
          exact hitems

theorem relocate_comm
    (first second : Nat) (item : Except Fault Record) :
    relocate first (relocate second item) = relocate second (relocate first item) := by
  have hadd : ∀ offset, offset + second + first = offset + first + second :=
    fun offset => Nat.add_right_comm offset second first
  rcases item with fault | record
  · cases fault with
    | _ =>
        simp only [relocate, Fault.relocate, hadd]
  · cases record with
    | _ =>
        simp only [relocate, Record.relocate, Description.relocate, hadd]

theorem map_relocate_comm
    (first second : Nat) (items : List (Except Fault Record)) :
    (items.map (relocate first)).map (relocate second) =
      (items.map (relocate second)).map (relocate first) := by
  rw [List.map_map, List.map_map]
  exact List.map_congr_left fun item _ => relocate_comm second first item

/-- A search that finds a frame description finds it in a section that begins further on, with
as many records more looked at before as the limit is higher. -/
theorem firstCovering_relocate
    {pc : UInt64} {limit seen : Nat} {items : List (Except Fault Record)}
    {description : Description} (h : firstCovering pc limit seen items = .ok description)
    (extra distance : Nat) :
    firstCovering pc (limit + extra) (seen + extra) (items.map (relocate distance)) =
      .ok (description.relocate distance) := by
  have hlimit : ∀ {seen : Nat}, ¬ limit ≤ seen → ¬ limit + extra ≤ seen + extra :=
    fun hseen hle => hseen (Nat.le_of_add_le_add_right hle)
  fun_induction firstCovering pc limit seen items with
  | case1 =>
      cases h
  | case2 =>
      cases h
  | case3 =>
      cases h
  | case4 seen rest hseen offset ih =>
      rw [← ih h, Nat.add_right_comm]
      exact if_neg (hlimit hseen)
  | case5 seen rest hseen found hcovers =>
      cases h
      exact (if_neg (hlimit hseen)).trans (if_pos hcovers)
  | case6 seen rest hseen found hcovers ih =>
      rw [← ih h, Nat.add_right_comm]
      exact (if_neg (hlimit hseen)).trans (if_neg hcovers)

end Scan

theorem Content.offset_lt_of_mem_records
    {order : ByteOrder} {offset : Nat} {contents : List Content} {description : Description}
    (h : .frame description ∈ records order offset contents) :
    description.offset < offset + (contents.flatMap (encode order)).length := by
  induction contents generalizing offset with
  | nil =>
      cases h
  | cons content rest ih =>
      rw [List.flatMap_cons, List.length_append, ← Nat.add_assoc]
      rcases List.mem_cons.mp h with hhead | htail
      · have hpos := List.length_pos_iff.mpr (encode_ne_nil order content)
        cases content with
        | common payload =>
            cases hhead
        | frame commonOffset start range instructions =>
            cases hhead
            change offset < _
            omega
      · exact ih htail

namespace DebugSections

def withFrames (sections : DebugSections) (frames : Bytes) : DebugSections :=
  { sections with frames }

variable {sections : DebugSections} {front between back : Bytes}
  {passed inserted : List Record} {pc : UInt64} {limit : Nat} {description : Description}

theorem find_insert
    (hfront : (sections.withFrames front).frameSection.records = passed.map .ok)
    (hbetween : (sections.withFrames between).frameSection.records = inserted.map .ok)
    (huncovered : ∀ record ∈ inserted, ¬ record.Covers pc)
    (hfind : (sections.withFrames (front ++ back)).frameSection.find pc limit = .ok description)
    (hbehind : front.length ≤ description.offset) :
    (sections.withFrames (front ++ between ++ back)).frameSection.find pc
        (limit + inserted.length) =
      .ok (description.relocate between.length) := by
  have hfrontItems : (Scan.start sections.order front).items = passed.map .ok := hfront
  have hbetweenItems : (Scan.start sections.order between).items = inserted.map .ok := hbetween
  change Scan.firstCovering pc limit 0 (Scan.start sections.order (front ++ back)).items = _
    at hfind
  change Scan.firstCovering pc (limit + inserted.length) 0
    (Scan.start sections.order (front ++ between ++ back)).items = _
  rw [Scan.items_append hfrontItems] at hfind
  rcases Scan.firstCovering_append_eq_ok hfind with hmem | ⟨hpassed, hback⟩
  · -- The frame description is none of those in front, which begin before it.
    obtain ⟨contents, -, rfl, rfl⟩ := Scan.exists_contents_of_items hfrontItems
    have hbefore := Content.offset_lt_of_mem_records hmem
    omega
  · have hlimit := Scan.lt_of_firstCovering_eq_ok hback
    have hmoved : ∀ record ∈ inserted.map (Record.relocate front.length), ¬ record.Covers pc := by
      intro record hrecord
      obtain ⟨original, horiginal, rfl⟩ := List.mem_map.mp hrecord
      rw [Record.covers_relocate]
      exact huncovered original horiginal
    have hitems : (Scan.start sections.order (front ++ between ++ back)).items =
        passed.map .ok ++ ((inserted.map (Record.relocate front.length)).map .ok ++
          ((Scan.start sections.order back).items.map (Scan.relocate front.length)).map
            (Scan.relocate between.length)) := by
      rw [List.append_assoc, Scan.items_append hfrontItems, Scan.items_append hbetweenItems,
        List.map_append, Scan.map_relocate_ok, Scan.map_relocate_comm]
    rw [hitems, Scan.firstCovering_append_of_not_covers hpassed (by omega),
      Scan.firstCovering_append_of_not_covers hmoved (by rw [List.length_map]; omega),
      List.length_map]
    exact Scan.firstCovering_relocate hback inserted.length between.length

/-- **Unrelated records** in front of the frame description that is found, and behind the common
information entry that it names, do not change the answer. -/
theorem frameAddress_insert
    {settings : Settings} {common : CommonEntry}
    (hfront : (sections.withFrames front).frameSection.records = passed.map .ok)
    (hbetween : (sections.withFrames between).frameSection.records = inserted.map .ok)
    (huncovered : ∀ record ∈ inserted, ¬ record.Covers pc)
    (hfind : (sections.withFrames (front ++ back)).frameSection.find pc settings.maxRecords =
      .ok description)
    (hbehind : front.length ≤ description.offset)
    (hcommon : (sections.withFrames front).frameSection.commonEntry description.commonOffset =
      .ok common) (sp : UInt64) :
    (sections.withFrames (front ++ between ++ back)).frameSection.find pc
        (settings.maxRecords + inserted.length) =
      .ok (description.relocate between.length) ∧
    (sections.withFrames (front ++ between ++ back)).frameAddress
        { settings with maxRecords := settings.maxRecords + inserted.length } pc sp =
      (sections.withFrames (front ++ back)).frameAddress settings pc sp := by
  have hinserted := find_insert hfront hbetween huncovered hfind hbehind
  -- The common information entry is read in front of all that may differ.
  have hgrow : ∀ more, (sections.withFrames (front ++ more)).frameSection.commonEntry
      description.commonOffset = .ok common := by
    intro more
    have hsettled : Settled ((sections.withFrames front).frameSection.commonEntry
        description.commonOffset) := by
      rw [hcommon]
      trivial
    exact (FrameSection.commonEntry_grow hsettled more).trans hcommon
  have hlonger := hgrow (between ++ back)
  rw [← List.append_assoc] at hlonger
  refine ⟨hinserted, ?_⟩
  have hanswer := @FrameSection.frameAddress_of_find _
    { settings with maxRecords := settings.maxRecords + inserted.length } pc
    (description.relocate between.length) common hinserted hlonger sp
  exact hanswer.trans (FrameSection.frameAddress_of_find hfind (hgrow back) sp).symm

def plainEntry : Bytes := [
  12, 0, 0, 0, 0xff, 0xff, 0xff, 0xff, 3, 0, 1, 0x78, 16, 0x0c, 7, 8]

/-- A common information entry of another version, and a frame description of other addresses. -/
def unrelatedEntries : Bytes := [
  5, 0, 0, 0, 0xff, 0xff, 0xff, 0xff, 9,
  20, 0, 0, 0, 16, 0, 0, 0, 0, 0x50, 0, 0, 0, 0, 0, 0, 16, 0, 0, 0, 0, 0, 0, 0]

/-- A frame description, and an entry that is too short. -/
def brokenEntries : Bytes := [
  0x17, 0, 0, 0, 0, 0, 0, 0, 0, 0x10, 0, 0, 0, 0, 0, 0, 2, 0, 0, 0, 0, 0, 0, 0, 0x41, 0x13, 0x7e,
  2, 0, 0, 0]

def otherFrame : Description where
  offset := 9
  commonOffset := 16
  start := 0x5000
  range := 16
  instructions := []

def foundFrame : Description where
  offset := 16
  commonOffset := 0
  start := 0x1000
  range := 2
  instructions := [0x41, 0x13, 0x7e]

def plainCommon : CommonEntry where
  codeFactor := 1
  dataFactor := -8
  returnRegister := 16
  cfaRegister := 7
  cfaOffset := 8
  returnOffset := none

def emptySections : DebugSections where
  order := .little
  abbreviations := []
  info := []
  strings := []
  frames := []

/-- The limits are exact: in both sections the frame description that is found is the last record
within them. -/
theorem frameAddress_insert_unrelatedEntries :
    (emptySections.withFrames unrelatedEntries).frameSection.records =
      [.ok (.common 0), .ok (.frame otherFrame)] ∧
    ¬ (Record.frame otherFrame).Covers 0x1001 ∧
    (emptySections.withFrames (plainEntry ++ brokenEntries)).frameSection.find 0x1001 2 =
      .ok foundFrame ∧
    (emptySections.withFrames (plainEntry ++ unrelatedEntries ++ brokenEntries)).frameSection.find
      0x1001 4 = .ok { foundFrame with offset := 49 } ∧
    (emptySections.withFrames (plainEntry ++ unrelatedEntries ++ brokenEntries)).frameAddress
      { maxRecords := 4 } 0x1001 0x100 = .ok 0x110 := by
  have hfront : (emptySections.withFrames plainEntry).frameSection.records =
      [Record.common 0].map .ok := by cbv
  have hbetween : (emptySections.withFrames unrelatedEntries).frameSection.records =
      [.common 0, .frame otherFrame].map .ok := by cbv
  have huncovered : ∀ record ∈ [Record.common 0, .frame otherFrame], ¬ record.Covers 0x1001 := by
    decide
  have hfind : (emptySections.withFrames (plainEntry ++ brokenEntries)).frameSection.find
      0x1001 2 = .ok foundFrame := by cbv
  have hcommon : (emptySections.withFrames plainEntry).frameSection.commonEntry 0 =
      .ok plainCommon := by cbv
  have hshorter : (emptySections.withFrames (plainEntry ++ brokenEntries)).frameAddress
      { maxRecords := 2 } 0x1001 0x100 = .ok 0x110 := by cbv
  obtain ⟨hfound, haddress⟩ := @frameAddress_insert emptySections plainEntry unrelatedEntries
    brokenEntries [.common 0] [.common 0, .frame otherFrame] 0x1001 foundFrame
    { maxRecords := 2 } plainCommon hfront hbetween huncovered hfind (by decide) hcommon 0x100
  refine ⟨hbetween, huncovered _ (by decide), hfind, hfound, ?_⟩
  exact haddress.trans hshorter

end DebugSections

end CallFrame
