import CallFrame.DebugSections
import CallFrame.Proofs.FrameTable
import CallFrame.Proofs.ScanContents

/-!
# Unwinding through a written table

A section that was written from a well formed table is unwound as the table says. The search
ends at the first frame description of the table that covers the program counter, and the
frame address is the stack pointer plus the offset of the last row that begins at the program
counter or before. Only an address that no frame description covers has no frame address.
-/

namespace CallFrame

namespace Scan

/-- Records that do not cover the address are passed over within the limit. -/
theorem firstCovering_append_of_not_covers
    {pc : UInt64} {limit seen : Nat} {before : List Record}
    (h : ∀ record ∈ before, ¬ record.Covers pc) (hlimit : seen + before.length ≤ limit)
    (items : List (Except Fault Record)) :
    firstCovering pc limit seen (before.map .ok ++ items) =
      firstCovering pc limit (seen + before.length) items := by
  induction before generalizing seen with
  | nil =>
      rfl
  | cons record rest ih =>
      rw [List.length_cons] at hlimit
      have hseen : ¬ limit ≤ seen := by omega
      have hrest : firstCovering pc limit (seen + 1) (rest.map .ok ++ items) =
          firstCovering pc limit (seen + 1 + rest.length) items :=
        ih (fun other hother => h other (List.mem_cons_of_mem record hother)) (by omega)
      rw [List.length_cons, Nat.add_comm rest.length 1, ← Nat.add_assoc, ← hrest]
      cases record with
      | common offset =>
          exact if_neg hseen
      | frame description =>
          have hcovers := h (.frame description) List.mem_cons_self
          exact (if_neg hseen).trans (if_neg hcovers)

theorem firstCovering_of_not_covers
    {pc : UInt64} {limit : Nat} {records : List Record}
    (h : ∀ record ∈ records, ¬ record.Covers pc) (hlimit : records.length ≤ limit) :
    firstCovering pc limit 0 (records.map .ok) = .error (.uncovered pc) := by
  have hlimit : 0 + records.length ≤ limit := by omega
  have happend := firstCovering_append_of_not_covers h hlimit []
  rw [List.append_nil] at happend
  exact happend

/-- A search finds the first record that covers the address. -/
theorem firstCovering_of_covers
    {pc : UInt64} {limit : Nat} {before : List Record} {description : Description}
    (h : ∀ record ∈ before, ¬ record.Covers pc) (hlimit : before.length < limit)
    (hcovers : description.Covers pc) (items : List (Except Fault Record)) :
    firstCovering pc limit 0 (before.map .ok ++ .ok (.frame description) :: items) =
      .ok description := by
  have hseen : ¬ limit ≤ 0 + before.length := by omega
  rw [firstCovering_append_of_not_covers h (by omega)]
  exact (if_neg hseen).trans (if_pos hcovers)

end Scan

/-- A lookup that finds a description and reads its common information entry is answered by the
row in effect. -/
theorem FrameSection.frameAddress_of_find
    {frames : FrameSection} {settings : Settings} {pc : UInt64} {description : Description}
    {common : CommonEntry} (hfind : frames.find pc settings.maxRecords = .ok description)
    (hcommon : frames.commonEntry description.commonOffset = .ok common) (sp : UInt64) :
    frames.frameAddress settings pc sp =
      description.frameAddress frames.order settings.offsetTiming common pc sp := by
  rw [frameAddress, hfind]
  change (frames.commonEntry description.commonOffset >>= _) = _
  rw [hcommon]
  rfl

namespace Content

@[simp] theorem length_records
    (order : ByteOrder) (offset : Nat) (contents : List Content) :
    (records order offset contents).length = contents.length := by
  induction contents generalizing offset with
  | nil =>
      rfl
  | cons content rest ih =>
      rw [records, List.length_cons, ih, List.length_cons]

theorem exists_of_mem_records
    {order : ByteOrder} {offset : Nat} {contents : List Content} {record : Record}
    (h : record ∈ records order offset contents) :
    ∃ content ∈ contents, ∃ place, record = content.record place := by
  induction contents generalizing offset with
  | nil =>
      cases h
  | cons content rest ih =>
      rcases List.mem_cons.mp h with rfl | h
      · exact ⟨content, List.mem_cons_self, offset, rfl⟩
      · obtain ⟨other, hother, hplace⟩ := ih h
        exact ⟨other, List.mem_cons_of_mem content hother, hplace⟩

theorem records_append
    (order : ByteOrder) (offset : Nat) (front back : List Content) :
    records order offset (front ++ back) =
      records order offset front ++
        records order (offset + (front.flatMap (encode order)).length) back := by
  induction front generalizing offset with
  | nil =>
      rfl
  | cons content rest ih =>
      rw [List.cons_append, records, records, ih, List.cons_append, List.flatMap_cons,
        List.length_append, Nat.add_assoc]

end Content

namespace FrameTable

variable {order : ByteOrder} {table : FrameTable}

def toSection (order : ByteOrder) (table : FrameTable) : FrameSection where
  order := order
  bytes := table.encode order

theorem WellFormed.records_toSection
    (h : table.WellFormed order) :
    (table.toSection order).records =
      (Content.records order 0 (table.map (table.contentOf order))).map .ok := by
  have hwritable : ∀ content ∈ table.map (table.contentOf order), content.Writable order := by
    intro content hcontent
    obtain ⟨item, hitem, rfl⟩ := List.mem_map.mp hcontent
    exact h.writable_contentOf hitem
  exact Content.items_flatMap_encode hwritable

theorem not_covers_of_mem_records
    {pc : UInt64} {offset : Nat} {items : List Item} (h : ∀ item ∈ items, ¬ item.Covers pc) :
    ∀ record ∈ Content.records order offset (items.map (table.contentOf order)),
      ¬ record.Covers pc := by
  intro record hrecord
  obtain ⟨content, hcontent, place, rfl⟩ := Content.exists_of_mem_records hrecord
  obtain ⟨item, hitem, rfl⟩ := List.mem_map.mp hcontent
  intro hcovers
  exact h item hitem ((Item.covers_record_content order _ place pc item).mp hcovers)

theorem WellFormed.find_of_not_covers
    (h : table.WellFormed order) {limit : Nat} (hlimit : table.length ≤ limit) {pc : UInt64}
    (hnone : ∀ item ∈ table, ¬ item.Covers pc) :
    (table.toSection order).find pc limit = .error (.uncovered pc) := by
  have hlength : (Content.records order 0 (table.map (table.contentOf order))).length ≤
      limit := by
    simpa using hlimit
  rw [FrameSection.find, h.records_toSection]
  exact Scan.firstCovering_of_not_covers (not_covers_of_mem_records hnone) hlength

/-- An address is found in the first frame description of the table that covers it. -/
theorem WellFormed.find_of_covers
    (h : table.WellFormed order) {limit : Nat} (hlimit : table.length ≤ limit) {pc : UInt64}
    {before after : List Item} {frame : Frame}
    (htable : table = before ++ .frame frame :: after)
    (hbefore : ∀ item ∈ before, ¬ item.Covers pc) (hcovers : frame.Covers pc) :
    ∃ offset, (table.toSection order).find pc limit = .ok (frame.description order offset
      (UInt32.ofNat (table.offsetOf order frame.commonIndex))) := by
  have hmap : table.map (table.contentOf order) =
      before.map (table.contentOf order) ++
        table.contentOf order (.frame frame) :: after.map (table.contentOf order) := by
    rw [← List.map_cons, ← List.map_append, ← htable]
  have hlength : (Content.records order 0 (before.map (table.contentOf order))).length <
      limit := by
    rw [Content.length_records, List.length_map]
    rw [htable, List.length_append, List.length_cons] at hlimit
    omega
  rw [FrameSection.find, h.records_toSection, hmap, Content.records_append, List.map_append,
    Content.records, List.map_cons]
  refine ⟨_, Scan.firstCovering_of_covers (not_covers_of_mem_records hbefore) hlength ?_ _⟩
  exact hcovers

/-- The common information entry at a place of the table is read at the offset of the place. -/
theorem WellFormed.commonEntry_eq
    (h : table.WellFormed order) {index : Nat} {common : Common}
    (hcommon : table[index]? = some (.common common)) :
    (table.toSection order).commonEntry (UInt32.ofNat (table.offsetOf order index)) =
      .ok common.entry := by
  have hmem := List.mem_of_getElem? hcommon
  obtain ⟨front, rest, hencode, hfront⟩ := exists_encode_eq order hcommon
  have hoffset := (h.toNat_offsetOf hcommon).1
  rw [FrameSection.commonEntry, toSection, hencode]
  exact (CommonEntry.result_reader_of_written (hfront.trans hoffset.symm)
    (h.writable_contentOf hmem) rest).trans
      (Common.result_content_payload (h.common common hmem) order)

/-- The section of a well formed table is unwound as the table says. -/
theorem frameAddress_of_written
    {sections : DebugSections} (h : table.WellFormed sections.order)
    (hsections : sections.frames = table.encode sections.order)
    {settings : Settings} (htiming : settings.offsetTiming = .inRow)
    (hlimit : table.length ≤ settings.maxRecords) (pc sp : UInt64) :
    ((∀ item ∈ table, ¬ item.Covers pc) →
      sections.frameAddress settings pc sp = .error (.uncovered pc)) ∧
    (∀ before frame after, table = before ++ .frame frame :: after →
      (∀ item ∈ before, ¬ item.Covers pc) → frame.Covers pc →
      ∃ common, table[frame.commonIndex]? = some (.common common) ∧
        sections.frameAddress settings pc sp =
          .ok (UInt64.ofInt (sp.toNat + frame.cfaOffset common pc))) := by
  have hsection : sections.frameSection = table.toSection sections.order := by
    rw [DebugSections.frameSection, hsections, toSection]
  rw [DebugSections.frameAddress, hsection]
  constructor
  · intro hnone
    rw [FrameSection.frameAddress, h.find_of_not_covers hlimit hnone]
    rfl
  · intro before frame after htable hbefore hcovers
    obtain ⟨common, hcommon, hframe⟩ := h.frame frame (by simp [htable])
    obtain ⟨offset, hfind⟩ := h.find_of_covers hlimit htable hbefore hcovers
    refine ⟨common, hcommon, ?_⟩
    rw [FrameSection.frameAddress_of_find hfind (h.commonEntry_eq hcommon), htiming]
    exact Frame.frameAddress_description (h.common common (List.mem_of_getElem? hcommon)) hframe
      sections.order offset _ pc sp

/-- A table whose second frame description names the entry behind it. -/
def forwardTable : FrameTable := [
  .common {
    codeFactor := 1
    dataFactor := -4
    returnRegister := 8
    instructions := [.defineCfa 4 4] },
  .frame {
    commonIndex := 0
    start := 0x2000
    range := 0x10
    instructions := [] },
  .frame {
    commonIndex := 3
    start := 0x1000
    range := 0x1000
    instructions := [
      .advance 1, .defineCfaOffset (-2), .advanceHalf 300, .defineCfaOffset (-4)] },
  .common {
    codeFactor := 4
    dataFactor := -8
    returnRegister := 16
    instructions := [.defineCfa 7 8, .saved 16 1, .nop] }]

theorem wellFormed_forwardTable :
    forwardTable.WellFormed .big where
  length_lt := by
    decide +kernel
  common := by
    intro common hmem
    simp only [forwardTable, List.mem_cons, List.not_mem_nil, or_false, Item.common.injEq,
      reduceCtorEq, false_or] at hmem
    rcases hmem with rfl | rfl
    · exact ⟨by decide, by simp [Instruction.IsInitial]⟩
    · refine ⟨by decide, ?_⟩
      simp only [List.forall_mem_cons]
      exact ⟨trivial, rfl, trivial, by simp⟩
  frame := by
    intro frame hmem
    simp only [forwardTable, List.mem_cons, List.not_mem_nil, or_false, Item.frame.injEq,
      reduceCtorEq, false_or] at hmem
    rcases hmem with rfl | rfl
    · refine ⟨_, rfl, ?_, ?_⟩
      · simp
      · simp [Frame.rows, ExactRow.table]
    · refine ⟨_, rfl, ?_, ?_⟩
      · simp [Instruction.IsRunnable, Instruction.delta?]
      · simp [Frame.rows, ExactRow.table, ExactRow.redefine, Instruction.delta?]

/-- The table, with the most significant byte of a field first. -/
def forwardSections : DebugSections where
  order := .big
  abbreviations := []
  info := []
  strings := []
  frames := forwardTable.encode .big

/-- The frame address wraps around at the second row of the second frame description, and behind
the first frame description there is none. -/
theorem frameAddress_forwardSections :
    forwardTable.WellFormed .big ∧ forwardTable.length ≤ 4 ∧
    forwardSections.frameAddress { maxRecords := 4 } 0x1004 0xfffffffffffffff8 = .ok 8 ∧
    forwardSections.frameAddress { maxRecords := 4 } 0x2010 0xfffffffffffffff8 =
      .error (.uncovered 0x2010) := by
  have hlookup := fun pc => @frameAddress_of_written forwardTable forwardSections
    wellFormed_forwardTable rfl { maxRecords := 4 } rfl (by decide) pc 0xfffffffffffffff8
  refine ⟨wellFormed_forwardTable, by decide, ?_, ?_⟩
  · obtain ⟨common, hcommon, haddress⟩ := (hlookup 0x1004).2 (forwardTable.take 2) _
      (forwardTable.drop 3) rfl (by simp [forwardTable, Item.Covers, Frame.Covers])
      ⟨by decide, by decide⟩
    cases hcommon
    exact haddress
  · exact (hlookup 0x2010).1 (by simp [forwardTable, Item.Covers, Frame.Covers])

end FrameTable

end CallFrame
