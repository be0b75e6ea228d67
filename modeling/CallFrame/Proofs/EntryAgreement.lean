import CallFrame.FrameSection
import CallFrame.Proofs.Relocation

/-!
# The scan and the reader of common information entries agree

An entry is read in two ways: the scan reads it in passing, and the reader of common
information entries goes to its offset. Wherever the scan has an item, the two say the same
about the entry: what the scan takes for a common information entry is read as one, what it
takes for a frame description is refused, and a fault in the frame of the entry is the same
fault in both.

So what a frame description refers to can be told from the scan, except for the payload of a
common information entry, which the scan passes over.
-/

namespace CallFrame

namespace Scan

/-- The scan has an item at an offset, now or after some of its items. -/
inductive Yields : Scan → Nat → Except Fault Record → Prop
  | now {scan behind : Scan} {item : Except Fault Record}
      (h : scan.next? = some (item, behind)) : Yields scan scan.offset item
  | later {scan behind : Scan} {first item : Except Fault Record} {offset : Nat}
      (h : scan.next? = some (first, behind)) (hlater : Yields behind offset item) :
      Yields scan offset item

/-- What is left of the section begins at the offset of the scan, or nothing is left. -/
def StandsIn (bytes : Bytes) (scan : Scan) : Prop :=
  scan.rest = [] ∨ scan.rest = bytes.drop scan.offset

theorem standsIn_start
    (order : ByteOrder) (bytes : Bytes) :
    (start order bytes).StandsIn bytes :=
  Or.inr rfl

/-- An item is what the record reader finds where the scan stands, and the scan goes on standing
in the section. -/
theorem StandsIn.next
    {bytes : Bytes} {scan behind : Scan} {item : Except Fault Record}
    (h : scan.StandsIn bytes) (hnext : scan.next? = some (item, behind)) :
    scan.offset ≤ bytes.length ∧
      (Record.reader scan.order scan.offset).result (bytes.drop scan.offset) = item ∧
      behind.order = scan.order ∧ behind.StandsIn bytes := by
  have hne : scan.rest ≠ [] := by
    intro hnil
    rw [next?_eq_none_iff.mpr hnil] at hnext
    cases hnext
  have hrest := h.resolve_left hne
  have hoffset : scan.offset ≤ bytes.length := by
    apply Nat.le_of_not_le
    intro hover
    exact hne (hrest.trans (List.drop_of_length_le hover))
  rw [next?, if_neg hne] at hnext
  rcases hrun : (Record.reader scan.order scan.offset).run scan.rest with ⟨fault | record, rest⟩
  · simp only [hrun] at hnext
    cases hnext
    refine ⟨hoffset, ?_, rfl, Or.inl rfl⟩
    rw [← hrest, Reader.result, hrun]
  · simp only [hrun] at hnext
    cases hnext
    refine ⟨hoffset, ?_, rfl, Or.inr ?_⟩
    · rw [← hrest, Reader.result, hrun]
    · -- The bytes that were read are those in front of the rest.
      have hsuffix := (Record.reader scan.order scan.offset).run_suffix scan.rest
      rw [hrun] at hsuffix
      change rest = bytes.drop (scan.offset + (scan.rest.length - rest.length))
      rw [← List.drop_drop, ← hrest]
      exact List.suffix_iff_eq_drop.mp hsuffix

theorem Yields.result_reader
    {bytes : Bytes} {scan : Scan} {offset : Nat} {item : Except Fault Record}
    (h : scan.Yields offset item) (hstands : scan.StandsIn bytes) :
    offset ≤ bytes.length ∧
      (Record.reader scan.order offset).result (bytes.drop offset) = item := by
  induction h with
  | now hnext =>
      obtain ⟨hoffset, hitem, -, -⟩ := hstands.next hnext
      exact ⟨hoffset, hitem⟩
  | later hnext hlater ih =>
      obtain ⟨-, -, horder, hbehind⟩ := hstands.next hnext
      rw [← horder]
      exact ih hbehind

end Scan

namespace FrameSection

/-- What the reader of common information entries says at an offset, where the scan has the
given item. -/
inductive ReadAlike (frames : FrameSection) (offset : UInt32) :
    Except Fault Record → Except Fault CommonEntry → Prop
  /-- What is said of a common information entry is what its own payload says, and the payload
  can only have faults of its own. -/
  | common {payload rest : Bytes}
      (hbytes : frames.bytes.drop offset.toNat =
        (Content.common payload).encode frames.order ++ rest)
      (hfault : ∀ fault, (CommonEntry.content frames.order).result payload = .error fault →
        fault.IsOfContent) :
      ReadAlike frames offset (.ok (.common offset.toNat))
        ((CommonEntry.content frames.order).result payload)
  | frame (description : Description) :
      ReadAlike frames offset (.ok (.frame description)) (.error (.notCommonEntry offset))
  | short (length : UInt32) :
      ReadAlike frames offset (.error (.descriptionTooShort offset.toNat length))
        (.error (.notCommonEntry offset))
  | framing {fault : Fault} (h : fault.IsOfFraming) :
      ReadAlike frames offset (.error fault) (.error fault)

theorem commonEntry_eq_bind
    {frames : FrameSection} {offset : UInt32} (h : offset.toNat ≤ frames.bytes.length) :
    frames.commonEntry offset =
      (Entry.reader frames.order offset.toNat).result (frames.bytes.drop offset.toNat) >>=
        fun entry =>
          if entry.marker = commonMarker then
            (CommonEntry.content frames.order).result entry.payload
          else .error (.notCommonEntry offset) := by
  have hskip : (Reader.skip offset.toNat).run frames.bytes =
      (.ok (), frames.bytes.drop offset.toNat) :=
    Reader.run_bind_ok (Reader.run_take_of_le h) _
  have hnext : (fun entry : Entry =>
      if entry.marker = commonMarker then
        Reader.ofExcept ((CommonEntry.content frames.order).result entry.payload)
      else Reader.fail (.notCommonEntry offset)) =
      fun entry => Reader.ofExcept
        (if entry.marker = commonMarker then
          (CommonEntry.content frames.order).result entry.payload
        else .error (.notCommonEntry offset)) := by
    funext entry
    split
    · rfl
    · rfl
  rw [commonEntry, Reader.result, CommonEntry.reader, Reader.run_bind_ok hskip, hnext]
  exact Reader.result_bind_ofExcept _ _ _

/-- **The two readers agree** wherever the scan has an item. -/
theorem readAlike_of_yields
    {frames : FrameSection} {offset : UInt32} {item : Except Fault Record}
    (h : (Scan.start frames.order frames.bytes).Yields offset.toNat item) :
    frames.ReadAlike offset item (frames.commonEntry offset) := by
  obtain ⟨hoffset, hitem⟩ := h.result_reader (Scan.standsIn_start frames.order frames.bytes)
  subst hitem
  rw [commonEntry_eq_bind hoffset]
  change frames.ReadAlike offset ((Record.reader frames.order offset.toNat).result _) _
  rw [Record.reader, Reader.result_bind_ofExcept]
  rcases hentry : (Entry.reader frames.order offset.toNat).result
    (frames.bytes.drop offset.toNat) with fault | entry
  · exact ReadAlike.framing (Entry.failsWith_reader frames.order _ _ fault hentry)
  · change frames.ReadAlike offset (Record.ofEntry frames.order offset.toNat entry)
      (if entry.marker = commonMarker then
        (CommonEntry.content frames.order).result entry.payload
      else .error (.notCommonEntry offset))
    obtain ⟨rest, hrun⟩ := Reader.result_eq_ok_iff.mp hentry
    obtain ⟨hwide, hbytes⟩ := Entry.run_reader_eq_ok_iff.mp hrun
    by_cases hmarker : entry.marker = commonMarker
    · rw [if_pos hmarker, Record.ofEntry, if_pos hmarker]
      have hpayload : frames.bytes.drop offset.toNat =
          (Content.common entry.payload).encode frames.order ++ rest := by
        rw [hbytes, Content.encode, Content.entry, ← hmarker]
      exact ReadAlike.common hpayload (CommonEntry.failsWith_content frames.order entry.payload)
    · rw [if_neg hmarker]
      by_cases hlong : Description.minLength ≤ entry.length
      · obtain ⟨content, hwritable, rfl⟩ :=
          Content.exists_entry_eq_of_le frames.order hwide (Or.inr hlong)
        rw [Content.ofEntry_entry hwritable]
        cases content with
        | common payload =>
            exact absurd rfl hmarker
        | frame commonOffset start range instructions =>
            exact ReadAlike.frame _
      · rw [Record.ofEntry_of_short hmarker (Nat.not_le.mp hlong)]
        exact ReadAlike.short _

/-- A common information entry of another version, a frame description, and an entry that is cut
off. -/
def mixedEntries : FrameSection where
  order := .little
  bytes := [
    8, 0, 0, 0, 0xff, 0xff, 0xff, 0xff, 4, 0, 1, 0x78,
    20, 0, 0, 0, 0, 0, 0, 0, 0, 0x10, 0, 0, 0, 0, 0, 0, 16, 0, 0, 0, 0, 0, 0, 0,
    5, 0, 0, 0, 0]

/-- The version is a fault for the reader alone, the cut one for both. -/
theorem readAlike_of_yields_mixedEntries :
    (Scan.start .little mixedEntries.bytes).Yields 0 (.ok (.common 0)) ∧
    mixedEntries.ReadAlike 0 (.ok (.common 0)) (.error (.unsupportedVersion 4)) ∧
    (Scan.start .little mixedEntries.bytes).Yields 36 (.error (.outOfBytes 5 1)) ∧
    mixedEntries.ReadAlike 36 (.error (.outOfBytes 5 1)) (.error (.outOfBytes 5 1)) := by
  have hfirst : (Scan.start .little mixedEntries.bytes).Yields 0 (.ok (.common 0)) :=
    Scan.Yields.now rfl
  have hlast : (Scan.start .little mixedEntries.bytes).Yields 36 (.error (.outOfBytes 5 1)) :=
    Scan.Yields.later rfl (Scan.Yields.later rfl (Scan.Yields.now rfl))
  have hversion : mixedEntries.commonEntry 0 = .error (.unsupportedVersion 4) := by cbv
  have hend : mixedEntries.commonEntry 36 = .error (.outOfBytes 5 1) := by cbv
  refine ⟨hfirst, ?_, hlast, ?_⟩
  · rw [← hversion]
    exact @readAlike_of_yields mixedEntries 0 _ hfirst
  · rw [← hend]
    exact @readAlike_of_yields mixedEntries 36 _ hlast

end FrameSection

end CallFrame
