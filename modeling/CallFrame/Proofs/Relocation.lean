import CallFrame.Proofs.ReaderFaults
import CallFrame.Proofs.ScanContents

/-!
# Records at another place of the section

What is written behind other records is read as it is read alone, except for the offsets: the
records begin further on by the size of what stands before them, and so do the places that the
faults of the scan name. Nothing else in a record or in a fault depends on its place.

So scanning written contents gives these contents, each at the total size of those before it,
and scanning them with any bytes behind gives the same and then the scan of these bytes, moved.
-/

namespace CallFrame

/-- The fault of a scan, where the section begins further on. Only the faults that name the
offset of an entry depend on it. -/
def Fault.relocate (distance : Nat) : Fault → Fault
  | .wideFormat offset => .wideFormat (offset + distance)
  | .entryTooShort offset length => .entryTooShort (offset + distance) length
  | .descriptionTooShort offset length => .descriptionTooShort (offset + distance) length
  | fault => fault

def Description.relocate (distance : Nat) (description : Description) : Description :=
  { description with offset := description.offset + distance }

def Record.relocate (distance : Nat) : Record → Record
  | .common offset => .common (offset + distance)
  | .frame description => .frame (description.relocate distance)

def Scan.relocate (distance : Nat) : Except Fault Record → Except Fault Record
  | .ok record => .ok (record.relocate distance)
  | .error fault => .error (fault.relocate distance)

namespace Reader

variable {α β : Type} {f : Fault → Fault}

def mapFault (f : Fault → Fault) (reader : Reader α) : Reader α where
  run bytes := ((reader.run bytes).1.mapError f, (reader.run bytes).2)
  run_suffix := reader.run_suffix

@[simp] theorem run_mapFault
    (reader : Reader α) (bytes : Bytes) :
    (reader.mapFault f).run bytes =
      ((reader.run bytes).1.mapError f, (reader.run bytes).2) :=
  rfl

theorem mapFault_eq_self
    {reader : Reader α} (h : reader.FailsWith fun fault => f fault = fault) :
    reader.mapFault f = reader := by
  ext bytes : 1
  rcases hrun : reader.run bytes with ⟨fault | a, rest⟩
  · have hfault : f fault = fault := h bytes fault (congrArg Prod.fst hrun)
    rw [run_mapFault, hrun]
    exact congrArg (fun other => (Except.error other, rest)) hfault
  · rw [run_mapFault, hrun]
    rfl

theorem mapFault_ofExcept
    (outcome : Except Fault α) :
    (ofExcept outcome).mapFault f = ofExcept (outcome.mapError f) :=
  rfl

theorem mapFault_bind
    (first : Reader α) (next : α → Reader β) :
    (first >>= next).mapFault f = first.mapFault f >>= fun a => (next a).mapFault f := by
  ext bytes : 1
  simp only [run_mapFault, run_bind]
  rcases first.run bytes with ⟨fault | a, rest⟩
  · rfl
  · rfl

theorem result_bind_ofExcept
    (first : Reader α) (next : α → Except Fault β) (bytes : Bytes) :
    (first >>= fun a => ofExcept (next a)).result bytes = first.result bytes >>= next := by
  rw [result, result, run_bind]
  rcases first.run bytes with ⟨fault | a, rest⟩
  · rfl
  · rfl

end Reader

namespace Entry

theorem checkLength_add
    (offset distance : Nat) (length : UInt32) :
    checkLength (offset + distance) length =
      (checkLength offset length).mapError (Fault.relocate distance) := by
  unfold checkLength
  split
  · rfl
  · split
    · rfl
    · rfl

/-- The offset of an entry only serves to name faults. -/
theorem reader_add
    (order : ByteOrder) (offset distance : Nat) :
    reader order (offset + distance) =
      (reader order offset).mapFault (Fault.relocate distance) := by
  have hfield : (Reader.u32 order).FailsWith fun fault => fault.relocate distance = fault :=
    Reader.failsWith_u32 fun _ _ => rfl
  rw [reader, reader, Reader.mapFault_bind, Reader.mapFault_eq_self hfield]
  congr 1
  funext length
  have hinside : (Reader.inside length.toNat (body order)).FailsWith
      fun fault => fault.relocate distance = fault :=
    Reader.failsWith_inside (fun _ _ => rfl) (failsWith_body fun _ _ => rfl)
  rw [Reader.mapFault_bind, Reader.mapFault_ofExcept, ← checkLength_add,
    Reader.mapFault_eq_self hinside]

end Entry

namespace Content

variable {order : ByteOrder}

/-- A content of which each number and each length has room in its field. -/
def IsStorable : Content → Prop
  | .common payload => payload.length ≤ 0xfffffffe - 4
  | .frame commonOffset _ _ instructions =>
      commonOffset ≠ 0xffffffff ∧ instructions.length ≤ 0xfffffffe - 20

theorem writable_iff_isStorable
    {content : Content} :
    content.Writable order ↔ content.IsStorable := by
  have hwide : wideLength.toNat = 0xffffffff := rfl
  cases content with
  | common payload =>
      simp only [Writable, IsStorable, entry, Entry.length, and_true]
      omega
  | frame commonOffset start range instructions =>
      simp only [Writable, IsStorable, entry, Entry.length, List.length_append,
        ByteOrder.length_digits, commonMarker]
      rw [and_comm]
      exact and_congr_right fun _ => by omega

theorem record_add
    (content : Content) (offset distance : Nat) :
    content.record (offset + distance) = (content.record offset).relocate distance := by
  cases content with
  | common payload =>
      rfl
  | frame commonOffset start range instructions =>
      rfl

theorem records_add
    (offset distance : Nat) (contents : List Content) :
    records order (offset + distance) contents =
      (records order offset contents).map (Record.relocate distance) := by
  induction contents generalizing offset with
  | nil =>
      rfl
  | cons content rest ih =>
      rw [records, records, List.map_cons, record_add, Nat.add_right_comm, ih]

theorem getElem?_records
    (offset : Nat) (contents : List Content) (index : Nat) :
    (records order offset contents)[index]? =
      contents[index]?.map
        (record (offset + ((contents.take index).flatMap (encode order)).length)) := by
  induction contents generalizing offset index with
  | nil =>
      rfl
  | cons content rest ih =>
      cases index with
      | zero =>
          rfl
      | succ index =>
          rw [records, List.getElem?_cons_succ, ih, List.getElem?_cons_succ, List.take_succ_cons,
            List.flatMap_cons, List.length_append, Nat.add_assoc]

end Content

namespace Record

theorem ofEntry_add
    {order : ByteOrder} {entry : Entry} (hwide : entry.length < wideLength.toNat)
    (offset distance : Nat) :
    ofEntry order (offset + distance) entry =
      Scan.relocate distance (ofEntry order offset entry) := by
  by_cases hlong : entry.marker = commonMarker ∨ Description.minLength ≤ entry.length
  · obtain ⟨content, hwritable, rfl⟩ := Content.exists_entry_eq_of_le order hwide hlong
    rw [Content.ofEntry_entry hwritable, Content.ofEntry_entry hwritable, Content.record_add]
    rfl
  · obtain ⟨hmarker, hshort⟩ := not_or.mp hlong
    rw [ofEntry_of_short hmarker (Nat.not_le.mp hshort),
      ofEntry_of_short hmarker (Nat.not_le.mp hshort)]
    rfl

theorem result_reader_add
    (order : ByteOrder) (offset distance : Nat) (bytes : Bytes) :
    (reader order (offset + distance)).result bytes =
      Scan.relocate distance ((reader order offset).result bytes) := by
  rw [reader, reader, Reader.result_bind_ofExcept, Reader.result_bind_ofExcept,
    Entry.reader_add]
  change ((Entry.reader order offset).result bytes).mapError _ >>= _ = _
  rcases hentry : (Entry.reader order offset).result bytes with fault | entry
  · rfl
  · obtain ⟨rest, hrun⟩ := Reader.result_eq_ok_iff.mp hentry
    exact ofEntry_add (Entry.run_reader_eq_ok_iff.mp hrun).1 offset distance

end Record

namespace Scan

variable {order : ByteOrder}

theorem map_relocate_ok
    (distance : Nat) (records : List Record) :
    (records.map Except.ok).map (relocate distance) =
      (records.map (Record.relocate distance)).map .ok := by
  rw [List.map_map, List.map_map]
  rfl

theorem Ended.relocate
    {offset : Nat} {rest : Bytes} {fault? : Option Fault}
    (h : Ended order offset rest fault?) (distance : Nat) :
    Ended order (offset + distance) rest (fault?.map (Fault.relocate distance)) := by
  cases h with
  | complete =>
      exact Ended.complete
  | stuck hne hfault =>
      refine Ended.stuck hne ?_
      rw [Record.result_reader_add, hfault]
      rfl

/-- The scan of a byte string has the same items wherever it begins, but for their offsets. -/
theorem items_add
    (offset distance : Nat) (bytes : Bytes) :
    items { order, offset := offset + distance, rest := bytes } =
      (items { order, offset, rest := bytes }).map (relocate distance) := by
  obtain ⟨contents, rest, fault?, hwritable, rfl, hended⟩ := exists_contents order offset bytes
  have hmoved := hended.relocate distance
  rw [Nat.add_right_comm] at hmoved
  rw [items_contents hwritable hended, items_contents hwritable hmoved, Content.records_add,
    List.map_append, map_relocate_ok]
  cases fault? with
  | none =>
      rfl
  | some fault =>
      rfl

/-- A scan that ends without a fault has read written contents. -/
theorem exists_contents_of_items
    {bytes : Bytes} {records : List Record} (h : (start order bytes).items = records.map .ok) :
    ∃ contents : List Content, (∀ content ∈ contents, content.Writable order) ∧
      bytes = contents.flatMap (Content.encode order) ∧
      Content.records order 0 contents = records := by
  obtain ⟨contents, rest, fault?, hwritable, rfl, hended⟩ := exists_contents order 0 bytes
  rw [start, items_contents hwritable hended] at h
  cases hended with
  | complete =>
      rw [Option.toList_none, List.map_nil, List.append_nil] at h
      exact ⟨contents, hwritable, List.append_nil _,
        (List.map_inj_right fun _ _ heq => Except.ok.inj heq).mp h⟩
  | @stuck _ fault hne hfault =>
      -- The items are no faults, so the last of them cannot be one.
      have hmem : (.error fault : Except Fault Record) ∈ records.map .ok := by
        rw [← h]
        exact List.mem_append_right _ List.mem_cons_self
      obtain ⟨record, -, hrecord⟩ := List.mem_map.mp hmem
      cases hrecord

/-- Where the scan of the first part ends without a fault, the scan of the whole goes on as
the scan of the second part. -/
theorem items_append
    {front : Bytes} {records : List Record} (h : (start order front).items = records.map .ok)
    (back : Bytes) :
    (start order (front ++ back)).items =
      records.map .ok ++ (start order back).items.map (relocate front.length) := by
  obtain ⟨contents, hwritable, rfl, rfl⟩ := exists_contents_of_items h
  rw [start, Content.items_flatMap_encode_append hwritable, items_add]
  rfl

end Scan

namespace Content

variable {order : ByteOrder}

/-- **Round trip.** Scanning written contents gives these contents, each at the total size of
those before it. With any bytes behind them, the items of these bytes follow, as far on as the
contents are long. -/
theorem items_of_written
    {contents : List Content} (h : ∀ content ∈ contents, content.IsStorable) :
    (∀ index : Nat, (Scan.start order (contents.flatMap (encode order))).items[index]? =
      contents[index]?.map fun content =>
        .ok (content.record ((contents.take index).flatMap (encode order)).length)) ∧
    ∀ more, (Scan.start order (contents.flatMap (encode order) ++ more)).items =
      (Scan.start order (contents.flatMap (encode order))).items ++
        (Scan.start order more).items.map
          (Scan.relocate (contents.flatMap (encode order)).length) := by
  have hwritable : ∀ content ∈ contents, content.Writable order :=
    fun content hmem => writable_iff_isStorable.mpr (h content hmem)
  have hitems := items_flatMap_encode hwritable
  constructor
  · intro index
    rw [hitems, List.getElem?_map, getElem?_records, Nat.zero_add, Option.map_map]
    rfl
  · intro more
    rw [Scan.items_append hitems, hitems]

/-- A payload that looks like entries, between an entry that is empty and a shortest frame
description. -/
def lookalikes : List Content := [
  .common [],
  .frame 0 0x1000 0xffffffffffffffff [0, 0, 0, 4, 0xff, 0xff, 0xff, 0xff, 0xff, 0xff, 0xff, 0xff],
  .frame 8 0 0 []]

/-- The payload is not taken for entries, and a fault behind the contents is named at the place
where it is. -/
theorem items_of_written_lookalikes :
    (∀ content ∈ lookalikes, content.IsStorable) ∧
    (Scan.start .big (lookalikes.flatMap (encode .big))).items[2]? =
      some (.ok (.frame {
        offset := 44, commonOffset := 8, start := 0, range := 0, instructions := [] })) ∧
    (Scan.start .big (lookalikes.flatMap (encode .big))).items[3]? = none ∧
    (Scan.start .big (lookalikes.flatMap (encode .big) ++ [0, 0, 0, 3])).items =
      (Scan.start .big (lookalikes.flatMap (encode .big))).items ++
        [.error (.entryTooShort 68 3)] := by
  have hstorable : ∀ content ∈ lookalikes, content.IsStorable := by
    simp [lookalikes, IsStorable]
  have hbehind : (Scan.start .big [0, 0, 0, 3]).items = [.error (.entryTooShort 0 3)] := by cbv
  obtain ⟨hitems, hmore⟩ := @items_of_written .big lookalikes hstorable
  refine ⟨hstorable, hitems 2, hitems 3, ?_⟩
  rw [hmore, hbehind]
  rfl

end Content

end CallFrame
