import CallFrame.Section.Content

/-!
# Every scan reads written contents

A record can be read in one kind of place only: where a content is written. So every byte
string falls into contents that are written one behind the other, and a rest that is empty
or does not begin with a record. The scan yields the records of these contents, and the
fault of the rest if there is one.

This is the converse of reading written contents back. Statements about the scans of all
byte strings reduce to statements about lists of contents, by induction on the list.
-/

namespace CallFrame

theorem Record.ofEntry_of_short
    {order : ByteOrder} {entry : Entry} (hmarker : entry.marker ≠ commonMarker)
    (hshort : entry.length < Description.minLength) (offset : Nat) :
    ofEntry order offset entry =
      .error (.descriptionTooShort offset (UInt32.ofNat entry.length)) := by
  rw [ofEntry, if_neg hmarker, if_pos hshort]

namespace Content

variable {order : ByteOrder}

/-- An entry of a common information entry or of twenty bytes at least holds a content. -/
theorem exists_entry_eq_of_le
    (order : ByteOrder) {entry : Entry} (hwide : entry.length < wideLength.toNat)
    (hlong : entry.marker = commonMarker ∨ Description.minLength ≤ entry.length) :
    ∃ content : Content, content.Writable order ∧ content.entry order = entry := by
  by_cases hmarker : entry.marker = commonMarker
  · have hentry : (common entry.payload).entry order = entry := by
      rw [Content.entry, ← hmarker]
    refine ⟨common entry.payload, ⟨?_, True.intro⟩, hentry⟩
    rw [hentry]
    exact hwide
  · have hpayload : 16 ≤ entry.payload.length := by
      have hmin := hlong.resolve_left hmarker
      simp only [Description.minLength, Entry.length] at hmin
      omega
    -- The fields are the digits of the numbers that they store.
    have hfield : ∀ front : Bytes, front.length = 8 →
        order.digits 8 (UInt64.ofNat (order.value front)).toNat = front := by
      intro front hfront
      have hlt := order.value_lt front
      have hdigits := order.digits_value front
      rw [hfront] at hlt hdigits
      rw [UInt64.toNat_ofNat_of_lt' hlt, hdigits]
    have hstart := hfield (entry.payload.take 8) (List.length_take_of_le (by omega))
    have hrange := hfield ((entry.payload.drop 8).take 8)
      (List.length_take_of_le (by rw [List.length_drop]; omega))
    have hentry : (frame entry.marker
        (UInt64.ofNat (order.value (entry.payload.take 8)))
        (UInt64.ofNat (order.value ((entry.payload.drop 8).take 8)))
        ((entry.payload.drop 8).drop 8)).entry order = entry := by
      rw [Content.entry, hstart, hrange, List.append_assoc, List.take_append_drop,
        List.take_append_drop]
    refine ⟨_, ⟨?_, hmarker⟩, hentry⟩
    rw [hentry]
    exact hwide

theorem exists_entry_eq
    {offset : Nat} {entry : Entry} {record : Record}
    (hwide : entry.length < wideLength.toNat)
    (h : Record.ofEntry order offset entry = .ok record) :
    ∃ content : Content, content.Writable order ∧ content.entry order = entry ∧
      content.record offset = record := by
  by_cases hlong : entry.marker = commonMarker ∨ Description.minLength ≤ entry.length
  · obtain ⟨content, hwritable, rfl⟩ := exists_entry_eq_of_le order hwide hlong
    rw [ofEntry_entry hwritable] at h
    exact ⟨content, hwritable, rfl, Except.ok.inj h⟩
  · obtain ⟨hmarker, hshort⟩ := not_or.mp hlong
    rw [Record.ofEntry_of_short hmarker (Nat.not_le.mp hshort)] at h
    cases h

/-- A record can be read exactly where a content is written. -/
theorem run_reader_eq_ok_iff
    {offset : Nat} {bytes rest : Bytes} {record : Record} :
    (Record.reader order offset).run bytes = (.ok record, rest) ↔
      ∃ content : Content, content.Writable order ∧
        bytes = content.encode order ++ rest ∧ content.record offset = record := by
  constructor
  · intro h
    obtain ⟨entry, hlength, hbytes, hentry⟩ := Record.exists_entry_of_run h
    obtain ⟨content, hwritable, rfl, hrecord⟩ := exists_entry_eq hlength hentry
    exact ⟨content, hwritable, hbytes, hrecord⟩
  · rintro ⟨content, hwritable, rfl, rfl⟩
    exact run_reader_encode hwritable offset rest

end Content

namespace Scan

variable {order : ByteOrder}

@[simp] theorem items_nil
    (order : ByteOrder) (offset : Nat) :
    items { order, offset, rest := [] } = [] :=
  items_of_none (next?_eq_none_iff.mpr rfl)

theorem items_of_fault
    {offset : Nat} {rest : Bytes} {fault : Fault}
    (hne : rest ≠ [])
    (h : (Record.reader order offset).result rest = .error fault) :
    items { order, offset, rest } = [.error fault] := by
  have hnext : next? { order, offset, rest } =
      some (.error fault, { order, offset, rest := [] }) := by
    rcases hrun : (Record.reader order offset).run rest with ⟨outcome, behind⟩
    rw [Reader.result, hrun] at h
    change outcome = .error fault at h
    subst h
    simp only [next?, if_neg hne, hrun]
  rw [items_of_some hnext, items_nil]

theorem items_ne_nil
    {offset : Nat} {rest : Bytes} (hne : rest ≠ []) :
    items { order, offset, rest } ≠ [] := by
  rcases hnext : next? { order, offset, rest } with _ | ⟨item, behind⟩
  · exact absurd (next?_eq_none_iff.mp hnext) hne
  · rw [items_of_some hnext]
    exact List.cons_ne_nil item behind.items

/-- Nothing is left, or what is left does not begin with a record. -/
inductive Ended (order : ByteOrder) (offset : Nat) : Bytes → Option Fault → Prop
  | complete : Ended order offset [] none
  | stuck {rest : Bytes} {fault : Fault} (hne : rest ≠ [])
      (h : (Record.reader order offset).result rest = .error fault) :
      Ended order offset rest (some fault)

theorem Ended.items_eq
    {offset : Nat} {rest : Bytes} {fault? : Option Fault}
    (h : Ended order offset rest fault?) :
    items { order, offset, rest } = fault?.toList.map .error := by
  cases h with
  | complete =>
      exact items_nil order offset
  | stuck hne hfault =>
      exact items_of_fault hne hfault

theorem Ended.fault_eq_none_iff
    {offset : Nat} {rest : Bytes} {fault? : Option Fault}
    (h : Ended order offset rest fault?) :
    fault? = none ↔ rest = [] := by
  cases h with
  | complete =>
      exact ⟨fun _ => rfl, fun _ => rfl⟩
  | stuck hne hfault =>
      exact ⟨fun h => absurd h (Option.some_ne_none _), fun h => absurd h hne⟩

/-- Every byte string consists of written contents and the end of its scan. -/
theorem exists_contents
    (order : ByteOrder) (offset : Nat) (bytes : Bytes) :
    ∃ (contents : List Content) (rest : Bytes) (fault? : Option Fault),
      (∀ content ∈ contents, content.Writable order) ∧
      bytes = contents.flatMap (Content.encode order) ++ rest ∧
      Ended order (offset + (contents.flatMap (Content.encode order)).length) rest
        fault? := by
  -- The induction is on the length: reading a record leaves a shorter byte string.
  induction hlength : bytes.length using Nat.strongRecOn generalizing offset bytes with
  | ind length ih =>
      by_cases hne : bytes = []
      · subst hne
        exact ⟨[], [], none, by simp, rfl, Ended.complete⟩
      · rcases hrun : (Record.reader order offset).run bytes with ⟨fault | record, behind⟩
        · refine ⟨[], bytes, some fault, by simp, rfl, Ended.stuck hne ?_⟩
          change ((Record.reader order offset).run bytes).1 = .error fault
          rw [hrun]
        · have hshorter := Record.length_rest_lt hrun
          obtain ⟨content, hwritable, hbytes, -⟩ := Content.run_reader_eq_ok_iff.mp hrun
          obtain ⟨contents, rest, fault?, hall, hbehind, hended⟩ :=
            ih behind.length (by omega) (offset + (content.encode order).length) behind rfl
          refine ⟨content :: contents, rest, fault?, ?_, ?_, ?_⟩
          · intro other hother
            rcases List.mem_cons.mp hother with rfl | hother
            · exact hwritable
            · exact hall other hother
          · rw [hbytes, hbehind, List.flatMap_cons, List.append_assoc]
          · rw [List.flatMap_cons, List.length_append, ← Nat.add_assoc]
            exact hended

theorem items_contents
    {offset : Nat} {contents : List Content} {rest : Bytes} {fault? : Option Fault}
    (hwritable : ∀ content ∈ contents, content.Writable order)
    (hended : Ended order (offset + (contents.flatMap (Content.encode order)).length) rest
      fault?) :
    items { order, offset, rest := contents.flatMap (Content.encode order) ++ rest } =
      (Content.records order offset contents).map .ok ++ fault?.toList.map .error := by
  rw [Content.items_flatMap_encode_append hwritable, hended.items_eq]

end Scan

namespace Content

theorem items_flatMap_encode
    {order : ByteOrder} {contents : List Content}
    (h : ∀ content ∈ contents, content.Writable order) :
    (Scan.start order (contents.flatMap (encode order))).items =
      (records order 0 contents).map .ok := by
  have hitems := items_flatMap_encode_append h 0 []
  rw [List.append_nil, Scan.items_nil, List.append_nil] at hitems
  exact hitems

end Content

end CallFrame
