import CallFrame.Proofs.EntryGrammar
import CallFrame.Proofs.Relocation
import CallFrame.Proofs.Tiling
import CallFrame.Proofs.Unwinding

/-!
# The faults of a scan

A scan that cannot go on says why, and what it says can be checked against the bytes it has come
to. There are five causes. The length may be cut off by the end of the section, announce the
64-bit format, or leave no room for a marker; the bytes that it counts may not all be there; or
they may be there and be too few for a frame description. Several of these can be said of the same
bytes, so each one is stated with what is checked before it.

Once an entry is cut out of the section, reading it cannot fail: the checks of its length leave
room for every field. A search has the fault of the scan, the limit, or that nothing covers the
address.
-/

namespace CallFrame

namespace ByteOrder

/-- A field of four bytes is the digits of the number stored there. -/
theorem exists_digits_fieldAt
    (order : ByteOrder) {bytes : Bytes} (offset : Nat) (h : offset + 4 ≤ bytes.length) :
    ∃ n : UInt32, n.toNat = order.fieldAt bytes offset 4 ∧
      bytes.drop offset = order.digits 4 n.toNat ++ bytes.drop (offset + 4) := by
  have hlength : ((bytes.drop offset).take 4).length = 4 :=
    List.length_take_of_le (by rw [List.length_drop]; omega)
  have hlt : order.fieldAt bytes offset 4 < capacity 4 := by
    have hvalue := order.value_lt ((bytes.drop offset).take 4)
    rwa [hlength] at hvalue
  have htoNat : (UInt32.ofNat (order.fieldAt bytes offset 4)).toNat =
      order.fieldAt bytes offset 4 := UInt32.toNat_ofNat_of_lt' hlt
  refine ⟨UInt32.ofNat (order.fieldAt bytes offset 4), htoNat, ?_⟩
  rw [htoNat, digits_fieldAt h, ← List.drop_drop, List.take_append_drop]

end ByteOrder

/-- An entry that has room for a marker can be read. -/
theorem Entry.exists_body_eq_ok
    (order : ByteOrder) {bytes : Bytes} (h : 4 ≤ bytes.length) :
    ∃ entry : Entry, (body order).result bytes = .ok entry ∧ entry.length = bytes.length ∧
      entry.marker.toNat = order.fieldAt bytes 0 4 := by
  obtain ⟨marker, hmarker, hbytes⟩ := order.exists_digits_fieldAt 0 (by omega)
  refine ⟨{ marker, payload := bytes.drop 4 }, body_eq_ok_iff.mpr hbytes, ?_, hmarker⟩
  rw [Entry.length, List.length_drop]
  omega

/-- The fields of a frame description can be read where there is room for two addresses. -/
theorem Description.exists_fields_eq_ok
    (order : ByteOrder) (offset : Nat) (commonOffset : UInt32) {payload : Bytes}
    (h : 16 ≤ payload.length) :
    ∃ description, (fields order offset commonOffset).result payload = .ok description := by
  have hlong : ∀ bytes : Bytes, 8 ≤ bytes.length →
      ∃ n, (Reader.u64 order).run bytes = (.ok n, bytes.drop 8) :=
    fun bytes hbytes => ⟨_, Reader.run_bind_ok (Reader.run_field_of_le hbytes) _⟩
  obtain ⟨start, hstart⟩ := hlong payload (by omega)
  obtain ⟨range, hrange⟩ := hlong (payload.drop 8) (by rw [List.length_drop]; omega)
  refine ⟨{ offset, commonOffset, start, range, instructions := (payload.drop 8).drop 8 }, ?_⟩
  rw [Reader.result, fields, Reader.run_bind_ok hstart, Reader.run_bind_ok hrange,
    Reader.run_bind_ok (Reader.run_remainder _)]
  rfl

namespace Record

variable {order : ByteOrder} {rest : Bytes}

/-- With the length read, a record is its bytes cut out and taken apart. -/
theorem result_reader_of_field
    (offset : Nat) {length : UInt32} (h : 4 ≤ rest.length)
    (hlength : length.toNat = order.fieldAt rest 0 4) :
    (reader order offset).result rest =
      (Entry.checkLength offset length >>= fun _ =>
        (Reader.take length.toNat).result (rest.drop 4) >>= (Entry.body order).result) >>=
        ofEntry order offset := by
  obtain ⟨stored, hstored, hrest⟩ := order.exists_digits_fieldAt 0 (by omega)
  obtain rfl : length = stored := UInt32.toNat_inj.mp (hlength.trans hstored.symm)
  have hfield : (Reader.u32 order).run rest = (.ok length, rest.drop 4) :=
    Reader.run_u32_eq_ok_iff.mpr hrest
  rw [reader, Reader.result_bind_ofExcept, Entry.reader, Reader.result,
    Reader.run_bind_ok hfield]
  congr 1
  cases Entry.checkLength offset length with
  | error fault =>
      rfl
  | ok _ =>
      exact Reader.result_bind_ofExcept _ _ _

theorem result_reader_of_whole
    (offset : Nat) {length : UInt32} (hlength : length.toNat = order.fieldAt rest 0 4)
    (hwhole : 4 + length.toNat ≤ rest.length) (hfour : 4 ≤ length.toNat)
    (hmax : length ≠ wideLength) :
    ∃ entry : Entry, entry.length = length.toNat ∧
      entry.marker.toNat = order.fieldAt rest 4 4 ∧
      (reader order offset).result rest = ofEntry order offset entry := by
  have hdrop : length.toNat ≤ (rest.drop 4).length := by
    rw [List.length_drop]
    omega
  have htake : ((rest.drop 4).take length.toNat).length = length.toNat :=
    List.length_take_of_le hdrop
  obtain ⟨entry, hbody, hentry, hmarker⟩ :=
    Entry.exists_body_eq_ok order (Nat.le_trans hfour (Nat.le_of_eq htake.symm))
  refine ⟨entry, hentry.trans htake, ?_, ?_⟩
  · rw [hmarker, ByteOrder.fieldAt, List.drop_zero, List.take_take, Nat.min_eq_left hfour]
    rfl
  · have hcheck : Entry.checkLength offset length = .ok () :=
      Entry.checkLength_eq_ok_iff.mpr ⟨hmax, hfour⟩
    rw [result_reader_of_field offset (by omega) hlength, hcheck, Reader.result,
      Reader.run_take_of_le hdrop]
    change ((Entry.body order).result _ >>= _) = _
    rw [hbody]
    rfl

end Record

namespace Scan

/-- The fault says what is wrong with the bytes from the offset to the end of the section. The
length of an entry is the number in the first field, its marker the one in the second. -/
inductive FaultAt (order : ByteOrder) (offset : Nat) (rest : Bytes) : Fault → Prop
  | cutLength (hsome : 0 < rest.length) (hcut : rest.length < 4) :
      FaultAt order offset rest (.outOfBytes 4 rest.length)
  | wide (hfield : 4 ≤ rest.length) (hwide : order.fieldAt rest 0 4 = 0xffffffff) :
      FaultAt order offset rest (.wideFormat offset)
  | tooShort {length : UInt32} (hfield : 4 ≤ rest.length)
      (hlength : length.toNat = order.fieldAt rest 0 4) (hshort : length.toNat < 4) :
      FaultAt order offset rest (.entryTooShort offset length)
  | cutEntry (hfield : 4 ≤ rest.length) (hfour : 4 ≤ order.fieldAt rest 0 4)
      (hmax : order.fieldAt rest 0 4 < 0xffffffff)
      (hcut : rest.length - 4 < order.fieldAt rest 0 4) :
      FaultAt order offset rest (.outOfBytes (order.fieldAt rest 0 4) (rest.length - 4))
  | shortDescription {length : UInt32} (hlength : length.toNat = order.fieldAt rest 0 4)
      (hwhole : 4 + length.toNat ≤ rest.length)
      (hmarker : order.fieldAt rest 4 4 ≠ 0xffffffff) (hfour : 4 ≤ length.toNat)
      (hshort : length.toNat < 20) :
      FaultAt order offset rest (.descriptionTooShort offset length)

variable {order : ByteOrder} {offset : Nat} {rest : Bytes}

/-- A fault that describes the bytes is what the reader comes to. -/
theorem FaultAt.result_eq
    {fault : Fault} (h : FaultAt order offset rest fault) :
    (Record.reader order offset).result rest = .error fault := by
  cases h with
  | cutLength hsome hcut =>
      have hfield : (Reader.u32 order).run rest = (.error (.outOfBytes 4 rest.length), rest) :=
        Reader.run_bind_error (Reader.run_field_of_lt hcut) _
      rw [Record.reader, Reader.result_bind_ofExcept, Entry.reader, Reader.result,
        Reader.run_bind_error hfield]
      rfl
  | wide hfield hwide =>
      have hlength : wideLength.toNat = order.fieldAt rest 0 4 := hwide.symm
      have hcheck : Entry.checkLength offset wideLength = .error (.wideFormat offset) :=
        if_pos rfl
      rw [Record.result_reader_of_field offset hfield hlength, hcheck]
      rfl
  | @tooShort length hfield hlength hshort =>
      have hwide : length ≠ wideLength := by
        rintro rfl
        exact absurd hshort (by decide)
      have hcheck : Entry.checkLength offset length = .error (.entryTooShort offset length) :=
        (if_neg hwide).trans (if_pos (UInt32.lt_iff_toNat_lt.mpr hshort))
      rw [Record.result_reader_of_field offset hfield hlength, hcheck]
      rfl
  | cutEntry hfield hfour hmax hcut =>
      obtain ⟨length, hlength, -⟩ := order.exists_digits_fieldAt 0 (by omega)
      rw [← hlength] at hfour hmax hcut ⊢
      have hwide : length ≠ wideLength := by
        rintro rfl
        exact absurd hmax (by decide)
      have hcheck : Entry.checkLength offset length = .ok () :=
        Entry.checkLength_eq_ok_iff.mpr ⟨hwide, hfour⟩
      rw [← List.length_drop] at hcut ⊢
      rw [Record.result_reader_of_field offset hfield hlength, hcheck, Reader.result,
        Reader.run_take_of_lt hcut]
      rfl
  | @shortDescription length hlength hwhole hmarker hfour hshort =>
      have hwide : length ≠ wideLength := by
        rintro rfl
        exact absurd hshort (by decide)
      obtain ⟨entry, hentry, hsecond, hresult⟩ :=
        Record.result_reader_of_whole offset hlength hwhole hfour hwide
      have hframe : entry.marker ≠ commonMarker := by
        intro heq
        rw [heq] at hsecond
        exact hmarker hsecond.symm
      rw [hresult, Record.ofEntry_of_short hframe (by rw [hentry]; exact hshort), hentry,
        UInt32.ofNat_toNat]

/-- A record begins where bytes are left, or a fault describes them. -/
theorem exists_record_or_faultAt
    (order : ByteOrder) (offset : Nat) (hne : rest ≠ []) :
    (∃ record, (Record.reader order offset).result rest = .ok record) ∨
      ∃ fault, FaultAt order offset rest fault := by
  -- The causes are gone through in the order in which they are met.
  by_cases hcutLength : rest.length < 4
  · exact Or.inr ⟨_, FaultAt.cutLength (List.length_pos_iff.mpr hne) hcutLength⟩
  have hfield : 4 ≤ rest.length := Nat.not_lt.mp hcutLength
  obtain ⟨length, hlength, -⟩ := order.exists_digits_fieldAt 0 (by omega)
  by_cases hwide : length = wideLength
  · subst hwide
    exact Or.inr ⟨_, FaultAt.wide hfield hlength.symm⟩
  have hmax : length.toNat < 0xffffffff := by
    have hlt := length.toNat_lt
    have hne' : length.toNat ≠ 0xffffffff := fun heq => hwide (UInt32.toNat_inj.mp heq)
    omega
  by_cases hshort : length.toNat < 4
  · exact Or.inr ⟨_, FaultAt.tooShort hfield hlength hshort⟩
  have hfour : 4 ≤ length.toNat := Nat.not_lt.mp hshort
  by_cases hcut : rest.length - 4 < length.toNat
  · rw [hlength] at hfour hmax hcut
    exact Or.inr ⟨_, FaultAt.cutEntry hfield hfour hmax hcut⟩
  obtain ⟨entry, hentry, hmarker, hresult⟩ :=
    Record.result_reader_of_whole offset hlength (by omega) hfour hwide
  by_cases hlong : entry.marker = commonMarker ∨ Description.minLength ≤ entry.length
  · obtain ⟨content, hwritable, rfl⟩ :=
      Content.exists_entry_eq_of_le order (by rw [hentry]; exact hmax) hlong
    exact Or.inl ⟨_, hresult.trans (Content.ofEntry_entry hwritable offset)⟩
  · obtain ⟨hframe, hless⟩ := not_or.mp hlong
    rw [hentry] at hless
    refine Or.inr ⟨_, FaultAt.shortDescription hlength (by omega) ?_ hfour (Nat.not_le.mp hless)⟩
    rw [← hmarker]
    exact fun heq => hframe (UInt32.toNat_inj.mp heq)

theorem FaultAt.ne_nil
    {fault : Fault} (h : FaultAt order offset rest fault) :
    rest ≠ [] := by
  apply List.ne_nil_of_length_pos
  cases h with
  | cutLength hsome => exact hsome
  | wide hfield => omega
  | tooShort hfield => omega
  | cutEntry hfield => omega
  | shortDescription hlength hwhole => omega

/-- A scan ends with the fault that describes what is left, and without one where nothing is. -/
theorem Ended.fault_eq_some_iff
    {fault? : Option Fault} {fault : Fault} (h : Ended order offset rest fault?) :
    fault? = some fault ↔ FaultAt order offset rest fault := by
  constructor
  · rintro rfl
    cases h with
    | stuck hne hresult =>
        rcases exists_record_or_faultAt order offset hne with ⟨record, hrecord⟩ | ⟨other, hother⟩
        · rw [hrecord] at hresult
          cases hresult
        · rw [hother.result_eq] at hresult
          cases hresult
          exact hother
  · intro hfault
    cases h with
    | complete =>
        exact absurd rfl hfault.ne_nil
    | stuck hne hresult =>
        rw [hfault.result_eq] at hresult
        cases hresult
        rfl

/-- The fault is what a search comes to among the records of a scan and the fault that the scan may
end with. -/
inductive Misses (pc : UInt64) (limit : Nat) (records : List Record) (fault? : Option Fault) :
    Fault → Prop
  | limited (hmissed : ∀ record ∈ records.take limit, ¬ record.Covers pc)
      (hmore : limit < records.length + fault?.toList.length) :
      Misses pc limit records fault? (.tooManyRecords limit)
  | uncovered (hmissed : ∀ record ∈ records, ¬ record.Covers pc)
      (hlimit : records.length ≤ limit) (hnone : fault? = none) :
      Misses pc limit records fault? (.uncovered pc)
  | broken {fault : Fault} (hmissed : ∀ record ∈ records, ¬ record.Covers pc)
      (hlimit : records.length < limit) (hsome : fault? = some fault) :
      Misses pc limit records fault? fault

variable {pc : UInt64} {limit : Nat} {records : List Record} {fault? : Option Fault} {fault : Fault}

theorem Misses.firstCovering_eq
    (h : Misses pc limit records fault? fault) :
    firstCovering pc limit 0 (records.map .ok ++ fault?.toList.map .error) = .error fault := by
  cases h with
  | limited hmissed hmore =>
      have hle : limit ≤ records.length := by
        cases fault? with
        | none => simp at hmore; omega
        | some fault => simp at hmore; omega
      have htake : (records.take limit).length = limit := List.length_take_of_le hle
      have hsplit : records.map Except.ok ++ fault?.toList.map Except.error =
          (records.take limit).map Except.ok ++
            ((records.drop limit).map Except.ok ++ fault?.toList.map Except.error) := by
        rw [← List.append_assoc, ← List.map_append, List.take_append_drop]
      rw [hsplit, firstCovering_append_of_not_covers hmissed (by omega), htake]
      rcases hbehind : (records.drop limit).map Except.ok ++ fault?.toList.map Except.error with
        _ | ⟨item, others⟩
      · have hlength := congrArg List.length hbehind
        rw [List.length_append, List.length_map, List.length_drop, List.length_map,
          List.length_nil] at hlength
        omega
      · exact if_pos (by omega)
  | uncovered hmissed hlimit hnone =>
      subst hnone
      rw [Option.toList_none, List.map_nil, List.append_nil]
      exact firstCovering_of_not_covers hmissed hlimit
  | broken hmissed hlimit hsome =>
      subst hsome
      rw [firstCovering_append_of_not_covers hmissed (by omega)]
      exact if_neg (by omega)

theorem exists_misses
    (fault? : Option Fault) (hmissed : ∀ record ∈ records.take limit, ¬ record.Covers pc) :
    ∃ fault, Misses pc limit records fault? fault := by
  by_cases hmore : limit < records.length + fault?.toList.length
  · exact ⟨_, Misses.limited hmissed hmore⟩
  · cases fault? with
    | none =>
        rw [Option.toList_none, List.length_nil] at hmore
        rw [List.take_of_length_le (by omega)] at hmissed
        exact ⟨_, Misses.uncovered hmissed (by omega) rfl⟩
    | some fault =>
        rw [Option.toList_some, List.length_singleton] at hmore
        rw [List.take_of_length_le (by omega)] at hmissed
        exact ⟨_, Misses.broken hmissed (by omega) rfl⟩

theorem exists_firstCovering_eq_ok
    {record : Record} (hmem : record ∈ records.take limit) (hcovers : record.Covers pc)
    (items : List (Except Fault Record)) :
    ∃ description, firstCovering pc limit 0 (records.map .ok ++ items) = .ok description := by
  have hfound : ((records.take limit).find? fun other => other.Covers pc).isSome :=
    List.find?_isSome.mpr ⟨record, hmem, decide_eq_true hcovers⟩
  obtain ⟨first, hfirst⟩ := Option.isSome_iff_exists.mp hfound
  obtain ⟨hfirst, before, after, htake, hbefore⟩ := List.find?_eq_some_iff_append.mp hfirst
  have hshort : before.length < limit := by
    have hlength := congrArg List.length htake
    have hle := List.length_take_le limit records
    rw [List.length_append, List.length_cons] at hlength
    omega
  cases first with
  | common offset =>
      cases of_decide_eq_true hfirst
  | frame description =>
      refine ⟨description, ?_⟩
      rw [← List.take_append_drop limit records, htake, List.append_assoc, List.map_append,
        List.append_assoc]
      exact firstCovering_of_covers
        (fun other hother => by simpa using hbefore other hother) hshort
        (of_decide_eq_true hfirst) _

theorem firstCovering_eq_error_iff_misses :
    firstCovering pc limit 0 (records.map .ok ++ fault?.toList.map .error) = .error fault ↔
      Misses pc limit records fault? fault := by
  refine ⟨fun h => ?_, Misses.firstCovering_eq⟩
  by_cases hcovers : ∃ record ∈ records.take limit, record.Covers pc
  · obtain ⟨record, hmem, hrecord⟩ := hcovers
    obtain ⟨description, hok⟩ := exists_firstCovering_eq_ok hmem hrecord
      (fault?.toList.map .error)
    rw [hok] at h
    cases h
  · obtain ⟨other, hother⟩ := exists_misses fault?
      (fun record hmem hrecord => hcovers ⟨record, hmem, hrecord⟩)
    rw [hother.firstCovering_eq] at h
    cases h
    exact hother

end Scan

/-- **The faults of a scan.** Behind the records of a scan, which tile the section up to a place,
its fault is exactly the one that describes the bytes from there on, and there is one for all that
are left. A search fails exactly if it misses the address among these records, with the limit, with
the address, or with the same fault. No read inside an entry runs short: an entry of a checked
length has a marker, and the fields of a frame description if it is long enough for one. -/
theorem FrameSection.scanFaults_exact
    (frames : FrameSection) :
    (∃ (spans : List Bytes) (records : List Record) (rest : Bytes) (fault? : Option Fault),
      frames.records = records.map .ok ++ fault?.toList.map .error ∧
      Tiling frames.order 0 spans records ∧
      frames.bytes = spans.flatten ++ rest ∧
      (∀ fault, fault? = some fault ↔
        Scan.FaultAt frames.order spans.flatten.length rest fault) ∧
      (∀ pc limit fault, frames.find pc limit = .error fault ↔
        Scan.Misses pc limit records fault? fault)) ∧
    (∀ (offset : Nat) (length : UInt32) (body : Bytes),
      Entry.checkLength offset length = .ok () → body.length = length.toNat →
      ∃ entry : Entry, (Entry.body frames.order).result body = .ok entry ∧
        entry.length = length.toNat ∧
        (20 ≤ length.toNat → ∃ description,
          (Description.fields frames.order offset entry.marker).result entry.payload =
            .ok description)) := by
  constructor
  · obtain ⟨contents, rest, fault?, hwritable, hbytes, hended⟩ :=
      Scan.exists_contents frames.order 0 frames.bytes
    have hitems : frames.records =
        (Content.records frames.order 0 contents).map .ok ++ fault?.toList.map .error := by
      rw [records, Scan.start, hbytes]
      exact Scan.items_contents hwritable hended
    rw [Nat.zero_add, List.flatMap_def] at hended
    rw [List.flatMap_def] at hbytes
    refine ⟨_, _, rest, fault?, hitems, Tiling.of_contents hwritable 0, hbytes,
      fun fault => hended.fault_eq_some_iff, fun pc limit fault => ?_⟩
    rw [find, hitems]
    exact Scan.firstCovering_eq_error_iff_misses
  · intro offset length body hcheck hbody
    obtain ⟨-, hfour⟩ := Entry.checkLength_eq_ok_iff.mp hcheck
    obtain ⟨entry, hentry, hlength, -⟩ :=
      Entry.exists_body_eq_ok frames.order (Nat.le_trans hfour (Nat.le_of_eq hbody.symm))
    refine ⟨entry, hentry, hlength.trans hbody, fun htwenty => ?_⟩
    rw [← hbody, ← hlength, Entry.length] at htwenty
    exact Description.exists_fields_eq_ok frames.order offset entry.marker (by omega)

/-- A frame description that is cut off is reported as that, and not as too short. -/
example : (Scan.start .little [19, 0, 0, 0, 1]).items = [.error (.outOfBytes 19 1)] := by cbv

end CallFrame
