import CallFrame.FrameSection
import CallFrame.Proofs.Relocation
import CallFrame.Proofs.Unwinding

/-!
# The search as a first match

A search goes through the items of a scan one by one, with a count of those it has looked at.
What it comes to can be told from the whole list. The first item that is a fault, or a frame
description that covers the address, decides it; the limit only has a say if there are that many
items in front of the deciding one.

So a search with a higher limit has the same answer, or the lower limit was the answer. And since
every item is cut out of the section by itself, the bytes behind a frame description that is found
could be any others.
-/

namespace CallFrame

namespace Scan

/-- The item ends a search for the address, with the answer given: it is a fault, or a frame
description whose range holds the address. The range may reach past the last address. -/
inductive Decides (pc : UInt64) : Except Fault Record → Except Fault Description → Prop
  | fault (fault : Fault) : Decides pc (.error fault) (.error fault)
  | frame {description : Description} (hstart : description.start.toNat ≤ pc.toNat)
      (hend : pc.toNat < description.start.toNat + description.range.toNat) :
      Decides pc (.ok (.frame description)) (.ok description)

/-- The item at the index ends the search, and no item before it does. -/
structure FirstDecides (pc : UInt64) (items : List (Except Fault Record)) (index : Nat)
    (answer : Except Fault Description) : Prop where
  decides : ∃ item, items[index]? = some item ∧ Decides pc item answer
  least : ∀ earlier < index, ∀ item, items[earlier]? = some item →
    ∀ found, ¬ Decides pc item found

variable {pc : UInt64} {limit seen index : Nat} {item : Except Fault Record}
  {items : List (Except Fault Record)} {answer : Except Fault Description}

theorem firstCovering_cons_of_decides
    (h : Decides pc item answer) (rest : List (Except Fault Record)) :
    firstCovering pc limit seen (item :: rest) =
      if limit ≤ seen then .error (.tooManyRecords limit) else answer := by
  cases h with
  | fault fault =>
      rfl
  | @frame description hstart hend =>
      have hcovers : description.Covers pc := ⟨hstart, hend⟩
      rw [firstCovering]
      simp only [if_pos hcovers]

theorem firstCovering_cons_of_not_decides
    (h : ∀ found, ¬ Decides pc item found) (rest : List (Except Fault Record)) :
    firstCovering pc limit seen (item :: rest) =
      if limit ≤ seen then .error (.tooManyRecords limit)
      else firstCovering pc limit (seen + 1) rest := by
  rcases item with fault | record
  · exact absurd (Decides.fault fault) (h _)
  · cases record with
    | common offset =>
        rfl
    | frame description =>
        have hcovers : ¬ description.Covers pc :=
          fun hcovers => h _ (Decides.frame hcovers.1 hcovers.2)
        rw [firstCovering]
        simp only [if_neg hcovers]

theorem firstDecides_cons_zero
    {rest : List (Except Fault Record)} :
    FirstDecides pc (item :: rest) 0 answer ↔ Decides pc item answer := by
  constructor
  · rintro ⟨⟨other, hother, hdecides⟩, -⟩
    cases hother
    exact hdecides
  · intro h
    exact ⟨⟨item, rfl, h⟩, fun _ hearlier => absurd hearlier (Nat.not_lt_zero _)⟩

theorem firstDecides_cons_succ
    {rest : List (Except Fault Record)} :
    FirstDecides pc (item :: rest) (index + 1) answer ↔
      (∀ found, ¬ Decides pc item found) ∧ FirstDecides pc rest index answer := by
  constructor
  · rintro ⟨hdecides, hleast⟩
    exact ⟨hleast 0 (Nat.succ_pos index) item rfl, hdecides,
      fun earlier hearlier => hleast (earlier + 1) (Nat.succ_lt_succ hearlier)⟩
  · rintro ⟨hhead, hdecides, hleast⟩
    refine ⟨hdecides, fun earlier hearlier other hother => ?_⟩
    cases earlier with
    | zero =>
        cases hother
        exact hhead
    | succ earlier =>
        exact hleast earlier (Nat.lt_of_succ_lt_succ hearlier) other hother

/-- Some item is the first that decides a search, or none decides it. -/
theorem firstDecides_or_forall_not
    (pc : UInt64) (items : List (Except Fault Record)) :
    (∃ index answer, FirstDecides pc items index answer) ∨
      ∀ item ∈ items, ∀ found, ¬ Decides pc item found := by
  induction items with
  | nil =>
      exact Or.inr fun _ hmem => (nomatch hmem)
  | cons item rest ih =>
      by_cases hitem : ∃ answer, Decides pc item answer
      · obtain ⟨answer, hanswer⟩ := hitem
        exact Or.inl ⟨0, answer, firstDecides_cons_zero.mpr hanswer⟩
      · have hhead := not_exists.mp hitem
        rcases ih with ⟨index, answer, hfirst⟩ | hnone
        · exact Or.inl ⟨index + 1, answer, firstDecides_cons_succ.mpr ⟨hhead, hfirst⟩⟩
        · exact Or.inr (List.forall_mem_cons.mpr ⟨hhead, hnone⟩)

theorem firstCovering_of_firstDecides
    (h : FirstDecides pc items index answer) (limit seen : Nat) :
    firstCovering pc limit seen items =
      if seen + index < limit then answer else .error (.tooManyRecords limit) := by
  induction items generalizing seen index with
  | nil =>
      obtain ⟨⟨item, hitem, -⟩, -⟩ := h
      cases hitem
  | cons item rest ih =>
      cases index with
      | zero =>
          rw [firstCovering_cons_of_decides (firstDecides_cons_zero.mp h), Nat.add_zero]
          by_cases hlimit : limit ≤ seen
          · rw [if_pos hlimit, if_neg (Nat.not_lt.mpr hlimit)]
          · rw [if_neg hlimit, if_pos (Nat.not_le.mp hlimit)]
      | succ index =>
          obtain ⟨hhead, hrest⟩ := firstDecides_cons_succ.mp h
          rw [firstCovering_cons_of_not_decides hhead, ih hrest, Nat.add_assoc, Nat.add_comm 1]
          by_cases hlimit : limit ≤ seen
          · rw [if_pos hlimit, if_neg (by omega)]
          · rw [if_neg hlimit]

theorem firstCovering_of_forall_not_decides
    (h : ∀ item ∈ items, ∀ found, ¬ Decides pc item found) (hseen : seen ≤ limit) :
    firstCovering pc limit seen items =
      if seen + items.length ≤ limit then .error (.uncovered pc)
      else .error (.tooManyRecords limit) := by
  induction items generalizing seen with
  | nil =>
      exact (if_pos hseen).symm
  | cons item rest ih =>
      obtain ⟨hhead, hrest⟩ := List.forall_mem_cons.mp h
      rw [firstCovering_cons_of_not_decides hhead, List.length_cons]
      by_cases hlimit : limit ≤ seen
      · rw [if_pos hlimit, if_neg (by omega)]
      · rw [if_neg hlimit, ih hrest (by omega), Nat.add_assoc, Nat.add_comm 1]

/-- What comes behind the deciding item has no part in it. -/
theorem firstDecides_append
    {front : List (Except Fault Record)} (hindex : index < front.length)
    (back : List (Except Fault Record)) :
    FirstDecides pc (front ++ back) index answer ↔ FirstDecides pc front index answer := by
  have hitem : ∀ place ≤ index, (front ++ back)[place]? = front[place]? :=
    fun place hplace => List.getElem?_append_left (by omega)
  constructor
  · rintro ⟨hdecides, hleast⟩
    rw [hitem index (Nat.le_refl index)] at hdecides
    refine ⟨hdecides, fun earlier hearlier => ?_⟩
    rw [← hitem earlier (Nat.le_of_lt hearlier)]
    exact hleast earlier hearlier
  · rintro ⟨hdecides, hleast⟩
    rw [← hitem index (Nat.le_refl index)] at hdecides
    refine ⟨hdecides, fun earlier hearlier => ?_⟩
    rw [hitem earlier (Nat.le_of_lt hearlier)]
    exact hleast earlier hearlier

end Scan

namespace Content

/-- Written contents end where the frame description that is the last of them does. -/
theorem length_flatMap_encode_of_last
    {order : ByteOrder} {contents : List Content} {index : Nat} {description : Description}
    (hlength : contents.length = index + 1)
    (h : (records order 0 contents)[index]? = some (.frame description)) :
    (contents.flatMap (encode order)).length =
      description.offset + 24 + description.instructions.length := by
  rw [getElem?_records, Nat.zero_add] at h
  obtain ⟨content, hcontent, hrecord⟩ := Option.map_eq_some_iff.mp h
  have hsplit : contents = contents.take index ++ [content] := by
    rw [← Option.toList_some, ← hcontent, ← List.take_add_one, ← hlength, List.take_length]
  rw [hsplit, List.flatMap_append, List.length_append]
  cases content with
  | common payload =>
      cases hrecord
  | frame commonOffset start range instructions =>
      cases hrecord
      simp only [List.flatMap_cons, List.flatMap_nil, List.append_nil, encode,
        Entry.length_encode, entry, Entry.length, List.length_append, ByteOrder.length_digits]
      omega

end Content

namespace FrameSection

variable {frames : FrameSection} {pc : UInt64} {index : Nat} {description : Description}

/-- A frame description decides a search from its own bytes and those before it. -/
theorem exists_front_of_firstDecides
    (h : Scan.FirstDecides pc frames.records index (.ok description)) :
    ∃ front behind, frames.bytes = front ++ behind ∧
      front.length = description.offset + 24 + description.instructions.length ∧
      ∀ other, Scan.FirstDecides pc { frames with bytes := front ++ other }.records index
        (.ok description) := by
  obtain ⟨contents, rest, fault?, hwritable, hbytes, hended⟩ :=
    Scan.exists_contents frames.order 0 frames.bytes
  have hitems : frames.records =
      (Content.records frames.order 0 contents).map .ok ++ fault?.toList.map .error := by
    rw [records, Scan.start, hbytes]
    exact Scan.items_contents hwritable hended
  rw [hitems] at h
  -- The deciding item is no fault, so it is one of the records.
  have hindex : index < contents.length := by
    obtain ⟨item, hitem, hdecides⟩ := h.decides
    cases hdecides
    rw [List.getElem?_append] at hitem
    split at hitem
    · rename_i hlt
      rwa [List.length_map, Content.length_records] at hlt
    · obtain ⟨fault, -, hfault⟩ := List.mem_map.mp (List.mem_of_getElem? hitem)
      cases hfault
  obtain ⟨front, back, rfl, hfront⟩ :
      ∃ front back, contents = front ++ back ∧ front.length = index + 1 :=
    ⟨contents.take (index + 1), contents.drop (index + 1),
      (List.take_append_drop _ contents).symm, List.length_take_of_le hindex⟩
  have hshort : index < ((Content.records frames.order 0 front).map Except.ok :
      List (Except Fault Record)).length := by
    rw [List.length_map, Content.length_records, hfront]
    exact Nat.lt_succ_self index
  rw [Content.records_append, List.map_append, List.append_assoc,
    Scan.firstDecides_append hshort] at h
  refine ⟨front.flatMap (Content.encode frames.order),
    back.flatMap (Content.encode frames.order) ++ rest, ?_, ?_, fun other => ?_⟩
  · rw [← List.append_assoc, ← List.flatMap_append]
    exact hbytes
  · obtain ⟨item, hitem, hdecides⟩ := h.decides
    cases hdecides
    rw [List.getElem?_map] at hitem
    obtain ⟨record, hrecord, heq⟩ := Option.map_eq_some_iff.mp hitem
    cases heq
    exact Content.length_flatMap_encode_of_last hfront hrecord
  · have hother : ({ frames with
        bytes := front.flatMap (Content.encode frames.order) ++ other } : FrameSection).records =
          (Content.records frames.order 0 front).map .ok ++ _ :=
      Content.items_flatMap_encode_append
        (fun content hmem => hwritable content (List.mem_append_left back hmem)) 0 other
    rw [hother, Scan.firstDecides_append hshort]
    exact h

theorem find_eq_of_firstDecides
    {answer : Except Fault Description} (h : Scan.FirstDecides pc frames.records index answer)
    (limit : Nat) :
    frames.find pc limit = if index < limit then answer else .error (.tooManyRecords limit) := by
  rw [find, Scan.firstCovering_of_firstDecides h, Nat.zero_add]

theorem find_eq_of_forall_not_decides
    (h : ∀ item ∈ frames.records, ∀ found, ¬ Scan.Decides pc item found) (limit : Nat) :
    frames.find pc limit =
      if frames.records.length ≤ limit then .error (.uncovered pc)
      else .error (.tooManyRecords limit) := by
  rw [find, Scan.firstCovering_of_forall_not_decides h (Nat.zero_le limit), Nat.zero_add]

/-- **First match.** The search has the answer of the first item that is a fault or a frame
description whose range holds the address, if there are fewer items than the limit before it.
Where no item is, the address is not covered, if there are no more items than the limit.
Otherwise the limit is the answer. The bytes behind a frame description that is found have no part
in the answer, and a higher limit can only replace the answer that the limit was reached. -/
theorem find_eq_first
    (frames : FrameSection) (pc : UInt64) :
    (∀ index answer, Scan.FirstDecides pc frames.records index answer → ∀ limit,
      frames.find pc limit =
        if index < limit then answer else .error (.tooManyRecords limit)) ∧
    ((∀ item ∈ frames.records, ∀ found, ¬ Scan.Decides pc item found) → ∀ limit,
      frames.find pc limit =
        if frames.records.length ≤ limit then .error (.uncovered pc)
        else .error (.tooManyRecords limit)) ∧
    (∀ index description, Scan.FirstDecides pc frames.records index (.ok description) →
      ∃ front behind, frames.bytes = front ++ behind ∧
        front.length = description.offset + 24 + description.instructions.length ∧
        ∀ other limit,
          { frames with bytes := front ++ other }.find pc limit = frames.find pc limit) ∧
    (∀ limit higher, limit ≤ higher →
      frames.find pc limit = .error (.tooManyRecords limit) ∨
        frames.find pc higher = frames.find pc limit) := by
  refine ⟨fun index answer h => find_eq_of_firstDecides h, find_eq_of_forall_not_decides,
    fun index description h => ?_, fun limit higher hle => ?_⟩
  · obtain ⟨front, behind, hbytes, hlength, hother⟩ := exists_front_of_firstDecides h
    refine ⟨front, behind, hbytes, hlength, fun other limit => ?_⟩
    rw [find_eq_of_firstDecides (hother other), find_eq_of_firstDecides h]
  · rcases Scan.firstDecides_or_forall_not pc frames.records with ⟨index, answer, hfirst⟩ | hnone
    · rw [find_eq_of_firstDecides hfirst, find_eq_of_firstDecides hfirst]
      by_cases hindex : index < limit
      · rw [if_pos hindex, if_pos (Nat.lt_of_lt_of_le hindex hle)]
        exact Or.inr rfl
      · rw [if_neg hindex]
        exact Or.inl rfl
    · rw [find_eq_of_forall_not_decides hnone, find_eq_of_forall_not_decides hnone]
      by_cases hlength : frames.records.length ≤ limit
      · rw [if_pos hlength, if_pos (Nat.le_trans hlength hle)]
        exact Or.inr rfl
      · rw [if_neg hlength]
        exact Or.inl rfl

/-- A frame description of the last addresses, whose range reaches past them. -/
def highFrame : Description where
  offset := 8
  commonOffset := 0
  start := 0xfffffffffffffff0
  range := 32
  instructions := []

/-- An empty common information entry, the frame description, and what is put behind it. -/
def highFrames (behind : Bytes) : FrameSection where
  order := .little
  bytes := [
    4, 0, 0, 0, 0xff, 0xff, 0xff, 0xff,
    20, 0, 0, 0, 0, 0, 0, 0,
    0xf0, 0xff, 0xff, 0xff, 0xff, 0xff, 0xff, 0xff, 32, 0, 0, 0, 0, 0, 0, 0] ++ behind

/-- The range does not wrap around. In front of an entry that is too short the frame description
is found by the last address, and by the first addresses the entry is met. The limits are exact. -/
theorem find_eq_first_highFrames :
    Scan.FirstDecides 0xffffffffffffffff (highFrames [3, 0, 0, 0]).records 1 (.ok highFrame) ∧
    (highFrames [3, 0, 0, 0]).find 0xffffffffffffffff 2 = .ok highFrame ∧
    (highFrames [3, 0, 0, 0]).find 0xffffffffffffffff 1 = .error (.tooManyRecords 1) ∧
    Scan.FirstDecides 0 (highFrames [3, 0, 0, 0]).records 2 (.error (.entryTooShort 32 3)) ∧
    (highFrames [3, 0, 0, 0]).find 0 3 = .error (.entryTooShort 32 3) ∧
    (highFrames [3, 0, 0, 0]).find 0 2 = .error (.tooManyRecords 2) ∧
    (∀ item ∈ (highFrames []).records, ∀ found, ¬ Scan.Decides 0 item found) ∧
    (highFrames []).find 0 2 = .error (.uncovered 0) ∧
    (highFrames []).find 0 1 = .error (.tooManyRecords 1) := by
  have hbroken : (highFrames [3, 0, 0, 0]).records =
      [.ok (.common 0), .ok (.frame highFrame), .error (.entryTooShort 32 3)] := by cbv
  have hwhole : (highFrames []).records = [.ok (.common 0), .ok (.frame highFrame)] := by cbv
  have hcommon : ∀ pc found, ¬ Scan.Decides pc (.ok (.common 0)) found := by
    intro pc found hdecides
    cases hdecides
  have hbefore : ∀ found, ¬ Scan.Decides 0 (.ok (.frame highFrame)) found := by
    rintro found (_ | ⟨hstart, hend⟩)
    exact absurd hstart (by decide)
  have hlast : Scan.FirstDecides 0xffffffffffffffff (highFrames [3, 0, 0, 0]).records 1
      (.ok highFrame) := by
    rw [hbroken, Scan.firstDecides_cons_succ, Scan.firstDecides_cons_zero]
    exact ⟨hcommon _, Scan.Decides.frame (by decide) (by decide)⟩
  have hfirst : Scan.FirstDecides 0 (highFrames [3, 0, 0, 0]).records 2
      (.error (.entryTooShort 32 3)) := by
    rw [hbroken, Scan.firstDecides_cons_succ, Scan.firstDecides_cons_succ,
      Scan.firstDecides_cons_zero]
    exact ⟨hcommon 0, hbefore, Scan.Decides.fault _⟩
  have hnone : ∀ item ∈ (highFrames []).records, ∀ found, ¬ Scan.Decides 0 item found := by
    rw [hwhole]
    exact List.forall_mem_cons.mpr ⟨hcommon 0, List.forall_mem_singleton.mpr hbefore⟩
  obtain ⟨hfound, -, -, -⟩ := find_eq_first (highFrames [3, 0, 0, 0]) 0xffffffffffffffff
  obtain ⟨hmet, -, -, -⟩ := find_eq_first (highFrames [3, 0, 0, 0]) 0
  obtain ⟨-, huncovered, -, -⟩ := find_eq_first (highFrames []) 0
  have hlength : (highFrames []).records.length = 2 := congrArg List.length hwhole
  rw [hlength] at huncovered
  exact ⟨hlast, hfound 1 _ hlast 2, hfound 1 _ hlast 1, hfirst, hmet 2 _ hfirst 3,
    hmet 2 _ hfirst 2, hnone, huncovered hnone 2, huncovered hnone 1⟩

end FrameSection

end CallFrame
