import CallFrame.Proofs.ScanContents

/-!
# The records of a scan tile the section

The records that a scan yields lie one behind the other, without a gap and without an
overlap, from the first byte on. Where the scan ends without a fault, they make up the whole
section.

The place of a record and the values it reports are stated by the bytes of the section
alone: each record fills a span, whose length the first field of the span gives. A scan has
no other items than these records and one last fault, and asking it for more than it has
gives nothing, however often it is asked.
-/

namespace CallFrame

namespace ByteOrder

/-- The number stored in the field of `width` bytes at an offset. -/
def fieldAt (order : ByteOrder) (bytes : Bytes) (offset width : Nat) : Nat :=
  order.value ((bytes.drop offset).take width)

theorem fieldAt_append_digits
    {order : ByteOrder} (front : Bytes) {rest : Bytes} {offset width n : Nat}
    (hfront : front.length = offset) (hn : n < capacity width) :
    order.fieldAt (front ++ (order.digits width n ++ rest)) offset width = n := by
  subst hfront
  have htake : ((order.digits width n ++ rest).take width) = order.digits width n := by
    rw [List.take_append_of_le_length (by simp), List.take_of_length_le (by simp)]
  rw [fieldAt, List.drop_left, htake, value_digits, Nat.mod_eq_of_lt hn]

end ByteOrder

namespace Record

/-- The record is the one that the fields of a span describe, where the span begins at the
offset. -/
def ReadsOff (order : ByteOrder) (offset : Nat) (span : Bytes) : Record → Prop
  | .common place => order.fieldAt span 4 4 = 0xffffffff ∧ place = offset
  | .frame description =>
      order.fieldAt span 4 4 ≠ 0xffffffff ∧
      20 ≤ order.fieldAt span 0 4 ∧
      description.offset = offset ∧
      description.commonOffset.toNat = order.fieldAt span 4 4 ∧
      description.start.toNat = order.fieldAt span 8 8 ∧
      description.range.toNat = order.fieldAt span 16 8 ∧
      description.instructions = span.drop 24 ∧
      description.instructions.length = order.fieldAt span 0 4 - 20

/-- The span holds the record and nothing else: its first field counts the bytes behind
it. -/
structure Fills (order : ByteOrder) (offset : Nat) (span : Bytes) (record : Record) :
    Prop where
  length_eq : span.length = 4 + order.fieldAt span 0 4
  four_le : 4 ≤ order.fieldAt span 0 4
  le_max : order.fieldAt span 0 4 ≤ 0xfffffffe
  readsOff : record.ReadsOff order offset span

theorem fills_encode
    {order : ByteOrder} {content : Content} (h : content.Writable order) (offset : Nat) :
    (content.record offset).Fills order offset (content.encode order) := by
  obtain ⟨hwide, hmarker⟩ := h
  have hmax : wideLength.toNat = 0xffffffff := rfl
  have hcapacity : ByteOrder.capacity 4 = 0x100000000 := rfl
  have hlength : order.fieldAt (content.encode order) 0 4 = (content.entry order).length := by
    rw [Content.encode, Entry.encode, List.append_assoc]
    exact ByteOrder.fieldAt_append_digits [] rfl (by omega)
  have hsecond : order.fieldAt (content.encode order) 4 4 =
      (content.entry order).marker.toNat := by
    rw [Content.encode, Entry.encode, List.append_assoc]
    exact ByteOrder.fieldAt_append_digits _ (by simp)
      (by have := (content.entry order).marker.toNat_lt; omega)
  refine ⟨?_, ?_, ?_, ?_⟩
  · rw [hlength, Content.encode, Entry.length_encode]
  · rw [hlength, Entry.length]
    omega
  · rw [hlength]
    omega
  · cases content with
    | common payload =>
        exact ⟨hsecond, rfl⟩
    | frame commonOffset start range instructions =>
        have hbytes : (Content.frame commonOffset start range instructions).encode order =
            order.digits 4 ((Content.frame commonOffset start range
              instructions).entry order).length ++ (order.digits 4 commonOffset.toNat ++
              (order.digits 8 start.toNat ++ (order.digits 8 range.toNat ++ instructions))) := by
          simp only [Content.encode, Content.entry, Entry.encode, List.append_assoc]
        refine ⟨?_, ?_, rfl, hsecond.symm, ?_, ?_, ?_, ?_⟩
        · rw [hsecond]
          intro heq
          exact hmarker (UInt32.toNat_inj.mp heq)
        · rw [hlength]
          simp only [Content.entry, Entry.length, List.length_append, ByteOrder.length_digits]
          omega
        · rw [hbytes, ← List.append_assoc]
          exact (ByteOrder.fieldAt_append_digits _ (by simp) start.toNat_lt).symm
        · rw [hbytes, ← List.append_assoc, ← List.append_assoc]
          exact (ByteOrder.fieldAt_append_digits _ (by simp) range.toNat_lt).symm
        · rw [hbytes, ← List.append_assoc, ← List.append_assoc, ← List.append_assoc]
          exact (List.drop_left' (by simp)).symm
        · rw [hlength]
          simp only [Content.entry, Entry.length, List.length_append, ByteOrder.length_digits]
          omega

end Record

/-- Records that fill spans one behind the other, where the first span begins at the
offset. -/
inductive Tiling (order : ByteOrder) : Nat → List Bytes → List Record → Prop
  | nil (offset : Nat) : Tiling order offset [] []
  | cons {offset : Nat} {span : Bytes} {record : Record} {spans : List Bytes}
      {records : List Record} (head : record.Fills order offset span)
      (tail : Tiling order (offset + span.length) spans records) :
      Tiling order offset (span :: spans) (record :: records)

namespace Tiling

variable {order : ByteOrder}

theorem of_contents
    {contents : List Content} (h : ∀ content ∈ contents, content.Writable order)
    (offset : Nat) :
    Tiling order offset (contents.map (Content.encode order))
      (Content.records order offset contents) := by
  induction contents generalizing offset with
  | nil =>
      exact Tiling.nil offset
  | cons content contents ih =>
      exact Tiling.cons
        (Record.fills_encode (h content List.mem_cons_self) offset)
        (ih (fun other hother => h other (List.mem_cons_of_mem content hother)) _)

theorem mul_length_le
    {offset : Nat} {spans : List Bytes} {records : List Record}
    (h : Tiling order offset spans records) :
    8 * records.length ≤ spans.flatten.length := by
  induction h with
  | nil =>
      simp
  | cons head tail ih =>
      have hlength := head.length_eq
      have hfour := head.four_le
      simp only [List.length_cons, List.flatten_cons, List.length_append]
      omega

end Tiling

namespace Scan

/-- The scan after it was asked for an item, whether or not it had one. -/
def advance (scan : Scan) : Scan :=
  match scan.next? with
  | none => scan
  | some (_, behind) => behind

/-- The answer of the scan when it is asked for an item after `count` earlier times. -/
def answer (scan : Scan) : Nat → Option (Except Fault Record)
  | 0 => scan.next?.map Prod.fst
  | count + 1 => scan.advance.answer count

/-- A scan answers with its items in order, and with nothing from then on. -/
theorem answer_eq_getElem?_items
    (scan : Scan) (count : Nat) :
    scan.answer count = scan.items[count]? := by
  induction count generalizing scan with
  | zero =>
      rcases hnext : scan.next? with _ | ⟨item, behind⟩
      · simp [answer, hnext, items_of_none hnext]
      · simp [answer, hnext, items_of_some hnext]
  | succ count ih =>
      rw [answer, ih]
      rcases hnext : scan.next? with _ | ⟨item, behind⟩
      · simp [advance, hnext, items_of_none hnext]
      · simp [advance, hnext, items_of_some hnext]

/-- **Exact tiling.** The items of a scan are records that tile the section from its first
byte on, and at most one fault behind them, which is there exactly when bytes are left. -/
theorem items_tile_section
    (order : ByteOrder) (bytes : Bytes) :
    ∃ (spans : List Bytes) (records : List Record) (rest : Bytes) (fault? : Option Fault),
      (Scan.start order bytes).items = records.map .ok ++ fault?.toList.map .error ∧
      (∀ count, (Scan.start order bytes).answer count =
        (records.map .ok ++ fault?.toList.map .error)[count]?) ∧
      records.length ≤ bytes.length / 8 ∧
      Tiling order 0 spans records ∧
      bytes = spans.flatten ++ rest ∧
      (fault? = none ↔ rest = []) := by
  obtain ⟨contents, rest, fault?, hwritable, hbytes, hended⟩ := exists_contents order 0 bytes
  have htiling := Tiling.of_contents hwritable 0
  have hitems : (Scan.start order bytes).items =
      (Content.records order 0 contents).map .ok ++ fault?.toList.map .error := by
    rw [start, hbytes]
    exact items_contents hwritable hended
  have hflatten : bytes = (contents.map (Content.encode order)).flatten ++ rest := by
    rw [← List.flatMap_def]
    exact hbytes
  refine ⟨contents.map (Content.encode order), Content.records order 0 contents, rest, fault?,
    hitems, ?_, ?_, htiling, hflatten, hended.fault_eq_none_iff⟩
  · intro count
    rw [answer_eq_getElem?_items, hitems]
  · have hmul := htiling.mul_length_le
    have hlength := congrArg List.length hflatten
    rw [List.length_append] at hlength
    omega

end Scan

end CallFrame
