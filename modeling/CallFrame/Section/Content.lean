import CallFrame.Section.Scan

/-!
# Contents of records

What a record says does not depend on where it is in a section. A content is a record
without its place: it can be written anywhere, and becomes a record there.

Main facts:

* a written content is read back as a record at its place;
* scanning written contents with anything behind them gives their records, and then the
  items of what is behind them.
-/

namespace CallFrame

/-- A record without its place. -/
inductive Content where
  /-- A common information entry with the bytes after its marker. -/
  | common (payload : Bytes)
  /-- A frame description. -/
  | frame (commonOffset : UInt32) (start range : UInt64) (instructions : Bytes)
  deriving DecidableEq

namespace Content

/-- The entry that holds the content. -/
def entry (order : ByteOrder) : Content → Entry
  | .common payload => { marker := commonMarker, payload }
  | .frame commonOffset start range instructions => {
    marker := commonOffset
    payload := order.digits 8 start.toNat ++ order.digits 8 range.toNat ++ instructions }

/-- The bytes of the content. -/
def encode (order : ByteOrder) (content : Content) : Bytes :=
  (content.entry order).encode order

/-- The record that the content is at a place. -/
def record (offset : Nat) : Content → Record
  | .common _ => .common offset
  | .frame commonOffset start range instructions =>
    .frame { offset, commonOffset, start, range, instructions }

/-- The content can be written: its length is no special one, and a frame description does
not carry the marker of a common information entry. -/
def Writable (order : ByteOrder) (content : Content) : Prop :=
  (content.entry order).length < wideLength.toNat ∧
    match content with
    | .common _ => True
    | .frame commonOffset .. => commonOffset ≠ commonMarker

/-- The records of contents that are written one behind the other. -/
def records (order : ByteOrder) : Nat → List Content → List Record
  | _, [] => []
  | offset, content :: rest =>
    content.record offset :: records order (offset + (content.encode order).length) rest

theorem fields_frame
    (order : ByteOrder) (offset : Nat) (commonOffset : UInt32)
    (start range : UInt64) (instructions : Bytes) :
    (Description.fields order offset commonOffset).result
        (order.digits 8 start.toNat ++ order.digits 8 range.toNat ++ instructions) =
      .ok { offset, commonOffset, start, range, instructions } := by
  rw [Reader.result, Description.fields, List.append_assoc,
    Reader.run_bind_ok (Reader.run_u64_eq_ok_iff.mpr rfl),
    Reader.run_bind_ok (Reader.run_u64_eq_ok_iff.mpr rfl),
    Reader.run_bind_ok (Reader.run_remainder instructions)]
  rfl

theorem ofEntry_entry
    {order : ByteOrder} {content : Content}
    (h : content.Writable order) (offset : Nat) :
    Record.ofEntry order offset (content.entry order) = .ok (content.record offset) := by
  cases content with
  | common payload =>
      exact if_pos rfl
  | frame commonOffset start range instructions =>
      have hmarker : ¬ ((frame commonOffset start range instructions).entry order).marker =
          commonMarker := h.2
      have hlength : ¬ ((frame commonOffset start range instructions).entry order).length <
          Description.minLength := by
        simp only [entry, Entry.length, Description.minLength, List.length_append,
          ByteOrder.length_digits]
        omega
      rw [Record.ofEntry, if_neg hmarker, if_neg hlength]
      simp only [entry, fields_frame]
      rfl

/-- A written content is read back, and what follows it is left unread. -/
theorem run_reader_encode
    {order : ByteOrder} {content : Content}
    (h : content.Writable order) (offset : Nat) (rest : Bytes) :
    (Record.reader order offset).run (content.encode order ++ rest) =
      (.ok (content.record offset), rest) := by
  have hentry : (Entry.reader order offset).run (content.encode order ++ rest) =
      (.ok (content.entry order), rest) :=
    Entry.run_reader_eq_ok_iff.mpr ⟨h.1, rfl⟩
  rw [Record.reader, Reader.run_bind_ok hentry, Reader.run_ofExcept, ofEntry_entry h]

theorem encode_ne_nil
    (order : ByteOrder) (content : Content) :
    content.encode order ≠ [] := by
  intro h
  have := congrArg List.length h
  rw [encode, Entry.length_encode] at this
  simp at this

/-- Scanning a written content gives its record, and then what follows it. -/
theorem items_encode_append
    {order : ByteOrder} {content : Content}
    (h : content.Writable order) (offset : Nat) (rest : Bytes) :
    Scan.items { order, offset, rest := content.encode order ++ rest } =
      .ok (content.record offset) ::
        Scan.items {
          order
          offset := offset + (content.encode order).length
          rest } := by
  refine Scan.items_of_some ?_
  rw [Scan.next?, if_neg (fun hnil => encode_ne_nil order content
    (List.append_eq_nil_iff.mp hnil).1)]
  simp only [run_reader_encode h, List.length_append, Nat.add_sub_cancel]

/-- Scanning written contents gives their records, and then what follows them. -/
theorem items_flatMap_encode_append
    {order : ByteOrder} {contents : List Content}
    (h : ∀ content ∈ contents, content.Writable order) (offset : Nat) (rest : Bytes) :
    Scan.items { order, offset, rest := contents.flatMap (encode order) ++ rest } =
      (records order offset contents).map Except.ok ++
        Scan.items {
          order
          offset := offset + (contents.flatMap (encode order)).length
          rest } := by
  induction contents generalizing offset with
  | nil =>
      rfl
  | cons content contents ih =>
      have hhead := h content List.mem_cons_self
      have htail := fun other hother => h other (List.mem_cons_of_mem content hother)
      rw [List.flatMap_cons, List.append_assoc, items_encode_append hhead, ih htail,
        List.length_append, Nat.add_assoc]
      rfl

end Content

end CallFrame
