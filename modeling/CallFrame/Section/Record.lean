import CallFrame.Section.Entry

/-!
# Records of the frame section

An entry is one of two records. A common information entry is only noted here with its
offset; what it says is read when a lookup needs it. A frame description covers the
address range of one function, and holds the instructions that build the rows of the
table for that range. The range never wraps around the end of the address space.

Main facts:

* a record can only be read where an entry is written;
* with a record read, less is left than before.
-/

namespace CallFrame

/-- A frame description: the part of the table for one address range. -/
structure Description where
  /-- Where the entry begins in the section. -/
  offset : Nat
  /-- Where the common information entry begins that it builds on. -/
  commonOffset : UInt32
  /-- The first address of the range. -/
  start : UInt64
  /-- The number of addresses in the range. -/
  range : UInt64
  /-- The instructions that build the rows. -/
  instructions : Bytes
  deriving DecidableEq

namespace Description

/-- The address lies in the range of the description. -/
def Covers (description : Description) (pc : UInt64) : Prop :=
  description.start.toNat ≤ pc.toNat ∧
    pc.toNat < description.start.toNat + description.range.toNat

instance (description : Description) (pc : UInt64) :
    Decidable (description.Covers pc) :=
  inferInstanceAs (Decidable (_ ∧ _))

/-- The least length of an entry that is a frame description: the marker, and two
addresses. -/
def minLength : Nat := 20

/-- Reads the fields after the marker. -/
def fields (order : ByteOrder) (offset : Nat) (commonOffset : UInt32) :
    Reader Description := do
  let start ← Reader.u64 order
  let range ← Reader.u64 order
  let instructions ← Reader.remainder
  return { offset, commonOffset, start, range, instructions }

end Description

/-- A record of the frame section. -/
inductive Record where
  /-- A common information entry, which begins at the given offset. -/
  | common (offset : Nat)
  /-- A frame description. -/
  | frame (description : Description)
  deriving DecidableEq

namespace Record

/-- The record that an entry is. -/
def ofEntry (order : ByteOrder) (offset : Nat) (entry : Entry) : Except Fault Record :=
  if entry.marker = commonMarker then
    .ok (.common offset)
  else if entry.length < Description.minLength then
    .error (.descriptionTooShort offset (UInt32.ofNat entry.length))
  else
    .frame <$> (Description.fields order offset entry.marker).result entry.payload

/-- Reads the record that begins here, at the given offset of the section. -/
def reader (order : ByteOrder) (offset : Nat) : Reader Record := do
  let entry ← Entry.reader order offset
  Reader.ofExcept (ofEntry order offset entry)

theorem stable_reader
    (order : ByteOrder) (offset : Nat) :
    (reader order offset).Stable :=
  (Entry.stable_reader order offset).bind fun _ => Reader.stable_ofExcept _

/-- A record can only be read where an entry is written. -/
theorem exists_entry_of_run
    {order : ByteOrder} {offset : Nat} {bytes rest : Bytes}
    {record : Record} (h : (reader order offset).run bytes = (.ok record, rest)) :
    ∃ entry : Entry, entry.length < wideLength.toNat ∧
      bytes = entry.encode order ++ rest ∧ ofEntry order offset entry = .ok record := by
  simp only [reader, Reader.run_bind_eq_ok_iff, Entry.run_reader_eq_ok_iff,
    Reader.run_ofExcept, Prod.mk.injEq] at h
  obtain ⟨entry, _, ⟨hlength, hbytes⟩, hrecord, rfl⟩ := h
  exact ⟨entry, hlength, hbytes, hrecord⟩

theorem length_rest_lt
    {order : ByteOrder} {offset : Nat} {bytes rest : Bytes}
    {record : Record} (h : (reader order offset).run bytes = (.ok record, rest)) :
    rest.length < bytes.length := by
  obtain ⟨entry, -, rfl, -⟩ := exists_entry_of_run h
  rw [List.length_append, Entry.length_encode]
  omega

/-- The record is a frame description that covers the address. -/
def Covers (pc : UInt64) : Record → Prop
  | .common _ => False
  | .frame description => description.Covers pc

instance (pc : UInt64) : (record : Record) → Decidable (record.Covers pc)
  | .common _ => inferInstanceAs (Decidable False)
  | .frame description => inferInstanceAs (Decidable (description.Covers pc))

end Record

end CallFrame
