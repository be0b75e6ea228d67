import CallFrame.Reader.Stable

/-!
# Entries of the frame section

The section is a sequence of entries. An entry begins with its length, a field of four
bytes that counts the bytes after it; the first four of these are the marker, which
either says that the entry is a common information entry or refers to one.

The length `0xffffffff` announces the 64-bit format, and a length below four leaves no
room for the marker. Both are faults of the entry, named with its offset.

Main fact: an entry can be read exactly where one is written whose length is below
`0xffffffff`, and what follows it is left unread.
-/

namespace CallFrame

/-- The marker of a common information entry. -/
def commonMarker : UInt32 := 0xffffffff

/-- The length that announces the 64-bit format. -/
def wideLength : UInt32 := 0xffffffff

/-- An entry, cut out of the section by its length. -/
structure Entry where
  /-- What tells the kinds of entries apart. -/
  marker : UInt32
  /-- The bytes after the marker. -/
  payload : Bytes
  deriving DecidableEq

namespace Entry

/-- The number of bytes after the length field. -/
def length (entry : Entry) : Nat :=
  4 + entry.payload.length

/-- The bytes of an entry. -/
def encode (order : ByteOrder) (entry : Entry) : Bytes :=
  order.digits 4 entry.length ++ order.digits 4 entry.marker.toNat ++ entry.payload

/-- Checks a length, for the entry at the given offset. -/
def checkLength (offset : Nat) (length : UInt32) : Except Fault Unit :=
  if length = wideLength then .error (.wideFormat offset)
  else if length < 4 then .error (.entryTooShort offset length)
  else .ok ()

/-- Reads the marker and takes the other bytes as the payload. -/
def body (order : ByteOrder) : Reader Entry := do
  let marker ← Reader.u32 order
  let payload ← Reader.remainder
  return { marker, payload }

/-- Reads the entry that begins here. The offset of this place only serves to name
faults. -/
def reader (order : ByteOrder) (offset : Nat) : Reader Entry := do
  let length ← Reader.u32 order
  Reader.ofExcept (checkLength offset length)
  Reader.inside length.toNat (body order)

theorem stable_reader
    (order : ByteOrder) (offset : Nat) :
    (reader order offset).Stable :=
  (Reader.stable_u32 order).bind fun _ =>
    (Reader.stable_ofExcept _).bind fun _ => Reader.stable_inside _ _

@[simp] theorem length_encode
    (order : ByteOrder) (entry : Entry) :
    (entry.encode order).length = 4 + entry.length := by
  simp only [encode, List.length_append, ByteOrder.length_digits, length]
  omega

theorem checkLength_eq_ok_iff
    {offset : Nat} {length : UInt32} {u : Unit} :
    checkLength offset length = .ok u ↔ length ≠ wideLength ∧ 4 ≤ length.toNat := by
  have hfour : length < 4 ↔ length.toNat < 4 := UInt32.lt_iff_toNat_lt
  unfold checkLength
  split
  · simp_all
  · split <;> simp_all

theorem body_eq_ok_iff
    {order : ByteOrder} {bytes : Bytes} {entry : Entry} :
    (body order).result bytes = .ok entry ↔
      bytes = order.digits 4 entry.marker.toNat ++ entry.payload := by
  rw [Reader.result_eq_ok_iff]
  simp only [body, Reader.run_bind_eq_ok_iff, Reader.run_u32_eq_ok_iff,
    Reader.run_remainder, Reader.run_pure, Prod.mk.injEq, Except.ok.injEq]
  constructor
  · rintro ⟨_, marker, _, rfl, payload, _, ⟨rfl, rfl⟩, rfl, _⟩
    rfl
  · rintro rfl
    exact ⟨[], entry.marker, entry.payload, rfl, entry.payload, [], ⟨rfl, rfl⟩, rfl, rfl⟩

/-- An entry can be read exactly where one is written. -/
theorem run_reader_eq_ok_iff
    {order : ByteOrder} {offset : Nat} {bytes rest : Bytes}
    {entry : Entry} :
    (reader order offset).run bytes = (.ok entry, rest) ↔
      entry.length < wideLength.toNat ∧ bytes = entry.encode order ++ rest := by
  have hwide : wideLength.toNat = 4294967295 := rfl
  simp only [reader, Reader.inside, Reader.run_bind_eq_ok_iff, Reader.run_u32_eq_ok_iff,
    Reader.run_ofExcept, Reader.run_take_eq_ok_iff, Prod.mk.injEq, checkLength_eq_ok_iff,
    body_eq_ok_iff]
  constructor
  · rintro ⟨length, _, rfl, _, _, ⟨⟨hne, hfour⟩, rfl⟩, front, _, ⟨hfront, rfl⟩, rfl, rfl⟩
    have hlength : entry.length = length.toNat := by
      rw [← hfront, Entry.length, List.length_append, ByteOrder.length_digits]
    have hlt := length.toNat_lt
    have hne' : length.toNat ≠ wideLength.toNat := fun h => hne (UInt32.toNat_inj.mp h)
    refine ⟨by omega, ?_⟩
    simp [encode, hlength]
  · rintro ⟨hlength, rfl⟩
    have hlt : entry.length < 2 ^ 32 := by omega
    have htoNat : (UInt32.ofNat entry.length).toNat = entry.length :=
      UInt32.toNat_ofNat_of_lt' hlt
    have hfour : 4 ≤ entry.length := Nat.le_add_right 4 _
    refine ⟨UInt32.ofNat entry.length,
      order.digits 4 entry.marker.toNat ++ entry.payload ++ rest, ?_,
      (), _, ⟨⟨?_, ?_⟩, rfl⟩,
      order.digits 4 entry.marker.toNat ++ entry.payload, rest, ⟨?_, rfl⟩, rfl, rfl⟩
    · simp [encode, htoNat]
    · intro h
      have := congrArg UInt32.toNat h
      omega
    · omega
    · rw [htoNat, Entry.length, List.length_append, ByteOrder.length_digits]

end Entry

end CallFrame
