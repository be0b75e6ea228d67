import CallFrame.Reader

/-!
# Fixed-width fields

Fields of one, two, four and eight bytes, in either byte order. Signed fields are in
two's complement.

Main facts:

* reading a field succeeds exactly on the byte strings that begin with the digits of a
  number, and the value read is that number;
* when there are too few bytes, nothing is read and the fault says how many there were.
-/

namespace CallFrame

namespace Reader

/-- Reads a field of `width` bytes as a number. -/
def field (order : ByteOrder) (width : Nat) : Reader Nat := do
  let bytes ← take width
  return order.value bytes

theorem run_field_of_le
    {order : ByteOrder} {width : Nat} {bytes : Bytes}
    (h : width ≤ bytes.length) :
    (field order width).run bytes =
      (.ok (order.value (bytes.take width)), bytes.drop width) :=
  run_bind_ok (run_take_of_le h) _

theorem run_field_of_lt
    {order : ByteOrder} {width : Nat} {bytes : Bytes}
    (h : bytes.length < width) :
    (field order width).run bytes =
      (.error (.outOfBytes width bytes.length), bytes) :=
  run_bind_error (run_take_of_lt h) _

/-- A field can be read where the digits of a number stand. -/
theorem run_field_eq_ok_iff
    {order : ByteOrder} {width n : Nat} {bytes rest : Bytes} :
    (field order width).run bytes = (.ok n, rest) ↔
      n < ByteOrder.capacity width ∧ bytes = order.digits width n ++ rest := by
  simp only [field, run_bind_eq_ok_iff, run_take_eq_ok_iff, run_pure, Prod.mk.injEq,
    Except.ok.injEq]
  constructor
  · rintro ⟨front, _, ⟨rfl, rfl⟩, rfl, rfl⟩
    exact ⟨order.value_lt front, by rw [order.digits_value]⟩
  · rintro ⟨hn, rfl⟩
    refine ⟨order.digits width n, rest, ⟨order.length_digits width n, rfl⟩, ?_, rfl⟩
    rw [order.value_digits, Nat.mod_eq_of_lt hn]

/-- Reads a signed byte. -/
def i8 : Reader Int8 := do
  return (← u8).toInt8

/-- Reads a field of two bytes. -/
def u16 (order : ByteOrder) : Reader UInt16 := do
  return UInt16.ofNat (← field order 2)

/-- Reads a signed field of two bytes. -/
def i16 (order : ByteOrder) : Reader Int16 := do
  return (← u16 order).toInt16

/-- Reads a field of four bytes. -/
def u32 (order : ByteOrder) : Reader UInt32 := do
  return UInt32.ofNat (← field order 4)

/-- Reads a field of eight bytes. -/
def u64 (order : ByteOrder) : Reader UInt64 := do
  return UInt64.ofNat (← field order 8)

theorem run_u16_eq_ok_iff
    {order : ByteOrder} {n : UInt16} {bytes rest : Bytes} :
    (u16 order).run bytes = (.ok n, rest) ↔
      bytes = order.digits 2 n.toNat ++ rest := by
  simp only [u16, run_bind_eq_ok_iff, run_field_eq_ok_iff, run_pure, Prod.mk.injEq,
    Except.ok.injEq]
  constructor
  · rintro ⟨m, _, ⟨hm, rfl⟩, rfl, rfl⟩
    rw [UInt16.toNat_ofNat_of_lt' hm]
  · rintro rfl
    exact ⟨n.toNat, rest, ⟨n.toNat_lt, rfl⟩, UInt16.ofNat_toNat, rfl⟩

theorem run_u32_eq_ok_iff
    {order : ByteOrder} {n : UInt32} {bytes rest : Bytes} :
    (u32 order).run bytes = (.ok n, rest) ↔
      bytes = order.digits 4 n.toNat ++ rest := by
  simp only [u32, run_bind_eq_ok_iff, run_field_eq_ok_iff, run_pure, Prod.mk.injEq,
    Except.ok.injEq]
  constructor
  · rintro ⟨m, _, ⟨hm, rfl⟩, rfl, rfl⟩
    rw [UInt32.toNat_ofNat_of_lt' hm]
  · rintro rfl
    exact ⟨n.toNat, rest, ⟨n.toNat_lt, rfl⟩, UInt32.ofNat_toNat, rfl⟩

theorem run_u64_eq_ok_iff
    {order : ByteOrder} {n : UInt64} {bytes rest : Bytes} :
    (u64 order).run bytes = (.ok n, rest) ↔
      bytes = order.digits 8 n.toNat ++ rest := by
  simp only [u64, run_bind_eq_ok_iff, run_field_eq_ok_iff, run_pure, Prod.mk.injEq,
    Except.ok.injEq]
  constructor
  · rintro ⟨m, _, ⟨hm, rfl⟩, rfl, rfl⟩
    rw [UInt64.toNat_ofNat_of_lt' hm]
  · rintro rfl
    exact ⟨n.toNat, rest, ⟨n.toNat_lt, rfl⟩, UInt64.ofNat_toNat, rfl⟩

end Reader

end CallFrame
