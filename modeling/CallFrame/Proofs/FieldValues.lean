import CallFrame.Transcript
import Mathlib.Data.Nat.Digits.Lemmas

/-!
# Reads of fixed size

Most reads ask for a number of bytes that is known before. Such a read takes all of its bytes or
none. The bytes that it takes are handed out as they are, passed over, or taken for a number in
base 256. In a number the byte order decides how much a byte counts, and the upper half of the
numbers may stand for those below zero.

The value of a field is said here as a sum, in which every byte is multiplied by the power of 256
that belongs to its place. Reversing the bytes exchanges the places of the two byte orders. So
what a read finds in one byte order, it finds in the reversed bytes in the other one.
-/

namespace CallFrame

namespace ByteOrder

/-- How many bytes of a field count less than the one at an index. -/
def place : ByteOrder → Nat → Nat → Nat
  | .little, _, i => i
  | .big, width, i => width - 1 - i

/-- The exact value of a field in base 256. -/
def fieldSum (order : ByteOrder) (field : Bytes) : Nat :=
  ((field.map UInt8.toNat).mapIdx fun i digit => digit * 256 ^ order.place field.length i).sum

theorem littleValue_eq_ofDigits
    (field : Bytes) :
    littleValue field = Nat.ofDigits 256 (field.map UInt8.toNat) := by
  induction field with
  | nil =>
      rfl
  | cons byte rest ih =>
      rw [littleValue, ih, List.map_cons, Nat.ofDigits_cons]

/-- The places of the one byte order are those of the other one, from the end. -/
theorem fieldSum_big
    (field : Bytes) :
    fieldSum .big field = fieldSum .little field.reverse := by
  have hmirror := @List.mapIdx_reverse _ _ (field.map UInt8.toNat) fun i digit => digit * 256 ^ i
  rw [List.length_map] at hmirror
  rw [fieldSum, fieldSum, List.map_reverse]
  simp only [place]
  rw [hmirror, List.sum_reverse]

theorem value_eq_fieldSum
    (order : ByteOrder) (field : Bytes) :
    order.value field = order.fieldSum field := by
  have hlittle (digits : Bytes) : littleValue digits = fieldSum .little digits := by
    rw [littleValue_eq_ofDigits, Nat.ofDigits_eq_sum_mapIdx]
    rfl
  cases order with
  | little =>
      exact hlittle field
  | big =>
      rw [fieldSum_big, ← hlittle]
      rfl

theorem capacity_eq_pow
    (width : Nat) :
    capacity width = 256 ^ width := by
  induction width with
  | zero =>
      rfl
  | succ width ih =>
      rw [capacity, ih, Nat.pow_succ, Nat.mul_comm]

theorem fieldSum_lt
    {field : Bytes} {width : Nat} (h : field.length = width) (order : ByteOrder) :
    order.fieldSum field < 256 ^ width := by
  rw [← value_eq_fieldSum, ← capacity_eq_pow, ← h]
  exact order.value_lt field

end ByteOrder

/-- The integer that a number of so many bytes stands for in two's complement. The upper half of
these numbers is below zero. -/
def twosComplement (width n : Nat) : Int :=
  if 2 * n < 256 ^ width then n else n - 256 ^ width

theorem toInt_toInt8
    (n : UInt8) :
    n.toInt8.toInt = twosComplement 1 n.toNat :=
  BitVec.toInt_eq_toNat_cond n.toBitVec

theorem toInt_toInt16
    (n : UInt16) :
    n.toInt16.toInt = twosComplement 2 n.toNat :=
  BitVec.toInt_eq_toNat_cond n.toBitVec

namespace Reader

variable {α β : Type} {reader : Reader α} {size : Nat} {meaning : Bytes → α}

/-- The reader takes so many bytes and makes this of them. If there are fewer, it takes none and
says how many there are. -/
structure Fixed (reader : Reader α) (size : Nat) (meaning : Bytes → α) : Prop where
  run_append : ∀ field after, field.length = size →
    reader.run (field ++ after) = (.ok (meaning field), after)
  run_of_lt : ∀ bytes, bytes.length < size →
    reader.run bytes = (.error (.outOfBytes size bytes.length), bytes)

theorem Fixed.map
    (h : reader.Fixed size meaning) (f : α → β) :
    Fixed (do return f (← reader)) size fun field => f (meaning field) where
  run_append field after hlength := run_bind_ok (h.run_append field after hlength) _
  run_of_lt bytes hlt := run_bind_error (h.run_of_lt bytes hlt) _

theorem Fixed.congr
    {other : Bytes → α} (h : reader.Fixed size meaning)
    (hother : ∀ field, field.length = size → meaning field = other field) :
    reader.Fixed size other where
  run_append field after hlength := by
    rw [h.run_append field after hlength, hother field hlength]
  run_of_lt := h.run_of_lt

theorem fixed_take
    (count : Nat) :
    (take count).Fixed count id where
  run_append _ after hlength := run_take_append hlength after
  run_of_lt _ hlt := run_take_of_lt hlt

theorem fixed_skip
    (count : Nat) :
    (skip count).Fixed count fun _ => () :=
  (fixed_take count).map fun _ => ()

/-- The number that is read is the exact value of the field. -/
theorem fixed_field
    (order : ByteOrder) (width : Nat) :
    (field order width).Fixed width order.fieldSum :=
  ((fixed_take width).map order.value).congr fun bytes _ => order.value_eq_fieldSum bytes

theorem fixed_u8
    (order : ByteOrder) :
    u8.Fixed 1 fun bytes => UInt8.ofNat (order.fieldSum bytes) where
  run_append bytes after hlength := by
    obtain ⟨byte, rfl⟩ := List.length_eq_one_iff.mp hlength
    have hvalue : order.fieldSum [byte] = byte.toNat := by
      cases order <;> simp [ByteOrder.fieldSum, ByteOrder.place]
    rw [hvalue, UInt8.ofNat_toNat]
    rfl
  run_of_lt bytes hlt := by
    rw [List.length_eq_zero_iff.mp (Nat.lt_one_iff.mp hlt)]
    rfl

end Reader

namespace Transcript

/-- What the bytes of a read are taken for. -/
inductive Form where
  /-- A number. -/
  | natural
  /-- A number in two's complement. -/
  | integer
  /-- The bytes as they are. -/
  | itself
  /-- Nothing. -/
  | nothing
  deriving DecidableEq

/-- The answer that is made of the bytes of a read. -/
def Form.answer (order : ByteOrder) (field : Bytes) : Form → Answer
  | .natural => .number (order.fieldSum field)
  | .integer => .number (twosComplement field.length (order.fieldSum field))
  | .itself => .bytes field
  | .nothing => .moved

/-- How many bytes a read of fixed size takes, and what it takes them for. -/
def Request.fixed? : Request → Option (Nat × Form)
  | .u8 => some (1, .natural)
  | .i8 => some (1, .integer)
  | .u16 => some (2, .natural)
  | .i16 => some (2, .integer)
  | .u32 => some (4, .natural)
  | .u64 => some (8, .natural)
  | .take count => some (count, .itself)
  | .skip count => some (count, .nothing)
  | .unsigned | .signed => none

theorem Form.answer_big
    {form : Form} (h : form ≠ .itself) (field : Bytes) :
    form.answer .big field = form.answer .little field.reverse := by
  cases form with
  | itself =>
      exact absurd rfl h
  | natural | integer | nothing =>
      simp [answer, ByteOrder.fieldSum_big]

section Words

variable {α : Type} {order : ByteOrder} {reader : Reader α} {size : Nat}

/-- A word without a sign gives back the numbers that are small enough for it. -/
theorem fixed_natural
    (store : Nat → α) {load : α → Nat}
    (h : reader.Fixed size fun field => store (order.fieldSum field))
    (hload : ∀ n < 256 ^ size, load (store n) = n) :
    Reader.Fixed (do return Answer.number (load (← reader))) size
      (Form.answer order · .natural) := by
  refine (h.map _).congr fun field hlength => ?_
  rw [hload _ (order.fieldSum_lt hlength), Form.answer]

/-- A word with a sign gives them back in two's complement. -/
theorem fixed_integer
    (store : Nat → α) {load : α → Int}
    (h : reader.Fixed size fun field => store (order.fieldSum field))
    (hload : ∀ n < 256 ^ size, load (store n) = twosComplement size n) :
    Reader.Fixed (do return Answer.number (load (← reader))) size
      (Form.answer order · .integer) := by
  refine (h.map _).congr fun field hlength => ?_
  rw [hload _ (order.fieldSum_lt hlength), Form.answer, hlength]

end Words

/-- A read of fixed size makes of its bytes what they are taken for. -/
theorem Request.fixed_reader
    {request : Request} {size : Nat} {form : Form} (h : request.fixed? = some (size, form))
    (order : ByteOrder) :
    (request.reader order).Fixed size (form.answer order ·) := by
  cases request with
  | u8 =>
      cases h
      exact fixed_natural UInt8.ofNat (Reader.fixed_u8 order) fun _ => UInt8.toNat_ofNat_of_lt'
  | i8 =>
      cases h
      have hword := (Reader.fixed_u8 order).map UInt8.toInt8
      refine fixed_integer (fun n => (UInt8.ofNat n).toInt8) hword fun n hn => ?_
      rw [toInt_toInt8, UInt8.toNat_ofNat_of_lt' hn]
  | u16 =>
      cases h
      exact fixed_natural UInt16.ofNat ((Reader.fixed_field order 2).map _) fun _ =>
        UInt16.toNat_ofNat_of_lt'
  | i16 =>
      cases h
      have hword := ((Reader.fixed_field order 2).map UInt16.ofNat).map UInt16.toInt16
      refine fixed_integer (fun n => (UInt16.ofNat n).toInt16) hword fun n hn => ?_
      rw [toInt_toInt16, UInt16.toNat_ofNat_of_lt' hn]
  | u32 =>
      cases h
      exact fixed_natural UInt32.ofNat ((Reader.fixed_field order 4).map _) fun _ =>
        UInt32.toNat_ofNat_of_lt'
  | u64 =>
      cases h
      exact fixed_natural UInt64.ofNat ((Reader.fixed_field order 8).map _) fun _ =>
        UInt64.toNat_ofNat_of_lt'
  | take =>
      cases h
      exact (Reader.fixed_take size).map _
  | skip =>
      cases h
      exact (Reader.fixed_skip size).map _
  | unsigned | signed =>
      cases h

/-- What is read in one byte order is read from the reversed bytes in the other one. -/
theorem Request.run_big_eq
    {request : Request} {form : Form} {field : Bytes}
    (h : request.fixed? = some (field.length, form)) (hform : form ≠ .itself) (after : Bytes) :
    (request.reader .big).run (field ++ after) =
      (request.reader .little).run (field.reverse ++ after) := by
  rw [(fixed_reader h .big).run_append field after rfl,
    (fixed_reader h .little).run_append field.reverse after List.length_reverse,
    Form.answer_big hform]

end Transcript

end CallFrame
