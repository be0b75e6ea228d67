/-!
# Byte strings and byte order

A section of an object file is a finite byte string. Its fixed-width fields are
numbers in base 256, stored with the least significant digit first or last.

Main facts:

* writing a number and reading it back gives the number modulo the capacity of the field;
* reading and writing back gives the bytes.
-/

namespace CallFrame

/-- A byte string, first byte first. -/
abbrev Bytes := List UInt8

/-- The `size` bytes from `offset` on, if the byte string has all of them. -/
def Bytes.slice? (bytes : Bytes) (offset size : Nat) : Option Bytes :=
  if offset + size ≤ bytes.length then some ((bytes.drop offset).take size) else none

theorem Bytes.length_of_slice?
    {bytes part : Bytes} {offset size : Nat}
    (h : bytes.slice? offset size = some part) :
    part.length = size := by
  unfold Bytes.slice? at h
  split at h
  · cases h
    rw [List.length_take, List.length_drop]
    omega
  · simp at h

/-- The order in which the bytes of a field are stored. -/
inductive ByteOrder where
  | little
  | big
  deriving DecidableEq

namespace ByteOrder

/-- The number whose base-256 digits are the given bytes, least significant first. -/
def littleValue : Bytes → Nat
  | [] => 0
  | byte :: rest => byte.toNat + 256 * littleValue rest

/-- The last `count` base-256 digits of a number, least significant first. -/
def littleDigits : Nat → Nat → Bytes
  | 0, _ => []
  | count + 1, n => UInt8.ofNat n :: littleDigits count (n / 256)

/-- How many numbers a field of the given width can store. -/
def capacity : Nat → Nat
  | 0 => 1
  | width + 1 => 256 * capacity width

/-- The number stored in a field. -/
def value : ByteOrder → Bytes → Nat
  | .little, field => littleValue field
  | .big, field => littleValue field.reverse

/-- The field of `count` bytes that stores a number. -/
def digits : ByteOrder → Nat → Nat → Bytes
  | .little, count, n => littleDigits count n
  | .big, count, n => (littleDigits count n).reverse

theorem littleValue_lt
    (field : Bytes) :
    littleValue field < capacity field.length := by
  induction field with
  | nil =>
      exact Nat.one_pos
  | cons byte rest ih =>
      have := byte.toNat_lt
      simp only [littleValue, List.length_cons, capacity]
      omega

@[simp] theorem length_littleDigits
    (count n : Nat) :
    (littleDigits count n).length = count := by
  induction count generalizing n with
  | zero =>
      rfl
  | succ count ih =>
      simp [littleDigits, ih]

theorem littleValue_littleDigits
    (count n : Nat) :
    littleValue (littleDigits count n) = n % capacity count := by
  induction count generalizing n with
  | zero =>
      exact (Nat.mod_one n).symm
  | succ count ih =>
      have low : (UInt8.ofNat n).toNat = n % 256 := by simp
      rw [littleDigits, littleValue, ih, low, capacity, Nat.mod_mul]

theorem littleDigits_littleValue
    (field : Bytes) :
    littleDigits field.length (littleValue field) = field := by
  induction field with
  | nil =>
      rfl
  | cons byte rest ih =>
      have := byte.toNat_lt
      have high : (byte.toNat + 256 * littleValue rest) / 256 = littleValue rest := by
        omega
      have low : UInt8.ofNat (byte.toNat + 256 * littleValue rest) = byte := by
        apply UInt8.toNat_inj.mp
        rw [UInt8.toNat_ofNat']
        omega
      simp only [List.length_cons, littleDigits, littleValue, high, low, ih]

/-- A field stores a number below its capacity. -/
theorem value_lt
    (order : ByteOrder) (field : Bytes) :
    order.value field < capacity field.length := by
  cases order
  · exact littleValue_lt field
  · simpa [value] using littleValue_lt field.reverse

@[simp] theorem length_digits
    (order : ByteOrder) (count n : Nat) :
    (order.digits count n).length = count := by
  cases order <;> simp [digits]

/-- What is read back from a field is the number written, less what did not fit. -/
theorem value_digits
    (order : ByteOrder) (count n : Nat) :
    order.value (order.digits count n) = n % capacity count := by
  cases order <;> simp [value, digits, littleValue_littleDigits]

/-- A field is the only one of its width that stores its number. -/
theorem digits_value
    (order : ByteOrder) (field : Bytes) :
    order.digits field.length (order.value field) = field := by
  cases order with
  | little =>
      exact littleDigits_littleValue field
  | big =>
      have := littleDigits_littleValue field.reverse
      simp only [List.length_reverse] at this
      simp [digits, value, this]

end ByteOrder

end CallFrame
