import CallFrame.Leb128

/-!
# Canonical LEB128 encodings

Every number has group sequences of different lengths. The canonical one is the shortest:
it ends as soon as what is left of the number is zero or, in the signed form, nothing but
the sign.

Main facts:

* a canonical encoding is complete and has the value that it encodes;
* the canonical encoding of a number of 64 bits takes ten bytes at most, and is read back
  to this number, whatever follows it.
-/

namespace CallFrame

namespace Leb128

/-- The canonical encoding of a natural number: no byte more than it needs. -/
def encodeNatural (n : Nat) : Bytes :=
  if n < 128 then [UInt8.ofNat n]
  else UInt8.ofNat (n % 128 + 128) :: encodeNatural (n / 128)

/-- The canonical encoding of an integer: no byte more than it and its sign need. -/
def encodeInteger (n : Int) : Bytes :=
  if -64 ≤ n ∧ n < 64 then [UInt8.ofNat (n % 128).toNat]
  else UInt8.ofNat ((n % 128).toNat + 128) :: encodeInteger (n / 128)
termination_by n.natAbs
decreasing_by omega

/-- The bytes of an unsigned number of 64 bits. -/
def encodeUnsigned (n : UInt64) : Bytes :=
  encodeNatural n.toNat

/-- The bytes of a signed number of 64 bits. -/
def encodeSigned (n : Int64) : Bytes :=
  encodeInteger n.toInt

/-- How many numbers a group sequence of the given length can store. -/
def capacity : Nat → Nat
  | 0 => 1
  | count + 1 => 128 * capacity count

theorem complete_encodeNatural
    (n : Nat) :
    Complete (encodeNatural n) := by
  fun_induction encodeNatural n with
  | case1 n hn =>
      have : UInt8.ofNat n < 128 := by
        rw [UInt8.lt_iff_toNat_lt, UInt8.toNat_ofNat_of_lt' (by simp only [UInt8.size]; omega)]
        exact hn
      rw [Complete, if_pos this]
  | case2 n hn ih =>
      have : ¬ UInt8.ofNat (n % 128 + 128) < 128 := by
        rw [UInt8.lt_iff_toNat_lt, UInt8.toNat_ofNat_of_lt' (by simp only [UInt8.size]; omega)]
        exact Nat.not_lt.mpr (Nat.le_add_left 128 _)
      rw [Complete, if_neg this]
      exact ih

theorem naturalValue_encodeNatural
    (n : Nat) :
    naturalValue (encodeNatural n) = n := by
  fun_induction encodeNatural n with
  | case1 n hn =>
      simp only [naturalValue]
      rw [UInt8.toNat_ofNat_of_lt' (by simp only [UInt8.size]; omega)]
      omega
  | case2 n hn ih =>
      simp only [naturalValue, ih]
      rw [UInt8.toNat_ofNat_of_lt' (by simp only [UInt8.size]; omega)]
      omega

theorem length_encodeNatural_le
    {count n : Nat} (h : n < 128 * capacity count) :
    (encodeNatural n).length ≤ count + 1 := by
  induction count generalizing n with
  | zero =>
      rw [encodeNatural, if_pos (by simpa [capacity] using h)]
      exact Nat.le_refl _
  | succ count ih =>
      rw [encodeNatural]
      split
      · simp
      · rw [capacity] at h
        exact Nat.succ_le_succ (ih (by omega))

theorem complete_encodeInteger
    (n : Int) :
    Complete (encodeInteger n) := by
  fun_induction encodeInteger n with
  | case1 n hn =>
      have : UInt8.ofNat (n % 128).toNat < 128 := by
        rw [UInt8.lt_iff_toNat_lt, UInt8.toNat_ofNat_of_lt' (by simp only [UInt8.size]; omega)]
        change (n % 128).toNat < 128
        omega
      rw [Complete, if_pos this]
  | case2 n hn ih =>
      have : ¬ UInt8.ofNat ((n % 128).toNat + 128) < 128 := by
        rw [UInt8.lt_iff_toNat_lt, UInt8.toNat_ofNat_of_lt' (by simp only [UInt8.size]; omega)]
        exact Nat.not_lt.mpr (Nat.le_add_left 128 _)
      rw [Complete, if_neg this]
      exact ih

theorem encodeInteger_ne_nil
    (n : Int) :
    encodeInteger n ≠ [] := by
  intro h
  have := complete_encodeInteger n
  rw [h] at this
  exact this

theorem integerValue_cons
    {byte : UInt8} {rest : Bytes} (h : rest ≠ []) :
    integerValue (byte :: rest) = (byte.toNat % 128 : Nat) + 128 * integerValue rest := by
  cases rest with
  | nil =>
      exact absurd rfl h
  | cons next rest =>
      rw [integerValue]
      exact h

theorem integerValue_encodeInteger
    (n : Int) :
    integerValue (encodeInteger n) = n := by
  fun_induction encodeInteger n with
  | case1 n hn =>
      simp only [integerValue]
      rw [UInt8.toNat_ofNat_of_lt' (by simp only [UInt8.size]; omega)]
      split <;> omega
  | case2 n hn ih =>
      rw [integerValue_cons (encodeInteger_ne_nil _), ih,
        UInt8.toNat_ofNat_of_lt' (by simp only [UInt8.size]; omega)]
      omega

theorem length_encodeInteger_le
    {count : Nat} {n : Int}
    (h : -(64 * capacity count : Nat) ≤ n ∧ n < (64 * capacity count : Nat)) :
    (encodeInteger n).length ≤ count + 1 := by
  induction count generalizing n with
  | zero =>
      rw [encodeInteger, if_pos (by simpa [capacity] using h)]
      exact Nat.le_refl _
  | succ count ih =>
      rw [encodeInteger]
      split
      · simp
      · rw [capacity] at h
        exact Nat.succ_le_succ (ih (by omega))

/-- A canonical encoding is read back to its number, whatever follows it. -/
theorem run_unsigned_encodeUnsigned
    (n : UInt64) (rest : Bytes) :
    unsigned.run (encodeUnsigned n ++ rest) = (.ok n, rest) := by
  refine run_unsigned_eq_ok_iff.mpr
    ⟨encodeUnsigned n, complete_encodeNatural _, ?_, rfl, naturalValue_encodeNatural _⟩
  have := n.toNat_lt
  exact @length_encodeNatural_le 9 _ (by simp only [capacity]; omega)

/-- A canonical encoding is read back to its number, whatever follows it. -/
theorem run_signed_encodeSigned
    (n : Int64) (rest : Bytes) :
    signed.run (encodeSigned n ++ rest) = (.ok n, rest) := by
  refine run_signed_eq_ok_iff.mpr
    ⟨encodeSigned n, complete_encodeInteger _, ?_, rfl, integerValue_encodeInteger _⟩
  have hle := n.le_toInt
  have hlt := n.toInt_lt
  exact @length_encodeInteger_le 9 _ (by simp only [capacity]; omega)

end Leb128

end CallFrame
