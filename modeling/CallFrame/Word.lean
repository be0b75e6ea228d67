/-!
# Words of 64 bits

Addresses, offsets and factors are words of 64 bits. Where a result is computed exactly and
stored afterwards, these are the numbers that a word can hold, read without a sign or as
two's complement.

Main facts: the two ranges, and that a number in range is stored as it is.
-/

namespace CallFrame

/-- The number can be stored in a signed word. -/
def FitsSigned : Int → Prop
  | .ofNat n => n < 0x8000000000000000
  | .negSucc n => n < 0x8000000000000000

instance : (n : Int) → Decidable (FitsSigned n)
  | .ofNat n => inferInstanceAs (Decidable (n < _))
  | .negSucc n => inferInstanceAs (Decidable (n < _))

/-- The number can be stored in an unsigned word. -/
def FitsUnsigned : Int → Prop
  | .ofNat n => n < 0x10000000000000000
  | .negSucc _ => False

instance : (n : Int) → Decidable (FitsUnsigned n)
  | .ofNat n => inferInstanceAs (Decidable (n < _))
  | .negSucc _ => inferInstanceAs (Decidable False)

theorem fitsSigned_iff
    {n : Int} :
    FitsSigned n ↔ -0x8000000000000000 ≤ n ∧ n < 0x8000000000000000 := by
  cases n with
  | ofNat n =>
      change n < 0x8000000000000000 ↔ _
      rw [Int.ofNat_eq_natCast]
      omega
  | negSucc n =>
      change n < 0x8000000000000000 ↔ _
      rw [Int.negSucc_eq]
      omega

theorem fitsUnsigned_iff
    {n : Int} :
    FitsUnsigned n ↔ 0 ≤ n ∧ n < 0x10000000000000000 := by
  cases n with
  | ofNat n =>
      change n < 0x10000000000000000 ↔ _
      rw [Int.ofNat_eq_natCast]
      omega
  | negSucc n =>
      rw [Int.negSucc_eq]
      exact ⟨False.elim, fun h => by omega⟩

theorem fitsSigned_toInt
    (n : Int64) :
    FitsSigned n.toInt := by
  have hle := n.le_toInt
  have hlt := n.toInt_lt
  rw [fitsSigned_iff]
  omega

theorem fitsUnsigned_toNat
    (n : UInt64) :
    FitsUnsigned n.toNat := by
  have hlt := n.toNat_lt
  rw [fitsUnsigned_iff]
  omega

/-- A number that fits is stored as it is. -/
theorem toInt_ofInt_of_fits
    {n : Int} (h : FitsSigned n) :
    (Int64.ofInt n).toInt = n := by
  rw [fitsSigned_iff] at h
  exact Int64.toInt_ofInt_of_le h.1 h.2

/-- A number that fits is stored as it is. -/
theorem toNat_ofNat_of_fits
    {n : Nat} (h : FitsUnsigned n) :
    (UInt64.ofNat n).toNat = n :=
  UInt64.toNat_ofNat_of_lt' h

end CallFrame
