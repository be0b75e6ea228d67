import CallFrame.CommandLine.Value

/-!
# The characters of a value

An address, and the bytes of an expression, are written with few characters: digits, the letter
of the mark, and a sign in front of a numeral. A text with any other character is refused as a
whole. So nothing that begins like an option is the value of one, and a printed address ends at
the next space.
-/

namespace CallFrame

namespace Hex

/-- The character can be part of a numeral, or of the marks and the sign in front of it. -/
def IsNumeral (c : Char) : Prop :=
  c = 'x' ∨ c = '+' ∨ (digitValue? c).isSome

theorem isNumeral_of_numberFrom
    {limit read n : Nat} {text : List Char} (h : numberFrom limit read text = .ok n) :
    ∀ c ∈ text, IsNumeral c := by
  induction text generalizing read with
  | nil =>
      intro c hc
      cases hc
  | cons first rest ih =>
      rw [numberFrom] at h
      rcases hdigit : digitValue? first with _ | d
      · rw [hdigit] at h
        cases h
      · rw [hdigit] at h
        by_cases hlimit : 16 * read + d < limit
        · simp only [if_pos hlimit] at h
          refine List.forall_mem_cons.mpr ⟨Or.inr (Or.inr ?_), ih h⟩
          rw [hdigit]
          rfl
        · simp only [if_neg hlimit] at h
          cases h

theorem isNumeral_of_number
    {limit n : Nat} {text : List Char} (h : number limit text = .ok n) :
    ∀ c ∈ text, IsNumeral c := by
  unfold number at h
  split at h
  · cases h
  · cases h
  · exact List.forall_mem_cons.mpr ⟨Or.inr (Or.inl rfl), isNumeral_of_numberFrom h⟩
  · exact isNumeral_of_numberFrom h

theorem isNumeral_of_unmarked
    {text : List Char} (h : ∀ c ∈ unmarked text, IsNumeral c) :
    ∀ c ∈ text, IsNumeral c := by
  fun_induction unmarked text with
  | case1 rest ih =>
      exact List.forall_mem_cons.mpr ⟨Or.inr (Or.inr rfl),
        List.forall_mem_cons.mpr ⟨Or.inl rfl, ih h⟩⟩
  | case2 text =>
      exact h

end Hex

namespace CommandLine

theorem isNumeral_of_address
    {text : String} {n : UInt64} (h : address text = .ok n) :
    ∀ c ∈ text.toList, Hex.IsNumeral c := by
  unfold address at h
  rcases hnumber : Hex.number UInt64.size (Hex.unmarked text.toList) with cause | value
  · rw [hnumber] at h
    cases h
  · exact Hex.isNumeral_of_unmarked (Hex.isNumeral_of_number hnumber)

/-- A printed address is read back. -/
theorem address_marked
    (n : UInt64) :
    address (Hex.marked n.toNat) = .ok n := by
  simp only [address, Hex.number_unmarked_marked n.toNat_lt_size, UInt64.ofNat_toNat]

end CommandLine

end CallFrame
