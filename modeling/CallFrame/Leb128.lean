import CallFrame.Reader.Stable
import CallFrame.Word

/-!
# LEB128 numbers

A number of variable width is a sequence of bytes that carry seven bits each, least
significant first. The top bit of a byte is set when another byte follows. In the
signed form bit 6 of the last byte is the sign, and extends over all higher bits.

Reading cuts out the bytes first and computes their exact value second. Numbers that do
not fit into 64 bits are rejected, and ten bytes hold every number that does, so the
cutting stops after ten bytes.

Main facts:

* what is read is a complete group sequence at the front of the byte string;
* a number is read exactly where a complete sequence of at most ten groups has its value.
-/

namespace CallFrame

namespace Leb128

/-- The most bytes that one number may take. -/
def maxGroups : Nat := 10

/-- Reads the bytes up to and with the first whose top bit is clear, `room` bytes at most. -/
def groups : Nat → Reader Bytes
  | 0 => .fail .numberTooWide
  | room + 1 => do
    let byte ← Reader.u8
    if byte < 128 then
      return [byte]
    else
      let rest ← groups room
      return byte :: rest

/-- The number that a group sequence stands for in the unsigned form. -/
def naturalValue : Bytes → Nat
  | [] => 0
  | byte :: rest => byte.toNat % 128 + 128 * naturalValue rest

/-- The number that a group sequence stands for in the signed form. -/
def integerValue : Bytes → Int
  | [] => 0
  | [byte] =>
    if byte.toNat % 128 < 64 then (byte.toNat % 128 : Nat) else (byte.toNat % 128 : Nat) - 128
  | byte :: rest => (byte.toNat % 128 : Nat) + 128 * integerValue rest

/-- Reads an unsigned number of 64 bits. -/
def unsigned : Reader UInt64 := do
  let bytes ← groups maxGroups
  if FitsUnsigned (naturalValue bytes) then
    return UInt64.ofNat (naturalValue bytes)
  else
    .fail .numberTooWide

/-- Reads a signed number of 64 bits. -/
def signed : Reader Int64 := do
  let bytes ← groups maxGroups
  if FitsSigned (integerValue bytes) then
    return Int64.ofInt (integerValue bytes)
  else
    .fail .numberTooWide

/-- A complete group sequence: the top bit is clear in its last byte, and set in all
others. -/
def Complete : Bytes → Prop
  | [] => False
  | byte :: rest => if byte < 128 then rest = [] else Complete rest

/-- What is read is a complete group sequence at the front, no longer than there is room
for. -/
theorem run_groups_eq_ok_iff
    {room : Nat} {bytes front rest : Bytes} :
    (groups room).run bytes = (.ok front, rest) ↔
      Complete front ∧ front.length ≤ room ∧ bytes = front ++ rest := by
  induction room generalizing bytes front rest with
  | zero =>
      constructor
      · intro h
        cases h
      · rintro ⟨hcomplete, hlength, -⟩
        rw [List.length_eq_zero_iff.mp (Nat.le_zero.mp hlength)] at hcomplete
        exact hcomplete.elim
  | succ room ih =>
      cases bytes with
      | nil =>
          constructor
          · intro h
            cases h
          · rintro ⟨hcomplete, -, hnil⟩
            rw [(List.nil_eq_append_iff.mp hnil).1] at hcomplete
            exact hcomplete.elim
      | cons byte bytes =>
          rw [groups, Reader.run_bind_ok (Reader.run_u8_cons byte bytes)]
          by_cases hbyte : byte < 128
          · rw [if_pos hbyte, Reader.run_pure]
            constructor
            · intro h
              cases h
              exact ⟨by simp [Complete, hbyte], by simp, rfl⟩
            · rintro ⟨hcomplete, hlength, hbytes⟩
              cases front with
              | nil =>
                  exact hcomplete.elim
              | cons first tail =>
                  obtain ⟨rfl, rfl⟩ := List.cons.inj hbytes
                  rw [Complete, if_pos hbyte] at hcomplete
                  subst hcomplete
                  rfl
          · rw [if_neg hbyte, Reader.run_bind_eq_ok_iff]
            simp only [ih, Reader.run_pure, Prod.mk.injEq, Except.ok.injEq]
            constructor
            · rintro ⟨tail, _, ⟨hcomplete, hlength, rfl⟩, rfl, rfl⟩
              refine ⟨by simpa [Complete, hbyte] using hcomplete, ?_, rfl⟩
              exact Nat.succ_le_succ hlength
            · rintro ⟨hcomplete, hlength, hbytes⟩
              cases front with
              | nil =>
                  exact hcomplete.elim
              | cons first tail =>
                  obtain ⟨rfl, rfl⟩ := List.cons.inj hbytes
                  rw [Complete, if_neg hbyte] at hcomplete
                  exact ⟨tail, rest, ⟨hcomplete, Nat.le_of_succ_le_succ hlength, rfl⟩, rfl, rfl⟩

theorem run_unsigned_eq_ok_iff
    {bytes rest : Bytes} {n : UInt64} :
    unsigned.run bytes = (.ok n, rest) ↔
      ∃ front, Complete front ∧ front.length ≤ maxGroups ∧ bytes = front ++ rest ∧
        naturalValue front = n.toNat := by
  rw [unsigned, Reader.run_bind_eq_ok_iff]
  constructor
  · rintro ⟨front, middle, hgroups, h⟩
    obtain ⟨hcomplete, hlength, rfl⟩ := run_groups_eq_ok_iff.mp hgroups
    split at h
    · rename_i hfits
      simp only [Reader.run_pure, Prod.mk.injEq, Except.ok.injEq] at h
      obtain ⟨rfl, rfl⟩ := h
      exact ⟨front, hcomplete, hlength, rfl, (toNat_ofNat_of_fits hfits).symm⟩
    · simp at h
  · rintro ⟨front, hcomplete, hlength, rfl, hvalue⟩
    refine ⟨front, rest, run_groups_eq_ok_iff.mpr ⟨hcomplete, hlength, rfl⟩, ?_⟩
    rw [hvalue, if_pos (fitsUnsigned_toNat n), UInt64.ofNat_toNat, Reader.run_pure]

theorem run_signed_eq_ok_iff
    {bytes rest : Bytes} {n : Int64} :
    signed.run bytes = (.ok n, rest) ↔
      ∃ front, Complete front ∧ front.length ≤ maxGroups ∧ bytes = front ++ rest ∧
        integerValue front = n.toInt := by
  rw [signed, Reader.run_bind_eq_ok_iff]
  constructor
  · rintro ⟨front, middle, hgroups, h⟩
    obtain ⟨hcomplete, hlength, rfl⟩ := run_groups_eq_ok_iff.mp hgroups
    split at h
    · rename_i hfits
      simp only [Reader.run_pure, Prod.mk.injEq, Except.ok.injEq] at h
      obtain ⟨rfl, rfl⟩ := h
      exact ⟨front, hcomplete, hlength, rfl, (toInt_ofInt_of_fits hfits).symm⟩
    · simp at h
  · rintro ⟨front, hcomplete, hlength, rfl, hvalue⟩
    refine ⟨front, rest, run_groups_eq_ok_iff.mpr ⟨hcomplete, hlength, rfl⟩, ?_⟩
    rw [hvalue, if_pos (fitsSigned_toInt n), Int64.ofInt_toInt, Reader.run_pure]

theorem stable_groups
    (room : Nat) :
    (groups room).Stable := by
  induction room with
  | zero =>
      exact Reader.stable_fail _
  | succ room ih =>
      exact Reader.stable_u8.bind fun byte =>
        (Reader.stable_pure [byte]).ite (ih.bind fun rest => Reader.stable_pure (byte :: rest))

theorem stable_unsigned : unsigned.Stable :=
  (stable_groups maxGroups).bind fun _ => (Reader.stable_pure _).ite (Reader.stable_fail _)

theorem stable_signed : signed.Stable :=
  (stable_groups maxGroups).bind fun _ => (Reader.stable_pure _).ite (Reader.stable_fail _)

end Leb128

end CallFrame
