import CallFrame.Proofs.UnsignedNumbers
import Mathlib.Data.Nat.Bitwise

/-!
# Signed numbers, exactly

In the signed form bit 6 of the last byte is the sign. Where it is set, the number is the sum of
the groups less the power of 128 that the groups stay below. This module says for every byte string
what reading a signed number finds in it, and how many bytes it takes, as for unsigned numbers.

In a word the sign is extended in two ways. Up to nine groups leave room above them, which is
filled with copies of the sign. Of the tenth group only one bit is in the word, and this is the
sign already. So the tenth byte has to be one of two, those whose bits are all alike. These are
exactly the numbers of ten groups that a signed word can hold.
-/

namespace CallFrame

namespace Leb128

/-- Bit 6 of the last byte is set. -/
def hasSign (groups : Bytes) : Bool :=
  groups.getLast?.any fun byte => byte.toNat.testBit 6

/-- The exact sum of the groups, less the power of 128 that they stay below if the sign is set. -/
def signedSum (groups : Bytes) : Int :=
  if hasSign groups then groupSum groups - 128 ^ groups.length else groupSum groups

theorem testBit_six
    (byte : UInt8) :
    byte.toNat.testBit 6 = decide (64 ≤ byte.toNat % 128) := by
  rw [Nat.testBit_eq_decide_div_mod_eq]
  refine decide_eq_decide.mpr ?_
  omega

theorem integerValue_eq_signedSum
    (groups : Bytes) :
    integerValue groups = signedSum groups := by
  induction groups with
  | nil =>
      rfl
  | cons byte rest ih =>
      cases rest with
      | nil =>
          have hsum : groupSum [byte] = byte.toNat % 128 := (naturalValue_eq_groupSum [byte]).symm
          have hsign : hasSign [byte] = decide (64 ≤ byte.toNat % 128) := testBit_six byte
          rw [integerValue, signedSum, hsum, hsign]
          simp only [decide_eq_true_eq, List.length_singleton, pow_one]
          by_cases hsmall : byte.toNat % 128 < 64
          · rw [if_pos hsmall, if_neg (by omega)]
          · rw [if_neg hsmall, if_pos (by omega)]
      | cons next rest =>
          have hsum : groupSum (byte :: next :: rest) =
              byte.toNat % 128 + 128 * groupSum (next :: rest) := by
            rw [← naturalValue_eq_groupSum, ← naturalValue_eq_groupSum]
            rfl
          have hsign : hasSign (byte :: next :: rest) = hasSign (next :: rest) := rfl
          rw [integerValue_cons (List.cons_ne_nil next rest), ih, signedSum, signedSum, hsum, hsign]
          split
          · simp only [List.length_cons, pow_succ]
            push_cast
            ring
          · push_cast
            ring

/-- Nine groups have 63 bits with the sign. -/
theorem fitsSigned_signedSum
    {groups : Bytes} (h : groups.length ≤ 9) :
    FitsSigned (signedSum groups) := by
  have hlt := groupSum_lt groups
  have hle : 128 ^ groups.length ≤ 128 ^ 9 := Nat.pow_le_pow_right (by decide) h
  have hcast : ((128 ^ groups.length : Nat) : Int) = 128 ^ groups.length := by push_cast; rfl
  rw [fitsSigned_iff, signedSum]
  split
  · omega
  · omega

/-- Copies of the sign above the bits of a word that are in use. -/
def signFill (shift : Nat) : UInt64 :=
  0xffffffffffffffff <<< UInt64.ofNat shift

theorem toNat_signFill
    {shift : Nat} (h : shift < 64) :
    (signFill shift).toNat = 2 ^ 64 - 2 ^ shift := by
  have hamount : (UInt64.ofNat shift).toNat % 64 = shift := by
    rw [UInt64.toNat_ofNat_of_lt' (by simp only [UInt64.size]; omega), Nat.mod_eq_of_lt h]
  have hones : (0xffffffffffffffff : UInt64).toNat = 2 ^ 64 - 1 := rfl
  have hpos : 0 < 2 ^ shift := Nat.two_pow_pos shift
  have hle : 2 ^ shift ≤ 2 ^ 63 := Nat.pow_le_pow_right (by decide) (by omega)
  rw [signFill, UInt64.toNat_shiftLeft, hamount, hones, Nat.shiftLeft_eq]
  omega

theorem toInt_toInt64
    (word : UInt64) :
    word.toInt64.toInt = (word.toNat : Int).bmod (2 ^ 64) :=
  BitVec.toInt_eq_toNat_bmod word.toBitVec

theorem toInt_toInt64_of_lt
    {word : UInt64} (h : word.toNat < 2 ^ 63) :
    word.toInt64.toInt = word.toNat := by
  rw [toInt_toInt64, Int.bmod_def, if_pos (by omega)]
  omega

theorem toInt_toInt64_or_signFill
    {word : UInt64} {shift : Nat} (h : shift < 64) (hword : word.toNat < 2 ^ shift) :
    (word ||| signFill shift).toInt64.toInt = word.toNat - (2 ^ shift : Nat) := by
  have hsplit : 2 ^ 64 - 2 ^ shift = (2 ^ (64 - shift) - 1) <<< shift := by
    rw [Nat.shiftLeft_eq, Nat.sub_mul, ← Nat.pow_add, Nat.sub_add_cancel (by omega), Nat.one_mul]
  have hle : 2 ^ shift ≤ 2 ^ 63 := Nat.pow_le_pow_right (by decide) (by omega)
  have hor : (word ||| signFill shift).toNat = 2 ^ 64 - 2 ^ shift + word.toNat := by
    rw [UInt64.toNat_or, toNat_signFill h, hsplit, Nat.or_comm,
      Nat.shiftLeft_add_eq_or_of_lt hword]
  rw [toInt_toInt64, hor, Int.bmod_def, if_neg (by omega)]
  omega

theorem and_sign_ne_zero_iff
    (byte : UInt8) :
    byte &&& 0x40 ≠ 0 ↔ 64 ≤ byte.toNat % 128 := by
  have hand : (byte &&& 0x40).toNat = (byte.toNat.testBit 6).toNat * 2 ^ 6 :=
    (UInt8.toNat_and byte 0x40).trans (Nat.and_two_pow byte.toNat 6)
  have hzero : byte &&& 0x40 = 0 ↔ (byte &&& 0x40).toNat = 0 := UInt8.toNat_inj.symm
  rw [ne_eq, hzero, hand, testBit_six]
  by_cases hsign : 64 ≤ byte.toNat % 128
  · simp [hsign]
  · simp [hsign]

/-- The number as a signed word, if it fits. -/
def storedSigned (n : Int) : Reader Int64 :=
  if FitsSigned n then return Int64.ofInt n else .fail .numberTooWide

theorem signed_eq_bind :
    signed = groups maxGroups >>= fun bytes => storedSigned (integerValue bytes) :=
  rfl

theorem storedSigned_toInt
    (n : Int64) :
    storedSigned n.toInt = pure n := by
  rw [storedSigned, if_pos (fitsSigned_toInt n), Int64.ofInt_toInt]

theorem storedSigned_of_not_fits
    {n : Int} (h : ¬ FitsSigned n) :
    storedSigned n = .fail .numberTooWide :=
  if_neg h

namespace WordSum

/-- The sum as a signed word, behind its last byte. If there is room above the groups, it is filled
with the sign of that byte. -/
def toSigned (total : WordSum) (byte : UInt8) : Int64 :=
  if total.shift < 64 ∧ byte &&& 0x40 ≠ 0 then (total.word ||| signFill total.shift).toInt64
  else total.word.toInt64

theorem integerValue_singleton
    (byte : UInt8) :
    integerValue [byte] =
      if 64 ≤ byte.toNat % 128 then ((byte.toNat % 128 : Nat) : Int) - 128
      else (byte.toNat % 128 : Nat) := by
  rw [integerValue]
  split
  · rw [if_neg (by omega)]
  · rw [if_pos (by omega)]

/-- With room above them, the groups have the sign of the last one. -/
theorem Holds.toInt_toSigned
    {sum : WordSum} {count : Nat} (h : sum.Holds count) (hcount : count ≤ 8) (byte : UInt8) :
    ((sum.add byte).toSigned byte).toInt =
      sum.word.toNat + (2 ^ sum.shift : Nat) * integerValue [byte] := by
  obtain ⟨hword, hnext⟩ := h.add hcount byte
  have hlt : (sum.add byte).word.toNat < 2 ^ (sum.add byte).shift := by
    rw [hnext.shift_eq]
    exact hnext.word_lt
  have hroom : (sum.add byte).shift < 64 := by
    rw [hnext.shift_eq]
    omega
  have hpow : 2 ^ (sum.add byte).shift = 2 ^ sum.shift * 128 := Nat.pow_add 2 sum.shift 7
  have hmul := Nat.mul_comm (byte.toNat % 128) (2 ^ sum.shift)
  rw [toSigned, integerValue_singleton]
  by_cases hsign : 64 ≤ byte.toNat % 128
  · rw [if_pos ⟨hroom, (and_sign_ne_zero_iff byte).mpr hsign⟩, if_pos hsign,
      toInt_toInt64_or_signFill hroom hlt, hword, hpow, hmul]
    push_cast
    ring
  · rw [if_neg fun hboth => hsign ((and_sign_ne_zero_iff byte).mp hboth.2), if_neg hsign,
      toInt_toInt64_of_lt, hword, hmul]
    · push_cast
      ring
    · exact Nat.lt_of_lt_of_le hlt (Nat.pow_le_pow_right (by decide) (by omega))

/-- The tenth group brings its sign with it. -/
theorem Holds.toInt_toSigned_tenth
    {sum : WordSum} {byte : UInt8} (h : sum.Holds 9) (hbyte : byte = 0 ∨ byte = 0x7f) :
    ((sum.add byte).toSigned byte).toInt =
      sum.word.toNat + (2 ^ sum.shift : Nat) * integerValue [byte] := by
  have hshift : sum.shift = 63 := h.shift_eq
  have hroom : ¬ (sum.add byte).shift < 64 := by
    change ¬ sum.shift + 7 < 64
    omega
  rw [toSigned, if_neg fun hboth => hroom hboth.1, WordSum.add, hshift]
  rcases hbyte with rfl | rfl
  · have hnone : ((0 : UInt8) &&& 0x7f).toUInt64 <<< UInt64.ofNat 63 = 0 := by decide
    have hzero : integerValue [0] = 0 := rfl
    rw [hnone, UInt64.or_zero, toInt_toInt64_of_lt h.word_lt, hzero]
    omega
  · have hfill : ((0x7f : UInt8) &&& 0x7f).toUInt64 <<< UInt64.ofNat 63 = signFill 63 := by decide
    have hminus : integerValue [0x7f] = -1 := rfl
    rw [hfill, toInt_toInt64_or_signFill (by decide) h.word_lt, hminus]
    omega

end WordSum

/-- Adds up the groups of a signed number. The tenth byte has to be a copy of one bit. -/
def sumUpSigned (sum : WordSum) (bytes : Bytes) : WordSum.Addition Int64 :=
  sum.accumulate (fun byte => byte ≠ 0 ∧ byte ≠ 0x7f) WordSum.toSigned bytes

theorem computes_storedSigned :
    WordSum.Computes (fun byte => byte ≠ 0 ∧ byte ≠ 0x7f) WordSum.toSigned fun sum front =>
      storedSigned (sum.word.toNat + (2 ^ sum.shift : Nat) * integerValue front) where
  refuses_of_announces := by
    intro byte hbyte
    refine decide_eq_true ⟨?_, ?_⟩
    · rintro rfl
      exact hbyte (by decide)
    · rintro rfl
      exact hbyte (by decide)
  store_refused := by
    intro sum byte h hrefused hbyte
    obtain ⟨hzero, hones⟩ := of_decide_eq_true hrefused
    have hlt : byte.toNat < 128 := UInt8.lt_iff_toNat_lt.mp hbyte
    have hnezero : byte.toNat ≠ 0 := fun heq => hzero (UInt8.toNat_inj.mp heq)
    have hneones : byte.toNat ≠ 127 := fun heq => hones (UInt8.toNat_inj.mp heq)
    have hword : sum.word.toNat < 2 ^ 63 := h.word_lt
    refine storedSigned_of_not_fits ?_
    rw [fitsSigned_iff, WordSum.integerValue_singleton, h.shift_eq]
    split
    · omega
    · omega
  store_last := by
    intro sum count byte h hcount haccepted hbyte
    rw [← storedSigned_toInt]
    refine congrArg storedSigned (Eq.symm ?_)
    by_cases htenth : count = 9
    · subst htenth
      refine h.toInt_toSigned_tenth ?_
      by_contra hneither
      exact haccepted ⟨h.shift_eq, decide_eq_true (not_or.mp hneither)⟩
    · exact h.toInt_toSigned (by omega) byte
  store_more := by
    intro sum count byte rest h hcount hrest
    have hshift : 2 ^ (sum.add byte).shift = 2 ^ sum.shift * 128 := Nat.pow_add 2 sum.shift 7
    refine congrArg storedSigned ?_
    rw [(h.add hcount byte).1, integerValue_cons hrest, hshift]
    push_cast
    ring

/-- Adding up from nothing is reading a signed number. -/
theorem result_sumUpSigned_empty
    (bytes : Bytes) :
    (sumUpSigned .empty bytes).result = signed.run bytes := by
  rw [sumUpSigned,
    computes_storedSigned.result_accumulate WordSum.holds_empty (Nat.zero_add 9) bytes,
    signed_eq_bind]
  change (groups maxGroups >>= fun front =>
    storedSigned ((0 : Nat) + (2 ^ 0 : Nat) * integerValue front)).run bytes = _
  simp only [pow_zero, Nat.cast_one, Nat.cast_zero, one_mul, zero_add]

/-- A number that fits into a signed word ends at this byte, which is one of the first ten. -/
structure EndsSigned (bytes : Bytes) (k : Nat) : Prop where
  findIdx?_eq : bytes.findIdx? (· < 128) = some k
  le_nine : k ≤ 9
  le_sum : -2 ^ 63 ≤ signedSum (bytes.take (k + 1))
  sum_lt : signedSum (bytes.take (k + 1)) < 2 ^ 63

theorem run_signed_eq_ok_iff_endsSigned
    {bytes rest : Bytes} {n : Int64} :
    signed.run bytes = (.ok n, rest) ↔
      ∃ k, EndsSigned bytes k ∧ n.toInt = signedSum (bytes.take (k + 1)) ∧
        rest = bytes.drop (k + 1) := by
  rw [signed_eq_bind, run_groups_bind_eq_ok_iff]
  simp only [integerValue_eq_signedSum]
  constructor
  · rintro ⟨k, hk, hnine, hstored⟩
    by_cases hfits : FitsSigned (signedSum (bytes.take (k + 1)))
    · obtain ⟨hle, hlt⟩ := fitsSigned_iff.mp hfits
      refine ⟨k, ⟨hk, hnine, hle, hlt⟩, ?_⟩
      rw [← toInt_ofInt_of_fits hfits, storedSigned_toInt] at hstored
      cases hstored
      exact ⟨toInt_ofInt_of_fits hfits, rfl⟩
    · rw [storedSigned_of_not_fits hfits] at hstored
      cases hstored
  · rintro ⟨k, hends, hn, rfl⟩
    refine ⟨k, hends.findIdx?_eq, hends.le_nine, ?_⟩
    rw [← hn, storedSigned_toInt, Reader.run_pure]

theorem run_signed_of_cutsOff
    {bytes : Bytes} (h : CutsOff bytes) :
    signed.run bytes = (.error (.outOfBytes 1 0), []) :=
  run_groups_bind_of_cutsOff h _

theorem run_signed_of_not
    {bytes : Bytes} (hends : ∀ k, ¬ EndsSigned bytes k) (hcuts : ¬ CutsOff bytes) :
    10 ≤ bytes.length ∧ signed.run bytes = (.error .numberTooWide, bytes.drop 10) := by
  refine run_groups_bind_of_not_cutsOff hcuts fun k hk hnine => ?_
  have hwide : ¬ FitsSigned (signedSum (bytes.take (k + 1))) := by
    intro hfits
    obtain ⟨hle, hlt⟩ := fitsSigned_iff.mp hfits
    exact hends k ⟨hk, hnine, hle, hlt⟩
  refine ⟨?_, ?_⟩
  · by_contra hless
    have hlength := List.length_take_le (k + 1) bytes
    exact hwide (fitsSigned_signedSum (by omega))
  · change storedSigned _ = _
    rw [integerValue_eq_signedSum, storedSigned_of_not_fits hwide]

/-- **Signed numbers.** For every byte string: a number is read exactly if it ends within ten bytes
and its exact value is in the range of a signed word, and it takes the bytes up to its end.
Otherwise all bytes are taken if they are cut off, and ten if they are not. Adding up the groups in
a word and extending the sign there finds the same. -/
theorem run_signed_exact
    (bytes : Bytes) :
    (∀ n rest, signed.run bytes = (.ok n, rest) ↔
      ∃ k, EndsSigned bytes k ∧ n.toInt = signedSum (bytes.take (k + 1)) ∧
        rest = bytes.drop (k + 1)) ∧
    (CutsOff bytes → signed.run bytes = (.error (.outOfBytes 1 0), [])) ∧
    ((∀ k, ¬ EndsSigned bytes k) → ¬ CutsOff bytes →
      10 ≤ bytes.length ∧ signed.run bytes = (.error .numberTooWide, bytes.drop 10)) ∧
    (sumUpSigned .empty bytes).result = signed.run bytes :=
  ⟨fun _ _ => run_signed_eq_ok_iff_endsSigned, run_signed_of_cutsOff, run_signed_of_not,
    result_sumUpSigned_empty bytes⟩

/-- The least number takes ten bytes, a tenth byte with the sign alone is refused, and in a single
byte the sign is extended. -/
example :
    signed.run [0x80, 0x80, 0x80, 0x80, 0x80, 0x80, 0x80, 0x80, 0x80, 0x7f, 0x05] =
      (.ok (-0x8000000000000000), [0x05]) ∧
    signed.run [0x80, 0x80, 0x80, 0x80, 0x80, 0x80, 0x80, 0x80, 0x80, 0x40, 0x05] =
      (.error .numberTooWide, [0x05]) ∧
    signed.run [0x68, 0x05] = (.ok (-24), [0x05]) :=
  ⟨rfl, rfl, rfl⟩

end Leb128

end CallFrame
