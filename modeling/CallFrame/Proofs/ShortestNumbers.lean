import CallFrame.Leb128.Canonical

/-!
# Numbers written with machine words

A number of 64 bits is written from its word: the low seven bits become a group, the word is
shifted by seven, and the last group is the one after which nothing is left of the word but
zeros or, in the signed form, nothing but copies of its sign. This is the canonical encoding.

What is written is read back, whatever follows it. Of all the byte strings that are read as the
same number, it is the only one of the least length: every other one is padded with groups that
carry nothing.
-/

namespace CallFrame

namespace Leb128

theorem or_continuation :
    ∀ group : Fin 128, UInt8.ofNat group ||| 0x80 = UInt8.ofNat (group + 128) := by
  decide

theorem and_sign_eq_zero_iff :
    ∀ group : Fin 128, UInt8.ofNat group &&& 0x40 = 0 ↔ group.val < 64 := by
  decide

theorem toUInt8_and_mask
    (value : UInt64) :
    (value &&& 0x7f).toUInt8 = UInt8.ofNat (value.toNat % 128) := by
  have hmask : (value &&& 0x7f).toNat = value.toNat % 128 :=
    (UInt64.toNat_and value 0x7f).trans (Nat.and_two_pow_sub_one_eq_mod value.toNat 7)
  rw [← hmask, UInt8.ofNat_uInt64ToNat]

theorem toNat_shiftRight_seven
    (value : UInt64) :
    (value >>> 7).toNat = value.toNat / 128 :=
  (UInt64.toNat_shiftRight value 7).trans (Nat.shiftRight_eq_div_pow value.toNat 7)

theorem toInt_shiftRight_seven
    (value : Int64) :
    (value >>> 7).toInt = value.toInt / 128 := by
  have hshift : (value >>> 7).toBitVec = value.toBitVec.sshiftRight 7 :=
    Int64.toBitVec_shiftRight value 7
  rw [← Int64.toInt_toBitVec, hshift, BitVec.toInt_sshiftRight, Int64.toInt_toBitVec]
  exact Int.shiftRight_eq_div_pow value.toInt 7

theorem toNat_toUInt64_mod
    (value : Int64) :
    value.toUInt64.toNat % 128 = (value.toInt % 128).toNat := by
  have hvalue : value.toInt = (value.toUInt64.toNat : Int).bmod (2 ^ 64) :=
    BitVec.toInt_eq_toNat_bmod value.toBitVec
  rw [hvalue, Int.bmod_def]
  split
  · omega
  · omega

theorem toUInt8_and_mask_signed
    (value : Int64) :
    (value &&& 0x7f).toUInt64.toUInt8 = UInt8.ofNat (value.toInt % 128).toNat := by
  rw [Int64.toUInt64_and, ← toNat_toUInt64_mod]
  exact toUInt8_and_mask value.toUInt64

/-- What is left behind a group is nothing but the sign that the group has, exactly for the
numbers that one group holds. -/
theorem isLast_iff
    (value : Int64) :
    ((value >>> 7 = 0 ∧ (value &&& 0x7f).toUInt64.toUInt8 &&& 0x40 = 0) ∨
      (value >>> 7 = -1 ∧ (value &&& 0x7f).toUInt64.toUInt8 &&& 0x40 ≠ 0)) ↔
      -64 ≤ value.toInt ∧ value.toInt < 64 := by
  have hgroup : (value.toInt % 128).toNat < 128 := by omega
  have hsign := and_sign_eq_zero_iff ⟨_, hgroup⟩
  have hzero : value >>> 7 = 0 ↔ value.toInt / 128 = 0 := by
    rw [← Int64.toInt_inj, toInt_shiftRight_seven]
    rfl
  have hminus : value >>> 7 = -1 ↔ value.toInt / 128 = -1 := by
    rw [← Int64.toInt_inj, toInt_shiftRight_seven]
    rfl
  rw [toUInt8_and_mask_signed, hzero, hminus, ne_eq, hsign]
  change (_ ∧ (value.toInt % 128).toNat < 64) ∨ (_ ∧ ¬ (value.toInt % 128).toNat < 64) ↔ _
  omega

def writeUnsigned (value : UInt64) : Bytes :=
  let byte := (value &&& 0x7f).toUInt8
  let rest := value >>> 7
  if rest = 0 then [byte] else (byte ||| 0x80) :: writeUnsigned rest
termination_by value.toNat
decreasing_by
  have hrest := toNat_shiftRight_seven value
  have hne : (value >>> 7).toNat ≠ 0 := fun h => ‹¬ rest = 0› (UInt64.toNat_inj.mp h)
  omega

def writeSigned (value : Int64) : Bytes :=
  let byte := (value &&& 0x7f).toUInt64.toUInt8
  let rest := value >>> 7
  if (rest = 0 ∧ byte &&& 0x40 = 0) ∨ (rest = -1 ∧ byte &&& 0x40 ≠ 0) then [byte]
  else (byte ||| 0x80) :: writeSigned rest
termination_by value.toInt.natAbs
decreasing_by
  rename_i hmore
  have hwide := (not_congr (isLast_iff value)).mp hmore
  have hrest := toInt_shiftRight_seven value
  omega

theorem writeUnsigned_eq
    (value : UInt64) :
    writeUnsigned value = encodeUnsigned value := by
  fun_induction writeUnsigned value with
  | case1 value byte rest hrest =>
      have hzero := congrArg UInt64.toNat hrest
      rw [toNat_shiftRight_seven] at hzero
      change value.toNat / 128 = 0 at hzero
      rw [encodeUnsigned, encodeNatural, if_pos (by omega)]
      change [(value &&& 0x7f).toUInt8] = _
      rw [toUInt8_and_mask, Nat.mod_eq_of_lt (by omega)]
  | case2 value byte rest hrest ih =>
      have hne : ¬ value.toNat / 128 = 0 := by
        rw [← toNat_shiftRight_seven]
        exact fun h => hrest (UInt64.toNat_inj.mp h)
      have hgroup := or_continuation ⟨value.toNat % 128, Nat.mod_lt _ (by decide)⟩
      rw [ih, encodeUnsigned, encodeUnsigned, toNat_shiftRight_seven]
      conv => rhs; rw [encodeNatural, if_neg (by omega)]
      change ((value &&& 0x7f).toUInt8 ||| 0x80) :: _ = _
      rw [toUInt8_and_mask, hgroup]

theorem writeSigned_eq
    (value : Int64) :
    writeSigned value = encodeSigned value := by
  fun_induction writeSigned value with
  | case1 value byte rest hlast =>
      rw [encodeSigned, encodeInteger, if_pos ((isLast_iff value).mp hlast)]
      exact congrArg (fun group => [group]) (toUInt8_and_mask_signed value)
  | case2 value byte rest hmore ih =>
      have hgroup := or_continuation ⟨(value.toInt % 128).toNat, by omega⟩
      rw [ih, encodeSigned, encodeSigned, toInt_shiftRight_seven]
      conv => rhs; rw [encodeInteger, if_neg ((not_congr (isLast_iff value)).mp hmore)]
      change ((value &&& 0x7f).toUInt64.toUInt8 ||| 0x80) :: _ = _
      rw [toUInt8_and_mask_signed, hgroup]

section Padding

variable {β : Type} {value : Bytes → β} {encode : β → Bytes}

/-- An encoding that takes its groups from a complete group sequence one by one, and may only end
before it, is no longer than the sequence, and as long only if it is the sequence. -/
theorem length_encode_le_of_complete
    (hlast : ∀ byte, byte < 128 → encode (value [byte]) = [byte])
    (hmore : ∀ byte rest, ¬ byte < 128 → Complete rest →
      (∃ last, encode (value (byte :: rest)) = [last]) ∨
        encode (value (byte :: rest)) = byte :: encode (value rest))
    {groups : Bytes} (h : Complete groups) :
    (encode (value groups)).length ≤ groups.length ∧
      (groups.length = (encode (value groups)).length → encode (value groups) = groups) := by
  induction groups with
  | nil =>
      exact h.elim
  | cons byte rest ih =>
      by_cases hbyte : byte < 128
      · rw [Complete, if_pos hbyte] at h
        subst h
        rw [hlast byte hbyte]
        exact ⟨Nat.le_refl _, fun _ => rfl⟩
      · rw [Complete, if_neg hbyte] at h
        obtain ⟨hle, heq⟩ := ih h
        rcases hmore byte rest hbyte h with ⟨last, hshort⟩ | hnext
        · -- The rest is not empty, so the sequence is longer than a single group.
          have hpos : 0 < rest.length := List.length_pos_iff.mpr fun hnil => by
            rw [hnil] at h
            exact h
          rw [hshort]
          simp only [List.length_cons, List.length_nil]
          exact ⟨by omega, fun hlength => by omega⟩
        · rw [hnext]
          simp only [List.length_cons]
          exact ⟨Nat.succ_le_succ hle, fun hlength => by rw [heq (by omega)]⟩

end Padding

theorem encodeNatural_last
    (byte : UInt8) (hbyte : byte < 128) :
    encodeNatural (naturalValue [byte]) = [byte] := by
  have hlt : byte.toNat < 128 := UInt8.lt_iff_toNat_lt.mp hbyte
  have hvalue : naturalValue [byte] = byte.toNat := by
    simp only [naturalValue]
    omega
  rw [hvalue, encodeNatural, if_pos hlt, UInt8.ofNat_toNat]

theorem encodeNatural_more
    (byte : UInt8) (rest : Bytes) (hbyte : ¬ byte < 128) :
    (∃ last, encodeNatural (naturalValue (byte :: rest)) = [last]) ∨
      encodeNatural (naturalValue (byte :: rest)) = byte :: encodeNatural (naturalValue rest) := by
  have hlt := byte.toNat_lt
  have hge : ¬ byte.toNat < 128 := fun h => hbyte (UInt8.lt_iff_toNat_lt.mpr h)
  have hvalue : naturalValue (byte :: rest) = byte.toNat % 128 + 128 * naturalValue rest := rfl
  by_cases hsmall : naturalValue (byte :: rest) < 128
  · rw [encodeNatural, if_pos hsmall]
    exact Or.inl ⟨_, rfl⟩
  · have hgroup : naturalValue (byte :: rest) % 128 + 128 = byte.toNat := by omega
    have hrest : naturalValue (byte :: rest) / 128 = naturalValue rest := by omega
    rw [encodeNatural, if_neg hsmall, hgroup, hrest, UInt8.ofNat_toNat]
    exact Or.inr rfl

theorem encodeInteger_last
    (byte : UInt8) (hbyte : byte < 128) :
    encodeInteger (integerValue [byte]) = [byte] := by
  have hlt : byte.toNat < 128 := UInt8.lt_iff_toNat_lt.mp hbyte
  have hvalue : -64 ≤ integerValue [byte] ∧ integerValue [byte] < 64 ∧
      (integerValue [byte] % 128).toNat = byte.toNat := by
    simp only [integerValue]
    split <;> omega
  rw [encodeInteger, if_pos ⟨hvalue.1, hvalue.2.1⟩, hvalue.2.2, UInt8.ofNat_toNat]

theorem encodeInteger_more
    (byte : UInt8) (rest : Bytes) (hbyte : ¬ byte < 128) (h : Complete rest) :
    (∃ last, encodeInteger (integerValue (byte :: rest)) = [last]) ∨
      encodeInteger (integerValue (byte :: rest)) = byte :: encodeInteger (integerValue rest) := by
  have hlt := byte.toNat_lt
  have hge : ¬ byte.toNat < 128 := fun h => hbyte (UInt8.lt_iff_toNat_lt.mpr h)
  have hne : rest ≠ [] := by
    rintro rfl
    exact h
  have hvalue := @integerValue_cons byte rest hne
  by_cases hsmall : -64 ≤ integerValue (byte :: rest) ∧ integerValue (byte :: rest) < 64
  · rw [encodeInteger, if_pos hsmall]
    exact Or.inl ⟨_, rfl⟩
  · have hgroup : (integerValue (byte :: rest) % 128).toNat + 128 = byte.toNat := by omega
    have hrest : integerValue (byte :: rest) / 128 = integerValue rest := by omega
    rw [encodeInteger, if_neg hsmall, hgroup, hrest, UInt8.ofNat_toNat]
    exact Or.inr rfl

section Shortest

variable {α : Type} {reader : Reader α} {write : α → Bytes}

/-- No shorter byte string is read as the value. -/
def IsShortest (reader : Reader α) (a : α) (used : Bytes) : Prop :=
  ∀ other, reader.run other = (.ok a, []) → used.length ≤ other.length

/-- The reader and the writer belong together: what is written is read back, whatever follows
it, and of all that is read as a value it is the one that is shortest. -/
structure WritesShortest (reader : Reader α) (write : α → Bytes) : Prop where
  run_write : ∀ a rest, reader.run (write a ++ rest) = (.ok a, rest)
  write_le : ∀ bytes a rest, reader.run bytes = (.ok a, rest) →
    ∃ used, bytes = used ++ rest ∧ (write a).length ≤ used.length ∧
      (write a = used ↔ IsShortest reader a used)

theorem WritesShortest.of_unique
    (hrun : ∀ a rest, reader.run (write a ++ rest) = (.ok a, rest))
    (hunique : ∀ bytes a rest, reader.run bytes = (.ok a, rest) →
      ∃ used, bytes = used ++ rest ∧ (write a).length ≤ used.length ∧
        (used.length = (write a).length → write a = used)) :
    WritesShortest reader write := by
  refine ⟨hrun, ?_⟩
  intro bytes a rest hbytes
  obtain ⟨used, hused, hle, heq⟩ := hunique bytes a rest hbytes
  refine ⟨used, hused, hle, ?_, ?_⟩
  · rintro rfl other hother
    obtain ⟨all, rfl, hall, -⟩ := hunique other a [] hother
    rw [List.append_nil]
    exact hall
  · intro hshortest
    have hwritten := hrun a []
    rw [List.append_nil] at hwritten
    exact heq (Nat.le_antisymm (hshortest (write a) hwritten) hle)

end Shortest

/-- **Canonical forms.** The writers of unsigned and of signed words write what the readers read
back, and what is shortest. -/
theorem writesShortest_words :
    WritesShortest unsigned writeUnsigned ∧ WritesShortest signed writeSigned := by
  constructor
  · refine WritesShortest.of_unique ?_ ?_
    · intro n rest
      rw [writeUnsigned_eq]
      exact run_unsigned_encodeUnsigned n rest
    · intro bytes n rest hrun
      obtain ⟨used, hcomplete, -, hbytes, hvalue⟩ := run_unsigned_eq_ok_iff.mp hrun
      rw [writeUnsigned_eq, encodeUnsigned, ← hvalue]
      exact ⟨used, hbytes, length_encode_le_of_complete encodeNatural_last
        (fun byte rest hbyte _ => encodeNatural_more byte rest hbyte) hcomplete⟩
  · refine WritesShortest.of_unique ?_ ?_
    · intro n rest
      rw [writeSigned_eq]
      exact run_signed_encodeSigned n rest
    · intro bytes n rest hrun
      obtain ⟨used, hcomplete, -, hbytes, hvalue⟩ := run_signed_eq_ok_iff.mp hrun
      rw [writeSigned_eq, encodeSigned, ← hvalue]
      exact ⟨used, hbytes,
        length_encode_le_of_complete encodeInteger_last encodeInteger_more hcomplete⟩

/-- A padded number is read, but is not what is written. -/
example :
    signed.run [0xff, 0xff, 0x7f, 0x05] = (.ok (-1), [0x05]) ∧ writeSigned (-1) = [0x7f] :=
  ⟨rfl, by cbv⟩

end Leb128

end CallFrame
