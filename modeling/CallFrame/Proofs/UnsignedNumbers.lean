import CallFrame.Leb128.Canonical
import Mathlib.Algebra.BigOperators.Fin
import Mathlib.Tactic.Ring

/-!
# Unsigned numbers, exactly

A number ends at the first byte whose top bit is clear. The ten bytes that there is room for hold
seventy bits, so the last of them may be too large. This module says for every byte string what
reading an unsigned number finds in it, and how many bytes it takes. A number is found if it ends
within ten bytes and its value is below 2^64. Bytes that end before the number does are all taken,
and in all other cases the tenth byte is the last one that is taken.

The value can be built up in a word, by putting each group on top of those before it. There the
tenth group is refused unless it is a single bit. So no group is shifted out of the word, and the
word always holds the exact sum of the groups so far.
-/

namespace CallFrame

namespace Leb128

section Groups

variable {bytes front rest : Bytes} {room k : Nat}

theorem findIdx?_append_of_complete
    (h : Complete front) (rest : Bytes) :
    ∃ k, (front ++ rest).findIdx? (· < 128) = some k ∧ front.length = k + 1 := by
  induction front with
  | nil =>
      exact h.elim
  | cons byte tail ih =>
      rw [List.cons_append, List.findIdx?_cons]
      by_cases hbyte : byte < 128
      · rw [Complete, if_pos hbyte] at h
        subst h
        exact ⟨0, by simp [hbyte], rfl⟩
      · rw [Complete, if_neg hbyte] at h
        obtain ⟨k, hk, hlength⟩ := ih h
        exact ⟨k + 1, by simp [hbyte, hk], congrArg Nat.succ hlength⟩

theorem complete_take_of_findIdx?
    (h : bytes.findIdx? (· < 128) = some k) :
    Complete (bytes.take (k + 1)) := by
  induction bytes generalizing k with
  | nil =>
      cases h
  | cons byte tail ih =>
      rw [List.findIdx?_cons] at h
      rw [List.take_succ_cons, Complete]
      by_cases hbyte : byte < 128
      · rw [if_pos (decide_eq_true hbyte)] at h
        cases h
        rw [if_pos hbyte, List.take_zero]
      · rw [if_neg (by simpa using hbyte)] at h
        obtain ⟨i, hi, rfl⟩ := Option.map_eq_some_iff.mp h
        rw [if_neg hbyte]
        exact ih hi

/-- What is read are the bytes up to the first whose top bit is clear, if there is room for
them. -/
theorem run_groups_eq_ok_iff_findIdx? :
    (groups room).run bytes = (.ok front, rest) ↔
      ∃ k, bytes.findIdx? (· < 128) = some k ∧ k < room ∧
        front = bytes.take (k + 1) ∧ rest = bytes.drop (k + 1) := by
  rw [run_groups_eq_ok_iff]
  constructor
  · rintro ⟨hcomplete, hroom, rfl⟩
    obtain ⟨k, hk, hlength⟩ := findIdx?_append_of_complete hcomplete rest
    refine ⟨k, hk, by omega, ?_, ?_⟩
    · rw [← hlength, List.take_left]
    · rw [← hlength, List.drop_left]
  · rintro ⟨k, hk, hroom, rfl, rfl⟩
    refine ⟨complete_take_of_findIdx? hk, ?_, (List.take_append_drop (k + 1) bytes).symm⟩
    exact Nat.le_trans (List.length_take_le _ _) hroom

/-- Bytes that all announce another one are taken as far as there is room for them. -/
theorem run_groups_of_forall_le
    (h : ∀ byte ∈ bytes.take room, 128 ≤ byte) :
    (groups room).run bytes =
      if bytes.length < room then (.error (.outOfBytes 1 0), [])
      else (.error .numberTooWide, bytes.drop room) := by
  induction room generalizing bytes with
  | zero =>
      rfl
  | succ room ih =>
      cases bytes with
      | nil =>
          rfl
      | cons byte tail =>
          rw [List.take_succ_cons] at h
          have hbyte : ¬ byte < 128 := UInt8.not_lt.mpr (h byte List.mem_cons_self)
          have htail := ih fun other hother => h other (List.mem_cons_of_mem byte hother)
          rw [groups, Reader.run_bind_ok (Reader.run_u8_cons byte tail), if_neg hbyte,
            Reader.run_bind, htail, List.drop_succ_cons, List.length_cons]
          by_cases hlength : tail.length < room
          · rw [if_pos hlength, if_pos (Nat.succ_lt_succ hlength)]
          · rw [if_neg hlength, if_neg fun hlt => hlength (Nat.lt_of_succ_lt_succ hlt)]

theorem groups_bind_congr
    {α : Type} {first second : Bytes → Reader α}
    (h : ∀ front, front ≠ [] → first front = second front) :
    (groups room >>= first) = groups room >>= second := by
  ext bytes : 1
  rw [Reader.run_bind, Reader.run_bind]
  rcases hgroups : (groups room).run bytes with ⟨fault | front, rest⟩
  · rfl
  · have hne : front ≠ [] := by
      rintro rfl
      exact (run_groups_eq_ok_iff.mp hgroups).1
    exact congrArg (fun reader => reader.run rest) (h front hne)

theorem exists_findIdx?_or_forall_le
    (room : Nat) (bytes : Bytes) :
    (∃ k, bytes.findIdx? (· < 128) = some k ∧ k < room) ∨
      ∀ byte ∈ bytes.take room, 128 ≤ byte := by
  induction room generalizing bytes with
  | zero =>
      exact Or.inr fun _ hbyte => by cases hbyte
  | succ room ih =>
      cases bytes with
      | nil =>
          exact Or.inr fun _ hbyte => by cases hbyte
      | cons byte tail =>
          rw [List.findIdx?_cons, List.take_succ_cons]
          by_cases hbyte : byte < 128
          · exact Or.inl ⟨0, by simp [hbyte], Nat.succ_pos room⟩
          · rcases ih tail with ⟨k, hk, hroom⟩ | hall
            · exact Or.inl ⟨k + 1, by simp [hbyte, hk], Nat.succ_lt_succ hroom⟩
            · refine Or.inr fun other hother => ?_
              rcases List.mem_cons.mp hother with rfl | hother
              · exact UInt8.not_lt.mp hbyte
              · exact hall other hother

end Groups

/-- The exact sum of the groups, seven bits each. -/
def groupSum (groups : Bytes) : Nat :=
  ∑ i : Fin groups.length, groups[i].toNat % 128 * 128 ^ i.val

theorem naturalValue_eq_groupSum
    (groups : Bytes) :
    naturalValue groups = groupSum groups := by
  induction groups with
  | nil =>
      rfl
  | cons byte rest ih =>
      have hrest : ∑ i : Fin rest.length, rest[i].toNat % 128 * 128 ^ (i.val + 1) =
          128 * groupSum rest := by
        rw [groupSum, Finset.mul_sum]
        refine Finset.sum_congr rfl fun i _ => ?_
        rw [pow_succ, ← Nat.mul_assoc]
        exact Nat.mul_comm _ _
      rw [naturalValue, ih, groupSum]
      change _ = ∑ i : Fin (rest.length + 1), _
      rw [Fin.sum_univ_succ]
      simp only [Fin.getElem_fin, Fin.val_zero, List.getElem_cons_zero, pow_zero, mul_one,
        Fin.val_succ, List.getElem_cons_succ]
      exact congrArg _ hrest.symm

theorem groupSum_lt
    (groups : Bytes) :
    groupSum groups < 128 ^ groups.length := by
  rw [← naturalValue_eq_groupSum]
  induction groups with
  | nil =>
      exact Nat.one_pos
  | cons byte rest ih =>
      rw [naturalValue, List.length_cons, pow_succ]
      omega

/-- What the groups so far add up to, and by how many bits the next one is shifted. -/
structure WordSum where
  word : UInt64
  shift : Nat

namespace WordSum

/-- The sum of no groups. -/
def empty : WordSum where
  word := 0
  shift := 0

/-- The sum with the group of a byte on top of it. -/
def add (sum : WordSum) (byte : UInt8) : WordSum where
  word := sum.word ||| (byte &&& 0x7f).toUInt64 <<< UInt64.ofNat sum.shift
  shift := sum.shift + 7

/-- Adding up groups: the sums that were made, each with the byte whose group was put on top of
it, then the outcome and the unread bytes. -/
structure Addition (α : Type) where
  passes : List (WordSum × UInt8)
  outcome : Except Fault α
  unread : Bytes

/-- The addition with one more pass in front. -/
def Addition.after {α : Type} (addition : Addition α) (sum : WordSum) (byte : UInt8) : Addition α :=
  { addition with passes := (sum, byte) :: addition.passes }

/-- What the addition is as a read. -/
def Addition.result {α : Type} (addition : Addition α) : Except Fault α × Bytes :=
  (addition.outcome, addition.unread)

theorem Addition.result_after
    {α : Type} (addition : Addition α) (sum : WordSum) (byte : UInt8) :
    (addition.after sum byte).result = addition.result :=
  rfl

/-- Adds up groups until one ends the number. The bytes that are refused are those that cannot be
the tenth. -/
def accumulate {α : Type} (refuses : UInt8 → Bool) (finish : WordSum → UInt8 → α) :
    WordSum → Bytes → Addition α
  | _, [] => ⟨[], .error (.outOfBytes 1 0), []⟩
  | sum, byte :: rest =>
      if sum.shift = 63 ∧ refuses byte then ⟨[], .error .numberTooWide, rest⟩
      else if byte < 128 then ⟨[(sum, byte)], .ok (finish (sum.add byte) byte), rest⟩
      else (accumulate refuses finish (sum.add byte) rest).after sum byte

/-- The sum of so many groups, none of which is shifted out of the word. -/
structure Holds (sum : WordSum) (count : Nat) : Prop where
  shift_eq : sum.shift = 7 * count
  word_lt : sum.word.toNat < 2 ^ (7 * count)

theorem holds_empty :
    empty.Holds 0 :=
  ⟨rfl, Nat.one_pos⟩

theorem toNat_and_mask
    (byte : UInt8) :
    (byte &&& 0x7f).toUInt64.toNat = byte.toNat % 128 := by
  rw [UInt8.toNat_toUInt64, UInt8.toNat_and]
  exact Nat.and_two_pow_sub_one_eq_mod byte.toNat 7

/-- A group that fits on top of the sum is added to it, and nothing wraps around. -/
theorem Holds.toNat_word_add
    {sum : WordSum} {count : Nat} {byte : UInt8} (h : sum.Holds count) (hcount : count ≤ 9)
    (hfits : byte.toNat % 128 * 2 ^ sum.shift < 2 ^ 64) :
    (sum.add byte).word.toNat = sum.word.toNat + byte.toNat % 128 * 2 ^ sum.shift := by
  have hshift : sum.shift < 64 := by
    rw [h.shift_eq]
    omega
  have hword : sum.word.toNat < 2 ^ sum.shift := by
    rw [h.shift_eq]
    exact h.word_lt
  have hamount : (UInt64.ofNat sum.shift).toNat % 64 = sum.shift := by
    rw [UInt64.toNat_ofNat_of_lt' (by simp only [UInt64.size]; omega), Nat.mod_eq_of_lt hshift]
  rw [add, UInt64.toNat_or, UInt64.toNat_shiftLeft, toNat_and_mask, hamount,
    Nat.shiftLeft_eq, Nat.mod_eq_of_lt hfits, ← Nat.shiftLeft_eq, Nat.or_comm,
    ← Nat.shiftLeft_add_eq_or_of_lt hword, Nat.add_comm]

theorem Holds.add
    {sum : WordSum} {count : Nat} (h : sum.Holds count) (hcount : count ≤ 8) (byte : UInt8) :
    (sum.add byte).word.toNat = sum.word.toNat + byte.toNat % 128 * 2 ^ sum.shift ∧
      (sum.add byte).Holds (count + 1) := by
  have hnext : 2 ^ (7 * (count + 1)) = 128 * 2 ^ (7 * count) := by
    rw [Nat.mul_succ, Nat.pow_add, Nat.mul_comm]
  have hle : 2 ^ (7 * (count + 1)) ≤ 2 ^ 63 := Nat.pow_le_pow_right (by decide) (by omega)
  have hgroup : byte.toNat % 128 * 2 ^ sum.shift ≤ 127 * 2 ^ (7 * count) := by
    rw [h.shift_eq]
    exact Nat.mul_le_mul_right _ (by omega)
  have hword := h.toNat_word_add (Nat.le_succ_of_le hcount)
    (Nat.lt_of_le_of_lt hgroup (by omega))
  have hlt := h.word_lt
  refine ⟨hword, ?_, ?_⟩
  · change sum.shift + 7 = _
    rw [h.shift_eq]
    omega
  · rw [hword]
    omega

/-- The group of a byte that is not refused fits on top of the sum. -/
theorem Holds.toNat_word_add_of_accepted
    {sum : WordSum} {count : Nat} {byte : UInt8} (h : sum.Holds count) (hcount : count ≤ 9)
    (haccepted : ¬ (sum.shift = 63 ∧ 1 < byte)) :
    (sum.add byte).word.toNat = sum.word.toNat + byte.toNat % 128 * 2 ^ sum.shift := by
  by_cases hlast : count = 9
  · subst hlast
    have hone : ¬ 1 < byte.toNat := fun hlt =>
      haccepted ⟨h.shift_eq, UInt8.lt_iff_toNat_lt.mpr hlt⟩
    refine h.toNat_word_add (Nat.le_refl 9) ?_
    rw [h.shift_eq]
    omega
  · exact (h.add (by omega) byte).1

theorem one_lt_of_announces
    {byte : UInt8} (hbyte : ¬ byte < 128) :
    1 < byte :=
  UInt8.lt_of_lt_of_le (by decide) (UInt8.not_lt.mp hbyte)

theorem Holds.le_eight
    {sum : WordSum} {count : Nat} (h : sum.Holds count) (hcount : count ≤ 9)
    (hearlier : sum.shift ≠ 63) :
    count ≤ 8 := by
  have hshift := h.shift_eq
  omega

/-- What is read from a sum on, said with the exact value of the groups. No byte that announces
another one may be the tenth, and one that may not be it has a group that is too large. -/
structure Computes {α : Type} (refuses : UInt8 → Bool) (finish : WordSum → UInt8 → α)
    (store : WordSum → Bytes → Reader α) : Prop where
  refuses_of_announces : ∀ byte, ¬ byte < 128 → refuses byte = true
  store_refused : ∀ sum byte, sum.Holds 9 → refuses byte = true → byte < 128 →
    store sum [byte] = .fail .numberTooWide
  store_last : ∀ sum count byte, sum.Holds count → count ≤ 9 →
    ¬ (sum.shift = 63 ∧ refuses byte = true) → byte < 128 →
    store sum [byte] = pure (finish (sum.add byte) byte)
  store_more : ∀ sum count byte rest, sum.Holds count → count ≤ 8 → rest ≠ [] →
    store (sum.add byte) rest = store sum (byte :: rest)

theorem Holds.of_mem_passes
    {α : Type} {finish : WordSum → UInt8 → α} {sum found : WordSum} {count : Nat} {bytes : Bytes}
    {byte : UInt8} (h : sum.Holds count) (hcount : count ≤ 9)
    (hmem : (found, byte) ∈ (accumulate (1 < ·) finish sum bytes).passes) :
    found.shift < 64 ∧
      (found.add byte).word.toNat = found.word.toNat + byte.toNat % 128 * 2 ^ found.shift := by
  induction bytes generalizing sum count with
  | nil =>
      cases hmem
  | cons next rest ih =>
      have hshift := h.shift_eq
      rw [accumulate] at hmem
      by_cases hrefused : sum.shift = 63 ∧ 1 < next
      · rw [if_pos (by simpa using hrefused)] at hmem
        cases hmem
      · have hfirst : sum.shift < 64 ∧ (sum.add next).word.toNat =
            sum.word.toNat + next.toNat % 128 * 2 ^ sum.shift :=
          ⟨by omega, h.toNat_word_add_of_accepted hcount hrefused⟩
        rw [if_neg (by simpa using hrefused)] at hmem
        by_cases hnext : next < 128
        · rw [if_pos hnext] at hmem
          cases List.mem_singleton.mp hmem
          exact hfirst
        · rw [if_neg hnext] at hmem
          rcases List.mem_cons.mp hmem with heq | hlater
          · cases heq
            exact hfirst
          · have hmore := h.le_eight hcount fun hlast => hrefused ⟨hlast, one_lt_of_announces hnext⟩
            exact ih (h.add hmore next).2 (Nat.succ_le_succ hmore) hlater

/-- Adding up the groups in a word finds the same as computing the exact value of all of them. -/
theorem Computes.result_accumulate
    {α : Type} {refuses : UInt8 → Bool} {finish : WordSum → UInt8 → α}
    {store : WordSum → Bytes → Reader α} (hcomputes : Computes refuses finish store)
    {room count : Nat} {sum : WordSum} (h : sum.Holds count) (hcount : count + room = 9)
    (bytes : Bytes) :
    (accumulate refuses finish sum bytes).result = (groups (room + 1) >>= store sum).run bytes := by
  induction bytes generalizing room count sum with
  | nil =>
      rfl
  | cons byte rest ih =>
      rw [accumulate, groups, bind_assoc, Reader.run_bind_ok (Reader.run_u8_cons byte rest)]
      by_cases hrefused : sum.shift = 63 ∧ refuses byte = true
      · obtain ⟨rfl, rfl⟩ : count = 9 ∧ room = 0 := by
          have hshift := h.shift_eq
          omega
        rw [if_pos hrefused]
        by_cases hbyte : byte < 128
        · rw [if_pos hbyte, pure_bind, hcomputes.store_refused sum byte h hrefused.2 hbyte]
          rfl
        · rw [if_neg hbyte]
          rfl
      · rw [if_neg hrefused]
        by_cases hbyte : byte < 128
        · rw [if_pos hbyte, if_pos hbyte, pure_bind,
            hcomputes.store_last sum count byte h (by omega) hrefused hbyte]
          rfl
        · have hmore : count ≤ 8 := h.le_eight (by omega) fun hlast =>
            hrefused ⟨hlast, hcomputes.refuses_of_announces byte hbyte⟩
          obtain ⟨less, rfl⟩ : ∃ less, room = less + 1 :=
            Nat.exists_eq_succ_of_ne_zero (by omega)
          have hrest := @ih less (count + 1) (sum.add byte) (h.add hmore byte).2 (by omega)
          rw [if_neg hbyte, if_neg hbyte, Addition.result_after, hrest, bind_assoc]
          simp only [pure_bind]
          rw [groups_bind_congr
            fun front hne => hcomputes.store_more sum count byte front h hmore hne]

end WordSum

/-- Adds up the groups of an unsigned number. Of the tenth group only one bit fits. -/
def sumUp (sum : WordSum) (bytes : Bytes) : WordSum.Addition UInt64 :=
  sum.accumulate (1 < ·) (fun total _ => total.word) bytes

/-- The number as a word, if it fits. -/
def stored (n : Nat) : Reader UInt64 :=
  if FitsUnsigned n then return UInt64.ofNat n else .fail .numberTooWide

theorem unsigned_eq_bind :
    unsigned = groups maxGroups >>= fun bytes => stored (naturalValue bytes) :=
  rfl

theorem stored_toNat
    (n : UInt64) :
    stored n.toNat = pure n := by
  rw [stored, if_pos (fitsUnsigned_toNat n), UInt64.ofNat_toNat]

theorem stored_of_le
    {n : Nat} (h : 2 ^ 64 ≤ n) :
    stored n = .fail .numberTooWide := by
  rw [stored, if_neg]
  rw [fitsUnsigned_iff]
  omega

/-- The number that groups stand for on top of a sum. -/
theorem computes_stored :
    WordSum.Computes (1 < ·) (fun total _ => total.word) fun sum front =>
      stored (sum.word.toNat + 2 ^ sum.shift * naturalValue front) where
  refuses_of_announces := fun _ hbyte => decide_eq_true (WordSum.one_lt_of_announces hbyte)
  store_refused := by
    intro sum byte h hrefused hbyte
    have hlast : naturalValue [byte] = byte.toNat % 128 := rfl
    have hone := UInt8.lt_iff_toNat_lt.mp (of_decide_eq_true hrefused)
    have hlt := UInt8.lt_iff_toNat_lt.mp hbyte
    change 1 < byte.toNat at hone
    change byte.toNat < 128 at hlt
    refine stored_of_le ?_
    rw [hlast, h.shift_eq]
    omega
  store_last := by
    intro sum count byte h hcount haccepted _
    have hlast : naturalValue [byte] = byte.toNat % 128 := rfl
    have hword := h.toNat_word_add_of_accepted hcount (by simpa using haccepted)
    rw [hlast, Nat.mul_comm, ← hword, stored_toNat]
  store_more := by
    intro sum count byte rest h hcount _
    refine congrArg stored ?_
    rw [(h.add hcount byte).1]
    change _ + 2 ^ (sum.shift + 7) * _ = _ + _ * (_ + 128 * _)
    ring

/-- Adding up from nothing is reading an unsigned number. -/
theorem result_sumUp_empty
    (bytes : Bytes) :
    (sumUp .empty bytes).result = unsigned.run bytes := by
  rw [sumUp, computes_stored.result_accumulate WordSum.holds_empty (Nat.zero_add 9) bytes,
    unsigned_eq_bind]
  change (groups maxGroups >>= fun front => stored (0 + 2 ^ 0 * naturalValue front)).run bytes = _
  simp only [pow_zero, one_mul, zero_add]

/-- A number that fits into 64 bits ends at this byte, which is one of the first ten. -/
structure EndsNumber (bytes : Bytes) (k : Nat) : Prop where
  findIdx?_eq : bytes.findIdx? (· < 128) = some k
  le_nine : k ≤ 9
  sum_lt : groupSum (bytes.take (k + 1)) < 2 ^ 64

/-- The bytes end before the number does. -/
def CutsOff (bytes : Bytes) : Prop :=
  bytes.length ≤ 9 ∧ ∀ byte ∈ bytes, 128 ≤ byte

section Outcomes

variable {α : Type} {next : Bytes → Reader α} {bytes rest : Bytes} {a : α}

theorem run_groups_bind_eq_ok_iff :
    (groups maxGroups >>= next).run bytes = (.ok a, rest) ↔
      ∃ k, bytes.findIdx? (· < 128) = some k ∧ k ≤ 9 ∧
        (next (bytes.take (k + 1))).run (bytes.drop (k + 1)) = (.ok a, rest) := by
  rw [Reader.run_bind_eq_ok_iff]
  simp only [run_groups_eq_ok_iff_findIdx?]
  constructor
  · rintro ⟨front, middle, ⟨k, hk, hroom, rfl, rfl⟩, hnext⟩
    exact ⟨k, hk, Nat.le_of_lt_succ hroom, hnext⟩
  · rintro ⟨k, hk, hnine, hnext⟩
    exact ⟨_, _, ⟨k, hk, Nat.lt_succ_of_le hnine, rfl, rfl⟩, hnext⟩

theorem run_groups_bind_of_cutsOff
    (h : CutsOff bytes) (next : Bytes → Reader α) :
    (groups maxGroups >>= next).run bytes = (.error (.outOfBytes 1 0), []) := by
  have hroom : bytes.length < maxGroups := Nat.lt_succ_of_le h.1
  have hgroups : (groups maxGroups).run bytes = (.error (.outOfBytes 1 0), []) := by
    rw [run_groups_of_forall_le fun byte hbyte => h.2 byte (List.mem_of_mem_take hbyte),
      if_pos hroom]
  exact Reader.run_bind_error hgroups _

/-- What is neither a number nor cut off takes ten bytes: either none of them ends a number, or
the tenth does and its value is too large. -/
theorem run_groups_bind_of_not_cutsOff
    (hcuts : ¬ CutsOff bytes)
    (hwide : ∀ k, bytes.findIdx? (· < 128) = some k → k ≤ 9 →
      9 ≤ k ∧ next (bytes.take (k + 1)) = .fail .numberTooWide) :
    10 ≤ bytes.length ∧
      (groups maxGroups >>= next).run bytes = (.error .numberTooWide, bytes.drop 10) := by
  rcases exists_findIdx?_or_forall_le maxGroups bytes with ⟨k, hk, hroom⟩ | hall
  · obtain ⟨hnine, hfail⟩ := hwide k hk (Nat.le_of_lt_succ hroom)
    obtain rfl : k = 9 := Nat.le_antisymm (Nat.le_of_lt_succ hroom) hnine
    have hgroups := run_groups_eq_ok_iff_findIdx?.mpr ⟨9, hk, hroom, rfl, rfl⟩
    obtain ⟨hlength, -⟩ := List.findIdx?_eq_some_iff_getElem.mp hk
    refine ⟨hlength, ?_⟩
    rw [Reader.run_bind_ok hgroups, hfail, Reader.run_fail]
  · have hlength : ¬ bytes.length < maxGroups := by
      intro hlt
      refine hcuts ⟨Nat.le_of_lt_succ hlt, fun byte hbyte => hall byte ?_⟩
      rwa [List.take_of_length_le (Nat.le_of_lt hlt)]
    have hgroups : (groups maxGroups).run bytes = (.error .numberTooWide, bytes.drop 10) := by
      rw [run_groups_of_forall_le hall, if_neg hlength]
      rfl
    exact ⟨Nat.not_lt.mp hlength, Reader.run_bind_error hgroups _⟩

end Outcomes

theorem run_unsigned_eq_ok_iff_endsNumber
    {bytes rest : Bytes} {n : UInt64} :
    unsigned.run bytes = (.ok n, rest) ↔
      ∃ k, EndsNumber bytes k ∧ n.toNat = groupSum (bytes.take (k + 1)) ∧
        rest = bytes.drop (k + 1) := by
  rw [unsigned_eq_bind, run_groups_bind_eq_ok_iff]
  simp only [naturalValue_eq_groupSum]
  constructor
  · rintro ⟨k, hk, hnine, hstored⟩
    by_cases hfits : groupSum (bytes.take (k + 1)) < 2 ^ 64
    · refine ⟨k, ⟨hk, hnine, hfits⟩, ?_⟩
      rw [← UInt64.toNat_ofNat_of_lt' hfits, stored_toNat] at hstored
      cases hstored
      exact ⟨UInt64.toNat_ofNat_of_lt' hfits, rfl⟩
    · rw [stored_of_le (Nat.not_lt.mp hfits)] at hstored
      cases hstored
  · rintro ⟨k, hends, hn, rfl⟩
    refine ⟨k, hends.findIdx?_eq, hends.le_nine, ?_⟩
    rw [← hn, stored_toNat, Reader.run_pure]

theorem run_unsigned_of_cutsOff
    {bytes : Bytes} (h : CutsOff bytes) :
    unsigned.run bytes = (.error (.outOfBytes 1 0), []) :=
  run_groups_bind_of_cutsOff h _

theorem run_unsigned_of_not
    {bytes : Bytes} (hends : ∀ k, ¬ EndsNumber bytes k) (hcuts : ¬ CutsOff bytes) :
    10 ≤ bytes.length ∧ unsigned.run bytes = (.error .numberTooWide, bytes.drop 10) := by
  refine run_groups_bind_of_not_cutsOff hcuts fun k hk hnine => ?_
  have hwide : 2 ^ 64 ≤ groupSum (bytes.take (k + 1)) :=
    Nat.not_lt.mp fun hlt => hends k ⟨hk, hnine, hlt⟩
  refine ⟨?_, ?_⟩
  · -- Nine groups have 63 bits.
    by_contra hless
    have hlt := groupSum_lt (bytes.take (k + 1))
    have hlength := List.length_take_le (k + 1) bytes
    have hle : 128 ^ (bytes.take (k + 1)).length ≤ 128 ^ 9 :=
      Nat.pow_le_pow_right (by decide) (by omega)
    omega
  · change stored _ = _
    rw [naturalValue_eq_groupSum, stored_of_le hwide]

/-- **Unsigned numbers.** For every byte string: a number is read exactly if it ends within ten
bytes and its exact value is below 2^64, and it takes the bytes up to its end. Otherwise all bytes
are taken if they are cut off, and ten if they are not. Adding up the groups in a word finds the
same. There the shift stays below 64, and every word is the exact sum. -/
theorem run_unsigned_exact
    (bytes : Bytes) :
    (∀ n rest, unsigned.run bytes = (.ok n, rest) ↔
      ∃ k, EndsNumber bytes k ∧ n.toNat = groupSum (bytes.take (k + 1)) ∧
        rest = bytes.drop (k + 1)) ∧
    (CutsOff bytes → unsigned.run bytes = (.error (.outOfBytes 1 0), [])) ∧
    ((∀ k, ¬ EndsNumber bytes k) → ¬ CutsOff bytes →
      10 ≤ bytes.length ∧ unsigned.run bytes = (.error .numberTooWide, bytes.drop 10)) ∧
    (sumUp .empty bytes).result = unsigned.run bytes ∧
    (∀ sum byte, (sum, byte) ∈ (sumUp .empty bytes).passes →
      sum.shift < 64 ∧
        (sum.add byte).word.toNat = sum.word.toNat + byte.toNat % 128 * 2 ^ sum.shift) :=
  ⟨fun _ _ => run_unsigned_eq_ok_iff_endsNumber, run_unsigned_of_cutsOff, run_unsigned_of_not,
    result_sumUp_empty bytes, fun _ _ => WordSum.holds_empty.of_mem_passes (Nat.zero_le 9)⟩

/-- The largest number, a padded zero in ten bytes, and a tenth group with a bit too many. -/
example :
    unsigned.run [0xff, 0xff, 0xff, 0xff, 0xff, 0xff, 0xff, 0xff, 0xff, 0x01, 0x05] =
      (.ok 0xffffffffffffffff, [0x05]) ∧
    unsigned.run [0x80, 0x80, 0x80, 0x80, 0x80, 0x80, 0x80, 0x80, 0x80, 0x00] = (.ok 0, []) ∧
    unsigned.run [0x80, 0x80, 0x80, 0x80, 0x80, 0x80, 0x80, 0x80, 0x80, 0x02, 0x05] =
      (.error .numberTooWide, [0x05]) :=
  ⟨rfl, rfl, rfl⟩

end Leb128

end CallFrame
