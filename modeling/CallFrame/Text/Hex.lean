/-!
# Hexadecimal text

Numbers are written with lower-case digits and without leading zeros, behind the
mark `0x` where a reader needs it. They are read back from digits of either case.

Reading goes from left to right and stops at the first character that decides:
a character that is no digit, or a digit that takes the number to its limit.

Main facts:

* a written number is read back, with or without the mark, if it is below the limit;
* written bytes are read back.
-/

namespace CallFrame

namespace Hex

/-- The lower-case digit of a number below sixteen. -/
def digit (n : Nat) : Char :=
  if n < 10 then Char.ofNat ('0'.toNat + n) else Char.ofNat ('a'.toNat + (n - 10))

/-- The digits of a number, most significant first; zero has one digit. -/
def digits (n : Nat) : List Char :=
  if n < 16 then [digit n] else digits (n / 16) ++ [digit (n % 16)]

/-- The digits of a number, filled up with zeros to `width` digits. -/
def padded (width n : Nat) : List Char :=
  List.replicate (width - (digits n).length) '0' ++ digits n

/-- The written form of a number: the mark `0x` and its digits. -/
def marked (n : Nat) : String :=
  "0x" ++ String.ofList (digits n)

/-- The written form of a byte that names an operation: the mark and two digits. -/
def markedByte (byte : UInt8) : String :=
  "0x" ++ String.ofList (padded 2 byte.toNat)

/-- The number that a digit of either case stands for. -/
def digitValue? (c : Char) : Option Nat :=
  if '0' ≤ c ∧ c ≤ '9' then some (c.toNat - '0'.toNat)
  else if 'a' ≤ c ∧ c ≤ 'f' then some (c.toNat - 'a'.toNat + 10)
  else if 'A' ≤ c ∧ c ≤ 'F' then some (c.toNat - 'A'.toNat + 10)
  else none

/-- Why a text is not the numeral of a number below a limit. -/
inductive NumeralFault where
  | empty
  | invalidDigit
  | tooLarge
  deriving DecidableEq

namespace NumeralFault

/-- The words a fault is reported in. -/
def message : NumeralFault → String
  | .empty => "cannot parse integer from empty string"
  | .invalidDigit => "invalid digit found in string"
  | .tooLarge => "number too large to fit in target type"

end NumeralFault

/-- Reads the digits that follow those of `read`, keeping the number below `limit`. -/
def numberFrom (limit : Nat) : Nat → List Char → Except NumeralFault Nat
  | read, [] => .ok read
  | read, c :: rest =>
    match digitValue? c with
    | none => .error .invalidDigit
    | some d =>
      if 16 * read + d < limit then numberFrom limit (16 * read + d) rest
      else .error .tooLarge

/-- Reads the numeral of a number below `limit`: an optional plus sign, then one digit or more. -/
def number (limit : Nat) : List Char → Except NumeralFault Nat
  | [] => .error .empty
  | ['+'] => .error .invalidDigit
  | '+' :: rest => numberFrom limit 0 rest
  | text => numberFrom limit 0 text

/-- The text behind all the marks `0x` it begins with. -/
def unmarked : List Char → List Char
  | '0' :: 'x' :: rest => unmarked rest
  | text => text

/-- The two digits of each byte, in order. -/
def ofBytes (bytes : List UInt8) : List Char :=
  bytes.flatMap fun byte => padded 2 byte.toNat

/-- Reads a byte from each two characters, each pair a numeral of its own; a last single
character is left out. -/
def pairs : List Char → Except NumeralFault (List UInt8)
  | high :: low :: rest => do
    let byte ← number 256 [high, low]
    let bytes ← pairs rest
    return UInt8.ofNat byte :: bytes
  | _ => .ok []

theorem digitValue?_digit
    {n : Nat} (h : n < 16) :
    digitValue? (digit n) = some n := by
  have hall : ∀ n < 16, digitValue? (digit n) = some n := by decide
  exact hall n h

/-- Every digit of a number is the digit of a number below sixteen. -/
theorem exists_of_mem_digits
    {n : Nat} {c : Char} (h : c ∈ digits n) :
    ∃ d < 16, c = digit d := by
  fun_induction digits n with
  | case1 n hn =>
      exact ⟨n, hn, List.mem_singleton.mp h⟩
  | case2 n hn ih =>
      rcases List.mem_append.mp h with h | h
      · exact ih h
      · exact ⟨n % 16, Nat.mod_lt n (by decide), List.mem_singleton.mp h⟩

theorem digits_ne_nil
    (n : Nat) :
    digits n ≠ [] := by
  rw [digits]
  split <;> simp

/-- Reading one part of a text after the other is reading the whole. -/
theorem numberFrom_append
    {limit read middle : Nat} {front : List Char}
    (h : numberFrom limit read front = .ok middle) (rest : List Char) :
    numberFrom limit read (front ++ rest) = numberFrom limit middle rest := by
  induction front generalizing read with
  | nil =>
      cases h
      rfl
  | cons c front ih =>
      rw [numberFrom] at h
      rw [List.cons_append, numberFrom]
      split at h
      · cases h
      · split at h
        · rename_i hlimit
          simp only [if_pos hlimit]
          exact ih h
        · cases h

theorem numberFrom_digit
    {limit read d : Nat} (hd : d < 16) (h : 16 * read + d < limit) :
    numberFrom limit read [digit d] = .ok (16 * read + d) := by
  rw [numberFrom, digitValue?_digit hd]
  simp only [if_pos h]
  rfl

theorem numberFrom_digits
    {limit n : Nat} (h : n < limit) :
    numberFrom limit 0 (digits n) = .ok n := by
  fun_induction digits n with
  | case1 n hn =>
      rw [numberFrom_digit hn (by omega)]
      congr 1
      omega
  | case2 n hn ih =>
      rw [numberFrom_append (ih (by omega)),
        numberFrom_digit (Nat.mod_lt n (by decide)) (by omega)]
      congr 1
      omega

/-- Reading a numeral without a sign is reading its digits. -/
theorem number_eq_numberFrom
    {limit : Nat} {text : List Char} (hnil : text ≠ [])
    (hplus : text.head? ≠ some '+') :
    number limit text = numberFrom limit 0 text := by
  unfold number
  split
  · exact absurd rfl hnil
  · exact absurd rfl hplus
  · exact absurd rfl hplus
  · rfl

theorem head?_digits_ne
    (n : Nat) :
    (digits n).head? ≠ some '+' := by
  intro h
  obtain ⟨d, hd, hplus⟩ := exists_of_mem_digits (List.mem_of_mem_head? h)
  have hall : ∀ d < 16, '+' ≠ digit d := by decide
  exact hall d hd hplus

/-- A written number is read back if it is below the limit. -/
theorem number_digits
    {limit n : Nat} (h : n < limit) :
    number limit (digits n) = .ok n := by
  rw [number_eq_numberFrom (digits_ne_nil n) (head?_digits_ne n), numberFrom_digits h]

/-- The digits of a number do not begin with a mark. -/
theorem unmarked_digits
    (n : Nat) :
    unmarked (digits n) = digits n := by
  unfold unmarked
  split
  · rename_i rest hrest
    obtain ⟨d, hd, hx⟩ := exists_of_mem_digits
      (hrest ▸ List.mem_cons_of_mem '0' List.mem_cons_self : 'x' ∈ digits n)
    have hall : ∀ d < 16, 'x' ≠ digit d := by decide
    exact absurd hx (hall d hd)
  · rfl

/-- A number that is written with its mark is read back too. -/
theorem number_unmarked_marked
    {limit n : Nat} (h : n < limit) :
    number limit (unmarked (marked n).toList) = .ok n := by
  have htext : (marked n).toList = '0' :: 'x' :: digits n := by simp [marked]
  rw [htext, unmarked, unmarked_digits, number_digits h]

/-- A byte is written as its two digits. -/
theorem padded_two
    (byte : UInt8) :
    padded 2 byte.toNat = [digit (byte.toNat / 16), digit (byte.toNat % 16)] := by
  have hlt := byte.toNat_lt
  by_cases h : byte.toNat < 16
  · have hdigits : digits byte.toNat = [digit byte.toNat] := by rw [digits, if_pos h]
    rw [padded, hdigits, Nat.div_eq_of_lt h, Nat.mod_eq_of_lt h]
    rfl
  · have hdigits : digits byte.toNat = [digit (byte.toNat / 16), digit (byte.toNat % 16)] := by
      rw [digits, if_neg h, digits, if_pos (by omega)]
      rfl
    rw [padded, hdigits]
    rfl

/-- Written bytes are read back. -/
theorem pairs_ofBytes
    (bytes : List UInt8) :
    pairs (ofBytes bytes) = .ok bytes := by
  induction bytes with
  | nil =>
      rfl
  | cons byte bytes ih =>
      have hlt := byte.toNat_lt
      have hplus : ∀ d < 16, digit d ≠ '+' := by decide
      have hpair : number 256 [digit (byte.toNat / 16), digit (byte.toNat % 16)] =
          .ok byte.toNat := by
        rw [number_eq_numberFrom (by simp)
          (by simpa using hplus (byte.toNat / 16) (by omega))]
        have hhigh : numberFrom 256 0 [digit (byte.toNat / 16)] = .ok (byte.toNat / 16) := by
          rw [numberFrom_digit (by omega) (by omega)]
          congr 1
          omega
        have hlow := numberFrom_append hhigh [digit (byte.toNat % 16)]
        rw [List.singleton_append] at hlow
        rw [hlow, numberFrom_digit (by omega) (by omega)]
        congr 1
        omega
      have htext : ofBytes (byte :: bytes) =
          digit (byte.toNat / 16) :: digit (byte.toNat % 16) :: ofBytes bytes := by
        rw [ofBytes, List.flatMap_cons, padded_two]
        rfl
      rw [htext, pairs, hpair, ih]
      exact congrArg (fun b => Except.ok (b :: bytes)) UInt8.ofNat_toNat

end Hex

end CallFrame
