import CallFrame.Proofs.ValueTexts
import Mathlib.Data.Nat.Digits.Defs
import Mathlib.Tactic.Ring

/-!
# Numerals

The text of an address begins with marks, any number of them, and then with a sign if there is one.
What is left is the body of the numeral. It is read from left to right, and the number read so far
is kept below the limit.

Two things can end the reading early, a character that is no digit and a digit that takes the
number to the limit. Whichever comes first is the cause that is reported. So the number is too
large exactly if some part of the body from its beginning consists of digits and has an exact value
that reaches the limit. Zeros in front make no difference, however many there are.
-/

namespace CallFrame

namespace Hex

/-- The digits in the order of their values, with letters in lower case. -/
def digitCharacters : List Char :=
  ['0', '1', '2', '3', '4', '5', '6', '7', '8', '9', 'a', 'b', 'c', 'd', 'e', 'f']

/-- The character is a digit, in either case. -/
def IsDigit (c : Char) : Prop :=
  c.toLower ∈ digitCharacters

instance (c : Char) : Decidable (IsDigit c) :=
  inferInstanceAs (Decidable (_ ∈ _))

/-- The value of a digit. -/
def valueOf (c : Char) : Nat :=
  digitCharacters.idxOf c.toLower

/-- The number that the digits of a text stand for, the most significant one first. -/
def exactValue (text : List Char) : Nat :=
  Nat.ofDigits 16 (text.reverse.map valueOf)

/-- The text is some marks and this rest, and the rest does not begin with a mark. -/
def BehindMarks (text rest : List Char) : Prop :=
  (∃ count, text = (List.replicate count ['0', 'x']).flatten ++ rest) ∧ ¬ ['0', 'x'] <+: rest

/-- The text is this body, or a sign and this body. The body of a text that begins with a sign is
what is behind the sign. -/
def BehindSign (text body : List Char) : Prop :=
  text = '+' :: body ∨ text = body ∧ text.head? ≠ some '+'

variable {c : Char} {limit read n : Nat} {text rest body : List Char}

theorem toLower_of_le
    (h : 128 ≤ c.toNat) :
    c.toLower = c := by
  refine dif_neg ?_
  intro hupper
  have hval : c.toNat ≤ 'Z'.toNat := UInt32.le_iff_toNat_le.mp hupper.2
  have hsmall : 'Z'.toNat < 128 := by decide
  omega

theorem toNat_lt_of_isDigit
    (h : IsDigit c) :
    c.toNat < 128 := by
  by_contra hlarge
  have hsmall : digitCharacters.all fun d => d.toNat < 128 := by decide
  rw [IsDigit, toLower_of_le (Nat.not_lt.mp hlarge)] at h
  exact hlarge (of_decide_eq_true (List.all_eq_true.mp hsmall c h))

theorem digitValue?_eq
    (c : Char) :
    digitValue? c = if IsDigit c then some (valueOf c) else none := by
  by_cases hascii : c.toNat < 128
  · have hall : ∀ n < 128, digitValue? (Char.ofNat n) =
        if IsDigit (Char.ofNat n) then some (valueOf (Char.ofNat n)) else none := by decide
    rw [← Char.ofNat_toNat c]
    exact hall c.toNat hascii
  · have hle : ∀ d : Char, d.toNat < 128 → ¬ c ≤ d := by
      intro d hd hcd
      have hval : c.toNat ≤ d.toNat := UInt32.le_iff_toNat_le.mp (Char.le_def.mp hcd)
      omega
    rw [digitValue?, if_neg fun h => hle '9' (by decide) h.2,
      if_neg fun h => hle 'f' (by decide) h.2, if_neg fun h => hle 'F' (by decide) h.2,
      if_neg fun h => hascii (toNat_lt_of_isDigit h)]

theorem valueOf_lt
    (h : IsDigit c) :
    valueOf c < 16 :=
  List.idxOf_lt_length_iff.mpr h

theorem exactValue_cons
    (c : Char) (rest : List Char) :
    exactValue (c :: rest) = 16 ^ rest.length * valueOf c + exactValue rest := by
  rw [exactValue, List.reverse_cons, List.map_append, Nat.ofDigits_append, List.length_map,
    List.length_reverse, List.map_singleton, Nat.ofDigits_singleton, Nat.add_comm]
  rfl

theorem behindMarks_unmarked
    (text : List Char) :
    BehindMarks text (unmarked text) := by
  fun_induction unmarked text with
  | case1 rest ih =>
      obtain ⟨⟨count, hcount⟩, hrest⟩ := ih
      refine ⟨⟨count + 1, ?_⟩, hrest⟩
      rw [List.replicate_succ, List.flatten_cons, List.append_assoc, ← hcount]
      rfl
  | case2 text hrest =>
      refine ⟨⟨0, rfl⟩, ?_⟩
      rintro ⟨rest, rfl⟩
      exact hrest rest rfl

theorem BehindMarks.eq_unmarked
    (h : BehindMarks text rest) :
    rest = unmarked text := by
  obtain ⟨⟨count, rfl⟩, hrest⟩ := h
  induction count with
  | zero =>
      rw [List.replicate_zero, List.flatten_nil, List.nil_append]
      unfold unmarked
      split
      · rename_i others
        exact absurd ⟨others, rfl⟩ hrest
      · rfl
  | succ count ih =>
      rw [List.replicate_succ, List.flatten_cons, List.append_assoc]
      exact ih

theorem exists_behindSign
    (text : List Char) :
    ∃ body, BehindSign text body := by
  by_cases hsign : text.head? = some '+'
  · obtain ⟨body, hbody⟩ := List.head?_eq_some_iff.mp hsign
    exact ⟨body, Or.inl hbody⟩
  · exact ⟨text, Or.inr ⟨rfl, hsign⟩⟩

/-- One step of reading. -/
theorem numberFrom_cons
    (limit read : Nat) (c : Char) (rest : List Char) :
    numberFrom limit read (c :: rest) =
      if IsDigit c then
        if 16 * read + valueOf c < limit then numberFrom limit (16 * read + valueOf c) rest
        else .error .tooLarge
      else .error .invalidDigit := by
  rw [numberFrom, digitValue?_eq]
  by_cases hdigit : IsDigit c
  · rw [if_pos hdigit, if_pos hdigit]
  · rw [if_neg hdigit, if_neg hdigit]

/-- The number that some digits make behind those of `read`. -/
def valueBehind (read : Nat) (text : List Char) : Nat :=
  16 ^ text.length * read + exactValue text

theorem valueBehind_zero
    (text : List Char) :
    valueBehind 0 text = exactValue text := by
  rw [valueBehind, Nat.mul_zero, Nat.zero_add]

theorem valueBehind_nil
    (read : Nat) :
    valueBehind read [] = read := by
  simp [valueBehind, exactValue]

theorem valueBehind_cons
    (read : Nat) (c : Char) (rest : List Char) :
    valueBehind read (c :: rest) = valueBehind (16 * read + valueOf c) rest := by
  rw [valueBehind, valueBehind, exactValue_cons, List.length_cons]
  ring

theorem le_valueBehind
    (read : Nat) (text : List Char) :
    read ≤ valueBehind read text :=
  (Nat.le_mul_of_pos_left read (Nat.pow_pos (by decide))).trans (Nat.le_add_right _ _)

/-- The digits are read to the end exactly if they are digits and make a number below the limit. -/
theorem numberFrom_eq_ok_iff
    (hread : read < limit) :
    numberFrom limit read text = .ok n ↔
      (∀ c ∈ text, IsDigit c) ∧ n < limit ∧ n = valueBehind read text := by
  -- Every step keeps the number read so far below the limit.
  induction text generalizing read with
  | nil =>
      rw [numberFrom, valueBehind_nil]
      constructor
      · intro h
        cases h
        exact ⟨List.forall_mem_nil _, hread, rfl⟩
      · rintro ⟨-, -, rfl⟩
        rfl
  | cons c rest ih =>
      rw [numberFrom_cons, valueBehind_cons, List.forall_mem_cons]
      by_cases hdigit : IsDigit c
      · rw [if_pos hdigit, and_iff_right hdigit]
        by_cases hlimit : 16 * read + valueOf c < limit
        · rw [if_pos hlimit, ih hlimit]
        · rw [if_neg hlimit]
          refine iff_of_false (fun h => by cases h) ?_
          rintro ⟨-, hn, rfl⟩
          exact hlimit ((le_valueBehind _ rest).trans_lt hn)
      · rw [if_neg hdigit]
        exact iff_of_false (fun h => by cases h) (fun h => hdigit h.1.1)

/-- Some digits at the beginning make a number that reaches the limit. -/
def Reaches (limit read : Nat) (text : List Char) : Prop :=
  ∃ front, front <+: text ∧ (∀ c ∈ front, IsDigit c) ∧ limit ≤ valueBehind read front

theorem reaches_of_le
    (h : limit ≤ read) (text : List Char) :
    Reaches limit read text :=
  ⟨[], List.nil_prefix, List.forall_mem_nil _, by rwa [valueBehind_nil]⟩

theorem not_reaches_nil
    (hread : read < limit) :
    ¬ Reaches limit read [] := by
  rintro ⟨front, hfront, -, hlimit⟩
  rw [List.prefix_nil.mp hfront, valueBehind_nil] at hlimit
  omega

theorem reaches_cons_iff
    (hread : read < limit) :
    Reaches limit read (c :: rest) ↔ IsDigit c ∧ Reaches limit (16 * read + valueOf c) rest := by
  constructor
  · rintro ⟨front, hfront, hdigits, hlimit⟩
    rcases List.prefix_cons_iff.mp hfront with rfl | ⟨others, rfl, hothers⟩
    · rw [valueBehind_nil] at hlimit
      omega
    · rw [valueBehind_cons] at hlimit
      obtain ⟨hfirst, hrest⟩ := List.forall_mem_cons.mp hdigits
      exact ⟨hfirst, others, hothers, hrest, hlimit⟩
  · rintro ⟨hdigit, front, hfront, hdigits, hlimit⟩
    rw [← valueBehind_cons] at hlimit
    exact ⟨c :: front, (List.prefix_cons_inj c).mpr hfront,
      List.forall_mem_cons.mpr ⟨hdigit, hdigits⟩, hlimit⟩

/-- The number is too large exactly if it reaches the limit before a character is met that is no
digit. -/
theorem numberFrom_eq_tooLarge_iff
    (hread : read < limit) :
    numberFrom limit read text = .error .tooLarge ↔ Reaches limit read text := by
  induction text generalizing read with
  | nil =>
      exact iff_of_false (fun h => by cases h) (not_reaches_nil hread)
  | cons c rest ih =>
      rw [numberFrom_cons, reaches_cons_iff hread]
      by_cases hdigit : IsDigit c
      · rw [if_pos hdigit, and_iff_right hdigit]
        by_cases hlimit : 16 * read + valueOf c < limit
        · rw [if_pos hlimit, ih hlimit]
        · rw [if_neg hlimit]
          exact iff_of_true rfl (reaches_of_le (Nat.not_lt.mp hlimit) rest)
      · rw [if_neg hdigit]
        exact iff_of_false (fun h => by cases h) (fun h => hdigit h.1)

theorem numberFrom_ne_empty
    (limit read : Nat) (text : List Char) :
    numberFrom limit read text ≠ .error .empty := by
  induction text generalizing read with
  | nil =>
      intro h
      cases h
  | cons c rest ih =>
      rw [numberFrom_cons]
      split
      · split
        · exact ih _
        · intro h
          cases h
      · intro h
        cases h

theorem number_of_behindSign
    (h : BehindSign text body) (hbody : body ≠ []) :
    number limit text = numberFrom limit 0 body := by
  rcases h with rfl | ⟨rfl, hhead⟩
  · cases body with
    | nil =>
        exact absurd rfl hbody
    | cons c rest =>
        rfl
  · exact number_eq_numberFrom hbody hhead

/-- A numeral is read exactly if its body is digits, at least one, with a number below the limit. -/
theorem number_eq_ok_iff
    (hlimit : 0 < limit) (h : BehindSign text body) :
    number limit text = .ok n ↔
      body ≠ [] ∧ (∀ c ∈ body, IsDigit c) ∧ n < limit ∧ n = exactValue body := by
  by_cases hbody : body = []
  · subst hbody
    refine iff_of_false (fun hok => ?_) (fun hok => hok.1 rfl)
    rcases h with rfl | ⟨rfl, -⟩
    · cases hok
    · cases hok
  · rw [number_of_behindSign h hbody, numberFrom_eq_ok_iff hlimit, valueBehind_zero]
    exact (and_iff_right hbody).symm

theorem number_eq_empty_iff
    (h : BehindSign text body) :
    number limit text = .error .empty ↔ text = [] := by
  constructor
  · intro herror
    by_cases hbody : body = []
    · subst hbody
      rcases h with rfl | ⟨rfl, -⟩
      · cases herror
      · rfl
    · rw [number_of_behindSign h hbody] at herror
      exact absurd herror (numberFrom_ne_empty limit 0 body)
  · rintro rfl
    rfl

theorem number_eq_tooLarge_iff
    (hlimit : 0 < limit) (h : BehindSign text body) :
    number limit text = .error .tooLarge ↔ Reaches limit 0 body := by
  by_cases hbody : body = []
  · subst hbody
    refine iff_of_false (fun herror => ?_) (not_reaches_nil hlimit)
    rcases h with rfl | ⟨rfl, -⟩
    · cases herror
    · cases herror
  · rw [number_of_behindSign h hbody, numberFrom_eq_tooLarge_iff hlimit]

theorem number_eq_invalidDigit_iff
    (hlimit : 0 < limit) (h : BehindSign text body) :
    number limit text = .error .invalidDigit ↔
      text ≠ [] ∧ (body = [] ∨ ∃ c ∈ body, ¬ IsDigit c) ∧ ¬ Reaches limit 0 body := by
  constructor
  · intro herror
    refine ⟨fun hnil => ?_, ?_, fun hreaches => ?_⟩
    · rw [(number_eq_empty_iff h).mpr hnil] at herror
      cases herror
    · by_contra hgood
      simp only [not_or, not_exists, not_and, not_not] at hgood
      obtain ⟨hbody, hdigits⟩ := hgood
      by_cases hfits : exactValue body < limit
      · rw [(number_eq_ok_iff hlimit h).mpr ⟨hbody, hdigits, hfits, rfl⟩] at herror
        cases herror
      · have hreaches : Reaches limit 0 body :=
          ⟨body, List.prefix_rfl, hdigits, by rw [valueBehind_zero]; exact Nat.not_lt.mp hfits⟩
        rw [(number_eq_tooLarge_iff hlimit h).mpr hreaches] at herror
        cases herror
    · rw [(number_eq_tooLarge_iff hlimit h).mpr hreaches] at herror
      cases herror
  · rintro ⟨hne, hbad, hreaches⟩
    rcases hnumber : number limit text with cause | n
    · cases cause with
      | empty =>
          exact absurd ((number_eq_empty_iff h).mp hnumber) hne
      | invalidDigit =>
          rfl
      | tooLarge =>
          exact absurd ((number_eq_tooLarge_iff hlimit h).mp hnumber) hreaches
    · obtain ⟨hbody, hdigits, -⟩ := (number_eq_ok_iff hlimit h).mp hnumber
      rcases hbad with hnil | ⟨c, hc, hdigit⟩
      · exact absurd hnil hbody
      · exact absurd (hdigits c hc) hdigit

end Hex

namespace CommandLine

open Hex

theorem address_eq_ok_iff
    {text : String} {n : UInt64} :
    address text = .ok n ↔ number UInt64.size (unmarked text.toList) = .ok n.toNat := by
  rw [address]
  rcases hnumber : number UInt64.size (unmarked text.toList) with cause | value
  · exact iff_of_false (fun h => by cases h) (fun h => by cases h)
  · obtain ⟨body, hbody⟩ := exists_behindSign (unmarked text.toList)
    obtain ⟨-, -, hvalue, -⟩ := (number_eq_ok_iff (by decide) hbody).mp hnumber
    constructor
    · intro h
      cases h
      rw [UInt64.toNat_ofNat_of_lt' hvalue]
    · intro h
      cases h
      exact congrArg Except.ok UInt64.ofNat_toNat

theorem address_eq_error_iff
    {text : String} {fault : ValueFault} :
    address text = .error fault ↔
      ∃ cause, fault = .notNumber text cause ∧
        number UInt64.size (unmarked text.toList) = .error cause := by
  rw [address]
  rcases number UInt64.size (unmarked text.toList) with cause | value
  · constructor
    · intro h
      cases h
      exact ⟨cause, rfl, rfl⟩
    · rintro ⟨_, rfl, h⟩
      cases h
      rfl
  · refine iff_of_false (fun h => by cases h) ?_
    rintro ⟨_, _, h⟩
    cases h

/-- What an address is read as, told by what is behind the marks of its text and behind the sign
there. -/
structure ReadsExactly (text : String) (rest body : List Char) : Prop where
  /-- The text is read as a number exactly if the body is digits, at least one, and stands for this
  number. -/
  ok_iff : ∀ n, address text = .ok n ↔
    body ≠ [] ∧ (∀ c ∈ body, IsDigit c) ∧ exactValue body = n.toNat
  /-- All other texts are refused, each for one of three causes. -/
  error : ∀ fault, address text = .error fault → ∃ cause, fault = .notNumber text cause
  /-- There is nothing behind the marks. -/
  empty_iff : address text = .error (.notNumber text .empty) ↔ rest = []
  /-- Some digits at the beginning of the body stand for a number that does not fit. -/
  tooLarge_iff : address text = .error (.notNumber text .tooLarge) ↔
    ∃ front, front <+: body ∧ (∀ c ∈ front, IsDigit c) ∧ 2 ^ 64 ≤ exactValue front
  /-- Neither of these holds, and the body is not digits or there are none. -/
  invalidDigit_iff : address text = .error (.notNumber text .invalidDigit) ↔
    rest ≠ [] ∧ (body = [] ∨ ∃ c ∈ body, ¬ IsDigit c) ∧
      ¬ ∃ front, front <+: body ∧ (∀ c ∈ front, IsDigit c) ∧ 2 ^ 64 ≤ exactValue front

theorem reaches_zero_iff
    {limit : Nat} {body : List Char} :
    Reaches limit 0 body ↔
      ∃ front, front <+: body ∧ (∀ c ∈ front, IsDigit c) ∧ limit ≤ exactValue front := by
  simp only [Reaches, valueBehind_zero]

theorem readsExactly_of_parts
    {text : String} {rest body : List Char} (hrest : BehindMarks text.toList rest)
    (hbody : BehindSign rest body) :
    ReadsExactly text rest body := by
  have hpos : 0 < UInt64.size := by decide
  have hcause : ∀ cause, address text = .error (.notNumber text cause) ↔
      number UInt64.size rest = .error cause := by
    intro cause
    rw [address_eq_error_iff, ← hrest.eq_unmarked]
    simp
  refine ⟨fun n => ?_, fun fault h => ?_, ?_, ?_, ?_⟩
  · rw [address_eq_ok_iff, ← hrest.eq_unmarked, number_eq_ok_iff hpos hbody]
    simp only [n.toNat_lt_size, true_and, eq_comm]
  · obtain ⟨cause, hfault, -⟩ := address_eq_error_iff.mp h
    exact ⟨cause, hfault⟩
  · rw [hcause, number_eq_empty_iff hbody]
  · rw [hcause, number_eq_tooLarge_iff hpos hbody, reaches_zero_iff]
    rfl
  · rw [hcause, number_eq_invalidDigit_iff hpos hbody, reaches_zero_iff]
    rfl

/-- **Addresses.** Every text has a part behind its marks and a body behind the sign of that part,
and these tell exactly what is read and why a text is refused. A printed address is read back, with
the mark and without. -/
theorem address_exact :
    (∀ text : String, ∃ rest body, BehindMarks text.toList rest ∧ BehindSign rest body) ∧
    (∀ (text : String) (rest body : List Char), BehindMarks text.toList rest →
      BehindSign rest body → ReadsExactly text rest body) ∧
    (∀ n : UInt64, address (String.ofList (digits n.toNat)) = .ok n ∧
      address (marked n.toNat) = .ok n) := by
  refine ⟨fun text => ?_, fun text rest body hrest hbody => readsExactly_of_parts hrest hbody,
    fun n => ⟨?_, address_marked n⟩⟩
  · obtain ⟨body, hbody⟩ := exists_behindSign (unmarked text.toList)
    exact ⟨_, body, behindMarks_unmarked text.toList, hbody⟩
  · rw [address_eq_ok_iff, String.toList_ofList, unmarked_digits, number_digits n.toNat_lt_size]

/-- The seventeenth digit makes the number too large before the letter behind it is met. -/
example :
    address "0x0x+00000000000000000000ff" = .ok 0xff ∧
    address "10000000000000000g" = .error (.notNumber "10000000000000000g" .tooLarge) ∧
    address "ffffffffffffffffg" = .error (.notNumber "ffffffffffffffffg" .invalidDigit) :=
  ⟨by cbv, by cbv, by cbv⟩

end CommandLine

end CallFrame
