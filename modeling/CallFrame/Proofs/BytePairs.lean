import CallFrame.Proofs.Numerals

/-!
# Pairs of digits

The bytes of an expression are to be written as pairs of hexadecimal digits. A text is refused if
what is behind its marks cannot be cut into pairs of ASCII characters. Then every pair is read as a
numeral.

A numeral may begin with a sign, and two characters are enough for a sign and a digit. So the texts
that are accepted are pairs of digits in which the first of a pair may also be a sign, which counts
as a zero. A text of digits alone is read as the bytes it shows, and a text is taken for something
that it does not show exactly if it has a sign and is accepted.
-/

namespace CallFrame

namespace Hex

/-- The text can be cut into pairs of ASCII characters. -/
def HasPairs (text : List Char) : Prop :=
  (∀ c ∈ text, c.toNat < 128) ∧ text.length % 2 = 0

/-- Pairs of digits, in which the first of a pair may also be a sign. -/
inductive SignedPairs : List Char → Prop
  | nil : SignedPairs []
  | cons {high low : Char} {rest : List Char} (hhigh : high = '+' ∨ IsDigit high)
      (hlow : IsDigit low) (hrest : SignedPairs rest) : SignedPairs (high :: low :: rest)

/-- The text is pairs of digits. -/
structure IsDump (text : List Char) : Prop where
  even : text.length % 2 = 0
  digits : ∀ c ∈ text, IsDigit c

/-- The digit that a character of a pair counts as, in lower case. -/
def pairDigit (c : Char) : Char :=
  if c = '+' then '0' else c.toLower

variable {c high low : Char} {text : List Char} {bytes : List UInt8}

theorem not_isDigit_plus :
    ¬ IsDigit '+' := by
  decide

theorem digit_valueOf
    (h : IsDigit c) :
    digit (valueOf c) = c.toLower := by
  have hall : digitCharacters.all fun d => digit (digitCharacters.idxOf d) = d := by decide
  exact of_decide_eq_true (List.all_eq_true.mp hall c.toLower h)

theorem pairDigit_of_isDigit
    (h : IsDigit c) :
    pairDigit c = c.toLower := by
  rw [pairDigit, if_neg]
  rintro rfl
  exact not_isDigit_plus h

theorem exactValue_lt
    (h : ∀ c ∈ text, IsDigit c) :
    exactValue text < 16 ^ text.length := by
  have hdigits : ∀ d ∈ text.reverse.map valueOf, d < 16 := by
    intro d hd
    obtain ⟨c, hc, rfl⟩ := List.mem_map.mp hd
    exact valueOf_lt (h c (List.mem_reverse.mp hc))
  have hlt := Nat.ofDigits_lt_base_pow_length (by decide) hdigits
  rwa [List.length_map, List.length_reverse] at hlt

/-- A pair is read as the byte of its two digits. -/
theorem exists_number_pair
    (hhigh : high = '+' ∨ IsDigit high) (hlow : IsDigit low) :
    ∃ byte : UInt8, number 256 [high, low] = .ok byte.toNat ∧
      padded 2 byte.toNat = [pairDigit high, pairDigit low] := by
  have hvalue : ∃ d < 16, digit d = pairDigit high ∧
      number 256 [high, low] = .ok (16 * d + valueOf low) := by
    have hlast := valueOf_lt hlow
    rcases hhigh with rfl | hhigh
    · refine ⟨0, by decide, rfl, ?_⟩
      have hsign : BehindSign ['+', low] [low] := Or.inl rfl
      refine (number_eq_ok_iff (by decide) hsign).mpr ⟨List.cons_ne_nil _ _, ?_, by omega, ?_⟩
      · exact List.forall_mem_singleton.mpr hlow
      · simp [exactValue]
    · have hfirst := valueOf_lt hhigh
      refine ⟨valueOf high, hfirst, ?_, ?_⟩
      · rw [digit_valueOf hhigh, pairDigit_of_isDigit hhigh]
      · have hsign : BehindSign [high, low] [high, low] := by
          refine Or.inr ⟨rfl, fun h => not_isDigit_plus ?_⟩
          cases h
          exact hhigh
        refine (number_eq_ok_iff (by decide) hsign).mpr ⟨List.cons_ne_nil _ _, ?_, by omega, ?_⟩
        · exact List.forall_mem_cons.mpr ⟨hhigh, List.forall_mem_singleton.mpr hlow⟩
        · rw [exactValue_cons]
          simp [exactValue]
  obtain ⟨d, hd, hdigit, hnumber⟩ := hvalue
  have hlast := valueOf_lt hlow
  have hbyte : (UInt8.ofNat (16 * d + valueOf low)).toNat = 16 * d + valueOf low :=
    UInt8.toNat_ofNat_of_lt' (by rw [UInt8.size]; omega)
  refine ⟨UInt8.ofNat (16 * d + valueOf low), by rw [hbyte, hnumber], ?_⟩
  have hdiv : (16 * d + valueOf low) / 16 = d := by omega
  have hmod : (16 * d + valueOf low) % 16 = valueOf low := by omega
  rw [padded_two, hbyte, hdiv, hmod, hdigit, digit_valueOf hlow, pairDigit_of_isDigit hlow]

/-- Two characters never make a number that is too large for a byte, so what is no pair is refused
for a character that is no digit. -/
theorem number_pair_of_not
    (h : ¬ ((high = '+' ∨ IsDigit high) ∧ IsDigit low)) :
    number 256 [high, low] = .error .invalidDigit := by
  have hbody : ∃ body : List Char, BehindSign [high, low] body ∧ body.length ≤ 2 ∧
      ∃ c ∈ body, ¬ IsDigit c := by
    by_cases hplus : high = '+'
    · subst hplus
      exact ⟨[low], Or.inl rfl, by simp, low, List.mem_singleton_self low,
        fun hlow => h ⟨Or.inl rfl, hlow⟩⟩
    · refine ⟨[high, low], Or.inr ⟨rfl, by simpa using hplus⟩, by simp, ?_⟩
      by_cases hhigh : IsDigit high
      · exact ⟨low, by simp, fun hlow => h ⟨Or.inr hhigh, hlow⟩⟩
      · exact ⟨high, by simp, hhigh⟩
  obtain ⟨body, hsign, hlength, hbad⟩ := hbody
  refine (number_eq_invalidDigit_iff (by decide) hsign).mpr
    ⟨List.cons_ne_nil _ _, Or.inr hbad, ?_⟩
  rintro ⟨front, hfront, hdigits, hlimit⟩
  rw [valueBehind_zero] at hlimit
  have hlt := exactValue_lt hdigits
  have hpow : 16 ^ front.length ≤ 16 ^ 2 :=
    Nat.pow_le_pow_right (by decide) (hfront.length_le.trans hlength)
  omega

theorem SignedPairs.exists_pairs
    (h : SignedPairs text) :
    ∃ bytes, pairs text = .ok bytes ∧ ofBytes bytes = text.map pairDigit := by
  induction h with
  | nil =>
      exact ⟨[], rfl, rfl⟩
  | cons hhigh hlow _ ih =>
      obtain ⟨byte, hnumber, hbyte⟩ := exists_number_pair hhigh hlow
      obtain ⟨bytes, hrest, hbytes⟩ := ih
      refine ⟨byte :: bytes, ?_, ?_⟩
      · rw [pairs, hnumber, hrest]
        exact congrArg (fun first => Except.ok (first :: bytes)) UInt8.ofNat_toNat
      · rw [ofBytes, List.flatMap_cons, hbyte, List.map_cons, List.map_cons, ← hbytes]
        rfl

theorem pairs_of_not_signedPairs
    (heven : text.length % 2 = 0) (h : ¬ SignedPairs text) :
    pairs text = .error .invalidDigit := by
  fun_induction pairs text with
  | case1 high low rest ih =>
      by_cases hpair : (high = '+' ∨ IsDigit high) ∧ IsDigit low
      -- The first pair is read, so the others are at fault.
      · obtain ⟨byte, hnumber, -⟩ := exists_number_pair hpair.1 hpair.2
        have hrest : pairs rest = .error .invalidDigit := by
          refine ih ?_ (fun hrest => h (SignedPairs.cons hpair.1 hpair.2 hrest))
          simp only [List.length_cons] at heven
          omega
        rw [hnumber, hrest]
        rfl
      · rw [number_pair_of_not hpair]
        rfl
  | case2 text hshort =>
      rcases text with _ | ⟨high, _ | ⟨low, rest⟩⟩
      · exact absurd SignedPairs.nil h
      · cases heven
      · exact (hshort high low rest rfl).elim

theorem ofBytes_injective
    {first second : List UInt8} (h : ofBytes first = ofBytes second) :
    first = second := by
  have hpairs := pairs_ofBytes first
  rw [h, pairs_ofBytes] at hpairs
  exact (Except.ok.inj hpairs).symm

theorem pairs_eq_ok_iff
    (heven : text.length % 2 = 0) :
    pairs text = .ok bytes ↔ SignedPairs text ∧ ofBytes bytes = text.map pairDigit := by
  by_cases hpairs : SignedPairs text
  · obtain ⟨found, hfound, hdigits⟩ := hpairs.exists_pairs
    rw [hfound, ← hdigits, and_iff_right hpairs]
    constructor
    · intro h
      cases h
      rfl
    · intro h
      rw [ofBytes_injective h]
  · rw [pairs_of_not_signedPairs heven hpairs]
    exact iff_of_false (fun h => by cases h) (fun h => hpairs h.1)

theorem SignedPairs.even
    (h : SignedPairs text) :
    text.length % 2 = 0 := by
  induction h with
  | nil =>
      rfl
  | cons _ _ _ ih =>
      simp only [List.length_cons]
      omega

theorem SignedPairs.isDigit
    (h : SignedPairs text) :
    ∀ c ∈ text, c = '+' ∨ IsDigit c := by
  induction h with
  | nil =>
      exact List.forall_mem_nil _
  | cons hhigh hlow _ ih =>
      exact List.forall_mem_cons.mpr ⟨hhigh, List.forall_mem_cons.mpr ⟨Or.inr hlow, ih⟩⟩

theorem SignedPairs.hasPairs
    (h : SignedPairs text) :
    HasPairs text := by
  refine ⟨fun c hc => ?_, h.even⟩
  rcases h.isDigit c hc with rfl | hdigit
  · decide
  · exact toNat_lt_of_isDigit hdigit

theorem signedPairs_of_isDump :
    ∀ text : List Char, IsDump text → SignedPairs text
  | [], _ => SignedPairs.nil
  | [_], h => by cases h.even
  | high :: low :: rest, h => by
      obtain ⟨hhigh, hlow, hrest⟩ : IsDigit high ∧ IsDigit low ∧ ∀ c ∈ rest, IsDigit c := by
        simpa only [List.forall_mem_cons] using h.digits
      have heven := h.even
      simp only [List.length_cons] at heven
      exact SignedPairs.cons (Or.inr hhigh) hlow
        (signedPairs_of_isDump rest ⟨by omega, hrest⟩)

/-- A dump is pairs of digits without a sign. -/
theorem isDump_iff :
    IsDump text ↔ SignedPairs text ∧ '+' ∉ text := by
  constructor
  · intro h
    exact ⟨signedPairs_of_isDump text h, fun hplus => not_isDigit_plus (h.digits '+' hplus)⟩
  · rintro ⟨hpairs, hplus⟩
    refine ⟨hpairs.even, fun c hc => (hpairs.isDigit c hc).resolve_left ?_⟩
    rintro rfl
    exact hplus hc

end Hex

namespace CommandLine

open Hex

/-- The text is accepted exactly if it is a dump behind its marks, and the bytes are those that it
shows, up to the case of the letters. -/
structure ReadsDump (text : String) (rest : List Char) : Prop where
  accepts_iff : (∃ value, bytes text = .ok value) ↔ IsDump rest
  ofBytes_eq : ∀ value, bytes text = .ok value → ofBytes value = rest.map Char.toLower

variable {text : String} {rest : List Char}

theorem bytes_of_hasPairs
    (h : BehindMarks text.toList rest) (hpairs : HasPairs rest) :
    bytes text = (pairs rest).mapError (.notByte text) := by
  have hshape : (rest.all fun c => c.toNat < 128) ∧ rest.length % 2 = 0 := by
    simpa only [List.all_eq_true, decide_eq_true_eq, HasPairs] using hpairs
  rw [bytes, ← h.eq_unmarked]
  simp only [if_pos hshape]
  rcases pairs rest with cause | value
  · rfl
  · rfl

theorem bytes_of_not_hasPairs
    (h : BehindMarks text.toList rest) (hpairs : ¬ HasPairs rest) :
    bytes text = .error (.notPairs text) := by
  have hshape : ¬ ((rest.all fun c => c.toNat < 128) ∧ rest.length % 2 = 0) := by
    simpa only [List.all_eq_true, decide_eq_true_eq, HasPairs] using hpairs
  rw [bytes, ← h.eq_unmarked]
  simp only [if_neg hshape]

/-- The text is accepted exactly if it is pairs with signs or without, as the bytes of their
digits. -/
theorem bytes_eq_ok_iff
    (h : BehindMarks text.toList rest) {value : Bytes} :
    bytes text = .ok value ↔ SignedPairs rest ∧ ofBytes value = rest.map pairDigit := by
  by_cases hpairs : HasPairs rest
  · rw [bytes_of_hasPairs h hpairs, ← pairs_eq_ok_iff hpairs.2]
    rcases pairs rest with cause | found
    · exact iff_of_false (fun h => by cases h) (fun h => by cases h)
    · simp only [Except.mapError, Except.ok.injEq]
  · rw [bytes_of_not_hasPairs h hpairs]
    exact iff_of_false (fun h => by cases h) (fun h => hpairs h.1.hasPairs)

theorem bytes_eq_error_iff
    (h : BehindMarks text.toList rest) {fault : ValueFault} :
    bytes text = .error fault ↔
      fault = .notPairs text ∧ ¬ HasPairs rest ∨
        fault = .notByte text .invalidDigit ∧ HasPairs rest ∧ ¬ SignedPairs rest := by
  by_cases hpairs : HasPairs rest
  · rw [bytes_of_hasPairs h hpairs]
    by_cases hsigned : SignedPairs rest
    · obtain ⟨value, hvalue, -⟩ := hsigned.exists_pairs
      rw [hvalue]
      refine iff_of_false (fun h => by cases h) ?_
      rintro (⟨-, hnot⟩ | ⟨-, -, hnot⟩)
      · exact hnot hpairs
      · exact hnot hsigned
    · rw [pairs_of_not_signedPairs hpairs.2 hsigned]
      simp only [Except.mapError, Except.error.injEq, hpairs, hsigned, not_true, not_false_iff,
        and_false, and_true, false_or, eq_comm]
  · rw [bytes_of_not_hasPairs h hpairs]
    simp only [Except.error.injEq, hpairs, not_false_iff, false_and, and_false, and_true, or_false,
      eq_comm]

theorem readsDump_iff
    (h : BehindMarks text.toList rest) :
    ReadsDump text rest ↔ ¬ (SignedPairs rest ∧ '+' ∈ rest) := by
  have haccepts : (∃ value, bytes text = .ok value) ↔ SignedPairs rest := by
    constructor
    · rintro ⟨value, hvalue⟩
      exact ((bytes_eq_ok_iff h).mp hvalue).1
    · intro hpairs
      obtain ⟨value, -, hdigits⟩ := hpairs.exists_pairs
      exact ⟨value, (bytes_eq_ok_iff h).mpr ⟨hpairs, hdigits⟩⟩
  constructor
  · rintro ⟨hdump, -⟩ ⟨hpairs, hplus⟩
    exact (isDump_iff.mp (hdump.mp (haccepts.mpr hpairs))).2 hplus
  · intro hsign
    have hdump : SignedPairs rest ↔ IsDump rest := by
      rw [isDump_iff]
      exact ⟨fun hpairs => ⟨hpairs, fun hplus => hsign ⟨hpairs, hplus⟩⟩, And.left⟩
    refine ⟨haccepts.trans hdump, fun value hvalue => ?_⟩
    obtain ⟨hpairs, hdigits⟩ := (bytes_eq_ok_iff h).mp hvalue
    rw [hdigits]
    refine List.map_congr_left fun c hc => pairDigit_of_isDigit ?_
    exact (hdump.mp hpairs).digits c hc

/-- **Bytes of an expression.** Every text has a part behind its marks. The text is accepted exactly
if this part is pairs of digits in which the first of a pair may also be a sign, and its bytes are
written as the part with zeros for the signs, up to case. All other texts are refused, for not being
cut into pairs or for a character that is no digit. So dumps alone are accepted, each as what it
shows, exactly where no sign is accepted. -/
theorem bytes_exact
    (text : String) :
    (∃ rest, BehindMarks text.toList rest) ∧
    (∀ rest, BehindMarks text.toList rest →
      (∀ value, bytes text = .ok value ↔
        SignedPairs rest ∧ ofBytes value = rest.map pairDigit) ∧
      (∀ fault, bytes text = .error fault ↔
        fault = .notPairs text ∧ ¬ HasPairs rest ∨
          fault = .notByte text .invalidDigit ∧ HasPairs rest ∧ ¬ SignedPairs rest) ∧
      (ReadsDump text rest ↔ ¬ (SignedPairs rest ∧ '+' ∈ rest))) := by
  refine ⟨⟨_, behindMarks_unmarked text.toList⟩, fun rest h => ⟨?_, ?_, ?_⟩⟩
  · exact fun value => bytes_eq_ok_iff h
  · exact fun fault => bytes_eq_error_iff h
  · exact readsDump_iff h

/-- The sign between two pairs makes a pair with the digit behind it. What is accepted is an
expression that adds eight to the frame address. -/
theorem not_readsDump_signed :
    bytes "9c11+822" = .ok [0x9c, 0x11, 0x08, 0x22] ∧
    BehindMarks "9c11+822".toList "9c11+822".toList ∧
    ¬ IsDump "9c11+822".toList ∧
    ¬ ReadsDump "9c11+822" "9c11+822".toList := by
  have haccepted : bytes "9c11+822" = .ok [0x9c, 0x11, 0x08, 0x22] := by cbv
  have hmarks : BehindMarks "9c11+822".toList "9c11+822".toList :=
    ⟨⟨0, rfl⟩, by decide⟩
  have hdump : ¬ IsDump "9c11+822".toList := by
    intro h
    exact not_isDigit_plus (h.digits '+' (by decide))
  exact ⟨haccepted, hmarks, hdump, fun h => hdump (h.accepts_iff.mp ⟨_, haccepted⟩)⟩

end CommandLine

end CallFrame
