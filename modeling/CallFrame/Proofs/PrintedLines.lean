import CallFrame.CommandLine.Outcome
import CallFrame.Proofs.ValueTexts

/-!
# What a reader finds in printed lines

In a line of the output each value stands behind its name and ends at a space or with the line,
and no text of a value has a space in it. So a line shows one value for each name, and a line with
a frame address shows no location.

A line with the name of a symbol is left out here: a symbol may be called anything.
-/

namespace CallFrame

namespace CommandLine

/-- The line shows a counter, a stack pointer and a frame address in texts that are read as
these values. -/
def ShowsAddress (pc sp cfa : UInt64) (line : String) : Prop :=
  ∃ pcText spText cfaText,
    line = "pc=" ++ pcText ++ " sp=" ++ spText ++ " cfa=" ++ cfaText ∧
      address pcText = .ok pc ∧ address spText = .ok sp ∧ address cfaText = .ok cfa

/-- The line shows a location in a text that is read as this value. -/
def ShowsLocation (location : UInt64) (line : String) : Prop :=
  ∃ text, line = "location=" ++ text ∧ address text = .ok location

section Words

variable {text other : String} {n m : UInt64}

theorem isNotSpace_of_address
    (h : address text = .ok n) :
    ∀ c ∈ text.toList, c ≠ ' ' := by
  intro c hc hspace
  have hnumeral := isNumeral_of_address h c hc
  rw [hspace] at hnumeral
  revert hnumeral
  unfold Hex.IsNumeral
  decide

/-- A value ends at the first space behind it. -/
theorem eq_of_append_space
    (htext : address text = .ok n) (hother : address other = .ok m)
    {rest others : List Char}
    (h : text.toList ++ ' ' :: rest = other.toList ++ ' ' :: others) :
    text = other ∧ rest = others := by
  -- What stands before the first space is the value, on both sides.
  have hword := congrArg (List.takeWhile (· ≠ ' ')) h
  rw [List.takeWhile_append_of_pos (by simpa using isNotSpace_of_address htext),
    List.takeWhile_append_of_pos (by simpa using isNotSpace_of_address hother)] at hword
  have heq : text.toList = other.toList := by
    simpa using hword
  rw [heq] at h
  exact ⟨String.toList_inj.mp heq, List.cons.inj (List.append_cancel_left h) |>.2⟩

end Words

/-- A line shows at most one counter, one stack pointer and one frame address. -/
theorem ShowsAddress.unique
    {pc sp cfa pc' sp' cfa' : UInt64} {line : String}
    (h : ShowsAddress pc sp cfa line) (h' : ShowsAddress pc' sp' cfa' line) :
    pc = pc' ∧ sp = sp' ∧ cfa = cfa' := by
  obtain ⟨pcText, spText, cfaText, rfl, hpc, hsp, hcfa⟩ := h
  obtain ⟨pcOther, spOther, cfaOther, hline, hpc', hsp', hcfa'⟩ := h'
  have hchars := congrArg String.toList hline
  simp only [String.toList_append] at hchars
  have hfront : pcText.toList ++ ' ' :: ("sp=".toList ++ (spText.toList ++
        ' ' :: ("cfa=".toList ++ cfaText.toList))) =
      pcOther.toList ++ ' ' :: ("sp=".toList ++ (spOther.toList ++
        ' ' :: ("cfa=".toList ++ cfaOther.toList))) := by
    simpa using hchars
  obtain ⟨rfl, hmiddle⟩ := eq_of_append_space hpc hpc' hfront
  obtain ⟨rfl, hlast⟩ := eq_of_append_space hsp hsp' (List.append_cancel_left hmiddle)
  obtain rfl := String.toList_inj.mp (List.append_cancel_left hlast)
  exact ⟨Except.ok.inj (hpc.symm.trans hpc'), Except.ok.inj (hsp.symm.trans hsp'),
    Except.ok.inj (hcfa.symm.trans hcfa')⟩

theorem ShowsLocation.unique
    {location location' : UInt64} {line : String}
    (h : ShowsLocation location line) (h' : ShowsLocation location' line) :
    location = location' := by
  obtain ⟨text, rfl, htext⟩ := h
  obtain ⟨other, hline, hother⟩ := h'
  have hchars := congrArg String.toList hline
  simp only [String.toList_append] at hchars
  obtain rfl := String.toList_inj.mp (List.append_cancel_left hchars)
  exact Except.ok.inj (htext.symm.trans hother)

end CommandLine

end CallFrame
