import CallFrame.Reader.Field

/-!
# Stable readers

A reader is stable when more bytes behind those it was given do not change what it has
found: every outcome stays the same, unless the reader has run out of bytes. Stable
readers give the same answers in a longer byte string, with the additional bytes unread.

Main facts: the primitive reads are stable except the one of all that is left, chains of
stable reads are stable, and so is any read that is confined to a given number of bytes.
-/

namespace CallFrame

namespace Fault

/-- The fault is a read that ran out of bytes. -/
def IsOutOfBytes : Fault → Prop
  | .outOfBytes .. => True
  | _ => False

instance : (fault : Fault) → Decidable fault.IsOutOfBytes
  | .outOfBytes .. => inferInstanceAs (Decidable True)
  | .numberTooWide | .wideFormat _ | .entryTooShort .. | .descriptionTooShort ..
  | .notCommonEntry _ | .unsupportedVersion _ | .unsupportedAugmentation _
  | .unsupportedInstruction _ | .unsupportedOperation _ | .stackUnderflow ..
  | .unbalancedExpression _ | .uncovered _ | .noLocation | .locationOverflow _
  | .tooManyRecords _ => inferInstanceAs (Decidable False)

end Fault

namespace Reader

variable {α β : Type}

/-- The outcome is not that the bytes have run out. -/
def Final : Except Fault α → Prop
  | .ok _ => True
  | .error fault => ¬ fault.IsOutOfBytes

/-- More bytes behind those that are read do not change a final outcome. -/
def Stable (reader : Reader α) : Prop :=
  ∀ bytes more, Final (reader.result bytes) →
    reader.run (bytes ++ more) =
      (reader.result bytes, (reader.run bytes).2 ++ more)

theorem Stable.run_append
    {reader : Reader α} (h : reader.Stable) {bytes rest : Bytes}
    {outcome : Except Fault α} (hrun : reader.run bytes = (outcome, rest))
    (hfinal : Final outcome) (more : Bytes) :
    reader.run (bytes ++ more) = (outcome, rest ++ more) := by
  have := h bytes more (by rw [result, hrun]; exact hfinal)
  rw [this, result, hrun]

theorem stable_ofExcept
    (outcome : Except Fault α) :
    (ofExcept outcome).Stable :=
  fun _ _ _ => rfl

theorem stable_pure
    (a : α) :
    (pure a : Reader α).Stable :=
  stable_ofExcept (.ok a)

theorem stable_fail
    (fault : Fault) :
    (fail fault : Reader α).Stable :=
  stable_ofExcept (.error fault)

theorem Stable.bind
    {first : Reader α} {next : α → Reader β} (hfirst : first.Stable)
    (hnext : ∀ a, (next a).Stable) :
    (first >>= next).Stable := by
  intro bytes more hfinal
  rcases h : first.run bytes with ⟨outcome, rest⟩
  cases outcome with
  | ok a =>
      have hbind := run_bind_ok h next
      rw [result, hbind] at hfinal
      rw [result, hbind, run_bind_ok (hfirst.run_append h True.intro more)]
      exact hnext a rest more hfinal
  | error fault =>
      have hbind := run_bind_error h next
      rw [result, hbind] at hfinal
      rw [result, hbind]
      exact run_bind_error (hfirst.run_append h hfinal more) next

theorem Stable.ite
    {p : Prop} [Decidable p] {first second : Reader α}
    (hfirst : first.Stable) (hsecond : second.Stable) :
    (if p then first else second).Stable := by
  split
  · exact hfirst
  · exact hsecond

theorem stable_u8 : u8.Stable := by
  intro bytes more hfinal
  cases bytes with
  | nil =>
      exact absurd True.intro hfinal
  | cons byte rest =>
      rfl

theorem stable_take
    (count : Nat) :
    (take count).Stable := by
  intro bytes more hfinal
  by_cases h : count ≤ bytes.length
  · have hmore : count ≤ (bytes ++ more).length := by
      rw [List.length_append]
      omega
    rw [result, run_take_of_le h, run_take_of_le hmore, List.take_append_of_le_length h,
      List.drop_append_of_le_length h]
  · rw [result, run_take_of_lt (Nat.not_le.mp h)] at hfinal
    exact absurd True.intro hfinal

theorem stable_skip
    (count : Nat) :
    (skip count).Stable :=
  (stable_take count).bind fun _ => stable_pure ()

theorem stable_field
    (order : ByteOrder) (width : Nat) :
    (field order width).Stable :=
  (stable_take width).bind fun _ => stable_pure _

theorem stable_i8 : i8.Stable :=
  stable_u8.bind fun _ => stable_pure _

theorem stable_u16
    (order : ByteOrder) :
    (u16 order).Stable :=
  (stable_field order 2).bind fun _ => stable_pure _

theorem stable_i16
    (order : ByteOrder) :
    (i16 order).Stable :=
  (stable_u16 order).bind fun _ => stable_pure _

theorem stable_u32
    (order : ByteOrder) :
    (u32 order).Stable :=
  (stable_field order 4).bind fun _ => stable_pure _

theorem stable_inside
    (count : Nat) (reader : Reader α) :
    (inside count reader).Stable :=
  (stable_take count).bind fun _ => stable_ofExcept _

end Reader

end CallFrame
