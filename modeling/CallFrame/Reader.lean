import CallFrame.Bytes
import CallFrame.Fault

/-!
# Readers

A reader takes some bytes off the front of a byte string and makes a value of them,
or fails. Either way it says which bytes are left unread: a failed read has an end
position too, and the next read goes on from there.

What is left is always a final part of what was there, so a chain of reads can only
move forward. This is part of the type, and every loop over a byte string in this
library ends because of it.

Main facts:

* `take` and the fixed-width reads either consume all their bytes or none;
* a chain of reads ends at the first failure, at the place where that read stopped.
-/

namespace CallFrame

/-- A read: what it makes of a byte string, and the bytes it leaves unread. -/
structure Reader (α : Type) where
  /-- The outcome of the read, and the unread bytes. -/
  run : Bytes → Except Fault α × Bytes
  /-- Reading only moves forward. -/
  run_suffix : ∀ bytes, (run bytes).2 <:+ bytes

namespace Reader

variable {α β : Type}

@[ext] theorem ext
    {first second : Reader α}
    (h : ∀ bytes, first.run bytes = second.run bytes) :
    first = second := by
  obtain ⟨_, _⟩ := first
  obtain ⟨_, _⟩ := second
  congr
  exact funext h

/-- The outcome of a read alone. -/
def result (reader : Reader α) (bytes : Bytes) : Except Fault α :=
  (reader.run bytes).1

theorem result_eq_ok_iff
    {reader : Reader α} {bytes : Bytes} {a : α} :
    reader.result bytes = .ok a ↔ ∃ rest, reader.run bytes = (.ok a, rest) := by
  constructor
  · intro h
    exact ⟨(reader.run bytes).2, Prod.ext h rfl⟩
  · rintro ⟨rest, h⟩
    rw [result, h]

theorem length_run_le
    (reader : Reader α) (bytes : Bytes) :
    (reader.run bytes).2.length ≤ bytes.length :=
  (reader.run_suffix bytes).length_le

/-- Reads nothing and has the given outcome. -/
def ofExcept (outcome : Except Fault α) : Reader α where
  run bytes := (outcome, bytes)
  run_suffix bytes := List.suffix_refl bytes

/-- Reads nothing and fails. -/
def fail (fault : Fault) : Reader α :=
  ofExcept (.error fault)

/-- One read after the other; a failure of the first is final. -/
def andThen (first : Reader α) (next : α → Reader β) : Reader β where
  run bytes :=
    match first.run bytes with
    | (.ok a, rest) => (next a).run rest
    | (.error fault, rest) => (.error fault, rest)
  run_suffix bytes := by
    have hfirst := first.run_suffix bytes
    rcases h : first.run bytes with ⟨outcome, rest⟩
    rw [h] at hfirst
    cases outcome with
    | ok a =>
        exact ((next a).run_suffix rest).trans hfirst
    | error fault =>
        exact hfirst

instance : Monad Reader where
  pure a := ofExcept (.ok a)
  bind := andThen

@[simp] theorem run_ofExcept
    (outcome : Except Fault α) (bytes : Bytes) :
    (ofExcept outcome).run bytes = (outcome, bytes) := rfl

@[simp] theorem run_fail
    (fault : Fault) (bytes : Bytes) :
    (fail fault : Reader α).run bytes = (.error fault, bytes) := rfl

@[simp] theorem run_pure
    (a : α) (bytes : Bytes) :
    (pure a : Reader α).run bytes = (.ok a, bytes) := rfl

theorem run_bind
    (first : Reader α) (next : α → Reader β) (bytes : Bytes) :
    (first >>= next).run bytes =
      match first.run bytes with
      | (.ok a, rest) => (next a).run rest
      | (.error fault, rest) => (.error fault, rest) := rfl

theorem run_bind_ok
    {first : Reader α} {bytes rest : Bytes} {a : α}
    (h : first.run bytes = (.ok a, rest)) (next : α → Reader β) :
    (first >>= next).run bytes = (next a).run rest := by
  rw [run_bind, h]

theorem run_bind_error
    {first : Reader α} {bytes rest : Bytes} {fault : Fault}
    (h : first.run bytes = (.error fault, rest)) (next : α → Reader β) :
    (first >>= next).run bytes = (.error fault, rest) := by
  rw [run_bind, h]

instance : LawfulMonad Reader :=
  LawfulMonad.mk' Reader
    (fun reader => by
      ext bytes : 1
      change (reader >>= fun a => pure a).run bytes = reader.run bytes
      rw [run_bind]
      rcases reader.run bytes with ⟨_ | _, _⟩ <;> rfl)
    (fun _ _ => rfl)
    (fun first _ _ => by
      ext bytes : 1
      simp only [run_bind]
      rcases first.run bytes with ⟨_ | _, _⟩ <;> rfl)

/-- A chain of two reads succeeds when both do, the second from where the first ended. -/
theorem run_bind_eq_ok_iff
    {first : Reader α} {next : α → Reader β}
    {bytes rest : Bytes} {b : β} :
    (first >>= next).run bytes = (.ok b, rest) ↔
      ∃ a middle, first.run bytes = (.ok a, middle) ∧
        (next a).run middle = (.ok b, rest) := by
  rw [run_bind]
  rcases first.run bytes with ⟨fault | a, middle⟩
  · simp
  · constructor
    · intro h
      exact ⟨a, middle, rfl, h⟩
    · rintro ⟨_, _, heq, h⟩
      cases heq
      exact h

/-- Reads the next byte. -/
def u8 : Reader UInt8 where
  run
    | [] => (.error (.outOfBytes 1 0), [])
    | byte :: rest => (.ok byte, rest)
  run_suffix
    | [] => List.suffix_refl []
    | byte :: rest => List.suffix_cons byte rest

@[simp] theorem run_u8_cons
    (byte : UInt8) (rest : Bytes) :
    u8.run (byte :: rest) = (.ok byte, rest) := rfl

/-- Reads the next `count` bytes: all of them or none. -/
def take (count : Nat) : Reader Bytes where
  run bytes :=
    if count ≤ bytes.length then (.ok (bytes.take count), bytes.drop count)
    else (.error (.outOfBytes count bytes.length), bytes)
  run_suffix bytes := by
    by_cases h : count ≤ bytes.length
    · simpa [h] using List.drop_suffix count bytes
    · simp [h]

theorem run_take_of_le
    {count : Nat} {bytes : Bytes} (h : count ≤ bytes.length) :
    (take count).run bytes = (.ok (bytes.take count), bytes.drop count) := by
  simp [take, h]

theorem run_take_of_lt
    {count : Nat} {bytes : Bytes} (h : bytes.length < count) :
    (take count).run bytes = (.error (.outOfBytes count bytes.length), bytes) := by
  simp [take, Nat.not_le.mpr h]

/-- Taking exactly the bytes in front leaves what follows them. -/
theorem run_take_append
    {front : Bytes} {count : Nat} (h : front.length = count)
    (rest : Bytes) :
    (take count).run (front ++ rest) = (.ok front, rest) := by
  subst h
  simp [take]

/-- Taking succeeds on the byte strings that begin with what is taken. -/
theorem run_take_eq_ok_iff
    {count : Nat} {bytes front rest : Bytes} :
    (take count).run bytes = (.ok front, rest) ↔
      front.length = count ∧ bytes = front ++ rest := by
  constructor
  · intro h
    by_cases hcount : count ≤ bytes.length
    · rw [run_take_of_le hcount] at h
      simp only [Prod.mk.injEq, Except.ok.injEq] at h
      obtain ⟨rfl, rfl⟩ := h
      exact ⟨List.length_take_of_le hcount, (List.take_append_drop count bytes).symm⟩
    · rw [run_take_of_lt (Nat.not_le.mp hcount)] at h
      simp at h
  · rintro ⟨hfront, rfl⟩
    exact run_take_append hfront rest

/-- Passes over the next `count` bytes: all of them or none. -/
def skip (count : Nat) : Reader Unit := do
  let _ ← take count

/-- Reads all that is left. -/
def remainder : Reader Bytes where
  run bytes := (.ok bytes, [])
  run_suffix _ := List.nil_suffix

@[simp] theorem run_remainder
    (bytes : Bytes) :
    remainder.run bytes = (.ok bytes, []) := rfl

/-- Reads `count` bytes and applies a reader to them alone. Whatever that reader leaves
unread is passed over. -/
def inside (count : Nat) (reader : Reader α) : Reader α := do
  let body ← take count
  ofExcept (reader.result body)

end Reader

end CallFrame
