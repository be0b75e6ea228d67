import CallFrame.Reader.Stable

/-!
# Programs of operation codes

Call frame instructions and location expressions are programs in the same style: each
step is one byte that names the operation, followed by the operands it needs.

`Bytecode.steps` cuts a program into its steps. A step whose operands cannot be read is
the last one, since nothing after it can be told apart. Whoever runs a program goes
through this list, and meets such a step only after having run all the steps before it.

Main facts:

* the steps of an encoded program are the operations that were encoded;
* the steps of a program whose operands can all be read do not depend on what is behind it.
-/

namespace CallFrame

/-- One step of a program: its operation code, and what the bytes after it mean. -/
structure Step (α : Type) where
  /-- The byte that names the operation. -/
  opcode : UInt8
  /-- The operation with its operands, or why these cannot be read. -/
  content : Except Fault α

namespace Bytecode

variable {α : Type}

/-- Reads one operation: its code, then its operands. -/
def operation (operands : UInt8 → Reader α) : Reader α := do
  operands (← Reader.u8)

/-- The steps of a program, up to the first whose operands cannot be read. -/
def steps (operands : UInt8 → Reader α) : Bytes → List (Step α)
  | [] => []
  | opcode :: bytes =>
    match _h : (operands opcode).run bytes with
    | (.ok a, rest) => ⟨opcode, .ok a⟩ :: steps operands rest
    | (.error fault, _) => [⟨opcode, .error fault⟩]
termination_by bytes => bytes.length
decreasing_by
  have hle := (operands opcode).length_run_le bytes
  rw [_h] at hle
  exact Nat.lt_succ_of_le hle

variable {operands : UInt8 → Reader α}

@[simp] theorem steps_nil : steps operands [] = [] := by
  rw [steps]

theorem steps_cons_ok
    {opcode : UInt8} {bytes rest : Bytes} {a : α}
    (h : (operands opcode).run bytes = (.ok a, rest)) :
    steps operands (opcode :: bytes) = ⟨opcode, .ok a⟩ :: steps operands rest := by
  rw [steps]
  split
  · simp_all
  · simp_all

theorem steps_cons_error
    {opcode : UInt8} {bytes rest : Bytes} {fault : Fault}
    (h : (operands opcode).run bytes = (.error fault, rest)) :
    steps operands (opcode :: bytes) = [⟨opcode, .error fault⟩] := by
  rw [steps]
  split
  · simp_all
  · simp_all

/-- The first step has the operation code that the program begins with, also if its operands
cannot be read. -/
theorem map_opcode_head?_steps
    (operands : UInt8 → Reader α) (bytes : Bytes) :
    (steps operands bytes).head?.map Step.opcode = bytes.head? := by
  cases bytes with
  | nil =>
      rw [steps_nil]
      rfl
  | cons opcode bytes =>
      rcases hrun : (operands opcode).run bytes with ⟨fault | a, rest⟩
      · rw [steps_cons_error hrun]
        rfl
      · rw [steps_cons_ok hrun]
        rfl

/-- The steps of a program whose operands can all be read, with another one behind it. -/
theorem steps_append
    {bytes : Bytes} (hstable : ∀ opcode, (operands opcode).Stable)
    (hok : ∀ step ∈ steps operands bytes, ∃ a, step.content = .ok a) (more : Bytes) :
    steps operands (bytes ++ more) = steps operands bytes ++ steps operands more := by
  fun_induction steps operands bytes with
  | case1 =>
      rfl
  | case2 opcode bytes a rest hrun ih =>
      have hmore := (hstable opcode).run_append hrun True.intro more
      rw [List.cons_append, steps_cons_ok hmore,
        ih fun step hstep => hok step (List.mem_cons_of_mem _ hstep)]
      rfl
  | case3 opcode bytes fault rest hrun =>
      obtain ⟨a, ha⟩ := hok _ List.mem_cons_self
      cases ha

/-- An encoding that is read back, whatever follows it: one byte for the operation, then
its operands. -/
def Decodes (operands : UInt8 → Reader α) (encode : α → Bytes) (a : α) : Prop :=
  ∃ opcode rest, encode a = opcode :: rest ∧
    ∀ more, (operands opcode).run (rest ++ more) = (.ok a, more)

/-- Encoded operations in front of a program are its first steps. -/
theorem steps_flatMap_append
    {encode : α → Bytes} {program : List α}
    (h : ∀ a ∈ program, Decodes operands encode a)
    (more : Bytes) :
    ∃ front : List (Step α),
      front.map Step.content = program.map Except.ok ∧
      steps operands (program.flatMap encode ++ more) = front ++ steps operands more := by
  induction program with
  | nil =>
      exact ⟨[], rfl, rfl⟩
  | cons a program ih =>
      obtain ⟨opcode, rest, hencode, hread⟩ := h a List.mem_cons_self
      obtain ⟨front, hfront, hsteps⟩ := ih fun b hb => h b (List.mem_cons_of_mem a hb)
      refine ⟨⟨opcode, .ok a⟩ :: front, by simp [hfront], ?_⟩
      have := hread (program.flatMap encode ++ more)
      simp only [List.flatMap_cons, hencode, List.cons_append, List.append_assoc]
      rw [steps_cons_ok this, hsteps]

end Bytecode

end CallFrame
