import CallFrame.Bytecode
import CallFrame.Leb128.Canonical

/-!
# Location expressions

A location expression is a program for a machine with a stack of 64-bit values. Its
operations push a value or replace the two topmost ones by their sum, and the one value
that is left at the end is the address of the variable.

Understood is what describes a variable at a fixed distance from the canonical frame
address: that address, constants and sums. Everything else ends the evaluation.

Main facts:

* every opcode that none of the operations has is refused;
* an encoded operation is read back, whatever follows it.
-/

namespace CallFrame

/-- An operation of a location expression. -/
inductive Operation where
  /-- Pushes a constant. -/
  | const (n : Int64)
  /-- Replaces the two topmost values by their sum. -/
  | plus
  /-- Pushes the canonical frame address. -/
  | frameAddress
  deriving DecidableEq

namespace Operation

/-- The operation code. -/
def opcode : Operation → UInt8
  | .const _ => 0x11
  | .plus => 0x22
  | .frameAddress => 0x9c

/-- Reads the operands that follow an opcode. -/
def operands : UInt8 → Reader Operation
  | 0x11 => return .const (← Leb128.signed)
  | 0x22 => return .plus
  | 0x9c => return .frameAddress
  | opcode => .fail (.unsupportedOperation opcode)

/-- Reads one operation. -/
def reader : Reader Operation :=
  Bytecode.operation operands

/-- The bytes of an operation, its number in the canonical form. -/
def encode : Operation → Bytes
  | .const n => 0x11 :: Leb128.encodeSigned n
  | .plus => [0x22]
  | .frameAddress => [0x9c]

/-- Any other opcode is refused before an operand is read. -/
theorem operands_of_not_mem
    {opcode : UInt8} (h : opcode ∉ [0x11, 0x22, 0x9c]) :
    operands opcode = .fail (.unsupportedOperation opcode) := by
  simp only [List.mem_cons, List.not_mem_nil, or_false, not_or] at h
  obtain ⟨hconst, hplus, haddress⟩ := h
  unfold operands
  split <;> first | contradiction | rfl

theorem operands_const :
    operands 0x11 = Leb128.signed >>= fun n => pure (.const n) := rfl

/-- An encoded operation is read back, whatever follows it. -/
theorem decodes_encode
    (operation : Operation) :
    Bytecode.Decodes operands encode operation := by
  cases operation with
  | const n =>
      refine ⟨0x11, Leb128.encodeSigned n, rfl, fun more => ?_⟩
      rw [operands_const, Reader.run_bind_ok (Leb128.run_signed_encodeSigned n more)]
      rfl
  | plus =>
      exact ⟨0x22, [], rfl, fun more => rfl⟩
  | frameAddress =>
      exact ⟨0x9c, [], rfl, fun more => rfl⟩

/-- The stack after an operation, topmost value first. Sums wrap around. -/
def apply (cfa : UInt64) (stack : List Int64) : Operation → Except Fault (List Int64)
  | .const n => .ok (n :: stack)
  | .frameAddress => .ok (cfa.toInt64 :: stack)
  | .plus =>
    match stack with
    | top :: below :: rest => .ok ((below + top) :: rest)
    | _ => .error (.stackUnderflow 2 stack.length)

end Operation

namespace Expression

/-- The steps of an expression. -/
def steps (expression : Bytes) : List (Step Operation) :=
  Bytecode.steps Operation.operands expression

/-- The stack after all steps, or the first fault. -/
def run (cfa : UInt64) : List Int64 → List (Step Operation) → Except Fault (List Int64)
  | stack, [] => .ok stack
  | stack, step :: rest => do
    let operation ← step.content
    let stack ← operation.apply cfa stack
    run cfa stack rest

/-- The value of an expression whose last stack is given: its only entry. -/
def answer : List Int64 → Except Fault UInt64
  | [value] => .ok value.toUInt64
  | stack => .error (.unbalancedExpression stack.length)

/-- The address an expression computes in the frame with the given canonical frame
address. -/
def evaluate (expression : Bytes) (cfa : UInt64) : Except Fault UInt64 := do
  answer (← run cfa [] (steps expression))

/-- The steps of an encoded expression are its operations. -/
theorem steps_encode
    (operations : List Operation) :
    (steps (operations.flatMap Operation.encode)).map Step.content =
      operations.map Except.ok := by
  obtain ⟨front, hfront, hsteps⟩ :=
    Bytecode.steps_flatMap_append
      (fun a (_ : a ∈ operations) => Operation.decodes_encode a) []
  rw [List.append_nil, Bytecode.steps_nil, List.append_nil] at hsteps
  rw [steps, hsteps, hfront]

end Expression

end CallFrame
