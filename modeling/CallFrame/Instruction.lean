import CallFrame.Bytecode
import CallFrame.Leb128.Canonical
import CallFrame.Reader.Field

/-!
# Call frame instructions

The instructions of a call frame table that this library can decode. Two of them keep an
operand in the low six bits of the opcode itself; all other opcodes stand for themselves.

Main facts:

* every opcode that none of the instructions has is refused before an operand is read;
* an encoded instruction is read back, whatever follows it.
-/

namespace CallFrame

/-- An instruction of a call frame table. -/
inductive Instruction where
  /-- No effect; fills an entry up to its length. -/
  | nop
  /-- Opens a row, the delta in the opcode. -/
  | advance (delta : Fin 64)
  /-- Opens a row, the delta in one byte. -/
  | advanceByte (delta : Int8)
  /-- Opens a row, the delta in two bytes. -/
  | advanceHalf (delta : Int16)
  /-- Sets the register and the offset that the frame address is computed from. -/
  | defineCfa (register offset : UInt64)
  /-- Sets the offset alone, in units of the data alignment factor. -/
  | defineCfaOffset (factored : Int64)
  /-- Says where a register is saved, in units of the data alignment factor. -/
  | saved (register : Fin 64) (factored : Int64)
  deriving DecidableEq

namespace Instruction

/-- The low six bits of an opcode. -/
def lowBits (opcode : UInt8) : Fin 64 :=
  ⟨opcode.toNat % 64, Nat.mod_lt _ (by decide)⟩

/-- The operation code of an instruction. -/
def opcode : Instruction → UInt8
  | .nop => 0x00
  | .advance delta => 0x40 + UInt8.ofNat delta
  | .advanceByte _ => 0x02
  | .advanceHalf _ => 0x03
  | .defineCfa .. => 0x0c
  | .defineCfaOffset _ => 0x13
  | .saved register _ => 0x80 + UInt8.ofNat register

/-- The operand that the opcode holds in its low six bits, zero if it holds none. -/
def lowOperand : Instruction → Nat
  | .advance delta => delta
  | .saved register _ => register
  | _ => 0

/-- Reads the operands that follow an opcode. -/
def operands (order : ByteOrder) (opcode : UInt8) : Reader Instruction :=
  match opcode.toNat / 64 with
  | 1 => return .advance (lowBits opcode)
  | 2 => return .saved (lowBits opcode) (← Leb128.signed)
  | 0 =>
    match opcode with
    | 0x00 => return .nop
    | 0x02 => return .advanceByte (← Reader.i8)
    | 0x03 => return .advanceHalf (← Reader.i16 order)
    | 0x0c => do
      let register ← Leb128.unsigned
      let offset ← Leb128.unsigned
      return .defineCfa register offset
    | 0x13 => return .defineCfaOffset (← Leb128.signed)
    | _ => .fail (.unsupportedInstruction opcode)
  | _ => .fail (.unsupportedInstruction opcode)

/-- Reads one instruction. -/
def reader (order : ByteOrder) : Reader Instruction :=
  Bytecode.operation (operands order)

/-- The steps of a sequence of instructions. -/
def steps (order : ByteOrder) (bytes : Bytes) : List (Step Instruction) :=
  Bytecode.steps (operands order) bytes

/-- The opcodes that one of the instructions has. -/
def HasInstruction (opcode : UInt8) : Prop :=
  opcode.toNat / 64 = 1 ∨ opcode.toNat / 64 = 2 ∨
    opcode ∈ [0x00, 0x02, 0x03, 0x0c, 0x13]

instance (opcode : UInt8) : Decidable (HasInstruction opcode) :=
  inferInstanceAs (Decidable (_ ∨ _ ∨ _))

/-- The bytes of the operands behind the opcode. -/
def encodeOperands (order : ByteOrder) : Instruction → Bytes
  | .nop | .advance _ => []
  | .advanceByte delta => [delta.toUInt8]
  | .advanceHalf delta => order.digits 2 delta.toUInt16.toNat
  | .defineCfa register offset =>
    Leb128.encodeUnsigned register ++ Leb128.encodeUnsigned offset
  | .defineCfaOffset factored | .saved _ factored => Leb128.encodeSigned factored

/-- The bytes of an instruction, numbers of variable width in their canonical form. -/
def encode (order : ByteOrder) (instruction : Instruction) : Bytes :=
  instruction.opcode :: instruction.encodeOperands order

/-- Any other opcode is refused before an operand is read. -/
theorem operands_of_not_hasInstruction
    {order : ByteOrder} {opcode : UInt8}
    (h : ¬ HasInstruction opcode) :
    operands order opcode = .fail (.unsupportedInstruction opcode) := by
  simp only [HasInstruction, List.mem_cons, List.not_mem_nil, or_false, not_or] at h
  obtain ⟨hone, htwo, hnop, hbyte, hhalf, hcfa, hoffset⟩ := h
  unfold operands
  split
  · contradiction
  · contradiction
  · split <;> first | contradiction | rfl
  · rfl

theorem operands_of_one
    {order : ByteOrder} {opcode : UInt8}
    (h : opcode.toNat / 64 = 1) :
    operands order opcode = pure (.advance (lowBits opcode)) := by
  unfold operands
  simp only [h]

theorem operands_of_two
    {order : ByteOrder} {opcode : UInt8}
    (h : opcode.toNat / 64 = 2) :
    operands order opcode =
      Leb128.signed >>= fun factored => pure (.saved (lowBits opcode) factored) := by
  unfold operands
  simp only [h]

theorem stable_operands
    (order : ByteOrder) (opcode : UInt8) :
    (operands order opcode).Stable := by
  unfold operands
  split
  · exact Reader.stable_pure _
  · exact Leb128.stable_signed.bind fun _ => Reader.stable_pure _
  · split
    · exact Reader.stable_pure _
    · exact Reader.stable_i8.bind fun _ => Reader.stable_pure _
    · exact (Reader.stable_i16 order).bind fun _ => Reader.stable_pure _
    · exact Leb128.stable_unsigned.bind fun _ =>
        Leb128.stable_unsigned.bind fun _ => Reader.stable_pure _
    · exact Leb128.stable_signed.bind fun _ => Reader.stable_pure _
    · exact Reader.stable_fail _
  · exact Reader.stable_fail _

theorem operands_advanceByte
    (order : ByteOrder) :
    operands order 0x02 = Reader.i8 >>= fun delta => pure (.advanceByte delta) := rfl

theorem operands_advanceHalf
    (order : ByteOrder) :
    operands order 0x03 = Reader.i16 order >>= fun delta => pure (.advanceHalf delta) := rfl

theorem operands_defineCfa
    (order : ByteOrder) :
    operands order 0x0c =
      Leb128.unsigned >>= fun register =>
        Leb128.unsigned >>= fun offset => pure (.defineCfa register offset) := rfl

theorem operands_defineCfaOffset
    (order : ByteOrder) :
    operands order 0x13 = Leb128.signed >>= fun factored => pure (.defineCfaOffset factored) := rfl

/-- An opcode with an operand in its low six bits holds both parts. -/
theorem opcode_advance
    (delta : Fin 64) :
    (advance delta).opcode.toNat / 64 = 1 ∧ lowBits (advance delta).opcode = delta := by
  revert delta
  decide

theorem opcode_saved
    (register : Fin 64) (factored : Int64) :
    (saved register factored).opcode.toNat / 64 = 2 ∧
      lowBits (saved register factored).opcode = register := by
  revert register
  change ∀ register : Fin 64, (0x80 + UInt8.ofNat register).toNat / 64 = 2 ∧
    lowBits (0x80 + UInt8.ofNat register) = register
  decide

/-- An encoded instruction is read back, whatever follows it. -/
theorem decodes_encode
    (order : ByteOrder) (instruction : Instruction) :
    Bytecode.Decodes (operands order) (encode order) instruction := by
  cases instruction with
  | nop =>
      exact ⟨0x00, [], rfl, fun more => rfl⟩
  | advance delta =>
      refine ⟨_, [], rfl, fun more => ?_⟩
      rw [operands_of_one (opcode_advance delta).1, (opcode_advance delta).2]
      rfl
  | advanceByte delta =>
      refine ⟨0x02, [delta.toUInt8], rfl, fun more => ?_⟩
      have h : Reader.i8.run ([delta.toUInt8] ++ more) = (.ok delta, more) := by
        rw [Reader.i8, List.singleton_append, Reader.run_bind_ok (Reader.run_u8_cons _ _),
          Int8.toInt8_toUInt8]
        rfl
      rw [operands_advanceByte, Reader.run_bind_ok h]
      rfl
  | advanceHalf delta =>
      refine ⟨0x03, order.digits 2 delta.toUInt16.toNat, rfl, fun more => ?_⟩
      have h : (Reader.i16 order).run (order.digits 2 delta.toUInt16.toNat ++ more) =
          (.ok delta, more) := by
        rw [Reader.i16, Reader.run_bind_ok (Reader.run_u16_eq_ok_iff.mpr rfl),
          Int16.toInt16_toUInt16]
        rfl
      rw [operands_advanceHalf, Reader.run_bind_ok h]
      rfl
  | defineCfa register offset =>
      refine ⟨0x0c, Leb128.encodeUnsigned register ++ Leb128.encodeUnsigned offset, rfl,
        fun more => ?_⟩
      rw [operands_defineCfa, List.append_assoc,
        Reader.run_bind_ok (Leb128.run_unsigned_encodeUnsigned register _),
        Reader.run_bind_ok (Leb128.run_unsigned_encodeUnsigned offset _)]
      rfl
  | defineCfaOffset factored =>
      refine ⟨0x13, Leb128.encodeSigned factored, rfl, fun more => ?_⟩
      rw [operands_defineCfaOffset,
        Reader.run_bind_ok (Leb128.run_signed_encodeSigned factored more)]
      rfl
  | saved register factored =>
      refine ⟨_, Leb128.encodeSigned factored, rfl, fun more => ?_⟩
      rw [operands_of_two (opcode_saved register factored).1, (opcode_saved register factored).2,
        Reader.run_bind_ok (Leb128.run_signed_encodeSigned factored more)]
      rfl

/-- The steps of an encoded sequence of instructions are these instructions. -/
theorem steps_encode
    (order : ByteOrder) (instructions : List Instruction) :
    (steps order (instructions.flatMap (encode order))).map Step.content =
      instructions.map Except.ok := by
  obtain ⟨front, hfront, hsteps⟩ :=
    Bytecode.steps_flatMap_append (fun a (_ : a ∈ instructions) => decodes_encode order a) []
  rw [List.append_nil, Bytecode.steps_nil, List.append_nil] at hsteps
  rw [steps, hsteps, hfront]

end Instruction

end CallFrame
