import CallFrame.Expression
import CallFrame.Instruction
import CallFrame.Transcript

/-!
# Streams of operations

Nothing separates the operations of a program from each other. Each one ends where its last
operand ends, and the next one begins there. So a program can only be read because every
operation says by itself where it ends: what has been read stays what it is, whatever stands
behind it.

Call frame instructions and location operations are both of this kind. A program that was
written is read back operation by operation, with nothing left. An operation that was read
names the operation code that it was read from, and its own encoding is read as the same
operation again. The operation codes that no operation has are refused where they stand.
-/

namespace CallFrame

namespace Reader

variable {α β : Type}

/-- A successful read finds the same in the bytes that it consumed, whatever stands behind
them. -/
def SelfDelimiting (reader : Reader α) : Prop :=
  ∀ bytes a rest, reader.run bytes = (.ok a, rest) →
    ∃ used, bytes = used ++ rest ∧ ∀ more, reader.run (used ++ more) = (.ok a, more)

theorem selfDelimiting_pure
    (a : α) :
    (pure a : Reader α).SelfDelimiting := by
  intro bytes b rest hrun
  cases hrun
  exact ⟨[], rfl, fun _ => rfl⟩

theorem selfDelimiting_fail
    (fault : Fault) :
    (fail fault : Reader α).SelfDelimiting :=
  fun _ _ _ hrun => nomatch hrun

theorem SelfDelimiting.bind
    {first : Reader α} {next : α → Reader β} (hfirst : first.SelfDelimiting)
    (hnext : ∀ a, (next a).SelfDelimiting) :
    (first >>= next).SelfDelimiting := by
  intro bytes b rest hrun
  obtain ⟨a, middle, hrun, hbehind⟩ := run_bind_eq_ok_iff.mp hrun
  obtain ⟨front, rfl, hfront⟩ := hfirst bytes a middle hrun
  obtain ⟨back, rfl, hback⟩ := hnext a middle b rest hbehind
  refine ⟨front ++ back, (List.append_assoc front back rest).symm, fun more => ?_⟩
  rw [List.append_assoc, run_bind_ok (hfront (back ++ more)), hback]

theorem selfDelimiting_u8 :
    u8.SelfDelimiting := by
  intro bytes a rest hrun
  cases bytes with
  | nil =>
      cases hrun
  | cons byte bytes =>
      cases hrun
      exact ⟨[a], rfl, fun _ => rfl⟩

theorem selfDelimiting_take
    (count : Nat) :
    (take count).SelfDelimiting := by
  intro bytes a rest hrun
  obtain ⟨hlength, rfl⟩ := run_take_eq_ok_iff.mp hrun
  exact ⟨a, rfl, run_take_append hlength⟩

theorem selfDelimiting_i8 :
    i8.SelfDelimiting :=
  selfDelimiting_u8.bind fun _ => selfDelimiting_pure _

theorem selfDelimiting_field
    (order : ByteOrder) (width : Nat) :
    (field order width).SelfDelimiting :=
  (selfDelimiting_take width).bind fun _ => selfDelimiting_pure _

theorem selfDelimiting_i16
    (order : ByteOrder) :
    (i16 order).SelfDelimiting :=
  ((selfDelimiting_field order 2).bind fun _ => selfDelimiting_pure _).bind fun _ =>
    selfDelimiting_pure _

end Reader

namespace Leb128

theorem selfDelimiting_unsigned :
    unsigned.SelfDelimiting := by
  intro bytes n rest hrun
  obtain ⟨groups, hcomplete, hlength, rfl, hvalue⟩ := run_unsigned_eq_ok_iff.mp hrun
  exact ⟨groups, rfl, fun _ =>
    run_unsigned_eq_ok_iff.mpr ⟨groups, hcomplete, hlength, rfl, hvalue⟩⟩

theorem selfDelimiting_signed :
    signed.SelfDelimiting := by
  intro bytes n rest hrun
  obtain ⟨groups, hcomplete, hlength, rfl, hvalue⟩ := run_signed_eq_ok_iff.mp hrun
  exact ⟨groups, rfl, fun _ =>
    run_signed_eq_ok_iff.mpr ⟨groups, hcomplete, hlength, rfl, hvalue⟩⟩

end Leb128

namespace Instruction

theorem selfDelimiting_operands
    (order : ByteOrder) (code : UInt8) :
    (operands order code).SelfDelimiting := by
  unfold operands
  split
  · exact Reader.selfDelimiting_pure _
  · exact Leb128.selfDelimiting_signed.bind fun _ => Reader.selfDelimiting_pure _
  · split
    · exact Reader.selfDelimiting_pure _
    · exact Reader.selfDelimiting_i8.bind fun _ => Reader.selfDelimiting_pure _
    · exact (Reader.selfDelimiting_i16 order).bind fun _ => Reader.selfDelimiting_pure _
    · exact Leb128.selfDelimiting_unsigned.bind fun _ =>
        Leb128.selfDelimiting_unsigned.bind fun _ => Reader.selfDelimiting_pure _
    · exact Leb128.selfDelimiting_signed.bind fun _ => Reader.selfDelimiting_pure _
    · exact Reader.selfDelimiting_fail _
  · exact Reader.selfDelimiting_fail _

theorem lowOperand_lt
    (instruction : Instruction) :
    instruction.lowOperand < 64 := by
  cases instruction with
  | advance delta =>
      exact delta.isLt
  | saved register factored =>
      exact register.isLt
  | _ =>
      exact Nat.zero_lt_succ 63

theorem opcode_advance_lowBits
    {code : UInt8} (h : code.toNat / 64 = 1) :
    (advance (lowBits code)).opcode = code := by
  apply UInt8.toNat_inj.mp
  simp only [opcode, lowBits, UInt8.toNat_add, UInt8.toNat_ofNat']
  change (64 + _) % 256 = _
  omega

theorem opcode_saved_lowBits
    {code : UInt8} (h : code.toNat / 64 = 2) (factored : Int64) :
    (saved (lowBits code) factored).opcode = code := by
  apply UInt8.toNat_inj.mp
  simp only [opcode, lowBits, UInt8.toNat_add, UInt8.toNat_ofNat']
  change (128 + _) % 256 = _
  omega

/-- What is read behind an operation code is an instruction with this code. -/
theorem opcode_of_run_operands
    {order : ByteOrder} {code : UInt8} {bytes rest : Bytes} {instruction : Instruction}
    (h : (operands order code).run bytes = (.ok instruction, rest)) :
    instruction.opcode = code := by
  unfold operands at h
  split at h
  · rename_i hone
    cases h
    exact opcode_advance_lowBits hone
  · rename_i htwo
    obtain ⟨factored, _, -, hpure⟩ := Reader.run_bind_eq_ok_iff.mp h
    cases hpure
    exact opcode_saved_lowBits htwo factored
  · split at h
    · cases h
      rfl
    · obtain ⟨delta, _, -, hpure⟩ := Reader.run_bind_eq_ok_iff.mp h
      cases hpure
      rfl
    · obtain ⟨delta, _, -, hpure⟩ := Reader.run_bind_eq_ok_iff.mp h
      cases hpure
      rfl
    · obtain ⟨register, _, -, hoffset⟩ := Reader.run_bind_eq_ok_iff.mp h
      obtain ⟨offset, _, -, hpure⟩ := Reader.run_bind_eq_ok_iff.mp hoffset
      cases hpure
      rfl
    · obtain ⟨factored, _, -, hpure⟩ := Reader.run_bind_eq_ok_iff.mp h
      cases hpure
      rfl
    · cases h
  · cases h

theorem exists_opcode_eq
    {code : UInt8} (h : HasInstruction code) :
    ∃ instruction : Instruction, instruction.opcode = code := by
  rcases h with hone | htwo | hlisted
  · exact ⟨.advance (lowBits code), opcode_advance_lowBits hone⟩
  · exact ⟨.saved (lowBits code) 0, opcode_saved_lowBits htwo 0⟩
  · simp only [List.mem_cons, List.not_mem_nil, or_false] at hlisted
    rcases hlisted with rfl | rfl | rfl | rfl | rfl
    · exact ⟨.nop, rfl⟩
    · exact ⟨.advanceByte 0, rfl⟩
    · exact ⟨.advanceHalf 0, rfl⟩
    · exact ⟨.defineCfa 0 0, rfl⟩
    · exact ⟨.defineCfaOffset 0, rfl⟩

end Instruction

namespace Operation

theorem selfDelimiting_operands
    (code : UInt8) :
    (operands code).SelfDelimiting := by
  unfold operands
  split
  · exact Leb128.selfDelimiting_signed.bind fun _ => Reader.selfDelimiting_pure _
  · exact Reader.selfDelimiting_pure _
  · exact Reader.selfDelimiting_pure _
  · exact Reader.selfDelimiting_fail _

/-- What is read behind an operation code is an operation with this code. -/
theorem opcode_of_run_operands
    {code : UInt8} {bytes rest : Bytes} {operation : Operation}
    (h : (operands code).run bytes = (.ok operation, rest)) :
    operation.opcode = code := by
  unfold operands at h
  split at h
  · obtain ⟨n, _, -, hpure⟩ := Reader.run_bind_eq_ok_iff.mp h
    cases hpure
    rfl
  · cases h
    rfl
  · cases h
    rfl
  · cases h

theorem exists_opcode_eq
    {code : UInt8} (h : code ∈ [0x11, 0x22, 0x9c]) :
    ∃ operation : Operation, operation.opcode = code := by
  simp only [List.mem_cons, List.not_mem_nil, or_false] at h
  rcases h with rfl | rfl | rfl
  · exact ⟨.const 0, rfl⟩
  · exact ⟨.plus, rfl⟩
  · exact ⟨.frameAddress, rfl⟩

end Operation

namespace Bytecode

variable {α : Type} {operands : UInt8 → Reader α} {encode : α → Bytes}

/-- A program as it is read back: each operation in turn, with the encodings of those behind
it unread. -/
def transcript (encode : α → Bytes) : List α → List (Except Fault α × Bytes)
  | [] => []
  | a :: rest => (.ok a, rest.flatMap encode) :: transcript encode rest

theorem Decodes.run_operation
    {a : α} (h : Decodes operands encode a) (more : Bytes) :
    (operation operands).run (encode a ++ more) = (.ok a, more) := by
  obtain ⟨code, rest, hencode, hread⟩ := h
  rw [hencode, List.cons_append, operation, Reader.run_bind_ok (Reader.run_u8_cons code _), hread]

theorem exhaust_flatMap_encode
    (h : ∀ a, Decodes operands encode a) (program : List α) :
    Transcript.exhaust (operation operands) (program.flatMap encode) =
      transcript encode program := by
  induction program with
  | nil =>
      rw [List.flatMap_nil, Transcript.exhaust, if_pos rfl, transcript]
  | cons a rest ih =>
      have hrun := (h a).run_operation (rest.flatMap encode)
      obtain ⟨code, tail, hencode, -⟩ := h a
      have hshorter : (rest.flatMap encode).length < (encode a ++ rest.flatMap encode).length := by
        rw [hencode, List.length_append, List.length_cons]
        omega
      rw [List.flatMap_cons, Transcript.exhaust, hrun, if_neg, if_pos hshorter, ih, transcript]
      rw [hencode]
      exact List.cons_ne_nil _ _

/-- Operations and their encodings belong together, operation by operation and in whole
programs. -/
structure RoundTrips (operands : UInt8 → Reader α) (opcode : α → UInt8) (encode : α → Bytes)
    (unsupported : UInt8 → Fault) : Prop where
  /-- A written program is read back, each operation up to where the next one begins. -/
  exhaust_encode : ∀ program : List α,
    Transcript.exhaust (operation operands) (program.flatMap encode) = transcript encode program
  /-- The steps of a written program are its operations. -/
  steps_encode : ∀ program : List α,
    (steps operands (program.flatMap encode)).map Step.content = program.map .ok
  /-- What is read has the operation code that it is read from, is found in the bytes that it
  takes up, whatever stands behind them, and is read again from its own encoding. -/
  of_run : ∀ code bytes a rest, (operands code).run bytes = (.ok a, rest) →
    opcode a = code ∧
    (∃ used, bytes = used ++ rest ∧ ∀ more, (operands code).run (used ++ more) = (.ok a, more)) ∧
    ∀ more, (operation operands).run (encode a ++ more) = (.ok a, more)
  /-- Any other operation code is refused, and nothing behind it is read. -/
  refuses : ∀ code, (∀ a, opcode a ≠ code) →
    ∀ bytes, (operands code).run bytes = (.error (unsupported code), bytes)

/-- **Programs are read back.** This holds of call frame instructions in both byte orders, whose
operands in the operation code have six bits, and of location operations. -/
theorem roundTrips_programs :
    (∀ order, RoundTrips (Instruction.operands order) Instruction.opcode
      (Instruction.encode order) .unsupportedInstruction) ∧
    (∀ instruction : Instruction, instruction.lowOperand < 64) ∧
    RoundTrips Operation.operands Operation.opcode Operation.encode .unsupportedOperation := by
  refine ⟨fun order => ?_, Instruction.lowOperand_lt, ?_⟩
  · refine ⟨exhaust_flatMap_encode (Instruction.decodes_encode order),
      Instruction.steps_encode order, ?_, ?_⟩
    · intro code bytes instruction rest hrun
      exact ⟨Instruction.opcode_of_run_operands hrun,
        Instruction.selfDelimiting_operands order code bytes instruction rest hrun,
        (Instruction.decodes_encode order instruction).run_operation⟩
    · intro code hnone bytes
      have hforeign : ¬ Instruction.HasInstruction code := fun hcode => by
        obtain ⟨instruction, hopcode⟩ := Instruction.exists_opcode_eq hcode
        exact hnone instruction hopcode
      rw [Instruction.operands_of_not_hasInstruction hforeign, Reader.run_fail]
  · refine ⟨exhaust_flatMap_encode Operation.decodes_encode, Expression.steps_encode, ?_, ?_⟩
    · intro code bytes operation rest hrun
      exact ⟨Operation.opcode_of_run_operands hrun,
        Operation.selfDelimiting_operands code bytes operation rest hrun,
        (Operation.decodes_encode operation).run_operation⟩
    · intro code hnone bytes
      have hforeign : code ∉ [0x11, 0x22, 0x9c] := fun hcode => by
        obtain ⟨operation, hopcode⟩ := Operation.exists_opcode_eq hcode
        exact hnone operation hopcode
      rw [Operation.operands_of_not_mem hforeign, Reader.run_fail]

/-- A padded operand is read as its number, and not written that way. -/
example :
    (Instruction.reader .big).run [0x13, 0xfe, 0x7f, 0x03] =
      (.ok (.defineCfaOffset (-2)), [0x03]) ∧
    Instruction.encode .big (.defineCfaOffset (-2)) = [0x13, 0x7e] :=
  ⟨rfl, by cbv⟩

end Bytecode

end CallFrame
