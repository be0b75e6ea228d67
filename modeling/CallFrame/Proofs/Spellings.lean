import CallFrame.Proofs.ProgramStreams

/-!
# Spellings of programs

A number of variable width can be written in several ways: the shortest one may be padded, up to
the ten bytes that one number may take. So an operation has several spellings, and a program as
many as its operations have together.

The grammar of spellings is given here by itself, one rule for each operation. Reading an operation
succeeds exactly where a spelling stands, and reads the operation that it spells. So the steps of a
program can all be read exactly where the program is a row of spellings with nothing left behind
the last one.
-/

namespace CallFrame

/-- The reader succeeds where a spelling stands, and reads what it spells. -/
def Reader.ReadsExactly {α : Type} (reader : Reader α) (spells : α → Bytes → Prop) : Prop :=
  ∀ bytes a rest, reader.run bytes = (.ok a, rest) ↔
    ∃ used, spells a used ∧ bytes = used ++ rest

namespace Reader

theorem run_u8_eq_ok_iff
    {byte : UInt8} {bytes rest : Bytes} :
    u8.run bytes = (.ok byte, rest) ↔ bytes = byte :: rest := by
  constructor
  · intro h
    cases bytes with
    | nil =>
        cases h
    | cons first bytes =>
        cases h
        rfl
  · rintro rfl
    exact run_u8_cons byte rest

theorem run_i8_eq_ok_iff
    {n : Int8} {bytes rest : Bytes} :
    i8.run bytes = (.ok n, rest) ↔ bytes = n.toUInt8 :: rest := by
  simp only [i8, run_bind_eq_ok_iff, run_u8_eq_ok_iff, run_pure, Prod.mk.injEq, Except.ok.injEq]
  constructor
  · rintro ⟨byte, _, rfl, rfl, rfl⟩
    rfl
  · rintro rfl
    exact ⟨n.toUInt8, rest, rfl, n.toInt8_toUInt8, rfl⟩

theorem run_i16_eq_ok_iff
    {order : ByteOrder} {n : Int16} {bytes rest : Bytes} :
    (i16 order).run bytes = (.ok n, rest) ↔
      bytes = order.digits 2 n.toUInt16.toNat ++ rest := by
  simp only [i16, run_bind_eq_ok_iff, run_u16_eq_ok_iff, run_pure, Prod.mk.injEq, Except.ok.injEq]
  constructor
  · rintro ⟨word, _, rfl, rfl, rfl⟩
    rfl
  · rintro rfl
    exact ⟨n.toUInt16, rest, rfl, n.toInt16_toUInt16, rfl⟩

end Reader

namespace Leb128

/-- The bytes are a complete number of at most ten bytes with this value in the unsigned form. -/
def SpellsUnsigned (n : UInt64) (bytes : Bytes) : Prop :=
  Complete bytes ∧ bytes.length ≤ 10 ∧ naturalValue bytes = n.toNat

/-- The bytes are a complete number of at most ten bytes with this value in the signed form. -/
def SpellsSigned (n : Int64) (bytes : Bytes) : Prop :=
  Complete bytes ∧ bytes.length ≤ 10 ∧ integerValue bytes = n.toInt

theorem readsExactly_unsigned :
    unsigned.ReadsExactly SpellsUnsigned := by
  intro bytes n rest
  rw [run_unsigned_eq_ok_iff]
  constructor
  · rintro ⟨used, hcomplete, hlength, hbytes, hvalue⟩
    exact ⟨used, ⟨hcomplete, hlength, hvalue⟩, hbytes⟩
  · rintro ⟨used, ⟨hcomplete, hlength, hvalue⟩, hbytes⟩
    exact ⟨used, hcomplete, hlength, hbytes, hvalue⟩

theorem readsExactly_signed :
    signed.ReadsExactly SpellsSigned := by
  intro bytes n rest
  rw [run_signed_eq_ok_iff]
  constructor
  · rintro ⟨used, hcomplete, hlength, hbytes, hvalue⟩
    exact ⟨used, ⟨hcomplete, hlength, hvalue⟩, hbytes⟩
  · rintro ⟨used, ⟨hcomplete, hlength, hvalue⟩, hbytes⟩
    exact ⟨used, hcomplete, hlength, hbytes, hvalue⟩

end Leb128

namespace Instruction

/-- The bytes spell the instruction. -/
inductive Spells (order : ByteOrder) : Instruction → Bytes → Prop
  | nop : Spells order .nop [0x00]
  | advance (delta : Fin 64) : Spells order (.advance delta) [0x40 + UInt8.ofNat delta]
  | advanceByte (delta : Int8) : Spells order (.advanceByte delta) [0x02, delta.toUInt8]
  | advanceHalf (delta : Int16) :
      Spells order (.advanceHalf delta) (0x03 :: order.digits 2 delta.toUInt16.toNat)
  | defineCfa {register offset : UInt64} {first second : Bytes}
      (hregister : Leb128.SpellsUnsigned register first)
      (hoffset : Leb128.SpellsUnsigned offset second) :
      Spells order (.defineCfa register offset) (0x0c :: (first ++ second))
  | defineCfaOffset {factored : Int64} {operand : Bytes}
      (hfactored : Leb128.SpellsSigned factored operand) :
      Spells order (.defineCfaOffset factored) (0x13 :: operand)
  | saved (register : Fin 64) {factored : Int64} {operand : Bytes}
      (hfactored : Leb128.SpellsSigned factored operand) :
      Spells order (.saved register factored) ((0x80 + UInt8.ofNat register) :: operand)

variable {order : ByteOrder}

/-- The instruction that is read behind an operation code is spelled there. -/
theorem exists_spells_of_run_operands
    {code : UInt8} {bytes rest : Bytes} {instruction : Instruction}
    (h : (operands order code).run bytes = (.ok instruction, rest)) :
    ∃ used, Spells order instruction (code :: used) ∧ bytes = used ++ rest := by
  unfold operands at h
  split at h
  · rename_i hone
    cases h
    have hspells : Spells order (.advance (lowBits code)) _ := Spells.advance (lowBits code)
    have hcode : 0x40 + UInt8.ofNat (lowBits code) = code := opcode_advance_lowBits hone
    rw [hcode] at hspells
    exact ⟨[], hspells, rfl⟩
  · rename_i htwo
    obtain ⟨factored, _, hsigned, hpure⟩ := Reader.run_bind_eq_ok_iff.mp h
    cases hpure
    obtain ⟨used, hfactored, hbytes⟩ := (Leb128.readsExactly_signed _ _ _).mp hsigned
    have hspells : Spells order (.saved (lowBits code) factored) _ :=
      Spells.saved (lowBits code) hfactored
    have hcode : 0x80 + UInt8.ofNat (lowBits code) = code := opcode_saved_lowBits htwo factored
    rw [hcode] at hspells
    exact ⟨used, hspells, hbytes⟩
  · split at h
    · cases h
      exact ⟨[], Spells.nop, rfl⟩
    · obtain ⟨delta, _, hbyte, hpure⟩ := Reader.run_bind_eq_ok_iff.mp h
      cases hpure
      exact ⟨[delta.toUInt8], Spells.advanceByte delta, Reader.run_i8_eq_ok_iff.mp hbyte⟩
    · obtain ⟨delta, _, hhalf, hpure⟩ := Reader.run_bind_eq_ok_iff.mp h
      cases hpure
      exact ⟨_, Spells.advanceHalf delta, Reader.run_i16_eq_ok_iff.mp hhalf⟩
    · obtain ⟨register, _, hunsigned, h⟩ := Reader.run_bind_eq_ok_iff.mp h
      obtain ⟨offset, _, hbehind, hpure⟩ := Reader.run_bind_eq_ok_iff.mp h
      cases hpure
      obtain ⟨first, hregister, rfl⟩ := (Leb128.readsExactly_unsigned _ _ _).mp hunsigned
      obtain ⟨second, hoffset, rfl⟩ := (Leb128.readsExactly_unsigned _ _ _).mp hbehind
      exact ⟨first ++ second, Spells.defineCfa hregister hoffset, (List.append_assoc _ _ _).symm⟩
    · obtain ⟨factored, _, hsigned, hpure⟩ := Reader.run_bind_eq_ok_iff.mp h
      cases hpure
      obtain ⟨used, hfactored, hbytes⟩ := (Leb128.readsExactly_signed _ _ _).mp hsigned
      exact ⟨used, Spells.defineCfaOffset hfactored, hbytes⟩
    · cases h
  · cases h

/-- A spelled instruction is read, whatever follows it. -/
theorem Spells.run_operands
    {code : UInt8} {used : Bytes} {instruction : Instruction}
    (h : Spells order instruction (code :: used)) (rest : Bytes) :
    (operands order code).run (used ++ rest) = (.ok instruction, rest) := by
  cases h with
  | nop =>
      rfl
  | advance delta =>
      change (operands order (Instruction.advance delta).opcode).run rest = _
      rw [operands_of_one (opcode_advance delta).1, (opcode_advance delta).2]
      rfl
  | advanceByte delta =>
      have hbyte : Reader.i8.run ([delta.toUInt8] ++ rest) = (.ok delta, rest) :=
        Reader.run_i8_eq_ok_iff.mpr rfl
      rw [operands_advanceByte, Reader.run_bind_ok hbyte]
      rfl
  | advanceHalf delta =>
      rw [operands_advanceHalf, Reader.run_bind_ok (Reader.run_i16_eq_ok_iff.mpr rfl)]
      rfl
  | @defineCfa register offset first second hregister hoffset =>
      have hfirst : Leb128.unsigned.run (first ++ (second ++ rest)) =
          (.ok register, second ++ rest) :=
        (Leb128.readsExactly_unsigned _ _ _).mpr ⟨first, hregister, rfl⟩
      have hsecond : Leb128.unsigned.run (second ++ rest) = (.ok offset, rest) :=
        (Leb128.readsExactly_unsigned _ _ _).mpr ⟨second, hoffset, rfl⟩
      rw [operands_defineCfa, List.append_assoc, Reader.run_bind_ok hfirst,
        Reader.run_bind_ok hsecond]
      rfl
  | @defineCfaOffset factored operand hfactored =>
      have hoperand : Leb128.signed.run (used ++ rest) = (.ok factored, rest) :=
        (Leb128.readsExactly_signed _ _ _).mpr ⟨used, hfactored, rfl⟩
      rw [operands_defineCfaOffset, Reader.run_bind_ok hoperand]
      rfl
  | @saved register factored operand hfactored =>
      have hoperand : Leb128.signed.run (used ++ rest) = (.ok factored, rest) :=
        (Leb128.readsExactly_signed _ _ _).mpr ⟨used, hfactored, rfl⟩
      change (operands order (Instruction.saved register factored).opcode).run _ = _
      rw [operands_of_two (opcode_saved register factored).1, (opcode_saved register factored).2,
        Reader.run_bind_ok hoperand]
      rfl

end Instruction

namespace Operation

/-- The bytes spell the operation. -/
inductive Spells : Operation → Bytes → Prop
  | const {n : Int64} {operand : Bytes} (hn : Leb128.SpellsSigned n operand) :
      Spells (.const n) (0x11 :: operand)
  | plus : Spells .plus [0x22]
  | frameAddress : Spells .frameAddress [0x9c]

/-- The operation that is read behind an operation code is spelled there. -/
theorem exists_spells_of_run_operands
    {code : UInt8} {bytes rest : Bytes} {operation : Operation}
    (h : (operands code).run bytes = (.ok operation, rest)) :
    ∃ used, Spells operation (code :: used) ∧ bytes = used ++ rest := by
  unfold operands at h
  split at h
  · obtain ⟨n, _, hsigned, hpure⟩ := Reader.run_bind_eq_ok_iff.mp h
    cases hpure
    obtain ⟨used, hn, hbytes⟩ := (Leb128.readsExactly_signed _ _ _).mp hsigned
    exact ⟨used, Spells.const hn, hbytes⟩
  · cases h
    exact ⟨[], Spells.plus, rfl⟩
  · cases h
    exact ⟨[], Spells.frameAddress, rfl⟩
  · cases h

/-- A spelled operation is read, whatever follows it. -/
theorem Spells.run_operands
    {code : UInt8} {used : Bytes} {operation : Operation} (h : Spells operation (code :: used))
    (rest : Bytes) :
    (operands code).run (used ++ rest) = (.ok operation, rest) := by
  cases h with
  | @const n operand hn =>
      have hoperand : Leb128.signed.run (used ++ rest) = (.ok n, rest) :=
        (Leb128.readsExactly_signed _ _ _).mpr ⟨used, hn, rfl⟩
      rw [operands_const, Reader.run_bind_ok hoperand]
      rfl
  | plus =>
      rfl
  | frameAddress =>
      rfl

end Operation

namespace Bytecode

variable {α : Type} {operands : UInt8 → Reader α} {spells : α → Bytes → Prop}

/-- The bytes are spellings of the operations of a program, one behind the other, and nothing
else. -/
inductive SpellsAll (spells : α → Bytes → Prop) : List α → Bytes → Prop
  | nil : SpellsAll spells [] []
  | cons {a : α} {program : List α} {used rest : Bytes} (head : spells a used)
      (tail : SpellsAll spells program rest) : SpellsAll spells (a :: program) (used ++ rest)

/-- Reading an operation succeeds where a spelling stands. Every spelling begins with an operation
code. -/
structure Recognizes (operands : UInt8 → Reader α) (spells : α → Bytes → Prop) : Prop where
  readsExactly : ∀ code, (operands code).ReadsExactly fun a used => spells a (code :: used)
  ne_nil : ∀ a, ¬ spells a []

/-- All the steps of a program can be read exactly where its bytes spell it. -/
theorem Recognizes.content_eq_iff
    (h : Recognizes operands spells) {program : List α} {bytes : Bytes} :
    (steps operands bytes).map Step.content = program.map .ok ↔
      SpellsAll spells program bytes := by
  constructor
  · intro hsteps
    fun_induction steps operands bytes generalizing program with
    | case1 =>
        rw [List.map_eq_nil_iff.mp hsteps.symm]
        exact SpellsAll.nil
    | case2 code bytes a rest hrun ih =>
        obtain ⟨_, others, rfl, hcontent, hrest⟩ := List.map_eq_cons_iff.mp hsteps.symm
        cases hcontent
        obtain ⟨used, hspells, rfl⟩ := (h.readsExactly code _ _ _).mp hrun
        exact SpellsAll.cons hspells (ih hrest.symm)
    | case3 code bytes fault rest hrun =>
        obtain ⟨_, others, rfl, hcontent, -⟩ := List.map_eq_cons_iff.mp hsteps.symm
        cases hcontent
  · intro hspells
    induction hspells with
    | nil =>
        rw [steps_nil]
        rfl
    | @cons a program used rest head tail ih =>
        cases used with
        | nil =>
            exact absurd head (h.ne_nil a)
        | cons code used =>
            have hrun := (h.readsExactly code (used ++ rest) a rest).mpr ⟨used, head, rfl⟩
            rw [List.cons_append, steps_cons_ok hrun, List.map_cons, ih]
            rfl

/-- Operations that are spelled in front of a program are its first steps. -/
theorem Recognizes.steps_append
    (h : Recognizes operands spells) {program : List α} {used : Bytes}
    (hspells : SpellsAll spells program used) (rest : Bytes) :
    steps operands (used ++ rest) = steps operands used ++ steps operands rest := by
  induction hspells with
  | nil =>
      rw [steps_nil]
      rfl
  | @cons a program used others head tail ih =>
      cases used with
      | nil =>
          exact absurd head (h.ne_nil a)
      | cons code used =>
          have hrun : ∀ more, (operands code).run (used ++ more) = (.ok a, more) :=
            fun more => (h.readsExactly code (used ++ more) a more).mpr ⟨used, head, rfl⟩
          rw [List.append_assoc, List.cons_append, List.cons_append, steps_cons_ok (hrun _),
            steps_cons_ok (hrun _), ih, List.cons_append]

/-- The first step is the operation code that the program begins with, and what its operands
mean. -/
theorem exists_steps_cons
    (operands : UInt8 → Reader α) (code : UInt8) (bytes : Bytes) :
    ∃ others, steps operands (code :: bytes) = ⟨code, (operands code).result bytes⟩ :: others := by
  rcases hrun : (operands code).run bytes with ⟨fault | a, rest⟩
  · exact ⟨[], by rw [steps_cons_error hrun, Reader.result, hrun]⟩
  · exact ⟨steps operands rest, by rw [steps_cons_ok hrun, Reader.result, hrun]⟩

/-- A step of a program stands behind operations that are spelled in front of it. -/
theorem Recognizes.exists_spellsAll_of_steps
    (h : Recognizes operands spells) {front others : List (Step α)} {step : Step α} {bytes : Bytes}
    (hsteps : steps operands bytes = front ++ step :: others) :
    ∃ program used behind, SpellsAll spells program used ∧
      bytes = used ++ step.opcode :: behind ∧ steps operands used = front ∧
      front.map Step.content = program.map .ok ∧
      step.content = (operands step.opcode).result behind := by
  induction front generalizing bytes with
  | nil =>
      cases bytes with
      | nil =>
          rw [steps_nil] at hsteps
          cases hsteps
      | cons code bytes =>
          obtain ⟨rest, hfirst⟩ := exists_steps_cons operands code bytes
          rw [hfirst] at hsteps
          cases hsteps
          exact ⟨[], [], bytes, SpellsAll.nil, rfl, steps_nil, rfl, rfl⟩
  | cons first front ih =>
      cases bytes with
      | nil =>
          rw [steps_nil] at hsteps
          cases hsteps
      | cons code bytes =>
          rcases hrun : (operands code).run bytes with ⟨fault | a, rest⟩
          · -- Behind a step that cannot be read there is no other one.
            rw [steps_cons_error hrun] at hsteps
            have hnil := (List.cons.inj hsteps).2
            exact absurd hnil.symm (List.append_ne_nil_of_right_ne_nil front (List.cons_ne_nil _ _))
          · rw [steps_cons_ok hrun, List.cons_append] at hsteps
            obtain ⟨rfl, hrest⟩ := List.cons.inj hsteps
            obtain ⟨program, used, behind, hspells, rfl, hused, hprogram, hcontent⟩ := ih hrest
            obtain ⟨operandBytes, hhead, rfl⟩ := (h.readsExactly code _ _ _).mp hrun
            have hfirst : (operands code).run (operandBytes ++ used) = (.ok a, used) :=
              (h.readsExactly code _ a used).mpr ⟨operandBytes, hhead, rfl⟩
            refine ⟨a :: program, (code :: operandBytes) ++ used, behind,
              SpellsAll.cons hhead hspells, ?_, ?_, ?_, hcontent⟩
            · rw [List.append_assoc, List.cons_append]
            · rw [List.cons_append, steps_cons_ok hfirst, hused]
            · rw [List.map_cons, List.map_cons, hprogram]

end Bytecode

theorem Instruction.recognizes
    (order : ByteOrder) :
    Bytecode.Recognizes (operands order) (Spells order) where
  readsExactly := by
    intro code bytes instruction rest
    constructor
    · exact exists_spells_of_run_operands
    · rintro ⟨used, hspells, rfl⟩
      exact hspells.run_operands rest
  ne_nil := fun _ hspells => nomatch hspells

theorem Operation.recognizes :
    Bytecode.Recognizes operands Spells where
  readsExactly := by
    intro code bytes operation rest
    constructor
    · exact exists_spells_of_run_operands
    · rintro ⟨used, hspells, rfl⟩
      exact hspells.run_operands rest
  ne_nil := fun _ hspells => nomatch hspells

end CallFrame
