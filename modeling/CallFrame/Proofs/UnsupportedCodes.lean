import CallFrame.Proofs.EntryGrammar
import CallFrame.Proofs.LookupRuns
import CallFrame.Proofs.ReaderFaults

/-!
# Operation codes that are not supported

Frame descriptions and common information entries are run by two interpreters, and each supports
only some of the instructions that can be read. Both read the operands of an instruction before
they look at whether it may stand where it is.

So an operation code that may not stand there is named if it has no instruction at all, or if its
operands stand behind it. Otherwise the operands are the first fault, and the operation code is
not named, although it would have been refused with any operands.
-/

namespace CallFrame

namespace Instruction

/-- The opcodes of the instructions that build the rows of a frame description. -/
def BuildsRows (opcode : UInt8) : Prop :=
  opcode.toNat / 64 = 1 ∨ opcode ∈ [0x02, 0x03, 0x13]

instance (opcode : UInt8) : Decidable (BuildsRows opcode) :=
  inferInstanceAs (Decidable (_ ∨ _))

/-- The opcodes of the instructions that may stand in a common information entry with the given
return address register. -/
def SetsRules (returnRegister opcode : UInt8) : Prop :=
  opcode ∈ [0x00, 0x0c] ∨ opcode.toNat / 64 = 2 ∧ opcode.toNat % 64 = returnRegister.toNat

instance (returnRegister opcode : UInt8) : Decidable (SetsRules returnRegister opcode) :=
  inferInstanceAs (Decidable (_ ∨ _ ∧ _))

/-- If the opcode has an instruction, then the bytes behind it begin with the operands. -/
def OperandsStand (order : ByteOrder) (opcode : UInt8) (behind : Bytes) : Prop :=
  HasInstruction opcode →
    ∃ instruction used rest, Spells order instruction (opcode :: used) ∧ behind = used ++ rest

/-- The fault of an opcode that may not stand where it does, in front of these bytes. -/
def refusal (order : ByteOrder) (opcode : UInt8) (behind : Bytes) : Fault :=
  match (operands order opcode).result behind with
  | .error fault => fault
  | .ok _ => .unsupportedInstruction opcode

variable {order : ByteOrder} {opcode : UInt8} {behind used : Bytes} {instruction : Instruction}

theorem refusal_of_operandsStand
    (h : OperandsStand order opcode behind) :
    refusal order opcode behind = .unsupportedInstruction opcode := by
  by_cases hhas : HasInstruction opcode
  · obtain ⟨instruction, used, rest, hspells, rfl⟩ := h hhas
    rw [refusal, Reader.result, hspells.run_operands]
  · rw [refusal, operands_of_not_hasInstruction hhas]
    rfl

theorem isOfOperands_refusal
    (h : ¬ OperandsStand order opcode behind) :
    (refusal order opcode behind).IsOfOperands := by
  obtain ⟨hhas, hnone⟩ := Classical.not_imp.mp h
  rcases hresult : (operands order opcode).result behind with fault | instruction
  · rw [refusal, hresult]
    exact failsWith_operands_of_hasInstruction hhas order behind fault hresult
  · obtain ⟨rest, hrun⟩ := Reader.result_eq_ok_iff.mp hresult
    obtain ⟨used, hspells, hbehind⟩ := exists_spells_of_run_operands hrun
    exact absurd ⟨instruction, used, rest, hspells, hbehind⟩ hnone

/-- An opcode that is refused is named exactly if its operands stand behind it. -/
theorem refusal_eq_unsupportedInstruction_iff :
    refusal order opcode behind = .unsupportedInstruction opcode ↔
      OperandsStand order opcode behind := by
  refine ⟨fun h => Classical.byContradiction fun hmissing => ?_, refusal_of_operandsStand⟩
  have hfault := isOfOperands_refusal hmissing
  rw [h] at hfault
  exact hfault

/-- Whoever refuses all instructions of the opcode comes to this fault. -/
theorem result_bind_eq_refusal
    {α : Type} {serve : Instruction → Except Fault α}
    (h : ∀ instruction used, Spells order instruction (opcode :: used) →
      serve instruction = .error (.unsupportedInstruction opcode)) (behind : Bytes) :
    (operands order opcode).result behind >>= serve = .error (refusal order opcode behind) := by
  rcases hresult : (operands order opcode).result behind with fault | instruction
  · rw [refusal, hresult]
    rfl
  · obtain ⟨rest, hrun⟩ := Reader.result_eq_ok_iff.mp hresult
    obtain ⟨used, hspells, -⟩ := exists_spells_of_run_operands hrun
    rw [refusal, hresult]
    exact h instruction used hspells

theorem Spells.apply_row_of_not_buildsRows
    (h : Spells order instruction (opcode :: used)) (hcode : ¬ BuildsRows opcode)
    (common : CommonEntry) (row : Row) :
    row.apply common opcode instruction = .error (.unsupportedInstruction opcode) := by
  cases h with
  | advance delta =>
      exact absurd (Or.inl (opcode_advance delta).1) hcode
  | advanceByte delta =>
      exact absurd (Or.inr (by decide)) hcode
  | advanceHalf delta =>
      exact absurd (Or.inr (by decide)) hcode
  | defineCfaOffset hfactored =>
      exact absurd (Or.inr (by decide)) hcode
  | _ =>
      rfl

theorem Spells.apply_entry_of_not_setsRules
    {entry : CommonEntry} (h : Spells order instruction (opcode :: used))
    (hcode : ¬ SetsRules entry.returnRegister opcode) :
    entry.apply opcode instruction = .error (.unsupportedInstruction opcode) := by
  cases h with
  | nop =>
      exact absurd (Or.inl (by decide)) hcode
  | defineCfa hregister hoffset =>
      exact absurd (Or.inl (by decide)) hcode
  | @saved register factored operand hfactored =>
      obtain ⟨htwo, hlow⟩ := opcode_saved register factored
      exact if_neg fun hregister =>
        hcode (Or.inr ⟨htwo, (congrArg Fin.val hlow).trans hregister⟩)
  | _ =>
      rfl

end Instruction

namespace Row

variable {timing : OffsetTiming} {common : CommonEntry} {pc : UInt64} {row last : Row}
  {step : Step Instruction} {steps left : List (Step Instruction)}

theorem Runs.append
    (h : Runs timing common pc row steps last left) (more : List (Step Instruction)) :
    Runs timing common pc row (steps ++ more) last (left ++ more) := by
  induction h with
  | here row steps =>
      exact Runs.here row (steps ++ more)
  | further hgo hnext _ ih =>
      exact Runs.further hgo hnext ih

/-- Steps that are taken can be read. -/
theorem Runs.exists_content
    (h : Runs timing common pc row steps last left) (hstep : step ∈ steps) :
    step ∈ left ∨ ∃ instruction, step.content = .ok instruction := by
  induction h with
  | here row steps =>
      exact Or.inl hstep
  | further _ hnext _ ih =>
      rcases List.mem_cons.mp hstep with rfl | hrest
      · obtain ⟨instruction, hcontent, -⟩ := perform_eq_ok_iff.mp hnext
        exact Or.inr ⟨instruction, hcontent⟩
      · exact ih hrest

end Row

namespace Description

/-- The lookup takes all the steps in front of the operation code and does not stop in front of it.
These bytes are behind the operation code. -/
def Reaches (order : ByteOrder) (timing : OffsetTiming) (common : CommonEntry)
    (description : Description) (pc : UInt64) (opcode : UInt8) (behind : Bytes) : Prop :=
  ∃ front row, description.instructions = front ++ opcode :: behind ∧
    Row.Runs timing common pc (.first common description) (Instruction.steps order front) row [] ∧
    ¬ (timing.waits opcode ∧ pc < row.location)

variable {order : ByteOrder} {timing : OffsetTiming} {common : CommonEntry}
  {description : Description} {pc : UInt64} {opcode : UInt8} {behind : Bytes}

theorem Reaches.exists_meets
    (h : description.Reaches order timing common pc opcode behind) :
    ∃ row, description.Meets order timing common pc row
      ⟨opcode, (Instruction.operands order opcode).result behind⟩ := by
  obtain ⟨front, row, hbytes, hruns, hgo⟩ := h
  have hread : ∀ step ∈ Instruction.steps order front, ∃ a, step.content = .ok a :=
    fun step hstep => (hruns.exists_content hstep).resolve_left (fun hnil => nomatch hnil)
  have hsteps : Instruction.steps order (front ++ opcode :: behind) =
      Instruction.steps order front ++ Instruction.steps order (opcode :: behind) :=
    Bytecode.steps_append (Instruction.stable_operands order) hread (opcode :: behind)
  obtain ⟨others, hothers⟩ :=
    Bytecode.exists_steps_cons (Instruction.operands order) opcode behind
  refine ⟨row, others, ?_, hgo⟩
  rw [hbytes, hsteps, Instruction.steps, Instruction.steps, hothers]
  exact hruns.append _

/-- A lookup that reaches an operation code which builds no rows refuses it. -/
theorem Reaches.frameAddress_eq
    (h : description.Reaches order timing common pc opcode behind)
    (hcode : ¬ Instruction.BuildsRows opcode) (sp : UInt64) :
    description.frameAddress order timing common pc sp =
      .error (Instruction.refusal order opcode behind) := by
  obtain ⟨row, hmeets⟩ := h.exists_meets
  refine frameAddress_eq_error_iff.mpr ⟨row, _, hmeets, ?_⟩
  exact Instruction.result_bind_eq_refusal
    (fun _ _ hspells => hspells.apply_row_of_not_buildsRows hcode common row) behind

end Description

namespace CommonEntry

/-- The payload has a header that is understood. The initial instructions in front of the operation
code may all stand there, and these bytes are behind it. -/
inductive Reaches (order : ByteOrder) : Bytes → UInt8 → UInt8 → Bytes → Prop
  | intro {codeFactor : UInt64} {dataFactor : Int64} {returnRegister opcode : UInt8}
      {instructions : List Instruction} {first second front behind : Bytes}
      (hcodeFactor : Leb128.SpellsUnsigned codeFactor first)
      (hdataFactor : Leb128.SpellsSigned dataFactor second)
      (hfront : Bytecode.SpellsAll (Instruction.Spells order) instructions front)
      (hinitial : ∀ instruction ∈ instructions, instruction.IsInitial returnRegister) :
      Reaches order
        (3 :: 0 :: (first ++ (second ++ returnRegister :: (front ++ opcode :: behind))))
        returnRegister opcode behind

variable {order : ByteOrder} {payload behind : Bytes} {returnRegister opcode : UInt8}

theorem applyAll_append
    (entry : CommonEntry) (front rest : List (Step Instruction)) :
    entry.applyAll (front ++ rest) = entry.applyAll front >>= fun next => next.applyAll rest := by
  induction front generalizing entry with
  | nil =>
      rfl
  | cons step front ih =>
      simp only [List.cons_append, applyAll, ih, bind_assoc]

/-- Reading a payload that reaches an operation code which sets no rule refuses it. -/
theorem Reaches.result_content_eq
    (h : Reaches order payload returnRegister opcode behind)
    (hcode : ¬ Instruction.SetsRules returnRegister opcode) :
    (content order).result payload = .error (Instruction.refusal order opcode behind) := by
  cases h with
  | @intro codeFactor dataFactor _ _ instructions first second front _ hcodeFactor hdataFactor
      hfront hinitial =>
      have hformat := run_checkFormat_eq_ok_iff.mpr
        (rfl : 3 :: 0 :: (first ++ (second ++ returnRegister :: (front ++ opcode :: behind))) = _)
      obtain ⟨start, hheader, rfl⟩ : ∃ start : CommonEntry,
          header.run (first ++ (second ++ returnRegister :: (front ++ opcode :: behind))) =
            (.ok start, front ++ opcode :: behind) ∧ start.returnRegister = returnRegister :=
        ⟨_, run_header_eq_ok_iff.mpr ⟨codeFactor, dataFactor, returnRegister, first, second,
          hcodeFactor, hdataFactor, rfl, rfl⟩, rfl⟩
      have happlied : start.applyAll (Instruction.steps order front) =
          .ok (start.withRules instructions) :=
        applyAll_of_isInitial ((Instruction.recognizes order).content_eq_iff.mpr hfront) hinitial
      obtain ⟨others, hothers⟩ :=
        Bytecode.exists_steps_cons (Instruction.operands order) opcode behind
      have hsteps : Instruction.steps order (front ++ opcode :: behind) =
          Instruction.steps order front ++
            ⟨opcode, (Instruction.operands order opcode).result behind⟩ :: others := by
        rw [Instruction.steps, (Instruction.recognizes order).steps_append hfront, hothers]
        rfl
      rw [Reader.result, content, Reader.run_bind_ok hformat, Reader.run_bind_ok hheader,
        Reader.run_bind_ok (Reader.run_remainder _), Reader.run_ofExcept, hsteps, applyAll_append,
        happlied]
      change ((Instruction.operands order opcode).result behind >>= _) = _
      refine Instruction.result_bind_eq_refusal (fun instruction used hspells => ?_) behind
      have hrules : (start.withRules instructions).returnRegister = start.returnRegister := rfl
      rw [hspells.apply_entry_of_not_setsRules (by rw [hrules]; exact hcode)]
      rfl

end CommonEntry

namespace Description

/-- The lookup names every operation code that it reaches and that builds no rows. -/
def NamesRefused (order : ByteOrder) (timing : OffsetTiming) (common : CommonEntry)
    (description : Description) (pc : UInt64) : Prop :=
  ∀ opcode behind sp, description.Reaches order timing common pc opcode behind →
    ¬ Instruction.BuildsRows opcode →
    description.frameAddress order timing common pc sp = .error (.unsupportedInstruction opcode)

theorem namesRefused_iff
    {order : ByteOrder} {timing : OffsetTiming} {common : CommonEntry}
    {description : Description} {pc : UInt64} :
    description.NamesRefused order timing common pc ↔
      ∀ opcode behind, description.Reaches order timing common pc opcode behind →
        ¬ Instruction.BuildsRows opcode → Instruction.OperandsStand order opcode behind := by
  constructor
  · intro hnames opcode behind hreaches hcode
    have hnamed := hnames opcode behind 0 hreaches hcode
    rw [hreaches.frameAddress_eq hcode] at hnamed
    exact Instruction.refusal_eq_unsupportedInstruction_iff.mp (Except.error.inj hnamed)
  · intro hstand opcode behind sp hreaches hcode
    rw [hreaches.frameAddress_eq hcode,
      Instruction.refusal_of_operandsStand (hstand opcode behind hreaches hcode)]

end Description

namespace FrameSection

/-- The reader names every operation code that it reaches in the common information entry at the
offset and that sets no rule. -/
def NamesRefused (frames : FrameSection) (offset : UInt32) : Prop :=
  ∀ payload returnRegister opcode behind, frames.HoldsCommon offset.toNat payload →
    CommonEntry.Reaches frames.order payload returnRegister opcode behind →
    ¬ Instruction.SetsRules returnRegister opcode →
    frames.commonEntry offset = .error (.unsupportedInstruction opcode)

variable {frames : FrameSection} {offset : UInt32} {payload behind : Bytes}
  {returnRegister opcode : UInt8}

theorem commonEntry_eq_refusal
    (hholds : frames.HoldsCommon offset.toNat payload)
    (hreaches : CommonEntry.Reaches frames.order payload returnRegister opcode behind)
    (hcode : ¬ Instruction.SetsRules returnRegister opcode) :
    frames.commonEntry offset = .error (Instruction.refusal frames.order opcode behind) := by
  rw [hholds.commonEntry_eq, hreaches.result_content_eq hcode]

theorem namesRefused_iff :
    frames.NamesRefused offset ↔
      ∀ payload returnRegister opcode behind, frames.HoldsCommon offset.toNat payload →
        CommonEntry.Reaches frames.order payload returnRegister opcode behind →
        ¬ Instruction.SetsRules returnRegister opcode →
        Instruction.OperandsStand frames.order opcode behind := by
  constructor
  · intro hnames payload returnRegister opcode behind hholds hreaches hcode
    have hnamed := hnames payload returnRegister opcode behind hholds hreaches hcode
    rw [commonEntry_eq_refusal hholds hreaches hcode] at hnamed
    exact Instruction.refusal_eq_unsupportedInstruction_iff.mp (Except.error.inj hnamed)
  · intro hstand payload returnRegister opcode behind hholds hreaches hcode
    rw [commonEntry_eq_refusal hholds hreaches hcode, Instruction.refusal_of_operandsStand
      (hstand payload returnRegister opcode behind hholds hreaches hcode)]

end FrameSection

namespace Instruction

/-- **Refused operation codes.** A lookup that reaches an operation code which builds no rows, and
the reader of a common information entry that reaches one which sets no rule, fail with the refusal
of this code in front of the bytes behind it. The refusal names the code exactly if the code has no
instruction or its operands stand there, and otherwise says what is wrong with the operands. So
both name all the codes that they refuse exactly where the operands of all of them stand. -/
theorem refusal_reports
    (order : ByteOrder) (timing : OffsetTiming) (common : CommonEntry) (description : Description)
    (pc : UInt64) (frames : FrameSection) (offset : UInt32) :
    (∀ opcode behind, description.Reaches order timing common pc opcode behind →
      ¬ BuildsRows opcode → ∀ sp,
        description.frameAddress order timing common pc sp =
          .error (refusal order opcode behind)) ∧
    (∀ payload returnRegister opcode behind, frames.HoldsCommon offset.toNat payload →
      CommonEntry.Reaches frames.order payload returnRegister opcode behind →
      ¬ SetsRules returnRegister opcode →
        frames.commonEntry offset = .error (refusal frames.order opcode behind)) ∧
    (∀ opcode behind,
      (refusal order opcode behind = .unsupportedInstruction opcode ↔
        OperandsStand order opcode behind) ∧
      (¬ OperandsStand order opcode behind →
        (refusal order opcode behind).IsOfOperands)) ∧
    (description.NamesRefused order timing common pc ↔
      ∀ opcode behind, description.Reaches order timing common pc opcode behind →
        ¬ BuildsRows opcode → OperandsStand order opcode behind) ∧
    (frames.NamesRefused offset ↔
      ∀ payload returnRegister opcode behind, frames.HoldsCommon offset.toNat payload →
        CommonEntry.Reaches frames.order payload returnRegister opcode behind →
        ¬ SetsRules returnRegister opcode → OperandsStand frames.order opcode behind) := by
  refine ⟨fun opcode behind hreaches hcode => hreaches.frameAddress_eq hcode, ?_,
    fun opcode behind => ⟨refusal_eq_unsupportedInstruction_iff, isOfOperands_refusal⟩,
    Description.namesRefused_iff, FrameSection.namesRefused_iff⟩
  intro payload returnRegister opcode behind hholds hreaches hcode
  exact FrameSection.commonEntry_eq_refusal hholds hreaches hcode

end Instruction

/-- A description with nothing but the code of an instruction that defines the frame address anew,
without the operands. -/
def Description.cutRule : Description where
  offset := 0
  commonOffset := 0
  start := 0x2000
  range := 0x100
  instructions := [0x0c]

/-- A common information entry that ends with the code of an advance, without the operand. -/
def FrameSection.cutAdvance : FrameSection where
  order := .little
  bytes := [10, 0, 0, 0, 0xff, 0xff, 0xff, 0xff, 3, 0, 1, 0x78, 16, 0x02]

/-- Neither instruction may stand where it does. In both cases it is reported that the bytes have
run out, and the code is not named. -/
theorem Instruction.not_namesRefused_cut :
    Description.cutRule.frameAddress .little .inRow Description.steppedCommon 0x2000 0x10000 =
      .error (.outOfBytes 1 0) ∧
    ¬ Description.cutRule.NamesRefused .little .inRow Description.steppedCommon 0x2000 ∧
    FrameSection.cutAdvance.commonEntry 0 = .error (.outOfBytes 1 0) ∧
    ¬ FrameSection.cutAdvance.NamesRefused 0 := by
  have hrule : Description.cutRule.frameAddress .little .inRow Description.steppedCommon 0x2000
      0x10000 = .error (.outOfBytes 1 0) := by cbv
  have hadvance : FrameSection.cutAdvance.commonEntry 0 = .error (.outOfBytes 1 0) := by cbv
  refine ⟨hrule, fun hnames => ?_, hadvance, fun hnames => ?_⟩
  · have hreaches : Description.cutRule.Reaches .little .inRow Description.steppedCommon 0x2000
        0x0c [] := by
      refine ⟨[], Row.first Description.steppedCommon Description.cutRule, rfl, ?_, by decide⟩
      rw [Instruction.steps, Bytecode.steps_nil]
      exact Row.Runs.here _ []
    have hnamed := hnames 0x0c [] 0x10000 hreaches (by decide)
    rw [hrule] at hnamed
    cases hnamed
  · have hholds : FrameSection.cutAdvance.HoldsCommon (0 : UInt32).toNat
        [3, 0, 1, 0x78, 16, 0x02] :=
      ⟨by decide, by decide, by decide, by decide, by decide⟩
    have hunit : Leb128.SpellsUnsigned 1 [1] := ⟨by simp [Leb128.Complete], by decide, by decide⟩
    have hdown : Leb128.SpellsSigned (-8) [0x78] :=
      ⟨by simp [Leb128.Complete], by decide, by decide⟩
    have hreaches : CommonEntry.Reaches .little [3, 0, 1, 0x78, 16, 0x02] 16 0x02 [] :=
      CommonEntry.Reaches.intro hunit hdown Bytecode.SpellsAll.nil (List.forall_mem_nil _)
    have hnamed := hnames _ 16 0x02 [] hholds hreaches (by decide)
    rw [hadvance] at hnamed
    cases hnamed

/-- With its operands behind it the code is named. One that no instruction has always is. -/
example :
    { Description.cutRule with instructions := [0x0c, 7, 8] }.frameAddress .little .inRow
      Description.steppedCommon 0x2000 0x10000 = .error (.unsupportedInstruction 0x0c) ∧
    { Description.cutRule with instructions := [0x0d] }.frameAddress .little .inRow
      Description.steppedCommon 0x2000 0x10000 = .error (.unsupportedInstruction 0x0d) :=
  ⟨by cbv, by cbv⟩

end CallFrame
