import CallFrame.Proofs.LookupRuns

/-!
# Bytes behind the program counter

The instructions of a description are read one after the other, and what an instruction means
depends on its own bytes only. If all of them can be run, and they leave the location past the
program counter, then nothing behind them counts. The lookup either stops on the way, or it comes
to the end and stops there in front of whatever follows. What follows may also be no instruction
at all, since the lookup stops before it reads any operand.

With early timing the lookup does not stop in front of a change of the offset. So there it counts
how the bytes behind the instructions begin.
-/

namespace CallFrame

namespace Row

variable {timing : OffsetTiming} {common : CommonEntry} {pc : UInt64} {row last : Row}
  {step : Step Instruction} {steps more : List (Step Instruction)}

theorem exists_content_of_replay
    (h : row.replay common steps = .ok last) (hstep : step ∈ steps) :
    ∃ instruction, step.content = .ok instruction := by
  have hmem : step.content ∈ steps.map Step.content := List.mem_map_of_mem hstep
  rw [content_eq_of_replay h] at hmem
  obtain ⟨instruction, -, hcontent⟩ := List.mem_map.mp hmem
  exact ⟨instruction, hcontent.symm⟩

/-- Behind steps that lead past the program counter, a step that waits is never taken. -/
theorem inEffect_append_of_past
    (hreplay : row.replay common steps = .ok last) (hpast : pc < last.location)
    (hwaits : ∀ step, more.head? = some step → timing.waits step.opcode = true) :
    row.inEffect timing common pc (steps ++ more) = row.inEffect timing common pc steps := by
  induction steps generalizing row with
  | nil =>
      cases hreplay
      cases more with
      | nil =>
          rfl
      | cons step rest =>
          exact inEffect_of_stopsAt ⟨hwaits step rfl, hpast⟩ rest
  | cons step rest ih =>
      obtain ⟨instruction, next, hcontent, hnext, hrest⟩ := replay_cons_eq_ok_iff.mp hreplay
      by_cases hstop : row.StopsAt timing pc step
      · rw [List.cons_append, inEffect_of_stopsAt hstop, inEffect_of_stopsAt hstop]
      · rw [List.cons_append, inEffect_of_not_stopsAt hstop, inEffect_of_not_stopsAt hstop,
          perform_eq_ok_iff.mpr ⟨instruction, hcontent, hnext⟩]
        exact ih hrest

end Row

namespace Description

/-- The description with more bytes behind its instructions. -/
def append (description : Description) (more : Bytes) : Description :=
  { description with instructions := description.instructions ++ more }

theorem rowAt_append
    {order : ByteOrder} {timing : OffsetTiming} {common : CommonEntry}
    {description : Description} {last : Row} {pc : UInt64} {more : Bytes}
    (hreplay : (Row.first common description).replay common
      (Instruction.steps order description.instructions) = .ok last)
    (hpast : pc < last.location)
    (hwaits : ∀ opcode, more.head? = some opcode → timing.waits opcode = true) :
    (description.append more).rowAt order timing common pc =
      description.rowAt order timing common pc := by
  have hsteps : Instruction.steps order (description.append more).instructions =
      Instruction.steps order description.instructions ++ Instruction.steps order more :=
    Bytecode.steps_append (Instruction.stable_operands order)
      (fun _ hstep => Row.exists_content_of_replay hreplay hstep) more
  rw [rowAt, rowAt, hsteps]
  refine Row.inEffect_append_of_past hreplay hpast ?_
  intro step hstep
  refine hwaits step.opcode ?_
  rw [← Bytecode.map_opcode_head?_steps (Instruction.operands order) more]
  exact congrArg (Option.map Step.opcode) hstep

/-- **What is behind the program counter does not count.** If the instructions can be run to their
end and leave the location past the program counter, then any bytes behind them make no
difference. With early timing this holds of all bytes but those that begin with a change of the
offset. -/
theorem frameAddress_append_of_past
    {order : ByteOrder} {timing : OffsetTiming} {common : CommonEntry}
    {description : Description} {last : Row} {pc : UInt64}
    (hreplay : description.rowAt order timing common 0xffffffffffffffff = .ok last)
    (hpast : pc < last.location) (more : Bytes) (sp : UInt64) :
    (description.append more).frameAddress order .inRow common pc sp =
      description.frameAddress order .inRow common pc sp ∧
    (more.head? ≠ some OffsetTiming.offsetOpcode →
      (description.append more).frameAddress order .early common pc sp =
        description.frameAddress order .early common pc sp) := by
  rw [rowAt, Row.inEffect_lastAddress] at hreplay
  simp only [frameAddress_eq_rowAt]
  constructor
  · rw [rowAt_append hreplay hpast fun opcode _ => OffsetTiming.waits_inRow opcode]
  · intro hmore
    rw [rowAt_append hreplay hpast fun opcode hhead => ?_]
    refine OffsetTiming.waits_early_iff.mpr fun hopcode => hmore ?_
    rw [hhead, hopcode]

/-- A description that goes on to `0x1004`, back to `0x1000` and on to `0x1008`. -/
def wandering : Description where
  offset := 0
  commonOffset := 0
  start := 0x1000
  range := 0x10
  instructions := [0x41, 0x13, 0x7e, 0x02, 0xff, 0x13, 0x7d, 0x42]

/-- A number that is cut off stands behind the instructions, and the lookup at `0x1005` comes to
the end of them. -/
theorem frameAddress_append_of_past_wandering :
    wandering.rowAt .big .inRow steppedCommon 0xffffffffffffffff = .ok ⟨0x1008, 24⟩ ∧
    (0x1005 : UInt64) < 0x1008 ∧
    (wandering.append [0x13]).frameAddress .big .inRow steppedCommon 0x1005 0x100 =
      wandering.frameAddress .big .inRow steppedCommon 0x1005 0x100 ∧
    (wandering.append [0x03, 0xff]).frameAddress .big .early steppedCommon 0x1005 0x100 =
      wandering.frameAddress .big .early steppedCommon 0x1005 0x100 ∧
    wandering.frameAddress .big .early steppedCommon 0x1005 0x100 = .ok 0x118 := by
  have hreplay : wandering.rowAt .big .inRow steppedCommon 0xffffffffffffffff =
      .ok ⟨0x1008, 24⟩ := by cbv
  have hpast : (0x1005 : UInt64) < 0x1008 := by decide
  exact ⟨hreplay, hpast, (frameAddress_append_of_past hreplay hpast [0x13] 0x100).1,
    (frameAddress_append_of_past hreplay hpast [0x03, 0xff] 0x100).2 (by decide), by cbv⟩

/-- A change of the offset behind the instructions counts with early timing, and so does one that
cannot be read. -/
example :
    (wandering.append [0x13, 0x7f]).frameAddress .big .early steppedCommon 0x1005 0x100 =
      .ok 0x108 ∧
    (wandering.append [0x13]).frameAddress .big .early steppedCommon 0x1005 0x100 =
      .error (.outOfBytes 1 0) :=
  ⟨by cbv, by cbv⟩

end Description

end CallFrame
