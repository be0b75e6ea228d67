import CallFrame.Proofs.FrameTable

/-!
# Lookups in the materialised table

The instructions of a frame description can be run to their end, without a program counter to
stop at. This builds the whole table, from which the offset at any program counter can be read
off.

For the last address of all nothing is ever past the program counter, so the lookup there is
this run. If it succeeds, and no advance goes backwards, then every other lookup succeeds as
well and agrees with the table, although it stops early and keeps one row only.
-/

namespace CallFrame

namespace Row

variable {common : CommonEntry}

/-- At the last address nothing is past the program counter, so all the steps are run. -/
theorem inEffect_lastAddress
    (timing : OffsetTiming) (row : Row) (steps : List (Step Instruction)) :
    row.inEffect timing common 0xffffffffffffffff steps = row.replay common steps := by
  induction steps generalizing row with
  | nil =>
      rfl
  | cons step rest ih =>
      have hreached : ¬ (0xffffffffffffffff : UInt64) < row.location := by
        have hlt := row.location.toNat_lt
        rw [UInt64.lt_iff_toNat_lt]
        change ¬ 0xffffffffffffffff < row.location.toNat
        omega
      rw [inEffect, if_neg fun hstop => hreached hstop.2, replay]
      simp only [ih]

/-- Steps that are run to their end can all be read. -/
theorem content_eq_of_replay
    {row last : Row} {steps : List (Step Instruction)} (h : row.replay common steps = .ok last) :
    steps.map Step.content =
      (steps.filterMap fun step => step.content.toOption).map .ok := by
  induction steps generalizing row with
  | nil =>
      rfl
  | cons step rest ih =>
      obtain ⟨instruction, next, hcontent, -, hrest⟩ := replay_cons_eq_ok_iff.mp h
      have hread : step.content.toOption = some instruction := by
        rw [hcontent]
        rfl
      rw [List.map_cons, List.filterMap_cons, hread, List.map_cons, ih hrest, hcontent]

end Row

namespace Description

/-- The instructions of the description, as far as they can be read. -/
def program (order : ByteOrder) (description : Description) : List Instruction :=
  (Instruction.steps order description.instructions).filterMap fun step => step.content.toOption

/-- The table that the instructions build, in exact numbers: the first row begins at the start
of the description, with the offset of the common information entry. -/
def rows (order : ByteOrder) (common : CommonEntry) (description : Description) :
    List ExactRow :=
  ExactRow.table common.codeFactor.toNat common.dataFactor.toInt
    { location := description.start.toNat, offset := common.cfaOffset.toInt }
    (description.program order)

/-- A description whose instructions are run to their end has the offset that its table gives. -/
theorem cfaOffset_eq_offsetAt
    {order : ByteOrder} {common : CommonEntry} {description : Description} {last : Row}
    (hreplay : (Row.first common description).replay common
      (Instruction.steps order description.instructions) = .ok last)
    (hforward : ∀ instruction ∈ description.program order,
      instruction.MovesForward common.codeFactor.toNat) (pc : UInt64) :
    description.cfaOffset order .inRow common pc =
      .ok (Int64.ofInt (ExactRow.offsetAt pc.toNat common.cfaOffset.toInt
        (description.rows order common))) := by
  have htracks : (Row.first common description).Tracks
      { location := description.start.toNat, offset := common.cfaOffset.toInt } :=
    ⟨rfl, (Int64.ofInt_toInt common.cfaOffset).symm⟩
  obtain ⟨found, hfound, hoffset⟩ := Row.inEffect_eq_offsetAt
    (Row.content_eq_of_replay hreplay) hforward hreplay htracks (Or.inr rfl)
  rw [cfaOffset, hfound]
  exact congrArg Except.ok hoffset

/-- **Stopping early is looking up.** Where the instructions can be run to their end, which the
lookup at the last address does, and no advance moves the location backwards, the frame address
at any program counter is the stack pointer plus the offset of the last row of the table that
begins there or before. Before the first row it is the offset of the common information entry. -/
theorem frameAddress_eq_table
    {order : ByteOrder} {timing : OffsetTiming} {common : CommonEntry}
    {description : Description} {stack address : UInt64}
    (hreplay : description.frameAddress order timing common 0xffffffffffffffff stack =
      .ok address)
    (hforward : ∀ instruction ∈ description.program order,
      instruction.MovesForward common.codeFactor.toNat) (pc sp : UInt64) :
    description.frameAddress order .inRow common pc sp =
      .ok (UInt64.ofInt (sp.toNat + ExactRow.offsetAt pc.toNat common.cfaOffset.toInt
        (description.rows order common))) := by
  rw [frameAddress, cfaOffset, Row.inEffect_lastAddress] at hreplay
  rcases hrun : (Row.first common description).replay common
    (Instruction.steps order description.instructions) with fault | last
  · rw [hrun] at hreplay
    cases hreplay
  · rw [frameAddress, cfaOffset_eq_offsetAt hrun hforward, ← toUInt64_add_ofInt]
    rfl

/-- What the description below builds on: units of four addresses and of eight bytes downwards. -/
def steppedCommon : CommonEntry where
  codeFactor := 4
  dataFactor := -8
  returnRegister := 16
  cfaRegister := 7
  cfaOffset := 8
  returnOffset := none

/-- A description with two rows at its start, of which the second one has its offset changed
twice, and a last row at `0x100c`. -/
def stepped : Description where
  offset := 0
  commonOffset := 0
  start := 0x1000
  range := 0x10
  instructions := [
    0x13, 0x7e, 0x40, 0x13, 0x7d, 0x13, 0x7c, 0x41, 0x13, 0x7b, 0x03, 0x00, 0x02, 0x13, 0x7f]

theorem frameAddress_eq_table_stepped :
    stepped.frameAddress .big .early steppedCommon 0xffffffffffffffff 0 = .ok 8 ∧
    (∀ instruction ∈ stepped.program .big,
      instruction.MovesForward steppedCommon.codeFactor.toNat) ∧
    stepped.frameAddress .big .inRow steppedCommon 0xfff 0x100 = .ok 0x108 ∧
    stepped.frameAddress .big .inRow steppedCommon 0x1003 0x100 = .ok 0x120 ∧
    stepped.frameAddress .big .inRow steppedCommon 0x100b 0x100 = .ok 0x128 ∧
    stepped.frameAddress .big .inRow steppedCommon 0x100c 0xfffffffffffffffc = .ok 4 := by
  have hreplay : stepped.frameAddress .big .early steppedCommon 0xffffffffffffffff 0 =
      .ok 8 := by cbv
  have hprogram : stepped.program .big = [
      .defineCfaOffset (-2), .advance 0, .defineCfaOffset (-3), .defineCfaOffset (-4),
      .advance 1, .defineCfaOffset (-5), .advanceHalf 2, .defineCfaOffset (-1)] := by cbv
  have hforward : ∀ instruction ∈ stepped.program .big,
      instruction.MovesForward steppedCommon.codeFactor.toNat := by
    rw [hprogram]
    simp [Instruction.MovesForward, Instruction.delta?, steppedCommon]
  have hlookup := frameAddress_eq_table hreplay hforward
  rw [rows, hprogram] at hlookup
  exact ⟨hreplay, hforward, hlookup 0xfff 0x100, hlookup 0x1003 0x100, hlookup 0x100b 0x100,
    hlookup 0x100c 0xfffffffffffffffc⟩

end Description

end CallFrame
