import CallFrame.Proofs.ProgramStreams
import CallFrame.Proofs.TableLookup

/-!
# Offsets that change early

With early timing, a change of the offset still has its effect when the location is past the
program counter, and only the next advance ends the lookup. So the changes that belong to the row
behind the program counter count already.

This is the whole difference. Where every advance moves on, the lookup finds at each program
counter what the lookup in the row finds at the next location behind it. If no location is behind
the program counter, both run all the instructions and find the same.

The two lookups keep step with each other up to that location. There both apply the same changes
of the offset. Then one of them stops in front of an advance, and the other one behind it, with an
offset that the advance has not changed.
-/

namespace CallFrame

/-- An advance moves the location to a later one. -/
def Instruction.MovesOn (codeFactor : Int) (instruction : Instruction) : Prop :=
  ∀ delta, instruction.delta? = some delta → 0 < delta * codeFactor

/-- The step can only be read as an instruction with its operation code. -/
def Step.Names (step : Step Instruction) : Prop :=
  ∀ instruction, step.content = .ok instruction → instruction.opcode = step.opcode

theorem Instruction.names_of_mem_steps
    {order : ByteOrder} {bytes : Bytes} {step : Step Instruction} (h : step ∈ steps order bytes) :
    step.Names := by
  unfold steps at h
  fun_induction Bytecode.steps (operands order) bytes with
  | case1 =>
      cases h
  | case2 code bytes found rest hrun ih =>
      rcases List.mem_cons.mp h with rfl | hrest
      · intro instruction hcontent
        cases hcontent
        exact opcode_of_run_operands hrun
      · exact ih hrest
  | case3 code bytes fault rest hrun =>
      obtain rfl := List.mem_singleton.mp h
      intro instruction hcontent
      cases hcontent

/-- With early timing an advance waits for its location to be reached. -/
theorem Instruction.waits_early_of_delta
    {instruction : Instruction} {delta : Int} (h : instruction.delta? = some delta) :
    OffsetTiming.early.waits instruction.opcode = true := by
  cases instruction with
  | advance delta =>
      exact (by decide : ∀ delta : Fin 64,
        OffsetTiming.early.waits (advance delta).opcode = true) delta
  | advanceByte delta =>
      rfl
  | advanceHalf delta =>
      rfl
  | _ =>
      cases h

/-- The least of the locations past the program counter. -/
structure IsNextLocation (locations : List UInt64) (pc next : UInt64) : Prop where
  mem : next ∈ locations
  lt : pc < next
  le : ∀ location ∈ locations, pc < location → next ≤ location

theorem IsNextLocation.unique
    {locations : List UInt64} {pc next other : UInt64} (h : IsNextLocation locations pc next)
    (hother : IsNextLocation locations pc other) :
    next = other := by
  have hle := UInt64.le_iff_toNat_le.mp (h.le other hother.mem hother.lt)
  have hge := UInt64.le_iff_toNat_le.mp (hother.le next h.mem h.lt)
  exact UInt64.toNat_inj.mp (Nat.le_antisymm hle hge)

namespace Row

/-- The locations on the way through the steps, as far as they can be run. -/
def locations (common : CommonEntry) : Row → List (Step Instruction) → List UInt64
  | row, [] => [row.location]
  | row, step :: rest =>
      row.location ::
        match step.content >>= row.apply common step.opcode with
        | .ok next => locations common next rest
        | .error _ => []

variable {common : CommonEntry} {row next last : Row} {pc : UInt64} {step : Step Instruction}
  {steps rest : List (Step Instruction)} {instruction : Instruction}

theorem location_mem_locations
    (row : Row) (steps : List (Step Instruction)) :
    row.location ∈ row.locations common steps := by
  cases steps with
  | nil =>
      exact List.mem_singleton.mpr rfl
  | cons step rest =>
      exact List.mem_cons_self

theorem locations_cons
    (hcontent : step.content = .ok instruction)
    (hnext : row.apply common step.opcode instruction = .ok next) :
    row.locations common (step :: rest) = row.location :: next.locations common rest := by
  have hstep : step.content >>= row.apply common step.opcode = .ok next := by
    rw [hcontent]
    exact hnext
  rw [locations, hstep]

/-- The steps can be run to their end, where every advance moves on and waits for its location,
and every change of the offset stays in its row and does not wait. -/
inductive Ascends (common : CommonEntry) : Row → List (Step Instruction) → Prop
  | done (row : Row) : Ascends common row []
  | advance {row next : Row} {step : Step Instruction} {rest : List (Step Instruction)}
      {instruction : Instruction} (hcontent : step.content = .ok instruction)
      (hnext : row.apply common step.opcode instruction = .ok next)
      (hwaits : OffsetTiming.early.waits step.opcode = true)
      (hlt : row.location < next.location) (hoffset : next.offset = row.offset)
      (hrest : Ascends common next rest) : Ascends common row (step :: rest)
  | change {row next : Row} {step : Step Instruction} {rest : List (Step Instruction)}
      {instruction : Instruction} (hcontent : step.content = .ok instruction)
      (hnext : row.apply common step.opcode instruction = .ok next)
      (hwaits : OffsetTiming.early.waits step.opcode = false)
      (hlocation : next.location = row.location)
      (hrest : Ascends common next rest) : Ascends common row (step :: rest)

theorem ascends_of_replay
    (hreplay : row.replay common steps = .ok last)
    (hnames : ∀ step ∈ steps, step.Names)
    (hforward : ∀ step ∈ steps, ∀ instruction, step.content = .ok instruction →
      instruction.MovesOn common.codeFactor.toNat) :
    row.Ascends common steps := by
  induction steps generalizing row with
  | nil =>
      exact Ascends.done row
  | cons step rest ih =>
      obtain ⟨instruction, next, hcontent, hnext, hrest⟩ := replay_cons_eq_ok_iff.mp hreplay
      have hopcode := hnames step List.mem_cons_self instruction hcontent
      have hascends := ih hrest (fun step hstep => hnames step (List.mem_cons_of_mem _ hstep))
        (fun step hstep => hforward step (List.mem_cons_of_mem _ hstep))
      rcases apply_eq_ok hnext with ⟨delta, hdelta, hshift⟩ | ⟨factored, rfl, rfl⟩
      · obtain ⟨hlocation, hoffset⟩ := location_of_shift hshift
        have hlt := hforward step List.mem_cons_self instruction hcontent delta hdelta
        have hwaits := Instruction.waits_early_of_delta hdelta
        rw [hopcode] at hwaits
        refine Ascends.advance hcontent hnext hwaits ?_ hoffset hascends
        rw [target] at hlocation
        rw [UInt64.lt_iff_toNat_lt]
        omega
      · have hwaits : OffsetTiming.early.waits step.opcode = false := by
          rw [← hopcode]
          rfl
        exact Ascends.change hcontent hnext hwaits rfl hascends

/-- No location on the way lies before the first one. -/
theorem Ascends.location_le
    (h : row.Ascends common steps) {location : UInt64}
    (hmem : location ∈ row.locations common steps) :
    row.location ≤ location := by
  induction h with
  | done row =>
      rw [List.mem_singleton.mp hmem]
      exact UInt64.le_refl _
  | advance hcontent hnext _ hlt _ _ ih =>
      rw [locations_cons hcontent hnext] at hmem
      rcases List.mem_cons.mp hmem with rfl | hlater
      · exact UInt64.le_refl _
      · exact UInt64.le_trans (UInt64.le_of_lt hlt) (ih hlater)
  | change hcontent hnext _ hlocation _ ih =>
      rw [locations_cons hcontent hnext] at hmem
      rcases List.mem_cons.mp hmem with rfl | hlater
      · exact UInt64.le_refl _
      · exact hlocation ▸ ih hlater

/-- Past the program counter, the early lookup finds the offset of the row at the location. -/
theorem Ascends.offset_inEffect_of_lt
    (h : row.Ascends common steps) (hpast : pc < row.location) :
    Row.offset <$> row.inEffect .early common pc steps =
      Row.offset <$> row.inEffect .inRow common row.location steps := by
  induction h with
  | done row =>
      rfl
  | advance hcontent hnext hwaits hlt hoffset _ _ =>
      -- The one stops in front of the advance, and the other one right behind it.
      rw [inEffect, if_pos ⟨hwaits, hpast⟩,
        inEffect_of_not_lt (UInt64.lt_irrefl _) hcontent hnext, inEffect_of_lt hlt]
      exact congrArg Except.ok hoffset.symm
  | change hcontent hnext hwaits hlocation _ ih =>
      rw [inEffect_of_not_stops (by simp [StopsAt, hwaits]) hcontent hnext,
        inEffect_of_not_lt (UInt64.lt_irrefl _) hcontent hnext, ← hlocation]
      exact ih (hlocation ▸ hpast)

theorem Ascends.inEffect_cons
    (h : row.Ascends common (step :: rest)) :
    ∃ next : Row, next.Ascends common rest ∧
      row.locations common (step :: rest) = row.location :: next.locations common rest ∧
      ∀ timing pc, ¬ pc < row.location →
        row.inEffect timing common pc (step :: rest) = next.inEffect timing common pc rest := by
  cases h with
  | advance hcontent hnext _ _ _ hrest =>
      exact ⟨_, hrest, locations_cons hcontent hnext,
        fun timing pc hreached => inEffect_of_not_lt hreached hcontent hnext⟩
  | change hcontent hnext _ _ hrest =>
      exact ⟨_, hrest, locations_cons hcontent hnext,
        fun timing pc hreached => inEffect_of_not_lt hreached hcontent hnext⟩

/-- The early lookup finds the offset of the row at the next location. -/
theorem Ascends.exists_isNextLocation_offset_eq
    (h : row.Ascends common steps)
    (hlater : ∃ location ∈ row.locations common steps, pc < location) :
    ∃ next, IsNextLocation (row.locations common steps) pc next ∧
      Row.offset <$> row.inEffect .early common pc steps =
        Row.offset <$> row.inEffect .inRow common next steps := by
  induction steps generalizing row with
  | nil =>
      obtain ⟨location, hmem, hlt⟩ := hlater
      obtain rfl := List.mem_singleton.mp hmem
      exact ⟨row.location, ⟨hmem, hlt, fun _ hother _ => h.location_le hother⟩, rfl⟩
  | cons step rest ih =>
      by_cases hpast : pc < row.location
      · exact ⟨row.location,
          ⟨row.location_mem_locations _, hpast, fun _ hother _ => h.location_le hother⟩,
          h.offset_inEffect_of_lt hpast⟩
      · -- Both lookups go on here, since the next location is further on.
        obtain ⟨next, hascends, hlocations, hgo⟩ := h.inEffect_cons
        rw [hlocations] at hlater ⊢
        obtain ⟨location, hmem, hlt⟩ := hlater
        have hrest : location ∈ next.locations common rest := by
          rcases List.mem_cons.mp hmem with rfl | hrest
          · exact absurd hlt hpast
          · exact hrest
        obtain ⟨found, hfound, hoffset⟩ := ih hascends ⟨location, hrest, hlt⟩
        refine ⟨found, ⟨List.mem_cons_of_mem _ hfound.mem, hfound.lt, ?_⟩, ?_⟩
        · intro other hother hpc
          rcases List.mem_cons.mp hother with rfl | hother
          · exact absurd hpc hpast
          · exact hfound.le other hother hpc
        · have hmem : found ∈ row.locations common (step :: rest) := by
            rw [hlocations]
            exact List.mem_cons_of_mem _ hfound.mem
          have hreached := UInt64.not_lt.mpr (h.location_le hmem)
          rw [hgo .early pc hpast, hgo .inRow found hreached]
          exact hoffset

/-- Where every location is reached, the timing makes no difference. -/
theorem Ascends.inEffect_eq
    (h : row.Ascends common steps)
    (hreached : ∀ location ∈ row.locations common steps, location ≤ pc)
    (timing other : OffsetTiming) :
    row.inEffect timing common pc steps = row.inEffect other common pc steps := by
  induction steps generalizing row with
  | nil =>
      rfl
  | cons step rest ih =>
      have hfirst := UInt64.not_lt.mpr (hreached row.location (row.location_mem_locations _))
      obtain ⟨next, hascends, hlocations, hgo⟩ := h.inEffect_cons
      rw [hlocations] at hreached
      rw [hgo timing pc hfirst, hgo other pc hfirst]
      exact ih hascends fun location hmem => hreached location (List.mem_cons_of_mem _ hmem)

end Row

namespace Description

/-- The locations on the way through the instructions, from the start of the description on. -/
def locations (order : ByteOrder) (common : CommonEntry) (description : Description) :
    List UInt64 :=
  (Row.first common description).locations common
    (Instruction.steps order description.instructions)

theorem ascends_of_frameAddress
    {order : ByteOrder} {timing : OffsetTiming} {common : CommonEntry}
    {description : Description} {stack address : UInt64}
    (hreplay : description.frameAddress order timing common 0xffffffffffffffff stack =
      .ok address)
    (hforward : ∀ instruction ∈ description.program order,
      instruction.MovesOn common.codeFactor.toNat) :
    (Row.first common description).Ascends common
      (Instruction.steps order description.instructions) := by
  rw [frameAddress, cfaOffset, Row.inEffect_lastAddress] at hreplay
  rcases hrun : (Row.first common description).replay common
    (Instruction.steps order description.instructions) with fault | last
  · rw [hrun] at hreplay
    cases hreplay
  · refine Row.ascends_of_replay hrun (fun _ hstep => Instruction.names_of_mem_steps hstep) ?_
    intro step hstep instruction hcontent
    refine hforward instruction (List.mem_filterMap.mpr ⟨step, hstep, ?_⟩)
    rw [hcontent]
    rfl

/-- **Early is one row early.** Where the instructions can be run to their end and every advance
moves on, the early lookup at a program counter finds what the lookup in the row finds at the next
location. Where there is none, both find the same at the program counter. -/
theorem frameAddress_early_eq_next
    {order : ByteOrder} {timing : OffsetTiming} {common : CommonEntry}
    {description : Description} {stack address : UInt64}
    (hreplay : description.frameAddress order timing common 0xffffffffffffffff stack =
      .ok address)
    (hforward : ∀ instruction ∈ description.program order,
      instruction.MovesOn common.codeFactor.toNat) (pc sp : UInt64) :
    ((∃ location ∈ description.locations order common, pc < location) →
      ∃ next, IsNextLocation (description.locations order common) pc next ∧
        description.frameAddress order .early common pc sp =
          description.frameAddress order .inRow common next sp) ∧
    ((∀ location ∈ description.locations order common, location ≤ pc) →
      description.frameAddress order .early common pc sp =
        description.frameAddress order .inRow common pc sp) := by
  have hascends := ascends_of_frameAddress hreplay hforward
  constructor
  · intro hlater
    obtain ⟨next, hnext, hoffset⟩ := hascends.exists_isNextLocation_offset_eq hlater
    refine ⟨next, hnext, ?_⟩
    rw [frameAddress, frameAddress, cfaOffset, cfaOffset, hoffset]
  · intro hreached
    rw [frameAddress, frameAddress, cfaOffset, cfaOffset, hascends.inEffect_eq hreached]

/-- A description with rows at `0x1000`, `0x1004` and `0x100c`, and with an advance at its end. -/
def striding : Description where
  offset := 0
  commonOffset := 0
  start := 0x1000
  range := 0x10
  instructions := [0x13, 0x7e, 0x41, 0x13, 0x7d, 0x13, 0x7c, 0x02, 0x02, 0x13, 0x7b, 0x41]

/-- In front of the first row, in a row, in front of the location at the end, and from there on. -/
theorem frameAddress_early_eq_next_striding :
    striding.frameAddress .big .inRow steppedCommon 0xffffffffffffffff 0 = .ok 0x28 ∧
    (∀ instruction ∈ striding.program .big,
      instruction.MovesOn steppedCommon.codeFactor.toNat) ∧
    striding.locations .big steppedCommon =
      [0x1000, 0x1000, 0x1004, 0x1004, 0x1004, 0x100c, 0x100c, 0x1010] ∧
    striding.frameAddress .big .early steppedCommon 0xfff 0x100 =
      striding.frameAddress .big .inRow steppedCommon 0x1000 0x100 ∧
    striding.frameAddress .big .early steppedCommon 0x1003 0x100 =
      striding.frameAddress .big .inRow steppedCommon 0x1004 0x100 ∧
    striding.frameAddress .big .inRow steppedCommon 0x1003 0x100 = .ok 0x110 ∧
    striding.frameAddress .big .inRow steppedCommon 0x1004 0x100 = .ok 0x120 ∧
    striding.frameAddress .big .early steppedCommon 0x100f 0x100 =
      striding.frameAddress .big .inRow steppedCommon 0x1010 0x100 ∧
    striding.frameAddress .big .early steppedCommon 0x1010 0x100 =
      striding.frameAddress .big .inRow steppedCommon 0x1010 0x100 := by
  have hreplay : striding.frameAddress .big .inRow steppedCommon 0xffffffffffffffff 0 =
      .ok 0x28 := by cbv
  have hprogram : striding.program .big = [
      .defineCfaOffset (-2), .advance 1, .defineCfaOffset (-3), .defineCfaOffset (-4),
      .advanceByte 2, .defineCfaOffset (-5), .advance 1] := by cbv
  have hforward : ∀ instruction ∈ striding.program .big,
      instruction.MovesOn steppedCommon.codeFactor.toNat := by
    rw [hprogram]
    simp [Instruction.MovesOn, Instruction.delta?, steppedCommon]
  have hlocations : striding.locations .big steppedCommon =
      [0x1000, 0x1000, 0x1004, 0x1004, 0x1004, 0x100c, 0x100c, 0x1010] := by cbv
  have hlookup := frameAddress_early_eq_next hreplay hforward
  -- The next location is the only one there can be, so the one that is found is the one given.
  have hnext : ∀ pc next, IsNextLocation (striding.locations .big steppedCommon) pc next →
      striding.frameAddress .big .early steppedCommon pc 0x100 =
        striding.frameAddress .big .inRow steppedCommon next 0x100 := by
    intro pc next hnext
    obtain ⟨found, hfound, hequal⟩ := (hlookup pc 0x100).1 ⟨next, hnext.mem, hnext.lt⟩
    rwa [hfound.unique hnext] at hequal
  rw [hlocations] at hnext hlookup
  exact ⟨hreplay, hforward, hlocations, hnext 0xfff 0x1000 ⟨by simp, by decide, by simp⟩,
    hnext 0x1003 0x1004 ⟨by simp, by decide, by simp⟩, by cbv, by cbv,
    hnext 0x100f 0x1010 ⟨by simp, by decide, by simp⟩, (hlookup 0x1010 0x100).2 (by simp)⟩

end Description

end CallFrame
