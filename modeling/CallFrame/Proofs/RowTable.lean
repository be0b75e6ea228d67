import CallFrame.Row

/-!
# The table of rows

The instructions of a frame description stand for a table. Its first row begins at the start
of the description; an advance opens a new row further on with the offset of the row before;
a change of the offset replaces the offset of the row that is open. Here the table is built
as a whole, with all numbers exact.

Finding the row in effect at a program counter never builds the table. It keeps one row and
stops at the first instruction that is met past the program counter. Where the instructions
do not move the location backwards and can be run to their end, both agree: what is found is
the offset of the last row of the table that begins at the program counter or before.
-/

namespace CallFrame

/-- By how many units of code the instruction moves the location, if it does. -/
def Instruction.delta? : Instruction → Option Int
  | .advance delta => some delta.val
  | .advanceByte delta => some delta.toInt
  | .advanceHalf delta => some delta.toInt
  | _ => none

def Instruction.MovesForward (codeFactor : Int) (instruction : Instruction) : Prop :=
  ∀ delta, instruction.delta? = some delta → 0 ≤ delta * codeFactor

/-- The instruction changes the offset, or moves forward by a distance that fits into a signed
word. -/
def Instruction.IsRunnable (codeFactor : Int) (instruction : Instruction) : Prop :=
  (∃ factored, instruction = .defineCfaOffset factored) ∨
  (∃ delta, instruction.delta? = some delta ∧ 0 ≤ delta * codeFactor ∧
    delta * codeFactor < 0x8000000000000000)

theorem Instruction.IsRunnable.movesForward
    {codeFactor : Int} {instruction : Instruction} (h : instruction.IsRunnable codeFactor) :
    instruction.MovesForward codeFactor := by
  intro delta hdelta
  rcases h with ⟨factored, rfl⟩ | ⟨found, hfound, hzero, -⟩
  · cases hdelta
  · rw [hfound] at hdelta
    cases hdelta
    exact hzero

/-- A row of the table, in exact numbers. -/
structure ExactRow where
  location : Int
  offset : Int

namespace ExactRow

variable {codeFactor dataFactor : Int}

/-- The row with the offset that an instruction gives it, if it gives one. -/
def redefine (dataFactor : Int) (row : ExactRow) : Instruction → ExactRow
  | .defineCfaOffset factored => { row with offset := factored.toInt * dataFactor }
  | _ => row

/-- The rows from the given one on, when all the instructions are run. -/
def table (codeFactor dataFactor : Int) : ExactRow → List Instruction → List ExactRow
  | row, [] => [row]
  | row, instruction :: rest =>
      match instruction.delta? with
      | some delta =>
          row :: table codeFactor dataFactor
            { row with location := row.location + delta * codeFactor } rest
      | none => table codeFactor dataFactor (row.redefine dataFactor instruction) rest

/-- The offset of the last row that begins at the address or before; the given one if no row
does. -/
def offsetAt (pc : Int) (before : Int) (rows : List ExactRow) : Int :=
  ((rows.filter (fun row => row.location ≤ pc)).getLast?.map ExactRow.offset).getD before

theorem offsetAt_cons
    (pc before : Int) (row : ExactRow) (rows : List ExactRow) :
    offsetAt pc before (row :: rows) =
      offsetAt pc (if row.location ≤ pc then row.offset else before) rows := by
  by_cases hrow : row.location ≤ pc
  · simp only [offsetAt, List.filter_cons, hrow, decide_true, if_true, List.getLast?_cons,
      Option.map_some, Option.getD_some]
    exact (Option.getD_map ExactRow.offset row _).symm
  · simp [offsetAt, hrow]

theorem offsetAt_of_forall_lt
    {pc : Int} {rows : List ExactRow} (h : ∀ row ∈ rows, pc < row.location) (before : Int) :
    offsetAt pc before rows = before := by
  have hnone : rows.filter (fun row => row.location ≤ pc) = [] := by
    rw [List.filter_eq_nil_iff]
    intro row hrow
    have := h row hrow
    simp only [decide_eq_true_eq]
    omega
  rw [offsetAt, hnone]
  rfl

theorem table_cons_of_delta
    {instruction : Instruction} {delta : Int} (h : instruction.delta? = some delta)
    (row : ExactRow) (rest : List Instruction) :
    table codeFactor dataFactor row (instruction :: rest) =
      row :: table codeFactor dataFactor
        { row with location := row.location + delta * codeFactor } rest := by
  rw [table, h]

theorem table_cons_defineCfaOffset
    (row : ExactRow) (factored : Int64) (rest : List Instruction) :
    table codeFactor dataFactor row (.defineCfaOffset factored :: rest) =
      table codeFactor dataFactor { row with offset := factored.toInt * dataFactor } rest :=
  rfl

theorem exists_mem_table
    (row : ExactRow) (instructions : List Instruction) :
    ∃ first ∈ table codeFactor dataFactor row instructions, first.location = row.location := by
  induction instructions generalizing row with
  | nil =>
      exact ⟨row, List.mem_singleton.mpr rfl, rfl⟩
  | cons instruction rest ih =>
      rw [table]
      rcases instruction.delta? with _ | delta
      · obtain ⟨first, hmem, hlocation⟩ := ih (row.redefine dataFactor instruction)
        refine ⟨first, hmem, hlocation.trans ?_⟩
        cases instruction <;> rfl
      · exact ⟨row, List.mem_cons_self, rfl⟩

/-- Instructions that do not move backwards open no row before the first. -/
theorem le_location_of_mem_table
    {instructions : List Instruction}
    (h : ∀ instruction ∈ instructions, instruction.MovesForward codeFactor)
    {row later : ExactRow} (hlater : later ∈ table codeFactor dataFactor row instructions) :
    row.location ≤ later.location := by
  induction instructions generalizing row with
  | nil =>
      obtain rfl := List.mem_singleton.mp hlater
      exact Int.le_refl _
  | cons instruction rest ih =>
      have hrest := fun other hother => h other (List.mem_cons_of_mem instruction hother)
      rcases hdelta : instruction.delta? with _ | delta
      · rw [table, hdelta] at hlater
        have hle := ih hrest hlater
        cases instruction <;> exact hle
      · rw [table_cons_of_delta hdelta] at hlater
        have hforward := h instruction List.mem_cons_self delta hdelta
        rcases List.mem_cons.mp hlater with rfl | hlater
        · exact Int.le_refl _
        · have hle := ih hrest hlater
          simp only at hle
          omega

end ExactRow

namespace Row

variable {common : CommonEntry}

/-- The row after all the steps, run without stopping. -/
def replay (common : CommonEntry) : Row → List (Step Instruction) → Except Fault Row
  | row, [] => .ok row
  | row, step :: rest => do
      let instruction ← step.content
      let row ← row.apply common step.opcode instruction
      replay common row rest

theorem replay_cons_eq_ok_iff
    {row last : Row} {step : Step Instruction} {rest : List (Step Instruction)} :
    row.replay common (step :: rest) = .ok last ↔
      ∃ instruction next, step.content = .ok instruction ∧
        row.apply common step.opcode instruction = .ok next ∧
        next.replay common rest = .ok last := by
  rw [replay, bind_eq_ok_iff]
  constructor
  · rintro ⟨instruction, hcontent, h⟩
    obtain ⟨next, hnext, hrest⟩ := bind_eq_ok_iff.mp h
    exact ⟨instruction, next, hcontent, hnext, hrest⟩
  · rintro ⟨instruction, next, hcontent, hnext, hrest⟩
    exact ⟨instruction, hcontent, bind_eq_ok_iff.mpr ⟨next, hnext, hrest⟩⟩

theorem apply_of_delta
    {instruction : Instruction} {delta : Int} (h : instruction.delta? = some delta)
    (row : Row) (opcode : UInt8) :
    row.apply common opcode instruction = row.shift common.codeFactor delta := by
  cases instruction <;> cases h <;> rfl

/-- What an instruction can do to a row: move its location, or replace its offset. -/
theorem apply_eq_ok
    {row next : Row} {opcode : UInt8} {instruction : Instruction}
    (h : row.apply common opcode instruction = .ok next) :
    (∃ delta, instruction.delta? = some delta ∧
      row.shift common.codeFactor delta = .ok next) ∨
    (∃ factored, instruction = .defineCfaOffset factored ∧
      next = { row with offset := factored * common.dataFactor }) := by
  cases instruction with
  | advance delta =>
      exact Or.inl ⟨delta.val, rfl, h⟩
  | advanceByte delta =>
      exact Or.inl ⟨delta.toInt, rfl, h⟩
  | advanceHalf delta =>
      exact Or.inl ⟨delta.toInt, rfl, h⟩
  | defineCfaOffset factored =>
      cases h
      exact Or.inr ⟨factored, rfl, rfl⟩
  | nop =>
      cases h
  | defineCfa register offset =>
      cases h
  | saved register factored =>
      cases h

/-- The row stands for the exact row: the location is an address, and the offset is stored
in 64 bits. -/
structure Tracks (row : Row) (exact : ExactRow) : Prop where
  location_eq : (row.location.toNat : Int) = exact.location
  offset_eq : row.offset = Int64.ofInt exact.offset

theorem Tracks.shift
    {row next : Row} {exact : ExactRow} {delta : Int} (h : row.Tracks exact)
    (hshift : row.shift common.codeFactor delta = .ok next) :
    next.Tracks
      { exact with location := exact.location + delta * common.codeFactor.toNat } := by
  obtain ⟨hlocation, hoffset⟩ := location_of_shift hshift
  exact ⟨by rw [hlocation, target, h.location_eq], by rw [hoffset, h.offset_eq]⟩

theorem Tracks.defineCfaOffset
    {row : Row} {exact : ExactRow} (h : row.Tracks exact) (factored : Int64) :
    Tracks { row with offset := factored * common.dataFactor }
      { exact with offset := factored.toInt * common.dataFactor.toInt } :=
  ⟨h.location_eq, by rw [Int64.ofInt_mul, Int64.ofInt_toInt, Int64.ofInt_toInt]⟩

/-- The lookup stops in front of the step: the step waits, and the location is past the program
counter. -/
def StopsAt (timing : OffsetTiming) (pc : UInt64) (row : Row) (step : Step Instruction) : Prop :=
  timing.waits step.opcode ∧ pc < row.location

/-- The row after a step. -/
def perform (common : CommonEntry) (row : Row) (step : Step Instruction) : Except Fault Row := do
  let instruction ← step.content
  row.apply common step.opcode instruction

theorem perform_eq_ok_iff
    {row next : Row} {step : Step Instruction} :
    row.perform common step = .ok next ↔
      ∃ instruction, step.content = .ok instruction ∧
        row.apply common step.opcode instruction = .ok next :=
  bind_eq_ok_iff

theorem inEffect_of_stopsAt
    {timing : OffsetTiming} {row : Row} {pc : UInt64} {step : Step Instruction}
    (h : row.StopsAt timing pc step) (rest : List (Step Instruction)) :
    row.inEffect timing common pc (step :: rest) = .ok row := by
  rw [inEffect]
  exact if_pos h

/-- A step that does not wait, or whose location is reached, is taken. -/
theorem inEffect_of_not_stopsAt
    {timing : OffsetTiming} {row : Row} {pc : UInt64} {step : Step Instruction}
    (h : ¬ row.StopsAt timing pc step) (rest : List (Step Instruction)) :
    row.inEffect timing common pc (step :: rest) =
      (row.perform common step >>= fun next => next.inEffect timing common pc rest) := by
  rw [inEffect, perform, bind_assoc]
  exact if_neg h

/-- In the row, a location past the program counter ends every replay. -/
theorem inEffect_of_lt
    {row : Row} {pc : UInt64} (h : pc < row.location) (steps : List (Step Instruction)) :
    row.inEffect .inRow common pc steps = .ok row := by
  cases steps with
  | nil =>
      rfl
  | cons step rest =>
      exact inEffect_of_stopsAt ⟨OffsetTiming.waits_inRow step.opcode, h⟩ rest

theorem inEffect_of_not_stops
    {timing : OffsetTiming} {row next : Row} {pc : UInt64} {step : Step Instruction}
    {rest : List (Step Instruction)} {instruction : Instruction}
    (h : ¬ row.StopsAt timing pc step) (hcontent : step.content = .ok instruction)
    (hnext : row.apply common step.opcode instruction = .ok next) :
    row.inEffect timing common pc (step :: rest) =
      next.inEffect timing common pc rest := by
  rw [inEffect_of_not_stopsAt h, perform_eq_ok_iff.mpr ⟨instruction, hcontent, hnext⟩]
  rfl

theorem inEffect_of_not_lt
    {timing : OffsetTiming} {row next : Row} {pc : UInt64} {step : Step Instruction}
    {rest : List (Step Instruction)} {instruction : Instruction}
    (h : ¬ pc < row.location) (hcontent : step.content = .ok instruction)
    (hnext : row.apply common step.opcode instruction = .ok next) :
    row.inEffect timing common pc (step :: rest) =
      next.inEffect timing common pc rest :=
  inEffect_of_not_stops (fun hstop => h hstop.2) hcontent hnext

/-- Where nothing moves backwards and everything can be run, the row in effect has the
offset that the table gives. -/
theorem inEffect_eq_offsetAt
    {steps : List (Step Instruction)} {instructions : List Instruction}
    {row last : Row} {exact : ExactRow} {pc : UInt64} {before : Int}
    (hsteps : steps.map Step.content = instructions.map .ok)
    (hforward : ∀ instruction ∈ instructions,
      instruction.MovesForward common.codeFactor.toNat)
    (hreplay : row.replay common steps = .ok last)
    (htracks : row.Tracks exact)
    (hbefore : exact.location ≤ pc.toNat ∨ exact.offset = before) :
    ∃ found, row.inEffect .inRow common pc steps = .ok found ∧
      found.offset = Int64.ofInt (ExactRow.offsetAt pc.toNat before
        (ExactRow.table common.codeFactor.toNat common.dataFactor.toInt exact
          instructions)) := by
  induction steps generalizing instructions row exact before with
  | nil =>
      have hnil : instructions = [] := List.map_eq_nil_iff.mp hsteps.symm
      subst hnil
      refine ⟨row, rfl, ?_⟩
      rw [htracks.offset_eq, ExactRow.table, ExactRow.offsetAt_cons]
      by_cases hreached : exact.location ≤ pc.toNat
      · rw [if_pos hreached]
        rfl
      · rw [if_neg hreached, hbefore.resolve_left hreached]
        rfl
  | cons step rest ih =>
      obtain ⟨instruction, others, rfl, hcontent, hrest⟩ := List.map_eq_cons_iff.mp hsteps.symm
      have hothers := fun other hother =>
        hforward other (List.mem_cons_of_mem instruction hother)
      obtain ⟨_, next, hread, hnext, hafter⟩ := replay_cons_eq_ok_iff.mp hreplay
      obtain rfl := Except.ok.inj (hread.symm.trans hcontent.symm)
      by_cases hpast : pc < row.location
      · -- The replay stops here, and no row from here on begins early enough to count.
        have hlater : (pc.toNat : Int) < exact.location := by
          have := UInt64.lt_iff_toNat_lt.mp hpast
          have := htracks.location_eq
          omega
        refine ⟨row, inEffect_of_lt hpast (step :: rest), ?_⟩
        rw [htracks.offset_eq, hbefore.resolve_left (Int.not_le.mpr hlater),
          ExactRow.offsetAt_of_forall_lt]
        intro other hother
        exact Int.lt_of_lt_of_le hlater (ExactRow.le_location_of_mem_table hforward hother)
      · have hreached : exact.location ≤ pc.toNat := by
          have := Nat.not_lt.mp (fun h => hpast (UInt64.lt_iff_toNat_lt.mpr h))
          have := htracks.location_eq
          omega
        rw [inEffect_of_not_lt hpast hcontent.symm hnext]
        rcases apply_eq_ok hnext with ⟨delta, hdelta, hshift⟩ | ⟨factored, rfl, rfl⟩
        · rw [ExactRow.table_cons_of_delta hdelta, ExactRow.offsetAt_cons, if_pos hreached]
          exact ih hrest.symm hothers hafter (htracks.shift hshift) (Or.inr rfl)
        · rw [ExactRow.table_cons_defineCfaOffset]
          exact ih hrest.symm hothers hafter (htracks.defineCfaOffset factored)
            (Or.inl hreached)

/-- Instructions that can be run, without a location outside of the address space, are run
to their end. -/
theorem exists_replay_eq_ok
    {steps : List (Step Instruction)} {instructions : List Instruction}
    {row : Row} {exact : ExactRow}
    (hsteps : steps.map Step.content = instructions.map .ok)
    (hfactor : common.codeFactor.toNat < 0x8000000000000000)
    (hrunnable : ∀ instruction ∈ instructions,
      instruction.IsRunnable common.codeFactor.toNat)
    (hlocations : ∀ other ∈ ExactRow.table common.codeFactor.toNat common.dataFactor.toInt
      exact instructions, other.location < 0x10000000000000000)
    (htracks : row.Tracks exact) :
    ∃ last, row.replay common steps = .ok last := by
  induction steps generalizing instructions row exact with
  | nil =>
      exact ⟨row, rfl⟩
  | cons step rest ih =>
      obtain ⟨instruction, others, rfl, hcontent, hrest⟩ := List.map_eq_cons_iff.mp hsteps.symm
      have hothers := fun other hother =>
        hrunnable other (List.mem_cons_of_mem instruction hother)
      rcases hrunnable instruction List.mem_cons_self with
        ⟨factored, rfl⟩ | ⟨delta, hdelta, hzero, hlt⟩
      · obtain ⟨last, hlast⟩ := ih hrest.symm hothers hlocations
          (htracks.defineCfaOffset factored)
        exact ⟨last, replay_cons_eq_ok_iff.mpr
          ⟨.defineCfaOffset factored, _, hcontent.symm, rfl, hlast⟩⟩
      · rw [ExactRow.table_cons_of_delta hdelta] at hlocations
        have htail := fun other hother => hlocations other (List.mem_cons_of_mem _ hother)
        -- The row that the advance opens is in the table, so its location is an address.
        have hopened : exact.location + delta * common.codeFactor.toNat <
            0x10000000000000000 := by
          obtain ⟨first, hfirst, hlocation⟩ := ExactRow.exists_mem_table _ others
          have hlt := htail first hfirst
          rwa [hlocation] at hlt
        have hlocation := htracks.location_eq
        obtain ⟨next, hshift⟩ : ∃ next, row.shift common.codeFactor delta = .ok next := by
          rw [shift, if_pos]
          · exact ⟨_, rfl⟩
          · simp only [fitsSigned_iff, fitsUnsigned_iff, target]
            omega
        obtain ⟨last, hlast⟩ := ih hrest.symm hothers htail (htracks.shift hshift)
        exact ⟨last, replay_cons_eq_ok_iff.mpr
          ⟨instruction, next, hcontent.symm, (apply_of_delta hdelta row _).trans hshift, hlast⟩⟩

end Row

end CallFrame
