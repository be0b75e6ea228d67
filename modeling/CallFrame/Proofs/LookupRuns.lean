import CallFrame.Proofs.TableLookup

/-!
# The run of a lookup

A lookup takes one step after the other, until it has taken all of them, until it leaves one out
and stops there, or until one cannot be taken. Its way is described by a relation between the
places that it comes to. A place is a row, and the steps that are ahead of it. The lookup meets
the steps that it comes to and does not leave out, and it fails exactly if it meets one that
cannot be taken.

Where the lookup for one program counter goes on, the lookup for a later one goes on as well. So
it meets all the steps that the other one meets, at the same rows, and perhaps more. This holds
wherever the location moves, also backwards. What fails for one program counter therefore fails
for all later ones, and with the same fault.
-/

namespace CallFrame

namespace Row

variable {timing : OffsetTiming} {common : CommonEntry} {pc later : UInt64}
  {first row next last : Row} {step : Step Instruction}
  {steps rest left : List (Step Instruction)} {fault : Fault}

theorem StopsAt.of_le
    (hle : pc ≤ later) (h : row.StopsAt timing later step) :
    row.StopsAt timing pc step :=
  ⟨h.1, UInt64.lt_of_le_of_lt hle h.2⟩

/-- The way from one place to another, on which no step is left out. -/
inductive Runs (timing : OffsetTiming) (common : CommonEntry) (pc : UInt64) :
    Row → List (Step Instruction) → Row → List (Step Instruction) → Prop
  | here (row : Row) (steps : List (Step Instruction)) : Runs timing common pc row steps row steps
  | further {row next last : Row} {step : Step Instruction} {rest left : List (Step Instruction)}
      (hgo : ¬ row.StopsAt timing pc step) (hnext : row.perform common step = .ok next)
      (hrest : Runs timing common pc next rest last left) :
      Runs timing common pc row (step :: rest) last left

theorem Runs.inEffect_eq
    (h : Runs timing common pc row steps last left) :
    row.inEffect timing common pc steps = last.inEffect timing common pc left := by
  induction h with
  | here row steps =>
      rfl
  | further hgo hnext _ ih =>
      rw [inEffect_of_not_stopsAt hgo, hnext]
      exact ih

/-- A later program counter is no reason to stop earlier. -/
theorem Runs.mono
    (hle : pc ≤ later) (h : Runs timing common pc row steps last left) :
    Runs timing common later row steps last left := by
  induction h with
  | here row steps =>
      exact Runs.here row steps
  | further hgo hnext _ ih =>
      exact Runs.further (fun hstop => hgo (hstop.of_le hle)) hnext ih

theorem Runs.suffix
    (h : Runs timing common pc row steps last left) :
    left <:+ steps := by
  induction h with
  | here row steps =>
      exact List.suffix_refl steps
  | further _ _ _ ih =>
      exact ih.trans (List.suffix_cons _ _)

/-- The lookup comes to the step at this row, and does not stop in front of it. -/
def Meets (timing : OffsetTiming) (common : CommonEntry) (pc : UInt64) (first : Row)
    (steps : List (Step Instruction)) (row : Row) (step : Step Instruction) : Prop :=
  ∃ rest, Runs timing common pc first steps row (step :: rest) ∧ ¬ row.StopsAt timing pc step

theorem Meets.mono
    (hle : pc ≤ later) (h : Meets timing common pc first steps row step) :
    Meets timing common later first steps row step := by
  obtain ⟨rest, hruns, hgo⟩ := h
  exact ⟨rest, hruns.mono hle, fun hstop => hgo (hstop.of_le hle)⟩

theorem Meets.mem
    (h : Meets timing common pc first steps row step) :
    step ∈ steps := by
  obtain ⟨rest, hruns, -⟩ := h
  exact hruns.suffix.subset List.mem_cons_self

theorem meets_cons_of_not_stopsAt
    (hgo : ¬ first.StopsAt timing pc step) (rest : List (Step Instruction)) :
    Meets timing common pc first (step :: rest) first step :=
  ⟨rest, Runs.here first (step :: rest), hgo⟩

/-- The lookup fails exactly if it meets a step that cannot be taken, and with the fault of that
step. -/
theorem inEffect_eq_error_iff :
    first.inEffect timing common pc steps = .error fault ↔
      ∃ row step, Meets timing common pc first steps row step ∧
        row.perform common step = .error fault := by
  constructor
  · intro h
    induction steps generalizing first with
    | nil =>
        cases h
    | cons step rest ih =>
        by_cases hstop : first.StopsAt timing pc step
        · rw [inEffect_of_stopsAt hstop] at h
          cases h
        · rw [inEffect_of_not_stopsAt hstop] at h
          rcases hnext : first.perform common step with other | next
          · rw [hnext] at h
            cases h
            exact ⟨first, step, meets_cons_of_not_stopsAt hstop rest, hnext⟩
          · rw [hnext] at h
            obtain ⟨row, met, ⟨left, hruns, hgo⟩, hfault⟩ := ih h
            exact ⟨row, met, ⟨left, Runs.further hstop hnext hruns, hgo⟩, hfault⟩
  · rintro ⟨row, step, ⟨rest, hruns, hgo⟩, hfault⟩
    rw [hruns.inEffect_eq, inEffect_of_not_stopsAt hgo, hfault]
    rfl

end Row

namespace Description

/-- The row in effect at a program counter. -/
def rowAt (order : ByteOrder) (timing : OffsetTiming) (common : CommonEntry)
    (description : Description) (pc : UInt64) : Except Fault Row :=
  Row.inEffect timing common pc (.first common description)
    (Instruction.steps order description.instructions)

theorem frameAddress_eq_rowAt
    (order : ByteOrder) (timing : OffsetTiming) (common : CommonEntry)
    (description : Description) (pc sp : UInt64) :
    description.frameAddress order timing common pc sp =
      (fun offset => (sp.toInt64 + offset).toUInt64) <$>
        Row.offset <$> description.rowAt order timing common pc :=
  rfl

/-- The lookup at a program counter comes to the step at this row, and does not stop in front of
it. -/
def Meets (order : ByteOrder) (timing : OffsetTiming) (common : CommonEntry)
    (description : Description) (pc : UInt64) (row : Row) (step : Step Instruction) : Prop :=
  Row.Meets timing common pc (.first common description)
    (Instruction.steps order description.instructions) row step

theorem frameAddress_eq_error_iff
    {order : ByteOrder} {timing : OffsetTiming} {common : CommonEntry}
    {description : Description} {pc sp : UInt64} {fault : Fault} :
    description.frameAddress order timing common pc sp = .error fault ↔
      ∃ row step, description.Meets order timing common pc row step ∧
        row.perform common step = .error fault := by
  rw [frameAddress_eq_rowAt, map_eq_error_iff, map_eq_error_iff]
  exact Row.inEffect_eq_error_iff

/-- **Faults persist.** A lookup that fails fails in the same way at all later program counters,
and one that succeeds succeeds at all earlier ones. The stack pointers do not matter. -/
theorem frameAddress_error_of_le
    {order : ByteOrder} {timing : OffsetTiming} {common : CommonEntry}
    {description : Description} {pc later : UInt64} (hle : pc ≤ later) (sp laterSp : UInt64) :
    (∀ fault, description.frameAddress order timing common pc sp = .error fault →
      description.frameAddress order timing common later laterSp = .error fault) ∧
    (∀ address, description.frameAddress order timing common later laterSp = .ok address →
      ∃ found, description.frameAddress order timing common pc sp = .ok found) := by
  have hpersists : ∀ fault, description.frameAddress order timing common pc sp = .error fault →
      description.frameAddress order timing common later laterSp = .error fault := by
    intro fault hfault
    obtain ⟨row, step, hmeets, hperform⟩ := frameAddress_eq_error_iff.mp hfault
    exact frameAddress_eq_error_iff.mpr ⟨row, step, hmeets.mono hle, hperform⟩
  refine ⟨hpersists, ?_⟩
  intro address haddress
  rcases hfound : description.frameAddress order timing common pc sp with fault | found
  · rw [hpersists fault hfound] at haddress
    cases haddress
  · exact ⟨found, rfl⟩

/-- A description that goes on to `0x1004`, back to `0x1000` and on to `0x1008`, where an
instruction stands that is not supported. -/
def returning : Description where
  offset := 0
  commonOffset := 0
  start := 0x1000
  range := 0x10
  instructions := [0x41, 0x13, 0x7e, 0x02, 0xff, 0x13, 0x7d, 0x42, 0x0a]

/-- The fault is met from `0x1008` on. In front of `0x1004` the lookup stops early, and between
the two it stops in front of the fault. -/
theorem frameAddress_error_of_le_returning :
    (0x1008 : UInt64) ≤ 0x2000 ∧
    returning.frameAddress .big .inRow steppedCommon 0x1008 0x100 =
      .error (.unsupportedInstruction 0x0a) ∧
    returning.frameAddress .big .inRow steppedCommon 0x2000 0x200 =
      .error (.unsupportedInstruction 0x0a) ∧
    (0x1003 : UInt64) ≤ 0x1007 ∧
    returning.frameAddress .big .inRow steppedCommon 0x1007 0x100 = .ok 0x118 ∧
    ∃ found, returning.frameAddress .big .inRow steppedCommon 0x1003 0x200 = .ok found := by
  have hfault : returning.frameAddress .big .inRow steppedCommon 0x1008 0x100 =
      .error (.unsupportedInstruction 0x0a) := by cbv
  have hfound : returning.frameAddress .big .inRow steppedCommon 0x1007 0x100 = .ok 0x118 := by
    cbv
  have hlater : (0x1008 : UInt64) ≤ 0x2000 := by decide
  have hearlier : (0x1003 : UInt64) ≤ 0x1007 := by decide
  exact ⟨hlater, hfault, (frameAddress_error_of_le hlater 0x100 0x200).1 _ hfault, hearlier,
    hfound, (frameAddress_error_of_le hearlier 0x200 0x100).2 _ hfound⟩

end Description

end CallFrame
