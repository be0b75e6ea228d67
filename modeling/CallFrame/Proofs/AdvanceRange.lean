import CallFrame.Proofs.LookupRuns
import CallFrame.Proofs.ReaderFaults

/-!
# Advances and the address space

An advance moves the location by its delta times the code factor. The target is computed exactly,
and it has to be an address: advances that leave the address space are faults, which name the
location that they start from.

On the way to the target, the factor and the distance have to fit into signed words too. So some
advances fail although their target is an address. The factor may be too large, even for a delta
of zero, or the distance may be half of the address space or more. All other advances move the
location to exactly their target, and a lookup reports a location that overflows in no other case
than that it meets an advance which fails.
-/

namespace CallFrame

/-- The step is an advance by so many units of code. -/
def Step.Advances (step : Step Instruction) (delta : Int) : Prop :=
  ∃ instruction, step.content = .ok instruction ∧ instruction.delta? = some delta

/-- The factor or the distance of the advance does not fit into a signed word. -/
def Oversized (factor : UInt64) (delta : Int) : Prop :=
  ¬ FitsSigned factor.toNat ∨ ¬ FitsSigned (delta * factor.toNat)

namespace Row

variable {common : CommonEntry} {row : Row} {step : Step Instruction} {factor : UInt64}
  {delta : Int} {fault : Fault}

/-- The exact target of the advance is no address. -/
def Leaves (row : Row) (factor : UInt64) (delta : Int) : Prop :=
  row.target factor delta < 0 ∨ 0x10000000000000000 ≤ row.target factor delta

theorem fitsUnsigned_target_iff :
    FitsUnsigned (row.target factor delta) ↔ ¬ row.Leaves factor delta := by
  rw [fitsUnsigned_iff, Leaves]
  omega

theorem fits_iff :
    (FitsSigned factor.toNat ∧ FitsSigned (delta * factor.toNat) ∧
      FitsUnsigned (row.target factor delta)) ↔
      ¬ (row.Leaves factor delta ∨ Oversized factor delta) := by
  rw [fitsUnsigned_target_iff, Oversized]
  constructor
  · rintro ⟨hfactor, hdistance, hstays⟩ (hleaves | hlarge | hfar)
    · exact hstays hleaves
    · exact hlarge hfactor
    · exact hfar hdistance
  · intro h
    exact ⟨Decidable.of_not_not fun hlarge => h (Or.inr (Or.inl hlarge)),
      Decidable.of_not_not fun hfar => h (Or.inr (Or.inr hfar)),
      fun hleaves => h (Or.inl hleaves)⟩

/-- A shift fails for three reasons, and always in the same way. -/
theorem shift_eq_error_iff :
    row.shift factor delta = .error fault ↔
      (row.Leaves factor delta ∨ Oversized factor delta) ∧
        fault = .locationOverflow row.location := by
  rw [shift]
  by_cases hfails : row.Leaves factor delta ∨ Oversized factor delta
  · rw [if_neg fun hfits => fits_iff.mp hfits hfails]
    constructor
    · intro h
      cases h
      exact ⟨hfails, rfl⟩
    · rintro ⟨-, rfl⟩
      rfl
  · rw [if_pos (fits_iff.mpr hfails)]
    constructor
    · intro h
      cases h
    · rintro ⟨hother, -⟩
      exact absurd hother hfails

theorem perform_of_advances
    (h : step.Advances delta) (row : Row) :
    row.perform common step = row.shift common.codeFactor delta := by
  obtain ⟨instruction, hcontent, hdelta⟩ := h
  rw [perform, hcontent]
  exact apply_of_delta hdelta row step.opcode

/-- An instruction fails as an advance, or because it is not supported. -/
theorem apply_eq_error
    {opcode : UInt8} {instruction : Instruction}
    (h : row.apply common opcode instruction = .error fault) :
    (∃ delta, instruction.delta? = some delta ∧
      row.shift common.codeFactor delta = .error fault) ∨
    fault = .unsupportedInstruction opcode := by
  cases instruction with
  | advance delta =>
      exact Or.inl ⟨delta.val, rfl, h⟩
  | advanceByte delta =>
      exact Or.inl ⟨delta.toInt, rfl, h⟩
  | advanceHalf delta =>
      exact Or.inl ⟨delta.toInt, rfl, h⟩
  | defineCfaOffset factored =>
      cases h
  | _ =>
      cases h
      exact Or.inr rfl

/-- Only an advance reports that the location overflows. -/
theorem perform_eq_locationOverflow_iff
    {location : UInt64}
    (hcontent : ∀ other, step.content = .error other → other.IsOfContent) :
    row.perform common step = .error (.locationOverflow location) ↔
      ∃ delta, step.Advances delta ∧
        (row.Leaves common.codeFactor delta ∨ Oversized common.codeFactor delta) ∧
        row.location = location := by
  constructor
  · intro h
    rcases hread : step.content with other | instruction
    · rw [perform, hread] at h
      cases h
      exact (hcontent _ hread).elim
    · rw [perform, hread] at h
      rcases apply_eq_error h with ⟨delta, hdelta, hshift⟩ | hother
      · obtain ⟨hfails, hlocation⟩ := shift_eq_error_iff.mp hshift
        cases hlocation
        exact ⟨delta, ⟨instruction, hread, hdelta⟩, hfails, rfl⟩
      · cases hother
  · rintro ⟨delta, hadvances, hfails, rfl⟩
    rw [perform_of_advances hadvances]
    exact shift_eq_error_iff.mpr ⟨hfails, rfl⟩

/-- An advance that does not fail moves to its target. -/
theorem exists_perform_of_advances
    (h : step.Advances delta) (hstays : ¬ row.Leaves common.codeFactor delta)
    (hfits : ¬ Oversized common.codeFactor delta) :
    ∃ next, row.perform common step = .ok next ∧
      (next.location.toNat : Int) = row.target common.codeFactor delta := by
  rw [perform_of_advances h]
  rcases hshift : row.shift common.codeFactor delta with fault | next
  · rcases (shift_eq_error_iff.mp hshift).1 with hleaves | hover
    · exact absurd hleaves hstays
    · exact absurd hover hfits
  · exact ⟨next, rfl, (location_of_shift hshift).1⟩

end Row

namespace Description

/-- The lookup reports that the location overflows exactly where an advance leaves the address
space, and all other advances move the location to exactly their target. -/
structure ReportsExactly (order : ByteOrder) (timing : OffsetTiming) (common : CommonEntry)
    (description : Description) (pc : UInt64) : Prop where
  fault_iff : ∀ sp location,
    description.frameAddress order timing common pc sp = .error (.locationOverflow location) ↔
      ∃ row step delta, description.Meets order timing common pc row step ∧
        step.Advances delta ∧ row.Leaves common.codeFactor delta ∧ row.location = location
  moves : ∀ row step delta, description.Meets order timing common pc row step →
    step.Advances delta → ¬ row.Leaves common.codeFactor delta →
      ∃ next, row.perform common step = .ok next ∧
        (next.location.toNat : Int) = row.target common.codeFactor delta

variable {order : ByteOrder} {timing : OffsetTiming} {common : CommonEntry}
  {description : Description} {pc : UInt64}

theorem frameAddress_eq_locationOverflow_iff
    {sp location : UInt64} :
    description.frameAddress order timing common pc sp = .error (.locationOverflow location) ↔
      ∃ row step delta, description.Meets order timing common pc row step ∧
        step.Advances delta ∧
        (row.Leaves common.codeFactor delta ∨ Oversized common.codeFactor delta) ∧
        row.location = location := by
  rw [frameAddress_eq_error_iff]
  have hfault : ∀ row step, description.Meets order timing common pc row step →
      ∀ other, step.content = .error other → other.IsOfContent :=
    fun row step hmeets _ =>
      Bytecode.fault_of_mem_steps (Instruction.failsWith_operands order) hmeets.mem
  constructor
  · rintro ⟨row, step, hmeets, hperform⟩
    obtain ⟨delta, hadvances⟩ :=
      (Row.perform_eq_locationOverflow_iff (hfault row step hmeets)).mp hperform
    exact ⟨row, step, delta, hmeets, hadvances⟩
  · rintro ⟨row, step, delta, hmeets, hadvances⟩
    exact ⟨row, step, hmeets,
      (Row.perform_eq_locationOverflow_iff (hfault row step hmeets)).mpr ⟨delta, hadvances⟩⟩

theorem reportsExactly_iff :
    description.ReportsExactly order timing common pc ↔
      ∀ row step delta, description.Meets order timing common pc row step →
        step.Advances delta → ¬ row.Leaves common.codeFactor delta →
          ¬ Oversized common.codeFactor delta := by
  constructor
  · intro hexact row step delta hmeets hadvances hstays hover
    obtain ⟨next, hnext, -⟩ := hexact.moves row step delta hmeets hadvances hstays
    rw [Row.perform_of_advances hadvances, Row.shift_eq_error_iff.mpr ⟨Or.inr hover, rfl⟩] at hnext
    cases hnext
  · intro hfits
    refine ⟨fun sp location => ?_, ?_⟩
    · rw [frameAddress_eq_locationOverflow_iff]
      constructor
      · rintro ⟨row, step, delta, hmeets, hadvances, hfails, hlocation⟩
        refine ⟨row, step, delta, hmeets, hadvances, ?_, hlocation⟩
        by_cases hleaves : row.Leaves common.codeFactor delta
        · exact hleaves
        · exact absurd (hfails.resolve_left hleaves)
            (hfits row step delta hmeets hadvances hleaves)
      · rintro ⟨row, step, delta, hmeets, hadvances, hleaves, hlocation⟩
        exact ⟨row, step, delta, hmeets, hadvances, Or.inl hleaves, hlocation⟩
    · intro row step delta hmeets hadvances hstays
      exact Row.exists_perform_of_advances hadvances hstays
        (hfits row step delta hmeets hadvances hstays)

/-- **Overflows of the location.** A lookup reports them exactly if it meets an advance that leaves
the address space, or whose factor or distance does not fit into a signed word. All other advances
move the location to exactly their target. So the reports are about the address space alone
exactly where every advance that stays in it has a factor and a distance that fit. -/
theorem locationOverflow_reports
    (order : ByteOrder) (timing : OffsetTiming) (common : CommonEntry)
    (description : Description) (pc : UInt64) :
    (∀ sp location,
      description.frameAddress order timing common pc sp = .error (.locationOverflow location) ↔
        ∃ row step delta, description.Meets order timing common pc row step ∧
          step.Advances delta ∧
          (row.Leaves common.codeFactor delta ∨ Oversized common.codeFactor delta) ∧
          row.location = location) ∧
    (∀ row step delta, description.Meets order timing common pc row step →
      step.Advances delta → ¬ row.Leaves common.codeFactor delta →
      ¬ Oversized common.codeFactor delta →
        ∃ next, row.perform common step = .ok next ∧
          (next.location.toNat : Int) = row.target common.codeFactor delta) ∧
    (description.ReportsExactly order timing common pc ↔
      ∀ row step delta, description.Meets order timing common pc row step →
        step.Advances delta → ¬ row.Leaves common.codeFactor delta →
          ¬ Oversized common.codeFactor delta) :=
  ⟨fun _ _ => frameAddress_eq_locationOverflow_iff,
    fun _ _ _ _ => Row.exists_perform_of_advances, reportsExactly_iff⟩

/-- Units of half the address space. -/
def hugeCommon : CommonEntry where
  codeFactor := 0x8000000000000000
  dataFactor := -8
  returnRegister := 16
  cfaRegister := 7
  cfaOffset := 8
  returnOffset := none

/-- A description with nothing but an advance by no units at all. -/
def standing : Description where
  offset := 0
  commonOffset := 0
  start := 0x2000
  range := 0x100
  instructions := [0x40]

/-- The location would stay where it is, and overflows. -/
theorem not_reportsExactly_standing :
    standing.frameAddress .little .inRow hugeCommon 0x2000 0x10000 =
      .error (.locationOverflow 0x2000) ∧
    (Row.first hugeCommon standing).target hugeCommon.codeFactor 0 = 0x2000 ∧
    ¬ standing.ReportsExactly .little .inRow hugeCommon 0x2000 := by
  have htarget : (Row.first hugeCommon standing).target hugeCommon.codeFactor 0 = 0x2000 := by
    decide
  refine ⟨by cbv, htarget, fun hexact => ?_⟩
  have hadvances : Step.Advances ⟨0x40, .ok (.advance 0)⟩ 0 := ⟨.advance 0, rfl, rfl⟩
  have hmeets : standing.Meets .little .inRow hugeCommon 0x2000 (Row.first hugeCommon standing)
      ⟨0x40, .ok (.advance 0)⟩ := by
    have hsteps : Instruction.steps .little standing.instructions =
        [⟨0x40, .ok (.advance 0)⟩] := by cbv
    rw [Meets, hsteps]
    refine Row.meets_cons_of_not_stopsAt (fun hstop => ?_) []
    exact absurd hstop.2 (UInt64.lt_irrefl 0x2000)
  have hstays : ¬ (Row.first hugeCommon standing).Leaves hugeCommon.codeFactor 0 := by
    rw [Row.Leaves, htarget]
    decide
  exact reportsExactly_iff.mp hexact _ _ 0 hmeets hadvances hstays (Or.inl (by decide))

/-- Two units of a quarter of the address space are too far for a word, one unit is not. -/
example :
    (Row.mk 0x2000 8).shift 0x4000000000000000 2 = .error (.locationOverflow 0x2000) ∧
    (Row.mk 0x2000 8).target 0x4000000000000000 2 = 0x8000000000002000 ∧
    (Row.mk 0x2000 8).shift 0x4000000000000000 1 = .ok ⟨0x4000000000002000, 8⟩ :=
  ⟨by rfl, by decide, by rfl⟩

end Description

end CallFrame
