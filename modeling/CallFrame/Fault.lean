import CallFrame.Text.Hex

/-!
# Faults

Everything that can go wrong with a lookup or with an expression. The data is read
once and never changes, so a fault is final for the question that met it.

A fault names its cause. `Fault.kind` sorts the causes into four classes and
`Fault.message` puts them into words; nothing else in the library makes up texts
for them.
-/

namespace CallFrame

/-- Why a lookup, a read or an evaluation failed. -/
inductive Fault where
  /-- A read asked for more bytes than were left. -/
  | outOfBytes (wanted remaining : Nat)
  /-- A number of variable width does not fit into 64 bits. -/
  | numberTooWide
  /-- The entry is in the 64-bit format. -/
  | wideFormat (offset : Nat)
  /-- The entry's length leaves no room for its marker. -/
  | entryTooShort (offset : Nat) (length : UInt32)
  /-- The entry's length leaves no room for the fields of a frame description. -/
  | descriptionTooShort (offset : Nat) (length : UInt32)
  /-- The entry is not marked as a common information entry. -/
  | notCommonEntry (offset : UInt32)
  /-- The common information entry has a version other than the supported one. -/
  | unsupportedVersion (version : UInt8)
  /-- The augmentation string is not empty and begins with this byte. -/
  | unsupportedAugmentation (byte : UInt8)
  /-- The call frame instruction is not supported where it stands. -/
  | unsupportedInstruction (opcode : UInt8)
  /-- The location operation is not supported. -/
  | unsupportedOperation (opcode : UInt8)
  /-- The operation needs more operands than the stack holds. -/
  | stackUnderflow (needed depth : Nat)
  /-- The expression does not leave exactly one value. -/
  | unbalancedExpression (depth : Nat)
  /-- No frame description covers the program counter. -/
  | uncovered (pc : UInt64)
  /-- The debugging entry has no location expression. -/
  | noLocation
  /-- Advancing from this location leaves the address space. -/
  | locationOverflow (location : UInt64)
  /-- The limit on the records of one search was reached. -/
  | tooManyRecords (limit : Nat)
  deriving DecidableEq

/-- The four classes of faults. -/
inductive FaultKind where
  /-- A read ran out of bytes before it was complete. -/
  | truncated
  /-- A version, format or opcode outside of what is understood. -/
  | unsupported
  /-- The data is broken in its structure. -/
  | malformed
  /-- Nothing answers the question. -/
  | notFound
  deriving DecidableEq

namespace FaultKind

/-- The name of the class as it is reported. -/
def name : FaultKind → String
  | .truncated => "Truncated"
  | .unsupported => "Unsupported"
  | .malformed => "Malformed"
  | .notFound => "NotFound"

end FaultKind

namespace Fault

/-- The class a fault belongs to. -/
def kind : Fault → FaultKind
  | .outOfBytes .. => .truncated
  | .wideFormat _
  | .unsupportedVersion _
  | .unsupportedAugmentation _
  | .unsupportedInstruction _
  | .unsupportedOperation _ => .unsupported
  | .numberTooWide
  | .entryTooShort ..
  | .descriptionTooShort ..
  | .notCommonEntry _
  | .stackUnderflow ..
  | .unbalancedExpression _
  | .locationOverflow _
  | .tooManyRecords _ => .malformed
  | .uncovered _
  | .noLocation => .notFound

/-- The words a fault is reported in: offsets, addresses and opcodes are hexadecimal,
counts and lengths decimal. -/
def message : Fault → String
  | .outOfBytes wanted remaining =>
    s!"index out of bounds, tried to read {wanted} bytes from {remaining}"
  | .numberTooWide => "LEB128 value does not fit into 64 bits"
  | .wideFormat offset =>
    s!"64-bit DWARF entry at offset {Hex.marked offset} is not supported"
  | .entryTooShort offset length =>
    s!"entry at offset {Hex.marked offset} too short: length {length.toNat}"
  | .descriptionTooShort offset length =>
    s!"frame description entry at offset {Hex.marked offset} too short: length {length.toNat}"
  | .notCommonEntry offset =>
    s!"no common information entry found at offset {Hex.marked offset.toNat}"
  | .unsupportedVersion version => s!"unsupported CIE version: {version.toNat}"
  | .unsupportedAugmentation byte =>
    s!"unsupported CIE augmentation: {Hex.marked byte.toNat}"
  | .unsupportedInstruction opcode =>
    s!"unsupported CFA operation: {Hex.markedByte opcode}"
  | .unsupportedOperation opcode =>
    s!"unsupported location operation: {Hex.markedByte opcode}"
  | .stackUnderflow needed depth =>
    s!"location operation needs {needed} operands, stack has {depth}"
  | .unbalancedExpression depth =>
    s!"invalid location expression: stack depth {depth} at end"
  | .uncovered pc => s!"frame data does not cover pc {Hex.marked pc.toNat}"
  | .noLocation => "entry has no location attribute"
  | .locationOverflow location =>
    s!"advancing the location from {Hex.marked location.toNat} overflows"
  | .tooManyRecords limit => s!"gave up after scanning {limit} entries"

end Fault

/-- Two computations in a row have a value exactly if both have one. -/
theorem bind_eq_ok_iff
    {ε α β : Type} {first : Except ε α} {next : α → Except ε β} {b : β} :
    first >>= next = .ok b ↔ ∃ a, first = .ok a ∧ next a = .ok b := by
  cases first with
  | error fault =>
      constructor
      · intro h
        cases h
      · rintro ⟨_, h, -⟩
        cases h
  | ok a =>
      constructor
      · intro h
        exact ⟨a, rfl, h⟩
      · rintro ⟨_, h, hnext⟩
        cases h
        exact hnext

/-- Of two computations in a row that fail, the first fails, or the second behind it. -/
theorem bind_eq_error_iff
    {ε α β : Type} {first : Except ε α} {next : α → Except ε β} {fault : ε} :
    first >>= next = .error fault ↔
      first = .error fault ∨ ∃ a, first = .ok a ∧ next a = .error fault := by
  cases first with
  | error other =>
      constructor
      · intro h
        cases h
        exact Or.inl rfl
      · rintro (h | ⟨_, h, -⟩)
        · cases h
          rfl
        · cases h
  | ok a =>
      constructor
      · intro h
        exact Or.inr ⟨a, rfl, h⟩
      · rintro (h | ⟨_, h, hnext⟩)
        · cases h
        · cases h
          exact hnext

/-- A mapped outcome fails as the outcome does. -/
theorem map_eq_error_iff
    {ε α β : Type} {f : α → β} {outcome : Except ε α} {error : ε} :
    f <$> outcome = .error error ↔ outcome = .error error := by
  constructor
  · intro h
    cases outcome with
    | error other =>
        cases h
        rfl
    | ok a =>
        cases h
  · rintro rfl
    rfl

end CallFrame
