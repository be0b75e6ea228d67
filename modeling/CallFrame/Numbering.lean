import CallFrame.DebuggingEntry
import CallFrame.Instruction

/-!
# The standard's numbers by name

The operation codes of call frame instructions and of location expressions, and the names
of attributes, under the names that the debugging standard gives them. The tables also
hold the codes that this library refuses.

Codes with an operand in their low bits are listed with the operand zero.

Main facts: the tables hold the codes of all understood instructions and operations under
their names.
-/

namespace CallFrame

namespace Numbering

/-- The operation codes of call frame instructions. -/
def callFrameInstructions : List (String × UInt8) := [
  ("DW_CFA_nop", 0x00),
  ("DW_CFA_set_loc", 0x01),
  ("DW_CFA_advance_loc1", 0x02),
  ("DW_CFA_advance_loc2", 0x03),
  ("DW_CFA_advance_loc4", 0x04),
  ("DW_CFA_offset_extended", 0x05),
  ("DW_CFA_restore_extended", 0x06),
  ("DW_CFA_undefined", 0x07),
  ("DW_CFA_same_value", 0x08),
  ("DW_CFA_register", 0x09),
  ("DW_CFA_remember_state", 0x0a),
  ("DW_CFA_restore_state", 0x0b),
  ("DW_CFA_def_cfa", 0x0c),
  ("DW_CFA_def_cfa_register", 0x0d),
  ("DW_CFA_def_cfa_offset", 0x0e),
  ("DW_CFA_def_cfa_expression", 0x0f),
  ("DW_CFA_expression", 0x10),
  ("DW_CFA_offset_extended_sf", 0x11),
  ("DW_CFA_def_cfa_sf", 0x12),
  ("DW_CFA_def_cfa_offset_sf", 0x13),
  ("DW_CFA_val_offset", 0x14),
  ("DW_CFA_val_offset_sf", 0x15),
  ("DW_CFA_val_expression", 0x16),
  ("DW_CFA_lo_user", 0x1c),
  ("DW_CFA_hi_user", 0x3f),
  ("DW_CFA_advance_loc", 0x40),
  ("DW_CFA_offset", 0x80),
  ("DW_CFA_restore", 0xc0)]

/-- The operation codes of location expressions. -/
def locationOperations : List (String × UInt8) := [
  ("DW_OP_addr", 0x03),
  ("DW_OP_deref", 0x06),
  ("DW_OP_const1u", 0x08),
  ("DW_OP_const1s", 0x09),
  ("DW_OP_const2u", 0x0a),
  ("DW_OP_const2s", 0x0b),
  ("DW_OP_const4u", 0x0c),
  ("DW_OP_const4s", 0x0d),
  ("DW_OP_const8u", 0x0e),
  ("DW_OP_const8s", 0x0f),
  ("DW_OP_constu", 0x10),
  ("DW_OP_consts", 0x11),
  ("DW_OP_dup", 0x12),
  ("DW_OP_drop", 0x13),
  ("DW_OP_over", 0x14),
  ("DW_OP_pick", 0x15),
  ("DW_OP_swap", 0x16),
  ("DW_OP_rot", 0x17),
  ("DW_OP_abs", 0x19),
  ("DW_OP_and", 0x1a),
  ("DW_OP_div", 0x1b),
  ("DW_OP_minus", 0x1c),
  ("DW_OP_mod", 0x1d),
  ("DW_OP_mul", 0x1e),
  ("DW_OP_neg", 0x1f),
  ("DW_OP_not", 0x20),
  ("DW_OP_or", 0x21),
  ("DW_OP_plus", 0x22),
  ("DW_OP_plus_uconst", 0x23),
  ("DW_OP_shl", 0x24),
  ("DW_OP_shr", 0x25),
  ("DW_OP_shra", 0x26),
  ("DW_OP_xor", 0x27),
  ("DW_OP_bra", 0x28),
  ("DW_OP_eq", 0x29),
  ("DW_OP_ge", 0x2a),
  ("DW_OP_gt", 0x2b),
  ("DW_OP_le", 0x2c),
  ("DW_OP_lt", 0x2d),
  ("DW_OP_ne", 0x2e),
  ("DW_OP_skip", 0x2f),
  ("DW_OP_lit0", 0x30),
  ("DW_OP_reg0", 0x50),
  ("DW_OP_breg0", 0x70),
  ("DW_OP_regx", 0x90),
  ("DW_OP_fbreg", 0x91),
  ("DW_OP_bregx", 0x92),
  ("DW_OP_piece", 0x93),
  ("DW_OP_deref_size", 0x94),
  ("DW_OP_nop", 0x96),
  ("DW_OP_call_frame_cfa", 0x9c),
  ("DW_OP_stack_value", 0x9f),
  ("DW_OP_lo_user", 0xe0),
  ("DW_OP_hi_user", 0xff)]

/-- The names of attributes. -/
def attributes : List (String × UInt16) := [
  ("DW_AT_name", DebuggingEntry.nameAttribute),
  ("DW_AT_location", DebuggingEntry.locationAttribute),
  ("DW_AT_frame_base", DebuggingEntry.frameBaseAttribute)]

/-- The number that the standard gives a name. -/
def number? (name : String) : Option Nat :=
  (callFrameInstructions.lookup name).map UInt8.toNat
    <|> (locationOperations.lookup name).map UInt8.toNat
    <|> (attributes.lookup name).map UInt16.toNat

/-- The standard's name of an instruction. -/
def instructionName : Instruction → String
  | .nop => "DW_CFA_nop"
  | .advance _ => "DW_CFA_advance_loc"
  | .advanceByte _ => "DW_CFA_advance_loc1"
  | .advanceHalf _ => "DW_CFA_advance_loc2"
  | .defineCfa .. => "DW_CFA_def_cfa"
  | .defineCfaOffset _ => "DW_CFA_def_cfa_offset_sf"
  | .saved .. => "DW_CFA_offset"

/-- The standard's name of an operation. -/
def operationName : Operation → String
  | .const _ => "DW_OP_consts"
  | .plus => "DW_OP_plus"
  | .frameAddress => "DW_OP_call_frame_cfa"

theorem number?_listed :
    number? "DW_CFA_nop" = some 0x00 ∧
      number? "DW_CFA_advance_loc" = some 0x40 ∧
      number? "DW_CFA_advance_loc1" = some 0x02 ∧
      number? "DW_CFA_advance_loc2" = some 0x03 ∧
      number? "DW_CFA_def_cfa" = some 0x0c ∧
      number? "DW_CFA_def_cfa_offset_sf" = some 0x13 ∧
      number? "DW_CFA_offset" = some 0x80 ∧
      number? "DW_OP_consts" = some 0x11 ∧
      number? "DW_OP_plus" = some 0x22 ∧
      number? "DW_OP_call_frame_cfa" = some 0x9c := by
  decide +kernel

/-- Every instruction has the code of its name, plus the operand in its low bits. -/
theorem number?_instructionName
    (instruction : Instruction) :
    ∃ code, number? (instructionName instruction) = some code ∧
      instruction.opcode.toNat = code + instruction.lowOperand := by
  obtain ⟨hnop, hadvance, hbyte, hhalf, hcfa, hoffset, hsaved, -, -, -⟩ := number?_listed
  cases instruction with
  | nop =>
      exact ⟨0x00, hnop, rfl⟩
  | advance delta =>
      refine ⟨0x40, hadvance, ?_⟩
      revert delta
      decide
  | advanceByte delta =>
      exact ⟨0x02, hbyte, rfl⟩
  | advanceHalf delta =>
      exact ⟨0x03, hhalf, rfl⟩
  | defineCfa register offset =>
      exact ⟨0x0c, hcfa, rfl⟩
  | defineCfaOffset factored =>
      exact ⟨0x13, hoffset, rfl⟩
  | saved register factored =>
      refine ⟨0x80, hsaved, ?_⟩
      change (0x80 + UInt8.ofNat register).toNat = 0x80 + register.val
      revert register
      decide

/-- Every operation has the code of its name. -/
theorem number?_operationName
    (operation : Operation) :
    number? (operationName operation) = some operation.opcode.toNat := by
  obtain ⟨-, -, -, -, -, -, -, hconst, hplus, haddress⟩ := number?_listed
  cases operation with
  | const n =>
      exact hconst
  | plus =>
      exact hplus
  | frameAddress =>
      exact haddress

end Numbering

end CallFrame
