import CallFrame.CommonEntry
import CallFrame.Section.Content

/-!
# What a common information entry says

The initial instructions of a common information entry set two rules, and each rule is set by
the last instruction for it: where the frame address is computed from, and where the return
address is saved. Running the instructions one after the other comes to the same.

A common information entry can be read at its offset wherever it is written, and then says
what its own bytes say. Neither the bytes before it nor those behind it have a part in it.
-/

namespace CallFrame

namespace Instruction

/-- The instruction may stand in a common information entry with the given return address
register. -/
def IsInitial (returnRegister : UInt8) : Instruction → Prop
  | .nop => True
  | .defineCfa .. => True
  | .saved register _ => register.val = returnRegister.toNat
  | _ => False

def definition? : Instruction → Option (UInt64 × UInt64)
  | .defineCfa register offset => some (register, offset)
  | _ => none

def saving? : Instruction → Option Int64
  | .saved _ factored => some factored
  | _ => none

end Instruction

namespace CommonEntry

/-- The entry with the rules that the last instructions for them set. Rules without an
instruction stay as they are. -/
def withRules (entry : CommonEntry) (instructions : List Instruction) : CommonEntry :=
  let definition := (instructions.filterMap Instruction.definition?).getLast?
  let saving := (instructions.filterMap Instruction.saving?).getLast?
  { entry with
    cfaRegister := (definition.map fun rule => rule.1).getD entry.cfaRegister
    cfaOffset := (definition.map fun rule => rule.2.toInt64).getD entry.cfaOffset
    returnOffset := (saving.map fun factored => factored * entry.dataFactor).or
      entry.returnOffset }

theorem withRules_cons
    (entry : CommonEntry) (instruction : Instruction) (rest : List Instruction) :
    entry.withRules (instruction :: rest) =
      (entry.withRules [instruction]).withRules rest := by
  cases instruction with
  | defineCfa register offset =>
      rcases h : (rest.filterMap Instruction.definition?).getLast? with _ | rule
      · simp [withRules, Instruction.definition?, Instruction.saving?, List.getLast?_cons, h]
      · simp [withRules, Instruction.definition?, Instruction.saving?, List.getLast?_cons, h]
  | saved register factored =>
      rcases h : (rest.filterMap Instruction.saving?).getLast? with _ | last
      · simp [withRules, Instruction.definition?, Instruction.saving?, List.getLast?_cons, h]
      · simp [withRules, Instruction.definition?, Instruction.saving?, List.getLast?_cons, h]
  | _ =>
      rfl

theorem apply_of_isInitial
    {entry : CommonEntry} {instruction : Instruction}
    (h : instruction.IsInitial entry.returnRegister) (opcode : UInt8) :
    entry.apply opcode instruction = .ok (entry.withRules [instruction]) := by
  cases instruction with
  | saved register factored =>
      exact if_pos h
  | nop =>
      rfl
  | defineCfa register offset =>
      rfl
  | _ =>
      exact h.elim

theorem applyAll_of_isInitial
    {entry : CommonEntry} {steps : List (Step Instruction)} {instructions : List Instruction}
    (hsteps : steps.map Step.content = instructions.map .ok)
    (h : ∀ instruction ∈ instructions, instruction.IsInitial entry.returnRegister) :
    entry.applyAll steps = .ok (entry.withRules instructions) := by
  induction steps generalizing entry instructions with
  | nil =>
      rw [List.map_eq_nil_iff.mp hsteps.symm]
      rfl
  | cons step rest ih =>
      obtain ⟨instruction, others, rfl, hcontent, hrest⟩ := List.map_eq_cons_iff.mp hsteps.symm
      have happly := apply_of_isInitial (h instruction List.mem_cons_self) step.opcode
      rw [applyAll, ← hcontent]
      change (entry.apply step.opcode instruction >>= _) = _
      rw [happly, withRules_cons entry instruction others]
      exact ih hrest.symm fun other hother => h other (List.mem_cons_of_mem instruction hother)

/-- A common information entry can be read where it is written, and says what its payload
says. -/
theorem result_reader_of_written
    {order : ByteOrder} {offset : UInt32} {front payload : Bytes}
    (hfront : front.length = offset.toNat)
    (hwritable : (Content.common payload).Writable order) (rest : Bytes) :
    (reader order offset).result (front ++ ((Content.common payload).encode order ++ rest)) =
      (content order).result payload := by
  have hskip : (Reader.skip offset.toNat).run
      (front ++ ((Content.common payload).encode order ++ rest)) =
        (.ok (), (Content.common payload).encode order ++ rest) :=
    Reader.run_bind_ok (Reader.run_take_append hfront _) _
  have hentry : (Entry.reader order offset.toNat).run
      ((Content.common payload).encode order ++ rest) =
        (.ok ((Content.common payload).entry order), rest) :=
    Entry.run_reader_eq_ok_iff.mpr ⟨hwritable.1, rfl⟩
  rw [Reader.result, reader, Reader.run_bind_ok hskip, Reader.run_bind_ok hentry]
  rfl

end CommonEntry

end CallFrame
