import CallFrame.Proofs.SignedNumbers
import CallFrame.Proofs.SumTrees

/-!
# The first fault of an expression

An expression that has no value has a fault, and the fault is the first one in the order of the
program. The operations in front of it can be read and find their operands. There the next
operation cannot be read, or it is an addition that does not find its operands, or the program is
at its end and does not leave one value.

The depth of the stack that a fault names is the number of pushes in front of it less the number of
additions. No value on the stack has a part in any of this, and so the fault is the same in every
frame.
-/

namespace CallFrame

namespace Operation

/-- The operation that begins with this code cannot be read from the bytes behind it, or it does
not find its operands on a stack of this depth. -/
inductive Faults (depth : Nat) : UInt8 → Bytes → Fault → Prop
  | unknown {code : UInt8} (hcode : code ∉ [0x11, 0x22, 0x9c]) (behind : Bytes) :
      Faults depth code behind (.unsupportedOperation code)
  | cutConstant {behind : Bytes} (hcuts : Leb128.CutsOff behind) :
      Faults depth 0x11 behind (.outOfBytes 1 0)
  | wideConstant {behind : Bytes} (hcuts : ¬ Leb128.CutsOff behind)
      (hends : ∀ k, ¬ Leb128.EndsSigned behind k) :
      Faults depth 0x11 behind .numberTooWide
  | underflow (hfew : depth < 2) (behind : Bytes) :
      Faults depth 0x22 behind (.stackUnderflow 2 depth)

variable {depth : Nat} {code : UInt8} {behind : Bytes} {operation : Operation} {fault : Fault}

theorem depthAfter_eq_error_iff :
    operation.depthAfter depth = .error fault ↔
      operation = .plus ∧ depth < 2 ∧ fault = .stackUnderflow 2 depth := by
  cases operation with
  | plus =>
      rw [depthAfter]
      by_cases htwo : 2 ≤ depth
      · rw [if_pos htwo]
        constructor
        · intro h
          cases h
        · rintro ⟨-, hfew, -⟩
          exact absurd htwo (Nat.not_le.mpr hfew)
      · rw [if_neg htwo]
        constructor
        · intro h
          cases h
          exact ⟨rfl, Nat.not_le.mp htwo, rfl⟩
        · rintro ⟨-, -, rfl⟩
          rfl
  | _ =>
      constructor
      · intro h
        cases h
      · rintro ⟨h, -, -⟩
        cases h

/-- A constant cannot be read in two ways: its bytes are cut off, or it is too wide. -/
theorem faults_of_signed
    (h : Leb128.signed.result behind = .error fault) :
    Faults depth 0x11 behind fault := by
  by_cases hcuts : Leb128.CutsOff behind
  · rw [Reader.result, Leb128.run_signed_of_cutsOff hcuts] at h
    cases h
    exact Faults.cutConstant hcuts
  · have hends : ∀ k, ¬ Leb128.EndsSigned behind k := by
      intro k hk
      have hfits : FitsSigned (Leb128.signedSum (behind.take (k + 1))) :=
        fitsSigned_iff.mpr ⟨hk.le_sum, hk.sum_lt⟩
      have hrun := Leb128.run_signed_eq_ok_iff_endsSigned.mpr
        ⟨k, hk, toInt_ofInt_of_fits hfits, rfl⟩
      rw [Reader.result, hrun] at h
      cases h
    rw [Reader.result, (Leb128.run_signed_of_not hends hcuts).2] at h
    cases h
    exact Faults.wideConstant hcuts hends

theorem result_operands_const :
    (operands 0x11).result behind = .const <$> Leb128.signed.result behind := by
  rw [operands_const, Reader.result, Reader.run_bind, Reader.result]
  rcases Leb128.signed.run behind with ⟨_ | _, _⟩
  · rfl
  · rfl

theorem faults_iff :
    Faults depth code behind fault ↔
      ((operands code).result behind >>= fun operation => operation.depthAfter depth) =
        .error fault := by
  constructor
  · intro h
    cases h with
    | unknown hcode behind =>
        rw [operands_of_not_mem hcode]
        rfl
    | cutConstant hcuts =>
        rw [result_operands_const, Reader.result, Leb128.run_signed_of_cutsOff hcuts]
        rfl
    | wideConstant hcuts hends =>
        rw [result_operands_const, Reader.result, (Leb128.run_signed_of_not hends hcuts).2]
        rfl
    | underflow hfew behind =>
        exact depthAfter_eq_error_iff.mpr ⟨rfl, hfew, rfl⟩
  · intro h
    rcases hread : (operands code).result behind with other | operation
    · rw [hread] at h
      cases h
      by_cases hcode : code ∈ [0x11, 0x22, 0x9c]
      · rcases List.mem_cons.mp hcode with rfl | hcode
        · rw [result_operands_const, map_eq_error_iff] at hread
          exact faults_of_signed hread
        · rcases List.mem_cons.mp hcode with rfl | hcode
          · cases hread
          · cases List.mem_singleton.mp hcode
            cases hread
      · rw [operands_of_not_mem hcode] at hread
        cases hread
        exact Faults.unknown hcode behind
    · rw [hread] at h
      obtain ⟨rfl, hfew, rfl⟩ := depthAfter_eq_error_iff.mp h
      obtain ⟨rest, hrun⟩ := Reader.result_eq_ok_iff.mp hread
      obtain ⟨used, hspells, -⟩ := exists_spells_of_run_operands hrun
      cases hspells
      exact Faults.underflow hfew behind

end Operation

namespace Expression

/-- The operations in front can be read and find their operands. Then the fault is that of the next
operation, or that the program ends here with a number of values other than one. -/
inductive FirstFault : Bytes → Fault → Prop
  | inside {program : List Operation} {used behind : Bytes} {depth : Nat} {code : UInt8}
      {fault : Fault} (hspells : Bytecode.SpellsAll Operation.Spells program used)
      (hleads : Leads 0 program depth) (hfault : Operation.Faults depth code behind fault) :
      FirstFault (used ++ code :: behind) fault
  | atEnd {program : List Operation} {used : Bytes} {depth : Nat}
      (hspells : Bytecode.SpellsAll Operation.Spells program used)
      (hleads : Leads 0 program depth) (hdepth : depth ≠ 1) :
      FirstFault used (.unbalancedExpression depth)

variable {depth final : Nat} {program : List Operation} {expression : Bytes} {fault : Fault}

theorem leads_nil_iff :
    Leads depth [] final ↔ final = depth := by
  constructor
  · rintro ⟨-, hcount⟩
    have hfinal : 0 + depth = 0 + final := hcount
    omega
  · rintro rfl
    exact ⟨findsOperands_nil, rfl⟩

theorem depthAfter_cons
    (step : Step Operation) (rest : List (Step Operation)) :
    depthAfter depth (step :: rest) =
      (step.content >>= fun operation => operation.depthAfter depth) >>= fun next =>
        depthAfter next rest := by
  rw [depthAfter]
  rcases step.content with fault | operation
  · rfl
  · rfl

/-- The depth of the stack is known up to the first step with a fault. -/
theorem depthAfter_eq_error_iff
    {steps : List (Step Operation)} :
    depthAfter depth steps = .error fault ↔
      ∃ front step others program reached, steps = front ++ step :: others ∧
        front.map Step.content = (program : List Operation).map .ok ∧
        Leads depth program reached ∧
        (step.content >>= fun operation => operation.depthAfter reached) = .error fault := by
  constructor
  · intro h
    induction steps generalizing depth with
    | nil =>
        cases h
    | cons step rest ih =>
        rw [depthAfter_cons] at h
        rcases hnext : (step.content >>= fun operation => operation.depthAfter depth) with
          other | next
        · rw [hnext] at h
          cases h
          exact ⟨[], step, rest, [], depth, rfl, rfl, leads_nil_iff.mpr rfl, hnext⟩
        · rw [hnext] at h
          obtain ⟨operation, hcontent, hdepth⟩ := bind_eq_ok_iff.mp hnext
          obtain ⟨front, broken, others, program, reached, rfl, hfront, hleads, hfault⟩ := ih h
          refine ⟨step :: front, broken, others, operation :: program, reached, rfl, ?_,
            leads_cons_iff.mpr ⟨next, hdepth, hleads⟩, hfault⟩
          rw [List.map_cons, List.map_cons, hcontent, hfront]
  · rintro ⟨front, step, others, program, reached, rfl, hfront, hleads, hfault⟩
    induction front generalizing depth program with
    | nil =>
        rw [List.map_eq_nil_iff.mp hfront.symm] at hleads
        cases leads_nil_iff.mp hleads
        rw [List.nil_append, depthAfter_cons, hfault]
        rfl
    | cons first front ih =>
        obtain ⟨operation, rest, rfl, hcontent, hrest⟩ := List.map_eq_cons_iff.mp hfront.symm
        obtain ⟨next, hnext, hbehind⟩ := leads_cons_iff.mp hleads
        have hfirst : (first.content >>= fun operation => operation.depthAfter depth) = .ok next :=
          bind_eq_ok_iff.mpr ⟨operation, hcontent.symm, hnext⟩
        rw [List.cons_append, depthAfter_cons, hfirst]
        exact ih rest hrest.symm hbehind

/-- An expression is out of balance exactly if it has a fault on the way, or comes to its end with
a number of values other than one. -/
theorem balance_eq_error_iff :
    balance expression = .error fault ↔
      depthAfter 0 (steps expression) = .error fault ∨
        ∃ depth, depthAfter 0 (steps expression) = .ok depth ∧ depth ≠ 1 ∧
          fault = .unbalancedExpression depth := by
  rw [balance]
  rcases depthAfter 0 (steps expression) with other | depth
  · constructor
    · intro h
      cases h
      exact Or.inl rfl
    · rintro (h | ⟨_, h, -, -⟩)
      · cases h
        rfl
      · cases h
  · change (if depth = 1 then Except.ok () else Except.error _) = _ ↔ _
    by_cases hone : depth = 1
    · rw [if_pos hone]
      constructor
      · intro h
        cases h
      · rintro (h | ⟨_, h, hne, -⟩)
        · cases h
        · cases h
          exact absurd hone hne
    · rw [if_neg hone]
      constructor
      · intro h
        cases h
        exact Or.inr ⟨depth, rfl, hone, rfl⟩
      · rintro (h | ⟨_, h, -, rfl⟩)
        · cases h
        · cases h
          rfl

theorem firstFault_iff :
    FirstFault expression fault ↔ balance expression = .error fault := by
  rw [balance_eq_error_iff]
  constructor
  · intro h
    cases h with
    | @inside program used behind depth code fault hspells hleads hfault =>
        obtain ⟨others, hfirst⟩ := Bytecode.exists_steps_cons Operation.operands code behind
        refine Or.inl (depthAfter_eq_error_iff.mpr ⟨steps used,
          ⟨code, (Operation.operands code).result behind⟩, others, program, depth, ?_,
          Operation.recognizes.content_eq_iff.mpr hspells, hleads, Operation.faults_iff.mp hfault⟩)
        rw [steps, Operation.recognizes.steps_append hspells, hfirst]
        rfl
    | @atEnd program used depth hspells hleads hdepth =>
        refine Or.inr ⟨depth, depthAfter_eq_ok_iff.mpr ⟨program, ?_, hleads⟩, hdepth, rfl⟩
        exact Operation.recognizes.content_eq_iff.mpr hspells
  · rintro (h | ⟨depth, h, hdepth, rfl⟩)
    · obtain ⟨front, step, others, program, reached, hsteps, hfront, hleads, hfault⟩ :=
        depthAfter_eq_error_iff.mp h
      obtain ⟨spelled, used, behind, hspells, rfl, -, hspelled, hcontent⟩ :=
        Operation.recognizes.exists_spellsAll_of_steps hsteps
      obtain rfl : program = spelled :=
        List.map_injective_iff.mpr (fun _ _ => Except.ok.inj) (hfront.symm.trans hspelled)
      rw [hcontent] at hfault
      exact FirstFault.inside hspells hleads (Operation.faults_iff.mpr hfault)
    · obtain ⟨program, hprogram, hleads⟩ := depthAfter_eq_ok_iff.mp h
      exact FirstFault.atEnd (Operation.recognizes.content_eq_iff.mp hprogram) hleads hdepth

/-- Operations leave a value on the stack, if there is one or an operation. -/
theorem Leads.pos
    (h : Leads depth program final) (hsome : 0 < depth ∨ program ≠ []) :
    0 < final := by
  induction program generalizing depth with
  | nil =>
      rw [leads_nil_iff.mp h]
      exact hsome.resolve_right fun hne => hne rfl
  | cons operation rest ih =>
      obtain ⟨next, hnext, hrest⟩ := leads_cons_iff.mp h
      refine ih hrest (Or.inl ?_)
      cases operation with
      | plus =>
          rw [Operation.depthAfter] at hnext
          split at hnext
          · cases hnext
            omega
          · cases hnext
      | _ =>
          cases hnext
          exact Nat.succ_pos depth

/-- At its end only the empty expression has no value on the stack. -/
theorem two_le_of_firstFault
    (h : FirstFault expression (.unbalancedExpression depth)) :
    if expression = [] then depth = 0 else 2 ≤ depth := by
  cases h with
  | inside hspells hleads hfault =>
      cases hfault
  | @atEnd program used depth hspells hleads hdepth =>
      cases hspells with
      | nil =>
          rw [if_pos rfl]
          exact leads_nil_iff.mp hleads
      | @cons a program first rest head tail =>
          have hne : first ++ rest ≠ [] := by
            intro hnil
            rw [(List.append_eq_nil_iff.mp hnil).1] at head
            exact Operation.recognizes.ne_nil a head
          have hpos := hleads.pos (Or.inr (List.cons_ne_nil a program))
          rw [if_neg hne]
          omega

/-- **First faults.** An expression fails with its first fault, in every frame: the next operation
cannot be read or does not find its operands, or one value is not what is left. The depth at the
end is zero for the empty expression, and at least two for all others that fail there. -/
theorem evaluate_eq_error_iff_firstFault
    (expression : Bytes) :
    (∀ cfa fault, evaluate expression cfa = .error fault ↔ FirstFault expression fault) ∧
    (∀ depth, FirstFault expression (.unbalancedExpression depth) →
      if expression = [] then depth = 0 else 2 ≤ depth) := by
  refine ⟨fun cfa fault => ?_, fun depth => two_le_of_firstFault⟩
  rw [evaluate_eq, map_eq_error_iff, firstFault_iff]

/-- The addition is the first fault, and behind it an unknown operation and a cut constant make no
difference. -/
example :
    evaluate [0x9c, 0x22, 0x1c, 0x11, 0x80] 8 = .error (.stackUnderflow 2 1) ∧
    evaluate [0x9c, 0x1c, 0x22, 0x11, 0x80] 8 = .error (.unsupportedOperation 0x1c) ∧
    evaluate [0x9c, 0x9c] 8 = .error (.unbalancedExpression 2) :=
  ⟨by cbv, by cbv, by cbv⟩

end Expression

end CallFrame
