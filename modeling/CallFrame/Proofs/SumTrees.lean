import CallFrame.Proofs.FrameRelative
import CallFrame.Proofs.FrameTable
import CallFrame.Proofs.Spellings
import Mathlib.Algebra.Ring.Int.Defs

/-!
# Expressions as sums

An expression that has a value is a sum, written with each addition behind its two operands. Which
programs these are can be told by counting: in front of every addition there are at least two more
pushes than additions, and in the whole program there is one more.

Such a program is the serialization of a tree, with the constants and the frame address at its
leaves and the additions above them. While a program runs, every value on the stack belongs to a
tree, and an addition joins the two trees on top. So a program that comes to one value is the
serialization of the one tree that is left.

The value is the exact sum of the leaves, reduced to 64 bits once at the end. The shape of the tree
makes no difference to it.
-/

namespace CallFrame

namespace Expression

def pushes (program : List Operation) : Nat :=
  program.countP fun operation => operation ≠ .plus

def additions (program : List Operation) : Nat :=
  program.count .plus

/-- Every addition finds two operands if there are values on the stack at the beginning. -/
def FindsOperands (depth : Nat) (program : List Operation) : Prop :=
  ∀ before after, program = before ++ .plus :: after →
    additions before + 2 ≤ pushes before + depth

/-- Every addition finds two operands, and one value is left at the end. -/
structure Balanced (program : List Operation) : Prop where
  two_le : ∀ before after, program = before ++ .plus :: after →
    additions before + 2 ≤ pushes before
  single : pushes program = additions program + 1

/-- The sum of the constants, plus the frame address as often as it is pushed, without a
reduction. -/
def exactTotal (cfa : UInt64) (program : List Operation) : Int :=
  (program.map fun operation => operation.constant.toInt).sum + frameUses program * cfa.toNat

variable {depth final : Nat} {operation : Operation} {program rest : List Operation}

theorem pushes_append
    (first second : List Operation) :
    pushes (first ++ second) = pushes first + pushes second :=
  List.countP_append

theorem additions_append
    (first second : List Operation) :
    additions (first ++ second) = additions first + additions second :=
  List.count_append

theorem pushes_cons_of_ne
    (h : operation ≠ .plus) :
    pushes (operation :: rest) = pushes rest + 1 :=
  List.countP_cons_of_pos (decide_eq_true h)

theorem additions_cons_of_ne
    (h : operation ≠ .plus) :
    additions (operation :: rest) = additions rest :=
  List.count_cons_of_ne h

theorem pushes_plus_cons :
    pushes (.plus :: rest) = pushes rest :=
  List.countP_cons_of_neg (by decide)

theorem additions_plus_cons :
    additions (.plus :: rest) = additions rest + 1 :=
  List.count_cons_self

theorem findsOperands_nil :
    FindsOperands depth [] := by
  intro before after hsplit
  cases before with
  | nil =>
      cases hsplit
  | cons _ _ =>
      cases hsplit

theorem findsOperands_cons_of_ne
    (h : operation ≠ .plus) :
    FindsOperands depth (operation :: rest) ↔ FindsOperands (depth + 1) rest := by
  constructor
  · intro hfinds before after hsplit
    have hle := hfinds (operation :: before) after (by rw [hsplit, List.cons_append])
    rw [pushes_cons_of_ne h, additions_cons_of_ne h] at hle
    omega
  · intro hfinds before after hsplit
    cases before with
    | nil =>
        exact absurd (List.cons.inj hsplit).1 h
    | cons first before =>
        obtain ⟨rfl, hrest⟩ := List.cons.inj hsplit
        have hle := hfinds before after hrest
        rw [pushes_cons_of_ne h, additions_cons_of_ne h]
        omega

theorem findsOperands_plus_cons :
    FindsOperands depth (.plus :: rest) ↔ 2 ≤ depth ∧ FindsOperands (depth - 1) rest := by
  constructor
  · intro hfinds
    have htwo : 0 + 2 ≤ 0 + depth := hfinds [] rest rfl
    refine ⟨by omega, ?_⟩
    intro before after hsplit
    have hle := hfinds (.plus :: before) after (by rw [hsplit, List.cons_append])
    rw [pushes_plus_cons, additions_plus_cons] at hle
    omega
  · rintro ⟨htwo, hfinds⟩ before after hsplit
    cases before with
    | nil =>
        change 0 + 2 ≤ 0 + depth
        omega
    | cons first before =>
        obtain ⟨rfl, hrest⟩ := List.cons.inj hsplit
        have hle := hfinds before after hrest
        rw [pushes_plus_cons, additions_plus_cons]
        omega

/-- Every addition finds its operands, and counting leads from one depth of the stack to the
other. -/
structure Leads (depth : Nat) (program : List Operation) (final : Nat) : Prop where
  findsOperands : FindsOperands depth program
  count : pushes program + depth = additions program + final

theorem depthAfter_of_ne
    (h : operation ≠ .plus) :
    operation.depthAfter depth = .ok (depth + 1) := by
  cases operation with
  | plus =>
      exact absurd rfl h
  | _ =>
      rfl

theorem leads_cons_iff :
    Leads depth (operation :: rest) final ↔
      ∃ next, operation.depthAfter depth = .ok next ∧ Leads next rest final := by
  by_cases hplus : operation = .plus
  · subst hplus
    rw [Operation.depthAfter]
    constructor
    · rintro ⟨hfinds, hcount⟩
      obtain ⟨htwo, hrest⟩ := findsOperands_plus_cons.mp hfinds
      rw [pushes_plus_cons, additions_plus_cons] at hcount
      exact ⟨depth - 1, if_pos htwo, hrest, by omega⟩
    · rintro ⟨next, hnext, hrest, hcount⟩
      split at hnext
      · rename_i htwo
        cases hnext
        refine ⟨findsOperands_plus_cons.mpr ⟨htwo, hrest⟩, ?_⟩
        rw [pushes_plus_cons, additions_plus_cons]
        omega
      · cases hnext
  · rw [depthAfter_of_ne hplus]
    constructor
    · rintro ⟨hfinds, hcount⟩
      rw [pushes_cons_of_ne hplus, additions_cons_of_ne hplus] at hcount
      exact ⟨depth + 1, rfl, (findsOperands_cons_of_ne hplus).mp hfinds, by omega⟩
    · rintro ⟨next, hnext, hrest, hcount⟩
      cases hnext
      refine ⟨(findsOperands_cons_of_ne hplus).mpr hrest, ?_⟩
      rw [pushes_cons_of_ne hplus, additions_cons_of_ne hplus]
      omega

/-- The stack has a depth after all steps exactly if they can all be read and counting leads
there. -/
theorem depthAfter_eq_ok_iff
    {steps : List (Step Operation)} :
    depthAfter depth steps = .ok final ↔
      ∃ program : List Operation, steps.map Step.content = program.map .ok ∧
        Leads depth program final := by
  induction steps generalizing depth with
  | nil =>
      constructor
      · intro h
        cases h
        exact ⟨[], rfl, findsOperands_nil, rfl⟩
      · rintro ⟨program, hprogram, -, hcount⟩
        rw [List.map_eq_nil_iff.mp hprogram.symm] at hcount
        have hfinal : 0 + depth = 0 + final := hcount
        rw [depthAfter, Nat.add_left_cancel hfinal]
  | cons step others ih =>
      constructor
      · intro h
        obtain ⟨operation, hcontent, hafter⟩ := bind_eq_ok_iff.mp h
        obtain ⟨next, hnext, hrest⟩ := bind_eq_ok_iff.mp hafter
        obtain ⟨rest, hothers, hleads⟩ := ih.mp hrest
        refine ⟨operation :: rest, ?_, leads_cons_iff.mpr ⟨next, hnext, hleads⟩⟩
        rw [List.map_cons, List.map_cons, hcontent, hothers]
      · rintro ⟨program, hprogram, hleads⟩
        obtain ⟨operation, rest, rfl, hcontent, hothers⟩ := List.map_eq_cons_iff.mp hprogram.symm
        obtain ⟨next, hnext, hrest⟩ := leads_cons_iff.mp hleads
        refine bind_eq_ok_iff.mpr ⟨operation, hcontent.symm, ?_⟩
        exact bind_eq_ok_iff.mpr ⟨next, hnext, ih.mpr ⟨rest, hothers.symm, hrest⟩⟩

/-- Operations leave one value exactly if they are spelled by the expression and balanced. -/
theorem balance_eq_ok_iff
    {expression : Bytes} :
    balance expression = .ok () ↔
      ∃ program, Bytecode.SpellsAll Operation.Spells program expression ∧ Balanced program := by
  have hbalance : balance expression = .ok () ↔ depthAfter 0 (steps expression) = .ok 1 := by
    rw [balance]
    rcases depthAfter 0 (steps expression) with fault | depth
    · constructor
      · intro h
        cases h
      · intro h
        cases h
    · change (if depth = 1 then Except.ok () else Except.error _) = _ ↔ _
      by_cases hone : depth = 1
      · rw [if_pos hone, hone]
        exact ⟨fun _ => rfl, fun _ => rfl⟩
      · rw [if_neg hone]
        constructor
        · intro h
          cases h
        · intro h
          exact absurd (Except.ok.inj h) hone
  rw [hbalance, depthAfter_eq_ok_iff]
  constructor
  · rintro ⟨program, hsteps, hfinds, hcount⟩
    exact ⟨program, Operation.recognizes.content_eq_iff.mp hsteps, hfinds, hcount⟩
  · rintro ⟨program, hspells, htwo, hsingle⟩
    exact ⟨program, Operation.recognizes.content_eq_iff.mpr hspells, htwo, hsingle⟩

theorem operations_of_spellsAll
    {expression : Bytes} (h : Bytecode.SpellsAll Operation.Spells program expression) :
    operations expression = program := by
  have hsteps := Operation.recognizes.content_eq_iff.mpr h
  have hoperations : operations expression =
      ((steps expression).map Step.content).filterMap Except.toOption := by
    rw [List.filterMap_map]
    rfl
  rw [hoperations, steps, hsteps, List.filterMap_map]
  exact List.filterMap_some

theorem sum_eq_ofInt
    (program : List Operation) :
    sum (program.map Operation.constant) =
      Int64.ofInt (program.map fun operation => operation.constant.toInt).sum := by
  induction program with
  | nil =>
      rfl
  | cons operation rest ih =>
      rw [List.map_cons, sum, ih, List.map_cons, List.sum_cons, Int64.ofInt_add, Int64.ofInt_toInt]

theorem toUInt64_total
    (cfa : UInt64) (program : List Operation) :
    (total cfa program).toUInt64 = UInt64.ofInt (exactTotal cfa program) := by
  have hcfa : Int64.ofInt cfa.toNat = cfa.toInt64 := by
    rw [Int64.ofInt_eq_ofNat, ← UInt64.toInt64_ofNat', UInt64.ofNat_toNat]
  rw [← toUInt64_ofInt, exactTotal, total, sum_eq_ofInt, Int64.ofInt_add, Int64.ofInt_mul, hcfa,
    Int64.ofInt_eq_ofNat]

end Expression

/-- A sum of constants and frame addresses. -/
inductive SumTree where
  | const (n : Int64)
  | frameAddress
  | add (below top : SumTree)

namespace SumTree

open Expression

/-- The operations of a sum, each addition behind its operands. -/
def operations : SumTree → List Operation
  | const n => [.const n]
  | frameAddress => [.frameAddress]
  | add below top => below.operations ++ (top.operations ++ [.plus])

/-- The exact sum of the leaves. -/
def value (cfa : UInt64) : SumTree → Int
  | const n => n.toInt
  | frameAddress => cfa.toNat
  | add below top => below.value cfa + top.value cfa

/-- The operations of the sums on a stack, the topmost sum last. -/
def stackOperations : List SumTree → List Operation
  | [] => []
  | top :: below => stackOperations below ++ top.operations

variable {program : List Operation}

theorem exactTotal_append
    (cfa : UInt64) (first second : List Operation) :
    exactTotal cfa (first ++ second) = exactTotal cfa first + exactTotal cfa second := by
  rw [exactTotal, exactTotal, exactTotal, List.map_append, List.sum_append, frameUses, frameUses,
    frameUses, List.count_append, Int.natCast_add, Int.add_mul]
  omega

theorem exactTotal_operations
    (cfa : UInt64) (tree : SumTree) :
    exactTotal cfa tree.operations = tree.value cfa := by
  induction tree with
  | const n =>
      change n.toInt + 0 + 0 * _ = n.toInt
      omega
  | frameAddress =>
      change 0 + 0 + 1 * (cfa.toNat : Int) = cfa.toNat
      omega
  | add below top hbelow htop =>
      have hplus : exactTotal cfa [.plus] = 0 + 0 + 0 * (cfa.toNat : Int) := rfl
      rw [operations, exactTotal_append, exactTotal_append, hbelow, htop, value, hplus]
      omega

theorem pushes_operations
    (tree : SumTree) :
    pushes tree.operations = additions tree.operations + 1 := by
  induction tree with
  | const n =>
      rfl
  | frameAddress =>
      rfl
  | add below top hbelow htop =>
      have hpushes : pushes [.plus] = 0 := rfl
      have hadditions : additions [.plus] = 1 := rfl
      rw [operations, pushes_append, pushes_append, additions_append, additions_append, hbelow,
        htop, hpushes, hadditions]
      omega

/-- Behind the operations of a sum there is one value more. -/
theorem findsOperands_operations_append
    {depth : Nat} {rest : List Operation} (tree : SumTree) :
    FindsOperands depth (tree.operations ++ rest) ↔ FindsOperands (depth + 1) rest := by
  induction tree generalizing depth rest with
  | const n =>
      exact findsOperands_cons_of_ne nofun
  | frameAddress =>
      exact findsOperands_cons_of_ne nofun
  | add below top hbelow htop =>
      rw [operations, List.append_assoc, List.append_assoc, hbelow, htop, List.singleton_append,
        findsOperands_plus_cons]
      exact and_iff_right (by omega)

theorem balanced_operations
    (tree : SumTree) :
    Balanced tree.operations := by
  have hfinds : FindsOperands 0 (tree.operations ++ []) :=
    tree.findsOperands_operations_append.mpr findsOperands_nil
  rw [List.append_nil] at hfinds
  exact ⟨hfinds, tree.pushes_operations⟩

theorem exists_operations_eq_singleton
    {operation : Operation} (h : operation ≠ .plus) :
    ∃ leaf : SumTree, leaf.operations = [operation] := by
  cases operation with
  | const n =>
      exact ⟨const n, rfl⟩
  | frameAddress =>
      exact ⟨frameAddress, rfl⟩
  | plus =>
      exact absurd rfl h

/-- Operations that find their operands on a stack of sums leave a stack of sums. -/
theorem exists_stackOperations_eq
    {stack : List SumTree} (h : FindsOperands stack.length program) :
    ∃ last, stackOperations stack ++ program = stackOperations last := by
  induction program generalizing stack with
  | nil =>
      exact ⟨stack, List.append_nil _⟩
  | cons operation rest ih =>
      by_cases hplus : operation = .plus
      · -- The two sums on top are joined, and the operations stay as they are.
        subst hplus
        obtain ⟨htwo, hrest⟩ := findsOperands_plus_cons.mp h
        match stack with
        | top :: below :: others =>
            have hjoined : FindsOperands (add below top :: others).length rest := hrest
            obtain ⟨last, hlast⟩ := ih hjoined
            refine ⟨last, ?_⟩
            rw [← hlast, stackOperations, stackOperations, stackOperations, operations]
            simp only [List.append_assoc, List.cons_append, List.nil_append]
      · obtain ⟨leaf, hleaf⟩ := exists_operations_eq_singleton hplus
        have hpushed : FindsOperands (leaf :: stack).length rest :=
          (findsOperands_cons_of_ne hplus).mp h
        obtain ⟨last, hlast⟩ := ih hpushed
        refine ⟨last, ?_⟩
        rw [← hlast, stackOperations, hleaf, List.append_assoc, List.singleton_append]

theorem pushes_stackOperations
    (stack : List SumTree) :
    pushes (stackOperations stack) = additions (stackOperations stack) + stack.length := by
  induction stack with
  | nil =>
      rfl
  | cons top below ih =>
      rw [stackOperations, pushes_append, additions_append, ih, pushes_operations, List.length_cons]
      omega

/-- Balanced operations are those of a sum. -/
theorem balanced_iff_exists_operations_eq :
    Balanced program ↔ ∃ tree : SumTree, tree.operations = program := by
  constructor
  · rintro ⟨htwo, hsingle⟩
    have hfinds : FindsOperands ([] : List SumTree).length program := htwo
    obtain ⟨last, hlast⟩ := exists_stackOperations_eq hfinds
    change program = stackOperations last at hlast
    have hpushes := pushes_stackOperations last
    rw [← hlast, hsingle] at hpushes
    obtain ⟨tree, rfl⟩ := List.length_eq_one_iff.mp (Nat.add_left_cancel hpushes).symm
    exact ⟨tree, hlast.symm⟩
  · rintro ⟨tree, rfl⟩
    exact tree.balanced_operations

end SumTree

namespace Expression

/-- **Expressions are sums.** An expression has a value exactly if operations are spelled there in
which every addition finds its operands and one value is left, so exactly if it spells the
operations of a sum. The value is the exact sum in 64 bits. -/
theorem evaluate_eq_ok_iff_sum
    (expression : Bytes) (cfa value : UInt64) :
    (evaluate expression cfa = .ok value ↔
      ∃ program, Bytecode.SpellsAll Operation.Spells program expression ∧ Balanced program ∧
        value = UInt64.ofInt (exactTotal cfa program)) ∧
    (evaluate expression cfa = .ok value ↔
      ∃ tree : SumTree, Bytecode.SpellsAll Operation.Spells tree.operations expression ∧
        value = UInt64.ofInt (tree.value cfa)) := by
  have hprogram : evaluate expression cfa = .ok value ↔
      ∃ program, Bytecode.SpellsAll Operation.Spells program expression ∧ Balanced program ∧
        value = UInt64.ofInt (exactTotal cfa program) := by
    rw [evaluate_eq]
    constructor
    · intro h
      rcases hbalance : balance expression with fault | ⟨⟩
      · rw [hbalance] at h
        cases h
      · rw [hbalance] at h
        obtain ⟨program, hspells, hbalanced⟩ := balance_eq_ok_iff.mp hbalance
        have hvalue : (total cfa (operations expression)).toUInt64 = value := Except.ok.inj h
        rw [operations_of_spellsAll hspells, toUInt64_total] at hvalue
        exact ⟨program, hspells, hbalanced, hvalue.symm⟩
    · rintro ⟨program, hspells, hbalanced, rfl⟩
      rw [balance_eq_ok_iff.mpr ⟨program, hspells, hbalanced⟩, operations_of_spellsAll hspells,
        ← toUInt64_total]
      rfl
  refine ⟨hprogram, hprogram.trans ?_⟩
  constructor
  · rintro ⟨_, hspells, hbalanced, hvalue⟩
    obtain ⟨tree, rfl⟩ := SumTree.balanced_iff_exists_operations_eq.mp hbalanced
    rw [tree.exactTotal_operations] at hvalue
    exact ⟨tree, hspells, hvalue⟩
  · rintro ⟨tree, hspells, hvalue⟩
    rw [← tree.exactTotal_operations] at hvalue
    exact ⟨tree.operations, hspells, tree.balanced_operations, hvalue⟩

/-- The operand of the constant is the code of an addition, and is not taken for one. -/
example :
    evaluate [0x11, 0x22, 0x9c, 0x22] 8 = .ok 42 ∧
    evaluate [0x11, 0x22, 0x22, 0x9c] 8 = .error (.stackUnderflow 2 1) :=
  ⟨by cbv, by cbv⟩

end Expression

end CallFrame
