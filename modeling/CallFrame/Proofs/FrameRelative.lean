import CallFrame.DebugSections
import CallFrame.Expression
import CallFrame.Proofs.Growth

/-!
# Addresses relative to the frame

The stack pointer has no part in a lookup but the last one, when the distance that was found is
added to it. So a frame address moves with the stack pointer, and whether there is one does not
depend on it.

A location expression may use the frame address any number of times, also not at all. Whether
it can be evaluated depends on the depth of its stack and never on the values there. Each
operation changes the sum of the values on the stack in its own way: what is pushed is added,
and replacing two values by their sum changes nothing. So the value left at the end is the sum
of the constants, plus the frame address as often as it is pushed.
-/

namespace CallFrame

namespace Operation

/-- The depth of the stack after an operation. -/
def depthAfter (depth : Nat) : Operation → Except Fault Nat
  | .const _ | .frameAddress => .ok (depth + 1)
  | .plus => if 2 ≤ depth then .ok (depth - 1) else .error (.stackUnderflow 2 depth)

/-- The constant that an operation pushes, zero if it pushes none. -/
def constant : Operation → Int64
  | .const n => n
  | _ => 0

theorem length_apply
    (cfa : UInt64) (stack : List Int64) (operation : Operation) :
    List.length <$> operation.apply cfa stack = operation.depthAfter stack.length := by
  cases operation with
  | const n =>
      rfl
  | frameAddress =>
      rfl
  | plus =>
      match stack with
      | [] =>
          rfl
      | [_] =>
          rfl
      | top :: below :: rest =>
          rw [depthAfter, if_pos (by simp)]
          rfl

end Operation

namespace Expression

/-- The operations of an expression, as far as they can be read. -/
def operations (expression : Bytes) : List Operation :=
  (steps expression).filterMap fun step => step.content.toOption

/-- How often the frame address is pushed. -/
def frameUses (operations : List Operation) : Nat :=
  operations.count .frameAddress

def sum : List Int64 → Int64
  | [] => 0
  | value :: rest => value + sum rest

/-- The sum of the constants, plus the frame address as often as it is pushed. -/
def total (cfa : UInt64) (operations : List Operation) : Int64 :=
  sum (operations.map Operation.constant) + Int64.ofNat (frameUses operations) * cfa.toInt64

/-- One operation adds to the sum of the stack what it adds to the total. -/
theorem sum_of_apply
    {cfa : UInt64} {stack next : List Int64} {operation : Operation}
    (h : operation.apply cfa stack = .ok next) (rest : List Operation) :
    sum next + total cfa rest = sum stack + total cfa (operation :: rest) := by
  cases operation with
  | const n =>
      cases h
      have huses : frameUses (.const n :: rest) = frameUses rest := List.count_cons_of_ne (by simp)
      simp only [total, sum, List.map_cons, Operation.constant, huses]
      grind
  | frameAddress =>
      cases h
      have huses : frameUses (.frameAddress :: rest) = frameUses rest + 1 := List.count_cons_self
      simp only [total, sum, List.map_cons, Operation.constant, huses, Int64.ofNat_add]
      grind
  | plus =>
      match stack with
      | [] =>
          cases h
      | [_] =>
          cases h
      | top :: below :: others =>
          cases h
          have huses : frameUses (.plus :: rest) = frameUses rest := List.count_cons_of_ne (by simp)
          simp only [total, sum, List.map_cons, Operation.constant, huses]
          grind

/-- The depth of the stack after all steps, or the first fault. -/
def depthAfter : Nat → List (Step Operation) → Except Fault Nat
  | depth, [] => .ok depth
  | depth, step :: rest => do
      let operation ← step.content
      let depth ← operation.depthAfter depth
      depthAfter depth rest

/-- The faults of a run, and the depth that it comes to, do not depend on the values. -/
theorem length_run
    (cfa : UInt64) (stack : List Int64) (steps : List (Step Operation)) :
    List.length <$> run cfa stack steps = depthAfter stack.length steps := by
  induction steps generalizing stack with
  | nil =>
      rfl
  | cons step rest ih =>
      rw [run, depthAfter]
      rcases step.content with fault | operation
      · rfl
      · change List.length <$> (operation.apply cfa stack >>= fun next => run cfa next rest) =
          operation.depthAfter stack.length >>= fun depth => depthAfter depth rest
        rw [← Operation.length_apply cfa]
        rcases operation.apply cfa stack with fault | next
        · rfl
        · exact ih next

theorem sum_of_run
    {cfa : UInt64} {stack last : List Int64} {steps : List (Step Operation)}
    (h : run cfa stack steps = .ok last) :
    sum last =
      sum stack + total cfa (steps.filterMap fun step => step.content.toOption) := by
  induction steps generalizing stack with
  | nil =>
      cases h
      simp only [total, frameUses, List.filterMap_nil, List.map_nil, List.count_nil, sum]
      change sum last = sum last + (0 + 0 * cfa.toInt64)
      grind
  | cons step rest ih =>
      obtain ⟨operation, hcontent, hrun⟩ := bind_eq_ok_iff.mp h
      obtain ⟨next, happly, hrest⟩ := bind_eq_ok_iff.mp hrun
      rw [ih hrest, sum_of_apply happly, List.filterMap_cons, hcontent]
      rfl

/-- Whether an expression leaves one value, or the fault that it ends with. -/
def balance (expression : Bytes) : Except Fault Unit := do
  let depth ← depthAfter 0 (steps expression)
  if depth = 1 then .ok () else .error (.unbalancedExpression depth)

/-- A value is the total of its operations, and the frame has no part in whether there is
one. -/
theorem evaluate_eq
    (expression : Bytes) (cfa : UInt64) :
    evaluate expression cfa =
      (fun _ => (total cfa (operations expression)).toUInt64) <$> balance expression := by
  have hlength := length_run cfa [] (steps expression)
  rw [evaluate, balance]
  change _ = depthAfter ([] : List Int64).length _ at hlength
  rcases hrun : run cfa [] (steps expression) with fault | last
  · rw [hrun] at hlength
    change _ = (fun _ => _) <$> (depthAfter ([] : List Int64).length _ >>= _)
    rw [← hlength]
    rfl
  · have hsum := sum_of_run hrun
    rw [hrun] at hlength
    change answer last = (fun _ => _) <$> (depthAfter ([] : List Int64).length _ >>= _)
    rw [← hlength]
    match last with
    | [] =>
        rfl
    | [value] =>
        have hvalue : value = total cfa (operations expression) := by
          simp only [sum] at hsum
          change value + 0 = 0 + total cfa (operations expression) at hsum
          grind
        rw [hvalue]
        rfl
    | _ :: _ :: _ =>
        rfl

/-- In frames whose addresses lie at one distance from a base, an expression has one and the same
fault, or it is one multiple of the base plus a constant. -/
theorem evaluate_relative
    (expression : Bytes) (distance : UInt64) :
    (∃ fault, ∀ base, evaluate expression (base + distance) = .error fault) ∨
    ∃ constant, ∀ base, evaluate expression (base + distance) =
      .ok (constant + UInt64.ofNat (frameUses (operations expression)) * base) := by
  have hvalue := evaluate_eq expression
  generalize balance expression = balanced at hvalue
  cases balanced with
  | error fault =>
      exact Or.inl ⟨fault, fun base => hvalue _⟩
  | ok _ =>
      refine Or.inr ⟨(sum ((operations expression).map Operation.constant)).toUInt64 +
        UInt64.ofNat (frameUses (operations expression)) * distance, fun base => ?_⟩
      refine (hvalue _).trans (congrArg Except.ok ?_)
      rw [total, Int64.toUInt64_add, Int64.toUInt64_mul, Int64.toUInt64_ofNat',
        UInt64.toUInt64_toInt64]
      grind

end Expression

namespace FrameSection

/-- The distance of the frame address from the stack pointer. -/
def cfaOffset (frames : FrameSection) (settings : Settings) (pc : UInt64) :
    Except Fault Int64 := do
  let description ← frames.find pc settings.maxRecords
  let common ← frames.commonEntry description.commonOffset
  description.cfaOffset frames.order settings.offsetTiming common pc

/-- The stack pointer is only what the distance is added to. -/
theorem frameAddress_eq
    (frames : FrameSection) (settings : Settings) (pc sp : UInt64) :
    frames.frameAddress settings pc sp =
      (fun offset => sp + offset.toUInt64) <$> frames.cfaOffset settings pc := by
  have hadd : ∀ offset : Int64, (sp.toInt64 + offset).toUInt64 = sp + offset.toUInt64 := by
    intro offset
    rw [Int64.toUInt64_add, UInt64.toUInt64_toInt64]
  rw [frameAddress, cfaOffset]
  rcases frames.find pc settings.maxRecords with fault | description
  · rfl
  · change (frames.commonEntry description.commonOffset >>= _) =
      _ <$> (frames.commonEntry description.commonOffset >>= _)
    rcases frames.commonEntry description.commonOffset with fault | common
    · rfl
    · change (fun offset => _) <$> description.cfaOffset frames.order _ common pc = _
      simp only [hadd]
      rfl

end FrameSection

namespace DebugSections

/-- **Frame-relative addresses.** At a program counter either every stack pointer gives the same
fault, or there is one distance from the stack pointer to the frame address. And an expression
either has the same fault in all these frames, or its value is one multiple of the stack pointer
plus a constant: the multiple is the number of frame addresses that it pushes. -/
theorem frameAddress_relative
    (sections : DebugSections) (settings : Settings) (pc : UInt64) :
    (∃ fault, ∀ sp, sections.frameAddress settings pc sp = .error fault) ∨
    ∃ distance : UInt64,
      (∀ sp, sections.frameAddress settings pc sp = .ok (sp + distance)) ∧
      ∀ expression,
        ((∃ fault, ∀ sp, Expression.evaluate expression (sp + distance) = .error fault) ∨
          ∃ constant, ∀ sp, Expression.evaluate expression (sp + distance) =
            .ok (constant +
              UInt64.ofNat (Expression.frameUses (Expression.operations expression)) * sp)) ∧
        (Expression.frameUses (Expression.operations expression) = 1 → ∀ sp move,
          Expression.evaluate expression (sp + move + distance) =
            (· + move) <$> Expression.evaluate expression (sp + distance)) := by
  have hframe : ∀ sp, sections.frameAddress settings pc sp =
      (fun offset => sp + offset.toUInt64) <$> sections.frameSection.cfaOffset settings pc :=
    sections.frameSection.frameAddress_eq settings pc
  generalize sections.frameSection.cfaOffset settings pc = found at hframe
  cases found with
  | error fault =>
      exact Or.inl ⟨fault, hframe⟩
  | ok offset =>
      refine Or.inr ⟨offset.toUInt64, hframe, fun expression => ?_⟩
      have hrelative := Expression.evaluate_relative expression offset.toUInt64
      refine ⟨hrelative, fun hone sp move => ?_⟩
      rw [hone] at hrelative
      rcases hrelative with ⟨fault, hfault⟩ | ⟨constant, hvalue⟩
      · rw [hfault, hfault]
        rfl
      · rw [hvalue, hvalue]
        refine congrArg Except.ok ?_
        change constant + 1 * (sp + move) = constant + 1 * sp + move
        grind

/-- A variable below the frame address moves with the stack pointer, also across the end of the
address space. -/
theorem frameAddress_relative_oneFrame :
    Expression.frameUses (Expression.operations [0x9c, 0x11, 0x68, 0x22]) = 1 ∧
    Expression.evaluate [0x9c, 0x11, 0x68, 0x22] (0x100 + 0xffffffffffffff00 + 16) =
      (· + 0xffffffffffffff00) <$>
        Expression.evaluate [0x9c, 0x11, 0x68, 0x22] (0x100 + 16) := by
  have huses : Expression.frameUses (Expression.operations [0x9c, 0x11, 0x68, 0x22]) = 1 := by
    cbv
  have hfound : (oneFrame 3 43).frameAddress {} 0x1001 0 = .ok 16 := by cbv
  rcases frameAddress_relative (oneFrame 3 43) {} 0x1001 with
    ⟨fault, hfault⟩ | ⟨distance, haddress, hexpression⟩
  · cases (hfault 0).symm.trans hfound
  · have hdistance : distance = 16 := by
      have hsum := Except.ok.inj ((haddress 0).symm.trans hfound)
      rwa [UInt64.zero_add] at hsum
    subst hdistance
    exact ⟨huses, (hexpression _).2 huses 0x100 0xffffffffffffff00⟩

end DebugSections

end CallFrame
