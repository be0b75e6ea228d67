import CallFrame.CommonEntry

/-!
# The faults of a reader

A chain of reads fails with a fault of one of its parts. So the faults that a reader can have
are found by going through its parts, and a property of faults that holds in every part holds
in the whole.

The reads of fixed width and of numbers run out of bytes in one way each: the fault names the
width, and fewer bytes than that were left.
-/

namespace CallFrame

namespace Reader

variable {α β : Type} {p : Fault → Prop}

def FailsWith (p : Fault → Prop) (reader : Reader α) : Prop :=
  ∀ bytes fault, reader.result bytes = .error fault → p fault

theorem failsWith_ofExcept
    {outcome : Except Fault α} (h : ∀ fault, outcome = .error fault → p fault) :
    (ofExcept outcome).FailsWith p :=
  fun _ fault hfault => h fault hfault

theorem failsWith_pure
    (a : α) :
    (pure a : Reader α).FailsWith p :=
  failsWith_ofExcept fun _ hfault => nomatch hfault

theorem failsWith_fail
    {fault : Fault} (h : p fault) :
    (fail fault : Reader α).FailsWith p := by
  apply failsWith_ofExcept
  intro other hother
  cases hother
  exact h

theorem FailsWith.bind
    {first : Reader α} {next : α → Reader β} (hfirst : first.FailsWith p)
    (hnext : ∀ a, (next a).FailsWith p) :
    (first >>= next).FailsWith p := by
  intro bytes fault hfault
  rcases hrun : first.run bytes with ⟨other | a, rest⟩
  · rw [result, run_bind_error hrun] at hfault
    cases hfault
    exact hfirst bytes fault (congrArg Prod.fst hrun)
  · rw [result, run_bind_ok hrun] at hfault
    exact hnext a rest fault hfault

/-- A check in front of a read may be used in the read. -/
theorem FailsWith.bind_ofExcept
    {outcome : Except Fault α} {next : α → Reader β}
    (h : ∀ fault, outcome = .error fault → p fault)
    (hnext : ∀ a, outcome = .ok a → (next a).FailsWith p) :
    (ofExcept outcome >>= next).FailsWith p := by
  cases outcome with
  | ok a =>
      exact hnext a rfl
  | error fault =>
      exact failsWith_fail (h fault rfl)

theorem FailsWith.ite
    {c : Prop} [Decidable c] {first second : Reader α}
    (hfirst : first.FailsWith p) (hsecond : second.FailsWith p) :
    (if c then first else second).FailsWith p := by
  split
  · exact hfirst
  · exact hsecond

theorem failsWith_u8
    (h : p (.outOfBytes 1 0)) :
    u8.FailsWith p := by
  intro bytes fault hfault
  cases bytes with
  | nil =>
      cases hfault
      exact h
  | cons byte rest =>
      cases hfault

theorem failsWith_take
    {count : Nat} (h : ∀ remaining < count, p (.outOfBytes count remaining)) :
    (take count).FailsWith p := by
  intro bytes fault hfault
  by_cases hcount : count ≤ bytes.length
  · rw [result, run_take_of_le hcount] at hfault
    cases hfault
  · rw [result, run_take_of_lt (Nat.not_le.mp hcount)] at hfault
    cases hfault
    exact h bytes.length (Nat.not_le.mp hcount)

theorem failsWith_field
    {order : ByteOrder} {width : Nat}
    (h : ∀ remaining < width, p (.outOfBytes width remaining)) :
    (field order width).FailsWith p :=
  (failsWith_take h).bind fun _ => failsWith_pure _

theorem failsWith_u32
    {order : ByteOrder} (h : ∀ remaining < 4, p (.outOfBytes 4 remaining)) :
    (u32 order).FailsWith p :=
  (failsWith_field h).bind fun _ => failsWith_pure _

theorem failsWith_i16
    {order : ByteOrder} (h : ∀ remaining < 2, p (.outOfBytes 2 remaining)) :
    (i16 order).FailsWith p :=
  ((failsWith_field h).bind fun _ => failsWith_pure _).bind fun _ => failsWith_pure _

theorem failsWith_remainder :
    remainder.FailsWith p :=
  fun _ _ hfault => nomatch hfault

theorem failsWith_inside
    {count : Nat} {reader : Reader α}
    (h : ∀ remaining < count, p (.outOfBytes count remaining)) (hreader : reader.FailsWith p) :
    (inside count reader).FailsWith p :=
  (failsWith_take h).bind fun body => failsWith_ofExcept (hreader body)

end Reader

namespace Leb128

variable {p : Fault → Prop}

theorem failsWith_groups
    (hend : p (.outOfBytes 1 0)) (hwide : p .numberTooWide) (room : Nat) :
    (groups room).FailsWith p := by
  induction room with
  | zero =>
      exact Reader.failsWith_fail hwide
  | succ room ih =>
      have hmore : ∀ byte : UInt8, (groups room >>= fun rest => pure (byte :: rest)).FailsWith p :=
        fun byte => ih.bind fun rest => Reader.failsWith_pure (byte :: rest)
      exact (Reader.failsWith_u8 hend).bind fun byte =>
        (Reader.failsWith_pure [byte]).ite (hmore byte)

theorem failsWith_unsigned
    (hend : p (.outOfBytes 1 0)) (hwide : p .numberTooWide) :
    unsigned.FailsWith p :=
  (failsWith_groups hend hwide maxGroups).bind fun _ =>
    (Reader.failsWith_pure _).ite (Reader.failsWith_fail hwide)

theorem failsWith_signed
    (hend : p (.outOfBytes 1 0)) (hwide : p .numberTooWide) :
    signed.FailsWith p :=
  (failsWith_groups hend hwide maxGroups).bind fun _ =>
    (Reader.failsWith_pure _).ite (Reader.failsWith_fail hwide)

end Leb128

namespace Fault

/-- The fault can arise where the operands of an instruction are read: a number, a byte or a field
of two bytes is cut off, or a number is too wide. -/
def IsOfOperands : Fault → Prop
  | .outOfBytes wanted remaining => (wanted = 1 ∨ wanted = 2) ∧ remaining < wanted
  | .numberTooWide => True
  | _ => False

/-- The fault can arise behind the marker of a common information entry: a number, a byte or a
field of two bytes is cut off by the end of the entry, a number is too wide, or something is not
supported. -/
def IsOfContent : Fault → Prop
  | .outOfBytes wanted remaining => (wanted = 1 ∨ wanted = 2) ∧ remaining < wanted
  | .numberTooWide => True
  | .unsupportedVersion _ => True
  | .unsupportedAugmentation _ => True
  | .unsupportedInstruction _ => True
  | _ => False

/-- The fault can arise in front of the payload of an entry: where its length is read, where the
length is checked, and where its bytes are cut out. -/
def IsOfFraming : Fault → Prop
  | .outOfBytes wanted remaining => 4 ≤ wanted ∧ remaining < wanted
  | .wideFormat _ => True
  | .entryTooShort .. => True
  | _ => False

theorem IsOfOperands.isOfContent
    {fault : Fault} (h : fault.IsOfOperands) :
    fault.IsOfContent := by
  cases fault with
  | outOfBytes wanted remaining =>
      exact h
  | numberTooWide =>
      exact True.intro
  | _ =>
      exact h.elim

end Fault

namespace Instruction

/-- An opcode that one of the instructions has is refused for its operands only. -/
theorem failsWith_operands_of_hasInstruction
    {opcode : UInt8} (h : HasInstruction opcode) (order : ByteOrder) :
    (operands order opcode).FailsWith Fault.IsOfOperands := by
  have hend : (Fault.outOfBytes 1 0).IsOfOperands := ⟨Or.inl rfl, by decide⟩
  have hunsigned := Leb128.failsWith_unsigned hend True.intro
  have hsigned := Leb128.failsWith_signed hend True.intro
  have hhalf : (Reader.i16 order).FailsWith Fault.IsOfOperands :=
    Reader.failsWith_i16 fun _ hremaining => ⟨Or.inr rfl, hremaining⟩
  rcases h with hone | htwo | hmem
  · rw [operands_of_one hone]
    exact Reader.failsWith_pure _
  · rw [operands_of_two htwo]
    exact hsigned.bind fun _ => Reader.failsWith_pure _
  · simp only [List.mem_cons, List.not_mem_nil, or_false] at hmem
    rcases hmem with rfl | rfl | rfl | rfl | rfl
    · exact Reader.failsWith_pure Instruction.nop
    · exact ((Reader.failsWith_u8 hend).bind fun _ => Reader.failsWith_pure _).bind fun _ =>
        Reader.failsWith_pure _
    · exact hhalf.bind fun _ => Reader.failsWith_pure _
    · exact hunsigned.bind fun _ => hunsigned.bind fun _ => Reader.failsWith_pure _
    · exact hsigned.bind fun _ => Reader.failsWith_pure _

theorem failsWith_operands
    (order : ByteOrder) (opcode : UInt8) :
    (operands order opcode).FailsWith Fault.IsOfContent := by
  by_cases h : HasInstruction opcode
  · intro bytes fault hfault
    exact (failsWith_operands_of_hasInstruction h order bytes fault hfault).isOfContent
  · rw [operands_of_not_hasInstruction h]
    exact Reader.failsWith_fail True.intro

end Instruction

theorem Bytecode.fault_of_mem_steps
    {α : Type} {operands : UInt8 → Reader α} {p : Fault → Prop}
    (h : ∀ opcode, (operands opcode).FailsWith p) {bytes : Bytes} {step : Step α} {fault : Fault}
    (hstep : step ∈ steps operands bytes) (hfault : step.content = .error fault) :
    p fault := by
  fun_induction steps operands bytes with
  | case1 =>
      cases hstep
  | case2 opcode bytes a rest hrun ih =>
      rcases List.mem_cons.mp hstep with rfl | hstep
      · cases hfault
      · exact ih hstep
  | case3 opcode bytes other rest hrun =>
      cases List.mem_singleton.mp hstep
      cases hfault
      exact h opcode bytes fault (congrArg Prod.fst hrun)

namespace CommonEntry

theorem fault_of_apply
    {entry : CommonEntry} {opcode : UInt8} {instruction : Instruction} {fault : Fault}
    (h : entry.apply opcode instruction = .error fault) :
    fault = .unsupportedInstruction opcode := by
  cases instruction with
  | nop =>
      cases h
  | defineCfa register offset =>
      cases h
  | saved register factored =>
      by_cases hregister : register.val = entry.returnRegister.toNat
      · rw [apply, if_pos hregister] at h
        cases h
      · rw [apply, if_neg hregister] at h
        cases h
        rfl
  | _ =>
      cases h
      rfl

theorem fault_of_applyAll
    {entry : CommonEntry} {steps : List (Step Instruction)} {fault : Fault}
    (hsteps : ∀ step ∈ steps, ∀ other, step.content = .error other → other.IsOfContent)
    (h : entry.applyAll steps = .error fault) :
    fault.IsOfContent := by
  induction steps generalizing entry with
  | nil =>
      cases h
  | cons step rest ih =>
      rcases hcontent : step.content with other | instruction
      · rw [applyAll, hcontent] at h
        cases h
        exact hsteps step List.mem_cons_self fault hcontent
      · rw [applyAll, hcontent] at h
        change (entry.apply step.opcode instruction >>= fun next => next.applyAll rest) = _ at h
        rcases happly : entry.apply step.opcode instruction with other | next
        · rw [happly] at h
          cases h
          rw [fault_of_apply happly]
          trivial
        · rw [happly] at h
          exact ih (fun other hother => hsteps other (List.mem_cons_of_mem step hother)) h

/-- What is behind the marker fails in its own way, never like the frame around it. -/
theorem failsWith_content
    (order : ByteOrder) :
    (content order).FailsWith Fault.IsOfContent := by
  have hend : (Fault.outOfBytes 1 0).IsOfContent := ⟨Or.inl rfl, by decide⟩
  have hbyte := Reader.failsWith_u8 hend
  have hformat : checkFormat.FailsWith Fault.IsOfContent :=
    hbyte.bind fun _ => (Reader.failsWith_fail True.intro).ite
      (hbyte.bind fun _ => (Reader.failsWith_fail True.intro).ite (Reader.failsWith_pure _))
  have hheader : header.FailsWith Fault.IsOfContent :=
    (Leb128.failsWith_unsigned hend True.intro).bind fun _ =>
      (Leb128.failsWith_signed hend True.intro).bind fun _ =>
        hbyte.bind fun _ => Reader.failsWith_pure _
  refine hformat.bind fun _ => hheader.bind fun entry =>
    Reader.failsWith_remainder.bind fun instructions => ?_
  apply Reader.failsWith_ofExcept
  intro fault hfault
  exact fault_of_applyAll (fun step hstep _ =>
    Bytecode.fault_of_mem_steps (Instruction.failsWith_operands order) hstep) hfault

end CommonEntry

namespace Entry

theorem fault_of_checkLength
    {offset : Nat} {length : UInt32} {fault : Fault}
    (h : checkLength offset length = .error fault) :
    fault = .wideFormat offset ∨ fault = .entryTooShort offset length := by
  unfold checkLength at h
  split at h
  · cases h
    exact Or.inl rfl
  · split at h
    · cases h
      exact Or.inr rfl
    · cases h

theorem failsWith_body
    {p : Fault → Prop} {order : ByteOrder} (h : ∀ remaining < 4, p (.outOfBytes 4 remaining)) :
    (body order).FailsWith p :=
  (Reader.failsWith_u32 h).bind fun _ =>
    Reader.failsWith_remainder.bind fun _ => Reader.failsWith_pure _

theorem failsWith_reader
    (order : ByteOrder) (offset : Nat) :
    (reader order offset).FailsWith Fault.IsOfFraming := by
  have hend : ∀ remaining < 4, (Fault.outOfBytes 4 remaining).IsOfFraming :=
    fun _ hremaining => ⟨Nat.le_refl 4, hremaining⟩
  refine (Reader.failsWith_u32 hend).bind fun length =>
    Reader.FailsWith.bind_ofExcept ?_ fun checked hchecked => ?_
  · intro fault hfault
    rcases fault_of_checkLength hfault with rfl | rfl
    · trivial
    · trivial
  · -- A length that passes the check counts the marker, so the bytes cut out are four at least.
    have hfour := (checkLength_eq_ok_iff.mp hchecked).2
    exact Reader.failsWith_inside (fun _ hremaining => ⟨hfour, hremaining⟩) (failsWith_body hend)

end Entry

end CallFrame
