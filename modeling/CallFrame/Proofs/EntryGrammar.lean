import CallFrame.FrameSection
import CallFrame.Proofs.InitialRules
import CallFrame.Proofs.Spellings
import CallFrame.Proofs.Tiling

/-!
# The grammar of common information entries

What stands behind the marker of a common information entry has a grammar: the version, the end of
an empty augmentation string, the two factors, the column of the return address, and instructions
up to the last byte. Only instructions that set one of the two rules may be there, or none at all,
and the rule for the return address must be for the column that was named.

The reader of common information entries accepts exactly this grammar, and the entry that it reads
has the values spelled there, with each rule from the last instruction for it. Nothing else in the
section has a part in it.
-/

namespace CallFrame

namespace CommonEntry

variable {order : ByteOrder}

/-- The payload spells the entry. The factored offset of the return address is multiplied out
exactly and stored in 64 bits. -/
inductive Spells (order : ByteOrder) : CommonEntry → Bytes → Prop
  | intro {codeFactor : UInt64} {dataFactor : Int64} {returnRegister : UInt8}
      {instructions : List Instruction} {first second program : Bytes}
      (hcodeFactor : Leb128.SpellsUnsigned codeFactor first)
      (hdataFactor : Leb128.SpellsSigned dataFactor second)
      (hprogram : Bytecode.SpellsAll (Instruction.Spells order) instructions program)
      (hinitial : ∀ instruction ∈ instructions, instruction.IsInitial returnRegister) :
      Spells order {
          codeFactor, dataFactor, returnRegister
          cfaRegister := ((instructions.filterMap Instruction.definition?).getLast?.map
            fun rule => rule.1).getD 0
          cfaOffset := ((instructions.filterMap Instruction.definition?).getLast?.map
            fun rule => rule.2.toInt64).getD 0
          returnOffset := (instructions.filterMap Instruction.saving?).getLast?.map
            fun factored => Int64.ofInt (factored.toInt * dataFactor.toInt) }
        (3 :: 0 :: (first ++ (second ++ returnRegister :: program)))

theorem run_checkFormat_eq_ok_iff
    {bytes rest : Bytes} :
    checkFormat.run bytes = (.ok (), rest) ↔ bytes = 3 :: 0 :: rest := by
  constructor
  · intro h
    obtain ⟨found, behind, hfound, hchecked⟩ := Reader.run_bind_eq_ok_iff.mp h
    split at hchecked
    · cases hchecked
    · rename_i hversion
      obtain ⟨augmentation, _, haugmentation, hempty⟩ := Reader.run_bind_eq_ok_iff.mp hchecked
      split at hempty
      · cases hempty
      · rename_i hzero
        cases hempty
        rw [Reader.run_u8_eq_ok_iff.mp hfound, Reader.run_u8_eq_ok_iff.mp haugmentation,
          Decidable.not_not.mp hversion, Decidable.not_not.mp hzero, version]
  · rintro rfl
    rfl

theorem run_header_eq_ok_iff
    {bytes rest : Bytes} {entry : CommonEntry} :
    header.run bytes = (.ok entry, rest) ↔
      ∃ codeFactor dataFactor returnRegister first second,
        Leb128.SpellsUnsigned codeFactor first ∧ Leb128.SpellsSigned dataFactor second ∧
        bytes = first ++ (second ++ returnRegister :: rest) ∧
        entry = {
          codeFactor, dataFactor, returnRegister
          cfaRegister := 0, cfaOffset := 0, returnOffset := none } := by
  constructor
  · intro h
    obtain ⟨codeFactor, _, hunsigned, hsecond⟩ := Reader.run_bind_eq_ok_iff.mp h
    obtain ⟨dataFactor, _, hsigned, hthird⟩ := Reader.run_bind_eq_ok_iff.mp hsecond
    obtain ⟨returnRegister, _, hbyte, hpure⟩ := Reader.run_bind_eq_ok_iff.mp hthird
    obtain ⟨first, hcodeFactor, hfirst⟩ := (Leb128.readsExactly_unsigned _ _ _).mp hunsigned
    obtain ⟨second, hdataFactor, hbehind⟩ := (Leb128.readsExactly_signed _ _ _).mp hsigned
    cases hpure
    refine ⟨codeFactor, dataFactor, returnRegister, first, second, hcodeFactor, hdataFactor, ?_,
      rfl⟩
    rw [hfirst, hbehind, Reader.run_u8_eq_ok_iff.mp hbyte]
  · rintro ⟨codeFactor, dataFactor, returnRegister, first, second, hcodeFactor, hdataFactor, rfl,
      rfl⟩
    rw [header,
      Reader.run_bind_ok ((Leb128.readsExactly_unsigned _ _ _).mpr ⟨first, hcodeFactor, rfl⟩),
      Reader.run_bind_ok ((Leb128.readsExactly_signed _ _ _).mpr ⟨second, hdataFactor, rfl⟩),
      Reader.run_bind_ok (Reader.run_u8_cons _ _), Reader.run_pure]

theorem isInitial_of_apply
    {entry next : CommonEntry} {opcode : UInt8} {instruction : Instruction}
    (h : entry.apply opcode instruction = .ok next) :
    instruction.IsInitial entry.returnRegister ∧ next = entry.withRules [instruction] := by
  have hinitial : instruction.IsInitial entry.returnRegister := by
    cases instruction with
    | nop =>
        trivial
    | defineCfa register offset =>
        trivial
    | saved register factored =>
        by_cases hregister : register.val = entry.returnRegister.toNat
        · exact hregister
        · rw [apply, if_neg hregister] at h
          cases h
    | _ =>
        cases h
  rw [apply_of_isInitial hinitial] at h
  exact ⟨hinitial, (Except.ok.inj h).symm⟩

/-- Initial instructions can be applied exactly when all of them can be read and may stand
there. -/
theorem applyAll_eq_ok_iff
    {entry last : CommonEntry} {steps : List (Step Instruction)} :
    entry.applyAll steps = .ok last ↔
      ∃ instructions : List Instruction, steps.map Step.content = instructions.map .ok ∧
        (∀ instruction ∈ instructions, instruction.IsInitial entry.returnRegister) ∧
        last = entry.withRules instructions := by
  constructor
  · intro h
    induction steps generalizing entry with
    | nil =>
        cases h
        exact ⟨[], rfl, fun _ hmem => (nomatch hmem), rfl⟩
    | cons step rest ih =>
        obtain ⟨instruction, hcontent, happlied⟩ := bind_eq_ok_iff.mp h
        obtain ⟨next, hnext, hrest⟩ := bind_eq_ok_iff.mp happlied
        obtain ⟨hinitial, rfl⟩ := isInitial_of_apply hnext
        obtain ⟨others, hothers, hall, rfl⟩ := ih hrest
        refine ⟨instruction :: others, ?_, List.forall_mem_cons.mpr ⟨hinitial, hall⟩,
          (withRules_cons entry instruction others).symm⟩
        rw [List.map_cons, List.map_cons, hcontent, hothers]
  · rintro ⟨instructions, hsteps, hinitial, rfl⟩
    exact applyAll_of_isInitial hsteps hinitial

/-- Rules that start out as unset are those of the last instructions for them, if there are any. -/
theorem withRules_header
    (codeFactor : UInt64) (dataFactor : Int64) (returnRegister : UInt8)
    (instructions : List Instruction) :
    withRules {
        codeFactor, dataFactor, returnRegister
        cfaRegister := 0, cfaOffset := 0, returnOffset := none } instructions = {
      codeFactor, dataFactor, returnRegister
      cfaRegister := ((instructions.filterMap Instruction.definition?).getLast?.map
        fun rule => rule.1).getD 0
      cfaOffset := ((instructions.filterMap Instruction.definition?).getLast?.map
        fun rule => rule.2.toInt64).getD 0
      returnOffset := (instructions.filterMap Instruction.saving?).getLast?.map
        fun factored => Int64.ofInt (factored.toInt * dataFactor.toInt) } := by
  have hmul : ∀ factored : Int64,
      Int64.ofInt (factored.toInt * dataFactor.toInt) = factored * dataFactor := by
    intro factored
    rw [Int64.ofInt_mul, Int64.ofInt_toInt, Int64.ofInt_toInt]
  simp only [withRules, hmul, Option.or_none]

/-- What is read behind the marker is what the bytes there spell. -/
theorem result_content_eq_ok_iff
    {payload : Bytes} {entry : CommonEntry} :
    (content order).result payload = .ok entry ↔ Spells order entry payload := by
  rw [Reader.result_eq_ok_iff]
  constructor
  · rintro ⟨rest, h⟩
    obtain ⟨_, behind, hformat, hbehind⟩ := Reader.run_bind_eq_ok_iff.mp h
    obtain ⟨start, program, hheader, hprogram⟩ := Reader.run_bind_eq_ok_iff.mp hbehind
    rw [Reader.run_bind_ok (Reader.run_remainder program), Reader.run_ofExcept] at hprogram
    obtain ⟨instructions, hsteps, hinitial, rfl⟩ :=
      applyAll_eq_ok_iff.mp (congrArg Prod.fst hprogram)
    obtain ⟨codeFactor, dataFactor, returnRegister, first, second, hcodeFactor, hdataFactor,
      rfl, rfl⟩ := run_header_eq_ok_iff.mp hheader
    rw [run_checkFormat_eq_ok_iff.mp hformat, withRules_header]
    exact Spells.intro hcodeFactor hdataFactor
      ((Instruction.recognizes order).content_eq_iff.mp hsteps) hinitial
  · intro h
    cases h with
    | @intro codeFactor dataFactor returnRegister instructions first second program hcodeFactor
        hdataFactor hprogram hinitial =>
        have hformat := run_checkFormat_eq_ok_iff.mpr
          (rfl : 3 :: 0 :: (first ++ (second ++ returnRegister :: program)) = _)
        have hheader := run_header_eq_ok_iff.mpr
          ⟨codeFactor, dataFactor, returnRegister, first, second, hcodeFactor, hdataFactor,
            (rfl : first ++ (second ++ returnRegister :: program) = _), rfl⟩
        have hrules := applyAll_eq_ok_iff.mpr
          ⟨instructions, (Instruction.recognizes order).content_eq_iff.mpr hprogram, hinitial,
            (withRules_header codeFactor dataFactor returnRegister instructions).symm⟩
        refine ⟨[], ?_⟩
        rw [content, Reader.run_bind_ok hformat, Reader.run_bind_ok hheader,
          Reader.run_bind_ok (Reader.run_remainder program), Reader.run_ofExcept]
        exact congrArg (·, []) hrules

end CommonEntry

theorem ByteOrder.digits_fieldAt
    {order : ByteOrder} {bytes : Bytes} {offset width : Nat} (h : offset + width ≤ bytes.length) :
    order.digits width (order.fieldAt bytes offset width) = (bytes.drop offset).take width := by
  have hlength : ((bytes.drop offset).take width).length = width :=
    List.length_take_of_le (by rw [List.length_drop]; omega)
  have hdigits := order.digits_value ((bytes.drop offset).take width)
  rwa [hlength] at hdigits

namespace FrameSection

variable {frames : FrameSection} {offset : UInt32} {payload : Bytes}

/-- A complete record begins at the offset that is marked as a common information entry, with the
payload behind its marker. -/
structure HoldsCommon (frames : FrameSection) (offset : Nat) (payload : Bytes) : Prop where
  four_le : 4 ≤ frames.order.fieldAt frames.bytes offset 4
  le_max : frames.order.fieldAt frames.bytes offset 4 ≤ 0xfffffffe
  complete : offset + 4 + frames.order.fieldAt frames.bytes offset 4 ≤ frames.bytes.length
  marked : frames.order.fieldAt frames.bytes (offset + 4) 4 = 0xffffffff
  payload_eq : payload =
    (frames.bytes.drop (offset + 8)).take (frames.order.fieldAt frames.bytes offset 4 - 4)

/-- The record is the one that is written for its payload. -/
theorem HoldsCommon.exists_bytes_eq
    {offset : Nat} (h : frames.HoldsCommon offset payload) :
    (Content.common payload).Writable frames.order ∧
      ∃ front rest, front.length = offset ∧
        frames.bytes = front ++ ((Content.common payload).encode frames.order ++ rest) := by
  obtain ⟨hfour, hmax, hcomplete, hmarked, hpayload⟩ := h
  have hlength : payload.length = frames.order.fieldAt frames.bytes offset 4 - 4 := by
    rw [hpayload]
    exact List.length_take_of_le (by rw [List.length_drop]; omega)
  have hentry : ((Content.common payload).entry frames.order).length =
      frames.order.fieldAt frames.bytes offset 4 := by
    rw [Content.entry, Entry.length, hlength]
    omega
  refine ⟨⟨?_, True.intro⟩, frames.bytes.take offset,
    (frames.bytes.drop (offset + 8)).drop (frames.order.fieldAt frames.bytes offset 4 - 4),
    List.length_take_of_le (by omega), ?_⟩
  · rw [hentry]
    exact Nat.lt_of_le_of_lt hmax (by decide)
  · have hfirst : frames.order.digits 4 ((Content.common payload).entry frames.order).length =
        (frames.bytes.drop offset).take 4 := by
      rw [hentry]
      exact ByteOrder.digits_fieldAt (by omega)
    have hsecond : frames.order.digits 4 0xffffffff = (frames.bytes.drop (offset + 4)).take 4 := by
      rw [← hmarked]
      exact ByteOrder.digits_fieldAt (by omega)
    have hthird : ((Content.common payload).entry frames.order).payload =
        (frames.bytes.drop (offset + 8)).take
          (frames.order.fieldAt frames.bytes offset 4 - 4) := hpayload
    have hmarker : ((Content.common payload).entry frames.order).marker.toNat = 0xffffffff := rfl
    have hbehind : frames.bytes.drop (offset + 4) = (frames.bytes.drop offset).drop 4 :=
      List.drop_drop.symm
    have hrest : frames.bytes.drop (offset + 8) = (frames.bytes.drop (offset + 4)).drop 4 := by
      rw [List.drop_drop]
    rw [Content.encode, Entry.encode, hfirst, hmarker, hsecond, hthird, List.append_assoc,
      List.append_assoc, List.take_append_drop, hrest, List.take_append_drop, hbehind,
      List.take_append_drop, List.take_append_drop]

theorem HoldsCommon.commonEntry_eq
    (h : frames.HoldsCommon offset.toNat payload) :
    frames.commonEntry offset = (CommonEntry.content frames.order).result payload := by
  obtain ⟨hwritable, front, rest, hfront, hbytes⟩ := h.exists_bytes_eq
  rw [commonEntry, hbytes, CommonEntry.result_reader_of_written hfront hwritable]

/-- **The grammar of common information entries.** Where a complete record with the marker begins,
the reader succeeds exactly if the bytes behind the marker spell an entry, and reads the entry that
they spell. What is around the record, and where it is, makes no difference, also if the reader
fails. -/
theorem commonEntry_eq_ok_iff_spells
    (h : frames.HoldsCommon offset.toNat payload) :
    (∀ entry, frames.commonEntry offset = .ok entry ↔
      CommonEntry.Spells frames.order entry payload) ∧
    (∀ (others : FrameSection) (place : UInt32), others.order = frames.order →
      others.HoldsCommon place.toNat payload →
      others.commonEntry place = frames.commonEntry offset) := by
  constructor
  · intro entry
    rw [h.commonEntry_eq]
    exact CommonEntry.result_content_eq_ok_iff
  · intro others place horder hothers
    rw [h.commonEntry_eq, hothers.commonEntry_eq, horder]

/-- An entry with padded numbers and two rules for the frame address. It names column 16 for the
return address, and says last where the register with this operation code is saved. -/
def paddedCommon (opcode : UInt8) : Bytes := [
  3, 0, 0x81, 0x80, 0x00, 0xf8, 0x7f, 16, 0x0c, 7, 8,
  0x0c, 6, 0xf8, 0xff, 0xff, 0xff, 0xff, 0xff, 0xff, 0xff, 0xff, 0x01, 0x00, opcode, 0x81, 0x00]

/-- The record of such an entry between other bytes. -/
def paddedCommonBetween (front behind : Bytes) (opcode : UInt8) : FrameSection where
  order := .little
  bytes := front ++ ([31, 0, 0, 0, 0xff, 0xff, 0xff, 0xff] ++ (paddedCommon opcode ++ behind))

/-- A rule for column 16 is accepted, and the last rules are kept. One for another column is not
part of the grammar. -/
theorem commonEntry_eq_ok_iff_spells_padded :
    (paddedCommonBetween [9, 9] [1] 0x90).HoldsCommon 2 (paddedCommon 0x90) ∧
    CommonEntry.Spells .little {
        codeFactor := 1, dataFactor := -8, returnRegister := 16
        cfaRegister := 6, cfaOffset := -8, returnOffset := some (-8) } (paddedCommon 0x90) ∧
    (paddedCommonBetween [] [] 0x90).HoldsCommon 0 (paddedCommon 0x90) ∧
    (paddedCommonBetween [] [] 0x90).commonEntry 0 =
      (paddedCommonBetween [9, 9] [1] 0x90).commonEntry 2 ∧
    (paddedCommonBetween [9, 9] [1] 0x91).HoldsCommon 2 (paddedCommon 0x91) ∧
    (∀ entry, ¬ CommonEntry.Spells .little entry (paddedCommon 0x91)) := by
  have hinner : (paddedCommonBetween [9, 9] [1] 0x90).HoldsCommon 2 (paddedCommon 0x90) :=
    ⟨by decide, by decide, by decide, by decide, by decide⟩
  have houter : (paddedCommonBetween [] [] 0x90).HoldsCommon 0 (paddedCommon 0x90) :=
    ⟨by decide, by decide, by decide, by decide, by decide⟩
  have hother : (paddedCommonBetween [9, 9] [1] 0x91).HoldsCommon 2 (paddedCommon 0x91) :=
    ⟨by decide, by decide, by decide, by decide, by decide⟩
  have hread : (paddedCommonBetween [9, 9] [1] 0x90).commonEntry 2 = .ok {
      codeFactor := 1, dataFactor := -8, returnRegister := 16
      cfaRegister := 6, cfaOffset := -8, returnOffset := some (-8) } := by cbv
  have hfault : (paddedCommonBetween [9, 9] [1] 0x91).commonEntry 2 =
      .error (.unsupportedInstruction 0x91) := by cbv
  have hplace : (2 : UInt32).toNat = 2 := rfl
  rw [← hplace] at hinner hother
  obtain ⟨hspells, hsame⟩ := commonEntry_eq_ok_iff_spells hinner
  obtain ⟨hrefused, -⟩ := commonEntry_eq_ok_iff_spells hother
  refine ⟨hinner, (hspells _).mp hread, houter, hsame _ 0 rfl houter, hother, ?_⟩
  intro entry hentry
  have hok := (hrefused entry).mpr hentry
  rw [hfault] at hok
  cases hok

end FrameSection

end CallFrame
