import CallFrame.DebugSections
import CallFrame.Proofs.ScanContents

/-!
# Lookups in a growing section

Bytes that are put behind a frame section can add records to it and can complete one that
was cut off. Nothing else changes: the records that were complete stay what they are, and so
does every fault except the two that the end of the section can cause.

So a lookup that has found an address, or a fault in the data that it read, gives the same
answer in every longer section. Cutting a section short can only lose an answer, and never
turns it into another one.
-/

namespace CallFrame

/-- The end of the section may be the cause of the fault: a read ran into it, or no record
before it covers the address. -/
def Fault.IsOpen : Fault → Prop
  | .outOfBytes .. => True
  | .uncovered _ => True
  | _ => False

theorem Fault.not_isOutOfBytes_of_not_isOpen
    {fault : Fault} (h : ¬ fault.IsOpen) :
    ¬ fault.IsOutOfBytes := by
  intro hout
  cases fault with
  | outOfBytes wanted remaining =>
      exact h True.intro
  | _ =>
      exact hout

/-- The outcome does not depend on where the section ends. -/
def Settled {α : Type} : Except Fault α → Prop
  | .ok _ => True
  | .error fault => ¬ fault.IsOpen

theorem Settled.final
    {α : Type} {outcome : Except Fault α} (h : Settled outcome) :
    Reader.Final outcome := by
  cases outcome with
  | ok a =>
      exact True.intro
  | error fault =>
      exact Fault.not_isOutOfBytes_of_not_isOpen h

/-- A chain of two computations that is settled keeps its outcome when each of them keeps
its own settled outcome. -/
theorem Settled.bind_eq
    {α β : Type} {first grown : Except Fault α} {next behind : α → Except Fault β}
    (hfirst : Settled first → grown = first)
    (hnext : ∀ a, Settled (next a) → behind a = next a)
    (h : Settled (first >>= next)) :
    grown >>= behind = first >>= next := by
  cases first with
  | ok a =>
      rw [hfirst True.intro]
      exact hnext a h
  | error fault =>
      rw [hfirst h]
      rfl

namespace Scan

/-- How the items at the end of a scan change when the section grows. -/
inductive Grows : List (Except Fault Record) → List (Except Fault Record) → Prop
  /-- The section ended between two records: any items may follow. -/
  | opened (more : List (Except Fault Record)) : Grows [] more
  /-- The section ended within a record: some item takes its place. -/
  | completed {fault : Fault} {more : List (Except Fault Record)}
      (hfault : fault.IsOutOfBytes) (hne : more ≠ []) : Grows [.error fault] more
  /-- A fault in the data stays, and stays the last item. -/
  | same (ending : List (Except Fault Record)) : Grows ending ending

theorem Ended.grows
    {order : ByteOrder} {offset : Nat} {rest : Bytes} {fault? : Option Fault}
    (h : Ended order offset rest fault?) (more : Bytes) :
    Grows (fault?.toList.map .error) (items { order, offset, rest := rest ++ more }) := by
  cases h with
  | complete =>
      exact Grows.opened _
  | @stuck _ fault hne hfault =>
      have hlonger : rest ++ more ≠ [] := by
        intro hnil
        exact hne (List.append_eq_nil_iff.mp hnil).1
      by_cases hout : fault.IsOutOfBytes
      · exact Grows.completed hout (items_ne_nil hlonger)
      · -- A reader that has not run out of bytes is not reached by what is behind them.
        have hstable := Record.stable_reader order offset rest more (by rw [hfault]; exact hout)
        have hsame : (Record.reader order offset).result (rest ++ more) = .error fault := by
          rw [Reader.result, hstable, hfault]
        rw [items_of_fault hlonger hsame]
        exact Grows.same [.error fault]

/-- The items of a scan in a section that has grown: the same records, and then what has
become of the end. -/
theorem exists_items_append
    (order : ByteOrder) (bytes more : Bytes) :
    ∃ (records : List Record) (ending grown : List (Except Fault Record)),
      (start order bytes).items = records.map .ok ++ ending ∧
      (start order (bytes ++ more)).items = records.map .ok ++ grown ∧
      Grows ending grown := by
  obtain ⟨contents, rest, fault?, hwritable, hbytes, hended⟩ := exists_contents order 0 bytes
  refine ⟨Content.records order 0 contents, fault?.toList.map .error, _, ?_, ?_,
    hended.grows more⟩
  · rw [start, hbytes, items_contents hwritable hended]
  · rw [start, hbytes, List.append_assoc, Content.items_flatMap_encode_append hwritable]

/-- A settled search among items gives the same outcome when their end grows. -/
theorem firstCovering_of_grows
    {pc : UInt64} {limit : Nat} {ending grown : List (Except Fault Record)}
    (h : Grows ending grown) (records : List Record) (seen : Nat)
    (hsettled : Settled (firstCovering pc limit seen (records.map .ok ++ ending))) :
    firstCovering pc limit seen (records.map .ok ++ grown) =
      firstCovering pc limit seen (records.map .ok ++ ending) := by
  induction records generalizing seen with
  | nil =>
      cases h with
      | opened more =>
          exact absurd True.intro hsettled
      | @completed fault more hfault hne =>
          -- The limit is checked before the item, so it only matters that there is one.
          by_cases hlimit : limit ≤ seen
          · obtain ⟨item, others, rfl⟩ := List.exists_cons_of_ne_nil hne
            simp [firstCovering, hlimit]
          · simp only [List.map_nil, List.nil_append, firstCovering, if_neg hlimit] at hsettled
            exact absurd hfault (Fault.not_isOutOfBytes_of_not_isOpen hsettled)
      | same =>
          rfl
  | cons record records ih =>
      by_cases hlimit : limit ≤ seen
      · simp [firstCovering, hlimit]
      · cases record with
        | common offset =>
            simp only [List.map_cons, List.cons_append, firstCovering, if_neg hlimit]
              at hsettled ⊢
            exact ih (seen + 1) hsettled
        | frame description =>
            by_cases hcovers : description.Covers pc
            · simp [firstCovering, hlimit, hcovers]
            · simp only [List.map_cons, List.cons_append, firstCovering, if_neg hlimit,
                if_neg hcovers] at hsettled ⊢
              exact ih (seen + 1) hsettled

end Scan

namespace FrameSection

def grow (frames : FrameSection) (more : Bytes) : FrameSection :=
  { frames with bytes := frames.bytes ++ more }

theorem find_grow
    {frames : FrameSection} {pc : UInt64} {limit : Nat}
    (h : Settled (frames.find pc limit)) (more : Bytes) :
    (frames.grow more).find pc limit = frames.find pc limit := by
  obtain ⟨records, ending, grown, hitems, hgrown, hgrows⟩ :=
    Scan.exists_items_append frames.order frames.bytes more
  simp only [find, FrameSection.records, grow, hitems, hgrown] at h ⊢
  exact Scan.firstCovering_of_grows hgrows records 0 h

theorem commonEntry_grow
    {frames : FrameSection} {offset : UInt32}
    (h : Settled (frames.commonEntry offset)) (more : Bytes) :
    (frames.grow more).commonEntry offset = frames.commonEntry offset := by
  have hrun := CommonEntry.stable_reader frames.order offset frames.bytes more h.final
  have hresult := congrArg Prod.fst hrun
  exact hresult

theorem frameAddress_grow
    {frames : FrameSection} {settings : Settings} {pc sp : UInt64}
    (h : Settled (frames.frameAddress settings pc sp)) (more : Bytes) :
    (frames.grow more).frameAddress settings pc sp = frames.frameAddress settings pc sp := by
  refine Settled.bind_eq (fun hfind => find_grow hfind more) ?_ h
  intro description hdescription
  refine Settled.bind_eq (fun hcommon => commonEntry_grow hcommon more) ?_ hdescription
  intro common _
  rfl

end FrameSection

namespace DebugSections

/-- **Answers are stable.** An address that was found stays the answer in every longer frame
section, and so does a fault that the end of the section did not cause. Read the other way,
a shorter section gives the same address or such a fault. -/
theorem frameAddress_append
    (sections : DebugSections) (more : Bytes) (settings : Settings) (pc sp : UInt64) :
    (∀ address, sections.frameAddress settings pc sp = .ok address →
      { sections with frames := sections.frames ++ more }.frameAddress settings pc sp =
        .ok address) ∧
    (∀ fault, sections.frameAddress settings pc sp = .error fault → ¬ fault.IsOpen →
      { sections with frames := sections.frames ++ more }.frameAddress settings pc sp =
        .error fault) ∧
    (∀ address, { sections with frames := sections.frames ++ more }.frameAddress settings pc
        sp = .ok address →
      sections.frameAddress settings pc sp = .ok address ∨
        ∃ fault, sections.frameAddress settings pc sp = .error fault ∧ fault.IsOpen) := by
  have hgrow : Settled (sections.frameAddress settings pc sp) →
      { sections with frames := sections.frames ++ more }.frameAddress settings pc sp =
        sections.frameAddress settings pc sp :=
    fun hsettled => FrameSection.frameAddress_grow hsettled more
  refine ⟨?_, ?_, ?_⟩
  · intro address h
    rw [hgrow (by rw [h]; exact True.intro), h]
  · intro fault h hclosed
    rw [hgrow (by rw [h]; exact hclosed), h]
  · intro address h
    rcases hshort : sections.frameAddress settings pc sp with fault | other
    · by_cases hopen : fault.IsOpen
      · exact Or.inr ⟨fault, rfl, hopen⟩
      · rw [hgrow (by rw [hshort]; exact hopen), hshort] at h
        cases h
    · rw [hgrow (by rw [hshort]; exact True.intro), hshort] at h
      exact Or.inl h

/-- A common information entry of the given version and a frame description of two addresses,
cut off behind a number of bytes. -/
def oneFrame (version : UInt8) (count : Nat) : DebugSections where
  order := .little
  abbreviations := []
  info := []
  strings := []
  frames := List.take count [
    0x0c, 0, 0, 0, 0xff, 0xff, 0xff, 0xff, version, 0, 1, 0x78, 16, 0x0c, 7, 8,
    0x17, 0, 0, 0, 0, 0, 0, 0, 0x00, 0x10, 0, 0, 0, 0, 0, 0, 2, 0, 0, 0, 0, 0, 0, 0,
    0x41, 0x13, 0x7e]

/-- An address and a fault in the data stay when a cut off entry follows; without its last byte
the frame description is not read as another one. -/
theorem frameAddress_append_oneFrame :
    (oneFrame 3 43).frameAddress {} 0x1001 0x100 = .ok 0x110 ∧
    { oneFrame 3 43 with frames := (oneFrame 3 43).frames ++ [0x17] }.frameAddress
      {} 0x1001 0x100 = .ok 0x110 ∧
    (oneFrame 4 43).frameAddress {} 0x1001 0x100 = .error (.unsupportedVersion 4) ∧
    ¬ (Fault.unsupportedVersion 4).IsOpen ∧
    { oneFrame 4 43 with frames := (oneFrame 4 43).frames ++ [0x17] }.frameAddress
      {} 0x1001 0x100 = .error (.unsupportedVersion 4) ∧
    { oneFrame 3 42 with frames := (oneFrame 3 42).frames ++ [0x7e] }.frameAddress
      {} 0x1001 0x100 = .ok 0x110 ∧
    ((oneFrame 3 42).frameAddress {} 0x1001 0x100 = .ok 0x110 ∨
      ∃ fault, (oneFrame 3 42).frameAddress {} 0x1001 0x100 = .error fault ∧
        fault.IsOpen) := by
  have hfound : (oneFrame 3 43).frameAddress {} 0x1001 0x100 = .ok 0x110 := by cbv
  have hfault : (oneFrame 4 43).frameAddress {} 0x1001 0x100 =
      .error (.unsupportedVersion 4) := by cbv
  have hcompleted : { oneFrame 3 42 with
      frames := (oneFrame 3 42).frames ++ [0x7e] }.frameAddress {} 0x1001 0x100 =
        .ok 0x110 := by cbv
  obtain ⟨hok, -, -⟩ := frameAddress_append (oneFrame 3 43) [0x17] {} 0x1001 0x100
  obtain ⟨-, herror, -⟩ := frameAddress_append (oneFrame 4 43) [0x17] {} 0x1001 0x100
  obtain ⟨-, -, hcut⟩ := frameAddress_append (oneFrame 3 42) [0x7e] {} 0x1001 0x100
  exact ⟨hfound, hok 0x110 hfound, hfault, id, herror _ hfault id, hcompleted,
    hcut 0x110 hcompleted⟩

end DebugSections

end CallFrame
