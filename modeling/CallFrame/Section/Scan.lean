import CallFrame.Section.Record

/-!
# Scanning the frame section

A scan goes through the records of a section in order. It ends where the section ends,
or with the first fault, since the place where the next record begins is then unknown.

Main fact: each step of a scan shortens what is left, so every scan is finite.
-/

namespace CallFrame

/-- A scan of a section: how far it is, and what is left of the section. After a fault
nothing is left. -/
structure Scan where
  /-- The byte order of the section. -/
  order : ByteOrder
  /-- Where the next record begins. -/
  offset : Nat
  /-- The bytes from there to the end. -/
  rest : Bytes

namespace Scan

/-- The scan of a whole section. -/
def start (order : ByteOrder) (bytes : Bytes) : Scan :=
  { order, offset := 0, rest := bytes }

/-- The next item of the scan, and the scan behind it. -/
def next? (scan : Scan) : Option (Except Fault Record × Scan) :=
  if scan.rest = [] then
    none
  else
    match (Record.reader scan.order scan.offset).run scan.rest with
    | (.ok record, rest) =>
      let offset := scan.offset + (scan.rest.length - rest.length)
      some (.ok record, { scan with offset, rest })
    | (.error fault, _) => some (.error fault, { scan with rest := [] })

theorem next?_eq_none_iff
    {scan : Scan} :
    scan.next? = none ↔ scan.rest = [] := by
  unfold next?
  split
  · simp_all
  · split <;> simp_all

/-- Each step of a scan shortens what is left. -/
theorem length_rest_lt
    {scan behind : Scan} {item : Except Fault Record}
    (h : scan.next? = some (item, behind)) :
    behind.rest.length < scan.rest.length := by
  unfold next? at h
  split at h
  · simp at h
  · rename_i hrest
    split at h
    · rename_i record rest hrun
      simp only [Option.some.injEq, Prod.mk.injEq] at h
      obtain ⟨-, rfl⟩ := h
      exact Record.length_rest_lt hrun
    · simp only [Option.some.injEq, Prod.mk.injEq] at h
      obtain ⟨-, rfl⟩ := h
      exact List.length_pos_iff.mpr hrest

/-- All items from here on, and the scan at its end. -/
def drain (scan : Scan) : List (Except Fault Record) × Scan :=
  match _h : scan.next? with
  | none => ([], scan)
  | some (item, behind) =>
    let (items, last) := drain behind
    (item :: items, last)
termination_by scan.rest.length
decreasing_by exact length_rest_lt _h

/-- The items of a scan: its records, and the fault it may end with. -/
def items (scan : Scan) : List (Except Fault Record) :=
  scan.drain.1

theorem items_of_none
    {scan : Scan} (h : scan.next? = none) :
    scan.items = [] := by
  rw [items, drain]
  split <;> simp_all

theorem items_of_some
    {scan behind : Scan} {item : Except Fault Record}
    (h : scan.next? = some (item, behind)) :
    scan.items = item :: behind.items := by
  rw [items, drain]
  split
  · simp_all
  · rename_i hnext
    rw [h] at hnext
    cases hnext
    rfl

end Scan

end CallFrame
