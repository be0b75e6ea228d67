/-!
# Settings of a lookup

Two things about a lookup can be chosen: from which row on a change of the frame address
offset holds, and after how many records the search gives up.
-/

namespace CallFrame

/-- From which row on a change of the frame address offset holds. -/
inductive OffsetTiming where
  /-- From the row that the change belongs to. Once the location is past the program
  counter, a change has no effect. -/
  | inRow
  /-- From the row before. The changes that come first at a location past the program
  counter still have their effect. -/
  | early
  deriving DecidableEq

/-- The settings of a lookup. -/
structure Settings where
  /-- From which row on a change of the offset holds. -/
  offsetTiming : OffsetTiming := .inRow
  /-- The most records that one search looks at. -/
  maxRecords : Nat := 0x100000
  deriving DecidableEq

namespace Settings

/-- The settings with those replaced that are given. -/
def update (settings : Settings) (offsetTiming : Option OffsetTiming)
    (maxRecords : Option Nat) : Settings where
  offsetTiming := offsetTiming.getD settings.offsetTiming
  maxRecords := maxRecords.getD settings.maxRecords

end Settings

end CallFrame
