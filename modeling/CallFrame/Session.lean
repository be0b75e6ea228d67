import CallFrame.CommonCache
import CallFrame.DebugSections
import CallFrame.Expression

/-!
# Sessions

A session answers many questions about the debug sections of one object. It has settings,
which may change in between, and a cache of the common information entries that lookups
have read.
-/

namespace CallFrame

/-- A session: the sections it is about, the settings in force and the cache. -/
structure Session where
  /-- The debug sections of the object. -/
  sections : DebugSections
  /-- The settings in force. -/
  settings : Settings := {}
  /-- What was read of the frame section. -/
  cache : CommonCache := ∅

namespace Session

/-- What a session can be asked for. -/
inductive Request where
  /-- The canonical frame address, read anew. -/
  | frameAddress (pc sp : UInt64)
  /-- The canonical frame address, by way of the cache. -/
  | cachedFrameAddress (pc sp : UInt64)
  /-- A common information entry, by way of the cache. -/
  | commonEntry (offset : UInt32)
  /-- The value of a location expression. -/
  | evaluate (expression : Bytes) (cfa : UInt64)
  /-- The value of a location expression in the frame at `pc`. -/
  | locate (pc sp : UInt64) (expression : Bytes)
  /-- Other settings; those not given stay. -/
  | configure (offsetTiming : Option OffsetTiming) (maxRecords : Option Nat)
  /-- The settings of the beginning. -/
  | resetSettings
  /-- An empty cache. -/
  | emptyCache

/-- What a session answers. -/
inductive Answer where
  /-- An address. -/
  | address (address : UInt64)
  /-- A common information entry. -/
  | common (common : CommonEntry)
  /-- The settings now in force. -/
  | settings (settings : Settings)
  /-- The request is done. -/
  | done
  deriving DecidableEq

/-- The answer to a request, and the session after it. -/
def step (session : Session) : Request → Except Fault Answer × Session
  | .frameAddress pc sp =>
    (.address <$> session.sections.frameAddress session.settings pc sp, session)
  | .cachedFrameAddress pc sp =>
    let (answer, cache) :=
      session.cache.frameAddress session.sections.frameSection session.settings pc sp
    (.address <$> answer, { session with cache })
  | .commonEntry offset =>
    let (answer, cache) := session.cache.fetch session.sections.frameSection offset
    (.common <$> answer, { session with cache })
  | .evaluate expression cfa => (.address <$> Expression.evaluate expression cfa, session)
  | .locate pc sp expression =>
    (.address <$> do
      let cfa ← session.sections.frameAddress session.settings pc sp
      Expression.evaluate expression cfa, session)
  | .configure offsetTiming maxRecords =>
    let settings := session.settings.update offsetTiming maxRecords
    (.ok (.settings settings), { session with settings })
  | .resetSettings => (.ok (.settings {}), { session with settings := {} })
  | .emptyCache => (.ok .done, { session with cache := ∅ })

end Session

end CallFrame
