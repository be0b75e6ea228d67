import CallFrame.Session
import Mathlib.Data.Finset.Card
import Mathlib.Tactic.Tauto

/-!
# Cache coherence over whole sessions

A session answers requests one after the other. What its cache holds at any point is a
function of the requests alone: the offsets that were asked for since the cache was last
emptied, less those where no common information entry can be read. This history is kept
here beside the session, and a single invariant ties the two together.

* Every request keeps the invariant, whether it succeeds or fails.
* Answers by way of the cache are the answers of the section itself.
* The size of the cache counts the readable offsets of the history, and so the order in
  which lookups are made does not matter for what it holds in the end.
-/

namespace CallFrame

namespace CommonCache

/-- The cache holds the common information entries at the given offsets, as far as they can
be read, and nothing else. -/
def Holds (cache : CommonCache) (frames : FrameSection) (offsets : Finset UInt32) : Prop :=
  ∀ (offset : UInt32) (common : CommonEntry),
    cache[offset]? = some common ↔
      offset ∈ offsets ∧ frames.commonEntry offset = .ok common

variable {cache : CommonCache} {frames : FrameSection} {offsets : Finset UInt32}

theorem holds_empty
    (frames : FrameSection) :
    Holds ∅ frames ∅ := by
  intro offset common
  simp

theorem Holds.faithful
    (h : cache.Holds frames offsets) :
    cache.Faithful frames :=
  fun offset common hcached => ((h offset common).mp hcached).2

/-- Fetching an entry adds its offset to the ones that are held for. -/
theorem Holds.fetch
    (h : cache.Holds frames offsets) (offset : UInt32) :
    (cache.fetch frames offset).2.Holds frames (insert offset offsets) := by
  intro other common
  rw [Finset.mem_insert]
  unfold CommonCache.fetch
  split
  · rename_i found hcached
    have hfound := (h offset found).mp hcached
    rw [h other common]
    constructor
    · rintro ⟨hmem, hcommon⟩
      exact ⟨Or.inr hmem, hcommon⟩
    · rintro ⟨rfl | hmem, hcommon⟩
      · exact ⟨hfound.1, hcommon⟩
      · exact ⟨hmem, hcommon⟩
  · split
    · rename_i found hfound
      change (Std.TreeMap.insert cache offset found)[other]? = some common ↔ _
      rw [Std.TreeMap.getElem?_insert]
      by_cases heq : offset = other
      · subst heq
        simp [hfound]
      · have hcompare : ¬ compare offset other = .eq :=
          fun hc => heq (Std.LawfulEqCmp.eq_of_compare hc)
        rw [if_neg hcompare, h other common]
        constructor
        · rintro ⟨hmem, hcommon⟩
          exact ⟨Or.inr hmem, hcommon⟩
        · rintro ⟨rfl | hmem, hcommon⟩
          · exact absurd rfl heq
          · exact ⟨hmem, hcommon⟩
    · rename_i fault hfault
      -- The cache stays as it is: there is no entry to hold for the new offset.
      change cache[other]? = some common ↔ _
      rw [h other common]
      constructor
      · rintro ⟨hmem, hcommon⟩
        exact ⟨Or.inr hmem, hcommon⟩
      · rintro ⟨rfl | hmem, hcommon⟩
        · rw [hfault] at hcommon
          cases hcommon
        · exact ⟨hmem, hcommon⟩

theorem Holds.size_eq
    (h : cache.Holds frames offsets) :
    cache.size = (offsets.filter (fun offset => (frames.commonEntry offset).isOk)).card := by
  have hkeys : cache.keys.toFinset =
      offsets.filter (fun offset => (frames.commonEntry offset).isOk) := by
    ext offset
    rw [List.mem_toFinset, Std.TreeMap.mem_keys, Std.TreeMap.mem_iff_isSome_getElem?,
      Option.isSome_iff_exists, Finset.mem_filter]
    constructor
    · rintro ⟨common, hcached⟩
      obtain ⟨hmem, hcommon⟩ := (h offset common).mp hcached
      exact ⟨hmem, by rw [hcommon]; rfl⟩
    · rintro ⟨hmem, hok⟩
      rcases hcommon : frames.commonEntry offset with fault | common
      · rw [hcommon] at hok
        cases hok
      · exact ⟨common, (h offset common).mpr ⟨hmem, hcommon⟩⟩
  rw [← hkeys, List.toFinset_card_of_nodup Std.TreeMap.nodup_keys, Std.TreeMap.length_keys]

/-- Caches that hold the same are the same, entry by entry. -/
theorem Holds.toList_eq
    {other : CommonCache} (h : cache.Holds frames offsets)
    (hother : other.Holds frames offsets) :
    cache.toList = other.toList := by
  refine (Std.TreeMap.Equiv.of_forall_constGet?_eq fun offset => ?_).toList_eq
  ext common
  rw [h offset common, hother offset common]

theorem size_fetch_le
    (cache : CommonCache) (frames : FrameSection) (offset : UInt32) :
    (cache.fetch frames offset).2.size ≤ cache.size + 1 := by
  unfold CommonCache.fetch
  split
  · exact Nat.le_succ _
  · split
    · exact Std.TreeMap.size_insert_le
    · exact Nat.le_succ _

/-- A lookup changes the cache by fetching the entry of the frame description it finds. -/
theorem snd_frameAddress
    (cache : CommonCache) (frames : FrameSection) (settings : Settings) (pc sp : UInt64) :
    (cache.frameAddress frames settings pc sp).2 =
      match frames.find pc settings.maxRecords with
      | .ok description => (cache.fetch frames description.commonOffset).2
      | .error _ => cache := by
  unfold CommonCache.frameAddress
  rcases frames.find pc settings.maxRecords with fault | description
  · rfl
  · rcases hfetch : cache.fetch frames description.commonOffset with ⟨fault | common, behind⟩
    · simp only [hfetch]
    · simp only [hfetch]

end CommonCache

namespace Session

/-- The offset that a request asks the cache for, if it does. -/
def Request.offset? (frames : FrameSection) (settings : Settings) : Request → Option UInt32
  | .cachedFrameAddress pc _ =>
      match frames.find pc settings.maxRecords with
      | .ok description => some description.commonOffset
      | .error _ => none
  | .commonEntry offset => some offset
  | _ => none

/-- What the requests so far say about a session, whatever its answers were. -/
structure History where
  /-- The settings that they have left in force. -/
  settings : Settings
  /-- The offsets that they have asked the cache for since it was last emptied. -/
  offsets : Finset UInt32 := ∅

/-- The history with one more request. -/
def History.step (frames : FrameSection) (history : History) (request : Request) : History :=
  match request with
  | .configure offsetTiming maxRecords =>
      { history with settings := history.settings.update offsetTiming maxRecords }
  | .resetSettings => { history with settings := {} }
  | .emptyCache => { history with offsets := ∅ }
  | _ =>
      match request.offset? frames history.settings with
      | some offset => { history with offsets := insert offset history.offsets }
      | none => history

def History.after (frames : FrameSection) (history : History) (requests : List Request) :
    History :=
  requests.foldl (History.step frames) history

/-- The session after requests that are made one after the other. -/
def after (session : Session) (requests : List Request) : Session :=
  requests.foldl (fun session request => (session.step request).2) session

/-- The session is in the state that its history says. -/
structure Coherent (sections : DebugSections) (history : History) (session : Session) :
    Prop where
  sections_eq : session.sections = sections
  settings_eq : session.settings = history.settings
  holds : session.cache.Holds sections.frameSection history.offsets

variable {sections : DebugSections} {history : History} {session : Session}

/-- Every request keeps a session coherent, also where its answer is a fault. -/
theorem Coherent.step
    (h : Coherent sections history session) (request : Request) :
    Coherent sections (history.step sections.frameSection request)
      (session.step request).2 := by
  obtain ⟨rfl, hsettings, hholds⟩ := h
  cases request with
  | cachedFrameAddress pc sp =>
      have hcache : (session.step (.cachedFrameAddress pc sp)).2.cache =
          (session.cache.frameAddress session.sections.frameSection session.settings pc sp).2 :=
        rfl
      rw [CommonCache.snd_frameAddress, hsettings] at hcache
      simp only [History.step, Request.offset?]
      -- The lookup may fail before it asks the cache, but not between asking and keeping.
      rcases hfind : session.sections.frameSection.find pc history.settings.maxRecords
        with fault | description
      · rw [hfind] at hcache
        exact ⟨rfl, hsettings, hcache ▸ hholds⟩
      · rw [hfind] at hcache
        exact ⟨rfl, hsettings, hcache ▸ hholds.fetch description.commonOffset⟩
  | commonEntry offset =>
      exact ⟨rfl, hsettings, hholds.fetch offset⟩
  | configure offsetTiming maxRecords =>
      refine ⟨rfl, ?_, hholds⟩
      rw [History.step, ← hsettings]
      rfl
  | resetSettings =>
      exact ⟨rfl, rfl, hholds⟩
  | emptyCache =>
      exact ⟨rfl, hsettings, CommonCache.holds_empty _⟩
  | _ =>
      exact ⟨rfl, hsettings, hholds⟩

theorem Coherent.after
    (h : Coherent sections history session) (requests : List Request) :
    Coherent sections (history.after sections.frameSection requests)
      (session.after requests) := by
  induction requests generalizing history session with
  | nil =>
      exact h
  | cons request requests ih =>
      exact ih (h.step request)

theorem coherent_start
    (sections : DebugSections) (settings : Settings) :
    Coherent sections { settings } { sections, settings } :=
  ⟨rfl, rfl, CommonCache.holds_empty _⟩

theorem size_step_le
    (session : Session) (request : Request) :
    (session.step request).2.cache.size ≤ session.cache.size + 1 := by
  cases request with
  | cachedFrameAddress pc sp =>
      change (session.cache.frameAddress _ session.settings pc sp).2.size ≤ _
      rw [CommonCache.snd_frameAddress]
      split
      · exact CommonCache.size_fetch_le _ _ _
      · exact Nat.le_succ _
  | commonEntry offset =>
      exact CommonCache.size_fetch_le _ _ _
  | emptyCache =>
      exact Nat.zero_le _
  | _ =>
      exact Nat.le_succ _

/-- The request changes neither the settings nor what was asked for before. -/
def Request.IsLookup : Request → Prop
  | .configure .. => False
  | .resetSettings => False
  | .emptyCache => False
  | _ => True

/-- A lookup leaves the settings in force, and asks for its own offset and no other. -/
theorem History.step_of_isLookup
    {request : Request} (h : request.IsLookup) (frames : FrameSection) (history : History) :
    (history.step frames request).settings = history.settings ∧
      ∀ offset, offset ∈ (history.step frames request).offsets ↔
        request.offset? frames history.settings = some offset ∨ offset ∈ history.offsets := by
  have hstep : history.step frames request =
      match request.offset? frames history.settings with
      | some offset => { history with offsets := insert offset history.offsets }
      | none => history := by
    cases request with
    | configure offsetTiming maxRecords =>
        exact h.elim
    | resetSettings =>
        exact h.elim
    | emptyCache =>
        exact h.elim
    | _ =>
        rfl
  rw [hstep]
  rcases request.offset? frames history.settings with _ | found
  · simp
  · simp [eq_comm]

theorem History.after_lookups
    (frames : FrameSection) (history : History) {requests : List Request}
    (h : ∀ request ∈ requests, request.IsLookup) :
    (history.after frames requests).settings = history.settings ∧
      ∀ offset, offset ∈ (history.after frames requests).offsets ↔
        offset ∈ history.offsets ∨
          ∃ request ∈ requests, request.offset? frames history.settings = some offset := by
  induction requests generalizing history with
  | nil =>
      simp [History.after]
  | cons request requests ih =>
      obtain ⟨hstep, hasked⟩ :=
        History.step_of_isLookup (h request List.mem_cons_self) frames history
      obtain ⟨hsettings, hoffsets⟩ := ih (history.step frames request)
        (fun other hother => h other (List.mem_cons_of_mem request hother))
      refine ⟨hsettings.trans hstep, ?_⟩
      intro offset
      have hafter := hoffsets offset
      rw [hasked, hstep] at hafter
      simp only [List.mem_cons, exists_eq_or_imp]
      exact hafter.trans (by tauto)

/-- **Cache coherence.** At every point of a session, answers by way of the cache are what
the sections say under the settings in force. The cache holds exactly the entries that were
asked for since it was emptied and can be read, and grows by one at most. Lookups under
fixed settings leave the same cache behind in every order. -/
theorem after_coherent
    (sections : DebugSections) (settings : Settings) (requests : List Request) :
    let session := Session.after { sections, settings } requests
    let history := History.after sections.frameSection { settings } requests
    (∀ pc sp, (session.step (.cachedFrameAddress pc sp)).1 =
      .address <$> sections.frameAddress history.settings pc sp) ∧
    (∀ offset, (session.step (.commonEntry offset)).1 =
      .common <$> sections.frameSection.commonEntry offset) ∧
    (∀ offset common, session.cache[offset]? = some common ↔
      offset ∈ history.offsets ∧ sections.frameSection.commonEntry offset = .ok common) ∧
    session.cache.size = (history.offsets.filter
      (fun offset => (sections.frameSection.commonEntry offset).isOk)).card ∧
    (∀ request, (session.step request).2.cache.size ≤ session.cache.size + 1) ∧
    (∀ others : List Request, (∀ request ∈ requests, request.IsLookup) →
      (∀ request, request ∈ others ↔ request ∈ requests) →
      (Session.after { sections, settings } others).cache.toList = session.cache.toList) := by
  intro session history
  have hcoherent : Coherent sections history session :=
    (coherent_start sections settings).after requests
  have hfaithful := hcoherent.holds.faithful
  refine ⟨?_, ?_, hcoherent.holds, hcoherent.holds.size_eq, session.size_step_le, ?_⟩
  · intro pc sp
    change Answer.address <$> (session.cache.frameAddress _ session.settings pc sp).1 = _
    rw [hcoherent.sections_eq, hcoherent.settings_eq,
      (CommonCache.frameAddress_of_faithful hfaithful history.settings pc sp).1]
    rfl
  · intro offset
    change Answer.common <$> (session.cache.fetch _ offset).1 = _
    rw [hcoherent.sections_eq, (CommonCache.fetch_of_faithful hfaithful offset).1]
  · intro others hlookups hsame
    have hothers := (coherent_start sections settings).after others
    have hoffsets : (History.after sections.frameSection { settings } others).offsets =
        history.offsets := by
      ext offset
      rw [(History.after_lookups _ _ hlookups).2,
        (History.after_lookups _ _ fun request hrequest =>
          hlookups request ((hsame request).mp hrequest)).2]
      simp only [hsame]
    exact (hoffsets ▸ hothers.holds).toList_eq hcoherent.holds

/-- A common information entry of the third version, one of the fourth, and a frame description
for each of the two. -/
def twoVersions : DebugSections where
  order := .little
  abbreviations := []
  info := []
  strings := []
  frames := [
    0x0c, 0, 0, 0, 0xff, 0xff, 0xff, 0xff, 3, 0, 1, 0x78, 16, 0x0c, 7, 8,
    0x0c, 0, 0, 0, 0xff, 0xff, 0xff, 0xff, 4, 0, 1, 0x78, 16, 0x0c, 7, 8,
    0x14, 0, 0, 0, 0, 0, 0, 0, 0x00, 0x10, 0, 0, 0, 0, 0, 0, 2, 0, 0, 0, 0, 0, 0, 0,
    0x14, 0, 0, 0, 16, 0, 0, 0, 0x00, 0x20, 0, 0, 0, 0, 0, 0, 2, 0, 0, 0, 0, 0, 0, 0]

/-- A failed lookup in front, and repeated lookups, do not change the cache that is left. -/
theorem after_coherent_twoVersions :
    let requests := [.cachedFrameAddress 0x2000 0, .cachedFrameAddress 0x1000 0]
    let others := [.cachedFrameAddress 0x1000 0, .cachedFrameAddress 0x2000 0,
      .cachedFrameAddress 0x1000 0]
    let session := Session.after { sections := twoVersions } requests
    (∀ request ∈ requests, request.IsLookup) ∧
    (∀ request, request ∈ others ↔ request ∈ requests) ∧
    (session.step (.cachedFrameAddress 0x2000 0)).1 = .error (.unsupportedVersion 4) ∧
    (session.step (.cachedFrameAddress 0x1000 0)).1 = .ok (.address 8) ∧
    session.cache.size = 1 ∧
    (Session.after { sections := twoVersions } others).cache.toList =
      session.cache.toList := by
  intro requests others session
  have hlookups : ∀ request ∈ requests, request.IsLookup := by
    simp [requests, Request.IsLookup]
  have hsame : ∀ request, request ∈ others ↔ request ∈ requests := by
    intro request
    simp only [requests, others, List.mem_cons, List.not_mem_nil, or_false]
    tauto
  obtain ⟨haddress, -, -, -, -, hreorder⟩ := after_coherent twoVersions {} requests
  refine ⟨hlookups, hsame, ?_, ?_, ?_, hreorder others hlookups hsame⟩
  · exact (haddress 0x2000 0).trans (by cbv)
  · exact (haddress 0x1000 0).trans (by cbv)
  · change (Session.after { sections := twoVersions }
      [.cachedFrameAddress 0x2000 0, .cachedFrameAddress 0x1000 0]).cache.size = 1
    decide +kernel

end Session

end CallFrame
