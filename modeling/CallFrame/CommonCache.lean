import CallFrame.FrameSection
import Std.Data.TreeMap

/-!
# A cache of common information entries

Many frame descriptions refer to the same common information entry, so lookups may keep
the entries they have read, by offset.

The cache keeps what could be read. A fault is not kept: it is found again each time, and
so answers with and without the cache are the same. A cache is good for the one section
that it was filled from.

Main fact: a cache that holds nothing but what the section says answers like the section,
and stays such a cache.
-/

namespace CallFrame

/-- The common information entries of one section that were read before, by offset. -/
abbrev CommonCache := Std.TreeMap UInt32 CommonEntry

namespace CommonCache

/-- The common information entry at an offset: the kept one, or else the one in the
section, which is kept from then on. -/
def fetch (cache : CommonCache) (frames : FrameSection) (offset : UInt32) :
    Except Fault CommonEntry × CommonCache :=
  match cache[offset]? with
  | some common => (.ok common, cache)
  | none =>
    match frames.commonEntry offset with
    | .ok common => (.ok common, cache.insert offset common)
    | .error fault => (.error fault, cache)

/-- The canonical frame address, with the common information entry taken from the
cache. -/
def frameAddress (cache : CommonCache) (frames : FrameSection) (settings : Settings)
    (pc sp : UInt64) : Except Fault UInt64 × CommonCache :=
  match frames.find pc settings.maxRecords with
  | .error fault => (.error fault, cache)
  | .ok description =>
    match cache.fetch frames description.commonOffset with
    | (.error fault, cache) => (.error fault, cache)
    | (.ok common, cache) =>
      (description.frameAddress frames.order settings.offsetTiming common pc sp, cache)

/-- Everything in the cache is what the section says. -/
def Faithful (cache : CommonCache) (frames : FrameSection) : Prop :=
  ∀ (offset : UInt32) (common : CommonEntry),
    cache[offset]? = some common → frames.commonEntry offset = .ok common

theorem faithful_insert
    {cache : CommonCache} {frames : FrameSection} {offset : UInt32}
    {common : CommonEntry} (h : cache.Faithful frames)
    (hcommon : frames.commonEntry offset = .ok common) :
    Faithful (cache.insert offset common) frames := by
  intro other found hfound
  rw [Std.TreeMap.getElem?_insert] at hfound
  split at hfound
  · rename_i heq
    rw [Std.LawfulEqCmp.eq_of_compare heq] at hcommon
    cases hfound
    exact hcommon
  · exact h other found hfound

/-- With a faithful cache, a fetched entry is what the section says, and the cache stays
faithful. -/
theorem fetch_of_faithful
    {cache : CommonCache} {frames : FrameSection}
    (h : cache.Faithful frames) (offset : UInt32) :
    (cache.fetch frames offset).1 = frames.commonEntry offset ∧
      (cache.fetch frames offset).2.Faithful frames := by
  unfold fetch
  split
  · rename_i common hcached
    exact ⟨(h offset common hcached).symm, h⟩
  · split
    · rename_i common hcommon
      exact ⟨hcommon.symm, faithful_insert h hcommon⟩
    · rename_i fault hfault
      exact ⟨hfault.symm, h⟩

/-- With a faithful cache, a frame address is what it is without the cache. -/
theorem frameAddress_of_faithful
    {cache : CommonCache} {frames : FrameSection}
    (h : cache.Faithful frames) (settings : Settings) (pc sp : UInt64) :
    (cache.frameAddress frames settings pc sp).1 = frames.frameAddress settings pc sp ∧
      (cache.frameAddress frames settings pc sp).2.Faithful frames := by
  unfold frameAddress FrameSection.frameAddress
  cases hfind : frames.find pc settings.maxRecords with
  | error fault =>
      exact ⟨rfl, h⟩
  | ok description =>
      obtain ⟨hcommon, hfaithful⟩ := fetch_of_faithful h description.commonOffset
      rcases hfetch : cache.fetch frames description.commonOffset with ⟨outcome, behind⟩
      rw [hfetch] at hcommon hfaithful
      cases outcome with
      | error fault =>
          have hentry : frames.commonEntry description.commonOffset = .error fault := hcommon.symm
          simp only [hfetch]
          exact ⟨by simp only [hentry, bind, Except.bind], hfaithful⟩
      | ok common =>
          have hentry : frames.commonEntry description.commonOffset = .ok common := hcommon.symm
          simp only [hfetch]
          exact ⟨by simp only [hentry, bind, Except.bind], hfaithful⟩

end CommonCache

end CallFrame
