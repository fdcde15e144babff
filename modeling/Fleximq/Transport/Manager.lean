import Fleximq.Foundation.LruCache
import Fleximq.Foundation.Trace
import Fleximq.Transport.Dispatch

/-! # The connection statistics of the manager

The manager keeps an LRU cache of the URLs that it was asked to connect to, with
the number of connections made and the time of the last use. Each method holds
the lock of the cache from its first access to its last, so the calls of
concurrent connects interleave whole.
-/
namespace Fleximq.Transport
open Foundation Fleximq.Protocol

/-- A reading of the monotonic clock, in nanoseconds. -/
abbrev Instant := Nat

/-- `Instant::duration_since`, which is zero for a later instant. -/
def durationSince (now earlier : Instant) : Nat := now - earlier

structure CacheEntry where
  lastUsed : Instant
  connectionCount : Usize
  deriving DecidableEq

structure TransportManager where
  transports : List (String × BuiltinTransport)
  connectionStats : LruCache String CacheEntry
  cacheTtl : Duration

structure CacheStats where
  size : Nat
  capacity : Nat
  activeEntries : Nat
  deriving DecidableEq

namespace TransportManager

def withCacheConfig (cacheSize : Usize) (ttl : Duration) : TransportManager where
  transports := registerDefaultTransports
  connectionStats := LruCache.new (max cacheSize.toNat 1) (Nat.le_max_right _ _)
  cacheTtl := ttl

def new : TransportManager := withCacheConfig 100 (.fromSecs 300)

def trackConnectionAttempt (m : TransportManager) (now : Instant) (url : String) : TransportManager :=
  match m.connectionStats.getMut url fun entry => { entry with lastUsed := now } with
  | some stats => { m with connectionStats := stats }
  | none => { m with connectionStats := m.connectionStats.put url ⟨now, 0⟩ }

def trackSuccessfulConnection (m : TransportManager) (now : Instant) (url : String) : TransportManager :=
  match m.connectionStats.getMut url fun entry => ⟨now, entry.connectionCount + 1⟩ with
  | some stats => { m with connectionStats := stats }
  | none => m

def getConnectionFrequency (m : TransportManager) (url : String) : Option Usize :=
  (m.connectionStats.peek url).map CacheEntry.connectionCount

def isFrequentlyAccessed (m : TransportManager) (url : String) : Bool :=
  (m.getConnectionFrequency url).any (5 < ·)

def clearCache (m : TransportManager) : TransportManager :=
  { m with connectionStats := m.connectionStats.clear }

def cacheStats (m : TransportManager) (now : Instant) : CacheStats where
  size := m.connectionStats.len
  capacity := m.connectionStats.cap
  activeEntries :=
    (m.connectionStats.entries.filter (durationSince now ·.2.lastUsed < m.cacheTtl.asNanos)).length

def cleanupExpiredEntries (m : TransportManager) (now : Instant) : TransportManager :=
  let expiredKeys :=
    (m.connectionStats.entries.filter (m.cacheTtl.asNanos ≤ durationSince now ·.2.lastUsed)).map Prod.fst
  { m with connectionStats := expiredKeys.foldl LruCache.pop m.connectionStats }

end TransportManager

/-! ## Calls in time -/

inductive ManagerCall where
  | trackConnectionAttempt (url : String)
  | trackSuccessfulConnection (url : String)
  | cleanupExpiredEntries
  | clearCache
  | getConnectionFrequency (url : String)
  | isFrequentlyAccessed (url : String)
  | cacheStats
  deriving DecidableEq

def TransportManager.perform (m : TransportManager) (now : Instant) : ManagerCall → TransportManager
  | .trackConnectionAttempt url => m.trackConnectionAttempt now url
  | .trackSuccessfulConnection url => m.trackSuccessfulConnection now url
  | .cleanupExpiredEntries => m.cleanupExpiredEntries now
  | .clearCache => m.clearCache
  | .getConnectionFrequency _ => m
  | .isFrequentlyAccessed _ => m
  | .cacheStats => m

/-- A call, and the time since the call before it. -/
structure TimedCall where
  elapsed : Nat
  call : ManagerCall
  deriving DecidableEq

structure ManagerState where
  manager : TransportManager
  now : Instant

namespace ManagerState

def start (cacheSize : Usize) (ttl : Duration) : ManagerState := ⟨.withCacheConfig cacheSize ttl, 0⟩

def step (s : ManagerState) (event : TimedCall) : ManagerState :=
  ⟨s.manager.perform (s.now + event.elapsed) event.call, s.now + event.elapsed⟩

def entries (s : ManagerState) : List (String × CacheEntry) := s.manager.connectionStats.entries

def frequency (s : ManagerState) (url : String) : Option Usize := s.manager.getConnectionFrequency url

end ManagerState

def successes (url : String) (events : List TimedCall) : Nat :=
  events.countP (·.call = .trackSuccessfulConnection url)

theorem successes_cons (url : String) (event : TimedCall) (events : List TimedCall) :
    successes url (event :: events) =
      successes url events + if event.call = .trackSuccessfulConnection url then 1 else 0 := by
  rw [successes, List.countP_cons, successes]
  simp

/-- The URL had no entry before the call at `insertion`, and has had one ever since. -/
structure Inserted (s₀ : ManagerState) (url : String) (before : List TimedCall) (insertion : TimedCall)
    (since : List TimedCall) : Prop where
  absent : (Trace.run ManagerState.step s₀ before).frequency url = none
  present : ∀ part, part <+: since →
    ((Trace.run ManagerState.step s₀ (before ++ insertion :: part)).frequency url).isSome = true

/-! ## What a call does to an entry -/

namespace TransportManager

variable {m : TransportManager} {now : Instant} {url other : String} {entry : CacheEntry}

theorem peek_getMut {stats : LruCache String CacheEntry} {update : CacheEntry → CacheEntry}
    (hSome : m.connectionStats.getMut url update = some stats) (hPeek : stats.peek other = some entry) :
    ∃ old, m.connectionStats.peek other = some old ∧ entry = if other = url then update old else old := by
  obtain ⟨old, hOld, rfl⟩ := Option.map_eq_some_iff.mp hSome
  by_cases hOther : other = url
  · subst hOther
    rw [LruCache.peek_put_self] at hPeek
    exact ⟨old, hOld, by rw [if_pos rfl, Option.some.inj hPeek]⟩
  · exact ⟨entry, LruCache.peek_put_of_ne hOther hPeek, (if_neg hOther).symm⟩

/-- An entry keeps its count, but for a success of its URL; and only an attempt for a URL without an
entry makes one, with a count of zero. -/
theorem peek_perform {call : ManagerCall}
    (hPeek : (m.perform now call).connectionStats.peek other = some entry) :
    (∃ old, m.connectionStats.peek other = some old ∧
      entry.connectionCount =
        if call = .trackSuccessfulConnection other then old.connectionCount + 1 else old.connectionCount) ∨
    (m.connectionStats.peek other = none ∧ call = .trackConnectionAttempt other ∧
      entry.connectionCount = 0) := by
  cases call with
  | trackConnectionAttempt url =>
    rw [perform, trackConnectionAttempt] at hPeek
    split at hPeek
    next stats hSome =>
      obtain ⟨old, hOld, rfl⟩ := peek_getMut hSome hPeek
      refine .inl ⟨old, hOld, ?_⟩
      split_ifs <;> simp_all
    next hNone =>
      by_cases hOther : other = url
      · subst hOther
        have hAbsent : m.connectionStats.peek other = none := Option.map_eq_none_iff.mp hNone
        rw [LruCache.peek_put_self] at hPeek
        obtain rfl := Option.some.inj hPeek
        exact .inr ⟨hAbsent, rfl, rfl⟩
      · exact .inl ⟨entry, LruCache.peek_put_of_ne hOther hPeek, by simp⟩
  | trackSuccessfulConnection url =>
    rw [perform, trackSuccessfulConnection] at hPeek
    split at hPeek
    next stats hSome =>
      obtain ⟨old, hOld, rfl⟩ := peek_getMut hSome hPeek
      refine .inl ⟨old, hOld, ?_⟩
      by_cases hOther : other = url
      · subst hOther
        simp
      · simp [hOther, Ne.symm hOther]
    next hNone =>
      have hOther : other ≠ url := by
        rintro rfl
        rw [Option.map_eq_none_iff.mp hNone] at hPeek
        cases hPeek
      exact .inl ⟨entry, hPeek, by simp [Ne.symm hOther]⟩
  | cleanupExpiredEntries =>
    have hMem := LruCache.peek_eq_some.mp hPeek
    rw [perform, cleanupExpiredEntries, LruCache.foldl_pop_filter] at hMem
    exact .inl ⟨entry, LruCache.peek_eq_some.mpr (List.mem_of_mem_filter hMem), by simp⟩
  | clearCache => cases hPeek
  | getConnectionFrequency _ => exact .inl ⟨entry, hPeek, by simp⟩
  | isFrequentlyAccessed _ => exact .inl ⟨entry, hPeek, by simp⟩
  | cacheStats => exact .inl ⟨entry, hPeek, by simp⟩

theorem cleanup_entries (m : TransportManager) (now : Instant) :
    (m.cleanupExpiredEntries now).connectionStats.entries =
      m.connectionStats.entries.filter (durationSince now ·.2.lastUsed < m.cacheTtl.asNanos) := by
  rw [cleanupExpiredEntries, LruCache.foldl_pop_filter]
  apply List.filter_congr
  intro entry _
  simp [← decide_not]

theorem exists_attempt_put (m : TransportManager) (now : Instant) (url : String) :
    ∃ entry, (m.trackConnectionAttempt now url).connectionStats = m.connectionStats.put url entry := by
  rw [trackConnectionAttempt]
  split
  next stats hSome =>
    obtain ⟨old, -, rfl⟩ := Option.map_eq_some_iff.mp hSome
    exact ⟨_, rfl⟩
  next => exact ⟨⟨now, 0⟩, rfl⟩

/-- A call puts an entry that is used now in front, or it leaves a part of the entries. -/
theorem perform_cases (m : TransportManager) (now : Instant) (call : ManagerCall) :
    (∃ url entry, entry.lastUsed = now ∧
      (m.perform now call).connectionStats = m.connectionStats.put url entry) ∨
    ∃ entries, ∃ hSub : entries.Sublist m.connectionStats.entries,
      (m.perform now call).connectionStats = m.connectionStats.retain entries hSub := by
  have hSame : m.connectionStats = m.connectionStats.retain m.connectionStats.entries (List.Sublist.refl _) := rfl
  cases call with
  | trackConnectionAttempt url =>
    rw [perform, trackConnectionAttempt]
    split
    next stats hSome =>
      obtain ⟨old, -, rfl⟩ := Option.map_eq_some_iff.mp hSome
      exact .inl ⟨url, _, rfl, rfl⟩
    next => exact .inl ⟨url, ⟨now, 0⟩, rfl, rfl⟩
  | trackSuccessfulConnection url =>
    rw [perform, trackSuccessfulConnection]
    split
    next stats hSome =>
      obtain ⟨old, -, rfl⟩ := Option.map_eq_some_iff.mp hSome
      exact .inl ⟨url, _, rfl, rfl⟩
    next => exact .inr ⟨m.connectionStats.entries, List.Sublist.refl _, hSame⟩
  | cleanupExpiredEntries =>
    refine .inr ⟨(m.cleanupExpiredEntries now).connectionStats.entries, ?_, ?_⟩
    · rw [cleanup_entries]
      exact List.filter_sublist
    · exact LruCache.ext (LruCache.foldl_pop _ _).1 rfl
  | clearCache => exact .inr ⟨[], List.nil_sublist _, rfl⟩
  | getConnectionFrequency _ => exact .inr ⟨m.connectionStats.entries, List.Sublist.refl _, hSame⟩
  | isFrequentlyAccessed _ => exact .inr ⟨m.connectionStats.entries, List.Sublist.refl _, hSame⟩
  | cacheStats => exact .inr ⟨m.connectionStats.entries, List.Sublist.refl _, hSame⟩

theorem perform_cap (m : TransportManager) (now : Instant) (call : ManagerCall) :
    (m.perform now call).connectionStats.cap = m.connectionStats.cap := by
  rcases m.perform_cases now call with ⟨url, entry, -, hStats⟩ | ⟨entries, hSub, hStats⟩
  · rw [hStats]
    rfl
  · rw [hStats]
    rfl

theorem perform_cacheTtl (m : TransportManager) (now : Instant) (call : ManagerCall) :
    (m.perform now call).cacheTtl = m.cacheTtl := by
  cases call with
  | trackConnectionAttempt url =>
    rw [perform, trackConnectionAttempt]
    split <;> rfl
  | trackSuccessfulConnection url =>
    rw [perform, trackSuccessfulConnection]
    split <;> rfl
  | _ => rfl

/-- After a cleanup every entry is active. -/
theorem cleanup_active (m : TransportManager) (now : Instant) :
    ((m.cleanupExpiredEntries now).cacheStats now).activeEntries =
      ((m.cleanupExpiredEntries now).cacheStats now).size := by
  have hActive : (m.cleanupExpiredEntries now).connectionStats.entries.filter
      (durationSince now ·.2.lastUsed < m.cacheTtl.asNanos) =
        (m.cleanupExpiredEntries now).connectionStats.entries := by
    rw [cleanup_entries]
    exact List.filter_eq_self.mpr fun _ hMem => (List.mem_filter.mp hMem).2
  exact congrArg List.length hActive

end TransportManager

namespace ManagerState

/-! ## Counts -/

theorem frequency_step {s : ManagerState} {event : TimedCall} {url : String} {count : Usize}
    (h : (s.step event).frequency url = some count) :
    (∃ old, s.frequency url = some old ∧
      count = if event.call = .trackSuccessfulConnection url then old + 1 else old) ∨
    (s.frequency url = none ∧ event.call = .trackConnectionAttempt url ∧ count = 0) := by
  obtain ⟨entry, hPeek, rfl⟩ := Option.map_eq_some_iff.mp h
  rcases TransportManager.peek_perform hPeek with ⟨old, hOld, hCount⟩ | ⟨hNone, hCall, hCount⟩
  · exact .inl ⟨old.connectionCount, Option.map_eq_some_iff.mpr ⟨old, hOld, rfl⟩, hCount⟩
  · exact .inr ⟨Option.map_eq_none_iff.mpr hNone, hCall, hCount⟩

theorem frequency_isSome {s : ManagerState} {url : String} :
    (s.frequency url).isSome = true ↔ url ∈ s.entries.map Prod.fst := by
  rw [frequency, TransportManager.getConnectionFrequency, Option.isSome_map, LruCache.peek_isSome]
  rfl

/-- As long as the entry stays, its count grows with the successes of its URL. -/
theorem frequency_since {s : ManagerState} {url : String} {count : Usize} (hStart : s.frequency url = some count)
    {since : List TimedCall}
    (hPresent : ∀ part, part <+: since → ((Trace.run step s part).frequency url).isSome = true) :
    (Trace.run step s since).frequency url = some (count + UInt64.ofNat (successes url since)) := by
  induction since generalizing s count with
  | nil => exact hStart.trans (by simp [successes])
  | cons event since ih =>
    obtain ⟨next, hNext⟩ := Option.isSome_iff_exists.mp (hPresent [event] (List.prefix_append _ _))
    have hRest (part : List TimedCall) (hPart : part <+: since) :
        ((Trace.run step (s.step event) part).frequency url).isSome = true :=
      hPresent (event :: part) ((List.prefix_cons_inj event).mpr hPart)
    refine (ih hNext hRest).trans ?_
    rcases frequency_step hNext with ⟨old, hOld, rfl⟩ | ⟨hNone, -, -⟩
    · obtain rfl := Option.some.inj (hStart.symm.trans hOld)
      rw [successes_cons]
      split_ifs with hCall
      · rw [UInt64.ofNat_add, UInt64.add_assoc, UInt64.add_comm 1]
        rfl
      · rfl
    · rw [hStart] at hNone
      cases hNone

theorem frequency_start (cacheSize : Usize) (ttl : Duration) (url : String) :
    (start cacheSize ttl).frequency url = none := rfl

theorem frequency_of_inserted {s : ManagerState} {url : String} {before since : List TimedCall}
    {insertion : TimedCall} (hInserted : Inserted s url before insertion since) :
    (Trace.run step s (before ++ insertion :: since)).frequency url =
      some (UInt64.ofNat (successes url since)) := by
  have hPresent (part : List TimedCall) (hPart : part <+: since) :
      ((Trace.run step ((Trace.run step s before).step insertion) part).frequency url).isSome = true := by
    have hSome := hInserted.present part hPart
    rwa [Trace.run_append] at hSome
  obtain ⟨count, hFirst⟩ := Option.isSome_iff_exists.mp (hPresent [] List.nil_prefix)
  rcases frequency_step hFirst with ⟨old, hOld, -⟩ | ⟨-, -, rfl⟩
  · rw [hInserted.absent] at hOld
    cases hOld
  · rw [Trace.run_append]
    exact (frequency_since hFirst hPresent).trans (by rw [UInt64.zero_add])

/-- The count of an entry is that of the successes since its insertion. -/
theorem frequency_run_iff {cacheSize : Usize} {ttl : Duration} {events : List TimedCall} {url : String}
    {count : Usize} :
    (Trace.run step (start cacheSize ttl) events).frequency url = some count ↔
      ∃ before elapsed since, events = before ++ ⟨elapsed, .trackConnectionAttempt url⟩ :: since ∧
        Inserted (start cacheSize ttl) url before ⟨elapsed, .trackConnectionAttempt url⟩ since ∧
        count = UInt64.ofNat (successes url since) := by
  constructor
  · intro hCount
    have hAbsent : ¬ ((start cacheSize ttl).frequency url).isSome = true := by
      rw [frequency_start]
      decide
    obtain ⟨before, ⟨elapsed, call⟩, since, rfl, hBefore, hSince⟩ :=
      @Trace.exists_last_step _ _ step (fun s => (s.frequency url).isSome = true) _ hAbsent events
        (by rw [hCount]; rfl)
    have hNone := Option.not_isSome_iff_eq_none.mp hBefore
    obtain ⟨first, hFirst⟩ := Option.isSome_iff_exists.mp (hSince [] List.nil_prefix)
    rcases frequency_step hFirst with ⟨old, hOld, -⟩ | ⟨-, rfl, -⟩
    · rw [hNone] at hOld
      cases hOld
    · have hInserted : Inserted (start cacheSize ttl) url before
          ⟨elapsed, .trackConnectionAttempt url⟩ since := by
        refine ⟨hNone, ?_⟩
        intro part hPart
        rw [Trace.run_append]
        exact hSince part hPart
      refine ⟨before, elapsed, since, rfl, hInserted, ?_⟩
      exact Option.some.inj (hCount.symm.trans (frequency_of_inserted hInserted))
  · rintro ⟨before, elapsed, since, rfl, hInserted, rfl⟩
    exact frequency_of_inserted hInserted

/-! ## Order and size -/

structure Ordered (cacheSize : Usize) (ttl : Duration) (s : ManagerState) : Prop where
  cap_eq : s.manager.connectionStats.cap = max cacheSize.toNat 1
  ttl_eq : s.manager.cacheTtl = ttl
  recency : LruCache.Recency CacheEntry.lastUsed s.manager.connectionStats
  past : ∀ entry ∈ s.entries, entry.2.lastUsed ≤ s.now

theorem ordered_start (cacheSize : Usize) (ttl : Duration) : Ordered cacheSize ttl (start cacheSize ttl) :=
  ⟨rfl, rfl, List.Pairwise.nil, List.forall_mem_nil _⟩

theorem ordered_step {cacheSize : Usize} {ttl : Duration} (s : ManagerState) (event : TimedCall)
    (h : Ordered cacheSize ttl s) : Ordered cacheSize ttl (s.step event) := by
  have hLater : s.now ≤ (s.step event).now := Nat.le_add_right _ _
  have hStats : LruCache.Recency CacheEntry.lastUsed (s.step event).manager.connectionStats ∧
      ∀ entry ∈ (s.step event).entries, entry.2.lastUsed ≤ (s.step event).now := by
    rw [entries]
    rcases s.manager.perform_cases (s.now + event.elapsed) event.call with
      ⟨url, new, hNew, hPut⟩ | ⟨part, hSub, hPart⟩
    · have hOlder (entry : String × CacheEntry) (hMem : entry ∈ s.entries) :
          entry.2.lastUsed ≤ new.lastUsed := by
        rw [hNew]
        exact Nat.le_trans (h.past entry hMem) hLater
      rw [step, hPut]
      refine ⟨h.recency.put hOlder url, ?_⟩
      intro entry hMem
      rcases List.mem_cons.mp hMem with rfl | hKept
      · exact Nat.le_of_eq hNew
      · exact Nat.le_trans (h.past entry ((LruCache.kept_sublist _ _).subset hKept)) hLater
    · rw [step, hPart]
      refine ⟨h.recency.retain hSub, ?_⟩
      intro entry hMem
      exact Nat.le_trans (h.past entry (hSub.subset hMem)) hLater
  exact ⟨(s.manager.perform_cap _ _).trans h.cap_eq, (s.manager.perform_cacheTtl _ _).trans h.ttl_eq,
    hStats.1, hStats.2⟩

/-- What the statistics are after any calls: bounded, exact up to the width of the counter, in the order
of use, and cleaned up when they are asked to be. -/
structure Exact (cacheSize : Usize) (ttl : Duration) (events : List TimedCall) (s : ManagerState) : Prop where
  size_le : s.entries.length ≤ max cacheSize.toNat 1
  distinct : (s.entries.map Prod.fst).Nodup
  frequency_isSome : ∀ url, (s.frequency url).isSome = true ↔ url ∈ s.entries.map Prod.fst
  frequency_eq : ∀ url count, s.frequency url = some count ↔
    ∃ before elapsed since, events = before ++ ⟨elapsed, .trackConnectionAttempt url⟩ :: since ∧
      Inserted (start cacheSize ttl) url before ⟨elapsed, .trackConnectionAttempt url⟩ since ∧
      count = UInt64.ofNat (successes url since)
  recency : s.entries.Pairwise fun newer older => older.2.lastUsed ≤ newer.2.lastUsed
  evicted : ∀ elapsed url, ∀ dropped ∈ s.entries,
    dropped.1 ∉ (s.step ⟨elapsed, .trackConnectionAttempt url⟩).entries.map Prod.fst →
    ∀ entry ∈ s.entries, dropped.2.lastUsed ≤ entry.2.lastUsed
  cleaned : ∀ elapsed, (s.step ⟨elapsed, .cleanupExpiredEntries⟩).entries =
    s.entries.filter (durationSince (s.now + elapsed) ·.2.lastUsed < ttl.asNanos)
  active : ∀ elapsed, let after := s.step ⟨elapsed, .cleanupExpiredEntries⟩
    (after.manager.cacheStats after.now).activeEntries = (after.manager.cacheStats after.now).size

theorem evicted_oldest {cacheSize : Usize} {ttl : Duration} {s : ManagerState} (h : Ordered cacheSize ttl s)
    {elapsed : Nat} {url : String} {dropped : String × CacheEntry} (hMem : dropped ∈ s.entries)
    (hDropped : dropped.1 ∉ (s.step ⟨elapsed, .trackConnectionAttempt url⟩).entries.map Prod.fst)
    {entry : String × CacheEntry} (hEntry : entry ∈ s.entries) :
    dropped.2.lastUsed ≤ entry.2.lastUsed := by
  obtain ⟨new, hPut⟩ := s.manager.exists_attempt_put (s.now + elapsed) url
  have hStats : (s.step ⟨elapsed, .trackConnectionAttempt url⟩).manager.connectionStats =
      s.manager.connectionStats.put url new := hPut
  rw [entries, hStats] at hDropped
  exact h.recency.dropped hMem hDropped hEntry

/-- No interleaving of calls makes the statistics wrong. -/
theorem statistics_exact (cacheSize : Usize) (ttl : Duration) (events : List TimedCall) :
    Exact cacheSize ttl events (Trace.run step (start cacheSize ttl) events) := by
  have hOrdered : Ordered cacheSize ttl (Trace.run step (start cacheSize ttl) events) :=
    Trace.run_invariant ordered_step (ordered_start cacheSize ttl) events
  exact
    { size_le := by
        rw [← hOrdered.cap_eq]
        exact LruCache.length_le _
      distinct := LruCache.distinct _
      frequency_isSome := fun _ => frequency_isSome
      frequency_eq := fun _ _ => frequency_run_iff
      recency := hOrdered.recency
      evicted := fun _ _ _ hMem hDropped _ hEntry => evicted_oldest hOrdered hMem hDropped hEntry
      cleaned := by
        intro elapsed
        refine (TransportManager.cleanup_entries _ _).trans ?_
        rw [hOrdered.ttl_eq]
        rfl
      active := fun _ => TransportManager.cleanup_active _ _ }

/-! ## The width of the counter -/

def successful (count : Nat) (url : String) : List TimedCall :=
  List.replicate count ⟨0, .trackSuccessfulConnection url⟩

theorem successes_successful (count : Nat) (url : String) : successes url (successful count url) = count := by
  rw [successes, successful, List.countP_replicate]
  simp

theorem present_attempt (s : ManagerState) (elapsed : Nat) (url : String) :
    ((s.step ⟨elapsed, .trackConnectionAttempt url⟩).frequency url).isSome = true := by
  obtain ⟨entry, hPut⟩ := s.manager.exists_attempt_put (s.now + elapsed) url
  rw [frequency, TransportManager.getConnectionFrequency, Option.isSome_map, step, TransportManager.perform, hPut,
    LruCache.peek_put_self]
  rfl

theorem present_success {s : ManagerState} {url : String} (h : (s.frequency url).isSome = true) (elapsed : Nat) :
    ((s.step ⟨elapsed, .trackSuccessfulConnection url⟩).frequency url).isSome = true := by
  rw [frequency, TransportManager.getConnectionFrequency, Option.isSome_map] at h
  obtain ⟨entry, hEntry⟩ := Option.isSome_iff_exists.mp h
  rw [step, TransportManager.perform, TransportManager.trackSuccessfulConnection, LruCache.getMut, hEntry,
    Option.map_some, frequency, TransportManager.getConnectionFrequency, LruCache.peek_put_self]
  rfl

theorem present_successful {s : ManagerState} {url : String} (h : (s.frequency url).isSome = true) (count : Nat) :
    ((Trace.run step s (successful count url)).frequency url).isSome = true := by
  induction count generalizing s with
  | zero => exact h
  | succ count ih => exact ih (present_success h 0)

theorem inserted_successful (count : Nat) (url : String) :
    Inserted (start 1 (.fromSecs 300)) url [] ⟨0, .trackConnectionAttempt url⟩ (successful count url) := by
  refine ⟨rfl, ?_⟩
  intro part hPart
  obtain ⟨-, hPart⟩ := List.prefix_replicate_iff.mp hPart
  rw [hPart]
  exact present_successful (present_attempt _ 0 url) part.length

/-- After 2 ^ 64 successful connections the count is zero. -/
theorem not_counted_wrapping :
    Inserted (start 1 (.fromSecs 300)) "tcp://127.0.0.1:80" []
        ⟨0, .trackConnectionAttempt "tcp://127.0.0.1:80"⟩ (successful (2 ^ 64) "tcp://127.0.0.1:80") ∧
      successes "tcp://127.0.0.1:80" (successful (2 ^ 64) "tcp://127.0.0.1:80") = 2 ^ 64 ∧
      (Trace.run step (start 1 (.fromSecs 300))
        (⟨0, .trackConnectionAttempt "tcp://127.0.0.1:80"⟩ ::
          successful (2 ^ 64) "tcp://127.0.0.1:80")).frequency "tcp://127.0.0.1:80" = some 0 := by
  have hInserted := inserted_successful (2 ^ 64) "tcp://127.0.0.1:80"
  refine ⟨hInserted, successes_successful _ _, ?_⟩
  refine (frequency_of_inserted hInserted).trans ?_
  rw [successes_successful]
  rfl

end ManagerState

end Fleximq.Transport
