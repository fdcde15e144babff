import Mathlib.Logic.Function.Basic
import Fleximq.Foundation.Trace
import Fleximq.Transport.Ipc

/-! # Listeners behind socket files

`listen` removes the socket file at its path before it binds its own, and
`close` removes whatever is there. Any number of listeners take these steps in
any order. A connect reaches the listener whose file is at the path. Which
place in the file system a path names is a parameter.
-/
namespace Fleximq.Transport
open Foundation

/-- A call of `listen` after the removal, and the listener that it returns. -/
inductive ListenerPhase where
  | fresh
  | preparing (path : String)
  | listening (path : String)
  | gone
  deriving DecidableEq

/-- A connection, by the listener, the call of `connect` and the address that the listener gives it. -/
structure IpcConnection where
  listener : Nat
  call : Nat
  localAddr : String
  deriving DecidableEq

/-- The socket files with the listeners that bound them, the connections that wait in the backlogs, and all
that were made and accepted. -/
structure IpcSockets (P : Type) where
  files : P → Option Nat
  phase : Nat → ListenerPhase
  queued : Nat → List IpcConnection
  reached : List IpcConnection
  accepted : List IpcConnection

/-- `failed` tells that the system refuses what the step asks of it. -/
inductive IpcEvent where
  | listen (id : Nat) (url : String) (failed : Bool)
  | bind (id : Nat) (failed : Bool)
  | close (id : Nat) (failed : Bool)
  | drop (id : Nat)
  | connect (call : Nat) (url : String) (failed : Bool)
  | accept (id : Nat)
  deriving DecidableEq

namespace IpcSockets

variable {P : Type}

def init : IpcSockets P := ⟨fun _ => none, fun _ => .fresh, fun _ => [], [], []⟩

def turn (s : IpcSockets P) (id : Nat) (phase : ListenerPhase) : IpcSockets P :=
  { s with phase := Function.update s.phase id phase }

def reach (s : IpcSockets P) (id : Nat) (c : IpcConnection) : IpcSockets P :=
  { s with queued := Function.update s.queued id (s.queued id ++ [c]), reached := s.reached ++ [c] }

def reachedBy (s : IpcSockets P) (id : Nat) : List IpcConnection := s.reached.filter (·.listener = id)

def acceptedBy (s : IpcSockets P) (id : Nat) : List IpcConnection := s.accepted.filter (·.listener = id)

section Files

variable [DecidableEq P]

/-- `remove_file`; the callers ignore that it fails. -/
def remove (s : IpcSockets P) (place : P) (failed : Bool) : IpcSockets P :=
  if failed then s else { s with files := Function.update s.files place none }

def bindAt (s : IpcSockets P) (id : Nat) (path : String) (place : P) (failed : Bool) : IpcSockets P :=
  if failed || (s.files place).isSome then s.turn id .gone
  else { s.turn id (.listening path) with files := Function.update s.files place (some id) }

variable (parse : UrlParser) (resolve : String → P)

def step (s : IpcSockets P) : IpcEvent → IpcSockets P
  | .listen id url failed =>
    match s.phase id with
    | .fresh =>
      match IpcTransport.parsePath parse url with
      | .error _ => s.turn id .gone
      | .ok path => (s.remove (resolve path) failed).turn id (.preparing path)
    | _ => s
  | .bind id failed =>
    match s.phase id with
    | .preparing path => s.bindAt id path (resolve path) failed
    | _ => s
  | .close id failed =>
    match s.phase id with
    | .listening path => s.remove (resolve path) failed
    | _ => s
  | .drop id =>
    match s.phase id with
    | .listening _ => { s.turn id .gone with queued := Function.update s.queued id [] }
    | _ => s
  | .connect call url failed =>
    match IpcTransport.parsePath parse url with
    | .error _ => s
    | .ok path =>
      match s.files (resolve path) with
      | none => s
      | some id =>
        match s.phase id with
        | .listening localAddr => if failed then s else s.reach id ⟨id, call, localAddr⟩
        | _ => s
  | .accept id =>
    match s.phase id, s.queued id with
    | .listening path, c :: queued =>
      { s with
        queued := Function.update s.queued id queued
        accepted := s.accepted ++ [⟨id, c.call, path⟩] }
    | _, _ => s

def run (events : List IpcEvent) : IpcSockets P := Trace.run (step parse resolve) init events

/-! ## Who holds a place -/

/-- The file at the place is removed, by a `listen` or a `close` of anyone. -/
inductive Unlinks (s : IpcSockets P) (place : P) : IpcEvent → Prop where
  | listen {id url path} (hFresh : s.phase id = .fresh) (hPath : IpcTransport.parsePath parse url = .ok path)
    (hPlace : resolve path = place) : Unlinks s place (.listen id url false)
  | close {id path} (hListening : s.phase id = .listening path) (hPlace : resolve path = place) :
    Unlinks s place (.close id false)

/-- The listener puts its file at the place, which is free. -/
inductive Binds (s : IpcSockets P) (place : P) (id : Nat) : IpcEvent → Prop where
  | bind {path} (hPreparing : s.phase id = .preparing path) (hPlace : resolve path = place)
    (hFree : s.files place = none) : Binds s place id (.bind id false)

/-- The listener bound the place at some step, and nobody has removed a file there since. -/
def Published (events : List IpcEvent) (place : P) (id : Nat) : Prop :=
  ∃ before event after, events = before ++ event :: after ∧
    Binds resolve (run parse resolve before) place id event ∧
    Trace.Along (step parse resolve) (fun s later => ¬ Unlinks parse resolve s place later)
      (run parse resolve (before ++ [event])) after

/-! ## What an event does -/

inductive Acts (s : IpcSockets P) : IpcEvent → IpcSockets P → Prop where
  | refuses {id url failed} (hFresh : s.phase id = .fresh) : Acts s (.listen id url failed) (s.turn id .gone)
  | clears {id url path failed} (hFresh : s.phase id = .fresh)
    (hPath : IpcTransport.parsePath parse url = .ok path) :
    Acts s (.listen id url failed) ((s.remove (resolve path) failed).turn id (.preparing path))
  | binds {id path} (hPreparing : s.phase id = .preparing path) (hFree : s.files (resolve path) = none) :
    Acts s (.bind id false)
      { s.turn id (.listening path) with files := Function.update s.files (resolve path) (some id) }
  | loses {id path failed} (hPreparing : s.phase id = .preparing path) :
    Acts s (.bind id failed) (s.turn id .gone)
  | closes {id path failed} (hListening : s.phase id = .listening path) :
    Acts s (.close id failed) (s.remove (resolve path) failed)
  | drops {id path} (hListening : s.phase id = .listening path) :
    Acts s (.drop id) { s.turn id .gone with queued := Function.update s.queued id [] }
  | reaches {call url path id localAddr} (hPath : IpcTransport.parsePath parse url = .ok path)
    (hFile : s.files (resolve path) = some id) (hListening : s.phase id = .listening localAddr) :
    Acts s (.connect call url false) (s.reach id ⟨id, call, localAddr⟩)
  | accepts {id path c queued} (hListening : s.phase id = .listening path) (hQueued : s.queued id = c :: queued) :
    Acts s (.accept id)
      { s with
        queued := Function.update s.queued id queued
        accepted := s.accepted ++ [⟨id, c.call, path⟩] }

variable {parse resolve}

theorem act_cases (s : IpcSockets P) (event : IpcEvent) :
    step parse resolve s event = s ∨ Acts parse resolve s event (step parse resolve s event) := by
  cases event with
  | listen id url failed =>
    rw [step]
    split
    next hFresh =>
      right
      split
      next => exact .refuses hFresh
      next path hPath => exact .clears hFresh hPath
    next => exact .inl rfl
  | bind id failed =>
    rw [step]
    split
    next path hPreparing =>
      right
      rw [bindAt]
      split
      next => exact .loses hPreparing
      next hFree =>
        simp only [Bool.or_eq_true, not_or, Bool.not_eq_true, Option.isSome_eq_false_iff, Option.isNone_iff_eq_none]
          at hFree
        rw [hFree.1]
        exact .binds hPreparing hFree.2
    next => exact .inl rfl
  | close id failed =>
    rw [step]
    split
    next path hListening => exact .inr (.closes hListening)
    next => exact .inl rfl
  | drop id =>
    rw [step]
    split
    next path hListening => exact .inr (.drops hListening)
    next => exact .inl rfl
  | connect call url failed =>
    rw [step]
    split
    next => exact .inl rfl
    next path hPath =>
      split
      next => exact .inl rfl
      next id hFile =>
        split
        next localAddr hListening =>
          cases failed with
          | true => exact .inl rfl
          | false => exact .inr (.reaches hPath hFile hListening)
        next => exact .inl rfl
  | accept id =>
    rw [step]
    split
    next path c queued hListening hQueued => exact .inr (.accepts hListening hQueued)
    next => exact .inl rfl

/-! ## The file at a place -/

theorem files_of_unlinks {s : IpcSockets P} {event : IpcEvent} {place : P}
    (h : Unlinks parse resolve s place event) : (step parse resolve s event).files place = none := by
  cases h with
  | listen hFresh hPath hPlace => simp [step, hFresh, hPath, turn, remove, hPlace]
  | close hListening hPlace => simp [step, hListening, remove, hPlace]

theorem remove_files (s : IpcSockets P) (removed place : P) (failed : Bool) :
    (s.remove removed failed).files place = s.files place ∨ (failed = false ∧ removed = place) := by
  cases failed with
  | true => exact .inl rfl
  | false =>
    by_cases hPlace : removed = place
    · exact .inr ⟨rfl, hPlace⟩
    · exact .inl (Function.update_of_ne (Ne.symm hPlace) _ _)

/-- A step leaves the file at a place alone, removes it or finds none and binds one there. -/
theorem files_cases (s : IpcSockets P) (event : IpcEvent) (place : P) :
    (step parse resolve s event).files place = s.files place ∨ Unlinks parse resolve s place event ∨
      ∃ id, Binds resolve s place id event ∧ (step parse resolve s event).files place = some id := by
  rcases act_cases s event with hStays | hActs
  · exact .inl (by rw [hStays])
  · generalize step parse resolve s event = s' at hActs
    cases hActs with
    | @clears id url path failed hFresh hPath =>
      rcases s.remove_files (resolve path) place failed with hKept | ⟨rfl, hPlace⟩
      · exact .inl hKept
      · exact .inr (.inl (.listen hFresh hPath hPlace))
    | @closes id path failed hListening =>
      rcases s.remove_files (resolve path) place failed with hKept | ⟨rfl, hPlace⟩
      · exact .inl hKept
      · exact .inr (.inl (.close hListening hPlace))
    | @binds id path hPreparing hFree =>
      by_cases hPlace : resolve path = place
      · subst hPlace
        exact .inr (.inr ⟨id, .bind hPreparing rfl hFree, Function.update_self _ _ _⟩)
      · exact .inl (Function.update_of_ne (Ne.symm hPlace) _ _)
    | _ => exact .inl rfl

theorem files_kept_iff {s : IpcSockets P} {place : P} {id : Nat} (h : s.files place = some id) (event : IpcEvent) :
    (step parse resolve s event).files place = some id ↔ ¬ Unlinks parse resolve s place event := by
  constructor
  · intro hAfter hUnlinks
    rw [files_of_unlinks hUnlinks] at hAfter
    cases hAfter
  · intro hKept
    rcases files_cases s event place with hSame | hUnlinks | ⟨id', ⟨-, -, hFree⟩, -⟩
    · rw [hSame, h]
    · exact absurd hUnlinks hKept
    · rw [h] at hFree
      cases hFree

theorem binds_of_files {s : IpcSockets P} {place : P} {id : Nat} {event : IpcEvent} (hBefore : s.files place ≠ some id)
    (h : (step parse resolve s event).files place = some id) : Binds resolve s place id event := by
  rcases files_cases s event place with hSame | hUnlinks | ⟨id', hBinds, hAfter⟩
  · exact absurd (hSame ▸ h) hBefore
  · rw [files_of_unlinks hUnlinks] at h
    cases h
  · rw [hAfter] at h
    cases h
    exact hBinds

theorem files_of_binds {s : IpcSockets P} {place : P} {id : Nat} {event : IpcEvent}
    (h : Binds resolve s place id event) : (step parse resolve s event).files place = some id := by
  obtain ⟨hPreparing, rfl, hFree⟩ := h
  simp [step, hPreparing, bindAt, hFree]

/-- The listener of the file at a place is the one that bound it last, with no removal since. -/
theorem files_iff {events : List IpcEvent} {place : P} {id : Nat} :
    (run parse resolve events).files place = some id ↔ Published parse resolve events place id := by
  have hAlong (s : IpcSockets P) (hFile : s.files place = some id) (after : List IpcEvent) :=
    @Trace.throughout_iff_along _ _ (step parse resolve) (·.files place = some id)
      (fun s later => ¬ Unlinks parse resolve s place later) (fun _ event hFile => files_kept_iff hFile event) s
      hFile after
  constructor
  · intro h
    have hInit : ¬ (init : IpcSockets P).files place = some id := by simp [init]
    obtain ⟨before, event, after, hEvents, hBefore, hSince⟩ :=
      @Trace.exists_last_step _ _ (step parse resolve) (·.files place = some id) init hInit events h
    have hAfter := hSince [] List.nil_prefix
    refine ⟨before, event, after, hEvents, binds_of_files hBefore hAfter, ?_⟩
    rw [run, Trace.run_append]
    exact (hAlong _ hAfter after).mp hSince
  · rintro ⟨before, event, after, rfl, hBinds, hKept⟩
    rw [run, Trace.run_append] at hKept ⊢
    exact (hAlong _ (files_of_binds hBinds) after).mpr hKept after (List.prefix_refl after)

end Files

/-! ## The connections of a listener -/

/-- What the backlog, the accepted connections and all that were made are in each phase of a listener. -/
inductive Serves (id : Nat) (queued accepted reached : List IpcConnection) : ListenerPhase → Prop where
  | fresh (hNone : queued = [] ∧ accepted = [] ∧ reached = []) : Serves id queued accepted reached .fresh
  | preparing {path} (hNone : queued = [] ∧ accepted = [] ∧ reached = []) :
    Serves id queued accepted reached (.preparing path)
  | listening {path} (hQueued : ∀ c ∈ queued, c.listener = id ∧ c.localAddr = path)
    (hAll : accepted ++ queued = reached) : Serves id queued accepted reached (.listening path)
  | gone (hPrefix : accepted <+: reached) : Serves id queued accepted reached .gone

def Serving (s : IpcSockets P) (id : Nat) : Prop :=
  Serves id (s.queued id) (s.acceptedBy id) (s.reachedBy id) (s.phase id)

theorem Serving.isPrefix {s : IpcSockets P} {id : Nat} (h : s.Serving id) : s.acceptedBy id <+: s.reachedBy id := by
  rw [Serving] at h
  generalize s.phase id = phase at h
  cases h with
  | fresh hNone => simp [hNone]
  | preparing hNone => simp [hNone]
  | listening hQueued hAll => exact ⟨_, hAll⟩
  | gone hPrefix => exact hPrefix

theorem serving_of_eq {s : IpcSockets P} {id : Nat} {queued accepted reached : List IpcConnection}
    {phase : ListenerPhase} (h : Serves id queued accepted reached phase) (hQueued : s.queued id = queued)
    (hAccepted : s.acceptedBy id = accepted) (hReached : s.reachedBy id = reached) (hPhase : s.phase id = phase) :
    s.Serving id := by
  rw [Serving, hQueued, hAccepted, hReached, hPhase]
  exact h

/-- A step that concerns one listener serves the others as before. -/
theorem serving_of_others {s s' : IpcSockets P} (h : ∀ id, s.Serving id) {id : Nat} (hId : s'.Serving id)
    (hPhase : ∀ other, other ≠ id → s'.phase other = s.phase other)
    (hQueued : ∀ other, other ≠ id → s'.queued other = s.queued other)
    (hAccepted : ∀ other, other ≠ id → s'.acceptedBy other = s.acceptedBy other)
    (hReached : ∀ other, other ≠ id → s'.reachedBy other = s.reachedBy other) : ∀ other, s'.Serving other := by
  intro other
  by_cases hOther : other = id
  · rw [hOther]
    exact hId
  · rw [Serving, hPhase other hOther, hQueued other hOther, hAccepted other hOther, hReached other hOther]
    exact h other

theorem serving_turn {s : IpcSockets P} (h : ∀ id, s.Serving id) {id : Nat} {phase : ListenerPhase}
    (hId : Serves id (s.queued id) (s.acceptedBy id) (s.reachedBy id) phase) : ∀ other, (s.turn id phase).Serving other := by
  apply @serving_of_others _ s _ h id
  · exact serving_of_eq hId rfl rfl rfl (Function.update_self _ _ _)
  · intro other hOther
    exact Function.update_of_ne hOther _ _
  · exact fun _ _ => rfl
  · exact fun _ _ => rfl
  · exact fun _ _ => rfl

theorem serving_drop {s : IpcSockets P} (h : ∀ id, s.Serving id) {id : Nat} {path : String}
    (hListening : s.phase id = .listening path) :
    ∀ other, Serving { s.turn id .gone with queued := Function.update s.queued id [] } other := by
  apply @serving_of_others _ s _ h id
  · have hId := h id
    rw [Serving, hListening] at hId
    cases hId with
    | listening hQueued hAll =>
      exact serving_of_eq (.gone ⟨_, hAll⟩) (Function.update_self _ _ _) rfl rfl (Function.update_self _ _ _)
  · intro other hOther
    exact Function.update_of_ne hOther _ _
  · intro other hOther
    exact Function.update_of_ne hOther _ _
  · exact fun _ _ => rfl
  · exact fun _ _ => rfl

theorem serving_reach {s : IpcSockets P} (h : ∀ id, s.Serving id) {id call : Nat} {localAddr : String}
    (hListening : s.phase id = .listening localAddr) : ∀ other, (s.reach id ⟨id, call, localAddr⟩).Serving other := by
  apply @serving_of_others _ s _ h id
  · have hId := h id
    rw [Serving, hListening] at hId
    cases hId with
    | listening hQueued hAll =>
      have hReached : (s.reach id ⟨id, call, localAddr⟩).reachedBy id = s.reachedBy id ++ [⟨id, call, localAddr⟩] := by
        simp [reachedBy, reach]
      refine serving_of_eq (.listening ?_ ?_) (Function.update_self _ _ _) rfl hReached hListening
      · simpa [or_imp, forall_and] using hQueued
      · rw [← hAll, List.append_assoc]
        rfl
  · exact fun _ _ => rfl
  · intro other hOther
    exact Function.update_of_ne hOther _ _
  · exact fun _ _ => rfl
  · intro other hOther
    simp [reachedBy, reach, Ne.symm hOther]

theorem serving_accept {s : IpcSockets P} (h : ∀ id, s.Serving id) {id : Nat} {path : String} {c : IpcConnection}
    {queued : List IpcConnection} (hListening : s.phase id = .listening path) (hQueued : s.queued id = c :: queued) :
    ∀ other, Serving
      { s with
        queued := Function.update s.queued id queued
        accepted := s.accepted ++ [⟨id, c.call, path⟩] } other := by
  apply @serving_of_others _ s _ h id
  · have hId := h id
    rw [Serving, hListening, hQueued] at hId
    cases hId with
    | listening hQueue hAll =>
      obtain ⟨hListener, hAddr⟩ := hQueue c List.mem_cons_self
      have hFirst : c = ⟨id, c.call, path⟩ := by rw [← hListener, ← hAddr]
      refine @serving_of_eq _ _ id queued (s.acceptedBy id ++ [⟨id, c.call, path⟩]) _ _ (.listening ?_ ?_)
        (Function.update_self _ _ _) ?_ rfl hListening
      · exact fun later hLater => hQueue later (List.mem_cons_of_mem c hLater)
      · rw [← hFirst, List.append_assoc]
        exact hAll
      · simp [acceptedBy]
  · exact fun _ _ => rfl
  · intro other hOther
    exact Function.update_of_ne hOther _ _
  · intro other hOther
    simp [acceptedBy, Ne.symm hOther]
  · exact fun _ _ => rfl

/-! ## The address of a connection -/

/-- The file at a place belongs to a listener there, unless that has been dropped. -/
def Held (resolve : String → P) (s : IpcSockets P) : Prop :=
  ∀ place id, s.files place = some id →
    (∃ path, s.phase id = .listening path ∧ resolve path = place) ∨ s.phase id = .gone

theorem Held.unbound {resolve : String → P} {s : IpcSockets P} (h : Held resolve s) {id : Nat}
    (hUnopened : s.phase id = .fresh ∨ ∃ path, s.phase id = .preparing path) (place : P) : s.files place ≠ some id := by
  intro hFile
  rcases hUnopened with hPhase | ⟨path, hPhase⟩
  · simpa [hPhase] using h place id hFile
  · simpa [hPhase] using h place id hFile

theorem Held.turn {resolve : String → P} {s : IpcSockets P} (h : Held resolve s) {id : Nat} {phase : ListenerPhase}
    (hId : phase = .gone ∨ ∀ place, s.files place ≠ some id) : Held resolve (s.turn id phase) := by
  intro place other hFile
  by_cases hOther : other = id
  · subst hOther
    rcases hId with rfl | hNone
    · exact .inr (Function.update_self _ _ _)
    · exact absurd hFile (hNone place)
  · simpa [IpcSockets.turn, hOther] using h place other hFile

/-- A connection is made by a `connect` whose URL names the place of the address that it has. -/
def MadeBy (parse : UrlParser) (resolve : String → P) (events : List IpcEvent) (c : IpcConnection) : Prop :=
  ∃ url path, .connect c.call url false ∈ events ∧ IpcTransport.parsePath parse url = .ok path ∧
    resolve c.localAddr = resolve path

theorem MadeBy.append {parse : UrlParser} {resolve : String → P} {events : List IpcEvent} {c : IpcConnection} (h : MadeBy parse resolve events c)
    (later : List IpcEvent) : MadeBy parse resolve (events ++ later) c := by
  obtain ⟨url, path, hEvent, hMade⟩ := h
  exact ⟨url, path, List.mem_append_left later hEvent, hMade⟩

section Runs

variable [DecidableEq P] {parse : UrlParser} {resolve : String → P}

@[simp] theorem remove_reached (s : IpcSockets P) (place : P) (failed : Bool) :
    (s.remove place failed).reached = s.reached := by
  cases failed with
  | true => rfl
  | false => rfl

theorem serving_remove {s : IpcSockets P} {place : P} {failed : Bool} {id : Nat} (h : s.Serving id) :
    (s.remove place failed).Serving id := by
  cases failed with
  | true => exact h
  | false => exact h

theorem remove_turn (s : IpcSockets P) (place : P) (failed : Bool) (id : Nat) (phase : ListenerPhase) :
    (s.remove place failed).turn id phase = (s.turn id phase).remove place failed := by
  cases failed with
  | true => rfl
  | false => rfl

theorem serving_step (s : IpcSockets P) (event : IpcEvent) (h : ∀ id, s.Serving id) :
    ∀ id, (step parse resolve s event).Serving id := by
  rcases act_cases s event with hStays | hActs
  · rw [hStays]
    exact h
  · generalize step parse resolve s event = s' at hActs
    cases hActs with
    | @refuses id url failed hFresh =>
      have hId := h id
      rw [Serving, hFresh] at hId
      cases hId with
      | fresh hNone => exact serving_turn h (.gone (by simp [hNone]))
    | @clears id url path failed hFresh hPath =>
      have hId := h id
      rw [Serving, hFresh] at hId
      cases hId with
      | fresh hNone =>
        rw [remove_turn]
        exact fun other => serving_remove (serving_turn h (.preparing hNone) other)
    | @binds id path hPreparing hFree =>
      have hId := h id
      rw [Serving, hPreparing] at hId
      cases hId with
      | preparing hNone => exact serving_turn h (.listening (by simp [hNone]) (by simp [hNone]))
    | @loses id path failed hPreparing =>
      have hId := h id
      rw [Serving, hPreparing] at hId
      cases hId with
      | preparing hNone => exact serving_turn h (.gone (by simp [hNone]))
    | closes => exact fun id => serving_remove (h id)
    | drops hListening => exact serving_drop h hListening
    | reaches hPath hFile hListening => exact serving_reach h hListening
    | accepts hListening hQueued => exact serving_accept h hListening hQueued

theorem serving_run (events : List IpcEvent) : ∀ id, (run parse resolve events).Serving id :=
  @Trace.run_invariant _ _ (step parse resolve) (fun s => ∀ id, s.Serving id) serving_step init
    (fun _ => .fresh ⟨rfl, rfl, rfl⟩) events

theorem Held.remove {s : IpcSockets P} (h : Held resolve s) (removed : P) (failed : Bool) :
    Held resolve (s.remove removed failed) := by
  intro place id hFile
  have hBefore : s.files place = some id := by
    cases failed with
    | true => exact hFile
    | false =>
      by_cases hPlace : place = removed
      · simp [IpcSockets.remove, hPlace] at hFile
      · simpa [IpcSockets.remove, hPlace] using hFile
  cases failed with
  | true => exact h place id hBefore
  | false => exact h place id hBefore

theorem Held.bind {s : IpcSockets P} (h : Held resolve s) {id : Nat} {path : String}
    (hPreparing : s.phase id = .preparing path) :
    Held resolve { s.turn id (.listening path) with files := Function.update s.files (resolve path) (some id) } := by
  intro place other hFile
  by_cases hPlace : place = resolve path
  · subst hPlace
    obtain rfl : id = other := by simpa using hFile
    exact .inl ⟨path, Function.update_self _ _ _, rfl⟩
  · have hTurned : Held resolve (s.turn id (.listening path)) := h.turn (.inr (h.unbound (.inr ⟨path, hPreparing⟩)))
    exact hTurned place other (by simpa [IpcSockets.turn, hPlace] using hFile)

theorem held_step (s : IpcSockets P) (event : IpcEvent) (h : Held resolve s) :
    Held resolve (step parse resolve s event) := by
  rcases act_cases s event with hStays | hActs
  · rw [hStays]
    exact h
  · generalize step parse resolve s event = s' at hActs
    cases hActs with
    | refuses => exact h.turn (.inl rfl)
    | clears hFresh =>
      rw [remove_turn]
      exact (h.turn (.inr (h.unbound (.inl hFresh)))).remove _ _
    | binds hPreparing hFree => exact h.bind hPreparing
    | loses => exact h.turn (.inl rfl)
    | closes => exact h.remove _ _
    | drops => exact h.turn (.inl rfl)
    | reaches => exact h
    | accepts => exact h

theorem held_run (events : List IpcEvent) : Held resolve (run parse resolve events) :=
  @Trace.run_invariant _ _ (step parse resolve) (Held resolve) held_step init (fun _ _ hFile => by cases hFile) events

theorem reached_run (events : List IpcEvent) :
    ∀ c ∈ (run parse resolve events).reached, MadeBy parse resolve events c := by
  induction events using List.reverseRecOn with
  | nil => exact List.forall_mem_nil _
  | append_singleton events event ih =>
    have hOld : ∀ c ∈ (run parse resolve events).reached, MadeBy parse resolve (events ++ [event]) c :=
      fun c hMem => (ih c hMem).append [event]
    have hLast : run parse resolve (events ++ [event]) = step parse resolve (run parse resolve events) event :=
      Trace.run_append init events [event]
    rw [hLast]
    rcases act_cases (run parse resolve events) event with hStays | hActs
    · rw [hStays]
      exact hOld
    · generalize step parse resolve (run parse resolve events) event = s' at hActs
      cases hActs with
      | @reaches call url path id localAddr hPath hFile hListening =>
        intro c hMem
        rcases List.mem_append.mp hMem with hBefore | hNew
        · exact hOld c hBefore
        · obtain rfl := List.mem_singleton.mp hNew
          refine ⟨url, path, by simp, hPath, ?_⟩
          rcases held_run events (resolve path) id hFile with ⟨path', hListening', hPlace⟩ | hGone
          · rw [hListening] at hListening'
            cases hListening'
            exact hPlace
          · rw [hListening] at hGone
            cases hGone
      | clears => exact fun c hMem => hOld c (by simpa [turn] using hMem)
      | closes => exact fun c hMem => hOld c (by simpa using hMem)
      | _ => exact hOld

/-! ## Every run -/

/-- A connect reaches the listener that bound the place of its URL last, if nobody has removed the file
there since. What a listener accepts was made for its address, in the order and without a gap. -/
structure Listening (parse : UrlParser) (resolve : String → P) (events : List IpcEvent) (s : IpcSockets P) : Prop where
  reaches : ∀ call url path id localAddr, IpcTransport.parsePath parse url = .ok path →
    s.phase id = .listening localAddr →
    ((step parse resolve s (.connect call url false)).reached = s.reached ++ [⟨id, call, localAddr⟩] ↔
      Published parse resolve events (resolve path) id)
  made : ∀ c ∈ s.accepted, MadeBy parse resolve events c
  served : ∀ id, s.acceptedBy id <+: s.reachedBy id
  waiting : ∀ id path, s.phase id = .listening path → s.acceptedBy id ++ s.queued id = s.reachedBy id

theorem listening_run (events : List IpcEvent) : Listening parse resolve events (run parse resolve events) where
  reaches := by
    intro call url path id localAddr hPath hListening
    rw [← files_iff]
    constructor
    · intro hReached
      cases hFile : (run parse resolve events).files (resolve path) with
      | none => simp [step, hPath, hFile] at hReached
      | some other =>
        cases hPhase : (run parse resolve events).phase other with
        | listening path' =>
          simp only [step, hPath, hFile, hPhase, reach, Bool.false_eq_true, if_false, List.append_cancel_left_eq,
            List.cons.injEq, IpcConnection.mk.injEq] at hReached
          rw [hReached.1.1]
        | _ => simp [step, hPath, hFile, hPhase] at hReached
    · intro hFile
      simp [step, hPath, hFile, hListening, reach]
  made := by
    intro c hMem
    apply reached_run events c
    have hMine : c ∈ (run parse resolve events).acceptedBy c.listener := by simp [acceptedBy, hMem]
    exact (List.mem_filter.mp ((serving_run events c.listener).isPrefix.subset hMine)).1
  served id := (serving_run events id).isPrefix
  waiting := by
    intro id path hListening
    have hServing : (run parse resolve events).Serving id := serving_run events id
    rw [Serving, hListening] at hServing
    cases hServing with
    | listening hQueued hAll => exact hAll

/-- A displaced listener that is closed takes the file of its successor away. -/
example :
    let parse := tableParser [("ipc:///s", ⟨"ipc", none, "/s"⟩)]
    let displaced := [.listen 0 "ipc:///s" false, .bind 0 false, .listen 1 "ipc:///s" false, .bind 1 false]
    (run parse id displaced).files "/tmp/s" = some 1 ∧
      (run parse id (displaced ++ [.close 0 false])).files "/tmp/s" = none := by decide

end Runs

end IpcSockets
end Fleximq.Transport
