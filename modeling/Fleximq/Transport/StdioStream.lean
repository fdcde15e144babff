import Fleximq.Foundation.Trace
import Fleximq.Transport.Error

/-! # Closing a subprocess

`StdioTransportStream::close` shuts the input of the child down, takes the child
out of the stream and gives it five seconds before it kills it. The caller may
drop the call at each await point, and the child goes with it.
-/
namespace Fleximq.Transport
open Foundation

/-- Where a call of `close` is: in `shutdown`, in `wait` since a time, or in `kill`. -/
inductive ClosePhase where
  | idle
  | shutdown
  | waiting (since : Nat)
  | killing
  deriving DecidableEq

/-- Whether `self.child` is there, the process behind it, the clock in nanoseconds and the call that is
running; every kill with the time its wait began at and its own, and what the calls returned. -/
structure StdioStream where
  child : Bool
  running : Bool
  now : Nat
  phase : ClosePhase
  kills : List (Nat × Nat)
  returned : List (Except TransportError Unit)

inductive StdioEvent where
  | elapse (nanos : Nat)
  | exit
  | close
  | poll
  | fail (e : TransportError)
  | drop
  deriving DecidableEq

namespace StdioStream

/-- `new_from_child`. -/
def newFromChild : StdioStream := ⟨true, true, 0, .idle, [], []⟩

def isRunning (s : StdioStream) : Bool := if s.child then s.running else true

/-- The time that `close` waits for. -/
def grace : Nat := (Duration.fromSecs 5).asNanos

def returns (s : StdioStream) (result : Except TransportError Unit) : StdioStream :=
  { s with phase := .idle, returned := s.returned ++ [result] }

/-- The timeout polls the wait, and then its timer. -/
def pollWait (s : StdioStream) (since : Nat) : StdioStream :=
  if s.running then
    if since + grace ≤ s.now then { s with phase := .killing, kills := s.kills ++ [(since, s.now)] }
    else { s with phase := .waiting since }
  else s.returns (.ok ())

def step (s : StdioStream) : StdioEvent → StdioStream
  | .elapse nanos => { s with now := s.now + nanos }
  | .exit => { s with running := false }
  | .close =>
    match s.phase with
    | .idle => { s with phase := .shutdown }
    | _ => s
  | .poll =>
    match s.phase with
    | .idle => s
    | .shutdown => if s.child then { s with child := false }.pollWait s.now else s.returns (.ok ())
    | .waiting since => s.pollWait since
    | .killing => if s.running then s else s.returns (.ok ())
  | .fail e =>
    match s.phase with
    | .idle => s
    | _ => s.returns (.error e)
  | .drop => { s with phase := .idle }

def run (events : List StdioEvent) : StdioStream := Trace.run step newFromChild events

/-! ## Who holds the child -/

/-- The running call owns the child. -/
def Holding (s : StdioStream) : Prop := (∃ since, s.phase = .waiting since) ∨ s.phase = .killing

/-- The process runs, and neither the stream nor a call holds it. -/
structure Orphaned (s : StdioStream) : Prop where
  running : s.running = true
  taken : s.child = false
  released : ¬ s.Holding

/-- The call that holds the child fails or is dropped. -/
def Abandons (s : StdioStream) (event : StdioEvent) : Prop :=
  s.Holding ∧ (event = .drop ∨ ∃ e, event = .fail e)

def Abandoned (events : List StdioEvent) : Prop :=
  ∃ before event after, events = before ++ event :: after ∧ (run before).Abandons event

/-! ## What an event does -/

inductive Acts (s : StdioStream) : StdioEvent → StdioStream → Prop where
  | elapses (nanos : Nat) : Acts s (.elapse nanos) { s with now := s.now + nanos }
  | exits : Acts s .exit { s with running := false }
  | begins (hIdle : s.phase = .idle) : Acts s .close { s with phase := .shutdown }
  | takes (hPhase : s.phase = .shutdown) (hChild : s.child = true) (hRunning : s.running = true) :
    Acts s .poll { s with child := false, phase := .waiting s.now }
  | takesExited (hPhase : s.phase = .shutdown) (hExited : s.running = false) :
    Acts s .poll (returns { s with child := false } (.ok ()))
  | finds (hPhase : s.phase = .shutdown) (hTaken : s.child = false) : Acts s .poll (s.returns (.ok ()))
  | kills {since : Nat} (hPhase : s.phase = .waiting since) (hRunning : s.running = true)
    (hLate : since + grace ≤ s.now) :
    Acts s .poll { s with phase := .killing, kills := s.kills ++ [(since, s.now)] }
  | reaps (hHolding : s.Holding) (hExited : s.running = false) : Acts s .poll (s.returns (.ok ()))
  | fails {e : TransportError} (hBusy : s.phase ≠ .idle) : Acts s (.fail e) (s.returns (.error e))
  | drops : Acts s .drop { s with phase := .idle }

theorem grace_pos : 0 < grace := by decide

theorem poll_cases (s : StdioStream) : s.step .poll = s ∨ Acts s .poll (s.step .poll) := by
  cases hPhase : s.phase with
  | idle => simp [step, hPhase]
  | shutdown =>
    right
    cases hChild : s.child with
    | true =>
      cases hRunning : s.running with
      | true =>
        have hEarly : ¬ s.now + grace ≤ s.now := by have := grace_pos; omega
        simpa [step, hPhase, hChild, pollWait, hRunning, hEarly] using Acts.takes hPhase hChild hRunning
      | false => simpa [step, hPhase, hChild, pollWait, hRunning] using Acts.takesExited hPhase hRunning
    | false => simpa [step, hPhase, hChild] using Acts.finds hPhase hChild
  | waiting since =>
    cases hRunning : s.running with
    | true =>
      by_cases hLate : since + grace ≤ s.now
      · right
        simpa [step, hPhase, pollWait, hRunning, hLate] using Acts.kills hPhase hRunning hLate
      · left
        have hStays : s.step .poll = { s with phase := .waiting since } := by
          simp [step, hPhase, pollWait, hRunning, hLate]
        rw [hStays, ← hPhase]
    | false =>
      right
      simpa [step, hPhase, pollWait, hRunning] using Acts.reaps (.inl ⟨since, hPhase⟩) hRunning
  | killing =>
    cases hRunning : s.running with
    | true => simp [step, hPhase, hRunning]
    | false =>
      right
      simpa [step, hPhase, hRunning] using Acts.reaps (.inr hPhase) hRunning

theorem act_cases (s : StdioStream) (event : StdioEvent) : s.step event = s ∨ Acts s event (s.step event) := by
  cases event with
  | elapse nanos => exact .inr (.elapses nanos)
  | exit => exact .inr .exits
  | close =>
    cases hPhase : s.phase with
    | idle =>
      right
      simpa [step, hPhase] using Acts.begins hPhase
    | _ => simp [step, hPhase]
  | poll => exact s.poll_cases
  | fail e =>
    cases hPhase : s.phase with
    | idle => simp [step, hPhase]
    | _ =>
      right
      simpa [step, hPhase] using @Acts.fails s e (by simp [hPhase])
  | drop => exact .inr .drops

/-! ## Every run -/

structure Supervised (s : StdioStream) : Prop where
  taken : s.Holding → s.child = false
  kills_late : ∀ kill ∈ s.kills, kill.1 + grace ≤ kill.2
  kills_once : s.kills.length ≤ 1
  kills_nil : s.child = true ∨ (∃ since, s.phase = .waiting since) → s.kills = []
  returned : .ok () ∈ s.returned → s.running = true → s.Orphaned

theorem supervised_newFromChild : newFromChild.Supervised where
  taken := by simp [Holding, newFromChild]
  kills_late := List.forall_mem_nil _
  kills_once := Nat.zero_le 1
  kills_nil _ := rfl
  returned h := absurd h List.not_mem_nil

theorem not_holding_of_idle {s : StdioStream} (h : s.phase = .idle) : ¬ s.Holding := by simp [Holding, h]

theorem not_holding_of_shutdown {s : StdioStream} (h : s.phase = .shutdown) : ¬ s.Holding := by simp [Holding, h]

theorem Supervised.returns {s : StdioStream} (h : s.Supervised) {result : Except TransportError Unit}
    (hResult : result = .ok () → s.running = true → s.child = false) : (s.returns result).Supervised where
  taken hHolding := absurd hHolding (not_holding_of_idle rfl)
  kills_late := h.kills_late
  kills_once := h.kills_once
  kills_nil := by
    rintro (hChild | ⟨since, ⟨⟩⟩)
    exact h.kills_nil (.inl hChild)
  returned := by
    intro hMem hRunning
    rcases List.mem_append.mp hMem with hOld | hNew
    · exact ⟨hRunning, (h.returned hOld hRunning).taken, not_holding_of_idle rfl⟩
    · exact ⟨hRunning, hResult (List.mem_singleton.mp hNew).symm hRunning, not_holding_of_idle rfl⟩

theorem Supervised.released {s : StdioStream} (h : s.Supervised) {phase : ClosePhase}
    (hPhase : phase = .idle ∨ phase = .shutdown) : Supervised { s with phase := phase } where
  taken := by rcases hPhase with rfl | rfl <;> simp [Holding]
  kills_late := h.kills_late
  kills_once := h.kills_once
  kills_nil := by
    rintro (hChild | ⟨since, hWaiting⟩)
    · exact h.kills_nil (.inl hChild)
    · rcases hPhase with rfl | rfl <;> cases hWaiting
  returned hMem hRunning :=
    { running := hRunning
      taken := (h.returned hMem hRunning).taken
      released := by rcases hPhase with rfl | rfl <;> simp [Holding] }

theorem Supervised.exits {s : StdioStream} (h : s.Supervised) : Supervised { s with running := false } where
  taken := h.taken
  kills_late := h.kills_late
  kills_once := h.kills_once
  kills_nil := h.kills_nil
  returned _ hRunning := by cases hRunning

/-- A call that finds the process running takes the child that nobody has waited for before. -/
theorem Supervised.takes {s : StdioStream} (h : s.Supervised) (hChild : s.child = true) (since : Nat) :
    Supervised { s with child := false, phase := .waiting since } where
  taken _ := rfl
  kills_late := h.kills_late
  kills_once := h.kills_once
  kills_nil _ := h.kills_nil (.inl hChild)
  returned hMem hRunning := by
    have hTaken := (h.returned hMem hRunning).taken
    rw [hChild] at hTaken
    cases hTaken

theorem Supervised.forgets {s : StdioStream} (h : s.Supervised) (hExited : s.running = false) :
    Supervised { s with child := false } where
  taken _ := rfl
  kills_late := h.kills_late
  kills_once := h.kills_once
  kills_nil := by
    rintro (hChild | hWaiting)
    · cases hChild
    · exact h.kills_nil (.inr hWaiting)
  returned _ hRunning := by
    rw [show s.running = true from hRunning] at hExited
    cases hExited

theorem Supervised.kills {s : StdioStream} (h : s.Supervised) {since : Nat} (hPhase : s.phase = .waiting since)
    (hLate : since + grace ≤ s.now) :
    Supervised { s with phase := .killing, kills := s.kills ++ [(since, s.now)] } := by
  have hNone : s.kills = [] := h.kills_nil (.inr ⟨since, hPhase⟩)
  have hTaken : s.child = false := h.taken (.inl ⟨since, hPhase⟩)
  constructor
  · exact fun _ => hTaken
  · simp [hNone, hLate]
  · simp [hNone]
  · simp [hTaken]
  · intro hMem hRunning
    exact absurd (.inl ⟨since, hPhase⟩) (h.returned hMem hRunning).released

theorem supervised_step (s : StdioStream) (event : StdioEvent) (h : s.Supervised) : (s.step event).Supervised := by
  rcases s.act_cases event with hStays | hActs
  · rw [hStays]
    exact h
  · generalize s.step event = s' at hActs
    cases hActs with
    | elapses nanos => exact ⟨h.taken, h.kills_late, h.kills_once, h.kills_nil, fun hMem hRunning =>
        ⟨hRunning, (h.returned hMem hRunning).taken, (h.returned hMem hRunning).released⟩⟩
    | exits => exact h.exits
    | begins hIdle => exact h.released (.inr rfl)
    | takes hPhase hChild hRunning => exact h.takes hChild s.now
    | takesExited hPhase hExited => exact (h.forgets hExited).returns fun _ _ => rfl
    | finds hPhase hTaken => exact h.returns fun _ _ => hTaken
    | kills hPhase hRunning hLate => exact h.kills hPhase hLate
    | reaps hHolding hExited => exact h.returns fun _ _ => h.taken hHolding
    | fails hBusy => exact h.returns fun hOk => by cases hOk
    | drops => exact h.released (.inl rfl)

theorem supervised_run (events : List StdioEvent) : (run events).Supervised :=
  Trace.run_invariant supervised_step supervised_newFromChild events

/-! ## Orphans -/

/-- A process without a holder stays one for as long as it runs. -/
theorem orphaned_step {s : StdioStream} (h : s.Orphaned) (event : StdioEvent)
    (hRunning : (s.step event).running = true) : (s.step event).Orphaned := by
  rcases s.act_cases event with hStays | hActs
  · rw [hStays]
    exact h
  · generalize s.step event = s' at hActs hRunning
    cases hActs with
    | elapses nanos => exact ⟨h.running, h.taken, h.released⟩
    | exits => cases hRunning
    | begins hIdle => exact ⟨h.running, h.taken, not_holding_of_shutdown rfl⟩
    | takes hPhase hChild => exact absurd h.taken (by simp [hChild])
    | takesExited hPhase hExited => exact absurd h.running (by simp [hExited])
    | finds hPhase hTaken => exact ⟨h.running, h.taken, not_holding_of_idle rfl⟩
    | kills hPhase => exact absurd (.inl ⟨_, hPhase⟩) h.released
    | reaps hHolding => exact absurd hHolding h.released
    | fails hBusy => exact ⟨h.running, h.taken, not_holding_of_idle rfl⟩
    | drops => exact ⟨h.running, h.taken, not_holding_of_idle rfl⟩

/-- Only a call that is cut off leaves an orphan. -/
theorem abandons_of_orphaned {s : StdioStream} {event : StdioEvent} (hBefore : ¬ s.Orphaned)
    (h : (s.step event).Orphaned) : s.Abandons event := by
  rcases s.act_cases event with hStays | hActs
  · rw [hStays] at h
    exact absurd h hBefore
  · generalize s.step event = s' at hActs h
    cases hActs with
    | elapses nanos => exact absurd ⟨h.running, h.taken, h.released⟩ hBefore
    | exits => cases h.running
    | begins hIdle => exact absurd ⟨h.running, h.taken, not_holding_of_idle hIdle⟩ hBefore
    | takes => exact absurd (.inl ⟨_, rfl⟩) h.released
    | takesExited hPhase hExited => exact absurd h.running (by simp [returns, hExited])
    | finds hPhase hTaken => exact absurd ⟨h.running, hTaken, not_holding_of_shutdown hPhase⟩ hBefore
    | kills => exact absurd (.inr rfl) h.released
    | reaps hHolding hExited => exact absurd h.running (by simp [returns, hExited])
    | fails hBusy =>
      refine ⟨?_, .inr ⟨_, rfl⟩⟩
      by_contra hReleased
      exact hBefore ⟨h.running, h.taken, hReleased⟩
    | drops =>
      refine ⟨?_, .inl rfl⟩
      by_contra hReleased
      exact hBefore ⟨h.running, h.taken, hReleased⟩

theorem orphaned_of_abandons {s : StdioStream} (h : s.Supervised) {event : StdioEvent} (hAbandons : s.Abandons event)
    (hRunning : (s.step event).running = true) : (s.step event).Orphaned := by
  obtain ⟨hHolding, rfl | ⟨e, rfl⟩⟩ := hAbandons
  · exact ⟨hRunning, h.taken hHolding, not_holding_of_idle rfl⟩
  · have hReturns : s.step (.fail e) = s.returns (.error e) := by
      rcases hHolding with ⟨since, hPhase⟩ | hPhase
      · simp [step, hPhase]
      · simp [step, hPhase]
    rw [hReturns] at hRunning ⊢
    exact ⟨hRunning, h.taken hHolding, not_holding_of_idle rfl⟩

theorem running_of_step {s : StdioStream} {event : StdioEvent} (h : (s.step event).running = true) :
    s.running = true := by
  rcases s.act_cases event with hStays | hActs
  · rwa [hStays] at h
  · generalize s.step event = s' at hActs h
    cases hActs with
    | exits => cases h
    | _ => exact h

theorem taken_step {s : StdioStream} (event : StdioEvent) (h : s.child = false) : (s.step event).child = false := by
  rcases s.act_cases event with hStays | hActs
  · rwa [hStays]
  · generalize s.step event = s' at hActs
    cases hActs with
    | takes => rfl
    | takesExited => rfl
    | _ => exact h

theorem running_of_run {s : StdioStream} {events : List StdioEvent}
    (h : (Trace.run step s events).running = true) : s.running = true := by
  induction events generalizing s with
  | nil => exact h
  | cons event events ih => exact running_of_step (ih h)

theorem orphaned_run {s : StdioStream} (h : s.Orphaned) {events : List StdioEvent}
    (hRunning : (Trace.run step s events).running = true) : (Trace.run step s events).Orphaned := by
  induction events generalizing s with
  | nil => exact h
  | cons event events ih => exact ih (orphaned_step h event (running_of_run hRunning)) hRunning

theorem run_append (before events : List StdioEvent) :
    run (before ++ events) = Trace.run step (run before) events := Trace.run_append newFromChild before events

theorem orphaned_iff {events : List StdioEvent} :
    (run events).Orphaned ↔ (run events).running = true ∧ Abandoned events := by
  constructor
  · intro h
    have hInit : ¬ newFromChild.Orphaned := fun hOrphaned => by cases hOrphaned.taken
    obtain ⟨before, event, after, hEvents, hBefore, hAfter⟩ := Trace.exists_first_step hInit h
    exact ⟨h.running, before, event, after, hEvents, abandons_of_orphaned hBefore hAfter⟩
  · rintro ⟨hRunning, before, event, after, rfl, hAbandons⟩
    rw [run_append] at hRunning ⊢
    exact orphaned_run (orphaned_of_abandons (supervised_run before) hAbandons (running_of_run hRunning)) hRunning

/-- A close that returns in order leaves no process behind, unless one was cut off while it held the
child; then the process is left alone, and the stream goes on to report it as running. -/
structure Guarded (events : List StdioEvent) (s : StdioStream) : Prop where
  exited : .ok () ∈ s.returned → ¬ Abandoned events → s.running = false
  orphaned : s.running = true → (Abandoned events ↔ s.Orphaned)
  reported : Abandoned events → s.isRunning = true
  killed : s.kills = [] ∨ ∃ since instant, s.kills = [(since, instant)] ∧ since + grace ≤ instant

theorem close_run (events : List StdioEvent) : Guarded events (run events) where
  exited := by
    intro hMem hIntact
    by_contra hRunning
    have hOrphaned := (supervised_run events).returned hMem (by simpa using hRunning)
    exact hIntact (orphaned_iff.mp hOrphaned).2
  orphaned hRunning := by
    rw [orphaned_iff]
    exact ⟨fun hAbandoned => ⟨hRunning, hAbandoned⟩, And.right⟩
  reported := by
    rintro ⟨before, event, after, rfl, hHolding, -⟩
    have hTaken : (run (before ++ event :: after)).child = false := by
      rw [run_append]
      exact @Trace.run_invariant _ _ step (·.child = false) (fun _ event => taken_step event) _
        ((supervised_run before).taken hHolding) (event :: after)
    simp [isRunning, hTaken]
  killed := by
    have hRun := supervised_run events
    cases hKills : (run events).kills with
    | nil => exact .inl rfl
    | cons kill kills =>
      have hOnce := hRun.kills_once
      rw [hKills] at hOnce
      have hNone : kills = [] := by simpa using hOnce
      exact .inr ⟨kill.1, kill.2, by rw [hNone], hRun.kills_late kill (by simp [hKills])⟩

/-- The second of two closes finds no child to wait for, and the process outlives it. -/
example : (run [.close, .poll, .drop, .close, .poll]).running = true ∧
    (run [.close, .poll, .drop, .close, .poll]).returned.length = 1 := by decide

end StdioStream
end Fleximq.Transport
