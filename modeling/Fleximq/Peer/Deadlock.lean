import Fleximq.Peer.Delivery

/-! # Two sends that wait for each other

A pipe takes no more bytes than it has room for. A half that flushes keeps the
guard of its end, so nobody reads there meanwhile. When both ends flush more than
their pipes have room for, neither send returns before one is given up.
-/
namespace Fleximq.Session
open Foundation Fleximq.Protocol Fleximq.Transport

def Action.size : Action → Nat
  | .write n => n
  | _ => 0

/-- A write puts no more on the wire than the pipe has room for. -/
def FitsPipe (capacity : Nat) (s : State) (event : Event) : Prop :=
  (s.wire event.side).length + min event.action.size (s.endpoint event.side).framed.writeBuffer.length ≤ capacity

instance (capacity : Nat) (s : State) (event : Event) : Decidable (FitsPipe capacity s event) :=
  inferInstanceAs (Decidable (_ ≤ _))

/-- The half of each end is neither cancelled nor does its write fail. -/
def Persists (half : Side → Half) (event : Event) : Prop :=
  event.half = half event.side → event.action ≠ .cancel ∧ event.action ≠ .writeFails

/-- The bytes that are to pass the pipe before the flush ends. -/
def State.backlog (s : State) (side : Side) : Nat :=
  (s.wire side).length + (s.endpoint side).framed.writeBuffer.length

/-! ## One end -/

structure Blocked (capacity : Nat) (holder : Half) (message : RawMessage) (acked : List RawMessage) (v : View) :
    Prop where
  flushing : v.endpoint.phase holder = .flushing message
  pipe : v.outbound.length ≤ capacity
  backlog : capacity < v.outbound.length + v.endpoint.framed.writeBuffer.length
  acked_eq : v.endpoint.acked = acked

variable {rmp : Rmp} {capacity : Nat} {holder half : Half} {message : RawMessage} {acked : List RawMessage}
variable {v v' : View} {action : Action} {closed : Bool}

theorem Blocked.of_eq (h : Blocked capacity holder message acked v) (hEndpoint : v'.endpoint = v.endpoint)
    (hOutbound : v'.outbound = v.outbound) : Blocked capacity holder message acked v' := by
  obtain ⟨hFlushing, hPipe, hBacklog, hAcked⟩ := h
  rw [← hEndpoint] at hFlushing hAcked
  rw [← hOutbound] at hPipe
  rw [← hEndpoint, ← hOutbound] at hBacklog
  exact ⟨hFlushing, hPipe, hBacklog, hAcked⟩

theorem Blocked.turn (h : Blocked capacity holder message acked v) (hOther : half ≠ holder) (phase : Phase) :
    Blocked capacity holder message acked (v.turn half phase) where
  flushing := (Function.update_of_ne (Ne.symm hOther) _ _).trans h.flushing
  pipe := h.pipe
  backlog := h.backlog
  acked_eq := h.acked_eq

theorem Blocked.write (h : Blocked capacity holder message acked v) {n : Nat}
    (hFits : v.outbound.length + min n v.endpoint.framed.writeBuffer.length ≤ capacity) :
    Blocked capacity holder message acked (v.write n) where
  flushing := h.flushing
  pipe := by simpa [View.write] using hFits
  backlog := by
    have hBacklog := h.backlog
    simp only [View.write, View.reframe, List.length_append, List.length_take, List.length_drop]
    omega
  acked_eq := h.acked_eq

theorem Blocked.buffer_ne (h : Blocked capacity holder message acked v) : v.endpoint.framed.writeBuffer ≠ [] := by
  intro hEmpty
  have hBacklog := h.backlog
  have hPipe := h.pipe
  rw [hEmpty, List.length_nil] at hBacklog
  omega

/-- The half that flushes writes on; the pipe never takes its last byte. -/
theorem Blocked.act_holder (h : Blocked capacity holder message acked v)
    (hFits : v.outbound.length + min action.size v.endpoint.framed.writeBuffer.length ≤ capacity)
    (hPersists : action ≠ .cancel ∧ action ≠ .writeFails) :
    Blocked capacity holder message acked (v.act rmp closed holder action) ∧
      (v.act rmp closed holder action).inbound = v.inbound := by
  have hBuffer : v.endpoint.framed.writeBuffer.isEmpty = false := List.isEmpty_eq_false_iff.mpr h.buffer_ne
  unfold View.act
  rw [h.flushing]
  cases action with
  | write n => exact ⟨h.write hFits, rfl⟩
  | finish =>
    simp only [hBuffer]
    exact ⟨h, rfl⟩
  | writeFails => exact absurd rfl hPersists.2
  | cancel => exact absurd rfl hPersists.1
  | _ => exact ⟨h, rfl⟩

/-- The other half does not get the guard. -/
theorem Acts.blocked (h : Acts rmp closed half v action v') (hGuarded : v.endpoint.Guarded)
    (hBlocked : Blocked capacity holder message acked v) (hOther : half ≠ holder)
    (hFits : v.outbound.length + min action.size v.endpoint.framed.writeBuffer.length ≤ capacity) :
    Blocked capacity holder message acked v' ∧ v'.inbound = v.inbound := by
  have hHolds : (v.endpoint.phase holder).holdsGuard = true := by rw [hBlocked.flushing]; rfl
  have hFree : (v.endpoint.phase half).holdsGuard = false := by
    apply Bool.eq_false_of_not_eq_true
    intro hBoth
    exact hOther (hGuarded.exclusive half holder hBoth hHolds)
  have hLocked : ¬ v.endpoint.unlocked = true := by
    rw [Endpoint.unlocked_iff]
    intro hNobody
    rw [hNobody holder] at hHolds
    cases hHolds
  cases h with
  | turns => exact ⟨hBlocked.turn hOther _, rfl⟩
  | sendLocks _ hUnlocked => exact absurd hUnlocked hLocked
  | receiveLocks hUnlocked => exact absurd hUnlocked hLocked
  | feeds hFeeding =>
    rw [hFeeding] at hFree
    cases hFree
  | writes => exact ⟨hBlocked.write hFits, rfl⟩
  | finishes hFlushing =>
    rw [hFlushing] at hFree
    cases hFree
  | receives hReceiving =>
    rw [hReceiving] at hFree
    cases hFree

/-! ## Both ends -/

/-- Both ends flush, and neither pipe has room for all that is to pass it. -/
structure Stuck (rmp : Rmp) (capacity : Nat) (half : Side → Half) (message : Side → RawMessage)
    (acked : Side → List RawMessage) (s : State) : Prop where
  sound : s.Sound rmp
  blocked : ∀ side, Blocked capacity (half side) (message side) (acked side) (s.view side)

section
variable {half : Side → Half} {message : Side → RawMessage} {acked : Side → List RawMessage} {s : State}
variable {m : RawMessage}

theorem Stuck.update (h : Stuck rmp capacity half message acked s) {side : Side} {v : View}
    (hBlocked : Blocked capacity (half side) (message side) (acked side) v) (hInbound : v.inbound = s.wire side.other)
    (direction : Side) :
    Blocked capacity (half direction) (message direction) (acked direction) ((s.update side v).view direction) := by
  rcases side.eq_or direction with rfl | rfl
  · apply hBlocked.of_eq
    · exact State.update_endpoint s direction v
    · exact State.update_wire s direction v
  · apply (h.blocked side.other).of_eq
    · exact State.update_endpoint_other s side v
    · exact (State.update_wire_other s side v).trans hInbound

theorem stuck_step (s : State) (event : Event) (h : Stuck rmp capacity half message acked s)
    (hAllowed : FitsPipe capacity s event ∧ Persists half event) :
    Stuck rmp capacity half message acked (step rmp s event) := by
  obtain ⟨hFits, hPersists⟩ := hAllowed
  refine ⟨sound_step s event h.sound, ?_⟩
  by_cases hHolder : event.half = half event.side
  · rw [step, hHolder]
    obtain ⟨hBlocked, hInbound⟩ := (h.blocked event.side).act_holder hFits (hPersists hHolder)
    exact h.update hBlocked hInbound
  · rcases step_cases h.sound event with hSame | ⟨v, hStep, -, hActs⟩
    · rw [hSame]
      exact h.blocked
    · obtain ⟨hBlocked, hInbound⟩ := hActs.blocked (h.sound.guarded event.side) (h.blocked event.side) hHolder hFits
      rw [hStep]
      exact h.update hBlocked hInbound

/-! ## The room of the pipes -/

theorem Receives.wires (h : Receives closed holder v action v') :
    v'.outbound = v.outbound ∧ v'.inbound.length ≤ v.inbound.length := by
  cases h with
  | gets _ _ => exact ⟨rfl, by simp⟩
  | _ => exact ⟨rfl, Nat.le_refl _⟩

theorem Acts.wires (h : Acts rmp closed holder v action v')
    (hFits : v.outbound.length + min action.size v.endpoint.framed.writeBuffer.length ≤ capacity) :
    v'.outbound.length ≤ capacity ∧ v'.inbound.length ≤ v.inbound.length := by
  have hKept : v.outbound.length ≤ capacity := by omega
  cases h with
  | writes => exact ⟨by simpa [View.write, Action.size] using hFits, Nat.le_refl _⟩
  | receives _ hReceives =>
    obtain ⟨hOutbound, hInbound⟩ := hReceives.wires
    exact ⟨hOutbound ▸ hKept, hInbound⟩
  | _ => exact ⟨hKept, Nat.le_refl _⟩

/-- No pipe holds more than it has room for. -/
structure Contained (rmp : Rmp) (capacity : Nat) (s : State) : Prop where
  sound : s.Sound rmp
  pipe : ∀ side, (s.wire side).length ≤ capacity

theorem contained_step (s : State) (event : Event) (h : Contained rmp capacity s) (hFits : FitsPipe capacity s event) :
    Contained rmp capacity (step rmp s event) := by
  refine ⟨sound_step s event h.sound, ?_⟩
  rcases step_cases h.sound event with hSame | ⟨v, hStep, -, hActs⟩
  · rw [hSame]
    exact h.pipe
  · obtain ⟨hOutbound, hInbound⟩ := hActs.wires hFits
    rw [hStep]
    intro direction
    rcases event.side.eq_or direction with rfl | rfl
    · rw [State.update_wire]
      exact hOutbound
    · rw [State.update_wire_other]
      exact hInbound.trans (h.pipe _)

theorem contained_run {events : List Event} (hPipe : Trace.Along (step rmp) (FitsPipe capacity) connected events) :
    Contained rmp capacity (Trace.run (step rmp) connected events) :=
  hPipe.throughout contained_step ⟨State.sound_connected rmp, fun _ => Nat.zero_le _⟩ (List.prefix_refl events)

/-! ## A flush that fits -/

theorem View.act_write (hFlushing : v.endpoint.phase holder = .flushing m) (n : Nat) :
    v.act rmp closed holder (.write n) = v.write n := by
  unfold View.act
  rw [hFlushing]

theorem View.act_finish (hFlushing : v.endpoint.phase holder = .flushing m)
    (hEmpty : v.endpoint.framed.writeBuffer = []) :
    v.act rmp closed holder .finish =
      { v with endpoint := { v.endpoint.turn holder .idle with acked := v.endpoint.acked ++ [m] } } := by
  unfold View.act
  rw [hFlushing]
  simp [hEmpty]

/-- Two steps of the half that flushes finish what fits. -/
def finishing (s : State) (side : Side) (holder : Half) : List Event :=
  [⟨side, holder, .write (s.endpoint side).framed.writeBuffer.length⟩, ⟨side, holder, .finish⟩]

/-- The end after the write. -/
def written (s : State) (side : Side) : State :=
  s.update side ((s.view side).write (s.endpoint side).framed.writeBuffer.length)

theorem written_endpoint (s : State) (side : Side) :
    ((written s side).endpoint side).phase = (s.endpoint side).phase ∧
      ((written s side).endpoint side).acked = (s.endpoint side).acked ∧
      ((written s side).endpoint side).framed.writeBuffer = [] := by
  simp [written, View.write, View.reframe, State.view]

theorem written_wire (s : State) (side : Side) : ((written s side).wire side).length = s.backlog side := by
  simp [written, View.write, State.view, State.backlog]

theorem step_write {side : Side} (hFlushing : (s.endpoint side).phase holder = .flushing m) :
    step rmp s ⟨side, holder, .write (s.endpoint side).framed.writeBuffer.length⟩ = written s side := by
  rw [step, View.act_write hFlushing]
  rfl

theorem finishing_run {side : Side} (hFlushing : (s.endpoint side).phase holder = .flushing m) :
    ((Trace.run (step rmp) s (finishing s side holder)).endpoint side).acked = (s.endpoint side).acked ++ [m] := by
  obtain ⟨hPhase, hAcked, hEmpty⟩ := written_endpoint s side
  have hFinish : ((step rmp (written s side) ⟨side, holder, .finish⟩).endpoint side).acked =
      (s.endpoint side).acked ++ [m] := by
    rw [step, @View.act_finish rmp holder ((written s side).view side) _ m (by rw [← hFlushing, ← hPhase]; rfl) hEmpty,
      State.update_endpoint, ← hAcked]
    rfl
  rw [← hFinish, ← step_write hFlushing]
  rfl

theorem finishing_along {side : Side} (hFlushing : (s.endpoint side).phase (half side) = .flushing m)
    (hFits : s.backlog side ≤ capacity) :
    Trace.Along (step rmp) (fun s event => FitsPipe capacity s event ∧ Persists half event) s
      (finishing s side (half side)) := by
  refine ⟨⟨?_, fun _ => by simp⟩, ⟨?_, fun _ => by simp⟩, trivial⟩
  · simpa [FitsPipe, Action.size, State.backlog] using hFits
  · rw [step_write hFlushing, FitsPipe, written_wire]
    simpa [Action.size] using hFits

/-- When both ends of a connection flush, some send can return with nobody giving up exactly when the bytes
of one end all have room in its pipe. -/
theorem acknowledges_iff {events : List Event} (hPipe : Trace.Along (step rmp) (FitsPipe capacity) connected events)
    (hFlushing : ∀ side, ((Trace.run (step rmp) connected events).endpoint side).phase (half side) =
      .flushing (message side)) :
    (∃ more, Trace.Along (step rmp) (fun s event => FitsPipe capacity s event ∧ Persists half event)
        (Trace.run (step rmp) connected events) more ∧
      ∃ side, ((Trace.run (step rmp) connected (events ++ more)).endpoint side).acked ≠
        ((Trace.run (step rmp) connected events).endpoint side).acked) ↔
      ∃ side, (Trace.run (step rmp) connected events).backlog side ≤ capacity := by
  have hContained := contained_run hPipe
  constructor
  · rintro ⟨more, hMore, side, hAcked⟩
    by_contra hFull
    simp only [not_exists, not_le] at hFull
    have hStuck : Stuck rmp capacity half message
        (fun side => ((Trace.run (step rmp) connected events).endpoint side).acked)
        (Trace.run (step rmp) connected events) :=
      ⟨hContained.sound, fun side => ⟨hFlushing side, hContained.pipe side, hFull side, rfl⟩⟩
    have hLater := hMore.throughout stuck_step hStuck (List.prefix_refl more)
    rw [Trace.run_append] at hAcked
    exact hAcked (hLater.blocked side).acked_eq
  · rintro ⟨side, hFits⟩
    refine ⟨_, finishing_along (hFlushing side) hFits, side, ?_⟩
    rw [Trace.run_append, finishing_run (hFlushing side)]
    simp

end

/-- Both ends send a message that their pipes have no room for. -/
def crossingEvents : List Event :=
  [⟨.near, .client, .send newsMessage⟩, ⟨.near, .client, .lock⟩, ⟨.near, .client, .feed⟩,
    ⟨.far, .server, .send newsMessage⟩, ⟨.far, .server, .lock⟩, ⟨.far, .server, .feed⟩,
    ⟨.near, .client, .write 8⟩, ⟨.far, .server, .write 8⟩]

def crossingHalf : Side → Half
  | .near => .client
  | .far => .server

theorem crossingEvents_acknowledges :
    ¬ ∃ more, Trace.Along (step Rmp.messagePack) (fun s event => FitsPipe 8 s event ∧ Persists crossingHalf event)
        (Trace.run (step Rmp.messagePack) connected crossingEvents) more ∧
      ∃ side, ((Trace.run (step Rmp.messagePack) connected (crossingEvents ++ more)).endpoint side).acked ≠
        ((Trace.run (step Rmp.messagePack) connected crossingEvents).endpoint side).acked := by
  have hPipe : Trace.Along (step Rmp.messagePack) (FitsPipe 8) connected crossingEvents := by decide +kernel
  have hFlushing (side : Side) : ((Trace.run (step Rmp.messagePack) connected crossingEvents).endpoint side).phase
      (crossingHalf side) = .flushing newsMessage := by
    cases side with
    | near => rfl
    | far => rfl
  intro h
  obtain ⟨side, hFits⟩ := (@acknowledges_iff _ _ _ (fun _ => newsMessage) _ hPipe hFlushing).mp h
  cases side with
  | near => exact absurd hFits (by decide +kernel)
  | far => exact absurd hFits (by decide +kernel)

end Fleximq.Session
