import Fleximq.Peer.Deadlock
import Fleximq.Peer.Receiving

/-! # A send that the other end takes in

While a half of the other end goes on receiving, a flush ends. A pipe with any room
at all passes a message of any length, in whatever order the two halves take their
steps and also when the other end cannot decode what arrives.
-/
namespace Fleximq.Session
open Foundation Fleximq.Protocol Fleximq.Transport

/-! ## The end that receives -/

/-- The steps of the half before it is in `next`. -/
def Phase.callsLeft : Phase → Nat
  | .idle => 2
  | .receiveWaits => 1
  | _ => 0

/-- Nothing keeps the half from receiving. -/
structure Endpoint.Listens (e : Endpoint) (half : Half) : Prop where
  phase : e.phase half = .idle ∨ e.phase half = .receiveWaits ∨ e.phase half = .receiving
  free : ∀ other, other ≠ half → (e.phase other).holdsGuard = false

def Action.listens : Action → Bool
  | .receive => true
  | .lock => true
  | .read _ => true
  | .readEnd => true
  | .decode => true
  | .stop => true
  | _ => false

def Framed.flags (f : Framed) : Nat :=
  match f.hasErrored, f.isReadable with
  | true, _ => 3
  | false, true => 6
  | false, false => 0

/-- What the half has to do with the bytes that are written; a byte costs more before it is read, and
a message pays for the call that returns it. -/
def View.effort (v : View) (half : Half) : Nat :=
  10 * v.inbound.length + 3 * v.endpoint.framed.arrived.length + v.endpoint.framed.flags +
    (v.endpoint.phase half).callsLeft

variable {rmp : Rmp} {capacity : Nat} {holder reader half : Half} {m : RawMessage} {acked : List RawMessage}
variable {v v' : View} {action : Action} {closed : Bool}

theorem Endpoint.Listens.turn {e : Endpoint} (h : e.Listens reader) {phase : Phase}
    (hPhase : phase = .idle ∨ phase = .receiveWaits ∨ phase = .receiving) : (e.turn reader phase).Listens reader where
  phase := by
    rw [turn_phase, if_pos rfl]
    exact hPhase
  free other hOther := by
    rw [turn_phase, if_neg hOther]
    exact h.free other hOther

theorem Endpoint.Listens.unlocked {e : Endpoint} (h : e.Listens reader) (hWaits : e.phase reader = .receiveWaits) :
    e.unlocked = true := by
  rw [unlocked_iff]
  intro half
  by_cases hReader : half = reader
  · rw [hReader, hWaits]
    rfl
  · exact h.free half hReader

/-- A step of the half that receives: it stays such a half, and there is less to do. -/
structure Listened (reader : Half) (v v' : View) : Prop where
  listens : v'.endpoint.Listens reader
  outbound : v'.outbound = v.outbound
  effort_lt : v'.effort reader < v.effort reader

theorem View.receive_listened (hListens : v.endpoint.Listens reader) (hIdle : v.endpoint.phase reader = .idle) :
    Listened reader v (v.turn reader .receiveWaits) where
  listens := hListens.turn (.inr (.inl rfl))
  outbound := rfl
  effort_lt := by simp [View.effort, View.turn, Endpoint.turn, Phase.callsLeft, hIdle]

theorem View.lock_listened (hListens : v.endpoint.Listens reader) (hWaits : v.endpoint.phase reader = .receiveWaits) :
    Listened reader v (v.turn reader .receiving) where
  listens := hListens.turn (.inr (.inr rfl))
  outbound := rfl
  effort_lt := by simp [View.effort, View.turn, Endpoint.turn, Phase.callsLeft, hWaits]

theorem View.read_listened (hListens : v.endpoint.Listens reader) (hErrored : v.endpoint.framed.hasErrored = false)
    (hPaused : v.endpoint.framed.isReadable = false) {n : Nat} (hSome : 0 < n) (hInbound : v.inbound ≠ []) :
    Listened reader v (v.read n) := by
  have hLength := List.length_pos_of_ne_nil hInbound
  rw [View.read_eq hErrored hPaused hSome hInbound]
  refine ⟨⟨hListens.phase, hListens.free⟩, rfl, ?_⟩
  simp only [View.effort, View.reframe, Framed.arrived, Framed.flags, hErrored, hPaused, List.length_append,
    List.length_take, List.length_drop]
  omega

theorem Receives.listened (h : Receives closed reader v .decode v') (hListens : v.endpoint.Listens reader)
    (hReceiving : v.endpoint.phase reader = .receiving) (hErrored : v.endpoint.framed.hasErrored = false)
    (hReadable : v.endpoint.framed.isReadable = true) : Listened reader v v' := by
  have hIdle := hListens.turn (.inl rfl)
  have hWhole (rest : List UInt8) : (MessageCodec.new.withBuffer rest).parser.buffer = rest := rfl
  cases h with
  | refuses _ =>
    refine ⟨⟨hIdle.phase, hIdle.free⟩, rfl, ?_⟩
    simp [View.effort, View.returns, Endpoint.returns, Endpoint.turn, Framed.arrived, Framed.flags, Phase.callsLeft,
      hErrored, hReadable, hReceiving]
  | waits _ =>
    refine ⟨⟨hListens.phase, hListens.free⟩, rfl, ?_⟩
    simp [View.effort, View.reframe, Framed.arrived, Framed.flags, hWhole, hErrored, hReadable]
  | concludes _ _ =>
    refine ⟨⟨hIdle.phase, hIdle.free⟩, rfl, ?_⟩
    simp [View.effort, View.returns, Endpoint.returns, Endpoint.turn, Framed.arrived, Framed.flags, Phase.callsLeft,
      hWhole, hErrored, hReadable, hReceiving]
  | @delivers message n _ _ hDeliver =>
    have hProgress := frames.progress hDeliver
    refine ⟨⟨hIdle.phase, hIdle.free⟩, rfl, ?_⟩
    simp only [Framed.arrived, List.length_append] at hProgress
    simp [View.effort, View.returns, Endpoint.returns, Endpoint.turn, Framed.arrived, Framed.flags, Phase.callsLeft,
      hWhole, hErrored, hReadable, hReceiving]
    omega

theorem View.stop_listened (hListens : v.endpoint.Listens reader) (hReceiving : v.endpoint.phase reader = .receiving)
    (hErrored : v.endpoint.framed.hasErrored = true) : Listened reader v (v.stop reader) := by
  have hIdle := hListens.turn (.inl rfl)
  rw [View.stop, if_pos hErrored]
  refine ⟨⟨hIdle.phase, hIdle.free⟩, rfl, ?_⟩
  simp [View.effort, View.returns, Endpoint.returns, Endpoint.turn, Framed.arrived, Framed.flags, Phase.callsLeft,
    hErrored, hReceiving]

/-- While the sender is there, a step of the half that changes something brings it on. -/
theorem View.next_listened (hLimits : v.endpoint.framed.HasDefaultLimits)
    (hSound : ∀ e, frames.verdict v.endpoint.framed.arrived ≠ .fail e) (hListens : v.endpoint.Listens reader)
    (hReceiving : v.endpoint.phase reader = .receiving) (hAction : action.listens = true) :
    v.next false reader action = v ∨ Listened reader v (v.next false reader action) := by
  cases action with
  | read n =>
    rw [View.next, View.read]
    split
    next hReady =>
      simp only [Bool.and_eq_true, Bool.not_eq_true', decide_eq_true_eq, List.isEmpty_eq_false_iff] at hReady
      obtain ⟨⟨⟨hErrored, hPaused⟩, hSome⟩, hInbound⟩ := hReady
      rw [← View.read_eq hErrored hPaused hSome hInbound]
      exact .inr (View.read_listened hListens hErrored hPaused hSome hInbound)
    next => exact .inl rfl
  | decode =>
    by_cases hReady : (!v.endpoint.framed.hasErrored && v.endpoint.framed.isReadable) = true
    · simp only [Bool.and_eq_true, Bool.not_eq_true'] at hReady
      have hReceives := View.decode_receives hLimits hSound hReady.1 hReady.2 false reader
      exact .inr (hReceives.listened hListens hReceiving hReady.1 hReady.2)
    · left
      rw [View.next.eq_def, View.decode, if_neg hReady]
  | stop =>
    by_cases hErrored : v.endpoint.framed.hasErrored = true
    · exact .inr (View.stop_listened hListens hReceiving hErrored)
    · left
      rw [View.next.eq_def, View.stop, if_neg hErrored]
  | readEnd =>
    left
    simp [View.next, View.readEnd]
  | readFails _ => cases hAction
  | _ => exact .inl rfl

theorem View.act_listened (hLimits : v.endpoint.framed.HasDefaultLimits)
    (hSound : ∀ e, frames.verdict v.endpoint.framed.arrived ≠ .fail e) (hListens : v.endpoint.Listens reader)
    (hAction : action.listens = true) :
    v.act rmp false reader action = v ∨ Listened reader v (v.act rmp false reader action) := by
  rcases hListens.phase with hIdle | hWaits | hReceiving
  · unfold View.act
    rw [hIdle]
    cases action with
    | receive => exact .inr (View.receive_listened hListens hIdle)
    | send _ => cases hAction
    | disconnect => cases hAction
    | _ => exact .inl rfl
  · unfold View.act
    rw [hWaits]
    cases action with
    | lock =>
      right
      simp only [hListens.unlocked hWaits, if_true]
      exact View.lock_listened hListens hWaits
    | cancel => cases hAction
    | _ => exact .inl rfl
  · have hCancel : action ≠ .cancel := by
      rintro rfl
      cases hAction
    rw [View.act_receiving hReceiving hCancel]
    exact View.next_listened hLimits hSound hListens hReceiving hAction

/-- When there is something to read, the half has a step to take. -/
theorem View.exists_listened (hLimits : v.endpoint.framed.HasDefaultLimits)
    (hSound : ∀ e, frames.verdict v.endpoint.framed.arrived ≠ .fail e) (hListens : v.endpoint.Listens reader)
    (hInbound : v.inbound ≠ []) :
    ∃ action, action.listens = true ∧ action.size = 0 ∧ Listened reader v (v.act rmp false reader action) := by
  rcases hListens.phase with hIdle | hWaits | hReceiving
  · refine ⟨.receive, rfl, rfl, ?_⟩
    unfold View.act
    rw [hIdle]
    exact View.receive_listened hListens hIdle
  · refine ⟨.lock, rfl, rfl, ?_⟩
    unfold View.act
    rw [hWaits]
    simp only [hListens.unlocked hWaits, if_true]
    exact View.lock_listened hListens hWaits
  · cases hErrored : v.endpoint.framed.hasErrored with
    | true =>
      refine ⟨.stop, rfl, rfl, ?_⟩
      rw [View.act_receiving hReceiving (by simp)]
      exact View.stop_listened hListens hReceiving hErrored
    | false =>
      cases hReadable : v.endpoint.framed.isReadable with
      | true =>
        refine ⟨.decode, rfl, rfl, ?_⟩
        rw [View.act_receiving hReceiving (by simp)]
        have hReceives := View.decode_receives hLimits hSound hErrored hReadable false reader
        exact hReceives.listened hListens hReceiving hErrored hReadable
      | false =>
        refine ⟨.read 1, rfl, rfl, ?_⟩
        rw [View.act_receiving hReceiving (by simp)]
        exact View.read_listened hListens hErrored hReadable Nat.zero_lt_one hInbound

/-! ## Both ends -/

/-- The steps of the half that flushes, and of the half at the other end that receives. -/
inductive Event.Serves (side : Side) (holder reader : Half) : Event → Prop where
  | writes (n : Nat) : Serves side holder reader ⟨side, holder, .write n⟩
  | finishes : Serves side holder reader ⟨side, holder, .finish⟩
  | listens {action : Action} : action.listens = true → Serves side holder reader ⟨side.other, reader, action⟩

/-- Such a step that the pipe has room for and that changes something. -/
structure Proceeds (rmp : Rmp) (capacity : Nat) (side : Side) (holder reader : Half) (s : State) (event : Event) :
    Prop where
  serves : event.Serves side holder reader
  fits : FitsPipe capacity s event
  moves : step rmp s event ≠ s

/-- The flush goes on. -/
structure Attended (rmp : Rmp) (capacity : Nat) (side : Side) (holder reader : Half) (m : RawMessage)
    (acked : List RawMessage) (s : State) : Prop where
  contained : Contained rmp capacity s
  flushing : (s.endpoint side).phase holder = .flushing m
  listens : (s.endpoint side.other).Listens reader
  acked_eq : (s.endpoint side).acked = acked

/-- The send has returned. -/
structure Returned (side : Side) (holder : Half) (m : RawMessage) (acked : List RawMessage) (s : State) : Prop where
  phase : (s.endpoint side).phase holder = .idle
  acked_eq : (s.endpoint side).acked = acked ++ [m]

def State.effort (side : Side) (reader : Half) (s : State) : Nat :=
  11 * (s.endpoint side).framed.writeBuffer.length + (s.view side.other).effort reader

section
variable {side : Side} {s : State} {event : Event}

theorem State.update_other_endpoint (s : State) (side : Side) (v : View) :
    (s.update side.other v).endpoint side = s.endpoint side := by
  have hOther := State.update_endpoint_other s side.other v
  rwa [Side.other_other] at hOther

theorem State.view_update (s : State) (side : Side) (v : View) : (s.update side v).view side = v := by
  rw [State.view, State.update_endpoint, State.update_wire, State.update_wire_other]

theorem State.effort_update_other (s : State) (v : View) :
    (s.update side.other v).effort side reader =
      11 * (s.endpoint side).framed.writeBuffer.length + v.effort reader := by
  rw [State.effort, State.view_update, State.update_other_endpoint]

theorem View.write_nothing (v : View) {n : Nat} (hNothing : min n v.endpoint.framed.writeBuffer.length = 0) :
    v.write n = v := by
  have hTake : v.endpoint.framed.writeBuffer.take n = [] := by
    apply List.eq_nil_of_length_eq_zero
    rwa [List.length_take]
  have hDrop : v.endpoint.framed.writeBuffer.drop n = v.endpoint.framed.writeBuffer := by
    have hSplit := List.take_append_drop n v.endpoint.framed.writeBuffer
    rwa [hTake, List.nil_append] at hSplit
  rw [View.write, hTake, hDrop, List.append_nil]
  rfl

namespace Attended
variable (h : Attended rmp capacity side holder reader m acked s)
include h

theorem isClosed : (s.endpoint side).isClosed = false := by
  apply Bool.eq_false_of_not_eq_true
  intro hClosed
  have hGone := Endpoint.isClosed_iff.mp hClosed holder
  rw [h.flushing] at hGone
  cases hGone

/-- The steps at the other end. -/
theorem listened (hFits : FitsPipe capacity s ⟨side.other, reader, action⟩)
    (hListened : Listened reader (s.view side.other) ((s.view side.other).act rmp false reader action)) :
    Attended rmp capacity side holder reader m acked (step rmp s ⟨side.other, reader, action⟩) ∧
      (step rmp s ⟨side.other, reader, action⟩).effort side reader < s.effort side reader := by
  have hStep : step rmp s ⟨side.other, reader, action⟩ =
      s.update side.other ((s.view side.other).act rmp false reader action) := by
    rw [step, Side.other_other, h.isClosed]
  refine ⟨⟨contained_step s _ h.contained hFits, ?_, ?_, ?_⟩, ?_⟩
  · rw [hStep, State.update_other_endpoint]
    exact h.flushing
  · rw [hStep, State.update_endpoint]
    exact hListened.listens
  · rw [hStep, State.update_other_endpoint]
    exact h.acked_eq
  · rw [hStep, State.effort_update_other]
    exact Nat.add_lt_add_left hListened.effort_lt _

theorem wrote {n : Nat} (hFits : FitsPipe capacity s ⟨side, holder, .write n⟩)
    (hMoves : step rmp s ⟨side, holder, .write n⟩ ≠ s) :
    Attended rmp capacity side holder reader m acked (step rmp s ⟨side, holder, .write n⟩) ∧
      (step rmp s ⟨side, holder, .write n⟩).effort side reader < s.effort side reader := by
  have hStep : step rmp s ⟨side, holder, .write n⟩ = s.update side ((s.view side).write n) := by
    rw [step, View.act_write h.flushing]
  have hSome : 0 < min n (s.endpoint side).framed.writeBuffer.length := by
    apply Nat.pos_of_ne_zero
    intro hNothing
    apply hMoves
    rw [hStep, View.write_nothing _ hNothing, State.update_view]
  refine ⟨⟨contained_step s _ h.contained hFits, ?_, ?_, ?_⟩, ?_⟩
  · rw [hStep, State.update_endpoint]
    exact h.flushing
  · rw [hStep, State.update_endpoint_other]
    exact h.listens
  · rw [hStep, State.update_endpoint]
    exact h.acked_eq
  · rw [hStep]
    simp only [State.effort, View.effort, State.view, State.update_endpoint, State.update_endpoint_other,
      Side.other_other, State.update_wire, View.write, View.reframe, List.length_append, List.length_take,
      List.length_drop]
    omega

theorem finished (hMoves : step rmp s ⟨side, holder, .finish⟩ ≠ s) :
    Returned side holder m acked (step rmp s ⟨side, holder, .finish⟩) := by
  have hEmpty : (s.endpoint side).framed.writeBuffer = [] := by
    by_contra hSome
    apply hMoves
    have hAct : (s.view side).act rmp (s.endpoint side.other).isClosed holder .finish = s.view side := by
      unfold View.act
      rw [show (s.view side).endpoint.phase holder = .flushing m from h.flushing]
      exact if_neg (fun hNone => hSome (List.isEmpty_iff.mp hNone))
    rw [step, hAct, State.update_view]
  rw [step, View.act_finish h.flushing hEmpty]
  constructor
  · rw [State.update_endpoint]
    exact Function.update_self holder _ _
  · rw [State.update_endpoint, ← h.acked_eq]
    rfl

/-- While the flush goes on, one of the two halves can take a step. -/
theorem exists_step (hCapacity : 0 < capacity) : ∃ event, Proceeds rmp capacity side holder reader s event := by
  by_cases hEmpty : (s.endpoint side).framed.writeBuffer = []
  · refine ⟨⟨side, holder, .finish⟩, .finishes, ?_, ?_⟩
    · rw [FitsPipe, hEmpty]
      exact h.contained.pipe side
    · rw [step, View.act_finish h.flushing hEmpty]
      intro hSame
      have hAcked := congrArg (fun s => (s.endpoint side).acked) hSame
      rw [State.update_endpoint] at hAcked
      exact absurd hAcked (by simp [State.view])
  · have hBuffer := List.length_pos_of_ne_nil hEmpty
    have hPipe := h.contained.pipe side
    by_cases hRoom : (s.wire side).length < capacity
    · refine ⟨⟨side, holder, .write (capacity - (s.wire side).length)⟩, .writes _, ?_, ?_⟩
      · rw [FitsPipe]
        simp only [Action.size]
        omega
      · rw [step, View.act_write h.flushing]
        intro hSame
        have hLength := congrArg (fun s => (s.wire side).length) hSame
        simp only [View.write, State.view, State.update_wire, List.length_append, List.length_take] at hLength
        omega
    · have hWire : s.wire side ≠ [] := by
        apply List.ne_nil_of_length_pos
        omega
      obtain ⟨action, hAction, hSize, hListened⟩ := @View.exists_listened rmp reader (s.view side.other)
        (h.contained.sound.limits side.other) (h.contained.sound.not_fail side.other) h.listens
        (by rwa [State.view, Side.other_other])
      have hFits : FitsPipe capacity s ⟨side.other, reader, action⟩ := by
        rw [FitsPipe, hSize, Nat.zero_min]
        exact h.contained.pipe side.other
      refine ⟨⟨side.other, reader, action⟩, .listens hAction, hFits, ?_⟩
      intro hSame
      have hLess := (h.listened hFits hListened).2
      rw [hSame] at hLess
      exact Nat.lt_irrefl _ hLess

end Attended

theorem attended_step (s : State) (event : Event) (h : Attended rmp capacity side holder reader m acked s)
    (hProceeds : Proceeds rmp capacity side holder reader s event) :
    Returned side holder m acked (step rmp s event) ∨
      Attended rmp capacity side holder reader m acked (step rmp s event) ∧
        (step rmp s event).effort side reader < s.effort side reader := by
  obtain ⟨hServes, hFits, hMoves⟩ := hProceeds
  cases hServes with
  | writes n => exact .inr (h.wrote hFits hMoves)
  | finishes => exact .inl (h.finished hMoves)
  | @listens action hAction =>
    rcases @View.act_listened rmp reader (s.view side.other) action (h.contained.sound.limits side.other)
      (h.contained.sound.not_fail side.other) h.listens hAction with hSame | hListened
    · apply absurd _ hMoves
      rw [step, Side.other_other, h.isClosed, hSame, State.update_view]
    · exact .inr (h.listened hFits hListened)

theorem View.act_idle {n : Nat} (hIdle : v.endpoint.phase holder = .idle)
    (hAction : action = .write n ∨ action = .finish) : v.act rmp closed holder action = v := by
  unfold View.act
  rw [hIdle]
  rcases hAction with rfl | rfl
  · rfl
  · rfl

theorem returned_step (s : State) (event : Event) (h : Returned side holder m acked s)
    (hProceeds : Proceeds rmp capacity side holder reader s event) : Returned side holder m acked (step rmp s event) := by
  cases hProceeds.serves with
  | writes n =>
    rw [step, View.act_idle h.phase (.inl rfl), State.update_view]
    exact h
  | finishes =>
    rw [step, @View.act_idle rmp holder _ _ _ 0 h.phase (.inr rfl), State.update_view]
    exact h
  | listens hAction =>
    constructor
    · rw [step, State.update_other_endpoint]
      exact h.phase
    · rw [step, State.update_other_endpoint]
      exact h.acked_eq

end

/-- A message of more bytes than the pipe has room for is on its way. -/
def narrowEvents : List Event :=
  [⟨.near, .client, .send newsMessage⟩, ⟨.near, .client, .lock⟩, ⟨.near, .client, .feed⟩]

def narrowSteps : List Event :=
  [⟨.near, .client, .write 8⟩, ⟨.far, .server, .receive⟩, ⟨.far, .server, .lock⟩, ⟨.far, .server, .read 5⟩,
    ⟨.near, .client, .write 5⟩]

end Fleximq.Session
