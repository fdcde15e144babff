import Fleximq.Peer.SessionLink

/-! # What a session delivers

In every state of a session, what `receive_message` has returned at one end is a
prefix of what the encoder took at the other, and no message that `send_message`
has acknowledged is missing when the bytes have arrived or the stream has ended.
-/
namespace Fleximq.Session
open Foundation Fleximq.Protocol Fleximq.Transport
open Foundation.Incremental (Decoder Link)

@[simp] theorem Side.other_other (side : Side) : side.other.other = side := by cases side <;> rfl

@[simp] theorem Side.other_ne (side : Side) : side.other ≠ side := by cases side <;> nofun

theorem Side.eq_or (side direction : Side) : direction = side ∨ direction = side.other := by
  cases side <;> cases direction <;> simp [Side.other]

namespace State

@[simp] theorem update_endpoint (s : State) (side : Side) (v : View) :
    (s.update side v).endpoint side = v.endpoint := by simp [update]

@[simp] theorem update_endpoint_other (s : State) (side : Side) (v : View) :
    (s.update side v).endpoint side.other = s.endpoint side.other := by simp [update]

@[simp] theorem update_wire (s : State) (side : Side) (v : View) :
    (s.update side v).wire side = v.outbound := by
  simp [update, Function.update_of_ne side.other_ne.symm]

@[simp] theorem update_wire_other (s : State) (side : Side) (v : View) :
    (s.update side v).wire side.other = v.inbound := by simp [update]

theorem update_view (s : State) (side : Side) : s.update side (s.view side) = s := by
  rw [update, view, Function.update_eq_self, Function.update_eq_self, Function.update_eq_self]

/-- Both ends keep to their guard and limits, and each direction is a sound link. -/
structure Sound (rmp : Rmp) (s : State) : Prop where
  guarded : ∀ side, (s.endpoint side).Guarded
  limits : ∀ side, (s.endpoint side).framed.HasDefaultLimits
  link : ∀ side, ∃ l, Carries rmp (s.endpoint side) (s.wire side) (s.endpoint side.other) l ∧
    l.Sound frames Message.rawBytes

variable {rmp : Rmp} {s : State}

theorem guarded_sink : Endpoint.Guarded ⟨sink, fun _ => .idle, [], [], []⟩ where
  exclusive _ _ hHolds _ := absurd hHolds Bool.false_ne_true
  acked := List.Sublist.refl _
  flushing _ _ hFlushing := Phase.noConfusion hFlushing

theorem sound_connected (rmp : Rmp) : connected.Sound rmp where
  guarded _ := guarded_sink
  limits _ := rfl
  link _ := ⟨.fresh, ⟨rfl, List.Sublist.refl _, rfl, rfl, rfl, rfl⟩, Link.sound_fresh⟩

theorem Sound.not_fail (h : s.Sound rmp) (side : Side) (e : ProtocolError) :
    frames.verdict (s.endpoint side).framed.arrived ≠ .fail e := by
  obtain ⟨l, hCarries, hLink⟩ := h.link side.other
  rw [Side.other_other] at hCarries
  rw [hCarries.arrived]
  exact hLink.not_fail (MessageParser.verdict_nil defaultMaxMessageSize defaultMaxHeaderSize) e

end State

variable {rmp : Rmp} {s : State}

/-- A step does nothing, or one half of one end acts. -/
theorem step_cases (h : s.Sound rmp) (event : Event) :
    step rmp s event = s ∨ ∃ v, step rmp s event = s.update event.side v ∧
      (s.endpoint event.side).phase event.half ≠ .gone ∧
      Acts rmp (s.endpoint event.side.other).isClosed event.half (s.view event.side) event.action v := by
  rcases act_cases (v := s.view event.side) (h.limits event.side) (h.not_fail event.side) rmp
    (s.endpoint event.side.other).isClosed event.action with hSame | ⟨hHere, hActs⟩
  · left
    rw [step, hSame, s.update_view]
  · exact .inr ⟨_, rfl, hHere, hActs⟩

theorem State.Sound.update (h : s.Sound rmp) {side : Side} {closed : Bool} {half : Half} {action : Action}
    {v : View} (hActs : Acts rmp closed half (s.view side) action v) : (s.update side v).Sound rmp where
  guarded direction := by
    rcases side.eq_or direction with rfl | rfl
    · rw [State.update_endpoint]
      exact hActs.guarded (h.guarded direction)
    · rw [State.update_endpoint_other]
      exact h.guarded _
  limits direction := by
    rcases side.eq_or direction with rfl | rfl
    · rw [State.update_endpoint]
      exact hActs.hasDefaultLimits (h.limits direction)
    · rw [State.update_endpoint_other]
      exact h.limits _
  link direction := by
    obtain ⟨l, hCarries, hLink⟩ := h.link direction
    rcases side.eq_or direction with rfl | rfl
    · obtain ⟨l', hCarries', hMoves⟩ := hActs.carries_out (h.guarded direction) hCarries
      rw [State.update_endpoint, State.update_endpoint_other, State.update_wire]
      exact ⟨l', hCarries', hMoves.sound hLink⟩
    · rw [Side.other_other] at hCarries ⊢
      obtain ⟨l', hCarries', hMoves⟩ := hActs.carries_in hCarries
      rw [State.update_endpoint, State.update_endpoint_other, State.update_wire_other]
      exact ⟨l', hCarries', hMoves.sound hLink⟩

theorem sound_step (s : State) (event : Event) (h : s.Sound rmp) : (step rmp s event).Sound rmp := by
  rcases step_cases h event with hSame | ⟨v, hStep, _, hActs⟩
  · rw [hSame]
    exact h
  · rw [hStep]
    exact h.update hActs

theorem sound_run (rmp : Rmp) (events : List Event) : (Trace.run (step rmp) connected events).Sound rmp :=
  Trace.run_invariant sound_step (State.sound_connected rmp) events

/-! ## Order -/

/-- The messages that one end has received are the first of those that the other has encoded,
whatever was cancelled, failed or interleaved in between. -/
theorem received_isPrefix (rmp : Rmp) (events : List Event) (side : Side) :
    (messages ((Trace.run (step rmp) connected events).endpoint side.other).received).map Except.ok <+:
      ((Trace.run (step rmp) connected events).endpoint side).accepted.map
        (fun message => message.intoMessage rmp) := by
  obtain ⟨l, hCarries, hLink⟩ := (sound_run rmp events).link side
  rw [hCarries.delivered, hCarries.accepted]
  exact hLink.delivered_isPrefix.map _

/-! ## Acknowledged messages -/

/-- Every message that the sender was told is sent has been received, in order. -/
def Complete (rmp : Rmp) (sender receiver : Endpoint) : Prop :=
  (sender.acked.map fun message => message.intoMessage rmp).Sublist ((messages receiver.received).map .ok)

theorem Carries.complete_of_flushed {sender receiver : Endpoint} {wire : List UInt8}
    {l : Link UInt8 Message} (h : Carries rmp sender wire receiver l)
    (hFlushed : l.accepted.take l.flushed <+: l.delivered) : Complete rmp sender receiver := by
  have hTake : (sender.accepted.take l.flushed).map (fun message => message.intoMessage rmp) =
      (l.accepted.take l.flushed).map .ok := by
    rw [List.map_take, List.map_take, h.accepted]
  rw [Complete, h.delivered]
  calc
    (sender.acked.map fun message => message.intoMessage rmp).Sublist
        ((sender.accepted.take l.flushed).map fun message => message.intoMessage rmp) := h.acked.map _
    _ = (l.accepted.take l.flushed).map .ok := hTake
    List.Sublist _ (l.delivered.map .ok) := (hFlushed.map _).sublist

theorem Carries.complete {sender receiver : Endpoint} {wire : List UInt8} {l : Link UInt8 Message}
    (h : Carries rmp sender wire receiver l) (hLink : l.Sound frames Message.rawBytes)
    (hWire : wire = []) (hWait : frames.verdict receiver.framed.arrived = .wait) :
    Complete rmp sender receiver :=
  h.complete_of_flushed (hLink.flushed_isPrefix (h.arrived ▸ hWait) (h.underway.symm.trans hWire))

/-- The codec has no message in what has arrived. -/
def Framed.Drained (f : Framed) : Prop := (f.codec.decode f.readBuffer).2.2 = .ok none

/-- Once nothing is on the way and the receiver has drained its buffer, nothing that was acknowledged
is missing, also after the sender has disconnected. -/
theorem acked_received (rmp : Rmp) (events : List Event) (side : Side)
    (hWire : (Trace.run (step rmp) connected events).wire side = [])
    (hDrained : ((Trace.run (step rmp) connected events).endpoint side.other).framed.Drained) :
    Complete rmp ((Trace.run (step rmp) connected events).endpoint side)
      ((Trace.run (step rmp) connected events).endpoint side.other) := by
  have hSound := sound_run rmp events
  obtain ⟨l, hCarries, hLink⟩ := hSound.link side
  apply hCarries.complete hLink hWire
  rw [Framed.Drained] at hDrained
  rcases decode_cases (hSound.limits side.other) (hSound.not_fail side.other) with
    ⟨_, size, max, hDecode⟩ | ⟨hWait, _⟩ | ⟨m, n, _, hDecode⟩
  · rw [hDecode] at hDrained
    cases hDrained
  · exact hWait
  · rw [hDecode] at hDrained
    cases hDrained

/-- A message is sent and acknowledged, and its two parts are read. -/
def newsEvents : List Event :=
  [⟨.near, .client, .send newsMessage⟩, ⟨.near, .client, .lock⟩, ⟨.near, .client, .feed⟩,
    ⟨.near, .client, .write 20⟩, ⟨.far, .server, .receive⟩, ⟨.far, .server, .lock⟩,
    ⟨.far, .server, .read 64⟩, ⟨.far, .server, .decode⟩, ⟨.near, .client, .write 64⟩,
    ⟨.near, .client, .finish⟩]

def newsExchange : List Event := newsEvents ++ [⟨.far, .server, .read 64⟩, ⟨.far, .server, .decode⟩]

theorem newsExchange_complete :
    ((Trace.run (step Rmp.messagePack) connected newsExchange).endpoint .near).acked.length = 1 ∧
      Complete Rmp.messagePack ((Trace.run (step Rmp.messagePack) connected newsExchange).endpoint .near)
        ((Trace.run (step Rmp.messagePack) connected newsExchange).endpoint .far) := by
  have hDrained : ((Trace.run (step Rmp.messagePack) connected newsExchange).endpoint .far).framed.Drained := by
    unfold Framed.Drained
    decide +kernel
  exact ⟨by decide +kernel, acked_received Rmp.messagePack newsExchange .near (by decide +kernel) hDrained⟩

/-! ## The end of the stream -/

theorem Endpoint.isClosed_iff {e : Endpoint} : e.isClosed = true ↔ ∀ half, e.phase half = .gone := by
  rw [isClosed]
  constructor
  · intro hClosed half
    split at hClosed
    next hServer hClient =>
      cases half with
      | server => exact hServer
      | client => exact hClient
    next => cases hClosed
  · intro hGone
    rw [hGone .server, hGone .client]

/-- If the first failure that `receive_message` returns is the end of the stream, the sender has
disconnected and everything acknowledged had been received. -/
def Concluded (rmp : Rmp) (sender : Endpoint) (received : List (Except TransportError Message)) : Prop :=
  ∀ (returned : List Message) rest, received = returned.map .ok ++ .error .connectionClosed :: rest →
    sender.isClosed = true ∧
      (sender.acked.map fun message => message.intoMessage rmp).Sublist (returned.map .ok)

theorem Concluded.append {sender : Endpoint} {received : List (Except TransportError Message)}
    (h : Concluded rmp sender received) {result : Except TransportError Message}
    (hLast : result = .error .connectionClosed → (∀ e, .error e ∉ received) →
      sender.isClosed = true ∧
        (sender.acked.map fun message => message.intoMessage rmp).Sublist ((messages received).map .ok)) :
    Concluded rmp sender (received ++ [result]) := by
  intro returned rest hReceived
  rcases List.eq_nil_or_concat rest with rfl | ⟨rest, last, rfl⟩
  · obtain ⟨rfl, hResult⟩ := List.append_inj' hReceived rfl
    have hClean (e : TransportError) : .error e ∉ returned.map (Except.ok (ε := TransportError)) := by
      simp
    have hMessages : messages (returned.map .ok) = returned := by
      simp [messages, List.filterMap_map, Function.comp_def, Except.toOption]
    have hEnd := hLast (List.cons.inj hResult).1 hClean
    rwa [hMessages] at hEnd
  · rw [List.concat_eq_append, ← List.cons_append, ← List.append_assoc] at hReceived
    exact h returned rest (List.append_inj' hReceived rfl).1

/-- What the flags of a receiver tell about the stream. -/
structure Reading (rmp : Rmp) (sender : Endpoint) (wire : List UInt8) (receiver : Endpoint) : Prop where
  errored : receiver.framed.hasErrored = true → ∃ e, .error e ∈ receiver.received
  paused : receiver.framed.isReadable = false → (∀ e, .error e ∉ receiver.received) →
    frames.verdict receiver.framed.arrived = .wait
  eof : receiver.framed.eof = true → sender.isClosed = true ∧ wire = []
  concluded : Concluded rmp sender receiver.received

section
variable {sender : Endpoint} {half : Half} {action : Action} {v v' : View} {l : Link UInt8 Message}

theorem Concluded.append_other {received : List (Except TransportError Message)}
    (h : Concluded rmp sender received) {result : Except TransportError Message}
    (hOther : result ≠ .error .connectionClosed) : Concluded rmp sender (received ++ [result]) :=
  h.append fun hResult => absurd hResult hOther

/-- The end of the stream is reported. -/
theorem Reading.conclude {wire : List UInt8} {receiver : Endpoint} (h : Reading rmp sender wire receiver)
    (hCarries : Carries rmp sender wire receiver l) (hLink : l.Sound frames Message.rawBytes)
    (hClosed : sender.isClosed = true) (hWire : wire = [])
    (hWait : (∀ e, .error e ∉ receiver.received) → frames.verdict receiver.framed.arrived = .wait) :
    Concluded rmp sender (receiver.received ++ [.error .connectionClosed]) := by
  apply h.concluded.append
  intro _ hClean
  exact ⟨hClosed, hCarries.complete hLink hWire (hWait hClean)⟩

theorem Receives.reading (h : Receives sender.isClosed half v action v')
    (hCarries : Carries rmp sender v.inbound v.endpoint l) (hLink : l.Sound frames Message.rawBytes)
    (hReading : Reading rmp sender v.inbound v.endpoint) : Reading rmp sender v'.inbound v'.endpoint := by
  have hOld {result : Except TransportError Message}
      (hSome : ∃ e, .error e ∈ v.endpoint.received) : ∃ e, .error e ∈ v.endpoint.received ++ [result] := by
    obtain ⟨e, hMem⟩ := hSome
    exact ⟨e, List.mem_append_left _ hMem⟩
  have hNew (e : TransportError) : ∃ e', .error e' ∈ v.endpoint.received ++ [.error e] :=
    ⟨e, List.mem_append_right _ (List.mem_singleton.mpr rfl)⟩
  have hPaused {e : TransportError} {bytes : List UInt8}
      (hClean : ∀ e', .error e' ∉ v.endpoint.received ++ [.error e]) : frames.verdict bytes = .wait :=
    absurd (hNew e) (not_exists.mpr hClean)
  have hWhole {f : Framed} {rest : List UInt8} (hCodec : f.codec = MessageCodec.new.withBuffer rest)
      (hEmpty : f.readBuffer = []) : f.arrived = rest := by
    rw [Framed.arrived, hCodec, hEmpty, List.append_nil]
    rfl
  cases h with
  | gets _ _ => exact ⟨hReading.errored, nofun, nofun, hReading.concluded⟩
  | ends _ hClosed hInbound =>
    exact ⟨hReading.errored, nofun, fun _ => ⟨hClosed, hInbound⟩, hReading.concluded⟩
  | breaks _ =>
    exact ⟨fun _ => hNew _, fun _ => hPaused, hReading.eof, hReading.concluded.append_other nofun⟩
  | refuses _ =>
    exact ⟨fun _ => hNew _, fun _ => hPaused, hReading.eof, hReading.concluded.append_other nofun⟩
  | closes hPausedNow hClosed hInbound =>
    exact ⟨fun _ => hNew _, fun _ => hPaused, hReading.eof,
      hReading.conclude hCarries hLink hClosed hInbound (hReading.paused hPausedNow)⟩
  | waits hWait =>
    refine ⟨hReading.errored, fun _ _ => ?_, hReading.eof, hReading.concluded⟩
    exact (congrArg frames.verdict (hWhole rfl rfl)).trans hWait
  | concludes hWait hEof =>
    obtain ⟨hClosed, hInbound⟩ := hReading.eof hEof
    exact ⟨fun _ => hNew _, fun _ => hPaused, hReading.eof,
      hReading.conclude hCarries hLink hClosed hInbound fun _ => hWait⟩
  | delivers _ hReadable _ =>
    refine ⟨fun hErrored => hOld (hReading.errored hErrored), ?_, hReading.eof,
      hReading.concluded.append_other nofun⟩
    intro hPausedNow
    cases hReadable.symm.trans hPausedNow
  | stops hErrored =>
    refine ⟨nofun, fun _ => hPaused, hReading.eof, ?_⟩
    -- the failure that ended the stream stands before this result
    apply hReading.concluded.append
    intro _ hClean
    exact absurd (hReading.errored hErrored) (not_exists.mpr hClean)

theorem Acts.reading (h : Acts rmp sender.isClosed half v action v')
    (hCarries : Carries rmp sender v.inbound v.endpoint l) (hLink : l.Sound frames Message.rawBytes)
    (hReading : Reading rmp sender v.inbound v.endpoint) : Reading rmp sender v'.inbound v'.endpoint := by
  cases h with
  | receives _ hReceives => exact hReceives.reading hCarries hLink hReading
  | _ => exact ⟨hReading.errored, hReading.paused, hReading.eof, hReading.concluded⟩

/-- A sender that is not closed may go on. -/
theorem Reading.open {wire : List UInt8} {receiver : Endpoint} (h : Reading rmp sender wire receiver)
    (hOpen : sender.isClosed ≠ true) (sender' : Endpoint) (wire' : List UInt8) :
    Reading rmp sender' wire' receiver where
  errored := h.errored
  paused := h.paused
  eof hEof := absurd (h.eof hEof).1 hOpen
  concluded returned rest hReceived := absurd (h.concluded returned rest hReceived).1 hOpen

end

structure State.Reads (rmp : Rmp) (s : State) : Prop where
  sound : s.Sound rmp
  reading : ∀ side, Reading rmp (s.endpoint side) (s.wire side) (s.endpoint side.other)

theorem reads_step (s : State) (event : Event) (h : s.Reads rmp) : (step rmp s event).Reads rmp := by
  refine ⟨sound_step s event h.sound, ?_⟩
  rcases step_cases h.sound event with hSame | ⟨v, hStep, hHere, hActs⟩
  · rw [hSame]
    exact h.reading
  · intro direction
    rw [hStep]
    rcases event.side.eq_or direction with rfl | rfl
    · have hOpen : (s.endpoint event.side).isClosed ≠ true :=
        fun hClosed => hHere (Endpoint.isClosed_iff.mp hClosed event.half)
      rw [State.update_endpoint_other]
      exact (h.reading event.side).open hOpen _ _
    · obtain ⟨l, hCarries, hLink⟩ := h.sound.link event.side.other
      have hReading := h.reading event.side.other
      rw [Side.other_other] at hCarries hReading ⊢
      rw [State.update_endpoint, State.update_endpoint_other, State.update_wire_other]
      exact hActs.reading hCarries hLink hReading

theorem reads_run (rmp : Rmp) (events : List Event) : (Trace.run (step rmp) connected events).Reads rmp := by
  apply Trace.run_invariant reads_step
  refine ⟨State.sound_connected rmp, fun _ => ⟨nofun, ?_, nofun, ?_⟩⟩
  · intro _ _
    exact MessageParser.verdict_nil defaultMaxMessageSize defaultMaxHeaderSize
  · intro returned rest hReceived
    cases returned <;> cases hReceived

/-- When the first failure of `receive_message` is `ConnectionClosed`, the other end had disconnected,
and every message that was acknowledged there had been returned before. -/
theorem concluded_run (rmp : Rmp) (events : List Event) (side : Side) (returned : List Message)
    (rest : List (Except TransportError Message))
    (hReceived : ((Trace.run (step rmp) connected events).endpoint side.other).received =
      returned.map .ok ++ .error .connectionClosed :: rest) :
    (∀ half, ((Trace.run (step rmp) connected events).endpoint side).phase half = .gone) ∧
      (((Trace.run (step rmp) connected events).endpoint side).acked.map
        fun message => message.intoMessage rmp).Sublist (returned.map .ok) := by
  obtain ⟨hClosed, hAcked⟩ := ((reads_run rmp events).reading side).concluded returned rest hReceived
  exact ⟨Endpoint.isClosed_iff.mp hClosed, hAcked⟩

def newsFarewell : List Event :=
  newsExchange ++ [⟨.near, .client, .disconnect⟩, ⟨.near, .server, .disconnect⟩, ⟨.far, .client, .receive⟩,
    ⟨.far, .client, .lock⟩, ⟨.far, .client, .decode⟩, ⟨.far, .client, .readEnd⟩, ⟨.far, .client, .decode⟩]

theorem newsFarewell_concludes :
    (∀ half, ((Trace.run (step Rmp.messagePack) connected newsFarewell).endpoint .near).phase half = .gone) ∧
      (((Trace.run (step Rmp.messagePack) connected newsFarewell).endpoint .near).acked.map
        fun message => message.intoMessage Rmp.messagePack).Sublist ([newsFrame.message].map .ok) :=
  concluded_run Rmp.messagePack newsFarewell .near [newsFrame.message] [] (by decide +kernel)

end Fleximq.Session
