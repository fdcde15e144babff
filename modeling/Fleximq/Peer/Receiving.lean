import Fleximq.Peer.Delivery

/-! # Room in the buffers

The codec refuses a chunk that does not fit beside what it has buffered. When the
reads are short and the messages leave that much room below the frame limit, no
chunk is refused, and an acknowledged message can always be received.
-/
namespace Fleximq.Session
open Foundation Fleximq.Protocol Fleximq.Transport
open Foundation.Incremental (Decoder Link)

/-- The frame of the message, if it has one, leaves `room` bytes below the frame limit. -/
def Leaves (rmp : Rmp) (room : Nat) (message : RawMessage) : Prop :=
  ∀ m, message.intoMessage rmp = .ok m → m.rawBytes.length + room ≤ defaultMaxMessageSize.toNat

def Action.Bounded (rmp : Rmp) (room : Nat) : Action → Prop
  | .read n => n ≤ room
  | .send message => Leaves rmp room message
  | _ => True

variable {rmp : Rmp} {room : Nat} {closed : Bool} {half : Half} {v v' : View} {action : Action}

/-! ## The sending side -/

structure Endpoint.Small (rmp : Rmp) (room : Nat) (e : Endpoint) : Prop where
  accepted : ∀ message ∈ e.accepted, Leaves rmp room message
  unencoded : ∀ half message, (e.phase half).unencoded = some message → Leaves rmp room message
  writeBuffer : e.framed.writeBuffer.length < backpressureBoundary + defaultMaxMessageSize.toNat

theorem Endpoint.Small.turn {e : Endpoint} (h : e.Small rmp room) (half : Half) (phase : Phase)
    (hPhase : ∀ message, phase.unencoded = some message → Leaves rmp room message) :
    (e.turn half phase).Small rmp room := by
  refine ⟨h.accepted, ?_, h.writeBuffer⟩
  intro half' message hSome
  rw [turn_phase] at hSome
  split at hSome
  · exact hPhase message hSome
  · exact h.unencoded half' message hSome

theorem rawBytes_le {m : Message} (h : frames.Delivers m.rawBytes m) :
    m.rawBytes.length ≤ defaultMaxMessageSize.toNat :=
  (MessageParser.accepted_of_deliver h).length_le

theorem Acts.small (h : Acts rmp closed half v action v') (hBounded : action.Bounded rmp room)
    (hSmall : v.endpoint.Small rmp room) : v'.endpoint.Small rmp room := by
  have hIdle := hSmall.turn half .idle fun _ hNone => by cases hNone
  cases h with
  | @turns _ phase _ hSends =>
    apply hSmall.turn half phase
    intro message hSome
    obtain rfl := hSends message hSome
    exact hBounded
  | @sendLocks message hWaits _ =>
    apply hSmall.turn half (.feeding message)
    intro message' hSome
    cases hSome
    exact hSmall.unencoded half message (by rw [hWaits]; rfl)
  | receiveLocks _ => exact hSmall.turn half .receiving fun _ hNone => by cases hNone
  | @feeds message m hFeeding _ hDelivers hReady =>
    have hTurn := hSmall.turn half (.flushing message) fun _ hNone => by cases hNone
    refine ⟨?_, hTurn.unencoded, ?_⟩
    · intro message' hMem
      rcases List.mem_append.mp hMem with hOld | hNew
      · exact hSmall.accepted message' hOld
      · obtain rfl := List.mem_singleton.mp hNew
        exact hSmall.unencoded half message' (by rw [hFeeding]; rfl)
    · change (v.endpoint.framed.writeBuffer ++ m.rawBytes).length < _
      have hLength := rawBytes_le hDelivers
      rw [List.length_append]
      omega
  | @writes n =>
    refine ⟨hSmall.accepted, hSmall.unencoded, ?_⟩
    change (v.endpoint.framed.writeBuffer.drop n).length < _
    exact Nat.lt_of_le_of_lt (by rw [List.length_drop]; exact Nat.sub_le _ _) hSmall.writeBuffer
  | finishes _ _ => exact ⟨hIdle.accepted, hIdle.unencoded, hIdle.writeBuffer⟩
  | receives _ hReceives =>
    cases hReceives with
    | gets _ _ => exact ⟨hSmall.accepted, hSmall.unencoded, hSmall.writeBuffer⟩
    | ends _ _ _ => exact ⟨hSmall.accepted, hSmall.unencoded, hSmall.writeBuffer⟩
    | waits _ => exact ⟨hSmall.accepted, hSmall.unencoded, hSmall.writeBuffer⟩
    | _ => exact ⟨hIdle.accepted, hIdle.unencoded, hIdle.writeBuffer⟩

/-! ## The receiving side -/

/-- A pause leaves nothing unread, and the codec holds less than a message before it reads on. -/
structure Framed.Tidy (f : Framed) : Prop where
  errored : f.hasErrored = true → f.isReadable = false
  paused : f.isReadable = false → f.readBuffer = []
  waits : f.isReadable = false ∨ f.readBuffer ≠ [] → frames.verdict f.codec.parser.buffer = .wait
  arrived_le : f.arrived.length ≤ defaultMaxMessageSize.toNat

theorem Framed.Tidy.admits {f : Framed} (h : f.Tidy) (hLimits : f.HasDefaultLimits) :
    f.codec.Admits f.readBuffer := by
  have hLength := h.arrived_le
  rw [arrived, List.length_append] at hLength
  rw [hLimits]
  refine ⟨?_, .inr hLength⟩
  change f.readBuffer.length ≤ defaultMaxMessageSize.toNat
  omega

section
variable {sender receiver : Endpoint} {wire : List UInt8} {l : Link UInt8 Message}

theorem Carries.leaves (h : Carries rmp sender wire receiver l)
    (hSmall : ∀ message ∈ sender.accepted, Leaves rmp room message) :
    ∀ m ∈ l.accepted, m.rawBytes.length + room ≤ defaultMaxMessageSize.toNat := by
  intro m hMem
  have hAccepted : .ok m ∈ sender.accepted.map fun message => message.intoMessage rmp := by
    rw [h.accepted]
    exact List.mem_map_of_mem hMem
  obtain ⟨message, hMessage, hOk⟩ := List.mem_map.mp hAccepted
  exact hSmall message hMessage m hOk

/-- There is room for what is read while the codec waits. -/
theorem Carries.fits (h : Carries rmp sender wire receiver l) (hLink : l.Sound frames Message.rawBytes)
    (hSmall : ∀ message ∈ sender.accepted, Leaves rmp room message)
    (hWait : frames.verdict receiver.framed.codec.parser.buffer = .wait)
    (hRead : receiver.framed.readBuffer ≠ []) :
    receiver.framed.codec.parser.buffer.length + room ≤ defaultMaxMessageSize.toNat := by
  obtain ⟨pending, hAccepted, _⟩ := hLink.conserved
  have hArrived := h.arrived
  rw [Framed.arrived] at hArrived
  cases pending with
  | nil =>
    rw [List.append_nil] at hAccepted
    rw [hLink.arrived_nil hAccepted] at hArrived
    exact absurd (List.append_eq_nil_iff.mp hArrived).2 hRead
  | cons first later =>
    have hFront : receiver.framed.codec.parser.buffer <+: l.arrived := ⟨_, hArrived⟩
    have hShort := hLink.front_lt hFront hWait hAccepted
    have hFirst := h.leaves hSmall first (by rw [hAccepted]; simp)
    omega

theorem Receives.tidy (h : Receives closed half v action v') (hBounded : action.Bounded rmp room)
    (hCarries : Carries rmp sender v'.inbound v'.endpoint l) (hLink : l.Sound frames Message.rawBytes)
    (hSmall : ∀ message ∈ sender.accepted, Leaves rmp room message)
    (hLimits : v.endpoint.framed.HasDefaultLimits) (hTidy : v.endpoint.framed.Tidy) :
    v'.endpoint.framed.Tidy := by
  cases h with
  | @gets n hErrored hPaused =>
    have hEmpty := hTidy.paused hPaused
    have hWait := hTidy.waits (.inl hPaused)
    refine ⟨fun hError => ?_, fun hSame => ?_, fun _ => hWait, ?_⟩
    · cases hErrored.symm.trans hError
    · cases hSame
    · change (v.endpoint.framed.codec.parser.buffer ++
        (v.endpoint.framed.readBuffer ++ v.inbound.take n)).length ≤ _
      rw [hEmpty, List.nil_append, List.length_append]
      by_cases hNone : v.inbound.take n = []
      · rw [hNone]
        have hLength := hTidy.arrived_le
        rw [Framed.arrived, hEmpty] at hLength
        rwa [List.length_append] at hLength
      · have hRead : v.endpoint.framed.readBuffer ++ v.inbound.take n ≠ [] := by
          rw [hEmpty]
          exact hNone
        have hRoom := hCarries.fits hLink hSmall hWait hRead
        have hTake : (v.inbound.take n).length ≤ room :=
          Nat.le_trans (by rw [List.length_take]; exact Nat.min_le_left _ _) hBounded
        change v.endpoint.framed.codec.parser.buffer.length + room ≤ _ at hRoom
        omega
  | ends hErrored _ _ =>
    refine ⟨fun hError => ?_, fun hSame => ?_, fun hSome => ?_, hTidy.arrived_le⟩
    · cases hErrored.symm.trans hError
    · cases hSame
    · rcases hSome with hSame | hRead
      · cases hSame
      · exact hTidy.waits (.inr hRead)
  | breaks hPaused => exact ⟨fun _ => hPaused, hTidy.paused, hTidy.waits, hTidy.arrived_le⟩
  | closes _ _ _ => exact hTidy
  | refuses hRefused => exact absurd (hTidy.admits hLimits) hRefused
  | waits hWait =>
    refine ⟨fun _ => rfl, fun _ => rfl, fun _ => hWait, ?_⟩
    change (v.endpoint.framed.arrived ++ []).length ≤ _
    rw [List.append_nil]
    exact hTidy.arrived_le
  | concludes hWait _ =>
    refine ⟨fun _ => rfl, fun _ => rfl, fun _ => hWait, ?_⟩
    change (v.endpoint.framed.arrived ++ []).length ≤ _
    rw [List.append_nil]
    exact hTidy.arrived_le
  | @delivers m n hErrored hReadable _ =>
    refine ⟨fun hError => ?_, fun hPaused => ?_, fun hSome => ?_, ?_⟩
    · cases hErrored.symm.trans hError
    · cases hReadable.symm.trans hPaused
    · rcases hSome with hPaused | hRead
      · cases hReadable.symm.trans hPaused
      · exact absurd rfl hRead
    · change (v.endpoint.framed.arrived.drop n ++ []).length ≤ _
      have hLength := hTidy.arrived_le
      rw [List.append_nil, List.length_drop]
      omega
  | stops hErrored =>
    have hPaused := hTidy.errored hErrored
    refine ⟨fun hSame => ?_, fun _ => hTidy.paused hPaused, fun _ => hTidy.waits (.inl hPaused), hTidy.arrived_le⟩
    cases hSame

theorem Acts.tidy (h : Acts rmp closed half v action v') (hBounded : action.Bounded rmp room)
    (hCarries : Carries rmp sender v'.inbound v'.endpoint l) (hLink : l.Sound frames Message.rawBytes)
    (hSmall : ∀ message ∈ sender.accepted, Leaves rmp room message)
    (hLimits : v.endpoint.framed.HasDefaultLimits) (hTidy : v.endpoint.framed.Tidy) :
    v'.endpoint.framed.Tidy := by
  cases h with
  | receives _ hReceives => exact hReceives.tidy hBounded hCarries hLink hSmall hLimits hTidy
  | _ => exact ⟨hTidy.errored, hTidy.paused, hTidy.waits, hTidy.arrived_le⟩

end

/-- The only protocol errors are those of the reads themselves. -/
def OnlyIo (received : List (Except TransportError Message)) : Prop :=
  ∀ e, .error (.protocol e) ∈ received → ∃ text, e = .io text

theorem OnlyIo.append {received : List (Except TransportError Message)} (h : OnlyIo received)
    {result : Except TransportError Message}
    (hResult : ∀ e, result = .error (.protocol e) → ∃ text, e = .io text) : OnlyIo (received ++ [result]) := by
  intro e hMem
  rcases List.mem_append.mp hMem with hOld | hNew
  · exact h e hOld
  · exact hResult e (List.mem_singleton.mp hNew).symm

theorem Receives.onlyIo (h : Receives closed half v action v') (hLimits : v.endpoint.framed.HasDefaultLimits)
    (hTidy : v.endpoint.framed.Tidy) (hOnly : OnlyIo v.endpoint.received) : OnlyIo v'.endpoint.received := by
  cases h with
  | gets _ _ => exact hOnly
  | ends _ _ _ => exact hOnly
  | waits _ => exact hOnly
  | refuses hRefused => exact absurd (hTidy.admits hLimits) hRefused
  | @breaks text _ =>
    apply hOnly.append
    intro e hSame
    cases hSame
    exact ⟨text, rfl⟩
  | closes _ _ _ => exact hOnly.append fun e hSame => by cases hSame
  | concludes _ _ => exact hOnly.append fun e hSame => by cases hSame
  | delivers _ _ _ => exact hOnly.append fun e hSame => by cases hSame
  | stops _ => exact hOnly.append fun e hSame => by cases hSame

theorem Acts.onlyIo (h : Acts rmp closed half v action v') (hLimits : v.endpoint.framed.HasDefaultLimits)
    (hTidy : v.endpoint.framed.Tidy) (hOnly : OnlyIo v.endpoint.received) : OnlyIo v'.endpoint.received := by
  cases h with
  | receives _ hReceives => exact hReceives.onlyIo hLimits hTidy hOnly
  | _ => exact hOnly

/-! ## Runs -/

structure State.Roomy (rmp : Rmp) (room : Nat) (s : State) : Prop where
  sound : s.Sound rmp
  small : ∀ side, (s.endpoint side).Small rmp room
  tidy : ∀ side, (s.endpoint side).framed.Tidy
  onlyIo : ∀ side, OnlyIo (s.endpoint side).received

variable {s : State}

theorem roomy_step (s : State) (event : Event) (h : s.Roomy rmp room)
    (hBounded : event.action.Bounded rmp room) : (step rmp s event).Roomy rmp room := by
  have hSound := sound_step s event h.sound
  rcases step_cases h.sound event with hSame | ⟨v, hStep, _, hActs⟩
  · rw [hSame]
    exact h
  · rw [hStep] at hSound ⊢
    have hSmall := hActs.small hBounded (h.small event.side)
    have hTidy : v.endpoint.framed.Tidy := by
      obtain ⟨l, hCarries, hLink⟩ := hSound.link event.side.other
      rw [Side.other_other, State.update_endpoint, State.update_endpoint_other,
        State.update_wire_other] at hCarries
      exact hActs.tidy hBounded hCarries hLink (h.small event.side.other).accepted
        (h.sound.limits event.side) (h.tidy event.side)
    have hOnly := hActs.onlyIo (h.sound.limits event.side) (h.tidy event.side) (h.onlyIo event.side)
    refine ⟨hSound, fun direction => ?_, fun direction => ?_, fun direction => ?_⟩
    all_goals
      rcases event.side.eq_or direction with rfl | rfl
    · rwa [State.update_endpoint]
    · rw [State.update_endpoint_other]
      exact h.small _
    · rwa [State.update_endpoint]
    · rw [State.update_endpoint_other]
      exact h.tidy _
    · rwa [State.update_endpoint]
    · rw [State.update_endpoint_other]
      exact h.onlyIo _

theorem roomy_connected (rmp : Rmp) (room : Nat) : connected.Roomy rmp room where
  sound := State.sound_connected rmp
  small _ := ⟨fun _ hMem => absurd hMem List.not_mem_nil, fun _ _ hNone => (by cases hNone),
    (by decide : 0 < backpressureBoundary + defaultMaxMessageSize.toNat)⟩
  tidy _ := ⟨fun _ => rfl, fun _ => rfl,
    fun _ => MessageParser.verdict_nil defaultMaxMessageSize defaultMaxHeaderSize, Nat.zero_le _⟩
  onlyIo _ := fun _ hMem => absurd hMem List.not_mem_nil

theorem roomy_run {events : List Event} (hBounded : ∀ event ∈ events, event.action.Bounded rmp room) :
    (Trace.run (step rmp) connected events).Roomy rmp room :=
  Trace.run_invariant_of_forall roomy_step (roomy_connected rmp room) hBounded

/-- With reads of at most `room` bytes and messages that leave them room, no message is refused for
its size, and no buffer grows beyond a message and what may be written beside it. -/
theorem buffers_bounded {events : List Event} (hBounded : ∀ event ∈ events, event.action.Bounded rmp room)
    (side : Side) :
    OnlyIo ((Trace.run (step rmp) connected events).endpoint side).received ∧
      ((Trace.run (step rmp) connected events).endpoint side).framed.arrived.length ≤
        defaultMaxMessageSize.toNat ∧
      ((Trace.run (step rmp) connected events).endpoint side).framed.writeBuffer.length <
        backpressureBoundary + defaultMaxMessageSize.toNat := by
  have hRoomy := roomy_run hBounded
  exact ⟨hRoomy.onlyIo side, (hRoomy.tidy side).arrived_le, (hRoomy.small side).writeBuffer⟩

theorem newsMessage_leaves : Leaves Rmp.messagePack 64 newsMessage := by
  have hNews : newsMessage.intoMessage Rmp.messagePack = .ok newsFrame.message := by decide +kernel
  intro m hMessage
  obtain rfl := Except.ok.inj (hNews.symm.trans hMessage)
  decide

theorem newsEvents_bounded : ∀ event ∈ newsEvents, event.action.Bounded Rmp.messagePack 64 := by
  simp [newsEvents, Action.Bounded, newsMessage_leaves]

theorem newsEvents_buffers :
    OnlyIo ((Trace.run (step Rmp.messagePack) connected newsEvents).endpoint .far).received ∧
      ((Trace.run (step Rmp.messagePack) connected newsEvents).endpoint .far).framed.arrived.length ≤
        defaultMaxMessageSize.toNat ∧
      ((Trace.run (step Rmp.messagePack) connected newsEvents).endpoint .far).framed.writeBuffer.length <
        backpressureBoundary + defaultMaxMessageSize.toNat :=
  buffers_bounded newsEvents_bounded .far

/-! ## The next message -/

/-- An event of the half that receives at the end: it decodes, or it reads as much as it may. -/
def Event.Continues (room : Nat) (side : Side) (half : Half) (event : Event) : Prop :=
  event.side = side ∧ event.half = half ∧ (event.action = .decode ∨ event.action = .read room)

theorem View.act_receiving (hReceiving : v.endpoint.phase half = .receiving) (hAction : action ≠ .cancel) :
    v.act rmp closed half action = v.next closed half action := by
  unfold View.act
  rw [hReceiving]
  cases action with
  | cancel => exact absurd rfl hAction
  | _ => rfl

theorem step_receiving (rmp : Rmp) {side : Side} {half : Half} (hReceiving : (s.endpoint side).phase half = .receiving)
    (action : Action) (hAction : action ≠ .cancel) :
    step rmp s ⟨side, half, action⟩ =
      s.update side ((s.view side).next (s.endpoint side.other).isClosed half action) := by
  rw [step, View.act_receiving hReceiving hAction]

theorem View.read_eq {v : View} (hErrored : v.endpoint.framed.hasErrored = false)
    (hPaused : v.endpoint.framed.isReadable = false) {n : Nat} (hSome : 0 < n) (hInbound : v.inbound ≠ []) :
    v.read n = { v.reframe { v.endpoint.framed with
      readBuffer := v.endpoint.framed.readBuffer ++ v.inbound.take n, isReadable := true, eof := false } with
      inbound := v.inbound.drop n } := by
  rw [View.read, if_pos]
  simp [hErrored, hPaused, hSome, hInbound]

theorem Carries.flushed_lt {sender receiver : Endpoint} {wire : List UInt8} {l : Link UInt8 Message}
    (h : Carries rmp sender wire receiver l) (hLink : l.Sound frames Message.rawBytes)
    (hMissing : ¬ Complete rmp sender receiver) : l.delivered.length < l.flushed := by
  by_contra hMore
  apply hMissing
  apply h.complete_of_flushed
  apply List.prefix_of_prefix_length_le (List.take_prefix _ _) hLink.delivered_isPrefix
  rw [List.length_take]
  omega

theorem View.decode_deliver {v : View} (hErrored : v.endpoint.framed.hasErrored = false)
    (hReadable : v.endpoint.framed.isReadable = true) {codec : MessageCodec} {rest : List UInt8} {m : Message}
    (hDecode : v.endpoint.framed.codec.decode v.endpoint.framed.readBuffer = (codec, rest, .ok (some m)))
    (half : Half) :
    v.decode half = v.returns half { v.endpoint.framed with codec := codec, readBuffer := rest } (.ok m) := by
  have hEof : decodeEof v.endpoint.framed.codec v.endpoint.framed.readBuffer =
      v.endpoint.framed.codec.decode v.endpoint.framed.readBuffer := decodeEof_eq _ _
  rw [View.decode, if_pos (by simp [hErrored, hReadable]), hEof, hDecode, ite_self]

theorem View.decode_wait {v : View} (hErrored : v.endpoint.framed.hasErrored = false)
    (hReadable : v.endpoint.framed.isReadable = true) (hEof : v.endpoint.framed.eof = false)
    {codec : MessageCodec} {rest : List UInt8}
    (hDecode : v.endpoint.framed.codec.decode v.endpoint.framed.readBuffer = (codec, rest, .ok none))
    (half : Half) :
    v.decode half = v.reframe { v.endpoint.framed with
      codec := codec, readBuffer := rest, isReadable := false } := by
  have hOpen : ¬ v.endpoint.framed.eof = true := by simp [hEof]
  rw [View.decode, if_pos (by simp [hErrored, hReadable]), if_neg hOpen, hDecode]

/-- The half is in `next`, no failure is to be reported, and an acknowledged message is missing. -/
structure Waiting (rmp : Rmp) (room : Nat) (side : Side) (half : Half) (s : State) : Prop where
  reads : s.Reads rmp
  roomy : s.Roomy rmp room
  receiving : (s.endpoint side).phase half = .receiving
  errored : (s.endpoint side).framed.hasErrored = false
  missing : ¬ Complete rmp (s.endpoint side.other) (s.endpoint side)

/-- What is left to read, and whether there is something to decode. -/
def State.remaining (side : Side) (s : State) : Nat :=
  2 * (s.wire side.other).length + (s.endpoint side).framed.isReadable.toNat

namespace Waiting
variable {side : Side} {half : Half} (h : Waiting rmp room side half s)
include h

/-- The bytes of the next message have been written. -/
theorem written : ∃ n, n ≤ (s.endpoint side).framed.arrived.length + (s.wire side.other).length ∧
    (frames.verdict (s.endpoint side).framed.arrived = .wait →
      (s.endpoint side).framed.arrived.length < n) := by
  obtain ⟨l, hCarries, hLink⟩ := h.reads.sound.link side.other
  rw [Side.other_other] at hCarries
  obtain ⟨first, later, hAccepted, hWritten⟩ := hLink.first_written (hCarries.flushed_lt hLink h.missing)
  rw [hCarries.arrived, hCarries.underway]
  exact ⟨first.rawBytes.length, hWritten, fun hWait => hLink.front_lt List.prefix_rfl hWait hAccepted⟩

theorem update {v : View} (hAction : action = .decode ∨ action = .read room)
    (hStep : step rmp s ⟨side, half, action⟩ = s.update side v)
    (hPhase : v.endpoint.phase half = .receiving) (hFree : v.endpoint.framed.hasErrored = false)
    (hSame : v.endpoint.received = (s.endpoint side).received) :
    Waiting rmp room side half (step rmp s ⟨side, half, action⟩) := by
  have hBounded : action.Bounded rmp room := by
    rcases hAction with rfl | rfl
    · trivial
    · exact Nat.le_refl room
  refine ⟨reads_step s _ h.reads, roomy_step s _ h.roomy hBounded, ?_, ?_, ?_⟩
  · rwa [hStep, State.update_endpoint]
  · rwa [hStep, State.update_endpoint]
  · rw [hStep, State.update_endpoint, State.update_endpoint_other, Complete, hSame]
    exact h.missing

/-- `decode` returns the next message, or there is more to read. -/
theorem decodes (hReadable : (s.endpoint side).framed.isReadable = true) :
    (∃ m, ((step rmp s ⟨side, half, .decode⟩).endpoint side).received =
      (s.endpoint side).received ++ [.ok m]) ∨
    Waiting rmp room side half (step rmp s ⟨side, half, .decode⟩) ∧
      ((step rmp s ⟨side, half, .decode⟩).endpoint side).received = (s.endpoint side).received ∧
      (step rmp s ⟨side, half, .decode⟩).remaining side < s.remaining side := by
  have hStep := step_receiving rmp h.receiving .decode nofun
  rcases decode_cases (h.reads.sound.limits side) (h.reads.sound.not_fail side) with
    ⟨hRefused, _⟩ | ⟨hWait, hDecode⟩ | ⟨m, n, _, hDecode⟩
  · exact absurd ((h.roomy.tidy side).admits (h.reads.sound.limits side)) hRefused
  · right
    obtain ⟨n, hWritten, hShort⟩ := h.written
    have hEof : (s.endpoint side).framed.eof = false := by
      apply Bool.eq_false_of_not_eq_true
      intro hEof
      have hReading := h.reads.reading side.other
      rw [Side.other_other] at hReading
      rw [(hReading.eof hEof).2, List.length_nil] at hWritten
      have hLess := hShort hWait
      omega
    rw [View.next, View.decode_wait (v := s.view side) h.errored hReadable hEof hDecode] at hStep
    refine ⟨h.update (.inl rfl) hStep h.receiving h.errored rfl, ?_, ?_⟩
    · rw [hStep, State.update_endpoint]
      rfl
    · rw [hStep, State.remaining, State.remaining, State.update_endpoint, State.update_wire_other, hReadable]
      exact Nat.lt_succ_self _
  · left
    rw [View.next, View.decode_deliver (v := s.view side) h.errored hReadable hDecode] at hStep
    refine ⟨m, ?_⟩
    rw [hStep, State.update_endpoint]
    rfl

theorem readsMore (hRoom : 0 < room) (hPaused : (s.endpoint side).framed.isReadable = false) :
    Waiting rmp room side half (step rmp s ⟨side, half, .read room⟩) ∧
      ((step rmp s ⟨side, half, .read room⟩).endpoint side).received = (s.endpoint side).received ∧
      (step rmp s ⟨side, half, .read room⟩).remaining side < s.remaining side := by
  have hStep := step_receiving rmp h.receiving (.read room) nofun
  have hTidy := h.roomy.tidy side
  obtain ⟨n, hWritten, hShort⟩ := h.written
  have hInbound : 0 < (s.wire side.other).length := by
    have hWait : frames.verdict (s.endpoint side).framed.arrived = .wait := by
      rw [Framed.arrived, hTidy.paused hPaused, List.append_nil]
      exact hTidy.waits (.inl hPaused)
    have hLess := hShort hWait
    omega
  rw [View.next, View.read_eq (v := s.view side) h.errored hPaused hRoom
    (List.ne_nil_of_length_pos hInbound)] at hStep
  refine ⟨h.update (.inr rfl) hStep h.receiving h.errored rfl, ?_, ?_⟩
  · rw [hStep, State.update_endpoint]
    rfl
  · rw [hStep, State.remaining, State.remaining, State.update_endpoint, State.update_wire_other, hPaused]
    change 2 * ((s.wire side.other).drop room).length + 1 < 2 * (s.wire side.other).length + 0
    rw [List.length_drop]
    omega

theorem exists_continuation (hRoom : 0 < room) :
    ∃ more, (∀ event ∈ more, event.Continues room side half) ∧
      ∃ m, ((Trace.run (step rmp) s more).endpoint side).received = (s.endpoint side).received ++ [.ok m] := by
  induction hMeasure : s.remaining side using Nat.strongRecOn generalizing s with
  | ind measure ih =>
    have hGoOn {action : Action} (hAction : action = .decode ∨ action = .read room)
        (hWaits : Waiting rmp room side half (step rmp s ⟨side, half, action⟩) ∧
          ((step rmp s ⟨side, half, action⟩).endpoint side).received = (s.endpoint side).received ∧
          (step rmp s ⟨side, half, action⟩).remaining side < s.remaining side) :
        ∃ more, (∀ event ∈ more, event.Continues room side half) ∧
          ∃ m, ((Trace.run (step rmp) s more).endpoint side).received =
            (s.endpoint side).received ++ [.ok m] := by
      obtain ⟨hNext, hSame, hLess⟩ := hWaits
      obtain ⟨more, hMore, m, hReceived⟩ := ih _ (hMeasure ▸ hLess) hNext rfl
      refine ⟨⟨side, half, action⟩ :: more, ?_, m, hReceived.trans (by rw [hSame])⟩
      intro event hMem
      rcases List.mem_cons.mp hMem with rfl | hMem
      · exact ⟨rfl, rfl, hAction⟩
      · exact hMore event hMem
    cases hReadable : (s.endpoint side).framed.isReadable with
    | true =>
      rcases h.decodes hReadable with ⟨m, hReceived⟩ | hWaits
      · refine ⟨[⟨side, half, .decode⟩], ?_, m, hReceived⟩
        intro event hMem
        obtain rfl := List.mem_singleton.mp hMem
        exact ⟨rfl, rfl, .inl rfl⟩
      · exact hGoOn (.inl rfl) hWaits
    | false => exact hGoOn (.inr rfl) (h.readsMore hRoom hReadable)

end Waiting

/-- While an acknowledged message is missing, a half that is in `next` can return the next message by
its own reads alone. -/
theorem returns_next {events : List Event} (hRoom : 0 < room)
    (hBounded : ∀ event ∈ events, event.action.Bounded rmp room) {side : Side} {half : Half}
    (hReceiving : ((Trace.run (step rmp) connected events).endpoint side).phase half = .receiving)
    (hErrored : ((Trace.run (step rmp) connected events).endpoint side).framed.hasErrored = false)
    (hMissing : ¬ Complete rmp ((Trace.run (step rmp) connected events).endpoint side.other)
      ((Trace.run (step rmp) connected events).endpoint side)) :
    ∃ more, (∀ event ∈ more, event.Continues room side half) ∧
      ∃ m, ((Trace.run (step rmp) connected (events ++ more)).endpoint side).received =
        ((Trace.run (step rmp) connected events).endpoint side).received ++ [.ok m] := by
  have hWaiting : Waiting rmp room side half (Trace.run (step rmp) connected events) :=
    ⟨reads_run rmp events, roomy_run hBounded, hReceiving, hErrored, hMissing⟩
  obtain ⟨more, hMore, m, hReceived⟩ := hWaiting.exists_continuation hRoom
  refine ⟨more, hMore, m, ?_⟩
  rw [Trace.run_append]
  exact hReceived

theorem newsEvents_returns :
    ∃ more, (∀ event ∈ more, event.Continues 64 .far .server) ∧
      ∃ m, ((Trace.run (step Rmp.messagePack) connected (newsEvents ++ more)).endpoint .far).received =
        ((Trace.run (step Rmp.messagePack) connected newsEvents).endpoint .far).received ++ [.ok m] := by
  have hMissing : ¬ Complete Rmp.messagePack
      ((Trace.run (step Rmp.messagePack) connected newsEvents).endpoint .near)
      ((Trace.run (step Rmp.messagePack) connected newsEvents).endpoint .far) := by
    unfold Complete
    decide +kernel
  exact returns_next (by decide) newsEvents_bounded rfl (by decide +kernel) hMissing

end Fleximq.Session
