import Fleximq.Foundation.Link
import Fleximq.Peer.Session

/-! # The directions of a session

Each direction of a session is a link: the encoder puts frames into the write
buffer, and the codec of the other end takes messages from what has arrived. A
step of the session is a step of the link or leaves it as it is.
-/
namespace Fleximq.Protocol
open Foundation

theorem FrameDecoder.decode_ok_src {d d' : FrameDecoder} {src src' : List UInt8} {m : Option Message}
    (h : d.decode src = (d', src', .ok m)) : src' = [] := by
  by_cases hAdmits : d.Admits src
  · rw [decode_of_admits hAdmits] at h
    exact (congrArg (fun answer => answer.2.1) h).symm
  · obtain ⟨size, max, hDecode⟩ := decode_of_not_admits hAdmits
    rw [hDecode] at h
    cases h

/-- The decoder leaves nothing in `src`, so that the end of the stream adds no error. -/
theorem decodeEof_eq (d : FrameDecoder) (src : List UInt8) : decodeEof d src = d.decode src :=
  decodeEof_lawful.otherwise fun _ _ hDecode => FrameDecoder.decode_ok_src hDecode

end Fleximq.Protocol

namespace Fleximq.Session
open Foundation Fleximq.Protocol Fleximq.Transport
open Foundation.Incremental (Decoder Link)

/-! ## The codec -/

abbrev frames : Decoder UInt8 ProtocolError Message :=
  MessageParser.decoder defaultMaxMessageSize defaultMaxHeaderSize

def Framed.arrived (f : Framed) : List UInt8 := f.codec.parser.buffer ++ f.readBuffer

def Framed.HasDefaultLimits (f : Framed) : Prop :=
  f.codec = FrameDecoder.withBuffer MessageCodec.new f.codec.parser.buffer

/-- What the encoder takes is one frame, as the other end decodes it. -/
theorem encode_ok {rmp : Rmp} {f : Framed} (hLimits : f.HasDefaultLimits) {message : RawMessage}
    {dst dst' : List UInt8} (h : f.codec.encode rmp message dst = (dst', .ok ())) :
    ∃ m, message.intoMessage rmp = .ok m ∧ dst' = dst ++ m.rawBytes ∧ frames.Delivers m.rawBytes m := by
  rw [hLimits, MessageCodec.encode, encodeRaw] at h
  cases hBytes : message.toBytes rmp with
  | error e =>
    rw [hBytes] at h
    cases h
  | ok bytes =>
    rw [hBytes] at h
    change putFrame defaultMaxMessageSize bytes dst = _ at h
    rw [putFrame] at h
    split at h
    · cases h
    · rename_i hFrame
      cases h
      have hSmall : bytes.length < 2 ^ 32 := Nat.lt_of_le_of_lt (Nat.not_lt.mp hFrame) (by decide)
      obtain ⟨headerBytes, hHeader, hLayOut⟩ := bind_eq_ok.mp hBytes
      obtain ⟨_, _, hLaidOut⟩ := RawMessage.layOut_eq_ok.mp hLayOut
      have hLength : bytes.length = _ := (congrArg List.length hLaidOut).trans
        (message.laidOut_length headerBytes)
      have hLimit : headerBytes.length < 2 ^ 32 := by omega
      obtain ⟨rfl, hHeaderSize, hSize⟩ := RawMessage.toBytes_frame hHeader hLimit hBytes
      have hWithin : (message.frame headerBytes hLimit).Within defaultMaxMessageSize defaultMaxHeaderSize :=
        ⟨hHeaderSize, hSize⟩
      refine ⟨(message.frame headerBytes hLimit).message, ?_, rfl,
        MessageParser.delivers_of_within (by decide) hWithin⟩
      exact bind_eq_ok.mpr ⟨_, hBytes, Frame.fromBytes_bytes hWithin.size_lt⟩

theorem encode_error {rmp : Rmp} {c : MessageCodec} {message : RawMessage} {dst dst' : List UInt8}
    {e : ProtocolError} (h : c.encode rmp message dst = (dst', .error e)) : dst' = dst := by
  rw [MessageCodec.encode, encodeRaw] at h
  cases hBytes : message.toBytes rmp with
  | error e' =>
    rw [hBytes] at h
    cases h
    rfl
  | ok bytes =>
    rw [hBytes] at h
    dsimp only at h
    rw [putFrame] at h
    split at h
    · cases h
      rfl
    · cases h

/-- All that `decode` can do with the front of a stream of frames. -/
theorem decode_cases {f : Framed} (hLimits : f.HasDefaultLimits)
    (hSound : ∀ e, frames.verdict f.arrived ≠ .fail e) :
    (¬ f.codec.Admits f.readBuffer ∧
      ∃ size max, f.codec.decode f.readBuffer = (f.codec, f.readBuffer, .error (.messageTooLarge size max))) ∨
    (frames.verdict f.arrived = .wait ∧
      f.codec.decode f.readBuffer = (MessageCodec.new.withBuffer f.arrived, [], .ok none)) ∨
    ∃ m n, frames.verdict f.arrived = .deliver m n ∧
      f.codec.decode f.readBuffer = (MessageCodec.new.withBuffer (f.arrived.drop n), [], .ok (some m)) := by
  by_cases hAdmits : f.codec.Admits f.readBuffer
  · right
    have hBytes : f.codec.bytes = frames := by rw [hLimits]; rfl
    have hCodec (rest : List UInt8) : f.codec.withBuffer rest = MessageCodec.new.withBuffer rest := by
      rw [hLimits]
      rfl
    cases hVerdict : frames.verdict f.arrived with
    | wait =>
      refine .inl ⟨rfl, ?_⟩
      rw [← hCodec]
      exact FrameDecoder.decode_wait hAdmits (by rw [hBytes]; exact hVerdict)
    | deliver m n =>
      refine .inr ⟨m, n, rfl, ?_⟩
      rw [← hCodec]
      exact FrameDecoder.decode_deliver hAdmits (by rw [hBytes]; exact hVerdict)
    | fail e => exact absurd hVerdict (hSound e)
  · exact .inl ⟨hAdmits, FrameDecoder.decode_of_not_admits hAdmits⟩

/-! ## What `next` does -/

inductive Receives (closed : Bool) (half : Half) (v : View) : Action → View → Prop where
  | gets {n} :
    v.endpoint.framed.hasErrored = false → v.endpoint.framed.isReadable = false →
    Receives closed half v (.read n)
      { v.reframe { v.endpoint.framed with
          readBuffer := v.endpoint.framed.readBuffer ++ v.inbound.take n, isReadable := true, eof := false } with
        inbound := v.inbound.drop n }
  | breaks {text} :
    v.endpoint.framed.isReadable = false →
    Receives closed half v (.readFails text)
      (v.returns half { v.endpoint.framed with hasErrored := true } (.error (.protocol (.io text))))
  | ends :
    v.endpoint.framed.hasErrored = false → closed = true → v.inbound = [] →
    Receives closed half v .readEnd (v.reframe { v.endpoint.framed with isReadable := true, eof := true })
  | closes :
    v.endpoint.framed.isReadable = false → closed = true → v.inbound = [] →
    Receives closed half v .readEnd (v.returns half v.endpoint.framed (.error .connectionClosed))
  | refuses {size max} :
    ¬ v.endpoint.framed.codec.Admits v.endpoint.framed.readBuffer →
    Receives closed half v .decode
      (v.returns half { v.endpoint.framed with hasErrored := true }
        (.error (.protocol (.messageTooLarge size max))))
  | waits :
    frames.verdict v.endpoint.framed.arrived = .wait →
    Receives closed half v .decode
      (v.reframe { v.endpoint.framed with
        codec := MessageCodec.new.withBuffer v.endpoint.framed.arrived, readBuffer := [], isReadable := false })
  | concludes :
    frames.verdict v.endpoint.framed.arrived = .wait → v.endpoint.framed.eof = true →
    Receives closed half v .decode
      (v.returns half { v.endpoint.framed with
        codec := MessageCodec.new.withBuffer v.endpoint.framed.arrived, readBuffer := [], isReadable := false }
        (.error .connectionClosed))
  | delivers {m n} :
    v.endpoint.framed.hasErrored = false → v.endpoint.framed.isReadable = true →
    frames.verdict v.endpoint.framed.arrived = .deliver m n →
    Receives closed half v .decode
      (v.returns half { v.endpoint.framed with
        codec := MessageCodec.new.withBuffer (v.endpoint.framed.arrived.drop n), readBuffer := [] } (.ok m))
  | stops :
    v.endpoint.framed.hasErrored = true →
    Receives closed half v .stop
      (v.returns half { v.endpoint.framed with isReadable := false, hasErrored := false }
        (.error .connectionClosed))

theorem View.decode_receives {v : View} (hLimits : v.endpoint.framed.HasDefaultLimits)
    (hSound : ∀ e, frames.verdict v.endpoint.framed.arrived ≠ .fail e)
    (hErrored : v.endpoint.framed.hasErrored = false) (hReadable : v.endpoint.framed.isReadable = true)
    (closed : Bool) (half : Half) : Receives closed half v .decode (v.decode half) := by
  have hEof : decodeEof v.endpoint.framed.codec v.endpoint.framed.readBuffer =
      v.endpoint.framed.codec.decode v.endpoint.framed.readBuffer := decodeEof_eq _ _
  rw [View.decode, if_pos (by simp [hErrored, hReadable]), hEof]
  rcases decode_cases hLimits hSound with ⟨hRefused, size, max, hDecode⟩ | ⟨hWait, hDecode⟩ |
    ⟨m, n, hDeliver, hDecode⟩
  · rw [hDecode]
    split <;> exact .refuses hRefused
  · rw [hDecode]
    split
    next hEof => exact .concludes hWait hEof
    next => exact .waits hWait
  · rw [hDecode]
    split <;> exact .delivers hErrored hReadable hDeliver

theorem next_cases {v : View} (hLimits : v.endpoint.framed.HasDefaultLimits)
    (hSound : ∀ e, frames.verdict v.endpoint.framed.arrived ≠ .fail e) (closed : Bool) (half : Half)
    (action : Action) :
    v.next closed half action = v ∨ Receives closed half v action (v.next closed half action) := by
  cases action with
  | read n =>
    rw [View.next, View.read]
    split
    next hReady =>
      simp only [Bool.and_eq_true, Bool.not_eq_true'] at hReady
      exact .inr (.gets hReady.1.1.1 hReady.1.1.2)
    next => exact .inl rfl
  | readFails text =>
    rw [View.next, View.readFails]
    split
    next hReady =>
      simp only [Bool.and_eq_true, Bool.not_eq_true'] at hReady
      exact .inr (.breaks hReady.2)
    next => exact .inl rfl
  | readEnd =>
    rw [View.next, View.readEnd]
    split
    next hReady =>
      simp only [Bool.and_eq_true, Bool.not_eq_true', List.isEmpty_iff] at hReady
      split
      next hEof => exact .inr (.closes hReady.1.1.2 hReady.1.2 hReady.2)
      next => exact .inr (.ends hReady.1.1.1 hReady.1.2 hReady.2)
    next => exact .inl rfl
  | decode =>
    by_cases hReady : (!v.endpoint.framed.hasErrored && v.endpoint.framed.isReadable) = true
    · simp only [Bool.and_eq_true, Bool.not_eq_true'] at hReady
      exact .inr (View.decode_receives hLimits hSound hReady.1 hReady.2 closed half)
    · left
      rw [View.next, View.decode, if_neg hReady]
  | stop =>
    rw [View.next, View.stop]
    split
    next hErrored => exact .inr (.stops hErrored)
    next => exact .inl rfl
  | _ => exact .inl rfl

/-! ## What an action does -/

def View.accept (v : View) (half : Half) (message : RawMessage) (bytes : List UInt8) : View :=
  { v with endpoint := { v.endpoint.turn half (.flushing message) with
      framed := { v.endpoint.framed with writeBuffer := v.endpoint.framed.writeBuffer ++ bytes }
      accepted := v.endpoint.accepted ++ [message] } }

/-- The message that is still to be encoded. -/
def Phase.unencoded : Phase → Option RawMessage
  | .sendWaits message => some message
  | .feeding message => some message
  | _ => none

inductive Acts (rmp : Rmp) (closed : Bool) (half : Half) (v : View) : Action → View → Prop where
  | turns {action phase} :
    phase.holdsGuard = false → (∀ message, phase.unencoded = some message → action = .send message) →
    Acts rmp closed half v action (v.turn half phase)
  | sendLocks {message} :
    v.endpoint.phase half = .sendWaits message → v.endpoint.unlocked = true →
    Acts rmp closed half v .lock (v.turn half (.feeding message))
  | receiveLocks :
    v.endpoint.unlocked = true → Acts rmp closed half v .lock (v.turn half .receiving)
  | feeds {message m} :
    v.endpoint.phase half = .feeding message → message.intoMessage rmp = .ok m →
    frames.Delivers m.rawBytes m → v.endpoint.framed.writeBuffer.length < backpressureBoundary →
    Acts rmp closed half v .feed (v.accept half message m.rawBytes)
  | writes {n} : Acts rmp closed half v (.write n) (v.write n)
  | finishes {message} :
    v.endpoint.phase half = .flushing message → v.endpoint.framed.writeBuffer = [] →
    Acts rmp closed half v .finish { v with
      endpoint := { v.endpoint.turn half .idle with acked := v.endpoint.acked ++ [message] } }
  | receives {action v'} :
    v.endpoint.phase half = .receiving → Receives closed half v action v' →
    Acts rmp closed half v action v'

theorem feed_cases {rmp : Rmp} {v : View} (hLimits : v.endpoint.framed.HasDefaultLimits) {half : Half}
    {message : RawMessage} (closed : Bool) (hFeeding : v.endpoint.phase half = .feeding message) :
    v.feed rmp half message = v ∨ Acts rmp closed half v .feed (v.feed rmp half message) := by
  rw [View.feed]
  split
  next hReady =>
    right
    split
    next dst hEncode =>
      obtain ⟨m, hMessage, rfl, hDelivers⟩ := encode_ok hLimits hEncode
      exact .feeds hFeeding hMessage hDelivers hReady
    next dst e hEncode =>
      rw [encode_error hEncode]
      exact .turns rfl fun _ hNone => by cases hNone
  next => exact .inl rfl

theorem act_cases {v : View} (hLimits : v.endpoint.framed.HasDefaultLimits)
    (hSound : ∀ e, frames.verdict v.endpoint.framed.arrived ≠ .fail e) (rmp : Rmp) (closed : Bool)
    {half : Half} (action : Action) :
    v.act rmp closed half action = v ∨
      v.endpoint.phase half ≠ .gone ∧ Acts rmp closed half v action (v.act rmp closed half action) := by
  unfold View.act
  cases hPhase : v.endpoint.phase half with
  | idle =>
    cases action with
    | send message => exact .inr ⟨nofun, .turns rfl fun _ hSome => by cases hSome; rfl⟩
    | receive => exact .inr ⟨nofun, .turns rfl fun _ hNone => by cases hNone⟩
    | disconnect => exact .inr ⟨nofun, .turns rfl fun _ hNone => by cases hNone⟩
    | _ => exact .inl rfl
  | sendWaits message =>
    cases action with
    | lock =>
      dsimp only
      split
      next hUnlocked => exact .inr ⟨nofun, .sendLocks hPhase hUnlocked⟩
      next => exact .inl rfl
    | cancel => exact .inr ⟨nofun, .turns rfl fun _ hNone => by cases hNone⟩
    | _ => exact .inl rfl
  | feeding message =>
    cases action with
    | feed =>
      rcases @feed_cases rmp v hLimits half message closed hPhase with hSame | hActs
      · exact .inl hSame
      · exact .inr ⟨nofun, hActs⟩
    | write n => exact .inr ⟨nofun, .writes⟩
    | writeFails => exact .inr ⟨nofun, .turns rfl fun _ hNone => by cases hNone⟩
    | cancel => exact .inr ⟨nofun, .turns rfl fun _ hNone => by cases hNone⟩
    | _ => exact .inl rfl
  | flushing message =>
    cases action with
    | write n => exact .inr ⟨nofun, .writes⟩
    | finish =>
      dsimp only
      split
      next hEmpty => exact .inr ⟨nofun, .finishes hPhase (List.isEmpty_iff.mp hEmpty)⟩
      next => exact .inl rfl
    | writeFails => exact .inr ⟨nofun, .turns rfl fun _ hNone => by cases hNone⟩
    | cancel => exact .inr ⟨nofun, .turns rfl fun _ hNone => by cases hNone⟩
    | _ => exact .inl rfl
  | receiveWaits =>
    cases action with
    | lock =>
      dsimp only
      split
      next hUnlocked => exact .inr ⟨nofun, .receiveLocks hUnlocked⟩
      next => exact .inl rfl
    | cancel => exact .inr ⟨nofun, .turns rfl fun _ hNone => by cases hNone⟩
    | _ => exact .inl rfl
  | receiving =>
    have hNext (action : Action) : v.next closed half action = v ∨
        (Phase.receiving ≠ .gone ∧ Acts rmp closed half v action (v.next closed half action)) := by
      rcases next_cases hLimits hSound closed half action with hSame | hReceives
      · exact .inl hSame
      · exact .inr ⟨nofun, .receives hPhase hReceives⟩
    cases action with
    | cancel => exact .inr ⟨nofun, .turns rfl fun _ hNone => by cases hNone⟩
    | _ => exact hNext _
  | gone => exact .inl rfl

/-! ## The guard -/

/-- One half at most holds the guard, and while it flushes, its message is the last that the encoder
took. -/
structure Endpoint.Guarded (e : Endpoint) : Prop where
  exclusive : ∀ half half', (e.phase half).holdsGuard = true → (e.phase half').holdsGuard = true →
    half = half'
  acked : e.acked.Sublist e.accepted
  flushing : ∀ half message, e.phase half = .flushing message →
    ∃ earlier, e.accepted = earlier ++ [message] ∧ e.acked.Sublist earlier

theorem Endpoint.unlocked_iff {e : Endpoint} :
    e.unlocked = true ↔ ∀ half, (e.phase half).holdsGuard = false := by
  rw [unlocked, Bool.and_eq_true, Bool.not_eq_true', Bool.not_eq_true']
  constructor
  · rintro ⟨hServer, hClient⟩ half
    cases half with
    | server => exact hServer
    | client => exact hClient
  · intro hFree
    exact ⟨hFree .server, hFree .client⟩

theorem Endpoint.turn_phase (e : Endpoint) (half half' : Half) (phase : Phase) :
    (e.turn half phase).phase half' = if half' = half then phase else e.phase half' :=
  Function.update_apply e.phase half phase half'

theorem Endpoint.Guarded.turn {e : Endpoint} (h : e.Guarded) (half : Half) (phase : Phase)
    (hFree : phase.holdsGuard = false) : (e.turn half phase).Guarded := by
  have hOld (half' : Half) (hHolds : ((e.turn half phase).phase half').holdsGuard = true) :
      (e.turn half phase).phase half' = e.phase half' := by
    rw [turn_phase] at hHolds ⊢
    split at hHolds
    · rw [hFree] at hHolds
      cases hHolds
    · rename_i hOther
      exact if_neg hOther
  refine ⟨?_, h.acked, ?_⟩
  · intro half₁ half₂ hHolds₁ hHolds₂
    rw [hOld half₁ hHolds₁] at hHolds₁
    rw [hOld half₂ hHolds₂] at hHolds₂
    exact h.exclusive half₁ half₂ hHolds₁ hHolds₂
  · intro half' message hFlushing
    rw [hOld half' (by rw [hFlushing]; rfl)] at hFlushing
    exact h.flushing half' message hFlushing

theorem Endpoint.Guarded.lock {e : Endpoint} (h : e.Guarded) (hUnlocked : e.unlocked = true) (half : Half)
    (phase : Phase) (hPhase : ∀ message, phase ≠ .flushing message) : (e.turn half phase).Guarded := by
  have hFree := unlocked_iff.mp hUnlocked
  have hHolder (half' : Half) (hHolds : ((e.turn half phase).phase half').holdsGuard = true) :
      half' = half := by
    by_contra hOther
    rw [turn_phase, if_neg hOther, hFree half'] at hHolds
    cases hHolds
  refine ⟨?_, h.acked, ?_⟩
  · intro half₁ half₂ hHolds₁ hHolds₂
    exact (hHolder half₁ hHolds₁).trans (hHolder half₂ hHolds₂).symm
  · intro half' message hFlushing
    obtain rfl := hHolder half' (by rw [hFlushing]; rfl)
    rw [turn_phase, if_pos rfl] at hFlushing
    exact absurd hFlushing (hPhase message)

/-- A half that holds the guard is the only one whose phase counts. -/
theorem Endpoint.Guarded.onlyHolder {e : Endpoint} (h : e.Guarded) {half half' : Half}
    (hHolds : (e.phase half).holdsGuard = true) (phase : Phase)
    (hHolds' : ((e.turn half phase).phase half').holdsGuard = true) : half' = half := by
  rw [Endpoint.turn_phase] at hHolds'
  split at hHolds'
  · assumption
  · exact h.exclusive half' half hHolds' hHolds

variable {rmp : Rmp} {closed : Bool} {half : Half} {v v' : View} {action : Action}

theorem Receives.guarded (h : Receives closed half v action v') (hGuarded : v.endpoint.Guarded) :
    v'.endpoint.Guarded := by
  have hTurn := hGuarded.turn half .idle rfl
  cases h with
  | gets _ _ => exact ⟨hGuarded.exclusive, hGuarded.acked, hGuarded.flushing⟩
  | ends _ _ _ => exact ⟨hGuarded.exclusive, hGuarded.acked, hGuarded.flushing⟩
  | waits _ => exact ⟨hGuarded.exclusive, hGuarded.acked, hGuarded.flushing⟩
  | breaks _ => exact ⟨hTurn.exclusive, hTurn.acked, hTurn.flushing⟩
  | closes _ _ _ => exact ⟨hTurn.exclusive, hTurn.acked, hTurn.flushing⟩
  | refuses _ => exact ⟨hTurn.exclusive, hTurn.acked, hTurn.flushing⟩
  | concludes _ _ => exact ⟨hTurn.exclusive, hTurn.acked, hTurn.flushing⟩
  | delivers _ _ _ => exact ⟨hTurn.exclusive, hTurn.acked, hTurn.flushing⟩
  | stops _ => exact ⟨hTurn.exclusive, hTurn.acked, hTurn.flushing⟩

theorem Acts.guarded (h : Acts rmp closed half v action v') (hGuarded : v.endpoint.Guarded) :
    v'.endpoint.Guarded := by
  cases h with
  | turns hFree _ => exact hGuarded.turn half _ hFree
  | @sendLocks message _ hUnlocked => exact hGuarded.lock hUnlocked half (.feeding message) (fun _ hSame => by cases hSame)
  | receiveLocks hUnlocked => exact hGuarded.lock hUnlocked half .receiving (fun _ hSame => by cases hSame)
  | writes => exact ⟨hGuarded.exclusive, hGuarded.acked, hGuarded.flushing⟩
  | receives _ hReceives => exact hReceives.guarded hGuarded
  | @feeds message m hFeeding _ _ _ =>
    have hHolds : (v.endpoint.phase half).holdsGuard = true := by rw [hFeeding]; rfl
    have hOnly (half' : Half)
        (hHolds' : (((v.endpoint.turn half (.flushing message)).phase half').holdsGuard = true)) :
        half' = half := hGuarded.onlyHolder hHolds _ hHolds'
    refine ⟨?_, hGuarded.acked.trans (List.sublist_append_left _ _), ?_⟩
    · intro half₁ half₂ hHolds₁ hHolds₂
      exact (hOnly half₁ hHolds₁).trans (hOnly half₂ hHolds₂).symm
    · intro half' message' hFlushing
      change (v.endpoint.turn half (.flushing message)).phase half' = _ at hFlushing
      obtain rfl := hOnly half' (by rw [hFlushing]; rfl)
      rw [Endpoint.turn_phase, if_pos rfl] at hFlushing
      cases hFlushing
      exact ⟨v.endpoint.accepted, rfl, hGuarded.acked⟩
  | @finishes message hFlushing hEmpty =>
    have hHolds : (v.endpoint.phase half).holdsGuard = true := by rw [hFlushing]; rfl
    have hTurn := hGuarded.turn half .idle rfl
    refine ⟨hTurn.exclusive, ?_, ?_⟩
    · obtain ⟨earlier, hAccepted, hAcked⟩ := hGuarded.flushing half message hFlushing
      change (v.endpoint.acked ++ [message]).Sublist v.endpoint.accepted
      rw [hAccepted]
      exact hAcked.append (List.Sublist.refl _)
    · intro half' message' hFlushing'
      change (v.endpoint.turn half .idle).phase half' = _ at hFlushing'
      obtain rfl := hGuarded.onlyHolder hHolds .idle (by rw [hFlushing']; rfl)
      rw [Endpoint.turn_phase, if_pos rfl] at hFlushing'
      cases hFlushing'

/-! ## The link of a direction -/

def messages (received : List (Except TransportError Message)) : List Message :=
  received.filterMap Except.toOption

@[simp] theorem messages_append_ok (received : List (Except TransportError Message)) (m : Message) :
    messages (received ++ [.ok m]) = messages received ++ [m] := by
  simp [messages, Except.toOption]

@[simp] theorem messages_append_error (received : List (Except TransportError Message))
    (e : TransportError) : messages (received ++ [.error e]) = messages received := by
  simp [messages, Except.toOption]

/-- The link shows what the sender has encoded and written and what the receiver has buffered and
returned; whatever the sender has been told is sent was flushed. -/
structure Carries (rmp : Rmp) (sender : Endpoint) (wire : List UInt8) (receiver : Endpoint)
    (l : Link UInt8 Message) : Prop where
  accepted : sender.accepted.map (fun message => message.intoMessage rmp) = l.accepted.map .ok
  acked : sender.acked.Sublist (sender.accepted.take l.flushed)
  unsent : sender.framed.writeBuffer = l.unsent
  underway : wire = l.underway
  arrived : receiver.framed.arrived = l.arrived
  delivered : messages receiver.received = l.delivered

/-- A step of the link, or none. -/
def Moves (l l' : Link UInt8 Message) : Prop := l' = l ∨ Link.Step frames Message.rawBytes l l'

theorem Moves.sound {l l' : Link UInt8 Message} (h : Moves l l') (hSound : l.Sound frames Message.rawBytes) :
    l'.Sound frames Message.rawBytes := by
  rcases h with rfl | hStep
  · exact hSound
  · exact hStep.sound hSound

variable {sender receiver : Endpoint} {wire : List UInt8} {l : Link UInt8 Message}

theorem Carries.length_accepted (h : Carries rmp sender wire receiver l) :
    sender.accepted.length = l.accepted.length := by
  have hLength := congrArg List.length h.accepted
  rwa [List.length_map, List.length_map] at hLength

/-- What an end does to the direction in which it sends. -/
theorem Acts.carries_out (h : Acts rmp closed half v action v') (hGuarded : v.endpoint.Guarded)
    (hCarries : Carries rmp v.endpoint v.outbound receiver l) :
    ∃ l', Carries rmp v'.endpoint v'.outbound receiver l' ∧ Moves l l' := by
  have hLength := hCarries.length_accepted
  obtain ⟨hAccepted, hAcked, hUnsent, hUnderway, hArrived, hDelivered⟩ := hCarries
  cases h with
  | turns _ _ => exact ⟨l, ⟨hAccepted, hAcked, hUnsent, hUnderway, hArrived, hDelivered⟩, .inl rfl⟩
  | sendLocks _ _ => exact ⟨l, ⟨hAccepted, hAcked, hUnsent, hUnderway, hArrived, hDelivered⟩, .inl rfl⟩
  | receiveLocks _ => exact ⟨l, ⟨hAccepted, hAcked, hUnsent, hUnderway, hArrived, hDelivered⟩, .inl rfl⟩
  | receives _ hReceives =>
    refine ⟨l, ?_, .inl rfl⟩
    cases hReceives <;> exact ⟨hAccepted, hAcked, hUnsent, hUnderway, hArrived, hDelivered⟩
  | @feeds message m _ hMessage hDelivers _ =>
    refine ⟨{ l with accepted := l.accepted ++ [m], unsent := l.unsent ++ m.rawBytes },
      ⟨?_, ?_, ?_, hUnderway, hArrived, hDelivered⟩, .inr (.accept hDelivers)⟩
    · change (v.endpoint.accepted ++ [message]).map _ = (l.accepted ++ [m]).map Except.ok
      rw [List.map_append, List.map_append, hAccepted, List.map_singleton, List.map_singleton, hMessage]
    · exact hAcked.trans (((List.prefix_append _ _).take l.flushed).sublist)
    · exact congrArg (fun buffer => buffer ++ m.rawBytes) hUnsent
  | @writes n =>
    refine ⟨{ l with unsent := l.unsent.drop n, underway := l.underway ++ l.unsent.take n },
      ⟨hAccepted, hAcked, ?_, ?_, hArrived, hDelivered⟩, .inr (.write n)⟩
    · exact congrArg (List.drop n) hUnsent
    · change v.outbound ++ v.endpoint.framed.writeBuffer.take n = l.underway ++ l.unsent.take n
      rw [hUnsent, hUnderway]
  | @finishes message hFlushing hEmpty =>
    refine ⟨{ l with flushed := l.accepted.length },
      ⟨hAccepted, ?_, hUnsent, hUnderway, hArrived, hDelivered⟩, .inr (.flush (hUnsent.symm.trans hEmpty))⟩
    obtain ⟨earlier, hEarlier, hBefore⟩ := hGuarded.flushing half message hFlushing
    change (v.endpoint.acked ++ [message]).Sublist (v.endpoint.accepted.take l.accepted.length)
    rw [← hLength, List.take_length, hEarlier]
    exact hBefore.append (List.Sublist.refl _)

/-- What an end does to the direction in which it receives. -/
theorem Acts.carries_in (h : Acts rmp closed half v action v')
    (hCarries : Carries rmp sender v.inbound v.endpoint l) :
    ∃ l', Carries rmp sender v'.inbound v'.endpoint l' ∧ Moves l l' := by
  obtain ⟨hAccepted, hAcked, hUnsent, hUnderway, hArrived, hDelivered⟩ := hCarries
  cases h with
  | turns _ _ => exact ⟨l, ⟨hAccepted, hAcked, hUnsent, hUnderway, hArrived, hDelivered⟩, .inl rfl⟩
  | sendLocks _ _ => exact ⟨l, ⟨hAccepted, hAcked, hUnsent, hUnderway, hArrived, hDelivered⟩, .inl rfl⟩
  | receiveLocks _ => exact ⟨l, ⟨hAccepted, hAcked, hUnsent, hUnderway, hArrived, hDelivered⟩, .inl rfl⟩
  | feeds _ _ _ _ => exact ⟨l, ⟨hAccepted, hAcked, hUnsent, hUnderway, hArrived, hDelivered⟩, .inl rfl⟩
  | writes => exact ⟨l, ⟨hAccepted, hAcked, hUnsent, hUnderway, hArrived, hDelivered⟩, .inl rfl⟩
  | finishes _ _ => exact ⟨l, ⟨hAccepted, hAcked, hUnsent, hUnderway, hArrived, hDelivered⟩, .inl rfl⟩
  | receives _ hReceives =>
    have hError (e : TransportError) :
        messages (v.endpoint.received ++ [.error e]) = l.delivered := by
      rw [messages_append_error, hDelivered]
    have hWhole (rest : List UInt8) :
        Framed.arrived ⟨MessageCodec.new.withBuffer rest, v.endpoint.framed.writeBuffer, [],
          false, v.endpoint.framed.eof, v.endpoint.framed.hasErrored⟩ = rest := List.append_nil rest
    cases hReceives with
    | @gets n _ _ =>
      refine ⟨{ l with underway := l.underway.drop n, arrived := l.arrived ++ l.underway.take n },
        ⟨hAccepted, hAcked, hUnsent, ?_, ?_, hDelivered⟩, .inr (.read n)⟩
      · exact congrArg (List.drop n) hUnderway
      · change v.endpoint.framed.codec.parser.buffer ++
          (v.endpoint.framed.readBuffer ++ v.inbound.take n) = l.arrived ++ l.underway.take n
        rw [← List.append_assoc, ← hArrived, ← hUnderway]
        rfl
    | ends _ _ _ => exact ⟨l, ⟨hAccepted, hAcked, hUnsent, hUnderway, hArrived, hDelivered⟩, .inl rfl⟩
    | breaks _ => exact ⟨l, ⟨hAccepted, hAcked, hUnsent, hUnderway, hArrived, hError _⟩, .inl rfl⟩
    | closes _ _ _ => exact ⟨l, ⟨hAccepted, hAcked, hUnsent, hUnderway, hArrived, hError _⟩, .inl rfl⟩
    | refuses _ => exact ⟨l, ⟨hAccepted, hAcked, hUnsent, hUnderway, hArrived, hError _⟩, .inl rfl⟩
    | stops _ => exact ⟨l, ⟨hAccepted, hAcked, hUnsent, hUnderway, hArrived, hError _⟩, .inl rfl⟩
    | waits _ =>
      exact ⟨l, ⟨hAccepted, hAcked, hUnsent, hUnderway, (hWhole _).trans hArrived, hDelivered⟩, .inl rfl⟩
    | concludes _ _ =>
      exact ⟨l, ⟨hAccepted, hAcked, hUnsent, hUnderway, (hWhole _).trans hArrived, hError _⟩, .inl rfl⟩
    | @delivers m n _ _ hDeliver =>
      rw [hArrived] at hDeliver
      refine ⟨{ l with arrived := l.arrived.drop n, delivered := l.delivered ++ [m] },
        ⟨hAccepted, hAcked, hUnsent, hUnderway, ?_, ?_⟩, .inr (.deliver hDeliver)⟩
      · exact (hWhole _).trans (congrArg (List.drop n) hArrived)
      · change messages (v.endpoint.received ++ [.ok m]) = l.delivered ++ [m]
        rw [messages_append_ok, hDelivered]

theorem Acts.hasDefaultLimits (h : Acts rmp closed half v action v')
    (hLimits : v.endpoint.framed.HasDefaultLimits) : v'.endpoint.framed.HasDefaultLimits := by
  cases h with
  | receives _ hReceives => cases hReceives <;> first | exact hLimits | rfl
  | _ => exact hLimits

end Fleximq.Session
