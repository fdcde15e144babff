import Fleximq.Foundation.Loop
import Fleximq.Protocol.Builder
import Fleximq.Protocol.Codec
import Fleximq.Protocol.HeaderRoundTrip
import Fleximq.Transport.Error

/-! # The JOIN handshake

`Peer::from_stream` sends a JOIN message that carries a request id and waits for
the reply with that id. The builder validates the message before it is sent, and
the table for JOIN forbids the `reqrep` field that the handshake sets.
-/
namespace Fleximq.Handshake
open Foundation Fleximq.Protocol Fleximq.Transport

/-! ## The framed stream -/

/-- What the transport below answers: to the flush of a send, and to each call of `next`. -/
structure Remote where
  flush : Except ProtocolError Unit
  next : Nat → Option (Except ProtocolError Message)

structure Framed where
  codec : MessageCodec
  written : List UInt8
  deriving DecidableEq

def sink : Framed := ⟨.new, []⟩

def Framed.send (rmp : Rmp) (remote : Remote) (framed : Framed) (item : RawMessage) :
    Framed × Except ProtocolError Unit :=
  match framed.codec.encode rmp item framed.written with
  | (written, .error e) => ({ framed with written := written }, .error e)
  | (written, .ok ()) => ({ framed with written := written }, remote.flush)

/-! ## `Peer::from_stream` -/

structure Peer where
  transportStream : Framed
  selfId : ClientId
  deriving DecidableEq

inductive Exit where
  | returned (result : Except TransportError Peer)
  | panicked

/-- One iteration of the reply loop, which has read `read` items so far. -/
def replyStep (rmp : Rmp) (id : String) (remote : Remote) (framed : Framed) (read : Nat) :
    Loop.Flow Nat Exit :=
  match remote.next read with
  -- the end of the stream is passed over like any other item
  | none => .next (read + 1)
  | some (.error e) => .done (.returned (.error (.protocol e)))
  | some (.ok message) =>
    match message.header rmp with
    | none => .done .panicked
    | some (.error e) => .done (.returned (.error (.protocol e)))
    | some (.ok header) =>
      match header.reqrep with
      | none => .next (read + 1)
      | some rep =>
        if rep.id ≠ id then .next (read + 1) else .done (.returned (.ok ⟨framed, message.clientId⟩))

def joinMessage (name id : String) (auth : Option Auth) : MessageBuilder :=
  let joinMessage := (MessageBuilder.join clientIdUnassigned name).reqrep (.req id)
  match auth with
  | some auth => joinMessage.auth auth
  | none => joinMessage

/-- The stream and the result after at most `fuel` iterations of the reply loop; `generated` is the
answer of the id generator. -/
def fromStream (rmp : Rmp) (generated : Except String String) (remote : Remote) (name : String)
    (auth : Option Auth) (fuel : Nat) : Framed × Option Exit :=
  let framed := sink
  match generated with
  | .error e => (framed, some (.returned (.error (.other e))))
  | .ok id =>
    match (joinMessage name id auth).build rmp with
    | .error e => (framed, some (.returned (.error (.protocol e))))
    | .ok join =>
      match framed.send rmp remote join with
      | (framed, .error e) => (framed, some (.returned (.error (.protocol e))))
      | (framed, .ok ()) => (framed, Loop.run (replyStep rmp id remote framed) fuel 0)

/-! ## The reply loop -/

/-- The message is none that the loop waits for. -/
def Unrelated (rmp : Rmp) (id : String) (m : Message) : Prop :=
  ∃ header, m.header rmp = some (.ok header) ∧ ∀ rep, header.reqrep = some rep → rep.id ≠ id

def Answers (rmp : Rmp) (id : String) (m : Message) : Prop :=
  ∃ header rep, m.header rmp = some (.ok header) ∧ header.reqrep = some rep ∧ rep.id = id

/-- Unrelated messages arrive, and then a reply from the client id `c`. -/
structure Answered (rmp : Rmp) (id : String) (remote : Remote) (c : ClientId) : Prop where
  flush : remote.flush = .ok ()
  reply : ∃ last reply, (∀ i < last, ∃ m, remote.next i = some (.ok m) ∧ Unrelated rmp id m) ∧
    remote.next last = some (.ok reply) ∧ Answers rmp id reply ∧ reply.clientId = c

theorem replyStep_unrelated {rmp : Rmp} {id : String} {remote : Remote} {framed : Framed} {i : Nat}
    {m : Message} (hNext : remote.next i = some (.ok m)) (h : Unrelated rmp id m) :
    replyStep rmp id remote framed i = .next (i + 1) := by
  obtain ⟨header, hHeader, hOther⟩ := h
  simp only [replyStep, hNext, hHeader]
  cases hRep : header.reqrep with
  | none => rfl
  | some rep => exact if_pos (hOther rep hRep)

theorem replyStep_answers {rmp : Rmp} {id : String} {remote : Remote} {framed : Framed} {i : Nat}
    {m : Message} (hNext : remote.next i = some (.ok m)) (h : Answers rmp id m) :
    replyStep rmp id remote framed i = .done (.returned (.ok ⟨framed, m.clientId⟩)) := by
  obtain ⟨header, rep, hHeader, hRep, hId⟩ := h
  simp only [replyStep, hNext, hHeader, hRep]
  exact if_neg (not_not.mpr hId)

theorem replyLoop_answered {rmp : Rmp} {id : String} {remote : Remote} {c : ClientId}
    (h : Answered rmp id remote c) (framed : Framed) :
    ∃ fuel, Loop.run (replyStep rmp id remote framed) fuel 0 = some (.returned (.ok ⟨framed, c⟩)) := by
  obtain ⟨last, reply, hBefore, hNext, hAnswers, rfl⟩ := h.reply
  refine ⟨last + 1, Loop.run_count ?_ (replyStep_answers hNext hAnswers) (Nat.zero_le last) (by omega)⟩
  intro i _ hLess
  obtain ⟨m, hItem, hUnrelated⟩ := hBefore i hLess
  exact replyStep_unrelated hItem hUnrelated

/-! ## The JOIN message -/

/-- A valid JOIN message is sent, and the peer gets the client id `c`. -/
def JoinCompletes (rmp : Rmp) (name id : String) (auth : Option Auth) (remote : Remote) (c : ClientId) :
    Prop :=
  ∃ join bytes framed fuel, (joinMessage name id auth).build rmp = .ok join ∧
    validateMessageStructure .join join.header = .ok () ∧ join.toBytes rmp = .ok bytes ∧
    framed.written = bytes ∧
    fromStream rmp (.ok id) remote name auth fuel = (framed, some (.returned (.ok ⟨framed, c⟩)))

theorem validate_joinMessage (name id : String) (auth : Option Auth) :
    validateMessageStructure (joinMessage name id auth).messageType (joinMessage name id auth).header =
      .error (.forbiddenField "reqrep" "JOIN") := by
  cases auth <;> rfl

theorem build_joinMessage (rmp : Rmp) (name id : String) (auth : Option Auth) :
    (joinMessage name id auth).build rmp = .error (.forbiddenField "reqrep" "JOIN") := by
  rw [MessageBuilder.build, MessageBuilder.buildWithPayload, validate_joinMessage]
  rfl

/-- Whatever the name, the id, the credentials and the traffic, nothing is sent and the handshake
ends with the validation error. -/
theorem fromStream_forbidden (rmp : Rmp) (name id : String) (auth : Option Auth) (remote : Remote)
    (c : ClientId) :
    (∀ fuel, fromStream rmp (.ok id) remote name auth fuel =
        (sink, some (.returned (.error (.protocol (.forbiddenField "reqrep" "JOIN")))))) ∧
      ¬ JoinCompletes rmp name id auth remote c := by
  constructor
  · intro fuel
    simp only [fromStream, build_joinMessage]
  · rintro ⟨join, bytes, framed, fuel, hBuild, _⟩
    rw [build_joinMessage] at hBuild
    cases hBuild

def welcomeMessage : RawMessage where
  messageType := .response
  clientId := 1001
  header := { Header.new with reqrep := some (.res "7"), status := some ⟨200⟩ }
  payloadData := nilPayload

def welcomeHeader : Bytes where
  toList := [130, 166, 114, 101, 113, 114, 101, 112, 146, 171, 99, 111, 114, 114, 101, 108, 97, 116, 105,
    111, 110, 161, 55, 166, 115, 116, 97, 116, 117, 115, 204, 200]
  length_lt := by decide

def welcomeFrame : Frame := welcomeMessage.frame welcomeHeader (by decide)

def welcoming : Remote := ⟨.ok (), fun _ => some (.ok welcomeFrame.message)⟩

theorem welcoming_answered : Answered Rmp.messagePack "7" welcoming 1001 := by
  have hHeader : welcomeMessage.header.toVec Rmp.messagePack = .ok welcomeHeader := by decide +kernel
  obtain ⟨header, hRead, hSame⟩ := RawMessage.header_message_named Rmp.messagePack_lawful
    (r := welcomeMessage) (by decide) hHeader rfl rfl
  refine ⟨rfl, 0, welcomeFrame.message, fun i hi => absurd hi (Nat.not_lt_zero i), rfl, ?_, rfl⟩
  exact ⟨header, .res "7", hRead, hSame.reqrep, rfl⟩

/-- A JOIN message for the name "alice" fits the limits, the remote is ready to answer it, and the
handshake fails. -/
theorem not_joinCompletes_alice :
    ((RawMessage.mk .join clientIdUnassigned (joinMessage "alice" "7" none).header
      nilPayload).toBytes Rmp.messagePack).isOk = true ∧
    Answered Rmp.messagePack "7" welcoming 1001 ∧
    ¬ JoinCompletes Rmp.messagePack "alice" "7" none welcoming 1001 := by
  refine ⟨by decide +kernel, welcoming_answered, ?_⟩
  rintro ⟨join, bytes, framed, fuel, hBuild, _⟩
  rw [build_joinMessage] at hBuild
  cases hBuild

end Fleximq.Handshake
