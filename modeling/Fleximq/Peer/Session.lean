import Fleximq.Foundation.Trace
import Fleximq.Protocol.CodecAgreement
import Fleximq.Protocol.EndOfStream
import Fleximq.Transport.Error

/-! # Two peers on one connection

Each end holds the framed stream that `message::sink` makes behind a write guard,
and the two halves of the split peer call `send_message`, `receive_message` and
`disconnect` on it in any order. A call may be cancelled wherever it waits.
-/
namespace Fleximq.Session
open Foundation Fleximq.Protocol Fleximq.Transport
open Foundation.Incremental (Decoder)

inductive Side where
  | near
  | far
  deriving DecidableEq

def Side.other : Side → Side
  | .near => .far
  | .far => .near

inductive Half where
  | server
  | client
  deriving DecidableEq

/-- Where a half is: before `self.write().await`, in `poll_ready` and `start_send`, in `poll_flush`,
or in `next`. -/
inductive Phase where
  | idle
  | sendWaits (message : RawMessage)
  | feeding (message : RawMessage)
  | flushing (message : RawMessage)
  | receiveWaits
  | receiving
  | gone

def Phase.holdsGuard : Phase → Bool
  | .feeding _ => true
  | .flushing _ => true
  | .receiving => true
  | _ => false

/-- `Framed` of tokio_util: the buffers of both directions and the flags of the reading one. -/
structure Framed where
  codec : MessageCodec
  writeBuffer : List UInt8
  readBuffer : List UInt8
  isReadable : Bool
  eof : Bool
  hasErrored : Bool

def sink : Framed := ⟨.new, [], [], false, false, false⟩

/-- `poll_ready` flushes first when the write buffer has reached this size. -/
def backpressureBoundary : Nat := 8 * 1024

/-- One end, with a record of the messages that the encoder took, of those whose `send_message`
returned `Ok`, and of what `receive_message` returned. -/
structure Endpoint where
  framed : Framed
  phase : Half → Phase
  accepted : List RawMessage
  acked : List RawMessage
  received : List (Except TransportError Message)

/-- What an end sees: the bytes that it has written and that are not read yet, and those that it
has not read yet. -/
structure View where
  endpoint : Endpoint
  outbound : List UInt8
  inbound : List UInt8

inductive Action where
  | send (message : RawMessage)
  | receive
  | lock
  | feed
  | write (n : Nat)
  | finish
  | writeFails
  | read (n : Nat)
  | readFails (text : String)
  | readEnd
  | decode
  | stop
  | cancel
  | disconnect

/-! ## One end -/

def Endpoint.unlocked (e : Endpoint) : Bool :=
  !(e.phase .server).holdsGuard && !(e.phase .client).holdsGuard

def Endpoint.turn (e : Endpoint) (half : Half) (phase : Phase) : Endpoint :=
  { e with phase := Function.update e.phase half phase }

/-- `receive_message` returns. -/
def Endpoint.returns (e : Endpoint) (half : Half) (framed : Framed)
    (result : Except TransportError Message) : Endpoint :=
  { e.turn half .idle with framed := framed, received := e.received ++ [result] }

def View.turn (v : View) (half : Half) (phase : Phase) : View :=
  { v with endpoint := v.endpoint.turn half phase }

def View.returns (v : View) (half : Half) (framed : Framed) (result : Except TransportError Message) :
    View := { v with endpoint := v.endpoint.returns half framed result }

def View.reframe (v : View) (framed : Framed) : View :=
  { v with endpoint := { v.endpoint with framed := framed } }

/-- `start_send`, when `poll_ready` has nothing to flush first. -/
def View.feed (rmp : Rmp) (v : View) (half : Half) (message : RawMessage) : View :=
  let framed := v.endpoint.framed
  if framed.writeBuffer.length < backpressureBoundary then
    match framed.codec.encode rmp message framed.writeBuffer with
    | (buffer, .ok ()) =>
      { v with endpoint := { v.endpoint.turn half (.flushing message) with
          framed := { framed with writeBuffer := buffer }
          accepted := v.endpoint.accepted ++ [message] } }
    | (buffer, .error _) => (v.reframe { framed with writeBuffer := buffer }).turn half .idle
  else v

def View.write (v : View) (n : Nat) : View :=
  let framed := v.endpoint.framed
  { v.reframe { framed with writeBuffer := framed.writeBuffer.drop n } with
    outbound := v.outbound ++ framed.writeBuffer.take n }

/-- `poll_read_buf` gets between one and `n` bytes. -/
def View.read (v : View) (n : Nat) : View :=
  let framed := v.endpoint.framed
  if !framed.hasErrored && !framed.isReadable && decide (0 < n) && !v.inbound.isEmpty then
    { v.reframe { framed with
        readBuffer := framed.readBuffer ++ v.inbound.take n, isReadable := true, eof := false } with
      inbound := v.inbound.drop n }
  else v

/-- `poll_read_buf` gets no byte, which is the end of the stream once the other end is closed. -/
def View.readEnd (closed : Bool) (v : View) (half : Half) : View :=
  let framed := v.endpoint.framed
  if !framed.hasErrored && !framed.isReadable && closed && v.inbound.isEmpty then
    if framed.eof then v.returns half framed (.error .connectionClosed)
    else v.reframe { framed with isReadable := true, eof := true }
  else v

def View.readFails (v : View) (half : Half) (text : String) : View :=
  let framed := v.endpoint.framed
  if !framed.hasErrored && !framed.isReadable then
    v.returns half { framed with hasErrored := true } (.error (.protocol (.io text)))
  else v

def View.decode (v : View) (half : Half) : View :=
  let framed := v.endpoint.framed
  if !framed.hasErrored && framed.isReadable then
    if framed.eof then
      match decodeEof framed.codec framed.readBuffer with
      | (codec, readBuffer, .error e) =>
        v.returns half { framed with codec := codec, readBuffer := readBuffer, hasErrored := true }
          (.error (.protocol e))
      | (codec, readBuffer, .ok none) =>
        v.returns half { framed with codec := codec, readBuffer := readBuffer, isReadable := false }
          (.error .connectionClosed)
      | (codec, readBuffer, .ok (some m)) =>
        v.returns half { framed with codec := codec, readBuffer := readBuffer } (.ok m)
    else
      match framed.codec.decode framed.readBuffer with
      | (codec, readBuffer, .error e) =>
        v.returns half { framed with codec := codec, readBuffer := readBuffer, hasErrored := true }
          (.error (.protocol e))
      | (codec, readBuffer, .ok none) =>
        v.reframe { framed with codec := codec, readBuffer := readBuffer, isReadable := false }
      | (codec, readBuffer, .ok (some m)) =>
        v.returns half { framed with codec := codec, readBuffer := readBuffer } (.ok m)
  else v

/-- After an error `next` returns `None` once. -/
def View.stop (v : View) (half : Half) : View :=
  let framed := v.endpoint.framed
  if framed.hasErrored then
    v.returns half { framed with isReadable := false, hasErrored := false } (.error .connectionClosed)
  else v

def View.next (closed : Bool) (half : Half) (v : View) : Action → View
  | .read n => v.read n
  | .readFails text => v.readFails half text
  | .readEnd => v.readEnd closed half
  | .decode => v.decode half
  | .stop => v.stop half
  | _ => v

/-- An action that is not possible where the half is leaves everything as it is; `closed` tells that
the other end is closed. -/
def View.act (rmp : Rmp) (closed : Bool) (half : Half) (v : View) (action : Action) : View :=
  match v.endpoint.phase half with
  | .idle =>
    match action with
    | .send message => v.turn half (.sendWaits message)
    | .receive => v.turn half .receiveWaits
    | .disconnect => v.turn half .gone
    | _ => v
  | .sendWaits message =>
    match action with
    | .lock => if v.endpoint.unlocked then v.turn half (.feeding message) else v
    | .cancel => v.turn half .idle
    | _ => v
  | .feeding message =>
    match action with
    | .feed => v.feed rmp half message
    | .write n => v.write n
    | .writeFails => v.turn half .idle
    | .cancel => v.turn half .idle
    | _ => v
  | .flushing message =>
    match action with
    | .write n => v.write n
    | .finish =>
      if v.endpoint.framed.writeBuffer.isEmpty then
        { v with endpoint := { v.endpoint.turn half .idle with acked := v.endpoint.acked ++ [message] } }
      else v
    | .writeFails => v.turn half .idle
    | .cancel => v.turn half .idle
    | _ => v
  | .receiveWaits =>
    match action with
    | .lock => if v.endpoint.unlocked then v.turn half .receiving else v
    | .cancel => v.turn half .idle
    | _ => v
  | .receiving =>
    match action with
    | .cancel => v.turn half .idle
    | action => v.next closed half action
  | .gone => v

/-! ## Both ends -/

structure State where
  endpoint : Side → Endpoint
  wire : Side → List UInt8

def connected : State := ⟨fun _ => ⟨sink, fun _ => .idle, [], [], []⟩, fun _ => []⟩

structure Event where
  side : Side
  half : Half
  action : Action

def State.view (s : State) (side : Side) : View := ⟨s.endpoint side, s.wire side, s.wire side.other⟩

def State.update (s : State) (side : Side) (v : View) : State where
  endpoint := Function.update s.endpoint side v.endpoint
  wire := Function.update (Function.update s.wire side v.outbound) side.other v.inbound

/-- Both handles to the stream are dropped. -/
def Endpoint.isClosed (e : Endpoint) : Bool :=
  match e.phase .server, e.phase .client with
  | .gone, .gone => true
  | _, _ => false

def step (rmp : Rmp) (s : State) (event : Event) : State :=
  s.update event.side
    ((s.view event.side).act rmp (s.endpoint event.side.other).isClosed event.half event.action)

end Fleximq.Session
