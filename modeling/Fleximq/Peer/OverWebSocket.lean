import Fleximq.Peer.Receiving
import Fleximq.Transport.WebSocket

/-! # Peers over a WebSocket

Over a WebSocket the framed stream writes all that it has buffered as one Binary
message, and one read takes a whole message. The inner stream may end at any time:
when the other end drops its own, or because the connection has failed.
-/
namespace Fleximq.Session.Ws
open Foundation Fleximq.Protocol Fleximq.Transport

/-! ## The connection -/

/-- Both ends, and for each the WebSocket messages that it has sent. -/
structure Connection where
  endpoint : Side → Endpoint
  link : Side → WsLink

def connected : Connection := ⟨fun _ => ⟨sink, fun _ => .idle, [], [], []⟩, fun _ => .init⟩

/-- The actions that do not touch the transport. -/
inductive Call where
  | send (message : RawMessage)
  | receive
  | lock
  | feed
  | finish
  | decode
  | stop
  | cancel
  | disconnect

def Call.action : Call → Action
  | .send message => .send message
  | .receive => .receive
  | .lock => .lock
  | .feed => .feed
  | .finish => .finish
  | .decode => .decode
  | .stop => .stop
  | .cancel => .cancel
  | .disconnect => .disconnect

inductive Event where
  | call (side : Side) (half : Half) (call : Call)
  | write (side : Side) (half : Half) (pollReady : Poll (Except String Unit)) (startSend : Except String Unit)
  | flushFails (side : Side) (half : Half)
  | read (side : Side) (half : Half) (capacity : Nat)
  /-- A control message of the side's WebSocket, or an error of the connection. -/
  | control (side : Side) (item : Except String WsMessage)
  | arrive (side : Side)
  | finish (side : Side)

def isControl : Except String WsMessage → Bool
  | .error _ => true
  | .ok (.ping _) => true
  | .ok (.pong _) => true
  | .ok (.frame _) => true
  | _ => false

def writes : Phase → Bool
  | .feeding _ => true
  | .flushing _ => true
  | _ => false

def pending (l : WsLink) : List UInt8 := WsLink.payloads (l.stream.queue ++ l.inFlight)

/-- What the peers have of the connection, if each direction is a pipe. -/
def Connection.pipes (c : Connection) : State := ⟨c.endpoint, fun side => pending (c.link side)⟩

def Connection.panicked (c : Connection) : Bool := (c.link .near).panicked || (c.link .far).panicked

def gets (e : Endpoint) (half : Half) (data : List UInt8) : Endpoint :=
  if data.isEmpty then
    if e.framed.eof then e.returns half e.framed (.error .connectionClosed)
    else { e with framed := { e.framed with isReadable := true, eof := true } }
  else
    { e with framed := { e.framed with
        readBuffer := e.framed.readBuffer ++ data, isReadable := true, eof := false } }

def polls (e : Endpoint) (half : Half) : Bool :=
  match e.phase half with
  | .receiving => !e.framed.hasErrored && !e.framed.isReadable
  | _ => false

namespace Connection

def call (rmp : Rmp) (c : Connection) (side : Side) (half : Half) (call : Call) : Connection :=
  { c with endpoint := (step rmp c.pipes ⟨side, half, call.action⟩).endpoint }

/-- `poll_write` is given the whole buffer, and takes all of it or nothing. -/
def write (c : Connection) (side : Side) (half : Half) (pollReady : Poll (Except String Unit))
    (startSend : Except String Unit) : Connection :=
  let e := c.endpoint side
  if writes (e.phase half) && !e.framed.writeBuffer.isEmpty then
    match pollWrite pollReady startSend e.framed.writeBuffer with
    | (some message, _) =>
      { endpoint := Function.update c.endpoint side { e with framed := { e.framed with writeBuffer := [] } }
        link := Function.update c.link side ((c.link side).enqueue (.ok message)) }
    | (none, .ready (.error _)) => { c with endpoint := Function.update c.endpoint side (e.turn half .idle) }
    | (none, _) => c
  else c

def flushFails (c : Connection) (side : Side) (half : Half) : Connection :=
  let e := c.endpoint side
  if writes (e.phase half) && e.framed.writeBuffer.isEmpty then
    { c with endpoint := Function.update c.endpoint side (e.turn half .idle) }
  else c

def read (c : Connection) (side : Side) (half : Half) (capacity : Nat) : Connection :=
  let e := c.endpoint side
  let l := c.link side.other
  if polls e half then
    let next := { c with link := Function.update c.link side.other (l.read capacity) }
    match l.stream.pollRead ⟨capacity, []⟩ with
    | (_, buf, .polled (.ready (.ok ()))) =>
      { next with endpoint := Function.update c.endpoint side (gets e half buf.filled) }
    | (_, _, .polled (.ready (.error text))) =>
      { next with
        endpoint := Function.update c.endpoint side
          (e.returns half { e.framed with hasErrored := true } (.error (.protocol (.io text)))) }
    | _ => next
  else c

def react (rmp : Rmp) (c : Connection) : Event → Connection
  | .call side half call => c.call rmp side half call
  | .write side half pollReady startSend => c.write side half pollReady startSend
  | .flushFails side half => c.flushFails side half
  | .read side half capacity => c.read side half capacity
  | .control side item =>
    if isControl item then { c with link := Function.update c.link side ((c.link side).enqueue item) } else c
  | .arrive side => { c with link := Function.update c.link side ((c.link side).react .arrive) }
  | .finish side => { c with link := Function.update c.link side ((c.link side).react .finish) }

/-- Nothing is known of a process in which a read has panicked. -/
def step (rmp : Rmp) (c : Connection) (event : Event) : Connection :=
  if c.panicked then c else c.react rmp event

end Connection

/-! ## The condition -/

def HasRoom (l : WsLink) (capacity : Nat) : Prop :=
  ∀ data, l.stream.queue.head?.bind WsLink.dataOf = some data → data.length ≤ capacity

def AtEnd (l : WsLink) : Prop := l.stream.queue = [] ∧ l.stream.ended = true

/-- A read has room for the message that it gets, and it finds the end of the inner stream only when
the other end is closed and everything from there is read. -/
def Connection.Fits (c : Connection) : Event → Prop
  | .read side half capacity =>
    polls (c.endpoint side) half = true →
      HasRoom (c.link side.other) capacity ∧
        (AtEnd (c.link side.other) →
          (c.endpoint side.other).isClosed = true ∧ pending (c.link side.other) = [])
  | _ => True

/-! ## What the connection carries -/

/-- The framed stream writes no empty message, and neither end sends text or closes the WebSocket. -/
def Carried : Except String WsMessage → Prop
  | .ok (.binary data) => data ≠ []
  | item => isControl item = true

def Orderly (l : WsLink) : Prop := ∀ item ∈ l.stream.queue ++ l.inFlight, Carried item

def Coherent (c : Connection) : Prop := ∀ side, Orderly (c.link side)

/-- What a poll of the stream yields. -/
inductive Yields (l : WsLink) : Poll (Except String (List UInt8)) → WsLink → Prop where
  | nothing {l'} : pending l' = pending l → Yields l .pending l'
  | breaks {l' text} : pending l' = pending l → Yields l (.ready (.error text)) l'
  | ends {l'} : pending l' = pending l → AtEnd l → Yields l (.ready (.ok [])) l'
  | data {l' data} : data ≠ [] → pending l = data ++ pending l' → Yields l (.ready (.ok data)) l'

variable {l : WsLink} {queue : List (Except String WsMessage)} {item : Except String WsMessage}

theorem Carried.cases (h : Carried item) :
    (∃ data, item = .ok (.binary data) ∧ data ≠ []) ∨ isControl item = true := by
  rcases item with text | message
  · exact .inr rfl
  · cases message with
    | binary data => exact .inl ⟨data, rfl, h⟩
    | text _ => cases h
    | close => cases h
    | _ => exact .inr rfl

theorem carried_control (h : isControl item = true) : Carried item := by
  rcases item with text | message
  · exact h
  · cases message with
    | binary data => cases h
    | _ => exact h

theorem dataOf_control (h : isControl item = true) : WsLink.dataOf item = none := by
  rcases item with text | message
  · rfl
  · cases message with
    | binary data => cases h
    | text _ => cases h
    | _ => rfl

/-- What the framed stream makes of a poll. -/
def polled (e : Endpoint) (half : Half) : Poll (Except String (List UInt8)) → Endpoint
  | .pending => e
  | .ready (.error text) => e.returns half { e.framed with hasErrored := true } (.error (.protocol (.io text)))
  | .ready (.ok data) => gets e half data

section
variable {c : Connection} {side : Side} {half : Half} {capacity : Nat}

/-- The end takes what a poll yields. -/
structure Takes (c : Connection) (side : Side) (half : Half) (capacity : Nat)
    (poll : Poll (Except String (List UInt8))) : Prop where
  yields : Yields (c.link side.other) poll ((c.link side.other).read capacity)
  read_eq : c.read side half capacity =
    ⟨Function.update c.endpoint side (polled (c.endpoint side) half poll),
      Function.update c.link side.other ((c.link side.other).read capacity)⟩

theorem takes_end (hPolls : polls (c.endpoint side) half = true) (hEnd : AtEnd (c.link side.other)) :
    Takes c side half capacity (.ready (.ok [])) := by
  generalize hLink : c.link side.other = l at hEnd
  obtain ⟨inFlight, ⟨queue, ended⟩, sent, handedOut, closed, panicked, falseEof⟩ := l
  obtain ⟨hQueue, hEnded⟩ := hEnd
  dsimp only at hQueue hEnded
  subst hQueue hEnded
  refine ⟨?_, ?_⟩
  · rw [hLink]
    exact .ends rfl ⟨rfl, rfl⟩
  · rw [Connection.read, if_pos hPolls, hLink]
    rfl

theorem takes_nothing (hPolls : polls (c.endpoint side) half = true)
    (hQueue : (c.link side.other).stream.queue = []) (hOpen : (c.link side.other).stream.ended = false) :
    Takes c side half capacity .pending := by
  generalize hLink : c.link side.other = l at hQueue hOpen
  obtain ⟨inFlight, ⟨queue, ended⟩, sent, handedOut, closed, panicked, falseEof⟩ := l
  dsimp only at hQueue hOpen
  subst hQueue hOpen
  refine ⟨?_, ?_⟩
  · rw [hLink]
    exact .nothing rfl
  · rw [Connection.read, if_pos hPolls, hLink, polled, Function.update_eq_self]
    rfl

theorem takes_control (hPolls : polls (c.endpoint side) half = true)
    (hQueue : (c.link side.other).stream.queue = item :: queue) (hControl : isControl item = true) :
    ∃ poll, Takes c side half capacity poll := by
  generalize hLink : c.link side.other = l at hQueue
  obtain ⟨inFlight, ⟨items, ended⟩, sent, handedOut, closed, panicked, falseEof⟩ := l
  dsimp only at hQueue
  subst hQueue
  rcases item with text | message
  · refine ⟨.ready (.error text), ?_, ?_⟩
    · rw [hLink]
      exact .breaks rfl
    · rw [Connection.read, if_pos hPolls, hLink]
      rfl
  · refine ⟨.pending, ?_, ?_⟩
    · rw [hLink]
      cases message with
      | binary _ => cases hControl
      | text _ => cases hControl
      | close => cases hControl
      | _ => exact .nothing rfl
    · rw [Connection.read, if_pos hPolls, hLink, polled, Function.update_eq_self]
      cases message with
      | binary _ => cases hControl
      | text _ => cases hControl
      | close => cases hControl
      | _ => rfl

theorem takes_data {data : List UInt8} (hPolls : polls (c.endpoint side) half = true)
    (hQueue : (c.link side.other).stream.queue = .ok (.binary data) :: queue) (hSome : data ≠ [])
    (hFits : data.length ≤ capacity) : Takes c side half capacity (.ready (.ok data)) := by
  have hRead := WsLink.read_data hQueue rfl capacity
  rw [if_neg (Nat.not_lt.mpr hFits)] at hRead
  refine ⟨?_, ?_⟩
  · rw [hRead]
    refine .data hSome ?_
    rw [pending, hQueue, List.cons_append, WsLink.payloads_cons]
    rfl
  · rw [Connection.read, if_pos hPolls, WsLink.pollRead_data hQueue rfl, readInto, ReadBuf.putSlice_empty,
      if_neg (Nat.not_lt.mpr hFits)]
    rfl

theorem Coherent.takes (h : Coherent c) (hPolls : polls (c.endpoint side) half = true)
    (hRoom : HasRoom (c.link side.other) capacity) : ∃ poll, Takes c side half capacity poll := by
  cases hQueue : (c.link side.other).stream.queue with
  | nil =>
    cases hEnded : (c.link side.other).stream.ended with
    | true => exact ⟨_, takes_end hPolls ⟨hQueue, hEnded⟩⟩
    | false => exact ⟨_, takes_nothing hPolls hQueue hEnded⟩
  | cons item queue =>
    have hItem : Carried item := h side.other item (by rw [hQueue]; exact List.mem_cons_self)
    rw [HasRoom, hQueue] at hRoom
    rcases hItem.cases with ⟨data, rfl, hSome⟩ | hControl
    · exact ⟨_, takes_data hPolls hQueue hSome (hRoom data rfl)⟩
    · exact takes_control hPolls hQueue hControl

end

theorem mem_of_read {capacity : Nat}
    (hMem : item ∈ (l.read capacity).stream.queue ++ (l.read capacity).inFlight) :
    item ∈ l.stream.queue ++ l.inFlight := by
  obtain ⟨inFlight, ⟨items, ended⟩, sent, handedOut, closed, panicked, falseEof⟩ := l
  cases items with
  | nil => cases ended <;> exact hMem
  | cons head queue =>
    apply List.mem_cons_of_mem head
    rcases head with text | message
    · exact hMem
    · cases message with
      | binary data =>
        rw [@WsLink.read_data _ (.ok (.binary data)) queue data rfl rfl] at hMem
        split at hMem <;> exact hMem
      | text text =>
        rw [@WsLink.read_data _ (.ok (.text text)) queue (utf8Bytes text) rfl rfl] at hMem
        split at hMem <;> exact hMem
      | _ => exact hMem

end Fleximq.Session.Ws
