import Fleximq.Foundation.Trace

/-! # The WebSocket byte stream

`poll_write` sends each buffer as one binary message and `poll_read` copies each
binary or text message whole into the caller's buffer. The two sides are modelled
with the messages between them, which arrive whole and in order.
-/
namespace Fleximq.Transport
open Foundation

/-! ## The reader -/

inductive WsMessage where
  | binary (data : List UInt8)
  | text (text : String)
  | ping (data : List UInt8)
  | pong (data : List UInt8)
  | frame (data : List UInt8)
  | close
  deriving DecidableEq

inductive Poll (α : Type) where
  | pending
  | ready (value : α)
  deriving DecidableEq

/-- The inner stream: the items that have arrived and not been polled, and whether it ends after
them. -/
structure WebSocketStream where
  queue : List (Except String WsMessage)
  ended : Bool
  deriving DecidableEq

def WebSocketStream.pollNext (s : WebSocketStream) :
    WebSocketStream × Poll (Option (Except String WsMessage)) :=
  match s.queue with
  | item :: queue => ({ s with queue := queue }, .ready (some item))
  | [] => (s, if s.ended then .ready none else .pending)

structure ReadBuf where
  capacity : Nat
  filled : List UInt8

/-- `ReadBuf::put_slice`, which panics (`none`) when the slice is longer than what remains. -/
def ReadBuf.putSlice (buf : ReadBuf) (data : List UInt8) : Option ReadBuf :=
  if buf.capacity - buf.filled.length < data.length then none
  else some { buf with filled := buf.filled ++ data }

theorem ReadBuf.putSlice_empty (capacity : Nat) (data : List UInt8) :
    ReadBuf.putSlice ⟨capacity, []⟩ data =
      if capacity < data.length then none else some ⟨capacity, data⟩ := rfl

inductive ReadResult where
  | polled (result : Poll (Except String Unit))
  | panicked
  deriving DecidableEq

def readInto (s : WebSocketStream) (buf : ReadBuf) (data : List UInt8) :
    WebSocketStream × ReadBuf × ReadResult :=
  match buf.putSlice data with
  | some buf => (s, buf, .polled (.ready (.ok ())))
  | none => (s, buf, .panicked)

def utf8Bytes (text : String) : List UInt8 := text.toUTF8.data.toList

def WebSocketStream.pollRead (s : WebSocketStream) (buf : ReadBuf) :
    WebSocketStream × ReadBuf × ReadResult :=
  match s.pollNext with
  | (s, .pending) => (s, buf, .polled .pending)
  | (s, .ready (some (.ok (.binary data)))) => readInto s buf data
  | (s, .ready (some (.ok (.text text)))) => readInto s buf (utf8Bytes text)
  | (s, .ready (some (.ok .close))) => (s, buf, .polled (.ready (.ok ())))
  | (s, .ready none) => (s, buf, .polled (.ready (.ok ())))
  | (s, .ready (some (.error e))) => (s, buf, .polled (.ready (.error e)))
  | (s, .ready (some (.ok _))) => (s, buf, .polled .pending)

/-! ## The writer -/

/-- `poll_write`, given what the sink answers to `poll_ready` and `start_send`: the message sent,
if one is, and the result. -/
def pollWrite (pollReady : Poll (Except String Unit)) (startSend : Except String Unit)
    (buf : List UInt8) : Option WsMessage × Poll (Except String Nat) :=
  match pollReady with
  | .pending => (none, .pending)
  | .ready (.error e) => (none, .ready (.error e))
  | .ready (.ok ()) =>
    match startSend with
    | .error e => (none, .ready (.error e))
    | .ok () => (some (.binary buf), .ready (.ok buf.length))

/-! ## The connection -/

/-- Both sides of a connection, with a record of what was sent and of what the reader was given. -/
structure WsLink where
  inFlight : List (Except String WsMessage)
  stream : WebSocketStream
  sent : List (Except String WsMessage)
  handedOut : List UInt8
  /-- The reader has seen a Close message or the end of the inner stream. -/
  closed : Bool
  panicked : Bool
  /-- A read has reported the end of the stream before it was closed. -/
  falseEof : Bool

def WsLink.init : WsLink := ⟨[], ⟨[], false⟩, [], [], false, false, false⟩

inductive WsEvent where
  | write (pollReady : Poll (Except String Unit)) (startSend : Except String Unit) (buf : List UInt8)
  /-- Any other message of the writer's side, or an error of the connection. -/
  | send (item : Except String WsMessage)
  | arrive
  | finish
  | read (capacity : Nat)

namespace WsLink

def enqueue (l : WsLink) (item : Except String WsMessage) : WsLink :=
  { l with inFlight := l.inFlight ++ [item], sent := l.sent ++ [item] }

def closes : Poll (Option (Except String WsMessage)) → Bool
  | .ready none | .ready (some (.ok .close)) => true
  | _ => false

def read (l : WsLink) (capacity : Nat) : WsLink :=
  let closed := l.closed || closes l.stream.pollNext.2
  match l.stream.pollRead ⟨capacity, []⟩ with
  | (stream, buf, .polled result) =>
    { l with
      stream := stream
      handedOut := l.handedOut ++ buf.filled
      closed := closed
      falseEof := l.falseEof || (result == .ready (.ok ()) && buf.filled.isEmpty && !closed) }
  | (stream, _, .panicked) => { l with stream := stream, panicked := true }

def react (l : WsLink) : WsEvent → WsLink
  | .write pollReady startSend buf =>
    match (pollWrite pollReady startSend buf).1 with
    | some message => l.enqueue (.ok message)
    | none => l
  | .send item => l.enqueue item
  | .arrive =>
    match l.inFlight with
    | item :: inFlight =>
      { l with inFlight := inFlight, stream := { l.stream with queue := l.stream.queue ++ [item] } }
    | [] => l
  | .finish => { l with stream := { l.stream with ended := true } }
  | .read capacity => l.read capacity

def step (l : WsLink) (event : WsEvent) : WsLink := if l.panicked then l else l.react event

/-! ## Fidelity -/

def dataOf : Except String WsMessage → Option (List UInt8)
  | .ok (.binary data) => some data
  | .ok (.text text) => some (utf8Bytes text)
  | _ => none

def payloads (items : List (Except String WsMessage)) : List UInt8 :=
  items.flatMap fun item => (dataOf item).getD []

/-- The reader was handed the bytes that were sent, in order, up to those that wait for it, and
nothing else happened to it. -/
structure Faithful (l : WsLink) : Prop where
  noPanic : l.panicked = false
  conserved : l.handedOut ++ payloads (l.stream.queue ++ l.inFlight) = payloads l.sent
  noFalseEof : l.falseEof = false

theorem Faithful.handedOut_isPrefix {l : WsLink} (h : l.Faithful) : l.handedOut <+: payloads l.sent :=
  ⟨_, h.conserved⟩

/-- The data that the next read gets, if any, fits the buffer, and is not empty unless the stream
was closed before. -/
def Delivers (l : WsLink) : WsEvent → Prop
  | .read capacity =>
    ∀ data, l.stream.queue.head?.bind dataOf = some data →
      data.length ≤ capacity ∧ (data = [] → l.closed = true)
  | _ => True

theorem payloads_append (xs ys : List (Except String WsMessage)) :
    payloads (xs ++ ys) = payloads xs ++ payloads ys := List.flatMap_append

theorem payloads_cons (item : Except String WsMessage) (items : List (Except String WsMessage)) :
    payloads (item :: items) = (dataOf item).getD [] ++ payloads items := List.flatMap_cons

/-! ## One read -/

theorem waiting_of_data {l : WsLink} {data : List UInt8}
    (h : l.stream.queue.head?.bind dataOf = some data) :
    ∃ item queue, l.stream.queue = item :: queue ∧ dataOf item = some data := by
  cases hQueue : l.stream.queue with
  | nil =>
    rw [hQueue] at h
    cases h
  | cons item queue =>
    rw [hQueue] at h
    exact ⟨item, queue, rfl, h⟩

theorem dataOf_eq_some {item : Except String WsMessage} {data : List UInt8}
    (h : dataOf item = some data) :
    item = .ok (.binary data) ∨ ∃ text, item = .ok (.text text) ∧ utf8Bytes text = data := by
  rcases item with e | message
  · cases h
  · cases message with
    | binary payload =>
      cases h
      exact .inl rfl
    | text text =>
      cases h
      exact .inr ⟨text, rfl, rfl⟩
    | _ => cases h

theorem pollRead_data {s : WebSocketStream} {item : Except String WsMessage}
    {queue : List (Except String WsMessage)} {data : List UInt8} (hQueue : s.queue = item :: queue)
    (hData : dataOf item = some data) (buf : ReadBuf) :
    s.pollRead buf = readInto { s with queue := queue } buf data := by
  rw [WebSocketStream.pollRead, WebSocketStream.pollNext, hQueue]
  obtain rfl | ⟨text, rfl, rfl⟩ := dataOf_eq_some hData
  · rfl
  · rfl

theorem read_data {l : WsLink} {item : Except String WsMessage} {queue : List (Except String WsMessage)}
    {data : List UInt8} (hQueue : l.stream.queue = item :: queue) (hData : dataOf item = some data)
    (capacity : Nat) :
    l.read capacity =
      if capacity < data.length then { l with stream := { l.stream with queue := queue }, panicked := true }
      else
        { l with
          stream := { l.stream with queue := queue }
          handedOut := l.handedOut ++ data
          falseEof := l.falseEof || (data.isEmpty && !l.closed) } := by
  have hCloses : closes l.stream.pollNext.2 = false := by
    rw [WebSocketStream.pollNext, hQueue]
    obtain rfl | ⟨text, rfl, rfl⟩ := dataOf_eq_some hData
    · rfl
    · rfl
  rw [read, pollRead_data hQueue hData, hCloses, readInto, ReadBuf.putSlice_empty]
  rcases Nat.lt_or_ge capacity data.length with hLong | hFits
  · rw [if_pos hLong, if_pos hLong]
  · rw [if_neg (Nat.not_lt.mpr hFits), if_neg (Nat.not_lt.mpr hFits)]
    simp

theorem read_idle {l : WsLink} (h : l.stream.queue.head?.bind dataOf = none) (capacity : Nat) :
    ∃ queue closed, payloads queue = payloads l.stream.queue ∧
      l.read capacity = { l with stream := { l.stream with queue := queue }, closed := closed } := by
  cases hQueue : l.stream.queue with
  | nil =>
    have hKept : ({ l.stream with queue := [] } : WebSocketStream) = l.stream := by rw [← hQueue]
    refine ⟨[], l.closed || l.stream.ended, rfl, ?_⟩
    rw [read, WebSocketStream.pollRead, WebSocketStream.pollNext, hQueue, hKept]
    cases l.stream.ended <;> simp [closes]
  | cons item queue =>
    rw [hQueue] at h
    have hNone : dataOf item = none := h
    have hRead : ∃ closed, l.read capacity =
        { l with stream := { l.stream with queue := queue }, closed := closed } := by
      rw [read, WebSocketStream.pollRead, WebSocketStream.pollNext, hQueue]
      rcases item with e | message
      · exact ⟨l.closed, by simp [closes]⟩
      · cases message with
        | binary data => cases hNone
        | text text => cases hNone
        | close => exact ⟨true, by simp [closes]⟩
        | ping data => exact ⟨l.closed, by simp [closes]⟩
        | pong data => exact ⟨l.closed, by simp [closes]⟩
        | frame data => exact ⟨l.closed, by simp [closes]⟩
    obtain ⟨closed, hRead⟩ := hRead
    refine ⟨queue, closed, ?_, hRead⟩
    rw [payloads_cons, hNone]
    rfl

/-! ## Every step -/

def Conserved (l : WsLink) : Prop :=
  l.panicked = false → l.handedOut ++ payloads (l.stream.queue ++ l.inFlight) = payloads l.sent

def Unbroken (l : WsLink) : Prop := l.panicked = false ∧ l.falseEof = false

theorem faithful_iff {l : WsLink} (hConserved : l.Conserved) : l.Faithful ↔ l.Unbroken :=
  ⟨fun h => ⟨h.noPanic, h.noFalseEof⟩, fun h => ⟨h.1, hConserved h.1, h.2⟩⟩

theorem conserved_enqueue {l : WsLink} (h : l.Conserved) (item : Except String WsMessage) :
    (l.enqueue item).Conserved := by
  intro hPanicked
  have hBefore := h hPanicked
  change l.handedOut ++ payloads (l.stream.queue ++ (l.inFlight ++ [item])) = payloads (l.sent ++ [item])
  rw [← List.append_assoc l.stream.queue, payloads_append, ← List.append_assoc, hBefore, payloads_append]

theorem conserved_read {l : WsLink} (h : l.Conserved) (capacity : Nat) : (l.read capacity).Conserved := by
  cases hNext : l.stream.queue.head?.bind dataOf with
  | none =>
    obtain ⟨queue, closed, hPayloads, hRead⟩ := read_idle hNext capacity
    rw [hRead]
    intro hPanicked
    have hBefore := h hPanicked
    change l.handedOut ++ payloads (queue ++ l.inFlight) = payloads l.sent
    rw [payloads_append, hPayloads, ← payloads_append, hBefore]
  | some data =>
    obtain ⟨item, queue, hQueue, hData⟩ := waiting_of_data hNext
    rw [read_data hQueue hData]
    split
    · intro hPanicked
      cases hPanicked
    · intro hPanicked
      have hBefore := h hPanicked
      rw [hQueue, List.cons_append, payloads_cons, hData] at hBefore
      change l.handedOut ++ data ++ payloads (queue ++ l.inFlight) = payloads l.sent
      rw [List.append_assoc]
      exact hBefore

theorem conserved_react {l : WsLink} (h : l.Conserved) (event : WsEvent) : (l.react event).Conserved := by
  cases event with
  | write pollReady startSend buf =>
    rw [react]
    split
    · exact conserved_enqueue h _
    · exact h
  | send item => exact conserved_enqueue h item
  | arrive =>
    rw [react]
    split
    next item inFlight hFlight =>
      intro hPanicked
      have hBefore := h hPanicked
      rw [hFlight] at hBefore
      change l.handedOut ++ payloads (l.stream.queue ++ [item] ++ inFlight) = payloads l.sent
      rw [List.append_assoc]
      exact hBefore
    next => exact h
  | finish => exact h
  | read capacity => exact conserved_read h capacity

theorem conserved_step (l : WsLink) (event : WsEvent) (h : l.Conserved) : (l.step event).Conserved := by
  rw [step]
  split
  · exact h
  · exact conserved_react h event

theorem unbroken_read {l : WsLink} (h : l.Unbroken) (capacity : Nat) :
    (l.read capacity).Unbroken ↔ l.Delivers (.read capacity) := by
  cases hNext : l.stream.queue.head?.bind dataOf with
  | none =>
    obtain ⟨queue, closed, -, hRead⟩ := read_idle hNext capacity
    rw [hRead, Delivers, hNext]
    exact ⟨fun _ _ hData => (nomatch hData), fun _ => h⟩
  | some data =>
    obtain ⟨item, queue, hQueue, hData⟩ := waiting_of_data hNext
    have hDelivers : l.Delivers (.read capacity) ↔
        data.length ≤ capacity ∧ (data = [] → l.closed = true) := by
      rw [Delivers, hNext]
      simp
    rw [hDelivers, read_data hQueue hData]
    split
    next hLong =>
      constructor
      · intro hUnbroken
        cases hUnbroken.1
      · intro hFits
        exact absurd hFits.1 (Nat.not_le.mpr hLong)
    next hFits =>
      rw [Unbroken, h.1, h.2]
      simp [Nat.not_lt.mp hFits]

theorem react_flags {l : WsLink} {event : WsEvent} (hNotRead : ∀ capacity, event ≠ .read capacity) :
    (l.react event).panicked = l.panicked ∧ (l.react event).falseEof = l.falseEof := by
  cases event with
  | read capacity => exact absurd rfl (hNotRead capacity)
  | write pollReady startSend buf =>
    rw [react]
    split <;> exact ⟨rfl, rfl⟩
  | arrive =>
    rw [react]
    split <;> exact ⟨rfl, rfl⟩
  | send item => exact ⟨rfl, rfl⟩
  | finish => exact ⟨rfl, rfl⟩

theorem unbroken_of_flags {l next : WsLink}
    (hFlags : next.panicked = l.panicked ∧ next.falseEof = l.falseEof) (h : l.Unbroken) : next.Unbroken :=
  ⟨hFlags.1.trans h.1, hFlags.2.trans h.2⟩

theorem unbroken_step (l : WsLink) (event : WsEvent) (h : l.Unbroken) :
    (l.step event).Unbroken ↔ l.Delivers event := by
  rw [step, if_neg (by rw [h.1]; decide)]
  cases event with
  | read capacity => exact unbroken_read h capacity
  | _ => exact ⟨fun _ => trivial, fun _ => unbroken_of_flags (react_flags (by rintro capacity ⟨⟩)) h⟩

/-! ## Every run -/

theorem conserved_run (events : List WsEvent) : (Trace.run step init events).Conserved :=
  Trace.run_invariant conserved_step (fun _ => rfl) events

/-- A run is faithful in every state it reaches exactly when each read finds, at the head of the
queue, no data longer than its buffer and no empty data before the stream is closed. -/
theorem faithfulThroughout_iff (events : List WsEvent) :
    (∀ before, before <+: events → (Trace.run step init before).Faithful) ↔
      Trace.Along step Delivers init events := by
  have hFaithful (before : List WsEvent) : (Trace.run step init before).Faithful ↔
      (Trace.run step init before).Unbroken := faithful_iff (conserved_run before)
  simp only [hFaithful]
  exact Trace.throughout_iff_along unbroken_step ⟨rfl, rfl⟩ events

/-- Three bytes written as one message make a read with a buffer of two panic, and an empty message
is reported as the end of an open stream. -/
theorem not_faithful_longMessage :
    ¬ (Trace.run step init
      [.write (.ready (.ok ())) (.ok ()) [1, 2, 3], .arrive, .read 2]).Faithful ∧
    ¬ (Trace.run step init
      [.write (.ready (.ok ())) (.ok ()) [], .arrive, .read 8]).Faithful :=
  ⟨fun h => absurd h.noPanic (by decide), fun h => absurd h.noFalseEof (by decide)⟩

end WsLink
end Fleximq.Transport
