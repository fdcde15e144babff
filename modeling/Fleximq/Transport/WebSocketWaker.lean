import Fleximq.Transport.WebSocket

/-! # Waking the reader of a WebSocket

The inner stream registers the waker of the reader when it has nothing to give,
and an arrival wakes a reader whose waker is registered. `poll_read` also returns
`Pending` for a control message that the inner stream did give, and then no waker
is registered.
-/
namespace Fleximq.Transport
open Foundation

inductive ReaderTask where
  | awake
  | asleep
  | panicked
  deriving DecidableEq

/-- The inner stream, whether the reader's waker is registered with it, and the reader. -/
structure WsReader where
  stream : WebSocketStream
  waker : Bool
  task : ReaderTask
  deriving DecidableEq

inductive WsReaderEvent where
  | arrive (item : Except String WsMessage)
  | finish
  | poll (capacity : Nat)

namespace WsReader

def init : WsReader := ⟨⟨[], false⟩, false, .awake⟩

/-- The inner stream has changed: a registered waker is taken and wakes the reader. -/
def wake (r : WsReader) (stream : WebSocketStream) : WsReader :=
  if r.waker then ⟨stream, false, .awake⟩ else { r with stream := stream }

/-- A reader that is awake polls again; it goes to sleep when `poll_read` returns `Pending`. -/
def poll (r : WsReader) (capacity : Nat) : WsReader :=
  let registered := r.waker || r.stream.pollNext.2 == .pending
  match r.stream.pollRead ⟨capacity, []⟩ with
  | (stream, _, .polled .pending) => ⟨stream, registered, .asleep⟩
  | (stream, _, .polled (.ready _)) => ⟨stream, registered, .awake⟩
  | (stream, _, .panicked) => ⟨stream, registered, .panicked⟩

def step (r : WsReader) : WsReaderEvent → WsReader
  | .arrive item => r.wake { r.stream with queue := r.stream.queue ++ [item] }
  | .finish => r.wake { r.stream with ended := true }
  | .poll capacity => if r.task = .awake then r.poll capacity else r

/-- The reader sleeps, nothing will wake it, and an item waits for it. -/
structure Lost (r : WsReader) : Prop where
  asleep : r.task = .asleep
  unregistered : r.waker = false
  queued : r.stream.queue ≠ []

def isControl : Except String WsMessage → Bool
  | .ok (.ping _) | .ok (.pong _) | .ok (.frame _) => true
  | _ => false

def WsReaderEvent.arrivals : WsReaderEvent → List (Except String WsMessage)
  | .arrive item => [item]
  | _ => []

/-- The reader polls, and a Ping, a Pong or a raw frame is the next item. -/
def TakesControl (r : WsReader) : WsReaderEvent → Prop
  | .poll _ => r.task = .awake ∧ ∃ item ∈ r.stream.queue.head?, isControl item = true
  | _ => False

/-- Nothing is queued behind the control messages that are taken, and nothing arrives after them. -/
def NothingFollows (events : List WsReaderEvent) : Prop :=
  ∀ before event after, events = before ++ event :: after →
    TakesControl (Trace.run step init before) event →
    (Trace.run step init before).stream.queue.tail = [] ∧ ∀ later ∈ after, WsReaderEvent.arrivals later = []

/-! ## A reader that nothing wakes -/

structure Stranded (r : WsReader) : Prop where
  asleep : r.task = .asleep
  unregistered : r.waker = false

theorem lost_iff {r : WsReader} : r.Lost ↔ r.Stranded ∧ r.stream.queue ≠ [] :=
  ⟨fun h => ⟨⟨h.asleep, h.unregistered⟩, h.queued⟩, fun h => ⟨h.1.asleep, h.1.unregistered, h.2⟩⟩

theorem Stranded.step {r : WsReader} (h : r.Stranded) (event : WsReaderEvent) :
    (r.step event).Stranded ∧ (r.step event).stream.queue = r.stream.queue ++ WsReaderEvent.arrivals event := by
  cases event with
  | arrive item =>
    rw [WsReader.step, wake, if_neg (by rw [h.unregistered]; decide)]
    exact ⟨⟨h.asleep, h.unregistered⟩, rfl⟩
  | finish =>
    rw [WsReader.step, wake, if_neg (by rw [h.unregistered]; decide)]
    exact ⟨⟨h.asleep, h.unregistered⟩, (List.append_nil _).symm⟩
  | poll capacity =>
    rw [WsReader.step, if_neg (by rw [h.asleep]; decide)]
    exact ⟨h, (List.append_nil _).symm⟩

theorem Stranded.run {r : WsReader} (h : r.Stranded) (events : List WsReaderEvent) :
    (Trace.run WsReader.step r events).Stranded ∧
      (Trace.run WsReader.step r events).stream.queue =
        r.stream.queue ++ events.flatMap WsReaderEvent.arrivals := by
  induction events generalizing r with
  | nil => exact ⟨h, (List.append_nil _).symm⟩
  | cons event events ih =>
    obtain ⟨hNext, hQueue⟩ := h.step event
    obtain ⟨hLast, hAll⟩ := ih hNext
    refine ⟨hLast, hAll.trans ?_⟩
    rw [hQueue, List.append_assoc, List.flatMap_cons]

/-! ## One poll -/

theorem poll_data {r : WsReader} {item : Except String WsMessage} {queue : List (Except String WsMessage)}
    {data : List UInt8} (hQueue : r.stream.queue = item :: queue) (hData : WsLink.dataOf item = some data)
    (capacity : Nat) :
    r.poll capacity =
      ⟨{ r.stream with queue := queue }, r.waker,
        if capacity < data.length then .panicked else .awake⟩ := by
  have hNext : (r.stream.pollNext.2 == .pending) = false := by
    rw [WebSocketStream.pollNext, hQueue]
    rfl
  rw [poll, WsLink.pollRead_data hQueue hData, hNext, Bool.or_false, readInto, ReadBuf.putSlice_empty]
  split_ifs <;> rfl

/-- A poll that is given an item puts the reader to sleep exactly when it is a control message. -/
theorem poll_item {r : WsReader} {item : Except String WsMessage} {queue : List (Except String WsMessage)}
    (hQueue : r.stream.queue = item :: queue) (capacity : Nat) :
    ∃ task, r.poll capacity = ⟨{ r.stream with queue := queue }, r.waker, task⟩ ∧
      (task = .asleep ↔ isControl item = true) := by
  cases hData : WsLink.dataOf item with
  | some data =>
    refine ⟨_, poll_data hQueue hData capacity, ?_⟩
    obtain rfl | ⟨text, rfl, -⟩ := WsLink.dataOf_eq_some hData
    · split_ifs <;> simp [isControl]
    · split_ifs <;> simp [isControl]
  | none =>
    rw [poll, WebSocketStream.pollRead, WebSocketStream.pollNext, hQueue]
    rcases item with e | message
    · exact ⟨.awake, by simp, by simp [isControl]⟩
    · cases message with
      | binary data => cases hData
      | text text => cases hData
      | close => exact ⟨.awake, by simp, by simp [isControl]⟩
      | ping data => exact ⟨.asleep, by simp, by simp [isControl]⟩
      | pong data => exact ⟨.asleep, by simp, by simp [isControl]⟩
      | frame data => exact ⟨.asleep, by simp, by simp [isControl]⟩

theorem poll_empty {r : WsReader} (hQueue : r.stream.queue = []) (capacity : Nat) :
    r.poll capacity = if r.stream.ended then ⟨r.stream, r.waker, .awake⟩ else ⟨r.stream, true, .asleep⟩ := by
  rw [poll, WebSocketStream.pollRead, WebSocketStream.pollNext, hQueue]
  cases r.stream.ended with
  | true => simp
  | false => simp

/-! ## Every run -/

/-- A reader that is awake has not left its waker behind. -/
def Fresh (r : WsReader) : Prop := r.task = .awake → r.waker = false

theorem fresh_wake {r : WsReader} (h : r.Fresh) (stream : WebSocketStream) : (r.wake stream).Fresh := by
  rw [wake]
  split
  · exact fun _ => rfl
  · exact h

theorem fresh_step (r : WsReader) (event : WsReaderEvent) (h : r.Fresh) : (r.step event).Fresh := by
  cases event with
  | arrive item => exact fresh_wake h _
  | finish => exact fresh_wake h _
  | poll capacity =>
    rw [step]
    split
    next hAwake =>
      cases hQueue : r.stream.queue with
      | nil =>
        rw [poll_empty hQueue]
        split
        · exact fun _ => h hAwake
        · exact nofun
      | cons item queue =>
        obtain ⟨task, hPoll, -⟩ := poll_item hQueue capacity
        rw [hPoll]
        exact fun _ => h hAwake
    next => exact h

theorem not_stranded_wake {r : WsReader} (hFree : ¬ r.Stranded) (stream : WebSocketStream) :
    ¬ (r.wake stream).Stranded := by
  rw [wake]
  split
  · intro hStranded
    cases hStranded.asleep
  · intro hStranded
    exact hFree ⟨hStranded.asleep, hStranded.unregistered⟩

theorem stranded_poll_iff {r : WsReader} (hUnregistered : r.waker = false) (capacity : Nat) :
    (r.poll capacity).Stranded ↔ ∃ item ∈ r.stream.queue.head?, isControl item = true := by
  cases hQueue : r.stream.queue with
  | nil =>
    rw [poll_empty hQueue]
    refine iff_of_false ?_ (by simp)
    split
    · intro hStranded
      cases hStranded.asleep
    · intro hStranded
      cases hStranded.unregistered
  | cons item queue =>
    obtain ⟨task, hPoll, hTask⟩ := poll_item hQueue capacity
    rw [hPoll, List.head?_cons]
    constructor
    · intro hStranded
      exact ⟨item, rfl, hTask.mp hStranded.asleep⟩
    · rintro ⟨_, ⟨⟩, hControl⟩
      exact ⟨hTask.mpr hControl, hUnregistered⟩

/-- A reader is stranded by a control message that it takes, and by nothing else. -/
theorem stranded_step_iff {r : WsReader} (hFresh : r.Fresh) (hFree : ¬ r.Stranded) (event : WsReaderEvent) :
    (r.step event).Stranded ↔ r.TakesControl event := by
  cases event with
  | arrive item => exact iff_of_false (not_stranded_wake hFree _) not_false
  | finish => exact iff_of_false (not_stranded_wake hFree _) not_false
  | poll capacity =>
    rw [step, TakesControl]
    split
    next hAwake => rw [stranded_poll_iff (hFresh hAwake), and_iff_right hAwake]
    next hBusy => exact iff_of_false hFree fun hTakes => hBusy hTakes.1

theorem TakesControl.queue {r : WsReader} {event : WsReaderEvent} (h : r.TakesControl event) :
    (r.step event).stream.queue = r.stream.queue.tail := by
  cases event with
  | arrive item => exact h.elim
  | finish => exact h.elim
  | poll capacity =>
    obtain ⟨hAwake, item, hItem, -⟩ := h
    rw [step, if_pos hAwake]
    cases hQueue : r.stream.queue with
    | nil =>
      rw [hQueue] at hItem
      cases hItem
    | cons first queue =>
      obtain ⟨task, hPoll, -⟩ := poll_item hQueue capacity
      rw [hPoll, List.tail_cons]

theorem fresh_run (events : List WsReaderEvent) : (Trace.run step init events).Fresh :=
  Trace.run_invariant fresh_step (fun _ => rfl) events

theorem not_stranded_init : ¬ init.Stranded := fun h => nomatch h.asleep

theorem TakesControl.free {r : WsReader} {event : WsReaderEvent} (h : r.TakesControl event) : ¬ r.Stranded := by
  intro hStranded
  cases event with
  | arrive item => exact h.elim
  | finish => exact h.elim
  | poll capacity => exact absurd (h.1.symm.trans hStranded.asleep) (by decide)

/-- After a control message is taken the reader is stranded for good, and what is queued behind it or
arrives later waits. -/
theorem stranded_after {before after : List WsReaderEvent} {event : WsReaderEvent}
    (hTakes : (Trace.run step init before).TakesControl event) :
    (Trace.run step init (before ++ event :: after)).Stranded ∧
      (Trace.run step init (before ++ event :: after)).stream.queue =
        (Trace.run step init before).stream.queue.tail ++ after.flatMap WsReaderEvent.arrivals := by
  have hStranded := (stranded_step_iff (fresh_run before) hTakes.free event).mpr hTakes
  obtain ⟨hLast, hQueue⟩ := hStranded.run after
  rw [Trace.run_append]
  exact ⟨hLast, hQueue.trans (by rw [hTakes.queue])⟩

/-- No wake-up is lost in a run exactly when nothing follows the control messages that are taken. -/
theorem neverLost_iff (events : List WsReaderEvent) :
    (∀ before, before <+: events → ¬ (Trace.run step init before).Lost) ↔ NothingFollows events := by
  constructor
  · rintro hNever before event after rfl hTakes
    obtain ⟨hStranded, hQueue⟩ := stranded_after hTakes
    have hEmpty : (Trace.run step init (before ++ event :: after)).stream.queue = [] := by
      by_contra hQueued
      exact hNever _ (List.prefix_refl _) (lost_iff.mpr ⟨hStranded, hQueued⟩)
    rw [hQueue] at hEmpty
    obtain ⟨hBehind, hLater⟩ := List.append_eq_nil_iff.mp hEmpty
    exact ⟨hBehind, List.flatMap_eq_nil_iff.mp hLater⟩
  · rintro hNothing reached ⟨rest, rfl⟩ hLost
    obtain ⟨hStranded, hQueued⟩ := lost_iff.mp hLost
    obtain ⟨before, event, after, rfl, hFree, hStep⟩ := Trace.exists_first_step not_stranded_init hStranded
    have hTakes := (stranded_step_iff (fresh_run before) hFree event).mp hStep
    obtain ⟨hBehind, hLater⟩ := hNothing before event (after ++ rest)
      (by rw [List.append_assoc, List.cons_append]) hTakes
    obtain ⟨-, hQueue⟩ := stranded_after hTakes
    apply hQueued
    rw [hQueue, hBehind, List.nil_append, List.flatMap_eq_nil_iff]
    intro later hMem
    exact hLater later (List.mem_append_left rest hMem)

/-- A Ping and a binary message behind it: the Ping puts the reader to sleep, and nothing wakes it. -/
theorem lost_ping :
    (Trace.run step init [.arrive (.ok (.ping [])), .arrive (.ok (.binary [1])), .poll 8]).Lost :=
  ⟨by decide, by decide, by decide⟩

end WsReader
end Fleximq.Transport
