import Fleximq.Foundation.Trace
import Fleximq.Protocol.FrameRoundTrip
import Fleximq.Transport.Error

/-! # The two halves of a split peer

`Client::send_message` and `Server::receive_message` each take the write guard of
the one framed stream and keep it until their expression ends: the sender until
the message is flushed, the receiver until a message arrives. The remote answers
messages that it has received.
-/
namespace Fleximq.Split
open Foundation Fleximq.Protocol Fleximq.Transport

/-- Where the client half is in `self.write().await.send(message).await`. -/
inductive ClientPhase where
  | idle
  | waiting (message : RawMessage)
  | sending (message : RawMessage)

/-- Where the server half is in `self.write().await.next().await`. -/
inductive ServerPhase where
  | idle
  | waiting
  | receiving

/-- The halves, the messages under way to the remote, how many it has not answered, and what is
under way to the peer. -/
structure State where
  client : ClientPhase
  server : ServerPhase
  outbound : List RawMessage
  owed : Nat
  inbound : List (Except ProtocolError Message)

def split : State := ⟨.idle, .idle, [], 0, []⟩

inductive Event where
  | clientCalls (message : RawMessage)
  | clientLocks
  | clientReturns (result : Except TransportError Unit)
  | serverCalls
  | serverLocks
  | serverReturns
  | remoteReceives
  | remoteAnswers (answer : Except ProtocolError Message)
  | remoteDrops

def State.unlocked (s : State) : Bool :=
  match s.client, s.server with
  | .sending _, _ => false
  | _, .receiving => false
  | _, _ => true

def step (s : State) : Event → State
  | .clientCalls message =>
    match s.client with
    | .idle => { s with client := .waiting message }
    | _ => s
  | .clientLocks =>
    match s.client with
    | .waiting message => if s.unlocked then { s with client := .sending message } else s
    | _ => s
  | .clientReturns result =>
    match s.client, result with
    | .sending message, .ok () => { s with client := .idle, outbound := s.outbound ++ [message] }
    | .sending _, .error _ => { s with client := .idle }
    | _, _ => s
  | .serverCalls =>
    match s.server with
    | .idle => { s with server := .waiting }
    | _ => s
  | .serverLocks =>
    match s.server with
    | .waiting => if s.unlocked then { s with server := .receiving } else s
    | _ => s
  | .serverReturns =>
    match s.server, s.inbound with
    | .receiving, _ :: inbound => { s with server := .idle, inbound := inbound }
    | _, _ => s
  | .remoteReceives =>
    match s.outbound with
    | _ :: outbound => { s with outbound := outbound, owed := s.owed + 1 }
    | [] => s
  | .remoteAnswers answer =>
    match s.owed with
    | owed + 1 => { s with owed := owed, inbound := s.inbound ++ [answer] }
    | 0 => s
  | .remoteDrops =>
    match s.owed with
    | owed + 1 => { s with owed := owed }
    | 0 => s

structure State.Quiet (s : State) : Prop where
  outbound : s.outbound = []
  owed : s.owed = 0
  inbound : s.inbound = []

def State.ClientWaits (s : State) : Prop := ∃ message, s.client = .waiting message

/-- The server half waits for a message with the guard in its hands, the client half waits for the
guard, and nothing is under way. -/
structure State.Stuck (s : State) : Prop where
  server : s.server = .receiving
  client : s.ClientWaits
  quiet : s.Quiet

theorem State.Stuck.step_eq {s : State} (h : s.Stuck) (event : Event) : step s event = s := by
  obtain ⟨client, server, outbound, owed, inbound⟩ := s
  obtain ⟨rfl, ⟨message, rfl⟩, ⟨rfl, rfl, rfl⟩⟩ := h
  cases event <;> rfl

theorem State.Stuck.step {s : State} (event : Event) (h : s.Stuck) : (step s event).Stuck := by
  rw [h.step_eq event]
  exact h

/-- With a send pending, the state is stuck exactly when nothing can happen any more. -/
theorem stuck_iff_stopped {s : State} (hPending : s.client ≠ .idle) :
    s.Stuck ↔ ∀ event, step s event = s := by
  refine ⟨fun h event => h.step_eq event, ?_⟩
  intro hStopped
  obtain ⟨client, server, outbound, owed, inbound⟩ := s
  cases client with
  | idle => exact absurd rfl hPending
  | sending message => cases congrArg State.client (hStopped (.clientReturns (.ok ())))
  | waiting message =>
    cases server with
    | idle => cases congrArg State.server (hStopped .serverCalls)
    | waiting => cases congrArg State.server (hStopped .serverLocks)
    | receiving =>
      refine ⟨rfl, ⟨message, rfl⟩, ?_, ?_, ?_⟩
      · cases outbound with
        | nil => rfl
        | cons first rest => cases congrArg State.owed (hStopped .remoteReceives)
      · cases owed with
        | zero => rfl
        | succ owed => cases congrArg State.owed (hStopped .remoteDrops)
      · cases inbound with
        | nil => rfl
        | cons first rest => cases congrArg State.server (hStopped .serverReturns)

/-! ## What an event does -/

/-- The event can happen in the state, and what it makes of it. -/
inductive Happens (s : State) : Event → State → Prop where
  | clientCalls {message} :
    s.client = .idle → Happens s (.clientCalls message) { s with client := .waiting message }
  | clientLocks {message} :
    s.client = .waiting message → s.unlocked = true →
    Happens s .clientLocks { s with client := .sending message }
  | clientSends {message} :
    s.client = .sending message →
    Happens s (.clientReturns (.ok ())) { s with client := .idle, outbound := s.outbound ++ [message] }
  | clientFails {message e} :
    s.client = .sending message → Happens s (.clientReturns (.error e)) { s with client := .idle }
  | serverCalls : s.server = .idle → Happens s .serverCalls { s with server := .waiting }
  | serverLocks :
    s.server = .waiting → s.unlocked = true → Happens s .serverLocks { s with server := .receiving }
  | serverReturns {item inbound} :
    s.server = .receiving → s.inbound = item :: inbound →
    Happens s .serverReturns { s with server := .idle, inbound := inbound }
  | remoteReceives {message outbound} :
    s.outbound = message :: outbound →
    Happens s .remoteReceives { s with outbound := outbound, owed := s.owed + 1 }
  | remoteAnswers {answer owed} :
    s.owed = owed + 1 →
    Happens s (.remoteAnswers answer) { s with owed := owed, inbound := s.inbound ++ [answer] }
  | remoteDrops {owed} : s.owed = owed + 1 → Happens s .remoteDrops { s with owed := owed }

theorem step_cases (s : State) (event : Event) : step s event = s ∨ Happens s event (step s event) := by
  obtain ⟨client, server, outbound, owed, inbound⟩ := s
  cases event with
  | clientCalls message =>
    cases client with
    | idle => exact .inr (.clientCalls rfl)
    | waiting _ => exact .inl rfl
    | sending _ => exact .inl rfl
  | clientLocks =>
    cases client with
    | idle => exact .inl rfl
    | sending _ => exact .inl rfl
    | waiting message =>
      rw [step]
      dsimp only
      split
      next hUnlocked => exact .inr (.clientLocks rfl hUnlocked)
      next => exact .inl rfl
  | clientReturns result =>
    cases client with
    | idle => exact .inl rfl
    | waiting _ => exact .inl rfl
    | sending message =>
      cases result with
      | ok _ => exact .inr (.clientSends rfl)
      | error e => exact .inr (.clientFails rfl)
  | serverCalls =>
    cases server with
    | idle => exact .inr (.serverCalls rfl)
    | waiting => exact .inl rfl
    | receiving => exact .inl rfl
  | serverLocks =>
    cases server with
    | idle => exact .inl rfl
    | receiving => exact .inl rfl
    | waiting =>
      rw [step]
      dsimp only
      split
      next hUnlocked => exact .inr (.serverLocks rfl hUnlocked)
      next => exact .inl rfl
  | serverReturns =>
    cases server with
    | idle => exact .inl rfl
    | waiting => exact .inl rfl
    | receiving =>
      cases inbound with
      | nil => exact .inl rfl
      | cons item inbound => exact .inr (.serverReturns rfl rfl)
  | remoteReceives =>
    cases outbound with
    | nil => exact .inl rfl
    | cons message outbound => exact .inr (.remoteReceives rfl)
  | remoteAnswers answer =>
    cases owed with
    | zero => exact .inl rfl
    | succ owed => exact .inr (.remoteAnswers rfl)
  | remoteDrops =>
    cases owed with
    | zero => exact .inl rfl
    | succ owed => exact .inr (.remoteDrops rfl)

/-! ## The guard -/

theorem State.unlocked_iff {s : State} :
    s.unlocked = true ↔ (∀ message, s.client ≠ .sending message) ∧ s.server ≠ .receiving := by
  obtain ⟨client, server, outbound, owed, inbound⟩ := s
  cases client <;> cases server <;> simp [State.unlocked]

def State.Exclusive (s : State) : Prop := ∀ message, s.client = .sending message → s.server ≠ .receiving

theorem exclusive_step (s : State) (event : Event) (h : s.Exclusive) : (step s event).Exclusive := by
  rcases step_cases s event with hSame | hHappens
  · rw [hSame]
    exact h
  · generalize step s event = next at hHappens
    intro message hSending
    cases hHappens with
    | clientCalls _ => cases hSending
    | clientLocks _ hUnlocked => exact (State.unlocked_iff.mp hUnlocked).2
    | clientSends _ => cases hSending
    | clientFails _ => cases hSending
    | serverCalls _ => exact nofun
    | serverLocks _ hUnlocked => exact absurd hSending ((State.unlocked_iff.mp hUnlocked).1 message)
    | serverReturns _ _ => exact nofun
    | remoteReceives _ => exact h message hSending
    | remoteAnswers _ => exact h message hSending
    | remoteDrops _ => exact h message hSending

theorem exclusive_run (events : List Event) : (Trace.run step split events).Exclusive := by
  apply Trace.run_invariant exclusive_step
  intro message hClient
  cases hClient

/-! ## Where a peer gets stuck -/

/-- The three events that can leave the peer stuck: a send that begins while the server half waits, a
receive that gets the guard before a waiting send, and an answer that does not come. -/
def Avoids (s : State) : Event → Prop
  | .clientCalls _ => s.client = .idle → s.server = .receiving → ¬ s.Quiet
  | .serverLocks => s.server = .waiting → s.ClientWaits → ¬ s.Quiet
  | .remoteDrops => s.server = .receiving → s.ClientWaits → ¬ State.Quiet { s with owed := s.owed - 1 }
  | _ => True

theorem not_avoids_of_happens {s next : State} {event : Event} (h : Happens s event next)
    (hStuck : next.Stuck) : ¬ Avoids s event := by
  obtain ⟨hServer, ⟨message, hClient⟩, hOutbound, hOwed, hInbound⟩ := hStuck
  cases h with
  | clientCalls hIdle => exact fun hAvoids => hAvoids hIdle hServer ⟨hOutbound, hOwed, hInbound⟩
  | clientLocks _ _ => cases hClient
  | clientSends _ => cases hClient
  | clientFails _ => cases hClient
  | serverCalls _ => cases hServer
  | serverLocks hWaiting _ =>
    exact fun hAvoids => hAvoids hWaiting ⟨message, hClient⟩ ⟨hOutbound, hOwed, hInbound⟩
  | serverReturns _ _ => cases hServer
  | remoteReceives _ => cases hOwed
  | remoteAnswers _ => exact absurd hInbound (List.append_ne_nil_of_right_ne_nil _ (List.cons_ne_nil _ _))
  | remoteDrops hLast =>
    obtain rfl := hOwed
    refine fun hAvoids => hAvoids hServer ⟨message, hClient⟩ ⟨hOutbound, ?_, hInbound⟩
    change _ - 1 = 0
    rw [hLast]

theorem stuck_of_not_avoids {s : State} {event : Event} (h : ¬ Avoids s event) : (step s event).Stuck := by
  obtain ⟨client, server, outbound, owed, inbound⟩ := s
  cases event with
  | clientCalls message =>
    simp only [Avoids, Classical.not_imp, not_not] at h
    obtain ⟨rfl, rfl, hQuiet⟩ := h
    exact ⟨rfl, ⟨message, rfl⟩, hQuiet.outbound, hQuiet.owed, hQuiet.inbound⟩
  | serverLocks =>
    simp only [Avoids, Classical.not_imp, not_not] at h
    obtain ⟨rfl, ⟨message, rfl⟩, hQuiet⟩ := h
    exact ⟨rfl, ⟨message, rfl⟩, hQuiet.outbound, hQuiet.owed, hQuiet.inbound⟩
  | remoteDrops =>
    simp only [Avoids, Classical.not_imp, not_not] at h
    obtain ⟨rfl, ⟨message, rfl⟩, hQuiet⟩ := h
    cases owed with
    | zero => exact ⟨rfl, ⟨message, rfl⟩, hQuiet.outbound, rfl, hQuiet.inbound⟩
    | succ owed => exact ⟨rfl, ⟨message, rfl⟩, hQuiet.outbound, hQuiet.owed, hQuiet.inbound⟩
  | _ => exact absurd trivial h

theorem stuck_step_iff {s : State} (hFree : ¬ s.Stuck) (event : Event) :
    ¬ (step s event).Stuck ↔ Avoids s event := by
  constructor
  · intro hNext
    by_contra hBad
    exact hNext (stuck_of_not_avoids hBad)
  · intro hAvoids hStuck
    rcases step_cases s event with hSame | hHappens
    · rw [hSame] at hStuck
      exact hFree hStuck
    · exact not_avoids_of_happens hHappens hStuck hAvoids

/-- The peer never gets stuck exactly in the runs that avoid those events. -/
theorem neverStuck_iff (events : List Event) :
    (∀ before, before <+: events → ¬ (Trace.run step split before).Stuck) ↔
      Trace.Along step Avoids split events := by
  have hStep (s : State) (event : Event) (hFree : ¬ s.Stuck) :
      ¬ (step s event).Stuck ↔ Avoids s event := stuck_step_iff hFree event
  have hInit : ¬ split.Stuck := by
    intro hStuck
    cases hStuck.server
  exact Trace.throughout_iff_along hStep hInit events

theorem receive_first_stuck :
    (Trace.run step split [.serverCalls, .serverLocks, .clientCalls newsMessage]).Stuck ∧
      ∀ events, (Trace.run step split
        ([.serverCalls, .serverLocks, .clientCalls newsMessage] ++ events)).ClientWaits := by
  have hStuck : (Trace.run step split [.serverCalls, .serverLocks, .clientCalls newsMessage]).Stuck :=
    ⟨rfl, ⟨newsMessage, rfl⟩, ⟨rfl, rfl, rfl⟩⟩
  refine ⟨hStuck, ?_⟩
  intro events
  rw [Trace.run_append]
  exact (Trace.run_invariant (fun _ event h => h.step event) hStuck events).client

end Fleximq.Split
