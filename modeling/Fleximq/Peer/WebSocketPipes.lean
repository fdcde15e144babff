import Fleximq.Peer.OverWebSocket

/-! # A WebSocket as a pair of pipes

Each step of two peers over a WebSocket is one step of the session over a pair of
byte pipes, or none, unless a read gets a message that is longer than its buffer, or
finds the end of the inner stream too early.
-/
namespace Fleximq.Session.Ws
open Foundation Fleximq.Protocol Fleximq.Transport

/-! ## Every step -/

variable {rmp : Rmp} {c c' : Connection} {side : Side} {half : Half}

/-- A state whose one end has changed, and what is under way in both directions. -/
theorem pipes_update {v : View} (hEndpoint : c'.endpoint = Function.update c.endpoint side v.endpoint)
    (hOutbound : pending (c'.link side) = v.outbound) (hInbound : pending (c'.link side.other) = v.inbound) :
    c'.pipes = c.pipes.update side v := by
  rw [Connection.pipes, State.update, hEndpoint]
  congr 1
  funext direction
  rcases side.eq_or direction with rfl | rfl
  · rw [hOutbound, Function.update_of_ne (Side.other_ne direction).symm, Function.update_self]
  · rw [hInbound, Function.update_self]

/-- The pipes of the second connection are what a run makes of those of the first. -/
def Simulated (rmp : Rmp) (c c' : Connection) : Prop :=
  ∃ events, c'.pipes = Trace.run (Session.step rmp) c.pipes events

theorem simulated_of_pipes (h : c'.pipes = c.pipes) : Simulated rmp c c' := ⟨[], h⟩

theorem simulated_of_act {v : View} {action : Action} (hPipes : c'.pipes = c.pipes.update side v)
    (hAct : (c.pipes.view side).act rmp (c.endpoint side.other).isClosed half action = v) :
    Simulated rmp c c' :=
  ⟨[⟨side, half, action⟩], hPipes.trans (congrArg (c.pipes.update side) hAct.symm)⟩

/-- A call leaves the pipes as they are. -/
theorem act_call (v : View) (closed : Bool) (half : Half) (call : Call) :
    (v.act rmp closed half call.action).outbound = v.outbound ∧
      (v.act rmp closed half call.action).inbound = v.inbound := by
  unfold View.act
  cases v.endpoint.phase half with
  | idle => cases call <;> exact ⟨rfl, rfl⟩
  | sendWaits message =>
    cases call with
    | lock =>
      dsimp only [Call.action]
      split <;> exact ⟨rfl, rfl⟩
    | _ => exact ⟨rfl, rfl⟩
  | feeding message =>
    cases call with
    | feed =>
      dsimp only [Call.action]
      rw [View.feed]
      split
      · split <;> exact ⟨rfl, rfl⟩
      · exact ⟨rfl, rfl⟩
    | _ => exact ⟨rfl, rfl⟩
  | flushing message =>
    cases call with
    | finish =>
      dsimp only [Call.action]
      split <;> exact ⟨rfl, rfl⟩
    | _ => exact ⟨rfl, rfl⟩
  | receiveWaits =>
    cases call with
    | lock =>
      dsimp only [Call.action]
      split <;> exact ⟨rfl, rfl⟩
    | _ => exact ⟨rfl, rfl⟩
  | receiving =>
    cases call with
    | decode =>
      change (v.decode half).outbound = _ ∧ (v.decode half).inbound = _
      rw [View.decode]
      split
      · split <;> split <;> exact ⟨rfl, rfl⟩
      · exact ⟨rfl, rfl⟩
    | stop =>
      change (v.stop half).outbound = _ ∧ (v.stop half).inbound = _
      rw [View.stop]
      split <;> exact ⟨rfl, rfl⟩
    | _ => exact ⟨rfl, rfl⟩
  | gone => exact ⟨rfl, rfl⟩

theorem call_simulated (c : Connection) (side : Side) (half : Half) (call : Call) :
    Simulated rmp c (c.call rmp side half call) := by
  obtain ⟨hOutbound, hInbound⟩ := @act_call rmp (c.pipes.view side) (c.endpoint side.other).isClosed half call
  exact simulated_of_act (pipes_update rfl hOutbound.symm hInbound.symm) rfl

theorem pending_enqueue (l : WsLink) (item : Except String WsMessage) :
    pending (l.enqueue item) = pending l ++ (WsLink.dataOf item).getD [] := by
  change WsLink.payloads (l.stream.queue ++ (l.inFlight ++ [item])) = _
  rw [← List.append_assoc, WsLink.payloads_append, WsLink.payloads_cons]
  exact congrArg (WsLink.payloads (l.stream.queue ++ l.inFlight) ++ ·) (List.append_nil _)

theorem pending_arrive (l : WsLink) : pending (l.react .arrive) = pending l := by
  rw [WsLink.react]
  split
  next item inFlight hFlight =>
    change WsLink.payloads (l.stream.queue ++ [item] ++ inFlight) = _
    rw [pending, hFlight, List.append_assoc, List.singleton_append]
  next => rfl

/-- The pipes do not show a change of a link that leaves what is pending. -/
theorem pipes_link {l : WsLink} (hPending : pending l = pending (c.link side)) :
    Connection.pipes { c with link := Function.update c.link side l } = c.pipes := by
  rw [Connection.pipes, Connection.pipes]
  congr 1
  funext direction
  by_cases hSame : direction = side
  · subst hSame
    dsimp only
    rw [Function.update_self, hPending]
  · dsimp only
    rw [Function.update_of_ne hSame]

/-- A half that writes. -/
theorem View.act_writing {v : View} {closed : Bool} (hWrites : writes (v.endpoint.phase half) = true) :
    (∀ n, v.act rmp closed half (.write n) = v.write n) ∧ v.act rmp closed half .writeFails = v.turn half .idle := by
  unfold View.act
  cases hPhase : v.endpoint.phase half with
  | feeding _ => exact ⟨fun _ => rfl, rfl⟩
  | flushing _ => exact ⟨fun _ => rfl, rfl⟩
  | _ =>
    rw [hPhase] at hWrites
    cases hWrites

theorem View.write_all (v : View) :
    v.write v.endpoint.framed.writeBuffer.length =
      { v.reframe { v.endpoint.framed with writeBuffer := [] } with
        outbound := v.outbound ++ v.endpoint.framed.writeBuffer } := by
  rw [View.write, List.drop_of_length_le (Nat.le_refl _), List.take_of_length_le (Nat.le_refl _)]

/-- All that `poll_write` can do. -/
theorem pollWrite_cases (pollReady : Poll (Except String Unit)) (startSend : Except String Unit)
    (buf : List UInt8) :
    pollWrite pollReady startSend buf = (some (.binary buf), .ready (.ok buf.length)) ∨
      (∃ e, pollWrite pollReady startSend buf = (none, .ready (.error e))) ∨
      pollWrite pollReady startSend buf = (none, .pending) := by
  cases pollReady with
  | pending => exact .inr (.inr rfl)
  | ready result =>
    rcases result with e | _
    · exact .inr (.inl ⟨e, rfl⟩)
    · rcases startSend with e | _
      · exact .inr (.inl ⟨e, rfl⟩)
      · exact .inl rfl

/-- All that a write or a flush can do. -/
inductive Writes (c : Connection) (side : Side) (half : Half) : Connection → Prop where
  | nothing : Writes c side half c
  | message :
    writes ((c.endpoint side).phase half) = true → (c.endpoint side).framed.writeBuffer ≠ [] →
    Writes c side half
      { endpoint := Function.update c.endpoint side
          { c.endpoint side with framed := { (c.endpoint side).framed with writeBuffer := [] } }
        link := Function.update c.link side
          ((c.link side).enqueue (.ok (.binary (c.endpoint side).framed.writeBuffer))) }
  | fails :
    writes ((c.endpoint side).phase half) = true →
    Writes c side half
      { c with endpoint := Function.update c.endpoint side ((c.endpoint side).turn half .idle) }

theorem write_cases (c : Connection) (side : Side) (half : Half) (pollReady : Poll (Except String Unit))
    (startSend : Except String Unit) : Writes c side half (c.write side half pollReady startSend) := by
  rw [Connection.write]
  split
  next hReady =>
    simp only [Bool.and_eq_true, Bool.not_eq_true', List.isEmpty_eq_false_iff] at hReady
    rcases pollWrite_cases pollReady startSend (c.endpoint side).framed.writeBuffer with
      hSent | ⟨e, hFailed⟩ | hPending
    · rw [hSent]
      exact .message hReady.1 hReady.2
    · rw [hFailed]
      exact .fails hReady.1
    · rw [hPending]
      exact .nothing
  next => exact .nothing

theorem flushFails_cases (c : Connection) (side : Side) (half : Half) :
    Writes c side half (c.flushFails side half) := by
  rw [Connection.flushFails]
  split
  next hReady => exact .fails (Bool.and_eq_true_iff.mp hReady).1
  next => exact .nothing

theorem Writes.simulated (h : Writes c side half c') : Simulated rmp c c' := by
  cases h with
  | nothing => exact simulated_of_pipes rfl
  | message hWrites hSome =>
    refine simulated_of_act ?_ (((View.act_writing hWrites).1 _).trans (View.write_all (c.pipes.view side)))
    refine pipes_update rfl ?_ ?_
    · exact (congrArg pending (Function.update_self ..)).trans (pending_enqueue _ _)
    · exact congrArg pending (Function.update_of_ne side.other_ne _ _)
  | fails hWrites => exact simulated_of_act (pipes_update rfl rfl rfl) (View.act_writing hWrites).2

theorem polls_eq_true {e : Endpoint} (h : polls e half = true) :
    e.phase half = .receiving ∧ e.framed.hasErrored = false ∧ e.framed.isReadable = false := by
  rw [polls] at h
  split at h
  next hReceiving =>
    simp only [Bool.and_eq_true, Bool.not_eq_true'] at h
    exact ⟨hReceiving, h.1, h.2⟩
  next => cases h

section
variable {v : View} {closed : Bool}

theorem View.act_read {data rest : List UInt8} (hPolls : polls v.endpoint half = true) (hSome : data ≠ [])
    (hInbound : v.inbound = data ++ rest) :
    v.act rmp closed half (.read data.length) =
      { v with endpoint := gets v.endpoint half data, inbound := rest } := by
  obtain ⟨hReceiving, hErrored, hPaused⟩ := polls_eq_true hPolls
  have hWaiting : v.inbound ≠ [] := by rw [hInbound]; exact List.append_ne_nil_of_left_ne_nil hSome rest
  rw [Session.View.act_receiving hReceiving (by simp), View.next,
    View.read_eq hErrored hPaused (List.length_pos_iff.mpr hSome) hWaiting, hInbound, List.take_left,
    List.drop_left, gets, if_neg (by simpa using hSome)]
  rfl

theorem View.act_readFails (hPolls : polls v.endpoint half = true) (text : String) :
    v.act rmp closed half (.readFails text) =
      { v with endpoint := polled v.endpoint half (.ready (.error text)) } := by
  obtain ⟨hReceiving, hErrored, hPaused⟩ := polls_eq_true hPolls
  rw [Session.View.act_receiving hReceiving (by simp), View.next, View.readFails,
    if_pos (by simp [hErrored, hPaused])]
  rfl

theorem View.act_readEnd (hPolls : polls v.endpoint half = true) (hClosed : closed = true)
    (hInbound : v.inbound = []) :
    v.act rmp closed half .readEnd = { v with endpoint := gets v.endpoint half [] } := by
  obtain ⟨hReceiving, hErrored, hPaused⟩ := polls_eq_true hPolls
  rw [Session.View.act_receiving hReceiving (by simp), View.next, View.readEnd,
    if_pos (by simp [hErrored, hPaused, hClosed, hInbound]), gets, if_pos List.isEmpty_nil]
  split <;> rfl

end

theorem Takes.simulated {capacity : Nat} {poll : Poll (Except String (List UInt8))}
    (h : Takes c side half capacity poll) (hPolls : polls (c.endpoint side) half = true)
    (hFits : c.Fits (.read side half capacity)) : Simulated rmp c (c.read side half capacity) := by
  obtain ⟨hYields, hRead⟩ := h
  rw [hRead]
  generalize (c.link side.other).read capacity = l' at hYields
  have hOutbound : pending (Function.update c.link side.other l' side) = pending (c.link side) :=
    congrArg pending (Function.update_of_ne side.other_ne.symm _ _)
  have hInbound : pending (Function.update c.link side.other l' side.other) = pending l' :=
    congrArg pending (Function.update_self ..)
  cases hYields with
  | nothing hPending =>
    apply simulated_of_pipes
    rw [polled, Function.update_eq_self]
    exact pipes_link hPending
  | breaks hPending =>
    exact simulated_of_act (pipes_update rfl hOutbound (hInbound.trans hPending)) (View.act_readFails hPolls _)
  | ends hPending hEnd =>
    obtain ⟨hClosed, hNothing⟩ := (hFits hPolls).2 hEnd
    exact simulated_of_act (pipes_update rfl hOutbound (hInbound.trans hPending))
      (View.act_readEnd hPolls hClosed hNothing)
  | data hSome hPending =>
    exact simulated_of_act (pipes_update rfl hOutbound hInbound) (View.act_read hPolls hSome hPending)

theorem react_simulated (hCoherent : Coherent c) {event : Event} (hFits : c.Fits event) :
    Simulated rmp c (c.react rmp event) := by
  cases event with
  | call side half call => exact call_simulated c side half call
  | write side half pollReady startSend => exact (write_cases c side half pollReady startSend).simulated
  | flushFails side half => exact (flushFails_cases c side half).simulated
  | read side half capacity =>
    by_cases hPolls : polls (c.endpoint side) half = true
    · obtain ⟨poll, hTakes⟩ := hCoherent.takes hPolls (hFits hPolls).1
      exact hTakes.simulated hPolls hFits
    · apply simulated_of_pipes
      rw [Connection.react, Connection.read, if_neg hPolls]
  | control side item =>
    apply simulated_of_pipes
    rw [Connection.react]
    split
    next hControl =>
      refine pipes_link ?_
      rw [pending_enqueue, dataOf_control hControl]
      exact List.append_nil _
    next => rfl
  | arrive side => exact simulated_of_pipes (pipes_link (pending_arrive _))
  | finish side => exact simulated_of_pipes (pipes_link rfl)

/-! ## What stays on the links -/

theorem Orderly.enqueue {l : WsLink} (h : Orderly l) {item : Except String WsMessage} (hCarried : Carried item) :
    Orderly (l.enqueue item) := by
  intro other hMem
  change other ∈ l.stream.queue ++ (l.inFlight ++ [item]) at hMem
  rw [← List.append_assoc] at hMem
  rcases List.mem_append.mp hMem with hBefore | hLast
  · exact h other hBefore
  · rw [List.mem_singleton.mp hLast]
    exact hCarried

theorem Orderly.arrive {l : WsLink} (h : Orderly l) : Orderly (l.react .arrive) := by
  rw [WsLink.react]
  split
  next item inFlight hFlight =>
    intro other hMem
    change other ∈ l.stream.queue ++ [item] ++ inFlight at hMem
    rw [List.append_assoc, List.singleton_append, ← hFlight] at hMem
    exact h other hMem
  next => exact h

variable {l : WsLink}

/-- One link of the connection has changed. -/
theorem Coherent.update (h : Coherent c) (hLink : c'.link = Function.update c.link side l)
    (hOrderly : Orderly l) : Coherent c' := by
  intro other
  rw [hLink]
  by_cases hSame : other = side
  · subst hSame
    rw [Function.update_self]
    exact hOrderly
  · rw [Function.update_of_ne hSame]
    exact h other

theorem Writes.coherent (hWrites : Writes c side half c') (h : Coherent c) : Coherent c' := by
  cases hWrites with
  | nothing => exact h
  | message _ hSome => exact h.update rfl ((h side).enqueue hSome)
  | fails _ => exact h

theorem read_link {capacity : Nat} (hPolls : polls (c.endpoint side) half = true) :
    (c.read side half capacity).link =
      Function.update c.link side.other ((c.link side.other).read capacity) := by
  rw [Connection.read, if_pos hPolls]
  dsimp only
  split <;> rfl

theorem Coherent.react (h : Coherent c) (event : Event) : Coherent (c.react rmp event) := by
  cases event with
  | call side half call => exact h
  | write side half pollReady startSend => exact (write_cases c side half pollReady startSend).coherent h
  | flushFails side half => exact (flushFails_cases c side half).coherent h
  | read side half capacity =>
    by_cases hPolls : polls (c.endpoint side) half = true
    · exact h.update (read_link hPolls) fun item hMem => h side.other item (mem_of_read hMem)
    · rw [Connection.react, Connection.read, if_neg hPolls]
      exact h
  | control side item =>
    rw [Connection.react]
    split
    next hControl => exact h.update rfl ((h side).enqueue (carried_control hControl))
    next => exact h
  | arrive side => exact h.update rfl (h side).arrive
  | finish side => exact @Coherent.update c _ side ((c.link side).react .finish) h rfl (h side)

theorem coherent_step (c : Connection) (event : Event) (h : Coherent c) : Coherent (c.step rmp event) := by
  rw [Connection.step]
  split
  · exact h
  · exact h.react event

theorem coherent_connected : Coherent connected := by
  intro side item hMem
  cases hMem

/-! ## When a read panics -/

theorem panicked_eq_false : c.panicked = false ↔ ∀ side, (c.link side).panicked = false := by
  rw [Connection.panicked, Bool.or_eq_false_iff]
  constructor
  · rintro ⟨hNear, hFar⟩ side
    cases side with
    | near => exact hNear
    | far => exact hFar
  · exact fun h => ⟨h .near, h .far⟩

theorem panicked_update (hNoPanic : c.panicked = false) (hLink : c'.link = Function.update c.link side l) :
    c'.panicked = false ↔ l.panicked = false := by
  rw [panicked_eq_false, hLink]
  constructor
  · intro h
    have hSide := h side
    rwa [Function.update_self] at hSide
  · intro h other
    by_cases hSame : other = side
    · subst hSame
      rw [Function.update_self]
      exact h
    · rw [Function.update_of_ne hSame]
      exact panicked_eq_false.mp hNoPanic other

theorem Writes.noPanic (h : Writes c side half c') (hNoPanic : c.panicked = false) : c'.panicked = false := by
  cases h with
  | nothing => exact hNoPanic
  | message _ _ =>
    refine (panicked_update hNoPanic rfl).mpr ?_
    exact panicked_eq_false.mp hNoPanic side
  | fails _ => exact hNoPanic

theorem panicked_read (hNoPanic : l.panicked = false) (capacity : Nat) :
    (l.read capacity).panicked = false ↔ HasRoom l capacity := by
  rw [HasRoom]
  cases hNext : l.stream.queue.head?.bind WsLink.dataOf with
  | none =>
    obtain ⟨queue, closed, _, hRead⟩ := WsLink.read_idle hNext capacity
    rw [hRead]
    exact ⟨fun _ _ hData => (by cases hData), fun _ => hNoPanic⟩
  | some data =>
    obtain ⟨item, queue, hQueue, hData⟩ := WsLink.waiting_of_data hNext
    rw [WsLink.read_data hQueue hData]
    split
    next hLong => simp [hLong]
    next hFits => simp [hNoPanic, Nat.not_lt.mp hFits]

theorem noPanic_react (hNoPanic : c.panicked = false) {event : Event} (hFits : c.Fits event) :
    (c.react rmp event).panicked = false := by
  have hLinks := panicked_eq_false.mp hNoPanic
  cases event with
  | read side half capacity =>
    rw [Connection.react]
    by_cases hPolls : polls (c.endpoint side) half = true
    · exact (panicked_update hNoPanic (read_link hPolls)).mpr ((panicked_read (hLinks _) _).mpr (hFits hPolls).1)
    · rw [Connection.read, if_neg hPolls]
      exact hNoPanic
  | call side half call => exact hNoPanic
  | write side half pollReady startSend => exact (write_cases c side half pollReady startSend).noPanic hNoPanic
  | flushFails side half => exact (flushFails_cases c side half).noPanic hNoPanic
  | control side item =>
    rw [Connection.react]
    split
    · refine (panicked_update hNoPanic rfl).mpr ?_
      exact hLinks side
    · exact hNoPanic
  | arrive side =>
    refine (panicked_update hNoPanic rfl).mpr ?_
    rw [WsLink.react]
    split
    · exact hLinks side
    · exact hLinks side
  | finish side =>
    refine (panicked_update hNoPanic rfl).mpr ?_
    exact hLinks side

/-! ## Every run -/

/-- The connection has not panicked, and its ends are in a state of the session over a pair of pipes. -/
structure Piped (rmp : Rmp) (c : Connection) : Prop where
  noPanic : c.panicked = false
  runs : ∃ events, c.pipes = Trace.run (Session.step rmp) Session.connected events

/-- An end that has seen the end of its pipe has read all that was sent there. -/
theorem Piped.eof (h : Piped rmp c) (hEof : (c.endpoint side).framed.eof = true) :
    (c.endpoint side.other).isClosed = true ∧ pending (c.link side.other) = [] := by
  obtain ⟨events, hRun⟩ := h.runs
  have hReads := (reads_run rmp events).reading side.other
  rw [← hRun, Side.other_other] at hReads
  exact hReads.eof hEof

/-- After a read that has found the end of the inner stream. -/
theorem Piped.ended {capacity : Nat} (h : Piped rmp c) (hPolls : polls (c.endpoint side) half = true)
    (hEnd : AtEnd (c.link side.other)) (hNext : Piped rmp (c.read side half capacity)) :
    (c.endpoint side.other).isClosed = true ∧ pending (c.link side.other) = [] := by
  by_cases hEof : (c.endpoint side).framed.eof = true
  · exact h.eof hEof
  · obtain ⟨hYields, hRead⟩ := @takes_end c side half capacity hPolls hEnd
    rw [hRead] at hNext
    have hFlag : (Function.update c.endpoint side (gets (c.endpoint side) half []) side).framed.eof = true := by
      rw [Function.update_self, gets, if_pos List.isEmpty_nil, if_neg hEof]
    obtain ⟨hClosed, hPending⟩ := hNext.eof hFlag
    dsimp only at hClosed hPending
    rw [Function.update_of_ne side.other_ne] at hClosed
    rw [Function.update_self] at hPending
    cases hYields with
    | ends hSame _ => exact ⟨hClosed, hSame.symm.trans hPending⟩
    | data hSome _ => exact absurd rfl hSome

theorem fits_of_piped (h : Piped rmp c) {event : Event} (hNext : Piped rmp (c.react rmp event)) :
    c.Fits event := by
  cases event with
  | read side half capacity =>
    intro hPolls
    have hPanicked := (panicked_update h.noPanic (read_link hPolls)).mp hNext.noPanic
    exact ⟨(panicked_read (panicked_eq_false.mp h.noPanic _) capacity).mp hPanicked,
      fun hEnd => h.ended hPolls hEnd hNext⟩
  | _ => trivial

theorem piped_step (c : Connection) (event : Event) (h : Coherent c ∧ Piped rmp c) :
    (Coherent (c.step rmp event) ∧ Piped rmp (c.step rmp event)) ↔ c.Fits event := by
  obtain ⟨hCoherent, hPiped⟩ := h
  rw [Connection.step, if_neg (by rw [hPiped.noPanic]; decide)]
  constructor
  · exact fun hNext => fits_of_piped hPiped hNext.2
  · intro hFits
    exact ⟨hCoherent.react event, noPanic_react hPiped.noPanic hFits,
      Trace.run_append_of_step hPiped.runs (react_simulated hCoherent hFits)⟩

/-- Every state of a run is one of the session over a pair of pipes, exactly when each read has room
for its message and finds no end of the stream before the end of what was sent. -/
theorem piped_iff (rmp : Rmp) (events : List Event) :
    (∀ before, before <+: events → Piped rmp (Trace.run (Connection.step rmp) connected before)) ↔
      Trace.Along (Connection.step rmp) Connection.Fits connected events := by
  have hCoherent (before : List Event) : Coherent (Trace.run (Connection.step rmp) connected before) :=
    Trace.run_invariant coherent_step coherent_connected before
  rw [← Trace.throughout_iff_along piped_step ⟨coherent_connected, rfl, [], rfl⟩ events]
  constructor
  · exact fun h before hBefore => ⟨hCoherent before, h before hBefore⟩
  · exact fun h before hBefore => (h before hBefore).2

/-- A connection that fails ends the stream of an end whose other end is not closed. -/
example : ¬ Trace.Along (Connection.step Rmp.messagePack) Connection.Fits connected
    [.call .far .client .receive, .call .far .client .lock, .finish .near, .read .far .client 8] := by
  rintro ⟨_, _, _, hRead, _⟩
  obtain ⟨hClosed, _⟩ := (hRead rfl).2 ⟨rfl, rfl⟩
  cases hClosed

end Fleximq.Session.Ws
