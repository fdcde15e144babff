import Fleximq.Peer.Handshake

/-! # What ends the join wait

The reply loop looks at the `id` of `reqrep` alone: it ends with a peer at the
first message that carries the request id, and with an error at an item that is
none or has no readable header. Everything else is passed over, the end of the
stream too.
-/
namespace Fleximq.Handshake
open Foundation Fleximq.Protocol Fleximq.Transport

variable {rmp : Rmp} {id : String} {remote : Remote} {framed : Framed}

/-- The items arrive, and then the stream has come to its end. -/
def Remote.closing (inbound : List (Except ProtocolError Message)) : Remote := ⟨.ok (), fun i => inbound[i]?⟩

/-! ## One iteration -/

inductive PassedOver (rmp : Rmp) (id : String) : Option (Except ProtocolError Message) → Prop where
  | ended : PassedOver rmp id none
  | unrelated {m : Message} : Unrelated rmp id m → PassedOver rmp id (some (.ok m))

inductive Unreadable (rmp : Rmp) : Except ProtocolError Message → Prop where
  | stream (e : ProtocolError) : Unreadable rmp (.error e)
  | header {m : Message} {e : ProtocolError} : m.header rmp = some (.error e) → Unreadable rmp (.ok m)

/-- All that an iteration can do. -/
theorem replyStep_cases (rmp : Rmp) (id : String) (remote : Remote) (framed : Framed) (i : Nat) :
    (PassedOver rmp id (remote.next i) ∧ replyStep rmp id remote framed i = .next (i + 1)) ∨
      (∃ m, remote.next i = some (.ok m) ∧ Answers rmp id m ∧
        replyStep rmp id remote framed i = .done (.returned (.ok ⟨framed, m.clientId⟩))) ∨
      (∃ item e, remote.next i = some item ∧ Unreadable rmp item ∧
        replyStep rmp id remote framed i = .done (.returned (.error e))) ∨
      ∃ m, remote.next i = some (.ok m) ∧ m.header rmp = none ∧
        replyStep rmp id remote framed i = .done .panicked := by
  cases hNext : remote.next i with
  | none =>
    left
    exact ⟨.ended, by simp only [replyStep, hNext]⟩
  | some item =>
    cases item with
    | error e =>
      right; right; left
      exact ⟨_, _, rfl, .stream e, by simp only [replyStep, hNext]; rfl⟩
    | ok m =>
      cases hHeader : m.header rmp with
      | none =>
        right; right; right
        exact ⟨m, rfl, hHeader, by simp only [replyStep, hNext, hHeader]⟩
      | some result =>
        cases result with
        | error e =>
          right; right; left
          exact ⟨_, _, rfl, .header hHeader, by simp only [replyStep, hNext, hHeader]; rfl⟩
        | ok header =>
          by_cases hAnswers : Answers rmp id m
          · right; left
            exact ⟨m, rfl, hAnswers, replyStep_answers hNext hAnswers⟩
          · left
            have hUnrelated : Unrelated rmp id m :=
              ⟨header, hHeader, fun rep hRep hId => hAnswers ⟨header, rep, hHeader, hRep, hId⟩⟩
            exact ⟨.unrelated hUnrelated, replyStep_unrelated hNext hUnrelated⟩

theorem replyStep_passedOver {i : Nat} (h : PassedOver rmp id (remote.next i)) :
    replyStep rmp id remote framed i = .next (i + 1) := by
  cases hNext : remote.next i with
  | none => simp only [replyStep, hNext]
  | some item =>
    rw [hNext] at h
    cases h with
    | unrelated hUnrelated => exact replyStep_unrelated hNext hUnrelated

theorem replyStep_unreadable {i : Nat} {item : Except ProtocolError Message}
    (hNext : remote.next i = some item) (h : Unreadable rmp item) :
    ∃ e, replyStep rmp id remote framed i = .done (.returned (.error e)) := by
  cases h with
  | stream e => exact ⟨.protocol e, by simp only [replyStep, hNext]⟩
  | @header m e hHeader => exact ⟨.protocol e, by simp only [replyStep, hNext, hHeader]⟩

theorem replyStep_eq_next {i j : Nat} (h : replyStep rmp id remote framed i = .next j) :
    j = i + 1 ∧ PassedOver rmp id (remote.next i) := by
  obtain ⟨hPassed, hStep⟩ | ⟨_, _, _, hStep⟩ | ⟨_, _, _, _, hStep⟩ | ⟨_, _, _, hStep⟩ :=
    replyStep_cases rmp id remote framed i
  all_goals rw [hStep] at h; cases h
  exact ⟨rfl, hPassed⟩

theorem replyStep_eq_joined {i : Nat} {peer : Peer}
    (h : replyStep rmp id remote framed i = .done (.returned (.ok peer))) :
    ∃ m, remote.next i = some (.ok m) ∧ Answers rmp id m ∧ peer.selfId = m.clientId := by
  obtain ⟨_, hStep⟩ | ⟨m, hNext, hAnswers, hStep⟩ | ⟨_, _, _, _, hStep⟩ | ⟨_, _, _, hStep⟩ :=
    replyStep_cases rmp id remote framed i
  all_goals rw [hStep] at h; cases h
  exact ⟨m, hNext, hAnswers, rfl⟩

theorem replyStep_eq_error {i : Nat} {e : TransportError}
    (h : replyStep rmp id remote framed i = .done (.returned (.error e))) :
    ∃ item, remote.next i = some item ∧ Unreadable rmp item := by
  obtain ⟨_, hStep⟩ | ⟨_, _, _, hStep⟩ | ⟨item, _, hNext, hUnreadable, hStep⟩ | ⟨_, _, _, hStep⟩ :=
    replyStep_cases rmp id remote framed i
  all_goals rw [hStep] at h; cases h
  exact ⟨item, hNext, hUnreadable⟩

/-! ## The reply that is accepted -/

def Assigned (c : ClientId) : Prop := clientIdMinDynamic ≤ c ∧ c ≤ clientIdMaxDynamic

/-- A peer is returned for an admission only: a correlation with the request id, no status that is
not a success, and an assigned client id. -/
def JoinsAdmitted (rmp : Rmp) (id : String) (remote : Remote) (framed : Framed) : Prop :=
  ∀ fuel peer, Loop.run (replyStep rmp id remote framed) fuel 0 = some (.returned (.ok peer)) →
    ∃ i m header, (∀ j < i, replyStep rmp id remote framed j = .next (j + 1)) ∧
      replyStep rmp id remote framed i = .done (.returned (.ok peer)) ∧
      remote.next i = some (.ok m) ∧ m.header rmp = some (.ok header) ∧
      header.reqrep = some (.res id) ∧ (∀ status, header.status = some status → status.isSuccess = true) ∧
      Assigned peer.selfId ∧ peer.selfId ≠ clientIdUnassigned ∧ peer.selfId ≠ clientIdBroker

/-- The message is the first with the request id, and nothing before it ends the loop. -/
structure FirstAnswer (rmp : Rmp) (id : String) (remote : Remote) (i : Nat) (m : Message) : Prop where
  before : ∀ j < i, PassedOver rmp id (remote.next j)
  next : remote.next i = some (.ok m)
  answers : Answers rmp id m

def Grants (rmp : Rmp) (id : String) (m : Message) : Prop :=
  ∃ header, m.header rmp = some (.ok header) ∧ header.reqrep = some (.res id) ∧
    (∀ status, header.status = some status → status.isSuccess = true) ∧ Assigned m.clientId

theorem Assigned.ne_special {c : ClientId} (h : Assigned c) :
    c ≠ clientIdUnassigned ∧ c ≠ clientIdBroker := by
  constructor
  · rintro rfl
    exact absurd h.1 (by decide)
  · rintro rfl
    exact absurd h.1 (by decide)

/-- Every returned peer was admitted if and only if the first message with the request id, where
the loop gets to it, grants the admission. -/
theorem joinsAdmitted_iff (rmp : Rmp) (id : String) (remote : Remote) (framed : Framed) :
    JoinsAdmitted rmp id remote framed ↔ ∀ i m, FirstAnswer rmp id remote i m → Grants rmp id m := by
  constructor
  · intro hAdmitted i m hFirst
    have hBefore : ∀ j < i, replyStep rmp id remote framed j = .next (j + 1) :=
      fun j hLess => replyStep_passedOver (hFirst.before j hLess)
    have hDone : replyStep rmp id remote framed i = .done (.returned (.ok ⟨framed, m.clientId⟩)) :=
      replyStep_answers hFirst.next hFirst.answers
    have hRun := Loop.run_count (fun j _ hLess => hBefore j hLess) hDone (Nat.zero_le i) (Nat.lt_succ_self i)
    obtain ⟨i', m', header, hBefore', hDone', hNext', hHeader, hRep, hStatus, hAssigned, _⟩ :=
      hAdmitted _ _ hRun
    obtain rfl := Loop.last_unique hBefore' hDone' hBefore hDone
    rw [hFirst.next] at hNext'
    cases hNext'
    exact ⟨header, hHeader, hRep, hStatus, hAssigned⟩
  · intro hGrants fuel peer hRun
    obtain ⟨i, _, hBefore, hDone⟩ := Loop.exists_of_run (fun _ _ h => (replyStep_eq_next h).1) hRun
    have hBefore : ∀ j < i, replyStep rmp id remote framed j = .next (j + 1) :=
      fun j hLess => hBefore j (Nat.zero_le j) hLess
    obtain ⟨m, hNext, hAnswers, hSelf⟩ := replyStep_eq_joined hDone
    have hFirst : FirstAnswer rmp id remote i m :=
      ⟨fun j hLess => (replyStep_eq_next (hBefore j hLess)).2, hNext, hAnswers⟩
    obtain ⟨header, hHeader, hRep, hStatus, hAssigned⟩ := hGrants i m hFirst
    rw [← hSelf] at hAssigned
    exact ⟨i, m, header, hBefore, hDone, hNext, hHeader, hRep, hStatus, hAssigned, hAssigned.ne_special⟩

def rejectionMessage : RawMessage where
  messageType := .response
  clientId := clientIdBroker
  header := { Header.new with reqrep := some (.res "7"), status := some .joinRejected }
  payloadData := nilPayload

def rejectionHeader : Bytes where
  toList := [130, 166, 114, 101, 113, 114, 101, 112, 146, 171, 99, 111, 114, 114, 101, 108, 97, 116, 105,
    111, 110, 161, 55, 166, 115, 116, 97, 116, 117, 115, 205, 2, 93]
  length_lt := by decide

def rejectionFrame : Frame := rejectionMessage.frame rejectionHeader (by decide)

def rejecting : Remote := .closing [.ok rejectionFrame.message]

/-- The broker rejects the join, and a peer with the client id of the broker is returned. -/
theorem rejecting_joins :
    Loop.run (replyStep Rmp.messagePack "7" rejecting sink) 1 0 =
        some (.returned (.ok ⟨sink, clientIdBroker⟩)) ∧
      StatusCode.joinRejected.isSuccess = false ∧
      ¬ JoinsAdmitted Rmp.messagePack "7" rejecting sink := by
  have hHeader : rejectionMessage.header.toVec Rmp.messagePack = .ok rejectionHeader := by decide +kernel
  obtain ⟨header, hRead, hSame⟩ := RawMessage.header_message_named Rmp.messagePack_lawful
    (r := rejectionMessage) (by decide) hHeader rfl rfl
  have hAnswers : Answers Rmp.messagePack "7" rejectionFrame.message :=
    ⟨header, .res "7", hRead, hSame.reqrep, rfl⟩
  have hStep : replyStep Rmp.messagePack "7" rejecting sink 0 = .done (.returned (.ok ⟨sink, 1⟩)) :=
    replyStep_answers rfl hAnswers
  have hRun := Loop.run_done hStep 0
  refine ⟨hRun, rfl, ?_⟩
  intro hAdmitted
  obtain ⟨_, _, _, _, _, _, _, _, _, _, _, hBroker⟩ := hAdmitted 1 _ hRun
  exact hBroker rfl

/-! ## The end of the wait -/

def EndsWithError (rmp : Rmp) (id : String) (inbound : List (Except ProtocolError Message))
    (framed : Framed) : Prop :=
  ∃ fuel e, Loop.run (replyStep rmp id (.closing inbound) framed) fuel 0 = some (.returned (.error e))

def Readable (rmp : Rmp) (item : Except ProtocolError Message) : Prop :=
  ∃ m header, item = .ok m ∧ m.header rmp = some (.ok header)

theorem PassedOver.readable {item : Except ProtocolError Message} (h : PassedOver rmp id (some item)) :
    Readable rmp item := by
  cases h with
  | @unrelated m hUnrelated =>
    obtain ⟨header, hHeader, _⟩ := hUnrelated
    exact ⟨m, header, rfl, hHeader⟩

theorem Readable.passedOver {item : Except ProtocolError Message} (h : Readable rmp item)
    (hOther : ∀ m, item = .ok m → ¬ Answers rmp id m) : PassedOver rmp id (some item) := by
  obtain ⟨m, header, rfl, hHeader⟩ := h
  exact .unrelated ⟨header, hHeader, fun rep hRep hId => hOther m rfl ⟨header, rep, hHeader, hRep, hId⟩⟩

theorem replyLoop_endless {inbound : List (Except ProtocolError Message)}
    (h : ∀ item ∈ inbound, PassedOver rmp id (some item)) (fuel : Nat) :
    Loop.run (replyStep rmp id (.closing inbound) framed) fuel 0 = none := by
  apply Loop.run_endless
  intro i
  apply replyStep_passedOver
  change PassedOver rmp id inbound[i]?
  cases hItem : inbound[i]? with
  | none => exact .ended
  | some item => exact h item (List.mem_of_getElem? hItem)

/-- When no message carries the request id, the wait ends with an error exactly where an item is no
message with a readable header, and the messages before it are. -/
theorem endsWithError_iff {inbound : List (Except ProtocolError Message)}
    (hNone : ∀ m, .ok m ∈ inbound → ¬ Answers rmp id m) (framed : Framed) :
    EndsWithError rmp id inbound framed ↔
      ∃ before item after, inbound = before ++ item :: after ∧ (∀ other ∈ before, Readable rmp other) ∧
        Unreadable rmp item := by
  constructor
  · rintro ⟨fuel, e, hRun⟩
    obtain ⟨last, _, hBefore, hDone⟩ := Loop.exists_of_run (fun _ _ h => (replyStep_eq_next h).1) hRun
    obtain ⟨item, hNext, hUnreadable⟩ := replyStep_eq_error hDone
    obtain ⟨hLast, hItem⟩ := List.getElem?_eq_some_iff.mp (show inbound[last]? = some item from hNext)
    refine ⟨inbound.take last, item, inbound.drop (last + 1), ?_, ?_, hUnreadable⟩
    · rw [← hItem, List.getElem_cons_drop, List.take_append_drop]
    · intro other hOther
      obtain ⟨j, hLess, hOther⟩ := List.mem_take_iff_getElem.mp hOther
      have hPassed : PassedOver rmp id inbound[j]? :=
        (replyStep_eq_next (hBefore j (Nat.zero_le j) (by omega))).2
      rw [List.getElem?_eq_getElem (by omega), hOther] at hPassed
      exact hPassed.readable
  · rintro ⟨before, item, after, rfl, hBefore, hUnreadable⟩
    have hNext : (Remote.closing (before ++ item :: after)).next before.length = some item := by
      simp [Remote.closing]
    obtain ⟨e, hDone⟩ := @replyStep_unreadable rmp id _ framed before.length item hNext hUnreadable
    refine ⟨before.length + 1, e, Loop.run_count ?_ hDone (Nat.zero_le _) (by omega)⟩
    intro j _ hLess
    apply replyStep_passedOver
    change PassedOver rmp id (before ++ item :: after)[j]?
    rw [List.getElem?_append_left hLess, List.getElem?_eq_getElem hLess]
    have hMem : before[j] ∈ before := List.getElem_mem hLess
    apply (hBefore _ hMem).passedOver
    intro m hOk
    apply hNone m
    rw [← hOk]
    exact List.mem_append_left _ hMem

/-- A publication arrives, and then the stream breaks. -/
theorem brokenStream_ends :
    EndsWithError Rmp.messagePack "7" [.ok newsFrame.message, .error .bufferOverflow] sink := by
  have hVec : newsMessage.header.toVec Rmp.messagePack = .ok newsHeader := by decide +kernel
  obtain ⟨header, hRead, hSame⟩ := RawMessage.header_message_named Rmp.messagePack_lawful
    (r := newsMessage) (by decide) hVec rfl rfl
  refine (endsWithError_iff ?_ sink).mpr
    ⟨[.ok newsFrame.message], .error .bufferOverflow, [], rfl, ?_, .stream .bufferOverflow⟩
  · rintro m hMem ⟨header', rep, hRead', hRep, _⟩
    obtain rfl : m = newsFrame.message := by simpa using hMem
    obtain rfl := Except.ok.inj (Option.some.inj (hRead.symm.trans hRead'))
    rw [hSame.reqrep] at hRep
    cases hRep
  · intro other hOther
    obtain rfl := List.mem_singleton.mp hOther
    exact ⟨newsFrame.message, header, rfl, hRead⟩

/-- The broker closes the connection before it has answered. -/
theorem closing_endless :
    (∀ fuel, Loop.run (replyStep Rmp.messagePack "7" (.closing []) sink) fuel 0 = none) ∧
      ¬ EndsWithError Rmp.messagePack "7" [] sink := by
  have hEndless (fuel : Nat) : Loop.run (replyStep Rmp.messagePack "7" (.closing []) sink) fuel 0 = none :=
    replyLoop_endless (fun item hItem => absurd hItem List.not_mem_nil) fuel
  refine ⟨hEndless, ?_⟩
  rintro ⟨fuel, e, hRun⟩
  rw [hEndless fuel] at hRun
  cases hRun

end Fleximq.Handshake
