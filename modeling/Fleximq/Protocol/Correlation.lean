import Fleximq.Protocol.Responses

/-! # Requests that are forwarded

`forward_to` copies the reqrep of the message that it forwards, if its header can
be read. A request goes along a chain of clients, each of which builds a request
of its own from the one that it received, and the last one answers.
-/
namespace Fleximq.Protocol
open Foundation

/-- `none` where `header` panics. -/
def MessageBuilder.forwardTo (rmp : Rmp) (b : MessageBuilder) (message : Message)
    (clientName path : String) (clientId : Option ClientId) : Option MessageBuilder := do
  let header ← message.header rmp
  let b :=
    match header with
    | .ok header =>
      match header.reqrep with
      | some reqrep => b.reqrep reqrep
      | none => b
    | .error _ => b
  let routing := [⟨clientName, path, clientId⟩]
  return { b with header := { b.header with routing := some routing } }

/-- What a client on the way forwards a request with: its own id, the next target and a payload. -/
structure Stop (T : Type) where
  clientId : ClientId
  targetName : String
  path : String
  targetId : Option ClientId
  payload : T

section
variable {T : Type} (rmp : Rmp) (write : T → Except String Bytes) (reqrep : RequestResponse)

/-- The request as the next client receives it. -/
def Stop.forward (stop : Stop T) (m : Message) : Option (Except ProtocolError Message) :=
  ((MessageBuilder.new .request stop.clientId).forwardTo rmp m stop.targetName stop.path
    stop.targetId).map fun builder => do
      let raw ← builder.buildWithPayloadOf write stop.payload
      raw.intoMessage rmp

def forwardAlong (stops : List (Stop T)) (m : Message) : Option (Except ProtocolError Message) :=
  match stops with
  | [] => some (.ok m)
  | stop :: stops =>
    match stop.forward rmp write m with
    | some (.ok m') => forwardAlong stops m'
    | some (.error e) => some (.error e)
    | none => none

/-! ## The intended request -/

def Stop.header (stop : Stop T) : Header :=
  { Header.new with
    routing := some [⟨stop.targetName, stop.path, stop.targetId⟩]
    reqrep := some reqrep }

def Stop.request (stop : Stop T) (payloadData : Bytes) : RawMessage :=
  ⟨.request, stop.clientId, stop.header reqrep, payloadData⟩

/-- Both sections can be encoded, within the limits of the writer. -/
def Stop.Fits (stop : Stop T) : Prop :=
  ∃ headerBytes payloadData, (stop.header reqrep).toVec rmp = .ok headerBytes ∧
    write stop.payload = .ok payloadData ∧ headerBytes.length ≤ defaultMaxHeaderSize.toNat ∧
    baseHeaderSize + headerBytes.length + payloadData.length ≤ defaultMaxMessageSize.toNat

/-- The message can be read and has this reqrep. -/
def Message.Asks (m : Message) : Prop :=
  ∃ header, m.header rmp = some (.ok header) ∧ header.reqrep = some reqrep

end

section
variable {T : Type} {rmp : Rmp} {write : T → Except String Bytes} {reqrep : RequestResponse}
  {stop last : Stop T} {stops : List (Stop T)} {m m' : Message}

/-! ## One client -/

theorem MessageBuilder.forwardTo_eq {header : Header} (hHeader : m.header rmp = some (.ok header))
    (messageType : MessageType) (clientId : ClientId) (clientName path : String)
    (targetId : Option ClientId) :
    (new messageType clientId).forwardTo rmp m clientName path targetId = some ⟨messageType, clientId,
      { Header.new with routing := some [⟨clientName, path, targetId⟩], reqrep := header.reqrep }⟩ := by
  rw [forwardTo, hHeader]
  obtain ⟨_, reqrep, _, _, _, _, _⟩ := header
  cases reqrep <;> rfl

theorem Stop.forward_asks (h : m.Asks rmp reqrep) :
    stop.forward rmp write m = some (do
      let raw ← RawMessage.newOf write .request stop.clientId (stop.header reqrep) stop.payload
      raw.intoMessage rmp) := by
  obtain ⟨header, hHeader, hReqrep⟩ := h
  have hBuilder : (MessageBuilder.new .request stop.clientId).forwardTo rmp m stop.targetName stop.path
      stop.targetId = some ⟨.request, stop.clientId, stop.header reqrep⟩ := by
    rw [MessageBuilder.forwardTo_eq hHeader, hReqrep]
    rfl
  rw [forward, hBuilder, Option.map_some, MessageBuilder.buildWithPayloadOf_valid rfl]

/-- Without a reqrep to copy no request can be built. -/
theorem Stop.forward_not_asks (h : ∀ reqrep, ¬ m.Asks rmp reqrep) (hReadable : m.header rmp ≠ none) :
    stop.forward rmp write m = some (.error (.missingRequiredField "reqrep" "REQ")) := by
  obtain ⟨result, hResult⟩ := Option.ne_none_iff_exists'.mp hReadable
  have hBuilder : (MessageBuilder.new .request stop.clientId).forwardTo rmp m stop.targetName stop.path
      stop.targetId = some ⟨.request, stop.clientId,
        { Header.new with routing := some [⟨stop.targetName, stop.path, stop.targetId⟩] }⟩ := by
    cases result with
    | error e =>
      rw [MessageBuilder.forwardTo, hResult]
      rfl
    | ok header =>
      rw [MessageBuilder.forwardTo_eq hResult]
      cases hReqrep : header.reqrep with
      | some reqrep => exact absurd ⟨header, hResult, hReqrep⟩ (h reqrep)
      | none => rfl
  rw [forward, hBuilder, Option.map_some, MessageBuilder.buildWithPayloadOf_invalid rfl]
  rfl

theorem Stop.forward_eq_none : stop.forward rmp write m = none ↔ m.header rmp = none := by
  constructor
  · intro h
    by_contra hReadable
    by_cases hAsks : ∃ reqrep, m.Asks rmp reqrep
    · obtain ⟨reqrep, hAsks⟩ := hAsks
      cases h.symm.trans (forward_asks hAsks)
    · cases h.symm.trans (forward_not_asks (not_exists.mp hAsks) hReadable)
  · intro h
    rw [forward, MessageBuilder.forwardTo, h]
    rfl

/-- The next client receives the frame of the intended request, if both sections fit. -/
theorem Stop.forward_eq_ok (h : m.Asks rmp reqrep) :
    stop.forward rmp write m = some (.ok m') ↔
      ∃ headerBytes payloadData, (stop.header reqrep).toVec rmp = .ok headerBytes ∧
        write stop.payload = .ok payloadData ∧ headerBytes.length ≤ defaultMaxHeaderSize.toNat ∧
        baseHeaderSize + headerBytes.length + payloadData.length ≤ defaultMaxMessageSize.toNat ∧
        ∃ hLimit, m' = ((stop.request reqrep payloadData).frame headerBytes hLimit).message := by
  rw [forward_asks h]
  constructor
  · intro hSome
    obtain ⟨raw, hNew, hMessage⟩ := bind_eq_ok.mp (Option.some.inj hSome)
    obtain ⟨hWrite, hType, hClient, hHeader⟩ := RawMessage.newOf_eq_ok.mp hNew
    obtain ⟨b, hBytes, _⟩ := bind_eq_ok.mp hMessage
    obtain ⟨headerBytes, hVec, _⟩ := bind_eq_ok.mp hBytes
    have hRaw : raw = stop.request reqrep raw.payloadData := by
      cases raw
      cases hType
      cases hClient
      cases hHeader
      rfl
    rw [hRaw] at hMessage hVec
    obtain ⟨hHeaderSize, hSize, hLimit, hFrame⟩ := (RawMessage.intoMessage_eq_ok hVec).mp hMessage
    exact ⟨headerBytes, raw.payloadData, hVec, hWrite, hHeaderSize, hSize, hLimit, hFrame⟩
  · rintro ⟨headerBytes, payloadData, hVec, hWrite, hHeaderSize, hSize, hLimit, rfl⟩
    refine congrArg some (bind_eq_ok.mpr ⟨stop.request reqrep payloadData, ?_, ?_⟩)
    · exact RawMessage.newOf_eq_ok.mpr ⟨hWrite, rfl, rfl, rfl⟩
    · exact (RawMessage.intoMessage_eq_ok hVec).mpr ⟨hHeaderSize, hSize, hLimit, rfl⟩

theorem Stop.exists_forward (h : m.Asks rmp reqrep) :
    (∃ m', stop.forward rmp write m = some (.ok m')) ↔ stop.Fits rmp write reqrep := by
  constructor
  · rintro ⟨m', hForward⟩
    obtain ⟨headerBytes, payloadData, hVec, hWrite, hHeaderSize, hSize, _⟩ := (forward_eq_ok h).mp hForward
    exact ⟨headerBytes, payloadData, hVec, hWrite, hHeaderSize, hSize⟩
  · rintro ⟨headerBytes, payloadData, hVec, hWrite, hHeaderSize, hSize⟩
    exact ⟨_, (forward_eq_ok h).mpr ⟨headerBytes, payloadData, hVec, hWrite, hHeaderSize, hSize,
      lt_of_le_maxHeaderSize hHeaderSize, rfl⟩⟩

/-- What the next client makes of the request. -/
structure Stop.Received (rmp : Rmp) (reqrep : RequestResponse) (stop : Stop T) (m : Message) : Prop where
  messageType : m.messageType = .request
  clientId : m.clientId = stop.clientId
  readable : m.header rmp ≠ none
  addressed : stop.targetId.isSome = true →
    ∃ header, m.header rmp = some (.ok header) ∧ header.Same (stop.header reqrep)
  unaddressed : stop.targetId = none → ∀ header, m.header rmp ≠ some (.ok header)

theorem Stop.forward_received (hRmp : rmp.Lawful) (h : m.Asks rmp reqrep)
    (hForward : stop.forward rmp write m = some (.ok m')) : stop.Received rmp reqrep m' := by
  obtain ⟨headerBytes, payloadData, hVec, _, _, _, hLimit, rfl⟩ := (forward_eq_ok h).mp hForward
  refine ⟨rfl, rfl, ?_, ?_, ?_⟩
  · rw [RawMessage.header_message hRmp hLimit hVec (Header.within_of_named rfl)]
    exact Option.some_ne_none _
  · intro hTarget
    refine RawMessage.header_message_named hRmp hLimit hVec rfl ?_
    change (stop.targetId.isSome && true) = true
    rw [hTarget]
    rfl
  · intro hTarget header hRead
    have hComplete := RawMessage.routingComplete_of_header hRmp hLimit hVec hRead
    change (stop.targetId.isSome && true) = true at hComplete
    rw [hTarget] at hComplete
    cases hComplete

theorem Stop.Received.asks_iff (h : stop.Received rmp reqrep m) {other : RequestResponse} :
    m.Asks rmp other ↔ stop.targetId.isSome = true ∧ other = reqrep := by
  constructor
  · rintro ⟨header, hHeader, hReqrep⟩
    cases hTarget : stop.targetId with
    | none => exact absurd hHeader (h.unaddressed hTarget header)
    | some targetId =>
      obtain ⟨header', hHeader', hSame⟩ := h.addressed (by rw [hTarget]; rfl)
      obtain rfl := Except.ok.inj (Option.some.inj (hHeader'.symm.trans hHeader))
      exact ⟨rfl, Option.some.inj (hReqrep.symm.trans hSame.reqrep)⟩
  · rintro ⟨hTarget, rfl⟩
    obtain ⟨header, hHeader, hSame⟩ := h.addressed hTarget
    exact ⟨header, hHeader, hSame.reqrep⟩

theorem Stop.Received.forward_error {next : Stop T} (h : stop.Received rmp reqrep m)
    (hTarget : stop.targetId = none) :
    next.forward rmp write m = some (.error (.missingRequiredField "reqrep" "REQ")) := by
  refine forward_not_asks ?_ h.readable
  intro other hAsks
  have hSome := (h.asks_iff.mp hAsks).1
  rw [hTarget] at hSome
  cases hSome

/-! ## A chain of clients -/

theorem forwardAlong_append (stops others : List (Stop T)) (m : Message) :
    forwardAlong rmp write (stops ++ others) m =
      match forwardAlong rmp write stops m with
      | some (.ok m') => forwardAlong rmp write others m'
      | some (.error e) => some (.error e)
      | none => none := by
  induction stops generalizing m with
  | nil => rfl
  | cons stop stops ih =>
    rw [List.cons_append, forwardAlong, forwardAlong]
    cases stop.forward rmp write m with
    | none => rfl
    | some result =>
      cases result with
      | error e => rfl
      | ok m' => exact ih m'

theorem forwardAlong_single (stop : Stop T) (m : Message) :
    forwardAlong rmp write [stop] m = stop.forward rmp write m := by
  rw [forwardAlong]
  cases stop.forward rmp write m with
  | none => rfl
  | some result => cases result <;> rfl

/-- The request passes a client that names its target. -/
theorem forwardAlong_cons (hRmp : rmp.Lawful) (h : m.Asks rmp reqrep)
    (hTarget : stop.targetId.isSome = true) :
    (∃ m', forwardAlong rmp write (stop :: stops) m = some (.ok m')) ↔
      stop.Fits rmp write reqrep ∧
        ∃ m₁, m₁.Asks rmp reqrep ∧ stop.forward rmp write m = some (.ok m₁) ∧
          ∃ m', forwardAlong rmp write stops m₁ = some (.ok m') := by
  constructor
  · rintro ⟨m', hAlong⟩
    rw [forwardAlong] at hAlong
    split at hAlong
    · rename_i m₁ hForward
      have hAsks := (Stop.forward_received hRmp h hForward).asks_iff.mpr ⟨hTarget, rfl⟩
      exact ⟨(Stop.exists_forward h).mp ⟨m₁, hForward⟩, m₁, hAsks, hForward, m', hAlong⟩
    · cases hAlong
    · cases hAlong
  · rintro ⟨_, m₁, _, hForward, m', hAlong⟩
    refine ⟨m', ?_⟩
    rw [forwardAlong, hForward]
    exact hAlong

theorem exists_forwardAlong (hRmp : rmp.Lawful) (h : m.Asks rmp reqrep) :
    (∃ m', forwardAlong rmp write (stops ++ [last]) m = some (.ok m')) ↔
      (∀ stop ∈ stops ++ [last], stop.Fits rmp write reqrep) ∧
        ∀ stop ∈ stops, stop.targetId.isSome = true := by
  induction stops generalizing m with
  | nil =>
    rw [List.nil_append, forwardAlong_single, Stop.exists_forward h]
    simp
  | cons stop stops ih =>
    rw [List.cons_append, List.forall_mem_cons, List.forall_mem_cons]
    cases hTarget : stop.targetId with
    | some targetId =>
      have hNamed : stop.targetId.isSome = true := by rw [hTarget]; rfl
      rw [forwardAlong_cons hRmp h hNamed]
      constructor
      · rintro ⟨hFits, m₁, hAsks, _, hRest⟩
        obtain ⟨hAll, hTargets⟩ := (ih hAsks).mp hRest
        exact ⟨⟨hFits, hAll⟩, rfl, hTargets⟩
      · rintro ⟨⟨hFits, hAll⟩, _, hTargets⟩
        obtain ⟨m₁, hForward⟩ := (Stop.exists_forward h).mpr hFits
        have hAsks := (Stop.forward_received hRmp h hForward).asks_iff.mpr ⟨hNamed, rfl⟩
        exact ⟨hFits, m₁, hAsks, hForward, (ih hAsks).mpr ⟨hAll, hTargets⟩⟩
    | none =>
      constructor
      · rintro ⟨m', hAlong⟩
        rw [forwardAlong] at hAlong
        split at hAlong
        · rename_i m₁ hForward
          have hReceived := Stop.forward_received hRmp h hForward
          -- the client after this one has no reqrep to copy
          obtain ⟨next, others, hNext⟩ := List.exists_cons_of_ne_nil (List.append_ne_nil_of_right_ne_nil stops
            (List.cons_ne_nil last []))
          rw [hNext, forwardAlong, hReceived.forward_error hTarget] at hAlong
          cases hAlong
        · cases hAlong
        · cases hAlong
      · rintro ⟨_, hNone, _⟩
        cases hNone

theorem forwardAlong_received (hRmp : rmp.Lawful) (h : m.Asks rmp reqrep)
    (hAlong : forwardAlong rmp write (stops ++ [last]) m = some (.ok m')) :
    last.Received rmp reqrep m' := by
  induction stops generalizing m with
  | nil =>
    rw [List.nil_append, forwardAlong_single] at hAlong
    exact Stop.forward_received hRmp h hAlong
  | cons stop stops ih =>
    have hNamed := ((exists_forwardAlong hRmp h).mp ⟨m', hAlong⟩).2 stop List.mem_cons_self
    rw [List.cons_append, forwardAlong] at hAlong
    split at hAlong
    · rename_i m₁ hForward
      exact ih ((Stop.forward_received hRmp h hForward).asks_iff.mpr ⟨hNamed, rfl⟩) hAlong
    · cases hAlong
    · cases hAlong

/-- A message goes along a chain exactly when it can be read and has a reqrep, both sections fit at
every client, and every client but the last names the id of its target. Where a client does not,
the one after it fails for want of a reqrep. -/
theorem forwarded_iff (hRmp : rmp.Lawful) (stops : List (Stop T)) (last : Stop T) (m : Message) :
    ((∃ m', forwardAlong rmp write (stops ++ [last]) m = some (.ok m')) ↔
      ∃ reqrep, m.Asks rmp reqrep ∧ (∀ stop ∈ stops ++ [last], stop.Fits rmp write reqrep) ∧
        ∀ stop ∈ stops, stop.targetId.isSome = true) ∧
    ∀ reqrep before bad next after, m.Asks rmp reqrep → stops ++ [last] = before ++ bad :: next :: after →
      (∀ stop ∈ before ++ [bad], stop.Fits rmp write reqrep) →
      (∀ stop ∈ before, stop.targetId.isSome = true) → bad.targetId = none →
      forwardAlong rmp write (stops ++ [last]) m = some (.error (.missingRequiredField "reqrep" "REQ")) := by
  refine ⟨⟨?_, ?_⟩, ?_⟩
  · rintro ⟨m', hAlong⟩
    by_cases hAsks : ∃ reqrep, m.Asks rmp reqrep
    · obtain ⟨reqrep, hAsks⟩ := hAsks
      exact ⟨reqrep, hAsks, (exists_forwardAlong hRmp hAsks).mp ⟨m', hAlong⟩⟩
    · obtain ⟨next, others, hNext⟩ := List.exists_cons_of_ne_nil (List.append_ne_nil_of_right_ne_nil stops
        (List.cons_ne_nil last []))
      rw [hNext, forwardAlong] at hAlong
      by_cases hPanic : m.header rmp = none
      · rw [Stop.forward_eq_none.mpr hPanic] at hAlong
        cases hAlong
      · rw [Stop.forward_not_asks (not_exists.mp hAsks) hPanic] at hAlong
        cases hAlong
  · rintro ⟨reqrep, hAsks, hFits, hTargets⟩
    exact (exists_forwardAlong hRmp hAsks).mpr ⟨hFits, hTargets⟩
  · intro reqrep before bad next after hAsks hStops hFits hTargets hBad
    obtain ⟨m', hAlong⟩ := (exists_forwardAlong hRmp hAsks).mpr ⟨hFits, hTargets⟩
    have hReceived := forwardAlong_received hRmp hAsks hAlong
    rw [hStops, List.append_cons, forwardAlong_append, hAlong]
    dsimp only
    rw [forwardAlong, hReceived.forward_error hBad]

/-! ## The answer -/

theorem Stop.Received.createResponse_eq_ok {U : Type} {writeReply : U → Except String Bytes}
    (h : stop.Received rmp reqrep m) {senderClientId : ClientId} {status : Option StatusCode} {payload : U}
    {r : RawMessage} :
    m.createResponse rmp writeReply senderClientId status payload = some (.ok r) ↔
      stop.targetId.isSome = true ∧ writeReply payload = .ok r.payloadData ∧ r.messageType = .response ∧
        r.clientId = senderClientId ∧ r.header =
          m.responseHeader reqrep ⟨stop.targetName, stop.path, stop.targetId⟩ [] status := by
  rw [Message.createResponse_eq_ok]
  constructor
  · rintro ⟨_, header, reqrep', entry, others, hHeader, hReqrep, hRouting, hNew⟩
    obtain ⟨hTarget, rfl⟩ := h.asks_iff.mp ⟨header, hHeader, hReqrep⟩
    obtain ⟨header', hHeader', hSame⟩ := h.addressed hTarget
    obtain rfl := Except.ok.inj (Option.some.inj (hHeader'.symm.trans hHeader))
    obtain ⟨rfl, rfl⟩ := List.cons.inj (Option.some.inj (hRouting.symm.trans hSame.routing))
    exact ⟨hTarget, RawMessage.newOf_eq_ok.mp hNew⟩
  · rintro ⟨hTarget, hNew⟩
    obtain ⟨header, hHeader, hSame⟩ := h.addressed hTarget
    exact ⟨h.messageType, header, reqrep, _, [], hHeader, hSame.reqrep, hSame.routing,
      RawMessage.newOf_eq_ok.mpr hNew⟩

/-- Along whatever chain the request came, the last client can answer it when it is named in it. The
answer is valid, goes to the client before it and arrives with the id of the first request. -/
theorem forwarded_answered (hRmp : rmp.Lawful) (hAsks : m.Asks rmp reqrep)
    (hAlong : forwardAlong rmp write (stops ++ [last]) m = some (.ok m')) {U : Type}
    (writeReply : U → Except String Bytes) (senderClientId : ClientId) (status : Option StatusCode)
    (payload : U) :
    ((∃ r, m'.createResponse rmp writeReply senderClientId status payload = some (.ok r)) ↔
      last.targetId.isSome = true ∧ ∃ payloadData, writeReply payload = .ok payloadData) ∧
    ∀ r, m'.createResponse rmp writeReply senderClientId status payload = some (.ok r) →
      validateMessageStructure .response r.header = .ok () ∧
      ∀ arrived, r.intoMessage rmp = .ok arrived →
        arrived.messageType = .response ∧ arrived.clientId = senderClientId ∧
        ∃ header, arrived.header rmp = some (.ok header) ∧
          header.reqrep = some ⟨.correlation, reqrep.id⟩ ∧
          header.routing = some [⟨last.targetName, last.path, some last.clientId⟩] ∧
          header.status = status := by
  have hReceived := forwardAlong_received hRmp hAsks hAlong
  refine ⟨⟨?_, ?_⟩, ?_⟩
  · rintro ⟨r, hCreated⟩
    obtain ⟨hTarget, hWrite, _⟩ := hReceived.createResponse_eq_ok.mp hCreated
    exact ⟨hTarget, r.payloadData, hWrite⟩
  · rintro ⟨hTarget, payloadData, hWrite⟩
    exact ⟨⟨.response, senderClientId,
        m'.responseHeader reqrep ⟨last.targetName, last.path, last.targetId⟩ [] status, payloadData⟩,
      hReceived.createResponse_eq_ok.mpr ⟨hTarget, hWrite, rfl, rfl, rfl⟩⟩
  · intro r hCreated
    obtain ⟨_, _, hType, hClient, hHeader⟩ := hReceived.createResponse_eq_ok.mp hCreated
    refine ⟨by rw [hHeader]; exact Message.validate_responseHeader.mpr rfl, ?_⟩
    intro arrived hArrived
    obtain ⟨b, hBytes, _⟩ := bind_eq_ok.mp hArrived
    obtain ⟨headerBytes, hVec, _⟩ := bind_eq_ok.mp hBytes
    obtain ⟨_, _, hLimit, rfl⟩ := (RawMessage.intoMessage_eq_ok hVec).mp hArrived
    obtain ⟨header, hRead, hSame⟩ := RawMessage.header_message_named hRmp hLimit hVec
      (by rw [hHeader]; rfl) (by rw [hHeader]; rfl)
    rw [hHeader] at hSame
    refine ⟨hType, hClient, header, hRead, hSame.reqrep, ?_, hSame.status⟩
    rw [← hReceived.clientId]
    exact hSame.routing

end

/-! ## A request to a worker that forwards it -/

def workerStop : Stop MessagePack.Value := ⟨1001, "backup", "/sum", some 1002, .nil⟩

def backupStop : Stop MessagePack.Value := ⟨1002, "archive", "/sum", some 1003, .nil⟩

def workerHeader : Bytes where
  toList := [130, 167, 114, 111, 117, 116, 105, 110, 103, 145, 147, 166, 98, 97, 99, 107, 117, 112,
    164, 47, 115, 117, 109, 205, 3, 234, 166, 114, 101, 113, 114, 101, 112, 146, 167, 114, 101, 113,
    117, 101, 115, 116, 161, 55]
  length_lt := by decide

def backupHeaderBytes : Bytes where
  toList := [130, 167, 114, 111, 117, 116, 105, 110, 103, 145, 147, 167, 97, 114, 99, 104, 105, 118,
    101, 164, 47, 115, 117, 109, 205, 3, 235, 166, 114, 101, 113, 114, 101, 112, 146, 167, 114, 101,
    113, 117, 101, 115, 116, 161, 55]
  length_lt := by decide

theorem addressedFrame_asks : addressedFrame.message.Asks Rmp.messagePack (.req "7") :=
  ⟨_, addressedFrame_read, rfl⟩

theorem stops_fit : ∀ stop ∈ [workerStop, backupStop],
    stop.Fits Rmp.messagePack Rmp.messagePack.toVec (.req "7") := by
  have hWrite : Rmp.messagePack.toVec .nil = .ok nilPayload := by
    decide +kernel
  intro stop hMem
  rcases List.mem_pair.mp hMem with rfl | rfl
  · exact ⟨workerHeader, nilPayload, by decide +kernel, hWrite, by decide, by decide⟩
  · exact ⟨backupHeaderBytes, nilPayload, by decide +kernel, hWrite, by decide, by decide⟩

theorem sumRequest_forwarded :
    ∃ m', forwardAlong Rmp.messagePack Rmp.messagePack.toVec ([workerStop] ++ [backupStop])
      addressedFrame.message = some (.ok m') :=
  (@forwarded_iff _ Rmp.messagePack Rmp.messagePack.toVec Rmp.messagePack_lawful [workerStop] backupStop
    addressedFrame.message).1.mpr ⟨.req "7", addressedFrame_asks, stops_fit, by decide⟩

theorem sumRequest_answered :
    ∃ m' r, forwardAlong Rmp.messagePack Rmp.messagePack.toVec ([workerStop] ++ [backupStop])
        addressedFrame.message = some (.ok m') ∧
      m'.createResponse Rmp.messagePack Rmp.messagePack.toVec 1003 none .nil = some (.ok r) ∧
      validateMessageStructure .response r.header = .ok () := by
  have hTargets : ∀ stop ∈ [workerStop], stop.targetId.isSome = true := by
    decide
  obtain ⟨m', hAlong⟩ := (@exists_forwardAlong _ _ _ _ backupStop [workerStop] _ Rmp.messagePack_lawful
    addressedFrame_asks).mpr ⟨stops_fit, hTargets⟩
  have hAnswered := forwarded_answered Rmp.messagePack_lawful addressedFrame_asks hAlong
    Rmp.messagePack.toVec 1003 none .nil
  obtain ⟨r, hCreated⟩ := hAnswered.1.mpr ⟨rfl, nilPayload, by decide +kernel⟩
  exact ⟨m', r, hAlong, hCreated, (hAnswered.2 r hCreated).1⟩

end Fleximq.Protocol
