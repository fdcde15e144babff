import Fleximq.Protocol.Builder
import Fleximq.Protocol.Caching
import Fleximq.Protocol.HeaderRoundTrip

/-! # Responses to a request

`create_response` takes the routing list of the request over and corrects its
first entry, so it answers a request with one entry as the validator asks.
`response_from_request` sets no routing, without which no response is valid.
-/
namespace Fleximq.Protocol
open Foundation

/-- The header of `create_response`. -/
def Message.responseHeader (m : Message) (reqReqrep : RequestResponse) (entry : Routing)
    (others : List Routing) (status : Option StatusCode) : Header :=
  { Header.new with
    routing := some ({ entry with clientId := some m.clientId } :: others)
    reqrep := some ⟨.correlation, reqReqrep.id⟩
    status := status }

/-- `none` where `header` panics. -/
def Message.createResponse {T : Type} (rmp : Rmp) (write : T → Except String Bytes) (m : Message)
    (senderClientId : ClientId) (status : Option StatusCode) (payload : T) :
    Option (Except ProtocolError RawMessage) :=
  if m.messageType ≠ .request then
    some (.error (.invalidFormat "Cannot create response for non-request message"))
  else
    (m.header rmp).map fun header => do
      let reqHeader ← header
      let reqReqrep ← okOr reqHeader.reqrep (.invalidFormat "Request message missing reqrep field")
      let originalRouting ← okOr reqHeader.routing (.invalidFormat "Request message missing routing field")
      match originalRouting with
      | [] => .error (.invalidFormat "Request message has empty routing")
      | entry :: others =>
        RawMessage.newOf write .response senderClientId (m.responseHeader reqReqrep entry others status) payload

section
variable {T : Type} (rmp : Rmp) (write : T → Except String Bytes) (m : Message)
  (senderClientId : ClientId) (status : Option StatusCode) (payload : T)

/-- The response goes back to the sender alone, with the id of the request and the status. -/
def RawMessage.Answers (r : RawMessage) : Prop :=
  r.messageType = .response ∧ r.clientId = senderClientId ∧ write payload = .ok r.payloadData ∧
    (∃ entry, r.header.routing = some [entry] ∧ entry.clientId = some m.clientId) ∧
    (∃ header reqrep, m.header rmp = some (.ok header) ∧ header.reqrep = some reqrep ∧
      r.header.reqrep = some ⟨.correlation, reqrep.id⟩) ∧
    r.header.status = status

def builtResponse : Option (Except ProtocolError RawMessage) :=
  (MessageBuilder.responseFromRequest rmp senderClientId m status).map fun builder =>
    builder.buildWithPayloadOf write payload

def AnswersAgree : Prop :=
  ∃ built created, builtResponse rmp write m senderClientId status payload = some (.ok built) ∧
    m.createResponse rmp write senderClientId status payload = some (.ok created) ∧
    created.Answers rmp write m senderClientId status payload ∧
    built.messageType = created.messageType ∧ built.clientId = created.clientId ∧
    built.payloadData = created.payloadData ∧ built.header.Same created.header

/-- The request can be read, and has a reqrep and at least one routing entry. -/
def Message.Answerable : Prop :=
  m.messageType = .request ∧ ∃ header reqrep entry others, m.header rmp = some (.ok header) ∧
    header.reqrep = some reqrep ∧ header.routing = some (entry :: others)

/-- What is returned is a valid response to the sender, and other messages are refused. -/
structure ResponseSound : Prop where
  created : ∀ r, m.createResponse rmp write senderClientId status payload = some (.ok r) →
    r.messageType = .response ∧ validateMessageStructure .response r.header = .ok () ∧
      (∃ header reqrep, m.header rmp = some (.ok header) ∧ header.reqrep = some reqrep ∧
        r.header.reqrep = some ⟨.correlation, reqrep.id⟩) ∧
      ∀ routing, r.header.routing = some routing → ∀ entry ∈ routing, entry.clientId = some m.clientId
  refused : ¬ m.Answerable rmp →
    ∃ e, m.createResponse rmp write senderClientId status payload = some (.error e)

/-- The request has two routing entries or more, beside a reqrep, and the payload can be written. -/
def Message.Misrouted : Prop :=
  m.messageType = .request ∧ (∃ header reqrep first second others, m.header rmp = some (.ok header) ∧
    header.reqrep = some reqrep ∧ header.routing = some (first :: second :: others)) ∧
    ∃ payloadData, write payload = .ok payloadData

end

/-! ## What `create_response` returns -/

section
variable {T : Type} {rmp : Rmp} {write : T → Except String Bytes} {m : Message}
  {senderClientId : ClientId} {status : Option StatusCode} {payload : T}

theorem Message.createResponse_eq_ok {r : RawMessage} :
    m.createResponse rmp write senderClientId status payload = some (.ok r) ↔
      m.messageType = .request ∧ ∃ header reqrep entry others, m.header rmp = some (.ok header) ∧
        header.reqrep = some reqrep ∧ header.routing = some (entry :: others) ∧
        RawMessage.newOf write .response senderClientId (m.responseHeader reqrep entry others status) payload =
          .ok r := by
  rw [createResponse]
  constructor
  · intro h
    split at h
    · cases h
    · rename_i hType
      obtain ⟨header, hHeader, hResult⟩ := Option.map_eq_some_iff.mp h
      obtain ⟨reqHeader, rfl, hRest⟩ := bind_eq_ok.mp hResult
      obtain ⟨reqrep, hReqrep, hRest⟩ := bind_eq_ok.mp hRest
      obtain ⟨routing, hRouting, hRest⟩ := bind_eq_ok.mp hRest
      cases routing with
      | nil => cases hRest
      | cons entry others =>
        exact ⟨not_not.mp hType, reqHeader, reqrep, entry, others, hHeader, okOr_eq_ok.mp hReqrep,
          okOr_eq_ok.mp hRouting, hRest⟩
  · rintro ⟨hType, header, reqrep, entry, others, hHeader, hReqrep, hRouting, hNew⟩
    rw [if_neg (not_not.mpr hType), hHeader]
    refine congrArg some (bind_eq_ok.mpr ⟨header, rfl, ?_⟩)
    refine bind_eq_ok.mpr ⟨reqrep, okOr_eq_ok.mpr hReqrep, ?_⟩
    exact bind_eq_ok.mpr ⟨entry :: others, okOr_eq_ok.mpr hRouting, hNew⟩

theorem Message.createResponse_eq_none :
    m.createResponse rmp write senderClientId status payload = none ↔
      m.messageType = .request ∧ m.header rmp = none := by
  rw [createResponse]
  by_cases hType : m.messageType = .request
  · rw [if_neg (not_not.mpr hType), Option.map_eq_none_iff]
    simp [hType]
  · rw [if_pos hType]
    simp [hType]

theorem Message.validate_responseHeader {reqrep : RequestResponse} {entry : Routing}
    {others : List Routing} :
    validateMessageStructure .response (m.responseHeader reqrep entry others status) = .ok () ↔
      others = [] := by
  cases others with
  | nil => exact ⟨fun _ => rfl, fun _ => rfl⟩
  | cons second others =>
    constructor
    · intro hValid
      cases (validateMessageStructure_eq_ok.mp hValid).2.2 _ rfl
    · intro hNil
      cases hNil

theorem Message.createResponse_error (hReadable : m.messageType = .request → m.header rmp ≠ none)
    (hUnanswerable : ¬ m.Answerable rmp) :
    ∃ e, m.createResponse rmp write senderClientId status payload = some (.error e) := by
  cases hResponse : m.createResponse rmp write senderClientId status payload with
  | none =>
    obtain ⟨hType, hPanic⟩ := createResponse_eq_none.mp hResponse
    exact absurd hPanic (hReadable hType)
  | some result =>
    cases result with
    | error e => exact ⟨e, rfl⟩
    | ok r =>
      obtain ⟨hType, header, reqrep, entry, others, hHeader, hReqrep, hRouting, _⟩ :=
        createResponse_eq_ok.mp hResponse
      exact absurd ⟨hType, header, reqrep, entry, others, hHeader, hReqrep, hRouting⟩ hUnanswerable

/-- `create_response` is sound for the accepted messages whose declared size is their length, unless
they are requests to two clients or more. -/
theorem responseSound_iff {data : List UInt8} (hAccept : Message.fromBytes data = .ok m) :
    ResponseSound rmp write m senderClientId status payload ↔
      ¬ (m.messageType = .request ∧ m.baseHeader.declaredSize ≠ m.rawData.length) ∧
        ¬ m.Misrouted rmp write payload := by
  have hReadable : m.header rmp ≠ none ↔ m.baseHeader.declaredSize = m.rawData.length := by
    rw [Ne, Message.header_eq_none]
    exact (Message.slices_iff hAccept).1
  constructor
  · intro hSound
    constructor
    · rintro ⟨hType, hWrapped⟩
      have hPanic : m.header rmp = none := not_not.mp (mt hReadable.mp hWrapped)
      have hUnanswerable : ¬ m.Answerable rmp := by
        rintro ⟨_, header, _, _, _, hHeader, _⟩
        cases hPanic.symm.trans hHeader
      obtain ⟨e, hError⟩ := hSound.refused hUnanswerable
      cases (Message.createResponse_eq_none.mpr ⟨hType, hPanic⟩).symm.trans hError
    · rintro ⟨hType, ⟨header, reqrep, first, second, others, hHeader, hReqrep, hRouting⟩, payloadData, hWrite⟩
      have hCreated : m.createResponse rmp write senderClientId status payload = some (.ok
          ⟨.response, senderClientId, m.responseHeader reqrep first (second :: others) status, payloadData⟩) :=
        Message.createResponse_eq_ok.mpr ⟨hType, header, reqrep, first, second :: others, hHeader, hReqrep,
          hRouting, RawMessage.newOf_eq_ok.mpr ⟨hWrite, rfl, rfl, rfl⟩⟩
      obtain ⟨_, hValid, _⟩ := hSound.created _ hCreated
      cases Message.validate_responseHeader.mp hValid
  · rintro ⟨hExact, hRouted⟩
    refine ⟨?_, ?_⟩
    · intro r hCreated
      obtain ⟨hType, header, reqrep, entry, others, hHeader, hReqrep, hRouting, hNew⟩ :=
        Message.createResponse_eq_ok.mp hCreated
      obtain ⟨hWrite, hResponse, _, hResponseHeader⟩ := RawMessage.newOf_eq_ok.mp hNew
      cases others with
      | cons second others =>
        exact absurd ⟨hType, ⟨header, reqrep, entry, second, others, hHeader, hReqrep, hRouting⟩, _, hWrite⟩
          hRouted
      | nil =>
        rw [hResponseHeader]
        refine ⟨hResponse, Message.validate_responseHeader.mpr rfl, ⟨header, reqrep, hHeader, hReqrep, rfl⟩, ?_⟩
        intro routing hSome routed hMem
        cases hSome
        obtain rfl := List.mem_singleton.mp hMem
        rfl
    · intro hUnanswerable
      refine Message.createResponse_error ?_ hUnanswerable
      intro hType
      by_contra hPanic
      exact hExact ⟨hType, fun hLength => hReadable.mpr hLength hPanic⟩

end

theorem addressedFrame_read :
    addressedFrame.message.header Rmp.messagePack = some (.ok (sumMessage (some 1001)).header) := by
  have hVec : (sumMessage (some 1001)).header.toVec Rmp.messagePack = .ok addressedHeader := by
    decide +kernel
  exact RawMessage.header_message Rmp.messagePack_lawful _ hVec (Header.within_of_named rfl)

theorem addressedFrame_responseSound :
    ResponseSound Rmp.messagePack Rmp.messagePack.toVec addressedFrame.message 1001 none .nil :=
  (@responseSound_iff _ Rmp.messagePack Rmp.messagePack.toVec addressedFrame.message 1001 none .nil _
    (Frame.fromBytes_bytes (by decide))).mpr ⟨fun hWrapped => hWrapped.2 (by decide), by
      rintro ⟨_, ⟨header, _, first, second, others, hHeader, _, hRouting⟩, _⟩
      obtain rfl := Except.ok.inj (Option.some.inj (addressedFrame_read.symm.trans hHeader))
      cases hRouting⟩

def backupMessage : RawMessage where
  messageType := .request
  clientId := clientIdMinDynamic
  header := { Header.new with
    routing := some [⟨"worker", "/sum", some 1001⟩, ⟨"backup", "/sum", some 1002⟩]
    reqrep := some (.req "7") }
  payloadData := nilPayload

def backupHeader : Bytes where
  toList := [130, 167, 114, 111, 117, 116, 105, 110, 103, 146, 147, 166, 119, 111, 114, 107, 101, 114,
    164, 47, 115, 117, 109, 205, 3, 233, 147, 166, 98, 97, 99, 107, 117, 112, 164, 47, 115, 117, 109,
    205, 3, 234, 166, 114, 101, 113, 114, 101, 112, 146, 167, 114, 101, 113, 117, 101, 115, 116, 161, 55]
  length_lt := by decide

def backupFrame : Frame := backupMessage.frame backupHeader (by decide)

/-- The response keeps both entries, so it is no valid response, and the second one still names the
backup. -/
theorem backupFrame_misrouted :
    Message.fromBytes backupFrame.bytes = .ok backupFrame.message ∧
      (∃ r, backupFrame.message.createResponse Rmp.messagePack Rmp.messagePack.toVec 1001 none .nil =
          some (.ok r) ∧
        r.header.routing = some [⟨"worker", "/sum", some 1000⟩, ⟨"backup", "/sum", some 1002⟩] ∧
        validateMessageStructure .response r.header =
          .error (.invalidRouting "REP messages must have exactly one routing entry, got 2")) ∧
      ¬ ResponseSound Rmp.messagePack Rmp.messagePack.toVec backupFrame.message 1001 none .nil := by
  have hRead : backupFrame.message.header Rmp.messagePack = some (.ok backupMessage.header) := by
    have hVec : backupMessage.header.toVec Rmp.messagePack = .ok backupHeader := by
      decide +kernel
    exact RawMessage.header_message Rmp.messagePack_lawful _ hVec (Header.within_of_named rfl)
  have hWrite : Rmp.messagePack.toVec .nil = .ok nilPayload := by
    decide +kernel
  have hCreated : backupFrame.message.createResponse Rmp.messagePack Rmp.messagePack.toVec 1001 none .nil =
      some (.ok ⟨.response, 1001, backupFrame.message.responseHeader (.req "7") ⟨"worker", "/sum", some 1001⟩
        [⟨"backup", "/sum", some 1002⟩] none, nilPayload⟩) :=
    Message.createResponse_eq_ok.mpr ⟨rfl, _, _, _, _, hRead, rfl, rfl,
      RawMessage.newOf_eq_ok.mpr ⟨hWrite, rfl, rfl, rfl⟩⟩
  refine ⟨Frame.fromBytes_bytes (by decide), ⟨_, hCreated, rfl, rfl⟩, ?_⟩
  intro hSound
  obtain ⟨_, hValid, _⟩ := hSound.created _ hCreated
  cases hValid

/-! ## The builder -/

section
variable {T : Type} {rmp : Rmp} {write : T → Except String Bytes} {m : Message}
  {senderClientId : ClientId} {status : Option StatusCode} {payload : T}

theorem MessageBuilder.responseFromRequest_eq {header : Header}
    (hHeader : m.header rmp = some (.ok header)) :
    responseFromRequest rmp senderClientId m status =
      some ⟨.response, senderClientId, { Header.new with reqrep := header.reqrep, status := status }⟩ := by
  rw [responseFromRequest, hHeader]
  obtain ⟨_, reqrep, _, _, _, _, _⟩ := header
  cases reqrep <;> cases status <;> rfl

theorem builtResponse_eq {header : Header} (hHeader : m.header rmp = some (.ok header)) :
    builtResponse rmp write m senderClientId status payload =
      some (.error (.missingRequiredField "routing" "REP")) := by
  rw [builtResponse, MessageBuilder.responseFromRequest_eq hHeader]
  exact congrArg some (MessageBuilder.buildWithPayloadOf_invalid rfl)

theorem request_parts {header : Header} (hValid : validateMessageStructure .request header = .ok ()) :
    ∃ reqrep entry, header.reqrep = some reqrep ∧ header.routing = some [entry] := by
  obtain ⟨hRequired, _, hRouting⟩ := validateMessageStructure_eq_ok.mp hValid
  obtain ⟨reqrep, hReqrep⟩ := Option.isSome_iff_exists.mp (hRequired .reqrep (by decide))
  obtain ⟨routing, hSome⟩ := Option.isSome_iff_exists.mp (hRequired .routing (by decide))
  refine ⟨reqrep, ?_⟩
  have hOne := hRouting routing hSome
  match routing with
  | [entry] => exact ⟨entry, hReqrep, hSome⟩
  | [] => cases hOne
  | _ :: _ :: _ => cases hOne

/-- The builder refuses to answer every request, `create_response` answers the valid ones. -/
theorem not_answersAgree {header : Header} {payloadData : Bytes} (hType : m.messageType = .request)
    (hHeader : m.header rmp = some (.ok header))
    (hValid : validateMessageStructure .request header = .ok ()) (hPayload : write payload = .ok payloadData) :
    builtResponse rmp write m senderClientId status payload =
        some (.error (.missingRequiredField "routing" "REP")) ∧
      (∃ r, m.createResponse rmp write senderClientId status payload = some (.ok r) ∧
        r.Answers rmp write m senderClientId status payload) ∧
      ¬ AnswersAgree rmp write m senderClientId status payload := by
  have hBuilt : builtResponse rmp write m senderClientId status payload =
      some (.error (.missingRequiredField "routing" "REP")) := builtResponse_eq hHeader
  refine ⟨hBuilt, ?_, ?_⟩
  · obtain ⟨reqrep, entry, hReqrep, hRouting⟩ := request_parts hValid
    refine ⟨⟨.response, senderClientId, m.responseHeader reqrep entry [] status, payloadData⟩, ?_, ?_⟩
    · exact Message.createResponse_eq_ok.mpr ⟨hType, header, reqrep, entry, [], hHeader, hReqrep, hRouting,
        RawMessage.newOf_eq_ok.mpr ⟨hPayload, rfl, rfl, rfl⟩⟩
    · exact ⟨rfl, rfl, hPayload, ⟨_, rfl, rfl⟩, ⟨header, reqrep, hHeader, hReqrep, rfl⟩, rfl⟩
  · rintro ⟨built, _, hOk, _⟩
    cases hBuilt.symm.trans hOk

end

theorem addressedFrame_not_answersAgree :
    builtResponse Rmp.messagePack Rmp.messagePack.toVec addressedFrame.message 1001 none .nil =
        some (.error (.missingRequiredField "routing" "REP")) ∧
      (∃ r, addressedFrame.message.createResponse Rmp.messagePack Rmp.messagePack.toVec 1001 none .nil =
          some (.ok r) ∧
        r.Answers Rmp.messagePack Rmp.messagePack.toVec addressedFrame.message 1001 none .nil) ∧
      ¬ AnswersAgree Rmp.messagePack Rmp.messagePack.toVec addressedFrame.message 1001 none .nil :=
  @not_answersAgree _ Rmp.messagePack Rmp.messagePack.toVec addressedFrame.message 1001 none .nil _ nilPayload
    rfl addressedFrame_read rfl (by decide +kernel)

theorem addressedFrame_disagrees :
    validateMessageStructure .request (sumMessage (some 1001)).header = .ok () ∧
      addressedFrame.message.header Rmp.messagePack = some (.ok (sumMessage (some 1001)).header) ∧
      ¬ AnswersAgree Rmp.messagePack Rmp.messagePack.toVec addressedFrame.message 1001 none .nil := by
  refine ⟨rfl, addressedFrame_read, ?_⟩
  rintro ⟨built, _, hOk, _⟩
  cases (builtResponse_eq addressedFrame_read).symm.trans hOk

end Fleximq.Protocol
