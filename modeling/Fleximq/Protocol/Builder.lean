import Fleximq.Protocol.RawMessage
import Fleximq.Protocol.Validation

/-! # The message builder

Each setter replaces one field of the header; `build` validates the header and
writes a nil payload.
-/
namespace Fleximq.Protocol
open Foundation
open Foundation.MessagePack (Value)

def Header.withRouteAndId (h : Header) (clientName path : String) (clientId : ClientId) : Header :=
  { h with routing := some [⟨clientName, path, some clientId⟩] }

def Header.withAuth (h : Header) (auth : Auth) : Header := { h with auth := some auth }

structure MessageBuilder where
  messageType : MessageType
  clientId : ClientId
  header : Header

namespace MessageBuilder

def new (messageType : MessageType) (clientId : ClientId) : MessageBuilder :=
  ⟨messageType, clientId, .new⟩

/-! ## Setters -/

def setRouting (b : MessageBuilder) (routing : List Routing) : MessageBuilder :=
  { b with header := { b.header with routing := some routing } }

def setRoutingTarget (b : MessageBuilder) (clientName path : String) (clientId : Option ClientId) :
    MessageBuilder :=
  { b with header := { b.header with routing := some [⟨clientName, path, clientId⟩] } }

def routeWithId (b : MessageBuilder) (clientName path : String) (clientId : ClientId) : MessageBuilder :=
  { b with header := b.header.withRouteAndId clientName path clientId }

def routeTo (b : MessageBuilder) (clientName path : String) (clientId : Option ClientId) : MessageBuilder :=
  { b with header := { b.header with routing := some [⟨clientName, path, clientId⟩] } }

def routeToMany (b : MessageBuilder) (targets : List (String × String × Option ClientId)) :
    MessageBuilder :=
  let routing := targets.map fun (clientName, path, clientId) => ⟨clientName, path, clientId⟩
  { b with header := { b.header with routing := some routing } }

def reqrep (b : MessageBuilder) (reqrep : RequestResponse) : MessageBuilder :=
  { b with header := { b.header with reqrep := some reqrep } }

def asRequest (b : MessageBuilder) (requestId : String) : MessageBuilder :=
  { b with header := { b.header with reqrep := some ⟨.request, requestId⟩ } }

def asResponse (b : MessageBuilder) (requestId : String) : MessageBuilder :=
  { b with header := { b.header with reqrep := some ⟨.correlation, requestId⟩ } }

def withTopic (b : MessageBuilder) (topic : String) : MessageBuilder :=
  { b with header := { b.header with topic := some topic } }

def status (b : MessageBuilder) (status : StatusCode) : MessageBuilder :=
  { b with header := { b.header with status := some status } }

def withStatus (b : MessageBuilder) (status : StatusCode) : MessageBuilder := b.status status

def auth (b : MessageBuilder) (auth : Auth) : MessageBuilder :=
  { b with header := { b.header with auth := some auth } }

def authToken (b : MessageBuilder) (token : String) : MessageBuilder :=
  { b with header := b.header.withAuth (.token token) }

def authTokenLegacy (b : MessageBuilder) (token : String) : MessageBuilder :=
  { b with header := { b.header with auth := some (.token token) } }

def authBasic (b : MessageBuilder) (username password : String) : MessageBuilder :=
  { b with header := { b.header with auth := some (.basic username password) } }

def authApiKey (b : MessageBuilder) (apiKey : String) : MessageBuilder :=
  { b with header := { b.header with auth := some (.apiKey apiKey) } }

def withClientName (b : MessageBuilder) (clientName : String) : MessageBuilder :=
  { b with header := { b.header with clientName := some clientName } }

/-! ## Building -/

/-- `build_with_payload` at any type of payloads, which `write` serializes. -/
def buildWithPayloadOf {T : Type} (write : T → Except String Bytes) (b : MessageBuilder) (payload : T) :
    Except ProtocolError RawMessage := do
  validateMessageStructure b.messageType b.header
  RawMessage.newOf write b.messageType b.clientId b.header payload

def buildWithPayload (rmp : Rmp) (b : MessageBuilder) (payload : Value) :
    Except ProtocolError RawMessage := do
  validateMessageStructure b.messageType b.header
  RawMessage.new rmp b.messageType b.clientId b.header payload

def build (rmp : Rmp) (b : MessageBuilder) : Except ProtocolError RawMessage :=
  b.buildWithPayload rmp .nil

theorem buildWithPayload_eq (rmp : Rmp) (b : MessageBuilder) (payload : Value) :
    b.buildWithPayload rmp payload = b.buildWithPayloadOf rmp.toVec payload := rfl

/-! ## Specialized builders -/

def join (clientId : ClientId) (clientName : String) : MessageBuilder :=
  (new .join clientId).withClientName clientName

def request (clientId : ClientId) (targetClientName path : String) (targetId : Option ClientId) :
    MessageBuilder :=
  (new .request clientId).routeTo targetClientName path targetId

def notification (clientId : ClientId) (targetName path : String) (targetId : Option ClientId) :
    MessageBuilder :=
  (new .notification clientId).routeTo targetName path targetId

def broadcast (clientId : ClientId) : MessageBuilder := new .broadcast clientId

def subscribe (clientId : ClientId) : MessageBuilder := new .subscribe clientId

def response (clientId : ClientId) (targetName requestId path : String) (targetId : ClientId) :
    MessageBuilder :=
  ((new .response clientId).routeWithId targetName path targetId).asResponse requestId

def publish (clientId : ClientId) : MessageBuilder := new .publish clientId

def unsubscribe (clientId : ClientId) : MessageBuilder := new .unsubscribe clientId

def forwardedResponseWithStatus (clientId : ClientId) (requesterName requestId path : String)
    (requesterId : ClientId) : MessageBuilder :=
  ((new .response clientId).routeTo requesterName path (some requesterId)).asResponse requestId

/-- `none` where `header` panics. -/
def responseFromRequest (rmp : Rmp) (clientId : ClientId) (message : Message)
    (status : Option StatusCode) : Option MessageBuilder := do
  let header ← message.header rmp
  let builder := new .response clientId
  let builder :=
    match header with
    | .ok header =>
      match header.reqrep with
      | some reqrep => builder.reqrep reqrep
      | none => builder
    | .error _ => builder
  match status with
  | some status => return builder.status status
  | none => return builder

def simpleNotification (clientId : ClientId) (targetName path : String) (targetId : Option ClientId) :
    MessageBuilder :=
  (new .notification clientId).routeTo targetName path targetId

def simpleBroadcast (clientId : ClientId) (topic : String) : MessageBuilder :=
  (broadcast clientId).withTopic topic

def simplePublish (clientId : ClientId) (topic : String) : MessageBuilder :=
  (publish clientId).withTopic topic

def simpleSubscribe (clientId : ClientId) (topic : String) : MessageBuilder :=
  (subscribe clientId).withTopic topic

def joinWithToken (clientId : ClientId) (clientName token : String) : MessageBuilder :=
  (join clientId clientName).authToken token

def joinWithBasicAuth (clientId : ClientId) (clientName username password : String) : MessageBuilder :=
  (join clientId clientName).authBasic username password

def joinWithApiKey (clientId : ClientId) (clientName apiKey : String) : MessageBuilder :=
  (join clientId clientName).authApiKey apiKey

end MessageBuilder

section
variable {T : Type} {write : T → Except String Bytes} {payload : T} {r : RawMessage}

theorem RawMessage.newOf_eq_ok {messageType : MessageType} {clientId : ClientId} {header : Header} :
    newOf write messageType clientId header payload = .ok r ↔
      write payload = .ok r.payloadData ∧ r.messageType = messageType ∧ r.clientId = clientId ∧
        r.header = header := by
  constructor
  · intro h
    obtain ⟨payloadData, hWrite, hResult⟩ := bind_eq_ok.mp h
    cases hResult
    exact ⟨mapError_eq_ok.mp hWrite, rfl, rfl, rfl⟩
  · rintro ⟨hWrite, rfl, rfl, rfl⟩
    exact bind_eq_ok.mpr ⟨_, mapError_eq_ok.mpr hWrite, rfl⟩

theorem RawMessage.newOf_eq_error {messageType : MessageType} {clientId : ClientId} {header : Header}
    {e : ProtocolError} :
    newOf write messageType clientId header payload = .error e ↔
      ∃ text, write payload = .error text ∧ e = .messagePackSerialization text := by
  rw [newOf]
  cases hWrite : write payload with
  | error text =>
    constructor
    · intro h
      cases h
      exact ⟨text, rfl, rfl⟩
    · rintro ⟨_, hText, rfl⟩
      cases hText
      rfl
  | ok payloadData =>
    constructor
    · intro h
      cases h
    · rintro ⟨_, hText, _⟩
      cases hText

theorem MessageBuilder.buildWithPayloadOf_valid {b : MessageBuilder}
    (hValid : validateMessageStructure b.messageType b.header = .ok ()) :
    b.buildWithPayloadOf write payload = RawMessage.newOf write b.messageType b.clientId b.header payload := by
  rw [buildWithPayloadOf, hValid]
  rfl

theorem MessageBuilder.buildWithPayloadOf_eq_ok {b : MessageBuilder} :
    b.buildWithPayloadOf write payload = .ok r ↔
      validateMessageStructure b.messageType b.header = .ok () ∧
        RawMessage.newOf write b.messageType b.clientId b.header payload = .ok r := by
  constructor
  · intro h
    obtain ⟨_, hValid, hNew⟩ := bind_eq_ok.mp h
    exact ⟨hValid, hNew⟩
  · rintro ⟨hValid, hNew⟩
    rw [buildWithPayloadOf_valid hValid, hNew]

theorem MessageBuilder.buildWithPayloadOf_invalid {b : MessageBuilder} {e : ProtocolError}
    (hInvalid : validateMessageStructure b.messageType b.header = .error e) :
    b.buildWithPayloadOf write payload = .error e := by
  rw [buildWithPayloadOf, hInvalid]
  rfl

end

theorem MessageBuilder.buildWithPayload_eq_ok {rmp : Rmp} {b : MessageBuilder} {payload : Value}
    {r : RawMessage} (h : b.buildWithPayload rmp payload = .ok r) :
    validateMessageStructure r.messageType r.header = .ok () ∧ r.messageType = b.messageType ∧
      r.clientId = b.clientId ∧ r.header = b.header := by
  rw [buildWithPayload_eq] at h
  obtain ⟨hValid, hNew⟩ := buildWithPayloadOf_eq_ok.mp h
  obtain ⟨_, hType, hClient, hHeader⟩ := RawMessage.newOf_eq_ok.mp hNew
  rw [hType, hHeader]
  exact ⟨hValid, rfl, hClient, rfl⟩

end Fleximq.Protocol
