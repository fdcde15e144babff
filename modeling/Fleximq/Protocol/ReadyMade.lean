import Fleximq.Protocol.Builder

/-! # Ready-made builders

The specialized builders fill the header for a message type, and the table of the
validator says which fields that type may have. The two agree for all of them but
`simple_broadcast`, whose topic is a forbidden field.
-/
namespace Fleximq.Protocol
open Foundation

/-- A call of a specialized builder. -/
inductive ReadyMade where
  | join (clientId : ClientId) (clientName : String)
  | joinWithToken (clientId : ClientId) (clientName token : String)
  | joinWithBasicAuth (clientId : ClientId) (clientName username password : String)
  | joinWithApiKey (clientId : ClientId) (clientName apiKey : String)
  | notification (clientId : ClientId) (targetName path : String) (targetId : Option ClientId)
  | simpleNotification (clientId : ClientId) (targetName path : String) (targetId : Option ClientId)
  | response (clientId : ClientId) (targetName requestId path : String) (targetId : ClientId)
  | forwardedResponseWithStatus (clientId : ClientId) (requesterName requestId path : String)
      (requesterId : ClientId)
  | broadcast (clientId : ClientId)
  | simpleBroadcast (clientId : ClientId) (topic : String)
  | simplePublish (clientId : ClientId) (topic : String)
  | simpleSubscribe (clientId : ClientId) (topic : String)
  | requestAsRequest (clientId : ClientId) (targetClientName path : String) (targetId : Option ClientId)
      (requestId : String)

namespace ReadyMade

def builder : ReadyMade → MessageBuilder
  | join clientId clientName => .join clientId clientName
  | joinWithToken clientId clientName token => .joinWithToken clientId clientName token
  | joinWithBasicAuth clientId clientName username password =>
    .joinWithBasicAuth clientId clientName username password
  | joinWithApiKey clientId clientName apiKey => .joinWithApiKey clientId clientName apiKey
  | notification clientId targetName path targetId => .notification clientId targetName path targetId
  | simpleNotification clientId targetName path targetId =>
    .simpleNotification clientId targetName path targetId
  | response clientId targetName requestId path targetId =>
    .response clientId targetName requestId path targetId
  | forwardedResponseWithStatus clientId requesterName requestId path requesterId =>
    .forwardedResponseWithStatus clientId requesterName requestId path requesterId
  | broadcast clientId => .broadcast clientId
  | simpleBroadcast clientId topic => .simpleBroadcast clientId topic
  | simplePublish clientId topic => .simplePublish clientId topic
  | simpleSubscribe clientId topic => .simpleSubscribe clientId topic
  | requestAsRequest clientId targetClientName path targetId requestId =>
    (MessageBuilder.request clientId targetClientName path targetId).asRequest requestId

/-! What the message of the call should be: its type, its sender and the arguments in their fields. -/

def messageType : ReadyMade → MessageType
  | join .. | joinWithToken .. | joinWithBasicAuth .. | joinWithApiKey .. => .join
  | notification .. | simpleNotification .. => .notification
  | response .. | forwardedResponseWithStatus .. => .response
  | broadcast .. | simpleBroadcast .. => .broadcast
  | simplePublish .. => .publish
  | simpleSubscribe .. => .subscribe
  | requestAsRequest .. => .request

def clientId : ReadyMade → ClientId
  | join clientId .. | joinWithToken clientId .. | joinWithBasicAuth clientId ..
  | joinWithApiKey clientId .. | notification clientId .. | simpleNotification clientId ..
  | response clientId .. | forwardedResponseWithStatus clientId .. | broadcast clientId
  | simpleBroadcast clientId _ | simplePublish clientId _ | simpleSubscribe clientId _
  | requestAsRequest clientId .. => clientId

def arguments : ReadyMade → Header
  | join _ clientName => { Header.new with clientName := some clientName }
  | joinWithToken _ clientName token =>
    { Header.new with clientName := some clientName, auth := some ⟨.token, .token token⟩ }
  | joinWithBasicAuth _ clientName username password =>
    { Header.new with clientName := some clientName, auth := some ⟨.basic, .basic username password⟩ }
  | joinWithApiKey _ clientName apiKey =>
    { Header.new with clientName := some clientName, auth := some ⟨.apiKey, .apiKey apiKey⟩ }
  | notification _ targetName path targetId | simpleNotification _ targetName path targetId =>
    { Header.new with routing := some [⟨targetName, path, targetId⟩] }
  | response _ targetName requestId path targetId
  | forwardedResponseWithStatus _ targetName requestId path targetId =>
    { Header.new with
      routing := some [⟨targetName, path, some targetId⟩]
      reqrep := some ⟨.correlation, requestId⟩ }
  | broadcast _ => Header.new
  | simpleBroadcast _ topic | simplePublish _ topic | simpleSubscribe _ topic =>
    { Header.new with topic := some topic }
  | requestAsRequest _ targetClientName path targetId requestId =>
    { Header.new with
      routing := some [⟨targetClientName, path, targetId⟩]
      reqrep := some ⟨.request, requestId⟩ }

theorem builder_eq (c : ReadyMade) : c.builder = ⟨c.messageType, c.clientId, c.arguments⟩ := by
  cases c <;> rfl

/-- The errors of the validator. -/
def StructureError : ProtocolError → Prop
  | .missingRequiredField .. | .forbiddenField .. | .invalidRouting _ => True
  | _ => False

/-- The header is valid for its type, `build` does not fail for its structure, and the message has
the arguments in its header and nothing else. -/
structure Usable (rmp : Rmp) (c : ReadyMade) : Prop where
  valid : validateMessageStructure c.builder.messageType c.builder.header = .ok ()
  build : ∀ e, c.builder.build rmp = .error e → ¬ StructureError e
  built : ∀ r, c.builder.build rmp = .ok r →
    r.messageType = c.messageType ∧ r.clientId = c.clientId ∧ r.header = c.arguments

theorem validate_arguments {c : ReadyMade} (hTopic : ∀ clientId topic, c ≠ simpleBroadcast clientId topic) :
    validateMessageStructure c.messageType c.arguments = .ok () := by
  cases c with
  | simpleBroadcast clientId topic => exact absurd rfl (hTopic clientId topic)
  | _ => rfl

theorem validate_simpleBroadcast (clientId : ClientId) (topic : String) :
    validateMessageStructure .broadcast (simpleBroadcast clientId topic).arguments =
      .error (.forbiddenField "topic" "BCAST") := rfl

/-- After a valid structure only the payload can fail. -/
theorem build_error {rmp : Rmp} {b : MessageBuilder} {e : ProtocolError}
    (hValid : validateMessageStructure b.messageType b.header = .ok ()) (hError : b.build rmp = .error e) :
    ∃ text, e = .messagePackSerialization text := by
  rw [MessageBuilder.build, MessageBuilder.buildWithPayload_eq,
    MessageBuilder.buildWithPayloadOf_valid hValid] at hError
  obtain ⟨text, _, hText⟩ := RawMessage.newOf_eq_error.mp hError
  exact ⟨text, hText⟩

/-- Every ready-made builder but one makes usable messages. -/
theorem usable_iff (rmp : Rmp) (c : ReadyMade) :
    c.Usable rmp ↔ ∀ clientId topic, c ≠ simpleBroadcast clientId topic := by
  constructor
  · rintro hUsable clientId topic rfl
    cases (validate_simpleBroadcast clientId topic).symm.trans hUsable.valid
  · intro hTopic
    have hValid : validateMessageStructure c.builder.messageType c.builder.header = .ok () := by
      rw [builder_eq]
      exact validate_arguments hTopic
    refine ⟨hValid, ?_, ?_⟩
    · intro e hError
      obtain ⟨text, rfl⟩ := build_error hValid hError
      exact id
    · intro r hBuilt
      obtain ⟨_, hType, hClient, hHeader⟩ := MessageBuilder.buildWithPayload_eq_ok hBuilt
      rw [builder_eq] at hType hClient hHeader
      exact ⟨hType, hClient, hHeader⟩

theorem simpleBroadcast_not_usable :
    (MessageBuilder.simpleBroadcast clientIdMinDynamic "news").build Rmp.messagePack =
        .error (.forbiddenField "topic" "BCAST") ∧
      ¬ (simpleBroadcast clientIdMinDynamic "news").Usable Rmp.messagePack := by
  refine ⟨rfl, ?_⟩
  intro hUsable
  cases (validate_simpleBroadcast clientIdMinDynamic "news").symm.trans hUsable.valid

end ReadyMade
end Fleximq.Protocol
