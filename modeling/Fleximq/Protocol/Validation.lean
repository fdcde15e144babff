import Fleximq.Protocol.Types

/-! # Message validation

The table of required and forbidden header fields by message type, and the rules
about routing entries that come after it.
-/
namespace Fleximq.Protocol

def requiredFields : MessageType → List HeaderField
  | .join => [.clientName]
  | .request | .response => [.routing, .reqrep]
  | .notification => [.routing]
  | .broadcast => []
  | .publish => [.topic]
  | .subscribe | .unsubscribe => [.topic]

def forbiddenFields : MessageType → List HeaderField
  | .join => [.routing, .reqrep, .topic, .status]
  | .request | .response => [.topic, .auth]
  | .notification => [.reqrep, .topic, .auth]
  | .broadcast => [.routing, .reqrep, .topic, .auth]
  | .publish => [.routing, .reqrep, .auth]
  | .subscribe | .unsubscribe => [.routing, .reqrep, .status, .auth]

def validateRouting (messageType : MessageType) (routing : List Routing) : Except ProtocolError Unit :=
  match messageType with
  | .request | .response =>
    match routing with
    | [entry] =>
      if messageType = .response ∧ entry.clientId.isNone then
        .error (.invalidRouting "REP messages must include client_id in routing")
      else .ok ()
    | _ =>
      .error (.invalidRouting (messageType.asStr ++ " messages must have exactly one routing entry, got " ++
        toString routing.length))
  | .notification =>
    if routing.isEmpty then
      .error (.invalidRouting "NOTIF messages must have at least one routing entry")
    else .ok ()
  | _ => .ok ()

def validateMessageStructure (messageType : MessageType) (header : Header) : Except ProtocolError Unit :=
  match (requiredFields messageType).find? fun field => !field.isPresentIn header with
  | some field => .error (.missingRequiredField field.name messageType.asStr)
  | none =>
    match (forbiddenFields messageType).find? fun field => field.isPresentIn header with
    | some field => .error (.forbiddenField field.name messageType.asStr)
    | none =>
      match header.routing with
      | some routing => validateRouting messageType routing
      | none => .ok ()

theorem validateMessageStructure_eq_ok {messageType : MessageType} {header : Header} :
    validateMessageStructure messageType header = .ok () ↔
      (∀ field ∈ requiredFields messageType, field.isPresentIn header = true) ∧
        (∀ field ∈ forbiddenFields messageType, field.isPresentIn header = false) ∧
          ∀ routing, header.routing = some routing → validateRouting messageType routing = .ok () := by
  rw [validateMessageStructure]
  constructor
  · intro h
    split at h
    · cases h
    · rename_i hRequired
      split at h
      · cases h
      · rename_i hForbidden
        refine ⟨by simpa using hRequired, by simpa using hForbidden, ?_⟩
        intro routing hRouting
        rw [hRouting] at h
        exact h
  · rintro ⟨hRequired, hForbidden, hRouting⟩
    rw [List.find?_eq_none.mpr (by simpa using hRequired), List.find?_eq_none.mpr (by simpa using hForbidden)]
    dsimp only
    split
    · rename_i routing hSome
      exact hRouting routing hSome
    · rfl

end Fleximq.Protocol
