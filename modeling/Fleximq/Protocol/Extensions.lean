import Fleximq.Protocol.HeaderRoundTrip
import Fleximq.Protocol.Validation

/-! # Entries of `additional` with the name of a field

The entries of `additional` are written beside the named fields. An entry whose
key is the name of a field that was left out is read as that field, which the
validation on the sending side has not seen.
-/
namespace Fleximq.Protocol
open Foundation Foundation.Serde
open Foundation.MessagePack (Value)

def HeaderField.SameIn (h h' : Header) : HeaderField → Prop
  | .routing => h.routing = h'.routing
  | .reqrep => h.reqrep = h'.reqrep
  | .topic => h.topic = h'.topic
  | .status => h.status = h'.status
  | .auth => h.auth = h'.auth
  | .clientName => h.clientName = h'.clientName

theorem Header.Same.sameIn {h h' : Header} (hSame : h.Same h') (field : HeaderField) : field.SameIn h h' := by
  cases field with
  | routing => exact hSame.routing
  | reqrep => exact hSame.reqrep
  | topic => exact hSame.topic
  | status => exact hSame.status
  | auth => exact hSame.auth
  | clientName => exact hSame.clientName

/-- Whatever header is read from the message has the named fields of the one that was sent, and is
valid. -/
def RawMessage.SurvivesWire (rmp : Rmp) (r : RawMessage) (m : Message) : Prop :=
  ∀ h, m.header rmp = some (.ok h) →
    (∀ field : HeaderField, field.SameIn h r.header) ∧ validateMessageStructure r.messageType h = .ok ()

def HeaderField.readable (v : Value) : HeaderField → Bool
  | .routing => (option (sequence Routing.deserialize) v).isOk
  | .reqrep => (option RequestResponse.deserialize v).isOk
  | .topic => (option string v).isOk
  | .status => (option StatusCode.deserialize v).isOk
  | .auth => (option Auth.deserialize v).isOk
  | .clientName => (option string v).isOk

/-- The header can be read, and an entry of `additional` with the name of an absent field holds a
value for it. -/
structure Header.Surfaces (rmp : Rmp) (h : Header) : Prop where
  distinct : h.Distinct
  routing : h.routingComplete = true
  within : h.Within rmp
  readable : ∀ field : HeaderField, field.isPresentIn h = false →
    ∀ v, h.additional.lookup field.name = some v → field.readable v = true
  filled : ∃ field : HeaderField, field.isPresentIn h = false ∧
    ∃ v, h.additional.lookup field.name = some v ∧ v ≠ .nil

/-! ## One field -/

section
variable {α : Type} {read : Value → Except Error α} {x y : Option α} {v : Option Value}

theorem exists_received (h : x.isSome = false → ∀ w, v = some w → (option read w).isOk = true) :
    ∃ y, received read x v = .ok y := by
  cases x with
  | some a => exact ⟨some a, rfl⟩
  | none =>
    cases v with
    | none => exact ⟨none, rfl⟩
    | some w =>
      have hOk := h rfl w rfl
      cases hRead : option read w with
      | ok y => exact ⟨y, hRead⟩
      | error e =>
        rw [hRead] at hOk
        cases hOk

theorem isOk_of_received (h : received read x v = .ok y) (hAbsent : x.isSome = false) (w : Value)
    (hEntry : v = some w) : (option read w).isOk = true := by
  cases x with
  | some a => cases hAbsent
  | none =>
    subst hEntry
    rw [show option read w = .ok y from h]
    rfl

theorem received_same_iff (h : received read x v = .ok y) :
    y = x ↔ (x.isSome = false → ∀ w, v = some w → w = .nil) := by
  cases x with
  | some a =>
    cases h
    simp
  | none =>
    cases v with
    | none =>
      cases h
      simp
    | some w =>
      have hRead : option read w = .ok y := h
      constructor
      · rintro rfl _ w' hEntry
        cases hEntry
        exact option_eq_ok_none.mp hRead
      · intro hNil
        rw [option_eq_ok_none.mpr (hNil rfl w rfl)] at hRead
        exact (Except.ok.inj hRead).symm

end

/-! ## All fields -/

def HeaderField.ReceivedIn (h h' : Header) : HeaderField → Prop
  | .routing =>
    received (sequence Routing.deserialize) h.routing (h.additional.lookup "routing") = .ok h'.routing
  | .reqrep => received RequestResponse.deserialize h.reqrep (h.additional.lookup "reqrep") = .ok h'.reqrep
  | .topic => received string h.topic (h.additional.lookup "topic") = .ok h'.topic
  | .status => received StatusCode.deserialize h.status (h.additional.lookup "status") = .ok h'.status
  | .auth => received Auth.deserialize h.auth (h.additional.lookup "auth") = .ok h'.auth
  | .clientName => received string h.clientName (h.additional.lookup "client_name") = .ok h'.clientName

theorem HeaderField.ReceivedIn.readable {h h' : Header} {field : HeaderField}
    (hReceived : field.ReceivedIn h h') (hAbsent : field.isPresentIn h = false) (v : Value)
    (hEntry : h.additional.lookup field.name = some v) : field.readable v = true := by
  cases field <;> exact isOk_of_received hReceived hAbsent v hEntry

theorem HeaderField.ReceivedIn.same_iff {h h' : Header} {field : HeaderField}
    (hReceived : field.ReceivedIn h h') :
    field.SameIn h' h ↔
      (field.isPresentIn h = false → ∀ v, h.additional.lookup field.name = some v → v = .nil) := by
  cases field <;> exact received_same_iff hReceived

theorem Header.exists_receivedIn {h : Header}
    (hReadable : ∀ field : HeaderField, field.isPresentIn h = false →
      ∀ v, h.additional.lookup field.name = some v → field.readable v = true) :
    ∃ h', ∀ field : HeaderField, field.ReceivedIn h h' := by
  obtain ⟨routing, hRouting⟩ := exists_received (hReadable .routing)
  obtain ⟨reqrep, hReqrep⟩ := exists_received (hReadable .reqrep)
  obtain ⟨topic, hTopic⟩ := exists_received (hReadable .topic)
  obtain ⟨status, hStatus⟩ := exists_received (hReadable .status)
  obtain ⟨auth, hAuth⟩ := exists_received (hReadable .auth)
  obtain ⟨clientName, hName⟩ := exists_received (hReadable .clientName)
  refine ⟨⟨routing, reqrep, topic, status, auth, clientName, ∅⟩, ?_⟩
  intro field
  cases field with
  | routing => exact hRouting
  | reqrep => exact hReqrep
  | topic => exact hTopic
  | status => exact hStatus
  | auth => exact hAuth
  | clientName => exact hName

theorem Header.deserialize_serialize_of_receivedIn {h h' : Header} (hDistinct : h.Distinct)
    (hRouting : h.routingComplete = true) (hReceived : ∀ field : HeaderField, field.ReceivedIn h h') :
    ∃ additional, Header.deserialize h.serialize = .ok { h' with additional := additional } := by
  obtain ⟨additional, _, hRead⟩ := deserialize_serialize_eq hDistinct hRouting
  refine ⟨additional, ?_⟩
  rw [hRead]
  refine bind_eq_ok.mpr ⟨_, hReceived .routing, bind_eq_ok.mpr ⟨_, hReceived .reqrep, ?_⟩⟩
  refine bind_eq_ok.mpr ⟨_, hReceived .topic, bind_eq_ok.mpr ⟨_, hReceived .status, ?_⟩⟩
  exact bind_eq_ok.mpr ⟨_, hReceived .auth, bind_eq_ok.mpr ⟨_, hReceived .clientName, rfl⟩⟩

theorem Header.receivedIn_of_deserialize {h h' : Header} (hRead : Header.deserialize h.serialize = .ok h') :
    h.Distinct ∧ h.routingComplete = true ∧ ∀ field : HeaderField, field.ReceivedIn h h' := by
  have hDistinct := distinct_of_deserialize hRead
  have hRouting : h.routingComplete = true := by
    by_contra hIncomplete
    exact deserialize_serialize_error (Bool.not_eq_true _ ▸ hIncomplete) h' hRead
  refine ⟨hDistinct, hRouting, ?_⟩
  obtain ⟨additional, _, hEq⟩ := deserialize_serialize_eq hDistinct hRouting
  obtain ⟨routing, hRoutingRead, hRead⟩ := bind_eq_ok.mp (hEq ▸ hRead)
  obtain ⟨reqrep, hReqrep, hRead⟩ := bind_eq_ok.mp hRead
  obtain ⟨topic, hTopic, hRead⟩ := bind_eq_ok.mp hRead
  obtain ⟨status, hStatus, hRead⟩ := bind_eq_ok.mp hRead
  obtain ⟨auth, hAuth, hRead⟩ := bind_eq_ok.mp hRead
  obtain ⟨clientName, hName, hRead⟩ := bind_eq_ok.mp hRead
  obtain rfl := Except.ok.inj hRead
  intro field
  cases field with
  | routing => exact hRoutingRead
  | reqrep => exact hReqrep
  | topic => exact hTopic
  | status => exact hStatus
  | auth => exact hAuth
  | clientName => exact hName

theorem validateMessageStructure_of_same {messageType : MessageType} {h h' : Header}
    (hSame : ∀ field : HeaderField, field.SameIn h' h) (hValid : validateMessageStructure messageType h = .ok ()) :
    validateMessageStructure messageType h' = .ok () := by
  obtain ⟨hRequired, hForbidden, hRouting⟩ := validateMessageStructure_eq_ok.mp hValid
  have hPresent (field : HeaderField) : field.isPresentIn h' = field.isPresentIn h := by
    have hField := hSame field
    cases field <;> exact congrArg Option.isSome hField
  refine validateMessageStructure_eq_ok.mpr ⟨?_, ?_, ?_⟩
  · intro field hMem
    rw [hPresent, hRequired field hMem]
  · intro field hMem
    rw [hPresent, hForbidden field hMem]
  · intro routing hSome
    exact hRouting routing ((hSame .routing).symm.trans hSome)

theorem Header.Surfaces.not_default {rmp : Rmp} {h : Header} (hSurfaces : h.Surfaces rmp) : ¬ h.isDefault = true := by
  intro hDefault
  obtain ⟨field, _, v, hEntry, _⟩ := hSurfaces.filled
  rw [additional_of_isDefault hDefault] at hEntry
  cases hEntry

/-- Where no entry surfaces, the named fields of the header that is read are those that were sent. -/
theorem RawMessage.sameIn_of_header {rmp : Rmp} (hRmp : rmp.Lawful) {r : RawMessage} {headerBytes : Bytes}
    (hLimit : headerBytes.length < 2 ^ 32) (hHeader : r.header.toVec rmp = .ok headerBytes)
    (hHidden : ¬ r.header.Surfaces rmp) {h : Header}
    (hRead : (r.frame headerBytes hLimit).message.header rmp = some (.ok h)) (field : HeaderField) :
    field.SameIn h r.header := by
  have hWithin := within_of_header hRmp hLimit hHeader hRead
  rw [header_message hRmp hLimit hHeader hWithin] at hRead
  by_cases hDefault : r.header.isDefault = true
  · rw [if_pos hDefault] at hRead
    cases hRead
    exact (Header.isDefault_iff.mp hDefault).symm.sameIn field
  · rw [if_neg hDefault] at hRead
    obtain ⟨hDistinct, hRouting, hReceived⟩ :=
      Header.receivedIn_of_deserialize (mapError_eq_ok.mp (Option.some.inj hRead))
    apply (hReceived field).same_iff.mpr
    intro hAbsent v hEntry
    by_contra hNil
    exact hHidden ⟨hDistinct, hRouting, hWithin, fun field => (hReceived field).readable,
      field, hAbsent, v, hEntry, hNil⟩

/-- A valid header survives the wire exactly when no entry of `additional` surfaces as a field. -/
theorem survivesWire_iff {rmp : Rmp} (hRmp : rmp.Lawful) {r : RawMessage} {b : List UInt8} {m : Message}
    (hValid : validateMessageStructure r.messageType r.header = .ok ()) (hBytes : r.toBytes rmp = .ok b)
    (hAccept : Message.fromBytes b = .ok m) : r.SurvivesWire rmp m ↔ ¬ r.header.Surfaces rmp := by
  obtain ⟨headerBytes, hHeader, _⟩ := bind_eq_ok.mp hBytes
  obtain ⟨hLimit, rfl⟩ := RawMessage.accepted_message hHeader hBytes hAccept
  constructor
  · intro hSurvives hSurfaces
    obtain ⟨h', hReceived⟩ := Header.exists_receivedIn hSurfaces.readable
    obtain ⟨additional, hRead⟩ :=
      Header.deserialize_serialize_of_receivedIn hSurfaces.distinct hSurfaces.routing hReceived
    have hOk : (r.frame headerBytes hLimit).message.header rmp =
        some (.ok { h' with additional := additional }) := by
      rw [RawMessage.header_message hRmp hLimit hHeader hSurfaces.within, if_neg hSurfaces.not_default, hRead]
      rfl
    obtain ⟨field, hAbsent, v, hEntry, hNil⟩ := hSurfaces.filled
    have hSame : field.SameIn h' r.header := by
      have hField := (hSurvives _ hOk).1 field
      cases field <;> exact hField
    exact hNil ((hReceived field).same_iff.mp hSame hAbsent v hEntry)
  · intro hHidden h hRead
    have hSame : ∀ field : HeaderField, field.SameIn h r.header :=
      RawMessage.sameIn_of_header hRmp hLimit hHeader hHidden hRead
    exact ⟨hSame, validateMessageStructure_of_same hSame hValid⟩

def noteMessage (key : String) : RawMessage where
  messageType := .broadcast
  clientId := clientIdMinDynamic
  header := { Header.new with additional := AList.insert key (.string "x") ∅ }
  payloadData := nilPayload

def noteHeader : Bytes := ⟨[129, 164, 110, 111, 116, 101, 161, 120], by decide⟩

def topicHeader : Bytes := ⟨[129, 165, 116, 111, 112, 105, 99, 161, 120], by decide⟩

def noteFrame : Frame := (noteMessage "note").frame noteHeader (by decide)

def topicFrame : Frame := (noteMessage "topic").frame topicHeader (by decide)

theorem noteFrame_survives : (noteMessage "note").SurvivesWire Rmp.messagePack noteFrame.message :=
  (@survivesWire_iff Rmp.messagePack Rmp.messagePack_lawful (noteMessage "note") noteFrame.bytes _
    (by decide +kernel) (by decide +kernel) (Frame.fromBytes_bytes (by decide))).mpr (by
      rintro ⟨_, _, _, _, field, _, v, hEntry, _⟩
      cases field <;> cases hEntry)

/-- A broadcast with an entry `topic` arrives with a topic, which broadcasts must not have. -/
theorem topicFrame_surfaces :
    validateMessageStructure .broadcast (noteMessage "topic").header = .ok () ∧
      (noteMessage "topic").toBytes Rmp.messagePack = .ok topicFrame.bytes ∧
      Message.fromBytes topicFrame.bytes = .ok topicFrame.message ∧
      topicFrame.message.header Rmp.messagePack = some (.ok { Header.new with topic := some "x" }) ∧
      validateMessageStructure .broadcast { Header.new with topic := some "x" } =
        .error (.forbiddenField "topic" "BCAST") ∧
      ¬ (noteMessage "topic").SurvivesWire Rmp.messagePack topicFrame.message := by
  have hRead : topicFrame.message.header Rmp.messagePack =
      some (.ok { Header.new with topic := some "x" }) := by
    have hVec : (noteMessage "topic").header.toVec Rmp.messagePack = .ok topicHeader := by
      decide +kernel
    have hWithin : (noteMessage "topic").header.Within Rmp.messagePack :=
      (Header.within_serialize_iff Rmp.messagePack_lawful).mp
        (Rmp.messagePack_lawful.within_of_le_three (by decide))
    exact RawMessage.header_message Rmp.messagePack_lawful _ hVec hWithin
  refine ⟨rfl, by decide +kernel, Frame.fromBytes_bytes (by decide), hRead, rfl, ?_⟩
  intro hSurvives
  cases (hSurvives _ hRead).1 .topic

end Fleximq.Protocol
