import Mathlib.Data.List.Induction
import Fleximq.Protocol.Builder
import Fleximq.Protocol.HeaderRoundTrip

/-! # Runs of the builder

A message is built by any calls of the setters, in any order. The last call for a
field decides its value, and the calls alone decide whether `build` accepts the
header and what the receiver reads.
-/
namespace Fleximq.Protocol
open Foundation
open Foundation.MessagePack (Value)

/-- A call of a setter. -/
inductive Setter where
  | setRouting (routing : List Routing)
  | setRoutingTarget (clientName path : String) (clientId : Option ClientId)
  | routeWithId (clientName path : String) (clientId : ClientId)
  | routeTo (clientName path : String) (clientId : Option ClientId)
  | routeToMany (targets : List (String × String × Option ClientId))
  | reqrep (reqrep : RequestResponse)
  | asRequest (requestId : String)
  | asResponse (requestId : String)
  | withTopic (topic : String)
  | status (status : StatusCode)
  | withStatus (status : StatusCode)
  | auth (auth : Auth)
  | authToken (token : String)
  | authTokenLegacy (token : String)
  | authBasic (username password : String)
  | authApiKey (apiKey : String)
  | withClientName (clientName : String)

namespace Setter

def apply (b : MessageBuilder) : Setter → MessageBuilder
  | setRouting routing => b.setRouting routing
  | setRoutingTarget clientName path clientId => b.setRoutingTarget clientName path clientId
  | routeWithId clientName path clientId => b.routeWithId clientName path clientId
  | routeTo clientName path clientId => b.routeTo clientName path clientId
  | routeToMany targets => b.routeToMany targets
  | reqrep correlation => b.reqrep correlation
  | asRequest requestId => b.asRequest requestId
  | asResponse requestId => b.asResponse requestId
  | withTopic topic => b.withTopic topic
  | status code => b.status code
  | withStatus code => b.withStatus code
  | auth credentials => b.auth credentials
  | authToken token => b.authToken token
  | authTokenLegacy token => b.authTokenLegacy token
  | authBasic username password => b.authBasic username password
  | authApiKey apiKey => b.authApiKey apiKey
  | withClientName clientName => b.withClientName clientName

def build (messageType : MessageType) (clientId : ClientId) (calls : List Setter) : MessageBuilder :=
  calls.foldl apply (.new messageType clientId)

/-! ## What a call is for -/

def field : Setter → HeaderField
  | setRouting .. | setRoutingTarget .. | routeWithId .. | routeTo .. | routeToMany .. => .routing
  | reqrep .. | asRequest .. | asResponse .. => .reqrep
  | withTopic .. => .topic
  | status .. | withStatus .. => .status
  | auth .. | authToken .. | authTokenLegacy .. | authBasic .. | authApiKey .. => .auth
  | withClientName .. => .clientName

def routes : Setter → Option (List Routing)
  | setRouting routing => some routing
  | setRoutingTarget clientName path clientId => some [⟨clientName, path, clientId⟩]
  | routeWithId clientName path clientId => some [⟨clientName, path, some clientId⟩]
  | routeTo clientName path clientId => some [⟨clientName, path, clientId⟩]
  | routeToMany targets => some (targets.map fun (clientName, path, clientId) => ⟨clientName, path, clientId⟩)
  | _ => none

def correlates : Setter → Option RequestResponse
  | reqrep correlation => some correlation
  | asRequest requestId => some (.req requestId)
  | asResponse requestId => some (.res requestId)
  | _ => none

def names : Setter → Option String
  | withTopic topic => some topic
  | _ => none

def reports : Setter → Option StatusCode
  | status code => some code
  | withStatus code => some code
  | _ => none

def authenticates : Setter → Option Auth
  | auth credentials => some credentials
  | authToken token => some (.token token)
  | authTokenLegacy token => some (.token token)
  | authBasic username password => some (.basic username password)
  | authApiKey apiKey => some (.apiKey apiKey)
  | _ => none

def introduces : Setter → Option String
  | withClientName clientName => some clientName
  | _ => none

/-- The argument of the last call that has one. -/
def last {α : Type} (argument : Setter → Option α) (calls : List Setter) : Option α :=
  (calls.filterMap argument).getLast?

/-- The header that the calls ask for. -/
def arguments (calls : List Setter) : Header where
  routing := last routes calls
  reqrep := last correlates calls
  topic := last names calls
  status := last reports calls
  auth := last authenticates calls
  clientName := last introduces calls
  additional := ∅

/-! ## The last call decides -/

theorem last_concat {α : Type} (argument : Setter → Option α) (calls : List Setter) (call : Setter) :
    last argument (calls ++ [call]) = (argument call).or (last argument calls) := by
  rw [last, List.filterMap_append]
  cases hCall : argument call with
  | none => simp [hCall, last]
  | some a => simp [hCall]

theorem apply_eq (b : MessageBuilder) (call : Setter) :
    call.apply b = { b with header := { b.header with
      routing := call.routes.or b.header.routing
      reqrep := call.correlates.or b.header.reqrep
      topic := call.names.or b.header.topic
      status := call.reports.or b.header.status
      auth := call.authenticates.or b.header.auth
      clientName := call.introduces.or b.header.clientName } } := by
  cases call <;> rfl

theorem build_eq (messageType : MessageType) (clientId : ClientId) (calls : List Setter) :
    build messageType clientId calls = ⟨messageType, clientId, arguments calls⟩ := by
  induction calls using List.reverseRecOn with
  | nil => rfl
  | append_singleton calls call ih =>
    rw [build, List.foldl_concat]
    change call.apply (build messageType clientId calls) = _
    rw [ih, apply_eq]
    simp only [arguments, last_concat]

/-- A field is present when a call was for it. -/
theorem isPresentIn_arguments (calls : List Setter) (field : HeaderField) :
    field.isPresentIn (arguments calls) = true ↔ ∃ call ∈ calls, call.field = field := by
  induction calls using List.reverseRecOn with
  | nil => cases field <;> simp [HeaderField.isPresentIn, arguments, last]
  | append_singleton calls call ih =>
    have hConcat : field.isPresentIn (arguments (calls ++ [call])) = true ↔
        call.field = field ∨ field.isPresentIn (arguments calls) = true := by
      simp only [arguments, last_concat]
      cases field <;> cases call <;>
        simp [HeaderField.isPresentIn, Setter.field, routes, correlates, names, reports, authenticates, introduces]
    rw [hConcat, ih]
    simp only [List.mem_append, List.mem_singleton]
    constructor
    · rintro (hCall | ⟨other, hMem, hField⟩)
      · exact ⟨call, .inr rfl, hCall⟩
      · exact ⟨other, .inl hMem, hField⟩
    · rintro ⟨other, hMem | rfl, hField⟩
      · exact .inr ⟨other, hMem, hField⟩
      · exact .inl hField

/-! ## The order of the calls -/

/-- Both lists have the same calls for each field, in the same order. -/
def SameForEach (calls calls' : List Setter) : Prop :=
  ∀ own : HeaderField, calls'.filter (·.field = own) = calls.filter (·.field = own)

theorem routes_eq_none (call : Setter) (h : call.field ≠ .routing) : call.routes = none := by
  cases call <;> first | rfl | exact absurd rfl h

theorem correlates_eq_none (call : Setter) (h : call.field ≠ .reqrep) : call.correlates = none := by
  cases call <;> first | rfl | exact absurd rfl h

theorem names_eq_none (call : Setter) (h : call.field ≠ .topic) : call.names = none := by
  cases call <;> first | rfl | exact absurd rfl h

theorem reports_eq_none (call : Setter) (h : call.field ≠ .status) : call.reports = none := by
  cases call <;> first | rfl | exact absurd rfl h

theorem authenticates_eq_none (call : Setter) (h : call.field ≠ .auth) : call.authenticates = none := by
  cases call <;> first | rfl | exact absurd rfl h

theorem introduces_eq_none (call : Setter) (h : call.field ≠ .clientName) : call.introduces = none := by
  cases call <;> first | rfl | exact absurd rfl h

/-- Calls for other fields do not change the last argument for one. -/
theorem last_filter {α : Type} {argument : Setter → Option α} {own : HeaderField}
    (hOwn : ∀ call, call.field ≠ own → argument call = none) (calls : List Setter) :
    last argument (calls.filter (·.field = own)) = last argument calls := by
  rw [last, last, List.filterMap_filter]
  congr 2
  funext call
  by_cases hField : call.field = own
  · rw [if_pos (decide_eq_true hField)]
  · rw [if_neg (mt of_decide_eq_true hField), hOwn call hField]

theorem SameForEach.last_eq {α : Type} {argument : Setter → Option α} {own : HeaderField}
    (hOwn : ∀ call, call.field ≠ own → argument call = none) {calls calls' : List Setter}
    (h : SameForEach calls calls') : last argument calls' = last argument calls := by
  rw [← last_filter hOwn calls', h own, last_filter hOwn]

theorem SameForEach.build_eq {calls calls' : List Setter} (h : SameForEach calls calls')
    (messageType : MessageType) (clientId : ClientId) :
    build messageType clientId calls' = build messageType clientId calls := by
  rw [Setter.build_eq, Setter.build_eq, arguments, arguments, h.last_eq routes_eq_none,
    h.last_eq correlates_eq_none, h.last_eq names_eq_none, h.last_eq reports_eq_none,
    h.last_eq authenticates_eq_none, h.last_eq introduces_eq_none]

/-! ## What is accepted and what arrives -/

/-- The calls cover the required fields, none is for a forbidden one, and the last routing list fits
the type. -/
structure Suits (messageType : MessageType) (calls : List Setter) : Prop where
  required : ∀ field ∈ requiredFields messageType, ∃ call ∈ calls, call.field = field
  permitted : ∀ call ∈ calls, call.field ∉ forbiddenFields messageType
  routed : ∀ routing, last routes calls = some routing → validateRouting messageType routing = .ok ()

theorem suits_iff {messageType : MessageType} {calls : List Setter} :
    validateMessageStructure messageType (arguments calls) = .ok () ↔ Suits messageType calls := by
  rw [validateMessageStructure_eq_ok]
  constructor
  · rintro ⟨hRequired, hForbidden, hRouting⟩
    refine ⟨fun field hMem => (isPresentIn_arguments calls field).mp (hRequired field hMem), ?_, hRouting⟩
    intro call hMem hField
    cases (hForbidden _ hField).symm.trans ((isPresentIn_arguments calls call.field).mpr ⟨call, hMem, rfl⟩)
  · intro h
    refine ⟨fun field hMem => (isPresentIn_arguments calls field).mpr (h.required field hMem), ?_, h.routed⟩
    intro field hMem
    apply Bool.eq_false_of_not_eq_true
    intro hPresent
    obtain ⟨call, hCall, rfl⟩ := (isPresentIn_arguments calls field).mp hPresent
    exact h.permitted call hCall hMem

section
variable {rmp : Rmp} {messageType : MessageType} {clientId : ClientId} {calls : List Setter} {payload : Value}

theorem build_eq_ok {r : RawMessage} :
    (build messageType clientId calls).buildWithPayload rmp payload = .ok r ↔
      Suits messageType calls ∧ rmp.toVec payload = .ok r.payloadData ∧ r.messageType = messageType ∧
        r.clientId = clientId ∧ r.header = arguments calls := by
  rw [build_eq, MessageBuilder.buildWithPayload_eq, MessageBuilder.buildWithPayloadOf_eq_ok, suits_iff,
    RawMessage.newOf_eq_ok]

theorem routingComplete_arguments :
    (arguments calls).routingComplete = true ↔
      ∀ routing, last routes calls = some routing → ∀ entry ∈ routing, entry.clientId.isSome = true := by
  rw [Header.routingComplete, arguments]
  cases last routes calls with
  | none => simp
  | some routing => simp

/-- A message is built exactly when the calls suit its type and the payload can be written, whatever
the order among calls for different fields. Once it is received its header cannot be read exactly when
a routing entry lacks its client id, and is otherwise what the last calls set. -/
theorem built_arrives (hRmp : rmp.Lawful) :
    ((∃ r, (build messageType clientId calls).buildWithPayload rmp payload = .ok r) ↔
      Suits messageType calls ∧ ∃ payloadData, rmp.toVec payload = .ok payloadData) ∧
    (∀ calls', SameForEach calls calls' →
      (build messageType clientId calls').buildWithPayload rmp payload =
        (build messageType clientId calls).buildWithPayload rmp payload) ∧
    ∀ r m, (build messageType clientId calls).buildWithPayload rmp payload = .ok r →
      r.intoMessage rmp = .ok m → m.messageType = messageType ∧ m.clientId = clientId ∧
        ((∃ h, m.header rmp = some (.ok h)) ↔
          ∀ routing, last routes calls = some routing → ∀ entry ∈ routing, entry.clientId.isSome = true) ∧
        ∀ h, m.header rmp = some (.ok h) → h.Same (arguments calls) := by
  refine ⟨⟨?_, ?_⟩, ?_, ?_⟩
  · rintro ⟨r, hBuilt⟩
    obtain ⟨hSuits, hWrite, _⟩ := build_eq_ok.mp hBuilt
    exact ⟨hSuits, r.payloadData, hWrite⟩
  · rintro ⟨hSuits, payloadData, hWrite⟩
    exact ⟨⟨messageType, clientId, arguments calls, payloadData⟩, build_eq_ok.mpr ⟨hSuits, hWrite, rfl, rfl, rfl⟩⟩
  · intro calls' hSame
    rw [hSame.build_eq]
  · intro r m hBuilt hMessage
    obtain ⟨_, _, hType, hClient, hHeader⟩ := build_eq_ok.mp hBuilt
    obtain ⟨b, hBytes, _⟩ := bind_eq_ok.mp hMessage
    obtain ⟨headerBytes, hVec, _⟩ := bind_eq_ok.mp hBytes
    obtain ⟨_, _, hLimit, rfl⟩ := (RawMessage.intoMessage_eq_ok hVec).mp hMessage
    have hNamed : r.header.additional = ∅ := by rw [hHeader]; rfl
    refine ⟨hType, hClient, ?_, ?_⟩
    · rw [← routingComplete_arguments, ← hHeader]
      constructor
      · rintro ⟨h, hRead⟩
        exact RawMessage.routingComplete_of_header hRmp hLimit hVec hRead
      · intro hComplete
        obtain ⟨h, hRead, _⟩ := RawMessage.header_message_named hRmp hLimit hVec hNamed hComplete
        exact ⟨h, hRead⟩
    · intro h hRead
      have hComplete := RawMessage.routingComplete_of_header hRmp hLimit hVec hRead
      obtain ⟨h', hRead', hSame⟩ := RawMessage.header_message_named hRmp hLimit hVec hNamed hComplete
      rw [hRead] at hRead'
      cases hRead'
      rw [← hHeader]
      exact hSame

end

/-- A request whose target and id are set twice. -/
def sumCalls : List Setter :=
  [.asRequest "6", .routeTo "worker" "/sum" none, .withStatus ⟨200⟩, .routeWithId "worker" "/sum" 1001,
    .asRequest "7"]

/-- The same calls, field by field. -/
def sumCallsGrouped : List Setter :=
  [.withStatus ⟨200⟩, .routeTo "worker" "/sum" none, .routeWithId "worker" "/sum" 1001, .asRequest "6",
    .asRequest "7"]

theorem sumCalls_sameForEach : SameForEach sumCalls sumCallsGrouped := fun own => by cases own <;> rfl

def sumCallsHeader : Bytes where
  toList := [131, 167, 114, 111, 117, 116, 105, 110, 103, 145, 147, 166, 119, 111, 114, 107, 101, 114,
    164, 47, 115, 117, 109, 205, 3, 233, 166, 114, 101, 113, 114, 101, 112, 146, 167, 114, 101, 113,
    117, 101, 115, 116, 161, 55, 166, 115, 116, 97, 116, 117, 115, 204, 200]
  length_lt := by decide

theorem sumCalls_built :
    ∃ r m h, (build .request clientIdMinDynamic sumCallsGrouped).buildWithPayload Rmp.messagePack .nil = .ok r ∧
      r.intoMessage Rmp.messagePack = .ok m ∧ m.header Rmp.messagePack = some (.ok h) ∧
      h.Same (arguments sumCalls) := by
  obtain ⟨hAccepted, hOrder, hArrives⟩ :=
    @built_arrives Rmp.messagePack .request clientIdMinDynamic sumCalls .nil Rmp.messagePack_lawful
  have hWrite : Rmp.messagePack.toVec .nil = .ok nilPayload := by decide +kernel
  obtain ⟨r, hBuilt⟩ := hAccepted.mpr ⟨suits_iff.mp rfl, nilPayload, hWrite⟩
  obtain ⟨_, hPayload, _, _, hHeader⟩ := build_eq_ok.mp hBuilt
  have hVec : r.header.toVec Rmp.messagePack = .ok sumCallsHeader := by
    rw [hHeader]
    decide +kernel
  have hNil : r.payloadData = nilPayload := Except.ok.inj (hPayload.symm.trans hWrite)
  have hMessage := (RawMessage.intoMessage_eq_ok hVec).mpr
    ⟨by decide, by rw [hNil]; decide, by decide, rfl⟩
  obtain ⟨_, _, hReadable, hSame⟩ := hArrives r _ hBuilt hMessage
  obtain ⟨h, hRead⟩ := hReadable.mpr (routingComplete_arguments.mp rfl)
  exact ⟨r, _, h, (hOrder _ sumCalls_sameForEach).trans hBuilt, hMessage, hRead, hSame h hRead⟩

end Setter

end Fleximq.Protocol
