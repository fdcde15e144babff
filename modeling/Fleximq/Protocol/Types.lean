import Mathlib.Data.List.AList
import Mathlib.Data.Vector.Basic
import Fleximq.Foundation.MessagePack

/-! # Protocol types

The data types of the protocol crate on a 64-bit target: `usize` is `UInt64`, a
byte string is a list of `UInt8`. Machine additions wrap, as the release profile
compiles them.
-/
namespace Fleximq.Protocol
open Foundation

abbrev Usize := UInt64
abbrev ClientId := UInt32
abbrev ProtocolVersion := UInt8

/-! ## Constants -/

def protocolVersion : ProtocolVersion := 1
def baseHeaderSize : Nat := 34
def reservedSize : Nat := 16
def clientIdUnassigned : ClientId := 0
def clientIdBroker : ClientId := 1
def clientIdMinDynamic : ClientId := 1000
def clientIdMaxDynamic : ClientId := 0xfffffffe
def defaultMaxMessageSize : Usize := 1024 * 1024 * 1024
def defaultMaxHeaderSize : Usize := 64 * 1024

/-! ## Errors -/

inductive ProtocolError where
  | invalidVersion (expected actual : UInt8)
  | unknownMessageType (value : UInt8)
  | invalidFormat (text : String)
  | messageTooLarge (size max : Nat)
  | headerTooLarge (size max : Nat)
  | invalidClientId (id : ClientId)
  | missingRequiredField (field messageType : String)
  | forbiddenField (field messageType : String)
  | messagePackSerialization (text : String)
  | messagePackDeserialization (text : String)
  | incompleteData (needed available : Nat)
  | parseError (text : String)
  | invalidRouting (text : String)
  | invalidAuth (text : String)
  | bufferOverflow
  | io (text : String)
  deriving DecidableEq, Repr

/-! ## Message types -/

inductive MessageType where
  | join
  | request
  | response
  | notification
  | broadcast
  | publish
  | subscribe
  | unsubscribe
  deriving DecidableEq, Repr

def MessageType.fromU8 (value : UInt8) : Option MessageType :=
  match value with
  | 0 => some .join
  | 1 => some .request
  | 2 => some .response
  | 3 => some .notification
  | 4 => some .broadcast
  | 5 => some .publish
  | 6 => some .subscribe
  | 7 => some .unsubscribe
  | _ => none

def MessageType.toU8 : MessageType → UInt8
  | .join => 0
  | .request => 1
  | .response => 2
  | .notification => 3
  | .broadcast => 4
  | .publish => 5
  | .subscribe => 6
  | .unsubscribe => 7

def MessageType.asStr : MessageType → String
  | .join => "JOIN"
  | .request => "REQ"
  | .response => "REP"
  | .notification => "NOTIF"
  | .broadcast => "BCAST"
  | .publish => "PUB"
  | .subscribe => "SUB"
  | .unsubscribe => "UNSUB"

theorem MessageType.fromU8_eq_some {value : UInt8} {t : MessageType} :
    fromU8 value = some t ↔ value = t.toU8 := by
  constructor
  · intro h
    unfold fromU8 at h
    split at h <;> cases h <;> rfl
  · rintro rfl
    cases t <;> rfl

/-! ## Header fields -/

structure StatusCode where
  code : UInt16
  deriving DecidableEq, Repr

def StatusCode.joinRejected : StatusCode := ⟨605⟩

def StatusCode.isSuccess (s : StatusCode) : Bool := 200 ≤ s.code && s.code < 300

structure Routing where
  clientName : String
  path : String
  clientId : Option ClientId
  deriving DecidableEq, Repr

inductive RequestResponseType where
  | request
  | correlation
  deriving DecidableEq, Repr

structure RequestResponse where
  reqType : RequestResponseType
  id : String
  deriving DecidableEq, Repr

def RequestResponse.req (id : String) : RequestResponse := ⟨.request, id⟩
def RequestResponse.res (id : String) : RequestResponse := ⟨.correlation, id⟩

inductive AuthType where
  | token
  | basic
  | apiKey
  deriving DecidableEq, Repr

inductive AuthCredentials where
  | token (token : String)
  | basic (username password : String)
  | apiKey (apiKey : String)
  deriving DecidableEq, Repr

structure Auth where
  authType : AuthType
  credentials : AuthCredentials
  deriving DecidableEq, Repr

def Auth.token (token : String) : Auth := ⟨.token, .token token⟩
def Auth.basic (username password : String) : Auth := ⟨.basic, .basic username password⟩
def Auth.apiKey (apiKey : String) : Auth := ⟨.apiKey, .apiKey apiKey⟩

/-- `HashMap<String, rmpv::Value>`: one entry for each key, listed in the order in which this
map happens to iterate. -/
abbrev Additional := AList fun _ : String => MessagePack.Value

structure Header where
  routing : Option (List Routing)
  reqrep : Option RequestResponse
  topic : Option String
  status : Option StatusCode
  auth : Option Auth
  clientName : Option String
  additional : Additional

def Header.new : Header := ⟨none, none, none, none, none, none, ∅⟩

def Header.isDefault (h : Header) : Bool :=
  h.routing.isNone && h.reqrep.isNone && h.topic.isNone && h.status.isNone && h.auth.isNone &&
    h.clientName.isNone && h.additional.entries.isEmpty

/-- Equality of headers: maps are equal when they hold the same entries, in whatever order. -/
structure Header.Same (h h' : Header) : Prop where
  routing : h.routing = h'.routing
  reqrep : h.reqrep = h'.reqrep
  topic : h.topic = h'.topic
  status : h.status = h'.status
  auth : h.auth = h'.auth
  clientName : h.clientName = h'.clientName
  additional : h.additional.entries.Perm h'.additional.entries

theorem Header.Same.refl (h : Header) : h.Same h := ⟨rfl, rfl, rfl, rfl, rfl, rfl, .refl _⟩

theorem Header.Same.symm {h h' : Header} (hSame : h.Same h') : h'.Same h :=
  ⟨hSame.routing.symm, hSame.reqrep.symm, hSame.topic.symm, hSame.status.symm, hSame.auth.symm,
    hSame.clientName.symm, hSame.additional.symm⟩

theorem Header.isDefault_iff {h : Header} : h.isDefault = true ↔ h.Same Header.new := by
  obtain ⟨routing, reqrep, topic, status, auth, clientName, additional⟩ := h
  simp only [isDefault, Bool.and_eq_true, Option.isNone_iff_eq_none, List.isEmpty_iff]
  constructor
  · rintro ⟨⟨⟨⟨⟨⟨rfl, rfl⟩, rfl⟩, rfl⟩, rfl⟩, rfl⟩, hEntries⟩
    exact ⟨rfl, rfl, rfl, rfl, rfl, rfl, by rw [hEntries]; exact .refl _⟩
  · rintro ⟨h1, h2, h3, h4, h5, h6, h7⟩
    exact ⟨⟨⟨⟨⟨⟨h1, h2⟩, h3⟩, h4⟩, h5⟩, h6⟩, List.perm_nil.mp h7⟩

inductive HeaderField where
  | routing
  | reqrep
  | topic
  | status
  | auth
  | clientName
  deriving DecidableEq, Repr

def HeaderField.name : HeaderField → String
  | .routing => "routing"
  | .reqrep => "reqrep"
  | .topic => "topic"
  | .status => "status"
  | .auth => "auth"
  | .clientName => "client_name"

def HeaderField.isPresentIn (header : Header) : HeaderField → Bool
  | .routing => header.routing.isSome
  | .reqrep => header.reqrep.isSome
  | .topic => header.topic.isSome
  | .status => header.status.isSome
  | .auth => header.auth.isSome
  | .clientName => header.clientName.isSome

/-! ## The base header -/

structure BaseHeader where
  version : ProtocolVersion
  messageType : MessageType
  clientId : ClientId
  reserved : List.Vector UInt8 reservedSize
  headerLength : UInt32
  payloadLength : UInt64
  deriving DecidableEq

def BaseHeader.new (messageType : MessageType) (clientId : ClientId) (headerLength : UInt32)
    (payloadLength : UInt64) : BaseHeader where
  version := protocolVersion
  messageType := messageType
  clientId := clientId
  reserved := List.Vector.replicate reservedSize 0
  headerLength := headerLength
  payloadLength := payloadLength

/-- The sum wraps modulo `2 ^ 64`. -/
def BaseHeader.totalMessageSize (h : BaseHeader) : UInt64 :=
  UInt64.ofNat baseHeaderSize + h.headerLength.toUInt64 + h.payloadLength

def BaseHeader.isSizeValid (h : BaseHeader) (maxMessageSize maxHeaderSize : Usize) : Bool :=
  h.totalMessageSize ≤ maxMessageSize && h.headerLength ≤ maxHeaderSize.toUInt32

/-- The size that the base header declares, over unbounded integers. -/
def BaseHeader.declaredSize (h : BaseHeader) : Nat :=
  baseHeaderSize + h.headerLength.toNat + h.payloadLength.toNat

theorem BaseHeader.totalMessageSize_toNat (h : BaseHeader) :
    h.totalMessageSize.toNat = h.declaredSize % 2 ^ 64 := by
  simp [totalMessageSize, declaredSize, baseHeaderSize]

theorem BaseHeader.declaredSize_lt (h : BaseHeader) : h.declaredSize < 2 ^ 64 + (2 ^ 32 + 33) := by
  have hHeader := h.headerLength.toNat_lt
  have hPayload := h.payloadLength.toNat_lt
  unfold declaredSize baseHeaderSize
  omega

theorem BaseHeader.declaredSize_cases (h : BaseHeader) :
    h.declaredSize = h.totalMessageSize.toNat ∨
      h.declaredSize = h.totalMessageSize.toNat + 2 ^ 64 := by
  have hBound := h.declaredSize_lt
  rw [h.totalMessageSize_toNat]
  omega

end Fleximq.Protocol
