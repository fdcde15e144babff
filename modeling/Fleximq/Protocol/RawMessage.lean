import Fleximq.Foundation.Rmp
import Fleximq.Protocol.HeaderSerde
import Fleximq.Protocol.Message

/-! # Messages to be sent

`RawMessage::to_bytes` lays a frame out by hand; `parse_message_bytes` is the
reader that cuts it up with bounds-checked takes.
-/
namespace Fleximq.Protocol
open Foundation
open Foundation.MessagePack (Value)

/-! ## Writing -/

structure RawMessage where
  messageType : MessageType
  clientId : ClientId
  header : Header
  payloadData : Bytes

def Header.toVec (rmp : Rmp) (h : Header) : Except ProtocolError Bytes :=
  if h.isDefault then .ok Bytes.empty
  else (rmp.toVec h.serialize).mapError .messagePackSerialization

def RawMessage.new (rmp : Rmp) (messageType : MessageType) (clientId : ClientId) (header : Header)
    (payload : Value) : Except ProtocolError RawMessage := do
  let payloadData ← (rmp.toVec payload).mapError .messagePackSerialization
  return ⟨messageType, clientId, header, payloadData⟩

/-- `new` at any type of payloads, which `write` serializes. -/
def RawMessage.newOf {T : Type} (write : T → Except String Bytes) (messageType : MessageType)
    (clientId : ClientId) (header : Header) (payload : T) : Except ProtocolError RawMessage := do
  let payloadData ← (write payload).mapError .messagePackSerialization
  return ⟨messageType, clientId, header, payloadData⟩

/-- The part of `to_bytes` after the header section `headerBytes` is made. -/
def RawMessage.layOut (r : RawMessage) (headerBytes : Bytes) : Except ProtocolError (List UInt8) :=
  -- `as u32` keeps the low 32 bits
  let headerLength := UInt32.ofNat headerBytes.length
  let payloadLength := UInt64.ofNat r.payloadData.length
  if headerLength > defaultMaxHeaderSize.toUInt32 then
    .error (.headerTooLarge headerLength.toNat defaultMaxHeaderSize.toNat)
  else
    let totalSize := UInt64.ofNat baseHeaderSize + headerLength.toUInt64 + payloadLength
    if totalSize > defaultMaxMessageSize then
      .error (.messageTooLarge totalSize.toNat defaultMaxMessageSize.toNat)
    else
      let baseHeader := BaseHeader.new r.messageType r.clientId headerLength payloadLength
      .ok (baseHeader.encode ++ headerBytes.toList ++ r.payloadData.toList)

def RawMessage.toBytes (rmp : Rmp) (r : RawMessage) : Except ProtocolError (List UInt8) := do
  let headerBytes ← r.header.toVec rmp
  r.layOut headerBytes

def RawMessage.intoMessage (rmp : Rmp) (r : RawMessage) : Except ProtocolError Message := do
  let bytes ← r.toBytes rmp
  Message.fromBytes bytes

/-! ## Reading -/

structure MessageFrame where
  baseHeader : BaseHeader
  headerBytes : List UInt8
  payloadBytes : List UInt8
  deriving DecidableEq

def parseMessageFrameNom (input : List UInt8) : Except Nom.Error (List UInt8 × MessageFrame) := do
  let (input, baseHeader) ← parseBaseHeaderNom input
  let totalSize := baseHeader.totalMessageSize
  if input.length + baseHeaderSize ≠ totalSize.toNat then
    .error ⟨input, .lengthValue⟩
  else
    let (input, headerBytes) ← Nom.take baseHeader.headerLength.toNat input
    let (input, payloadBytes) ← Nom.take baseHeader.payloadLength.toNat input
    return (input, ⟨baseHeader, headerBytes, payloadBytes⟩)

def parseMessageBytes (input : List UInt8) : Except ProtocolError MessageFrame :=
  match parseMessageFrameNom input with
  | .ok (remaining, frame) =>
    if !remaining.isEmpty then .error (.parseError "Unexpected data after message")
    else .ok frame
  | .error e => .error (.parseError ("Failed to parse message: " ++ e.display))

/-- `Message::header`, as `init` computes it; `none` where `raw_header_bytes` panics. -/
def Message.header (rmp : Rmp) (m : Message) : Option (Except ProtocolError Header) :=
  if m.headerLength > 0 then
    m.rawHeaderBytes.map fun bytes => do
      let v ← (rmp.fromSlice bytes).mapError .messagePackDeserialization
      (Header.deserialize v).mapError fun e => .messagePackDeserialization (rmp.errorText e)
  else some (.ok Header.new)

def Message.payload (rmp : Rmp) (m : Message) : Option (Except ProtocolError Value) :=
  if m.payloadLength > 0 then
    m.rawPayloadBytes.map fun bytes => (rmp.fromSlice bytes).mapError .messagePackDeserialization
  else some (.ok .nil)

end Fleximq.Protocol
