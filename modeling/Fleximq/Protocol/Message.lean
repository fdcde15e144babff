import Fleximq.Protocol.BaseHeader

/-! # Received messages

`Message::from_bytes` checks the length of the data against the declared total,
a machine sum; the two slices of the body are taken later, from the declared
lengths again. A slice outside the data is a panic and is `none` here.

The accessors here compute what the three `OnceCell`s of the source are filled
with.
-/
namespace Fleximq.Protocol
open Foundation

structure Message where
  baseHeader : BaseHeader
  rawData : List UInt8
  deriving DecidableEq

def Message.fromBytes (data : List UInt8) : Except ProtocolError Message := do
  if data.length < baseHeaderSize then
    .error (.incompleteData baseHeaderSize data.length)
  else
    let baseHeader ← parseBaseHeader data
    let expectedSize := baseHeader.totalMessageSize
    if data.length ≠ expectedSize.toNat then
      .error (.incompleteData expectedSize.toNat data.length)
    else return ⟨baseHeader, data⟩

def Message.messageType (m : Message) : MessageType := m.baseHeader.messageType
def Message.clientId (m : Message) : ClientId := m.baseHeader.clientId
def Message.headerLength (m : Message) : UInt32 := m.baseHeader.headerLength
def Message.payloadLength (m : Message) : UInt64 := m.baseHeader.payloadLength
def Message.totalSize (m : Message) : UInt64 := m.baseHeader.totalMessageSize
def Message.rawBytes (m : Message) : List UInt8 := m.rawData

/-- `Bytes::slice`, which panics unless `start <= end <= len`. -/
def slice (data : List UInt8) (start stop : Usize) : Option (List UInt8) :=
  if start ≤ stop ∧ stop.toNat ≤ data.length then
    some ((data.drop start.toNat).take (stop.toNat - start.toNat))
  else none

def Message.rawHeaderBytes (m : Message) : Option (List UInt8) :=
  if m.headerLength = 0 then some []
  else
    let start := UInt64.ofNat baseHeaderSize
    let stop := start + m.headerLength.toUInt64
    slice m.rawData start stop

def Message.rawPayloadBytes (m : Message) : Option (List UInt8) :=
  if m.payloadLength = 0 then some []
  else
    let start := UInt64.ofNat baseHeaderSize + m.headerLength.toUInt64
    let stop := start + m.payloadLength
    slice m.rawData start stop

theorem Message.fromBytes_eq_ok {data : List UInt8} {m : Message} :
    fromBytes data = .ok m ↔
      parseBaseHeader data = .ok m.baseHeader ∧ m.rawData = data ∧
        data.length = m.baseHeader.totalMessageSize.toNat := by
  unfold fromBytes
  constructor
  · intro h
    split at h
    · cases h
    · obtain ⟨baseHeader, hParse, hCheck⟩ := bind_eq_ok.mp h
      dsimp only at hCheck
      split at hCheck
      · cases hCheck
      · rename_i hLength
        cases hCheck
        exact ⟨hParse, rfl, not_not.mp hLength⟩
  · rintro ⟨hParse, hData, hLength⟩
    subst hData
    rw [if_neg (Nat.not_lt.mpr (parseBaseHeader_length hParse))]
    refine bind_eq_ok.mpr ⟨_, hParse, ?_⟩
    rw [if_neg (not_not.mpr hLength)]
    rfl

end Fleximq.Protocol
