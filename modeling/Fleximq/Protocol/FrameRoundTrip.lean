import Fleximq.Protocol.Frame

/-! # What the writer writes

`to_bytes` checks the truncated header length. Below `2 ^ 32` the truncation does
nothing and the result is the frame of the message, within the default limits.
-/
namespace Fleximq.Protocol
open Foundation

def RawMessage.baseHeader (r : RawMessage) (headerBytes : Bytes) : BaseHeader :=
  .new r.messageType r.clientId (UInt32.ofNat headerBytes.length) (UInt64.ofNat r.payloadData.length)

def RawMessage.frame (r : RawMessage) (headerBytes : Bytes) (h : headerBytes.length < 2 ^ 32) :
    Frame where
  baseHeader := r.baseHeader headerBytes
  header := headerBytes.toList
  payload := r.payloadData.toList
  version_eq := rfl
  header_length := (UInt32.toNat_ofNat_of_lt' h).symm
  payload_length := r.payloadData.ofNat_length_toNat.symm

theorem RawMessage.baseHeader_headerLength (r : RawMessage) (headerBytes : Bytes) :
    (r.baseHeader headerBytes).headerLength.toNat = headerBytes.length % 2 ^ 32 :=
  UInt32.toNat_ofNat'

theorem RawMessage.baseHeader_declaredSize (r : RawMessage) (headerBytes : Bytes) :
    (r.baseHeader headerBytes).declaredSize =
      baseHeaderSize + headerBytes.length % 2 ^ 32 + r.payloadData.length := by
  rw [BaseHeader.declaredSize, baseHeader_headerLength]
  exact congrArg _ r.payloadData.ofNat_length_toNat

theorem RawMessage.frame_size (r : RawMessage) {headerBytes : Bytes} (h : headerBytes.length < 2 ^ 32) :
    (r.frame headerBytes h).size = baseHeaderSize + headerBytes.length + r.payloadData.length := by
  rw [← Nat.mod_eq_of_lt h]
  exact r.baseHeader_declaredSize headerBytes

def RawMessage.laidOut (r : RawMessage) (headerBytes : Bytes) : List UInt8 :=
  (r.baseHeader headerBytes).encode ++ headerBytes.toList ++ r.payloadData.toList

theorem RawMessage.laidOut_length (r : RawMessage) (headerBytes : Bytes) :
    (r.laidOut headerBytes).length = baseHeaderSize + headerBytes.length + r.payloadData.length := by
  rw [laidOut, List.length_append, List.length_append, BaseHeader.encode_length]
  rfl

/-- The checks of the writer, over natural numbers. -/
theorem RawMessage.layOut_eq (r : RawMessage) (headerBytes : Bytes) :
    r.layOut headerBytes =
      if defaultMaxHeaderSize.toNat < (r.baseHeader headerBytes).headerLength.toNat then
        .error (.headerTooLarge (r.baseHeader headerBytes).headerLength.toNat defaultMaxHeaderSize.toNat)
      else if defaultMaxMessageSize.toNat < (r.baseHeader headerBytes).declaredSize then
        .error (.messageTooLarge (r.baseHeader headerBytes).declaredSize defaultMaxMessageSize.toNat)
      else .ok (r.laidOut headerBytes) := by
  have hPayload : r.payloadData.length < 2 ^ 63 := r.payloadData.length_lt
  have hHeaderLength := (UInt32.ofNat headerBytes.length).toNat_lt
  have hSize : (r.baseHeader headerBytes).totalMessageSize.toNat =
      (r.baseHeader headerBytes).declaredSize := by
    rw [BaseHeader.totalMessageSize_toNat]
    apply Nat.mod_eq_of_lt
    change 34 + (UInt32.ofNat headerBytes.length).toNat + (UInt64.ofNat r.payloadData.length).toNat < _
    rw [r.payloadData.ofNat_length_toNat]
    omega
  have hHeader : defaultMaxHeaderSize.toUInt32 < (r.baseHeader headerBytes).headerLength ↔
      defaultMaxHeaderSize.toNat < (r.baseHeader headerBytes).headerLength.toNat := UInt32.lt_iff_toNat_lt
  have hTotal : defaultMaxMessageSize < (r.baseHeader headerBytes).totalMessageSize ↔
      defaultMaxMessageSize.toNat < (r.baseHeader headerBytes).totalMessageSize.toNat :=
    UInt64.lt_iff_toNat_lt
  calc
    r.layOut headerBytes =
        if defaultMaxHeaderSize.toUInt32 < (r.baseHeader headerBytes).headerLength then
          .error (.headerTooLarge (r.baseHeader headerBytes).headerLength.toNat defaultMaxHeaderSize.toNat)
        else if defaultMaxMessageSize < (r.baseHeader headerBytes).totalMessageSize then
          .error (.messageTooLarge (r.baseHeader headerBytes).totalMessageSize.toNat
            defaultMaxMessageSize.toNat)
        else .ok (r.laidOut headerBytes) := rfl
    _ = _ := by simp only [hHeader, hTotal, hSize]

theorem RawMessage.layOut_eq_ok {r : RawMessage} {headerBytes : Bytes} {b : List UInt8} :
    r.layOut headerBytes = .ok b ↔
      (r.baseHeader headerBytes).headerLength.toNat ≤ defaultMaxHeaderSize.toNat ∧
        (r.baseHeader headerBytes).declaredSize ≤ defaultMaxMessageSize.toNat ∧
          b = (r.baseHeader headerBytes).encode ++ headerBytes.toList ++ r.payloadData.toList := by
  rw [layOut_eq]
  constructor
  · intro h
    split at h
    · cases h
    · rename_i hHeader
      split at h
      · cases h
      · rename_i hTotal
        cases h
        exact ⟨Nat.not_lt.mp hHeader, Nat.not_lt.mp hTotal, rfl⟩
  · rintro ⟨hHeader, hTotal, rfl⟩
    rw [if_neg (Nat.not_lt.mpr hHeader), if_neg (Nat.not_lt.mpr hTotal)]
    rfl

theorem RawMessage.toBytes_eq {rmp : Rmp} {r : RawMessage} {headerBytes : Bytes}
    (hHeader : r.header.toVec rmp = .ok headerBytes) : r.toBytes rmp = r.layOut headerBytes := by
  rw [toBytes, hHeader]
  rfl

theorem RawMessage.toBytes_eq_ok {rmp : Rmp} {r : RawMessage} {headerBytes : Bytes} {b : List UInt8}
    (hHeader : r.header.toVec rmp = .ok headerBytes) :
    r.toBytes rmp = .ok b ↔ r.layOut headerBytes = .ok b := by
  rw [toBytes_eq hHeader]

theorem RawMessage.toBytes_frame {rmp : Rmp} {r : RawMessage} {headerBytes : Bytes} {b : List UInt8}
    (hHeader : r.header.toVec rmp = .ok headerBytes) (hLimit : headerBytes.length < 2 ^ 32)
    (hBytes : r.toBytes rmp = .ok b) :
    (r.frame headerBytes hLimit).bytes = b ∧
      headerBytes.length ≤ defaultMaxHeaderSize.toNat ∧
        (r.frame headerBytes hLimit).size ≤ defaultMaxMessageSize.toNat := by
  obtain ⟨hHeaderLength, hSize, rfl⟩ := layOut_eq_ok.mp ((toBytes_eq_ok hHeader).mp hBytes)
  refine ⟨(List.append_assoc _ _ _).symm, ?_, hSize⟩
  rw [show headerBytes.length = (r.baseHeader headerBytes).headerLength.toNat from
    (r.frame headerBytes hLimit).header_length]
  exact hHeaderLength

theorem lt_of_le_maxHeaderSize {n : Nat} (h : n ≤ defaultMaxHeaderSize.toNat) : n < 2 ^ 32 :=
  Nat.lt_of_le_of_lt h (by decide)

/-- Reading back a written message gives its fields and sections, and distinct messages are
written as distinct bytes. -/
theorem RawMessage.toBytes_roundtrip {rmp : Rmp} {r : RawMessage} {headerBytes : Bytes}
    {b : List UInt8} (hHeader : r.header.toVec rmp = .ok headerBytes)
    (hLimit : headerBytes.length ≤ defaultMaxHeaderSize.toNat) (hBytes : r.toBytes rmp = .ok b) :
    (∃ m, Message.fromBytes b = .ok m ∧ m.baseHeader.version = protocolVersion ∧
      m.messageType = r.messageType ∧ m.clientId = r.clientId ∧
      m.baseHeader.reserved = List.Vector.replicate reservedSize 0 ∧
      m.rawHeaderBytes = some headerBytes.toList ∧
      m.rawPayloadBytes = some r.payloadData.toList ∧
      parseMessageBytes b = .ok ⟨m.baseHeader, headerBytes.toList, r.payloadData.toList⟩) ∧
    ∀ (r' : RawMessage) (headerBytes' : Bytes), r'.header.toVec rmp = .ok headerBytes' →
      headerBytes'.length ≤ defaultMaxHeaderSize.toNat → r'.toBytes rmp = .ok b →
      r'.messageType = r.messageType ∧ r'.clientId = r.clientId ∧ headerBytes' = headerBytes ∧
        r'.payloadData = r.payloadData := by
  have hLt := lt_of_le_maxHeaderSize hLimit
  obtain ⟨rfl, _, hSize⟩ := toBytes_frame hHeader hLt hBytes
  have hMachine : (r.frame headerBytes hLt).size < 2 ^ 64 := Nat.lt_of_le_of_lt hSize (by decide)
  constructor
  · exact ⟨_, Frame.fromBytes_bytes hMachine, rfl, rfl, rfl, rfl, Frame.rawHeaderBytes_message _,
      Frame.rawPayloadBytes_message hMachine, parseMessageBytes_eq_ok.mpr ⟨_, rfl, hMachine, rfl⟩⟩
  · intro r' headerBytes' hHeader' hLimit' hBytes'
    obtain ⟨hEq, _, _⟩ := toBytes_frame hHeader' (lt_of_le_maxHeaderSize hLimit') hBytes'
    have hFrame := Frame.bytes_inj hEq
    have hBase : r'.baseHeader headerBytes' = r.baseHeader headerBytes := congrArg Frame.baseHeader hFrame
    exact ⟨congrArg BaseHeader.messageType hBase, congrArg BaseHeader.clientId hBase,
      Bytes.ext (congrArg Frame.header hFrame), Bytes.ext (congrArg Frame.payload hFrame)⟩

def nilPayload : Bytes := ⟨[0xc0], by decide⟩

def newsHeader : Bytes := ⟨[129, 165, 116, 111, 112, 105, 99, 164, 110, 101, 119, 115], by decide⟩

def newsMessage : RawMessage :=
  ⟨.publish, clientIdMinDynamic, { Header.new with topic := some "news" }, nilPayload⟩

def newsFrame : Frame := newsMessage.frame newsHeader (by decide)

theorem newsMessage_roundtrip :
    ∃ m, Message.fromBytes newsFrame.bytes = .ok m ∧ m.baseHeader.version = protocolVersion ∧
      m.messageType = .publish ∧ m.clientId = clientIdMinDynamic ∧
      m.baseHeader.reserved = List.Vector.replicate reservedSize 0 ∧
      m.rawHeaderBytes = some newsHeader.toList ∧ m.rawPayloadBytes = some [0xc0] ∧
      parseMessageBytes newsFrame.bytes = .ok ⟨m.baseHeader, newsHeader.toList, [0xc0]⟩ :=
  (@RawMessage.toBytes_roundtrip Rmp.messagePack newsMessage newsHeader newsFrame.bytes
    (by decide +kernel) (by decide) (by decide +kernel)).1

end Fleximq.Protocol
