import Fleximq.Protocol.FrameRoundTrip

/-! # The header on both sides of the wire

A written header reads back as the same header exactly when every routing entry
carries a client id and the reader's depth limit admits the entries of
`additional`: an entry without an id is an array of two, and the reader asks for
three.
-/
namespace Fleximq.Protocol
open Foundation

theorem RawMessage.accepted_message {rmp : Rmp} {r : RawMessage} {headerBytes : Bytes}
    {b : List UInt8} {m : Message} (hHeader : r.header.toVec rmp = .ok headerBytes)
    (hBytes : r.toBytes rmp = .ok b) (hAccept : Message.fromBytes b = .ok m) :
    ∃ hLimit : headerBytes.length < 2 ^ 32, m = (r.frame headerBytes hLimit).message := by
  obtain ⟨_, hSize, hLayOut⟩ := layOut_eq_ok.mp ((toBytes_eq_ok hHeader).mp hBytes)
  obtain ⟨hParse, _, hLength⟩ := Message.fromBytes_eq_ok.mp hAccept
  have hBase : m.baseHeader = r.baseHeader headerBytes := by
    rw [hLayOut, List.append_assoc, parseBaseHeader_encode rfl] at hParse
    exact (Except.ok.inj hParse).symm
  have hLimit : headerBytes.length < 2 ^ 32 := by
    have hTotal : (r.baseHeader headerBytes).totalMessageSize.toNat =
        (r.baseHeader headerBytes).declaredSize := by
      rw [BaseHeader.totalMessageSize_toNat]
      exact Nat.mod_eq_of_lt (Nat.lt_of_le_of_lt hSize (by decide))
    rw [hBase, hTotal, hLayOut, List.length_append, List.length_append, BaseHeader.encode_length] at hLength
    have hHeaderLength := (r.baseHeader headerBytes).headerLength.toNat_lt
    have hPayloadLength : (r.baseHeader headerBytes).payloadLength.toNat = r.payloadData.length :=
      r.payloadData.ofNat_length_toNat
    rw [BaseHeader.declaredSize, hPayloadLength] at hLength
    simp only [Bytes.length] at hLength ⊢
    omega
  refine ⟨hLimit, ?_⟩
  obtain ⟨hFrame, _, hFrameSize⟩ := toBytes_frame hHeader hLimit hBytes
  rw [← hFrame, Frame.fromBytes_bytes (Nat.lt_of_le_of_lt hFrameSize (by decide))] at hAccept
  exact (Except.ok.inj hAccept).symm

/-- A message is made into its frame when the sizes are within the limits, and never otherwise. -/
theorem RawMessage.intoMessage_eq_ok {rmp : Rmp} {r : RawMessage} {headerBytes : Bytes} {m : Message}
    (hHeader : r.header.toVec rmp = .ok headerBytes) :
    r.intoMessage rmp = .ok m ↔
      headerBytes.length ≤ defaultMaxHeaderSize.toNat ∧
        baseHeaderSize + headerBytes.length + r.payloadData.length ≤ defaultMaxMessageSize.toNat ∧
          ∃ hLimit : headerBytes.length < 2 ^ 32, m = (r.frame headerBytes hLimit).message := by
  constructor
  · intro h
    obtain ⟨b, hBytes, hAccept⟩ := bind_eq_ok.mp h
    obtain ⟨hLimit, hMessage⟩ := accepted_message hHeader hBytes hAccept
    obtain ⟨_, hHeaderSize, hSize⟩ := toBytes_frame hHeader hLimit hBytes
    rw [r.frame_size] at hSize
    exact ⟨hHeaderSize, hSize, hLimit, hMessage⟩
  · rintro ⟨hHeaderSize, hSize, hLimit, rfl⟩
    rw [← r.frame_size hLimit] at hSize
    have hLayOut : r.layOut headerBytes = .ok (r.frame headerBytes hLimit).bytes := by
      refine layOut_eq_ok.mpr ⟨?_, hSize, (List.append_assoc _ _ _).symm⟩
      rw [r.baseHeader_headerLength, Nat.mod_eq_of_lt hLimit]
      exact hHeaderSize
    refine bind_eq_ok.mpr ⟨_, (toBytes_eq_ok hHeader).mpr hLayOut, ?_⟩
    exact Frame.fromBytes_bytes (Nat.lt_of_le_of_lt hSize (by decide))

theorem Message.header_eq {rmp : Rmp} {m : Message} {bytes : List UInt8}
    (hRaw : m.rawHeaderBytes = some bytes) (hLength : bytes.length = m.headerLength.toNat)
    (hNonempty : bytes ≠ []) :
    m.header rmp = some (do
      let v ← (rmp.fromSlice bytes).mapError .messagePackDeserialization
      (Header.deserialize v).mapError fun e => .messagePackDeserialization (rmp.errorText e)) := by
  have hPositive : m.headerLength > 0 := by
    apply UInt32.lt_iff_toNat_lt.mpr
    rw [← hLength]
    exact List.length_pos_iff.mpr hNonempty
  rw [header, if_pos hPositive, hRaw]
  rfl

theorem Header.not_isDefault_of_incomplete {h : Header} (hIncomplete : h.routingComplete = false) :
    ¬ h.isDefault = true := by
  intro hDefault
  rw [routingComplete, (isDefault_iff.mp hDefault).routing] at hIncomplete
  cases hIncomplete

/-- The reader enters every value of `additional`. -/
def Header.Within (rmp : Rmp) (h : Header) : Prop :=
  ∀ item ∈ h.additional.entries, ∀ limit ∈ rmp.depthLimit, item.2.nesting + 1 < limit

theorem Header.additional_of_isDefault {h : Header} (hDefault : h.isDefault = true) : h.additional = ∅ :=
  AList.ext (List.perm_nil.mp (isDefault_iff.mp hDefault).additional)

theorem Header.within_of_named {rmp : Rmp} {h : Header} (hNamed : h.additional = ∅) : h.Within rmp := by
  rw [Within, hNamed]
  exact List.forall_mem_nil _

theorem Header.within_serialize_iff {rmp : Rmp} (hRmp : rmp.Lawful) {h : Header} :
    rmp.Within h.serialize ↔ h.Within rmp := by
  constructor
  · intro hWithin item hItem limit hLimit
    exact (nesting_serialize_lt_iff (hRmp.three_lt limit hLimit)).mp (hWithin limit hLimit) item hItem
  · intro hWithin limit hLimit
    exact (nesting_serialize_lt_iff (hRmp.three_lt limit hLimit)).mpr
      fun item hItem => hWithin item hItem limit hLimit

section
variable {rmp : Rmp} {r : RawMessage} {headerBytes : Bytes}

theorem RawMessage.header_message (hRmp : rmp.Lawful) (hLimit : headerBytes.length < 2 ^ 32)
    (hHeader : r.header.toVec rmp = .ok headerBytes) (hWithin : r.header.Within rmp) :
    (r.frame headerBytes hLimit).message.header rmp =
      some (if r.header.isDefault then .ok Header.new
        else (Header.deserialize r.header.serialize).mapError fun e =>
          .messagePackDeserialization (rmp.errorText e)) := by
  by_cases hDefault : r.header.isDefault = true
  · rw [Header.toVec, if_pos hDefault] at hHeader
    cases hHeader
    rw [if_pos hDefault]
    rfl
  · rw [Header.toVec, if_neg hDefault] at hHeader
    have hVec := mapError_eq_ok.mp hHeader
    rw [if_neg hDefault, Message.header_eq (Frame.rawHeaderBytes_message _) (Frame.header_length _)
      (hRmp.ne_nil hVec)]
    rw [show rmp.fromSlice (r.frame headerBytes hLimit).header = .ok r.header.serialize from
      hRmp.fromSlice_toVec hVec ((Header.within_serialize_iff hRmp).mpr hWithin)]
    rfl

/-- A header that nests too deep is sent and cannot be read. -/
theorem RawMessage.within_of_header (hRmp : rmp.Lawful) (hLimit : headerBytes.length < 2 ^ 32)
    (hHeader : r.header.toVec rmp = .ok headerBytes) {h : Header}
    (hRead : (r.frame headerBytes hLimit).message.header rmp = some (.ok h)) : r.header.Within rmp := by
  by_contra hDeep
  have hDefault : ¬ r.header.isDefault = true := fun hDefault =>
    hDeep (Header.within_of_named (Header.additional_of_isDefault hDefault))
  rw [Header.toVec, if_neg hDefault] at hHeader
  have hVec := mapError_eq_ok.mp hHeader
  obtain ⟨e, hError⟩ := hRmp.fromSlice_deep hVec (mt (Header.within_serialize_iff hRmp).mp hDeep)
  rw [Message.header_eq (Frame.rawHeaderBytes_message _) (Frame.header_length _) (hRmp.ne_nil hVec)] at hRead
  rw [show rmp.fromSlice (r.frame headerBytes hLimit).header = .error e from hError] at hRead
  cases hRead

theorem RawMessage.header_message_same (hRmp : rmp.Lawful) (hLimit : headerBytes.length < 2 ^ 32)
    (hHeader : r.header.toVec rmp = .ok headerBytes)
    (hKeys : ∀ key ∈ r.header.additional, key ∉ headerFields) (hComplete : r.header.routingComplete = true)
    (hWithin : r.header.Within rmp) :
    ∃ h, (r.frame headerBytes hLimit).message.header rmp = some (.ok h) ∧ h.Same r.header := by
  rw [header_message hRmp hLimit hHeader hWithin]
  by_cases hDefault : r.header.isDefault = true
  · rw [if_pos hDefault]
    exact ⟨Header.new, rfl, (Header.isDefault_iff.mp hDefault).symm⟩
  · rw [if_neg hDefault]
    obtain ⟨h, hDeserialize, hSame⟩ := Header.deserialize_serialize hKeys hComplete
    exact ⟨h, congrArg some (mapError_eq_ok.mpr hDeserialize), hSame⟩

theorem RawMessage.routingComplete_of_header (hRmp : rmp.Lawful) (hLimit : headerBytes.length < 2 ^ 32)
    (hHeader : r.header.toVec rmp = .ok headerBytes) {h : Header}
    (hRead : (r.frame headerBytes hLimit).message.header rmp = some (.ok h)) :
    r.header.routingComplete = true := by
  rw [header_message hRmp hLimit hHeader (within_of_header hRmp hLimit hHeader hRead)] at hRead
  rw [← Bool.not_eq_false]
  intro hIncomplete
  rw [if_neg (Header.not_isDefault_of_incomplete hIncomplete)] at hRead
  have hDeserialize := mapError_eq_ok.mp (Option.some.inj hRead)
  exact Header.deserialize_serialize_error hIncomplete h hDeserialize

/-- A header of named fields only. -/
theorem RawMessage.header_message_named (hRmp : rmp.Lawful) (hLimit : headerBytes.length < 2 ^ 32)
    (hHeader : r.header.toVec rmp = .ok headerBytes) (hNamed : r.header.additional = ∅)
    (hComplete : r.header.routingComplete = true) :
    ∃ h, (r.frame headerBytes hLimit).message.header rmp = some (.ok h) ∧ h.Same r.header := by
  refine header_message_same hRmp hLimit hHeader ?_ hComplete (Header.within_of_named hNamed)
  intro key hKey
  rw [hNamed] at hKey
  exact absurd hKey (AList.notMem_empty key)

end

/-- The header of an accepted message is the header that was sent, or cannot be read, as the
routing list and the nesting decide. -/
theorem header_roundtrip_iff {rmp : Rmp} (hRmp : rmp.Lawful) {r : RawMessage} {b : List UInt8}
    {m : Message} (hKeys : ∀ key ∈ r.header.additional, key ∉ headerFields)
    (hBytes : r.toBytes rmp = .ok b) (hAccept : Message.fromBytes b = .ok m) :
    (∃ h, m.header rmp = some (.ok h) ∧ h.Same r.header) ↔
      r.header.routingComplete = true ∧ r.header.Within rmp := by
  obtain ⟨headerBytes, hHeader, _⟩ := bind_eq_ok.mp hBytes
  obtain ⟨hLimit, rfl⟩ := RawMessage.accepted_message hHeader hBytes hAccept
  constructor
  · rintro ⟨h, hRead, _⟩
    exact ⟨RawMessage.routingComplete_of_header hRmp hLimit hHeader hRead,
      RawMessage.within_of_header hRmp hLimit hHeader hRead⟩
  · rintro ⟨hComplete, hWithin⟩
    exact RawMessage.header_message_same hRmp hLimit hHeader hKeys hComplete hWithin

def sumMessage (workerId : Option ClientId) : RawMessage where
  messageType := .request
  clientId := clientIdMinDynamic
  header := { Header.new with routing := some [⟨"worker", "/sum", workerId⟩], reqrep := some (.req "7") }
  payloadData := nilPayload

def addressedHeader : Bytes where
  toList := [130, 167, 114, 111, 117, 116, 105, 110, 103, 145, 147, 166, 119, 111, 114, 107, 101, 114,
    164, 47, 115, 117, 109, 205, 3, 233, 166, 114, 101, 113, 114, 101, 112, 146, 167, 114, 101, 113,
    117, 101, 115, 116, 161, 55]
  length_lt := by decide

def unaddressedHeader : Bytes where
  toList := [130, 167, 114, 111, 117, 116, 105, 110, 103, 145, 146, 166, 119, 111, 114, 107, 101, 114,
    164, 47, 115, 117, 109, 166, 114, 101, 113, 114, 101, 112, 146, 167, 114, 101, 113, 117, 101, 115,
    116, 161, 55]
  length_lt := by decide

def addressedFrame : Frame := (sumMessage (some 1001)).frame addressedHeader (by decide)

def unaddressedFrame : Frame := (sumMessage none).frame unaddressedHeader (by decide)

theorem addressedFrame_header :
    ∃ h, addressedFrame.message.header Rmp.messagePack = some (.ok h) ∧
      h.Same (sumMessage (some 1001)).header :=
  (@header_roundtrip_iff Rmp.messagePack Rmp.messagePack_lawful (sumMessage (some 1001))
    addressedFrame.bytes addressedFrame.message (fun _ hKey => absurd hKey (AList.notMem_empty _))
    (by decide +kernel) (Frame.fromBytes_bytes (by decide))).mpr ⟨rfl, Header.within_of_named rfl⟩

theorem unaddressedFrame_header :
    (sumMessage none).toBytes Rmp.messagePack = .ok unaddressedFrame.bytes ∧
      Message.fromBytes unaddressedFrame.bytes = .ok unaddressedFrame.message ∧
      unaddressedFrame.message.header Rmp.messagePack =
        some (.error (.messagePackDeserialization "invalid length 2")) ∧
      ¬ ∃ h, unaddressedFrame.message.header Rmp.messagePack = some (.ok h) ∧
        h.Same (sumMessage none).header := by
  have hRead : unaddressedFrame.message.header Rmp.messagePack =
      some (.error (.messagePackDeserialization "invalid length 2")) := by
    have hVec : (sumMessage none).header.toVec Rmp.messagePack = .ok unaddressedHeader := by
      decide +kernel
    exact RawMessage.header_message Rmp.messagePack_lawful _ hVec (Header.within_of_named rfl)
  refine ⟨by decide +kernel, Frame.fromBytes_bytes (by decide), hRead, ?_⟩
  rintro ⟨h, hOk, _⟩
  rw [hRead] at hOk
  cases hOk

end Fleximq.Protocol
