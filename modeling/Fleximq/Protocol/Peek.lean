import Fleximq.Protocol.BaseHeader

/-! # Peeking at a message

`peek_message_info` reads the type and the client id at fixed offsets. It accepts
what the parser of the base header accepts and reads the same fields from it.
-/
namespace Fleximq.Protocol
open Foundation

def peekMessageInfo (data : List UInt8) : Except ProtocolError (MessageType × ClientId) :=
  if hShort : data.length < baseHeaderSize then
    .error (.incompleteData baseHeaderSize data.length)
  else
    let byte (i : Fin 34) : UInt8 := data.get (i.castLE (Nat.not_lt.mp hShort))
    if byte 0 ≠ protocolVersion then .error (.invalidVersion protocolVersion (byte 0))
    else
      match MessageType.fromU8 (byte 1) with
      | none => .error (.unknownMessageType (byte 1))
      | some messageType =>
        .ok (messageType, UInt32.ofNat (BigEndian.read [byte 2, byte 3, byte 4, byte 5]))

/-- The fields in front of the reserved bytes, each read on its own. -/
theorem peekMessageInfo_cons {version type c₀ c₁ c₂ c₃ : UInt8} {tail : List UInt8}
    (hTail : 28 ≤ tail.length) :
    peekMessageInfo (version :: type :: c₀ :: c₁ :: c₂ :: c₃ :: tail) =
      if version ≠ protocolVersion then .error (.invalidVersion protocolVersion version)
      else
        match MessageType.fromU8 type with
        | none => .error (.unknownMessageType type)
        | some messageType => .ok (messageType, UInt32.ofNat (BigEndian.read [c₀, c₁, c₂, c₃])) := by
  have hLong : ¬ (version :: type :: c₀ :: c₁ :: c₂ :: c₃ :: tail).length < baseHeaderSize := by
    simp only [List.length_cons, baseHeaderSize]
    omega
  rw [peekMessageInfo, dif_neg hLong]
  rfl

theorem peekMessageInfo_length {data : List UInt8} {info : MessageType × ClientId}
    (h : peekMessageInfo data = .ok info) : baseHeaderSize ≤ data.length := by
  by_contra hShort
  rw [peekMessageInfo, dif_pos (Nat.lt_of_not_le hShort)] at h
  cases h

/-- Bytes that are long enough are six bytes of fields, the reserved bytes and the two lengths. -/
theorem exists_fields {data : List UInt8} (hLength : baseHeaderSize ≤ data.length) :
    ∃ version type c₀ c₁ c₂ c₃ tail, data = version :: type :: c₀ :: c₁ :: c₂ :: c₃ :: tail ∧
      28 ≤ tail.length := by
  match data, hLength with
  | version :: type :: c₀ :: c₁ :: c₂ :: c₃ :: tail, hLength =>
    refine ⟨version, type, c₀, c₁, c₂, c₃, tail, rfl, ?_⟩
    simp only [List.length_cons, baseHeaderSize] at hLength
    omega
  | [], hLength | [_], hLength | [_, _], hLength | [_, _, _], hLength | [_, _, _, _], hLength
  | [_, _, _, _, _], hLength => exact absurd hLength (by simp [baseHeaderSize])

theorem peekMessageInfo_encode {h : BaseHeader} (hVersion : h.version = protocolVersion)
    (rest : List UInt8) : peekMessageInfo (h.encode ++ rest) = .ok (h.messageType, h.clientId) := by
  have hTail : 28 ≤ (h.reserved.val ++ (BigEndian.write 4 h.headerLength.toNat ++
      BigEndian.write 8 h.payloadLength.toNat) ++ rest).length := by
    simp [reservedSize]
    omega
  have hClient : UInt32.ofNat (BigEndian.read (BigEndian.write 4 h.clientId.toNat)) = h.clientId := by
    rw [BigEndian.read_write_of_lt h.clientId.toNat_lt, UInt32.ofNat_toNat]
  refine (peekMessageInfo_cons hTail).trans ?_
  rw [if_neg (not_not.mpr hVersion), MessageType.fromU8_eq_some.mpr rfl]
  change Except.ok (h.messageType, UInt32.ofNat (BigEndian.read (BigEndian.write 4 h.clientId.toNat))) = _
  rw [hClient]

theorem exists_uInt32 {bytes : List UInt8} (hLength : bytes.length = 4) :
    ∃ n : UInt32, bytes = BigEndian.write 4 n.toNat := by
  have hBound := BigEndian.read_lt bytes
  rw [hLength] at hBound
  refine ⟨UInt32.ofNat (BigEndian.read bytes), ?_⟩
  rw [UInt32.toNat_ofNat_of_lt' hBound, BigEndian.write_read_of_length hLength]

theorem exists_uInt64 {bytes : List UInt8} (hLength : bytes.length = 8) :
    ∃ n : UInt64, bytes = BigEndian.write 8 n.toNat := by
  have hBound := BigEndian.read_lt bytes
  rw [hLength] at hBound
  refine ⟨UInt64.ofNat (BigEndian.read bytes), ?_⟩
  rw [UInt64.toNat_ofNat_of_lt' hBound, BigEndian.write_read_of_length hLength]

theorem exists_front {count : Nat} {bytes : List UInt8} (hLength : count ≤ bytes.length) :
    ∃ front back, front.length = count ∧ bytes = front ++ back :=
  ⟨bytes.take count, bytes.drop count, List.length_take_of_le hLength,
    (List.take_append_drop count bytes).symm⟩

/-- Any bytes behind the version and the type are those of some header. -/
theorem exists_encode (version : UInt8) (messageType : MessageType) {body : List UInt8}
    (hLength : 32 ≤ body.length) :
    ∃ (h : BaseHeader) (rest : List UInt8), h.version = version ∧
      version :: messageType.toU8 :: body = h.encode ++ rest := by
  obtain ⟨client, body, hClient, rfl⟩ := exists_front (Nat.le_trans (by decide : 4 ≤ 32) hLength)
  rw [List.length_append, hClient] at hLength
  obtain ⟨reserved, body, hReserved, rfl⟩ := @exists_front reservedSize body (by simp [reservedSize]; omega)
  rw [List.length_append, hReserved, reservedSize] at hLength
  obtain ⟨header, body, hHeader, rfl⟩ := @exists_front 4 body (by omega)
  rw [List.length_append, hHeader] at hLength
  obtain ⟨payload, rest, hPayload, rfl⟩ := @exists_front 8 body (by omega)
  obtain ⟨clientId, rfl⟩ := exists_uInt32 hClient
  obtain ⟨headerLength, rfl⟩ := exists_uInt32 hHeader
  obtain ⟨payloadLength, rfl⟩ := exists_uInt64 hPayload
  refine ⟨⟨version, messageType, clientId, ⟨reserved, hReserved⟩, headerLength, payloadLength⟩, rest, rfl, ?_⟩
  simp [BaseHeader.encode]

/-- The peek succeeds exactly when the parser does, on the fields of its header. -/
theorem peekMessageInfo_eq_ok {data : List UInt8} {messageType : MessageType} {clientId : ClientId} :
    peekMessageInfo data = .ok (messageType, clientId) ↔
      ∃ h, parseBaseHeader data = .ok h ∧ messageType = h.messageType ∧ clientId = h.clientId := by
  constructor
  · intro hPeek
    obtain ⟨version, type, c₀, c₁, c₂, c₃, tail, rfl, hTail⟩ := exists_fields (peekMessageInfo_length hPeek)
    have hFields := (peekMessageInfo_cons hTail).symm.trans hPeek
    split_ifs at hFields with hVersion
    cases hType : MessageType.fromU8 type with
    | none =>
      rw [hType] at hFields
      cases hFields
    | some found =>
      obtain rfl := MessageType.fromU8_eq_some.mp hType
      obtain ⟨h, rest, hSame, hData⟩ := @exists_encode version found (c₀ :: c₁ :: c₂ :: c₃ :: tail)
        (by simp only [List.length_cons]; omega)
      have hSupported : h.version = protocolVersion := hSame.trans (not_not.mp hVersion)
      rw [hData] at hPeek ⊢
      rw [peekMessageInfo_encode hSupported] at hPeek
      cases hPeek
      exact ⟨h, parseBaseHeader_encode hSupported rest, rfl, rfl⟩
  · rintro ⟨h, hParse, rfl, rfl⟩
    obtain ⟨hVersion, rest, rfl⟩ := parseBaseHeader_eq_ok.mp hParse
    exact peekMessageInfo_encode hVersion rest

theorem encode_of_parse {data : List UInt8} {h : BaseHeader} (hParse : parseBaseHeader data = .ok h) :
    h.encode = data.take baseHeaderSize := by
  obtain ⟨_, rest, rfl⟩ := parseBaseHeader_eq_ok.mp hParse
  rw [List.take_left' h.encode_length]

/-- The peek is the parser of the base header, less the fields it does not report, and the bytes that
they accept are those of the header. -/
theorem peekMessageInfo_agrees (data : List UInt8) :
    (∀ messageType clientId, peekMessageInfo data = .ok (messageType, clientId) ↔
      ∃ h, parseBaseHeader data = .ok h ∧ messageType = h.messageType ∧ clientId = h.clientId) ∧
    ∀ h, parseBaseHeader data = .ok h → h.encode = data.take baseHeaderSize :=
  ⟨fun _ _ => peekMessageInfo_eq_ok, fun _ => encode_of_parse⟩

end Fleximq.Protocol
