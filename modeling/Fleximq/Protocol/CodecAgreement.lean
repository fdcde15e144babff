import Fleximq.Protocol.Codec
import Fleximq.Protocol.HeaderRoundTrip

/-! # Encoder against decoder

`encode` applies the default header limit and the frame limit of the codec, the
parser both limits of the codec. They agree on a message unless its header
section is longer than the codec's limit and passes the encoder.
-/
namespace Fleximq.Protocol
open Foundation

/-- What is encoded without an error decodes on a fresh codec with the same limits, as a message
with the encoded bytes; what is refused leaves `dst` alone. -/
def CodecAgrees (rmp : Rmp) (maxMessageSize maxHeaderSize : Usize) (r : RawMessage) : Prop :=
  ∀ dst : List UInt8,
    match (MessageCodec.withLimits maxMessageSize maxHeaderSize).encode rmp r dst with
    | (dst', .ok ()) =>
      ∃ bytes, dst' = dst ++ bytes ∧
        ∃ d src m, (MessageCodec.withLimits maxMessageSize maxHeaderSize).decode bytes =
          (d, src, .ok (some m)) ∧ m.rawBytes = bytes
    | (dst', .error _) => dst' = dst

/-- The encoder refuses a message with the header section `headerBytes`. -/
def EncoderRefuses (maxMessageSize : Usize) (r : RawMessage) (headerBytes : Bytes) : Prop :=
  defaultMaxHeaderSize.toNat < headerBytes.length % 2 ^ 32 ∨
    defaultMaxMessageSize.toNat <
      baseHeaderSize + headerBytes.length % 2 ^ 32 + r.payloadData.length ∨
    maxMessageSize.toNat < baseHeaderSize + headerBytes.length + r.payloadData.length

/-- The header section, if the header can be written at all, is within the limit of the decoder,
or the encoder refuses the message. -/
def HeaderFits (rmp : Rmp) (maxMessageSize maxHeaderSize : Usize) (r : RawMessage) : Prop :=
  ∀ headerBytes, r.header.toVec rmp = .ok headerBytes →
    headerBytes.length ≤ maxHeaderSize.toNat ∨ EncoderRefuses maxMessageSize r headerBytes

section
variable {rmp : Rmp} {maxMessageSize maxHeaderSize : Usize} {r : RawMessage} {headerBytes : Bytes}

theorem encode_cases (maxMessageSize maxHeaderSize : Usize)
    (hHeader : r.header.toVec rmp = .ok headerBytes) (dst : List UInt8) :
    (EncoderRefuses maxMessageSize r headerBytes ∧
      ∃ e, (MessageCodec.withLimits maxMessageSize maxHeaderSize).encode rmp r dst = (dst, .error e)) ∨
    (¬ EncoderRefuses maxMessageSize r headerBytes ∧
      (MessageCodec.withLimits maxMessageSize maxHeaderSize).encode rmp r dst =
        (dst ++ r.laidOut headerBytes, .ok ())) := by
  rw [MessageCodec.encode, encodeRaw]
  cases hBytes : r.toBytes rmp with
  | error e =>
    refine .inl ⟨?_, e, rfl⟩
    by_contra hAccepted
    obtain ⟨hHeaderSize, hRest⟩ := not_or.mp hAccepted
    have hLayOut : r.layOut headerBytes = .ok (r.laidOut headerBytes) := by
      apply RawMessage.layOut_eq_ok.mpr
      rw [r.baseHeader_headerLength, r.baseHeader_declaredSize]
      exact ⟨Nat.not_lt.mp hHeaderSize, Nat.not_lt.mp (not_or.mp hRest).1, rfl⟩
    rw [(RawMessage.toBytes_eq_ok hHeader).mpr hLayOut] at hBytes
    cases hBytes
  | ok bytes =>
    obtain ⟨hHeaderSize, hSize, hLaidOut⟩ :=
      RawMessage.layOut_eq_ok.mp ((RawMessage.toBytes_eq_ok hHeader).mp hBytes)
    obtain rfl : bytes = r.laidOut headerBytes := hLaidOut
    rw [r.baseHeader_headerLength] at hHeaderSize
    rw [r.baseHeader_declaredSize] at hSize
    dsimp only
    rw [putFrame, r.laidOut_length]
    split
    · rename_i hFrame
      exact .inl ⟨.inr (.inr hFrame), _, rfl⟩
    · rename_i hFrame
      refine .inr ⟨?_, rfl⟩
      rintro (hHeader | hTotal | hFrame')
      · omega
      · omega
      · exact hFrame hFrame'

theorem laidOut_admitted (maxHeaderSize : Usize) (hWritten : ¬ EncoderRefuses maxMessageSize r headerBytes) :
    (MessageCodec.withLimits maxMessageSize maxHeaderSize).Admits (r.laidOut headerBytes) := by
  have hFrame : (r.laidOut headerBytes).length ≤ maxMessageSize.toNat := by
    rw [r.laidOut_length]
    exact Nat.not_lt.mp (not_or.mp (not_or.mp hWritten).2).2
  refine ⟨hFrame, .inr ?_⟩
  change 0 + _ ≤ maxMessageSize.toNat
  rw [Nat.zero_add]
  exact hFrame

theorem decode_laidOut (hLimit : maxHeaderSize.toNat < 2 ^ 32)
    (hWritten : ¬ EncoderRefuses maxMessageSize r headerBytes)
    (hFits : headerBytes.length ≤ maxHeaderSize.toNat) :
    ∃ d src m, (MessageCodec.withLimits maxMessageSize maxHeaderSize).decode (r.laidOut headerBytes) =
      (d, src, .ok (some m)) ∧ m.rawBytes = r.laidOut headerBytes := by
  have hHeaderSize : headerBytes.length < 2 ^ 32 := Nat.lt_of_le_of_lt hFits hLimit
  have hBytes : (r.frame headerBytes hHeaderSize).bytes = r.laidOut headerBytes :=
    (List.append_assoc _ _ _).symm
  have hAdmits := laidOut_admitted maxHeaderSize hWritten
  have hWithin : (r.frame headerBytes hHeaderSize).Within maxMessageSize maxHeaderSize := by
    refine ⟨hFits, ?_⟩
    rw [← Frame.bytes_length, hBytes]
    exact hAdmits.1
  rw [← hBytes] at hAdmits ⊢
  have hDelivers := MessageParser.delivers_of_within hLimit hWithin
  exact ⟨_, _, _, FrameDecoder.decode_deliver hAdmits hDelivers, rfl⟩

theorem le_of_decode_laidOut (hLimit : maxHeaderSize.toNat < 2 ^ 32)
    (hWritten : ¬ EncoderRefuses maxMessageSize r headerBytes) {d : MessageCodec} {src : List UInt8}
    {m : Message} (hDecode : (MessageCodec.withLimits maxMessageSize maxHeaderSize).decode
      (r.laidOut headerBytes) = (d, src, .ok (some m))) (hRaw : m.rawBytes = r.laidOut headerBytes) :
    headerBytes.length ≤ maxHeaderSize.toNat := by
  obtain ⟨n, hVerdict⟩ := FrameDecoder.deliver_of_decode (laidOut_admitted maxHeaderSize hWritten) hDecode
  have hFresh : (FrameDecoder.withLimits maxMessageSize maxHeaderSize).parser.buffer = [] := rfl
  have hBytes : (FrameDecoder.withLimits maxMessageSize maxHeaderSize).bytes.verdict =
      MessageParser.verdict maxMessageSize maxHeaderSize := rfl
  rw [MessageCodec.withLimits, hFresh, List.nil_append, hBytes] at hVerdict
  obtain ⟨h, hParse, hPermits, rfl, _, hComplete, rfl⟩ := MessageParser.verdict_eq_deliver.mp hVerdict
  obtain rfl : r.baseHeader headerBytes = h := by
    rw [RawMessage.laidOut, List.append_assoc, parseBaseHeader_encode rfl] at hParse
    exact Except.ok.inj hParse
  -- the message is cut off at the declared size, which is too short for a truncated header length
  have hWhole : (r.laidOut headerBytes).length ≤ (r.baseHeader headerBytes).totalMessageSize.toNat := by
    rw [← hRaw]
    exact List.length_take_le _ _
  have hHeaderSize : (r.baseHeader headerBytes).headerLength.toNat ≤ maxHeaderSize.toUInt32.toNat :=
    UInt32.le_iff_toNat_le.mp hPermits.header_le
  rw [r.baseHeader_headerLength, UInt64.toNat_toUInt32, Nat.mod_eq_of_lt hLimit] at hHeaderSize
  rw [r.laidOut_length, BaseHeader.totalMessageSize_toNat, r.baseHeader_declaredSize] at hWhole
  have hModLe := Nat.mod_le (baseHeaderSize + headerBytes.length % 2 ^ 32 + r.payloadData.length) (2 ^ 64)
  omega

end

theorem CodecAgrees.decode_written {rmp : Rmp} {maxMessageSize maxHeaderSize : Usize} {r : RawMessage}
    {bytes : List UInt8} (h : CodecAgrees rmp maxMessageSize maxHeaderSize r)
    (hEncode : (MessageCodec.withLimits maxMessageSize maxHeaderSize).encode rmp r [] = (bytes, .ok ())) :
    ∃ d src m, (MessageCodec.withLimits maxMessageSize maxHeaderSize).decode bytes =
      (d, src, .ok (some m)) ∧ m.rawBytes = bytes := by
  have hRound := h []
  rw [hEncode] at hRound
  obtain ⟨_, rfl, hDecode⟩ := hRound
  exact hDecode

/-- The encoder and a decoder with the same limits agree on a message exactly when its header
section fits the header limit, or nothing is written. -/
theorem codecAgrees_iff {rmp : Rmp} {maxMessageSize maxHeaderSize : Usize}
    (hLimit : maxHeaderSize.toNat < 2 ^ 32) (r : RawMessage) :
    CodecAgrees rmp maxMessageSize maxHeaderSize r ↔ HeaderFits rmp maxMessageSize maxHeaderSize r := by
  constructor
  · intro hAgrees headerBytes hHeader
    by_contra hTooLong
    obtain ⟨hLong, hWritten⟩ := not_or.mp hTooLong
    rcases encode_cases maxMessageSize maxHeaderSize hHeader [] with ⟨hRefused, _⟩ | ⟨_, hEncode⟩
    · exact hWritten hRefused
    · obtain ⟨d, src, m, hOk, hRaw⟩ := hAgrees.decode_written hEncode
      exact hLong (le_of_decode_laidOut hLimit hWritten hOk hRaw)
  · intro hFits dst
    cases hHeader : r.header.toVec rmp with
    | error e =>
      have hBytes : r.toBytes rmp = .error e := by
        rw [RawMessage.toBytes, hHeader]
        rfl
      rw [MessageCodec.encode, encodeRaw, hBytes]
    | ok headerBytes =>
      rcases encode_cases maxMessageSize maxHeaderSize hHeader dst with
        ⟨_, e, hEncode⟩ | ⟨hWritten, hEncode⟩
      · rw [hEncode]
      · rw [hEncode]
        refine ⟨_, rfl, decode_laidOut hLimit hWritten ?_⟩
        exact (hFits headerBytes hHeader).resolve_right hWritten

theorem codecAgrees_newsMessage :
    CodecAgrees Rmp.messagePack defaultMaxMessageSize defaultMaxHeaderSize newsMessage :=
  (codecAgrees_iff (by decide) newsMessage).mpr fun headerBytes hHeader => by
    have hNews : newsMessage.header.toVec Rmp.messagePack = .ok newsHeader := by decide +kernel
    obtain rfl : newsHeader = headerBytes := Except.ok.inj (hNews.symm.trans hHeader)
    exact .inl (by decide)

theorem not_codecAgrees_newsMessage :
    (MessageCodec.withLimits 1024 8).encode Rmp.messagePack newsMessage [] = (newsFrame.bytes, .ok ()) ∧
      (MessageCodec.withLimits 1024 8).decode newsFrame.bytes =
        ((MessageCodec.withLimits 1024 8).withBuffer newsFrame.bytes, [], .error (.headerTooLarge 12 8)) ∧
      ¬ CodecAgrees Rmp.messagePack 1024 8 newsMessage := by
  have hEncode : (MessageCodec.withLimits 1024 8).encode Rmp.messagePack newsMessage [] =
      (newsFrame.bytes, .ok ()) := by decide +kernel
  have hDecode : (MessageCodec.withLimits 1024 8).decode newsFrame.bytes =
      ((MessageCodec.withLimits 1024 8).withBuffer newsFrame.bytes, [], .error (.headerTooLarge 12 8)) := by
    decide +kernel
  refine ⟨hEncode, hDecode, ?_⟩
  intro hAgrees
  obtain ⟨d, src, m, hOk, _⟩ := hAgrees.decode_written hEncode
  have hResult := congrArg (fun answer => answer.2.2) (hDecode.symm.trans hOk)
  cases hResult

end Fleximq.Protocol
