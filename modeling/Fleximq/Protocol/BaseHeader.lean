import Fleximq.Foundation.Nom
import Fleximq.Protocol.Types

/-! # The base header on the wire

The parser of the first 34 bytes is inverted by `BaseHeader.encode`: it accepts
exactly the encodings of the headers of version 1 and returns the bytes after
them. Everything else about the parser follows from `parseBaseHeaderNom_eq_ok`.
-/
namespace Fleximq.Protocol
open Foundation

def parseBaseHeaderNom (input : List UInt8) : Except Nom.Error (List UInt8 × BaseHeader) := do
  let (input, version) ← Nom.verify Nom.beU8 (· == protocolVersion) input
  let (input, messageTypeU8) ← Nom.beU8 input
  let (input, clientId) ← Nom.beU32 input
  let (input, reserved) ← Nom.take reservedSize input
  let (input, headerLength) ← Nom.beU32 input
  let (input, payloadLength) ← Nom.beU64 input
  match MessageType.fromU8 messageTypeU8 with
  | none => .error ⟨input, .tag⟩
  | some messageType =>
    -- `take` has already fixed the length; the other branch is never reached.
    if h : reserved.length = reservedSize then
      return (input, ⟨version, messageType, clientId, ⟨reserved, h⟩, headerLength, payloadLength⟩)
    else .error ⟨input, .eof⟩

def parseBaseHeader (input : List UInt8) : Except ProtocolError BaseHeader :=
  match parseBaseHeaderNom input with
  | .ok (_, baseHeader) => .ok baseHeader
  | .error e => .error (.parseError ("Failed to parse base header: " ++ e.display))

def BaseHeader.encode (h : BaseHeader) : List UInt8 :=
  h.version :: h.messageType.toU8 :: (BigEndian.write 4 h.clientId.toNat ++ (h.reserved.val ++
    (BigEndian.write 4 h.headerLength.toNat ++ BigEndian.write 8 h.payloadLength.toNat)))

@[simp] theorem BaseHeader.encode_length (h : BaseHeader) : h.encode.length = baseHeaderSize := by
  simp [encode, baseHeaderSize, reservedSize]

theorem parseBaseHeaderNom_eq_ok {input rest : List UInt8} {h : BaseHeader} :
    parseBaseHeaderNom input = .ok (rest, h) ↔
      h.version = protocolVersion ∧ input = h.encode ++ rest := by
  unfold parseBaseHeaderNom
  constructor
  · intro hParse
    obtain ⟨⟨input₁, version⟩, hVersion, hParse₁⟩ := bind_eq_ok.mp hParse
    obtain ⟨⟨input₂, messageTypeU8⟩, hType, hParse₂⟩ := bind_eq_ok.mp hParse₁
    obtain ⟨⟨input₃, clientId⟩, hClient, hParse₃⟩ := bind_eq_ok.mp hParse₂
    obtain ⟨⟨input₄, reserved⟩, hReserved, hParse₄⟩ := bind_eq_ok.mp hParse₃
    obtain ⟨⟨input₅, headerLength⟩, hHeader, hParse₅⟩ := bind_eq_ok.mp hParse₄
    obtain ⟨⟨input₆, payloadLength⟩, hPayload, hBuild⟩ := bind_eq_ok.mp hParse₅
    obtain ⟨hVersion, hSupported⟩ := Nom.verify_eq_ok.mp hVersion
    obtain rfl := Nom.beU8_eq_ok.mp hVersion
    obtain rfl := Nom.beU8_eq_ok.mp hType
    obtain rfl := Nom.beU32_eq_ok.mp hClient
    obtain ⟨hLength, rfl⟩ := Nom.take_eq_ok.mp hReserved
    obtain rfl := Nom.beU32_eq_ok.mp hHeader
    obtain rfl := Nom.beU64_eq_ok.mp hPayload
    simp only [hLength] at hBuild
    split at hBuild
    · cases hBuild
    · rename_i messageType hMessageType
      cases hBuild
      rw [MessageType.fromU8_eq_some.mp hMessageType]
      exact ⟨by simpa using hSupported, by simp [BaseHeader.encode]⟩
  · rintro ⟨hVersion, rfl⟩
    obtain ⟨version, messageType, clientId, ⟨reserved, hReserved⟩, headerLength, payloadLength⟩ := h
    refine bind_eq_ok.mpr ⟨_, Nom.verify_eq_ok.mpr ⟨Nom.beU8_eq_ok.mpr rfl, by simpa using hVersion⟩, ?_⟩
    refine bind_eq_ok.mpr ⟨_, Nom.beU8_eq_ok.mpr rfl, ?_⟩
    refine bind_eq_ok.mpr ⟨_, Nom.beU32_eq_ok.mpr (List.append_assoc _ _ _), ?_⟩
    refine bind_eq_ok.mpr ⟨_, Nom.take_eq_ok.mpr ⟨hReserved, List.append_assoc _ _ _⟩, ?_⟩
    refine bind_eq_ok.mpr ⟨_, Nom.beU32_eq_ok.mpr (List.append_assoc _ _ _), ?_⟩
    refine bind_eq_ok.mpr ⟨_, Nom.beU64_eq_ok.mpr rfl, ?_⟩
    simp only [MessageType.fromU8_eq_some.mpr rfl, hReserved, dif_pos]
    rfl

theorem parseBaseHeader_eq_ok {input : List UInt8} {h : BaseHeader} :
    parseBaseHeader input = .ok h ↔
      h.version = protocolVersion ∧ ∃ rest, input = h.encode ++ rest := by
  unfold parseBaseHeader
  constructor
  · intro hParse
    split at hParse
    · rename_i rest header hNom
      cases hParse
      obtain ⟨hVersion, hInput⟩ := parseBaseHeaderNom_eq_ok.mp hNom
      exact ⟨hVersion, rest, hInput⟩
    · cases hParse
  · rintro ⟨hVersion, rest, hInput⟩
    rw [parseBaseHeaderNom_eq_ok.mpr ⟨hVersion, hInput⟩]

theorem parseBaseHeader_encode {h : BaseHeader} (hVersion : h.version = protocolVersion)
    (rest : List UInt8) : parseBaseHeader (h.encode ++ rest) = .ok h :=
  parseBaseHeader_eq_ok.mpr ⟨hVersion, rest, rfl⟩

theorem BaseHeader.encode_append_inj {h h' : BaseHeader} {rest rest' : List UInt8}
    (hVersion : h.version = protocolVersion) (hVersion' : h'.version = protocolVersion)
    (hEq : h.encode ++ rest = h'.encode ++ rest') : h = h' ∧ rest = rest' := by
  have hRead : parseBaseHeaderNom (h.encode ++ rest) = .ok (rest, h) :=
    parseBaseHeaderNom_eq_ok.mpr ⟨hVersion, rfl⟩
  rw [hEq, parseBaseHeaderNom_eq_ok.mpr ⟨hVersion', rfl⟩] at hRead
  cases hRead
  exact ⟨rfl, rfl⟩

theorem parseBaseHeader_take {input : List UInt8} {h : BaseHeader} :
    parseBaseHeader (input.take baseHeaderSize) = .ok h ↔ parseBaseHeader input = .ok h := by
  rw [parseBaseHeader_eq_ok, parseBaseHeader_eq_ok]
  apply and_congr_right
  intro _
  constructor
  · rintro ⟨rest, hTake⟩
    refine ⟨rest ++ input.drop baseHeaderSize, ?_⟩
    rw [← List.append_assoc, ← hTake, List.take_append_drop]
  · rintro ⟨rest, rfl⟩
    exact ⟨[], by rw [List.append_nil, List.take_left' h.encode_length]⟩

theorem parseBaseHeader_length {input : List UInt8} {h : BaseHeader}
    (hParse : parseBaseHeader input = .ok h) : baseHeaderSize ≤ input.length := by
  obtain ⟨_, rest, rfl⟩ := parseBaseHeader_eq_ok.mp hParse
  simp

end Fleximq.Protocol
