import Fleximq.Protocol.FrameRoundTrip
import Fleximq.Protocol.Parser

/-! # The codecs

`MessageCodec` and `MessageDecoder` have the same fields and the same `decode`,
`MessageCodec` and `MessageEncoder` the same two `encode`s. A result is returned
beside the state and the buffer that the call leaves behind.
-/
namespace Fleximq.Protocol
open Foundation
open Foundation.Incremental (Outcome Decoder)

/-! ## Decoding -/

structure FrameDecoder where
  parser : MessageParser
  maxFrameSize : Usize
  deriving DecidableEq

namespace FrameDecoder

def withLimits (maxMessageSize maxHeaderSize : Usize) : FrameDecoder :=
  ⟨.withLimits maxMessageSize maxHeaderSize, maxMessageSize⟩

/-- The state, the rest of `src` and the result. -/
def decode (d : FrameDecoder) (src : List UInt8) :
    FrameDecoder × List UInt8 × Except ProtocolError (Option Message) :=
  if src.length > d.maxFrameSize.toNat then
    (d, src, .error (.messageTooLarge src.length d.maxFrameSize.toNat))
  else if !src.isEmpty then
    match d.parser.pushData src with
    | .error e => (d, src, .error e)
    | .ok parser =>
      let (parser, result) := parser.tryParse
      ({ d with parser := parser }, [], result)
  else
    let (parser, result) := d.parser.tryParse
    ({ d with parser := parser }, src, result)

end FrameDecoder

abbrev MessageCodec := FrameDecoder
abbrev MessageDecoder := FrameDecoder

def MessageCodec.withLimits (maxMessageSize maxHeaderSize : Usize) : MessageCodec :=
  FrameDecoder.withLimits maxMessageSize maxHeaderSize

def MessageCodec.new : MessageCodec := ⟨.new, defaultMaxMessageSize⟩

def MessageCodec.decode (c : MessageCodec) (src : List UInt8) :
    MessageCodec × List UInt8 × Except ProtocolError (Option Message) := FrameDecoder.decode c src

def MessageDecoder.withLimits (maxMessageSize maxHeaderSize : Usize) : MessageDecoder :=
  FrameDecoder.withLimits maxMessageSize maxHeaderSize

def MessageDecoder.new : MessageDecoder := ⟨.new, defaultMaxMessageSize⟩

def MessageDecoder.decode (d : MessageDecoder) (src : List UInt8) :
    MessageDecoder × List UInt8 × Except ProtocolError (Option Message) := FrameDecoder.decode d src

/-! ## Encoding -/

/-- The size check of the encoders and the write; `dst` is returned beside the result. -/
def putFrame (maxFrameSize : Usize) (bytes dst : List UInt8) : List UInt8 × Except ProtocolError Unit :=
  if bytes.length > maxFrameSize.toNat then
    (dst, .error (.messageTooLarge bytes.length maxFrameSize.toNat))
  else (dst ++ bytes, .ok ())

def encodeRaw (rmp : Rmp) (maxFrameSize : Usize) (item : RawMessage) (dst : List UInt8) :
    List UInt8 × Except ProtocolError Unit :=
  match item.toBytes rmp with
  | .error e => (dst, .error e)
  | .ok bytes => putFrame maxFrameSize bytes dst

def encodeMessage (maxFrameSize : Usize) (item : Message) (dst : List UInt8) :
    List UInt8 × Except ProtocolError Unit := putFrame maxFrameSize item.rawBytes dst

def MessageCodec.encode (rmp : Rmp) (c : MessageCodec) (item : RawMessage) (dst : List UInt8) :
    List UInt8 × Except ProtocolError Unit := encodeRaw rmp c.maxFrameSize item dst

def MessageCodec.encodeMessage (c : MessageCodec) (item : Message) (dst : List UInt8) :
    List UInt8 × Except ProtocolError Unit := Protocol.encodeMessage c.maxFrameSize item dst

structure MessageEncoder where
  maxFrameSize : Usize
  deriving DecidableEq

def MessageEncoder.encode (rmp : Rmp) (e : MessageEncoder) (item : RawMessage) (dst : List UInt8) :
    List UInt8 × Except ProtocolError Unit := encodeRaw rmp e.maxFrameSize item dst

def MessageEncoder.encodeMessage (e : MessageEncoder) (item : Message) (dst : List UInt8) :
    List UInt8 × Except ProtocolError Unit := Protocol.encodeMessage e.maxFrameSize item dst

/-! ## One call -/

namespace FrameDecoder

/-- Neither the check of `src` nor `push_data` rejects the chunk. -/
def Admits (d : FrameDecoder) (src : List UInt8) : Prop :=
  src.length ≤ d.maxFrameSize.toNat ∧
    (src = [] ∨ d.parser.buffer.length + src.length ≤ d.parser.maxMessageSize.toNat)

def withBuffer (d : FrameDecoder) (buffer : List UInt8) : FrameDecoder :=
  { d with parser := { d.parser with buffer := buffer } }

theorem decode_of_admits {d : FrameDecoder} {src : List UInt8} (h : d.Admits src) :
    d.decode src =
      ({ d with parser := (d.withBuffer (d.parser.buffer ++ src)).parser.tryParse.1 }, [],
        (d.withBuffer (d.parser.buffer ++ src)).parser.tryParse.2) := by
  obtain ⟨hFrame, hBuffer⟩ := h
  rw [decode, if_neg (Nat.not_lt.mpr hFrame)]
  cases src with
  | nil => simp [withBuffer]
  | cons byte src =>
    rcases hBuffer with hNil | hBuffer
    · cases hNil
    · rw [MessageParser.pushData, if_neg (Nat.not_lt.mpr hBuffer)]
      rfl

theorem decode_of_not_admits {d : FrameDecoder} {src : List UInt8} (h : ¬ d.Admits src) :
    ∃ size max, d.decode src = (d, src, .error (.messageTooLarge size max)) := by
  rw [decode]
  split
  · exact ⟨_, _, rfl⟩
  · rename_i hFrame
    cases src with
    | nil => exact absurd ⟨Nat.zero_le _, .inl rfl⟩ h
    | cons byte src =>
      have hBuffer : d.parser.buffer.length + (byte :: src).length > d.parser.maxMessageSize.toNat := by
        by_contra hFits
        exact h ⟨Nat.not_lt.mp hFrame, .inr (Nat.not_lt.mp hFits)⟩
      rw [MessageParser.pushData, if_pos hBuffer]
      exact ⟨_, _, rfl⟩

abbrev bytes (d : FrameDecoder) : Decoder UInt8 ProtocolError Message :=
  MessageParser.decoder d.parser.maxMessageSize d.parser.maxHeaderSize

section
variable {d : FrameDecoder} {src : List UInt8} (hAdmits : d.Admits src)
include hAdmits

theorem decode_wait (hWait : d.bytes.verdict (d.parser.buffer ++ src) = .wait) :
    d.decode src = (d.withBuffer (d.parser.buffer ++ src), [], .ok none) := by
  rw [decode_of_admits hAdmits, MessageParser.tryParse_wait (d.withBuffer _).parser hWait]
  rfl

theorem decode_deliver {m : Message} {n : Nat}
    (hDeliver : d.bytes.verdict (d.parser.buffer ++ src) = .deliver m n) :
    d.decode src = (d.withBuffer ((d.parser.buffer ++ src).drop n), [], .ok (some m)) := by
  rw [decode_of_admits hAdmits, MessageParser.tryParse_deliver (d.withBuffer _).parser hDeliver]
  rfl

theorem decode_fail {e : ProtocolError} (hFail : d.bytes.verdict (d.parser.buffer ++ src) = .fail e) :
    ∃ d', d.decode src = (d', [], .error e) := by
  rw [decode_of_admits hAdmits, MessageParser.tryParse_fail (d.withBuffer _).parser hFail]
  exact ⟨_, rfl⟩

theorem deliver_of_decode {d' : FrameDecoder} {src' : List UInt8} {m : Message}
    (hDecode : d.decode src = (d', src', .ok (some m))) :
    ∃ n, d.bytes.verdict (d.parser.buffer ++ src) = .deliver m n := by
  cases hVerdict : d.bytes.verdict (d.parser.buffer ++ src) with
  | wait =>
    rw [decode_wait hAdmits hVerdict] at hDecode
    cases hDecode
  | deliver m' n =>
    rw [decode_deliver hAdmits hVerdict] at hDecode
    cases hDecode
    exact ⟨n, rfl⟩
  | fail e =>
    obtain ⟨_, hFail⟩ := decode_fail hAdmits hVerdict
    rw [hFail] at hDecode
    cases hDecode

end

end FrameDecoder
end Fleximq.Protocol
