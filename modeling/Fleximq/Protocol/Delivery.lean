import Fleximq.Protocol.Streaming

/-! # What a decoder delivers

A delivered message is one that `Message::from_bytes` accepts and whose base
header passes the limits, and such bytes alone are delivered again. The messages
of a run consist of the bytes at the front of the stream.
-/
namespace Fleximq.Protocol
open Foundation
open Foundation.Incremental (Outcome Decoder)

/-- The message is accepted by `from_bytes` and passes the limits of the parser. -/
structure Message.Accepted (maxMessageSize maxHeaderSize : Usize) (m : Message) : Prop where
  fromBytes : Message.fromBytes m.rawData = .ok m
  permits : MessageParser.Permits maxMessageSize maxHeaderSize m.baseHeader

variable {maxMessageSize maxHeaderSize : Usize}

theorem Message.Accepted.length_le {m : Message} (h : m.Accepted maxMessageSize maxHeaderSize) :
    m.rawBytes.length ≤ maxMessageSize.toNat := by
  obtain ⟨_, _, hLength⟩ := Message.fromBytes_eq_ok.mp h.fromBytes
  rw [rawBytes, hLength]
  exact UInt64.le_iff_toNat_le.mp h.permits.total_le

theorem MessageParser.verdict_take_rawBytes {input : List UInt8} {m : Message} {n : Nat}
    (h : verdict maxMessageSize maxHeaderSize input = .deliver m n) : m.rawBytes = input.take n := by
  obtain ⟨_, _, _, _, _, _, rfl⟩ := verdict_eq_deliver.mp h
  rfl

theorem MessageParser.accepted_of_deliver {input : List UInt8} {m : Message} {n : Nat}
    (h : verdict maxMessageSize maxHeaderSize input = .deliver m n) :
    m.Accepted maxMessageSize maxHeaderSize := by
  obtain ⟨baseHeader, hParse, hPermits, rfl, hLong, hComplete, rfl⟩ := verdict_eq_deliver.mp h
  refine ⟨?_, hPermits⟩
  change Message.fromBytes (input.take baseHeader.totalMessageSize.toNat) = _
  rw [fromBytes_take hParse hComplete, if_neg (Nat.not_lt.mpr hLong)]

theorem Message.Accepted.delivers {m : Message} (h : m.Accepted maxMessageSize maxHeaderSize) :
    (MessageParser.decoder maxMessageSize maxHeaderSize).Delivers m.rawBytes m := by
  obtain ⟨hParse, _, hLength⟩ := Message.fromBytes_eq_ok.mp h.fromBytes
  apply MessageParser.verdict_eq_deliver.mpr
  refine ⟨m.baseHeader, hParse, h.permits, hLength, parseBaseHeader_length hParse, Nat.le_refl _, ?_⟩
  rw [List.take_length]
  rfl

namespace FrameDecoder

theorem runChunk_stop_limits {d d' : FrameDecoder} {chunk : List UInt8}
    (h : (d.runChunk chunk).stop = .ok d') : ∃ rest, d' = d.withBuffer rest := by
  by_cases hAdmits : d.Admits chunk
  · rw [runChunk_of_admits hAdmits] at h
    obtain ⟨rest, _, rfl⟩ := map_eq_ok.mp h
    exact ⟨rest, rfl⟩
  · obtain ⟨size, max, hFailed⟩ := runChunk_of_not_admits hAdmits
    rw [hFailed] at h
    cases h

/-- Whatever is delivered, also before an error, is accepted. -/
theorem run_accepted {d : FrameDecoder} {chunks : List (List UInt8)} :
    ∀ m ∈ (d.run chunks).messages, m.Accepted d.parser.maxMessageSize d.parser.maxHeaderSize := by
  induction chunks generalizing d with
  | nil =>
    intro m hMem
    cases hMem
  | cons chunk chunks ih =>
    intro m hMem
    rcases Outcome.mem_andThen.mp hMem with hChunk | ⟨d', hStop, hLater⟩
    · by_cases hAdmits : d.Admits chunk
      · rw [runChunk_of_admits hAdmits] at hChunk
        exact Decoder.drain_messages_forall MessageParser.accepted_of_deliver _ m hChunk
      · obtain ⟨size, max, hFailed⟩ := runChunk_of_not_admits hAdmits
        rw [hFailed] at hChunk
        cases hChunk
    · obtain ⟨rest, rfl⟩ := runChunk_stop_limits hStop
      exact @ih (d.withBuffer rest) m hLater

/-- What is delivered is the front of what was buffered and received. -/
theorem run_messages_isPrefix {d : FrameDecoder} {chunks : List (List UInt8)} :
    (d.run chunks).messages.flatMap Message.rawBytes <+: d.parser.buffer ++ chunks.flatten := by
  induction chunks generalizing d with
  | nil => exact List.nil_prefix
  | cons chunk chunks ih =>
    rw [run, List.flatten_cons, ← List.append_assoc]
    by_cases hAdmits : d.Admits chunk
    · have hTake {input : List UInt8} {m : Message} {n : Nat}
          (h : d.bytes.verdict input = .deliver m n) : m.rawBytes = input.take n :=
        MessageParser.verdict_take_rawBytes h
      rw [runChunk_of_admits hAdmits, Outcome.map_andThen, Outcome.andThen]
      split
      next rest hStop =>
        have hWhole : d.parser.buffer ++ chunk ++ chunks.flatten =
            (d.bytes.drain (d.parser.buffer ++ chunk)).messages.flatMap Message.rawBytes ++
              (rest ++ chunks.flatten) := by
          rw [← List.append_assoc, Decoder.drain_consumed hTake hStop]
        rw [hWhole, Outcome.prepend, List.flatMap_append]
        exact (List.prefix_append_right_inj _).mpr (@ih (d.withBuffer rest))
      next e hStop =>
        exact (Decoder.drain_messages_isPrefix hTake _).trans (List.prefix_append _ _)
    · obtain ⟨size, max, hFailed⟩ := runChunk_of_not_admits hAdmits
      rw [hFailed]
      exact List.nil_prefix

end FrameDecoder

/-! ## Decoders with given limits -/

structure Limits where
  maxMessageSize : Usize
  maxHeaderSize : Usize

def Limits.codec (limits : Limits) : MessageCodec :=
  .withLimits limits.maxMessageSize limits.maxHeaderSize

def Limits.Fresh (limits : Limits) (d : FrameDecoder) : Prop :=
  d = MessageDecoder.withLimits limits.maxMessageSize limits.maxHeaderSize ∨
    d = MessageCodec.withLimits limits.maxMessageSize limits.maxHeaderSize

theorem Limits.Fresh.eq_codec {limits : Limits} {d : FrameDecoder} (h : limits.Fresh d) :
    d = limits.codec := h.elim id id

def Message.Fits (m : Message) (limits : Limits) : Prop :=
  m.Accepted limits.maxMessageSize limits.maxHeaderSize

end Fleximq.Protocol
