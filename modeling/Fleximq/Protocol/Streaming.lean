import Fleximq.Protocol.Codec

/-! # Runs of a decoder over chunks

A run gives each chunk to `decode` and calls `decode` with an empty `src` until
it has no more messages. As long as no chunk is rejected for its size, a run is a
run of the incremental decoder underneath, which does not depend on the chunks.
-/
namespace Fleximq.Protocol
open Foundation
open Foundation.Incremental (Outcome Decoder)

namespace FrameDecoder

theorem bytes_nil (d : FrameDecoder) : d.bytes.verdict [] = .wait :=
  MessageParser.verdict_nil d.parser.maxMessageSize d.parser.maxHeaderSize

theorem admits_nil (d : FrameDecoder) : d.Admits [] := ⟨Nat.zero_le _, .inl rfl⟩

theorem decode_nil_length {d d' : FrameDecoder} {src : List UInt8} {m : Message}
    (h : d.decode [] = (d', src, .ok (some m))) :
    d'.parser.buffer.length < d.parser.buffer.length := by
  obtain ⟨n, hDeliver⟩ := deliver_of_decode d.admits_nil h
  rw [decode_deliver d.admits_nil hDeliver] at h
  cases h
  rw [List.append_nil] at hDeliver ⊢
  have hProgress := d.bytes.progress hDeliver
  rw [withBuffer, List.length_drop]
  omega

/-- `decode` with an empty `src`, until it returns `Ok(None)` or `Err`. -/
def drain (d : FrameDecoder) : Outcome ProtocolError Message FrameDecoder :=
  match _h : d.decode [] with
  | (_, _, .error e) => .failed e
  | (d', _, .ok none) => .idle d'
  | (d', _, .ok (some m)) => (drain d').prepend [m]
termination_by d.parser.buffer.length
decreasing_by exact decode_nil_length _h

def runChunk (d : FrameDecoder) (chunk : List UInt8) : Outcome ProtocolError Message FrameDecoder :=
  match d.decode chunk with
  | (_, _, .error e) => .failed e
  | (d', _, .ok found) => d'.drain.prepend found.toList

def run (d : FrameDecoder) : List (List UInt8) → Outcome ProtocolError Message FrameDecoder
  | [] => .idle d
  | chunk :: chunks => (d.runChunk chunk).andThen fun d' => d'.run chunks

/-- No chunk of the run is rejected for its size. -/
def AdmitsAll (d : FrameDecoder) : List (List UInt8) → Prop
  | [] => True
  | chunk :: chunks =>
    d.Admits chunk ∧ ∀ d', (d.runChunk chunk).stop = .ok d' → d'.AdmitsAll chunks

/-! ## Runs as incremental decoding -/

theorem drain_eq (d : FrameDecoder) :
    d.drain =
      match d.decode [] with
      | (_, _, .error e) => .failed e
      | (d', _, .ok none) => .idle d'
      | (d', _, .ok (some m)) => d'.drain.prepend [m] := by
  rw [drain.eq_def]
  split <;> rename_i hDecode <;> rw [hDecode]

theorem drain_withBuffer (d : FrameDecoder) (buffer : List UInt8) :
    (d.withBuffer buffer).drain = (d.bytes.drain buffer).map d.withBuffer := by
  induction buffer using d.bytes.drain_induction with
  | wait buffer hWait =>
    have hDecode := decode_wait (d.withBuffer buffer).admits_nil (by
      rw [List.append_nil]
      exact hWait)
    rw [List.append_nil] at hDecode
    rw [drain_eq, hDecode, Decoder.drain_wait hWait]
    rfl
  | fail buffer e hFail =>
    obtain ⟨d', hDecode⟩ := decode_fail (d.withBuffer buffer).admits_nil (by
      rw [List.append_nil]
      exact hFail)
    rw [drain_eq, hDecode, Decoder.drain_fail hFail]
    rfl
  | deliver buffer m n hDeliver ih =>
    have hDecode := decode_deliver (d.withBuffer buffer).admits_nil (by
      rw [List.append_nil]
      exact hDeliver)
    rw [List.append_nil] at hDecode
    rw [drain_eq, hDecode, Decoder.drain_deliver hDeliver, Outcome.map_prepend, ← ih]
    rfl

theorem runChunk_of_admits {d : FrameDecoder} {chunk : List UInt8} (hAdmits : d.Admits chunk) :
    d.runChunk chunk = (d.bytes.drain (d.parser.buffer ++ chunk)).map d.withBuffer := by
  rw [runChunk]
  cases hVerdict : d.bytes.verdict (d.parser.buffer ++ chunk) with
  | wait =>
    rw [decode_wait hAdmits hVerdict]
    exact d.drain_withBuffer _
  | fail e =>
    obtain ⟨d', hDecode⟩ := decode_fail hAdmits hVerdict
    rw [hDecode, Decoder.drain_fail hVerdict]
    rfl
  | deliver m n =>
    rw [decode_deliver hAdmits hVerdict, Decoder.drain_deliver hVerdict, Outcome.map_prepend,
      ← d.drain_withBuffer]
    rfl

theorem runChunk_of_not_admits {d : FrameDecoder} {chunk : List UInt8} (h : ¬ d.Admits chunk) :
    ∃ size max, d.runChunk chunk = .failed (.messageTooLarge size max) := by
  obtain ⟨size, max, hDecode⟩ := decode_of_not_admits h
  refine ⟨size, max, ?_⟩
  rw [runChunk, hDecode]

theorem run_eq_feed {d : FrameDecoder} {chunks : List (List UInt8)} (hAdmits : d.AdmitsAll chunks) :
    d.run chunks = (d.bytes.feed d.parser.buffer chunks).map d.withBuffer := by
  induction chunks generalizing d with
  | nil => rfl
  | cons chunk chunks ih =>
    obtain ⟨hChunk, hChunks⟩ := hAdmits
    rw [run, Decoder.feed, runChunk_of_admits hChunk, Outcome.map_andThen, Outcome.andThen_map]
    apply Outcome.andThen_congr
    intro rest hStop
    apply ih
    apply hChunks
    rw [runChunk_of_admits hChunk, Outcome.map, hStop]
    rfl

theorem run_eq_drain {d : FrameDecoder} {chunks : List (List UInt8)} (hEmpty : d.parser.buffer = [])
    (hAdmits : d.AdmitsAll chunks) :
    d.run chunks = (d.bytes.drain chunks.flatten).map d.withBuffer := by
  rw [run_eq_feed hAdmits, hEmpty, Decoder.feed_eq_drain d.bytes_nil, List.nil_append]

theorem run_stop_of_not_admitsAll {d : FrameDecoder} {chunks : List (List UInt8)}
    (h : ¬ d.AdmitsAll chunks) : ∃ e, (d.run chunks).stop = .error e := by
  induction chunks generalizing d with
  | nil => exact absurd trivial h
  | cons chunk chunks ih =>
    rw [run]
    by_cases hChunk : d.Admits chunk
    · have hLater : ¬ ∀ d', (d.runChunk chunk).stop = .ok d' → d'.AdmitsAll chunks :=
        fun hAll => h ⟨hChunk, hAll⟩
      obtain ⟨d', hRest⟩ := not_forall.mp hLater
      obtain ⟨hStop, hRejected⟩ := Classical.not_imp.mp hRest
      obtain ⟨e, hError⟩ := ih hRejected
      exact ⟨e, by simp only [Outcome.andThen, hStop, Outcome.prepend, hError]⟩
    · obtain ⟨size, max, hFailed⟩ := runChunk_of_not_admits hChunk
      exact ⟨_, by rw [hFailed]; rfl⟩

theorem admitsAll_of_length {d : FrameDecoder} {chunks : List (List UInt8)}
    (hFrame : d.parser.buffer.length + chunks.flatten.length ≤ d.maxFrameSize.toNat)
    (hMessage : d.parser.buffer.length + chunks.flatten.length ≤ d.parser.maxMessageSize.toNat) :
    d.AdmitsAll chunks := by
  induction chunks generalizing d with
  | nil => trivial
  | cons chunk chunks ih =>
    rw [List.flatten_cons, List.length_append] at hFrame hMessage
    have hChunk : d.Admits chunk := ⟨by omega, .inr (by omega)⟩
    refine ⟨hChunk, ?_⟩
    intro d' hStop
    rw [runChunk_of_admits hChunk] at hStop
    obtain ⟨rest, hRest, rfl⟩ := map_eq_ok.mp hStop
    have hLength := (Decoder.drain_rest_suffix hRest).length_le
    rw [List.length_append] at hLength
    apply ih
    · change rest.length + _ ≤ d.maxFrameSize.toNat
      omega
    · change rest.length + _ ≤ d.parser.maxMessageSize.toNat
      omega

end FrameDecoder

/-! ## Independence of the chunks -/

theorem FrameDecoder.run_frames {d : FrameDecoder} {frames : List Frame} {chunks : List (List UInt8)}
    (hEmpty : d.parser.buffer = []) (hLimit : d.parser.maxHeaderSize.toNat < 2 ^ 32)
    (hWithin : ∀ f ∈ frames, f.Within d.parser.maxMessageSize d.parser.maxHeaderSize)
    (hStream : chunks.flatten = frames.flatMap Frame.bytes) (hAdmits : d.AdmitsAll chunks) :
    d.run chunks = ⟨frames.map Frame.message, .ok d⟩ := by
  have hDelivers : ∀ f ∈ frames, d.bytes.Delivers f.bytes f.message :=
    fun f hf => MessageParser.delivers_of_within hLimit (hWithin f hf)
  rw [run_eq_drain hEmpty hAdmits, hStream, Decoder.drain_flatMap d.bytes_nil hDelivers]
  change Outcome.mk _ (.ok (d.withBuffer [])) = _
  rw [← hEmpty]
  rfl

/-- However a stream is cut, a fresh decoder delivers the same messages and stops in the same way,
as long as it rejects no chunk; frames within the limits are all delivered. -/
theorem run_of_flatten_eq {maxMessageSize maxHeaderSize : Usize} {d : FrameDecoder}
    (hFresh : d = MessageDecoder.withLimits maxMessageSize maxHeaderSize ∨
      d = MessageCodec.withLimits maxMessageSize maxHeaderSize)
    {chunks chunks' : List (List UInt8)} (hSame : chunks.flatten = chunks'.flatten)
    (hAdmits : d.AdmitsAll chunks) (hAdmits' : d.AdmitsAll chunks') :
    d.run chunks = d.run chunks' ∧
      ∀ frames : List Frame, maxHeaderSize.toNat < 2 ^ 32 →
        (∀ f ∈ frames, f.Within maxMessageSize maxHeaderSize) →
        chunks.flatten = frames.flatMap Frame.bytes →
        d.run chunks = ⟨frames.map Frame.message, .ok d⟩ := by
  obtain rfl : d = FrameDecoder.withLimits maxMessageSize maxHeaderSize := hFresh.elim id id
  constructor
  · rw [FrameDecoder.run_eq_drain rfl hAdmits, FrameDecoder.run_eq_drain rfl hAdmits', hSame]
  · intro frames hLimit hWithin hStream
    exact FrameDecoder.run_frames rfl hLimit hWithin hStream hAdmits

theorem run_newsFrame :
    MessageDecoder.new.run [newsFrame.bytes.take 10, newsFrame.bytes.drop 10] =
      MessageDecoder.new.run [newsFrame.bytes] :=
  (@run_of_flatten_eq defaultMaxMessageSize defaultMaxHeaderSize MessageDecoder.new (.inl rfl)
    [newsFrame.bytes.take 10, newsFrame.bytes.drop 10] [newsFrame.bytes] (by decide)
    (FrameDecoder.admitsAll_of_length (by decide) (by decide))
    (FrameDecoder.admitsAll_of_length (by decide) (by decide))).1

end Fleximq.Protocol
