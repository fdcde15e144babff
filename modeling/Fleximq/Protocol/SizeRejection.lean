import Fleximq.Protocol.Streaming

/-! # Which cuts of a stream of frames are rejected

The message limit is also applied to each chunk together with what is still
buffered, the beginning of an unfinished frame. A cut is accepted exactly when
these sums stay within the limit.
-/
namespace Fleximq.Protocol
open Foundation
open Foundation.Incremental (Outcome Decoder)
open Foundation.Incremental.Decoder (pending pending_le)

/-- Each chunk, together with the part of an unfinished frame that arrived before it, is within
the limit; `received` bytes have arrived before the first chunk. -/
def ChunksFit (limit : Nat) (sizes : List Nat) : Nat → List (List UInt8) → Prop
  | _, [] => True
  | received, chunk :: chunks =>
    pending sizes received + chunk.length ≤ limit ∧
      ChunksFit limit sizes (received + chunk.length) chunks

/-- All frames are delivered and no error is returned; an error for the size of a message names a
frame that exceeds the limit. -/
def NoSpuriousRejection (d : FrameDecoder) (frames : List Frame) (chunks : List (List UInt8)) : Prop :=
  d.run chunks = ⟨frames.map Frame.message, .ok d⟩ ∧
    ∀ size max, (d.run chunks).stop = .error (.messageTooLarge size max) →
      ∃ f ∈ frames, d.maxFrameSize.toNat < f.size

section
variable {d : FrameDecoder} {frames : List Frame}
  (hFrameSize : d.maxFrameSize = d.parser.maxMessageSize)
  (hLimit : d.parser.maxHeaderSize.toNat < 2 ^ 32)
  (hWithin : ∀ f ∈ frames, f.Within d.parser.maxMessageSize d.parser.maxHeaderSize)
include hFrameSize hLimit hWithin

omit hLimit in
theorem admits_iff {rest chunk : List UInt8} {received : Nat}
    (hRest : rest.length = pending (frames.map Frame.size) received) :
    (d.withBuffer rest).Admits chunk ↔
      pending (frames.map Frame.size) received + chunk.length ≤ d.parser.maxMessageSize.toNat := by
  have hPending : rest.length ≤ d.parser.maxMessageSize.toNat := by
    rw [hRest]
    apply pending_le
    intro size hSize
    obtain ⟨f, hf, rfl⟩ := List.mem_map.mp hSize
    exact (hWithin f hf).size_le
  rw [FrameDecoder.Admits, ← hRest]
  change chunk.length ≤ d.maxFrameSize.toNat ∧
    (chunk = [] ∨ rest.length + chunk.length ≤ d.parser.maxMessageSize.toNat) ↔ _
  rw [hFrameSize]
  constructor
  · rintro ⟨_, rfl | hFits⟩
    · exact hPending
    · exact hFits
  · intro hFits
    exact ⟨by omega, .inr hFits⟩

theorem admitsAll_iff {rest : List UInt8} {received : Nat} {chunks : List (List UInt8)}
    (hStream : (frames.flatMap Frame.bytes).drop received = chunks.flatten)
    (hStop : (d.bytes.drain ((frames.flatMap Frame.bytes).take received)).stop = .ok rest)
    (hRest : rest.length = pending (frames.map Frame.size) received) :
    (d.withBuffer rest).AdmitsAll chunks ↔
      ChunksFit d.parser.maxMessageSize.toNat (frames.map Frame.size) received chunks := by
  have hDelivers : ∀ f ∈ frames, d.bytes.Delivers f.bytes f.message :=
    fun f hf => MessageParser.delivers_of_within hLimit (hWithin f hf)
  induction chunks generalizing rest received with
  | nil => exact Iff.rfl
  | cons chunk chunks ih =>
    rw [FrameDecoder.AdmitsAll, ChunksFit, admits_iff hFrameSize hWithin hRest]
    apply and_congr_right
    intro hFits
    have hChunk := (admits_iff hFrameSize hWithin hRest).mpr hFits
    rw [List.flatten_cons] at hStream
    have hTake : (frames.flatMap Frame.bytes).take (received + chunk.length) =
        (frames.flatMap Frame.bytes).take received ++ chunk := by
      rw [List.take_add, hStream, List.take_left]
    have hDrop : (frames.flatMap Frame.bytes).drop (received + chunk.length) = chunks.flatten := by
      rw [← List.drop_drop, hStream, List.drop_left]
    obtain ⟨delivered, rest', hDrain, hRest'⟩ :=
      Decoder.drain_take d.bytes_nil hDelivers (received + chunk.length)
    have hStop' : (d.bytes.drain (rest ++ chunk)).stop = .ok rest' := by
      rw [hTake, Decoder.drain_append, Outcome.andThen, hStop] at hDrain
      exact congrArg Outcome.stop hDrain
    have hSizes : (frames.map fun f => f.bytes.length) = frames.map Frame.size :=
      List.map_congr_left fun f _ => f.bytes_length
    rw [hSizes] at hRest'
    have hNext : ((d.withBuffer rest).runChunk chunk).stop = .ok (d.withBuffer rest') := by
      rw [FrameDecoder.runChunk_of_admits hChunk]
      exact map_eq_ok.mpr ⟨rest', hStop', rfl⟩
    refine Iff.trans ?_ (ih hDrop (congrArg Outcome.stop hDrain) hRest')
    constructor
    · intro hAll
      exact hAll _ hNext
    · intro hAll d' hd'
      rw [hNext] at hd'
      cases hd'
      exact hAll

end

/-- A stream of frames within the limits is delivered without an error exactly when every chunk
fits together with the unfinished frame before it. -/
theorem noSpuriousRejection_iff {maxMessageSize maxHeaderSize : Usize} {d : FrameDecoder}
    (hFresh : d = MessageDecoder.withLimits maxMessageSize maxHeaderSize ∨
      d = MessageCodec.withLimits maxMessageSize maxHeaderSize)
    (hLimit : maxHeaderSize.toNat < 2 ^ 32) {frames : List Frame}
    (hWithin : ∀ f ∈ frames, f.Within maxMessageSize maxHeaderSize) {chunks : List (List UInt8)}
    (hStream : chunks.flatten = frames.flatMap Frame.bytes) :
    NoSpuriousRejection d frames chunks ↔
      ChunksFit maxMessageSize.toNat (frames.map Frame.size) 0 chunks := by
  obtain rfl : d = FrameDecoder.withLimits maxMessageSize maxHeaderSize := hFresh.elim id id
  have hNil : ((FrameDecoder.withLimits maxMessageSize maxHeaderSize).bytes.drain
      ((frames.flatMap Frame.bytes).take 0)).stop = .ok [] := by
    rw [List.take_zero, Decoder.drain_wait (FrameDecoder.bytes_nil _)]
    rfl
  refine Iff.trans ?_ (@admitsAll_iff (.withLimits maxMessageSize maxHeaderSize) frames rfl hLimit hWithin
    [] 0 chunks hStream.symm hNil (Decoder.pending_zero _).symm)
  change _ ↔ (FrameDecoder.withLimits maxMessageSize maxHeaderSize).AdmitsAll chunks
  constructor
  · rintro ⟨hRun, _⟩
    by_contra hRejected
    obtain ⟨e, hStop⟩ := FrameDecoder.run_stop_of_not_admitsAll hRejected
    rw [hRun] at hStop
    cases hStop
  · intro hAdmits
    have hRun := FrameDecoder.run_frames rfl hLimit hWithin hStream hAdmits
    refine ⟨hRun, ?_⟩
    intro size max hStop
    rw [hRun] at hStop
    cases hStop

def emptyFrame (messageType : MessageType) (clientId : ClientId) : Frame where
  baseHeader := .new messageType clientId 0 0
  header := []
  payload := []
  version_eq := rfl
  header_length := rfl
  payload_length := rfl

def twoFrames : List Frame := [emptyFrame .broadcast 1000, emptyFrame .broadcast 1001]

theorem twoFrames_within : ∀ f ∈ twoFrames, f.Within 40 64 := by
  intro f hf
  rcases List.mem_cons.mp hf with rfl | hf
  · exact ⟨by decide, by decide⟩
  · obtain rfl := List.mem_singleton.mp hf
    exact ⟨by decide, by decide⟩

theorem twoFrames_one_by_one :
    NoSpuriousRejection (MessageDecoder.withLimits 40 64) twoFrames (twoFrames.map Frame.bytes) :=
  (@noSpuriousRejection_iff 40 64 _ (.inl rfl) (by decide) twoFrames twoFrames_within
    (twoFrames.map Frame.bytes) (by decide)).mpr ⟨by decide, by decide, trivial⟩

theorem twoFrames_together :
    (MessageDecoder.withLimits 40 64).run [twoFrames.flatMap Frame.bytes] =
        .failed (.messageTooLarge 68 40) ∧
      ¬ NoSpuriousRejection (MessageDecoder.withLimits 40 64) twoFrames [twoFrames.flatMap Frame.bytes] := by
  refine ⟨rfl, ?_⟩
  rintro ⟨hRun, _⟩
  cases hRun

end Fleximq.Protocol
