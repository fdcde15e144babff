import Mathlib.Data.List.Chain
import Fleximq.Protocol.Delivery

/-! # Forwarding

A received message is encoded as the bytes it arrived in. A decoder whose limits
are no narrower delivers it again, so a chain of hops with limits that do not
shrink hands on what the first decoder delivered.
-/
namespace Fleximq.Protocol
open Foundation
open Foundation.Incremental (Outcome Decoder)

/-- The limits are no narrower, and the header limit fits the field it is compared with. -/
structure Limits.Widens (limits wider : Limits) : Prop where
  message_le : limits.maxMessageSize ≤ wider.maxMessageSize
  header_le : limits.maxHeaderSize ≤ wider.maxHeaderSize
  header_lt : wider.maxHeaderSize.toNat < 2 ^ 32

/-- The hop encodes each message on its own and its receiver decodes frame by frame. -/
def Limits.hop (limits : Limits) (messages : List Message) : Except ProtocolError (List Message) := do
  let frames ← messages.mapM fun m =>
    match limits.codec.encodeMessage m [] with
    | (bytes, .ok ()) => .ok bytes
    | (_, .error e) => .error e
  match limits.codec.run frames with
  | ⟨delivered, .ok _⟩ => .ok delivered
  | ⟨_, .error e⟩ => .error e

def relay (hops : List Limits) (messages : List Message) : Except ProtocolError (List Message) :=
  hops.foldlM (fun messages limits => limits.hop messages) messages

/-! ## One hop -/

theorem Message.Fits.widen {m : Message} {limits wider : Limits} (h : m.Fits limits)
    (hWidens : limits.Widens wider) : m.Fits wider := by
  refine ⟨h.fromBytes, ⟨?_, UInt64.le_trans h.permits.total_le hWidens.message_le⟩⟩
  have hHeader := UInt32.le_iff_toNat_le.mp h.permits.header_le
  have hWider := UInt64.le_iff_toNat_le.mp hWidens.header_le
  have hNarrow := Nat.lt_of_le_of_lt hWider hWidens.header_lt
  apply UInt32.le_iff_toNat_le.mpr
  rw [UInt64.toNat_toUInt32, Nat.mod_eq_of_lt hNarrow] at hHeader
  rw [UInt64.toNat_toUInt32, Nat.mod_eq_of_lt hWidens.header_lt]
  exact Nat.le_trans hHeader hWider

/-- Whatever the codec has buffered, it encodes the message as the bytes it arrived in. -/
theorem Message.Fits.encodeMessage {m : Message} {limits : Limits} (h : m.Fits limits)
    (buffer dst : List UInt8) :
    MessageCodec.encodeMessage (limits.codec.withBuffer buffer) m dst = (dst ++ m.rawBytes, .ok ()) := by
  change putFrame limits.maxMessageSize m.rawBytes dst = _
  rw [putFrame, if_neg (Nat.not_lt.mpr h.length_le)]

theorem Message.Fits.admits {m : Message} {limits : Limits} (h : m.Fits limits) :
    FrameDecoder.Admits limits.codec m.rawBytes := by
  refine ⟨h.length_le, .inr ?_⟩
  change 0 + m.rawBytes.length ≤ limits.maxMessageSize.toNat
  rw [Nat.zero_add]
  exact h.length_le

theorem Message.Fits.decode {m : Message} {limits : Limits} (h : m.Fits limits) :
    FrameDecoder.decode limits.codec m.rawBytes = (limits.codec, [], .ok (some m)) := by
  rw [FrameDecoder.decode_deliver h.admits h.delivers]
  change (FrameDecoder.withBuffer _ (m.rawBytes.drop m.rawBytes.length), _, _) = _
  rw [List.drop_length]
  rfl

theorem Message.Fits.runChunk {m : Message} {limits : Limits} (h : m.Fits limits) :
    FrameDecoder.runChunk limits.codec m.rawBytes = ⟨[m], .ok limits.codec⟩ := by
  have hNil : (MessageParser.decoder limits.maxMessageSize limits.maxHeaderSize).drain [] = .idle [] :=
    Decoder.drain_wait (MessageParser.verdict_nil limits.maxMessageSize limits.maxHeaderSize)
  have hDrain := Decoder.drain_delivers h.delivers []
  rw [List.append_nil, hNil] at hDrain
  rw [FrameDecoder.runChunk_of_admits h.admits]
  change Outcome.map _ (Decoder.drain
    (MessageParser.decoder limits.maxMessageSize limits.maxHeaderSize) m.rawBytes) = _
  rw [hDrain]
  rfl

theorem Limits.run_rawBytes {limits : Limits} {messages : List Message}
    (h : ∀ m ∈ messages, m.Fits limits) :
    FrameDecoder.run limits.codec (messages.map Message.rawBytes) = ⟨messages, .ok limits.codec⟩ := by
  induction messages with
  | nil => rfl
  | cons m messages ih =>
    rw [List.map_cons, FrameDecoder.run, (h m List.mem_cons_self).runChunk]
    change Outcome.prepend [m] (FrameDecoder.run limits.codec _) = _
    rw [ih fun other hOther => h other (List.mem_cons_of_mem m hOther)]
    rfl

theorem Limits.hop_eq_ok {limits : Limits} {messages : List Message}
    (h : ∀ m ∈ messages, m.Fits limits) : limits.hop messages = .ok messages := by
  have hFrames : (messages.mapM fun m =>
      match limits.codec.encodeMessage m [] with
      | (bytes, .ok ()) => Except.ok bytes
      | (_, .error e) => .error e) = .ok (messages.map Message.rawBytes) := by
    apply mapM_eq_ok
    intro m hMem
    have hEncode : limits.codec.encodeMessage m [] = ([] ++ m.rawBytes, .ok ()) :=
      (h m hMem).encodeMessage [] []
    rw [hEncode, List.nil_append]
  refine bind_eq_ok.mpr ⟨_, hFrames, ?_⟩
  rw [Limits.run_rawBytes h]

/-! ## A chain of hops -/

theorem relay_eq_ok {limits : Limits} {hops : List Limits} {messages : List Message}
    (hChain : (limits :: hops).IsChain Limits.Widens) (h : ∀ m ∈ messages, m.Fits limits) :
    relay hops messages = .ok messages := by
  induction hops generalizing limits with
  | nil => rfl
  | cons wider hops ih =>
    obtain ⟨hWidens, hRest⟩ := List.isChain_cons_cons.mp hChain
    have hWider : ∀ m ∈ messages, m.Fits wider := fun m hMem => (h m hMem).widen hWidens
    rw [relay, List.foldlM_cons, Limits.hop_eq_ok hWider]
    exact ih hRest hWider

/-- The messages that a decoder delivers from any stream are the bytes at its front, cut up. Each
is encoded as those bytes by any codec with wider limits, is delivered from them alone, and goes
unchanged through any chain of hops with limits that do not shrink. -/
theorem forward_lossless {limits : Limits} {d : FrameDecoder} (hFresh : limits.Fresh d)
    (chunks : List (List UInt8)) :
    (d.run chunks).messages.flatMap Message.rawBytes <+: chunks.flatten ∧
      (∀ m ∈ (d.run chunks).messages, ∀ wider, limits.Widens wider →
        (∀ buffer dst, MessageCodec.encodeMessage (wider.codec.withBuffer buffer) m dst =
            (dst ++ m.rawBytes, .ok ())) ∧
          ∀ next, wider.Fresh next →
            next.decode m.rawBytes = (next, [], .ok (some m)) ∧ next.parser.buffer = []) ∧
      ∀ hops : List Limits, (limits :: hops).IsChain Limits.Widens →
        relay hops (d.run chunks).messages = .ok (d.run chunks).messages := by
  obtain rfl := hFresh.eq_codec
  have hFits : ∀ m ∈ (FrameDecoder.run _ chunks).messages, m.Fits limits :=
    @FrameDecoder.run_accepted limits.codec chunks
  refine ⟨FrameDecoder.run_messages_isPrefix, ?_, ?_⟩
  · intro m hMem wider hWidens
    have hWider := (hFits m hMem).widen hWidens
    refine ⟨hWider.encodeMessage, ?_⟩
    intro next hNext
    obtain rfl := hNext.eq_codec
    exact ⟨hWider.decode, rfl⟩
  · intro hops hChain
    exact relay_eq_ok hChain hFits

/-- A publication that arrives in two chunks goes through a hop with wider limits. -/
theorem forward_newsFrame :
    relay [⟨4096, 1024⟩] (FrameDecoder.run (MessageDecoder.withLimits 1024 64)
      [newsFrame.bytes.take 10, newsFrame.bytes.drop 10]).messages =
        .ok (FrameDecoder.run (MessageDecoder.withLimits 1024 64)
          [newsFrame.bytes.take 10, newsFrame.bytes.drop 10]).messages :=
  (@forward_lossless ⟨1024, 64⟩ _ (.inl rfl) [newsFrame.bytes.take 10, newsFrame.bytes.drop 10]).2.2
    [⟨4096, 1024⟩] (List.isChain_pair.mpr ⟨by decide, by decide, by decide⟩)

end Fleximq.Protocol
