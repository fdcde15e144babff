import Fleximq.Protocol.Delivery

/-! # The end of a stream

At the end of the input `FramedRead` calls `decode_eof`, which takes an empty
`src` for the end of the last frame. The decoder has by then moved every byte to
its own buffer, so a frame that was cut short is not reported.
-/
namespace Fleximq.Protocol
open Foundation
open Foundation.Incremental (Outcome Decoder)

/-- `Decoder::decode_eof` of tokio_util: the state, the rest of `src` and the result. -/
abbrev DecodeEof :=
  FrameDecoder → List UInt8 → FrameDecoder × List UInt8 × Except ProtocolError (Option Message)

/-- The default method: what `decode` does, but `Ok(None)` is an error when something is left. -/
structure DecodeEof.Lawful (eof : DecodeEof) : Prop where
  remaining : ∀ {d d' : FrameDecoder} {src src' : List UInt8},
    d.decode src = (d', src', .ok none) → src' ≠ [] → ∃ e, eof d src = (d', src', .error e)
  otherwise : ∀ {d : FrameDecoder} {src : List UInt8},
    (∀ d' src', d.decode src = (d', src', .ok none) → src' = []) → eof d src = d.decode src

def decodeEof : DecodeEof := fun d src =>
  match d.decode src with
  | (d', byte :: src', .ok none) => (d', byte :: src', .error (.io "bytes remaining on stream"))
  | answer => answer

theorem decodeEof_lawful : DecodeEof.Lawful decodeEof where
  remaining := by
    intro d d' src src' hDecode hLeft
    obtain ⟨byte, src', rfl⟩ := List.exists_cons_of_ne_nil hLeft
    exact ⟨_, by rw [decodeEof, hDecode]⟩
  otherwise := by
    intro d src hEmpty
    rw [decodeEof]
    split
    next d' byte src' hDecode => cases hEmpty d' _ hDecode
    next => rfl

namespace FrameDecoder

/-- `decode_eof` until it returns `Ok(None)` or `Err`. -/
def finish (eof : DecodeEof) : Nat → FrameDecoder → Option (Outcome ProtocolError Message FrameDecoder)
  | 0, _ => none
  | fuel + 1, d =>
    match eof d [] with
    | (_, _, .error e) => some (.failed e)
    | (d', _, .ok none) => some (.idle d')
    | (d', _, .ok (some m)) => (finish eof fuel d').map (.prepend [m])

def framedRead (eof : DecodeEof) (fuel : Nat) (d : FrameDecoder) (chunks : List (List UInt8)) :
    Option (Outcome ProtocolError Message FrameDecoder) :=
  match (d.run chunks).stop with
  | .error e => some ⟨(d.run chunks).messages, .error e⟩
  | .ok d' => (d'.finish eof fuel).map (.prepend (d.run chunks).messages)

/-- The reader comes to an end, and if that is a clean end, every byte was delivered in some
message. -/
def TruncationReported (eof : DecodeEof) (d : FrameDecoder) (chunks : List (List UInt8)) : Prop :=
  ∃ outcome, (∀ fuel, 0 < fuel → d.framedRead eof fuel chunks = some outcome) ∧
    ∀ d', outcome.stop = .ok d' →
      d'.parser.buffer = [] ∧ outcome.messages.flatMap Message.rawBytes = chunks.flatten

end FrameDecoder

/-- No base header can be read from the bytes, or one within the limits that declares more. -/
def Incomplete (limits : Limits) (tail : List UInt8) : Prop :=
  (∀ h, parseBaseHeader tail ≠ .ok h) ∨
    ∃ h, parseBaseHeader tail = .ok h ∧
      MessageParser.Permits limits.maxMessageSize limits.maxHeaderSize h ∧
      tail.length < h.totalMessageSize.toNat

/-- The stream consists of complete messages and then of some bytes of an incomplete one. -/
def EndsInside (limits : Limits) (stream : List UInt8) : Prop :=
  ∃ (messages : List Message) (tail : List UInt8), stream = messages.flatMap Message.rawBytes ++ tail ∧
    (∀ m ∈ messages, m.Fits limits) ∧ tail ≠ [] ∧ Incomplete limits tail

section
variable {limits : Limits}

theorem drain_eq_iff {stream tail : List UInt8} {messages : List Message} :
    (FrameDecoder.bytes limits.codec).drain stream = ⟨messages, .ok tail⟩ ↔
      stream = messages.flatMap Message.rawBytes ++ tail ∧ (∀ m ∈ messages, m.Fits limits) ∧
        Incomplete limits tail := by
  constructor
  · intro hDrain
    have hStop : ((FrameDecoder.bytes limits.codec).drain stream).stop = .ok tail := by rw [hDrain]
    have hConsumed := Decoder.drain_consumed (d := FrameDecoder.bytes limits.codec)
      MessageParser.verdict_take_rawBytes hStop
    have hFits := Decoder.drain_messages_forall (d := FrameDecoder.bytes limits.codec)
      MessageParser.accepted_of_deliver stream
    rw [hDrain] at hConsumed hFits
    exact ⟨hConsumed.symm, hFits, MessageParser.verdict_eq_wait.mp (Decoder.drain_rest hStop)⟩
  · rintro ⟨rfl, hFits, hIncomplete⟩
    have hWait : (FrameDecoder.bytes limits.codec).verdict tail = .wait :=
      MessageParser.verdict_eq_wait.mpr hIncomplete
    have hPieces : ∀ m ∈ messages, (FrameDecoder.bytes limits.codec).Delivers (Message.rawBytes m) m :=
      fun m hMem => (hFits m hMem).delivers
    rw [Decoder.drain_flatMap_append hPieces, Decoder.drain_wait hWait]
    simp [Outcome.prepend, Outcome.idle]

theorem endsInside_iff {stream : List UInt8} :
    EndsInside limits stream ↔
      ∃ tail, ((FrameDecoder.bytes limits.codec).drain stream).stop = .ok tail ∧ tail ≠ [] := by
  constructor
  · rintro ⟨messages, tail, hStream, hFits, hNonempty, hIncomplete⟩
    exact ⟨tail, congrArg Outcome.stop (drain_eq_iff.mpr ⟨hStream, hFits, hIncomplete⟩), hNonempty⟩
  · rintro ⟨tail, hStop, hNonempty⟩
    have hDrain : (FrameDecoder.bytes limits.codec).drain stream =
        ⟨((FrameDecoder.bytes limits.codec).drain stream).messages, .ok tail⟩ := by
      rw [← hStop]
    obtain ⟨hStream, hFits, hIncomplete⟩ := drain_eq_iff.mp hDrain
    exact ⟨_, tail, hStream, hFits, hNonempty, hIncomplete⟩

section
variable (hLimit : limits.maxHeaderSize.toNat < 2 ^ 32) {frames : List Frame}
  (hWithin : ∀ f ∈ frames, f.Within limits.maxMessageSize limits.maxHeaderSize)
include hLimit hWithin

theorem not_endsInside_frames : ¬ EndsInside limits (frames.flatMap Frame.bytes) := by
  have hDelivers : ∀ f ∈ frames, (FrameDecoder.bytes limits.codec).Delivers (Frame.bytes f) f.message :=
    fun f hMem => MessageParser.delivers_of_within hLimit (hWithin f hMem)
  rw [endsInside_iff, Decoder.drain_flatMap (FrameDecoder.bytes_nil limits.codec) hDelivers]
  rintro ⟨tail, hStop, hNonempty⟩
  cases hStop
  exact hNonempty rfl

theorem endsInside_take {f : Frame} (hLast : f.Within limits.maxMessageSize limits.maxHeaderSize) {n : Nat}
    (hCut : 0 < n) (hShort : n < f.bytes.length) :
    EndsInside limits (frames.flatMap Frame.bytes ++ f.bytes.take n) := by
  have hDelivers : ∀ f ∈ frames, (FrameDecoder.bytes limits.codec).Delivers (Frame.bytes f) f.message :=
    fun f hMem => MessageParser.delivers_of_within hLimit (hWithin f hMem)
  have hPiece : (FrameDecoder.bytes limits.codec).Delivers f.bytes f.message :=
    MessageParser.delivers_of_within hLimit hLast
  rw [endsInside_iff, Decoder.drain_flatMap_append hDelivers,
    Decoder.drain_wait (Decoder.verdict_take hPiece hShort)]
  refine ⟨f.bytes.take n, rfl, ?_⟩
  intro hNil
  have hLength := congrArg List.length hNil
  rw [List.length_take, List.length_nil] at hLength
  omega

end

end

theorem FrameDecoder.finish_of_wait {eof : DecodeEof} (hEof : eof.Lawful) {d : FrameDecoder}
    (hWait : d.bytes.verdict d.parser.buffer = .wait) {fuel : Nat} (hFuel : 0 < fuel) :
    d.finish eof fuel = some (.idle d) := by
  have hDecode := decode_wait d.admits_nil (by rw [List.append_nil]; exact hWait)
  rw [List.append_nil] at hDecode
  have hEnd : eof d [] = d.decode [] := by
    apply hEof.otherwise
    intro d' src' hOther
    rw [hDecode] at hOther
    exact (congrArg (fun answer => answer.2.1) hOther).symm
  obtain ⟨fuel, rfl⟩ := Nat.exists_eq_succ_of_ne_zero (Nat.ne_of_gt hFuel)
  rw [finish, hEnd, hDecode]
  rfl

theorem FrameDecoder.framedRead_eq_run {eof : DecodeEof} (hEof : eof.Lawful) {limits : Limits}
    {chunks : List (List UInt8)} (hAdmits : FrameDecoder.AdmitsAll limits.codec chunks) {fuel : Nat}
    (hFuel : 0 < fuel) :
    FrameDecoder.framedRead eof fuel limits.codec chunks =
      some (((FrameDecoder.bytes limits.codec).drain chunks.flatten).map
        (FrameDecoder.withBuffer limits.codec)) := by
  rw [framedRead, run_eq_drain rfl hAdmits]
  generalize hDrain : (FrameDecoder.bytes limits.codec).drain chunks.flatten = outcome
  obtain ⟨messages, stop⟩ := outcome
  cases stop with
  | error e => rfl
  | ok tail =>
    have hWait : (FrameDecoder.bytes limits.codec).verdict tail = .wait :=
      Decoder.drain_rest (congrArg Outcome.stop hDrain)
    change ((FrameDecoder.withBuffer limits.codec tail).finish eof fuel).map _ = _
    rw [finish_of_wait hEof hWait hFuel]
    simp [Outcome.prepend, Outcome.idle, Outcome.map, Except.map]

/-- The decoders report truncation on exactly the streams that do not end inside a message. -/
theorem truncationReported_iff {eof : DecodeEof} (hEof : eof.Lawful) {limits : Limits} {d : FrameDecoder}
    (hFresh : limits.Fresh d) {chunks : List (List UInt8)} (hAdmits : d.AdmitsAll chunks) :
    d.TruncationReported eof chunks ↔ ¬ EndsInside limits chunks.flatten := by
  obtain rfl := hFresh.eq_codec
  have hRead {fuel : Nat} (hFuel : 0 < fuel) := FrameDecoder.framedRead_eq_run hEof hAdmits hFuel
  constructor
  · rintro ⟨outcome, hOutcome, hDelivered⟩ ⟨messages, tail, hStream, hFits, hNonempty, hIncomplete⟩
    have hDrain := drain_eq_iff.mpr ⟨hStream, hFits, hIncomplete⟩
    have hOne := hOutcome 1 Nat.one_pos
    rw [hRead Nat.one_pos, hDrain] at hOne
    obtain rfl := Option.some.inj hOne
    obtain ⟨hEmpty, _⟩ := hDelivered (FrameDecoder.withBuffer limits.codec tail) rfl
    exact hNonempty hEmpty
  · intro hComplete
    refine ⟨_, fun fuel hFuel => hRead hFuel, ?_⟩
    intro d' hStop
    obtain ⟨tail, hTail, rfl⟩ := map_eq_ok.mp hStop
    have hEmpty : tail = [] := by
      by_contra hNonempty
      exact hComplete (endsInside_iff.mpr ⟨tail, hTail, hNonempty⟩)
    have hConsumed := Decoder.drain_consumed (d := FrameDecoder.bytes limits.codec)
      MessageParser.verdict_take_rawBytes hTail
    rw [hEmpty, List.append_nil] at hConsumed
    exact ⟨hEmpty, hConsumed⟩

theorem newsFrame_within : newsFrame.Within defaultMaxMessageSize defaultMaxHeaderSize :=
  ⟨by decide, by decide⟩

theorem truncationReported_newsFrame :
    MessageDecoder.new.TruncationReported decodeEof [newsFrame.bytes.take 10, newsFrame.bytes.drop 10] :=
  (@truncationReported_iff decodeEof decodeEof_lawful ⟨defaultMaxMessageSize, defaultMaxHeaderSize⟩ _
    (.inl rfl) _ (FrameDecoder.admitsAll_of_length (by decide) (by decide))).mpr
      (@not_endsInside_frames _ (by decide) [newsFrame] (List.forall_mem_singleton.mpr newsFrame_within))

theorem not_truncationReported_newsFrame :
    MessageDecoder.new.AdmitsAll [newsFrame.bytes.take 40] ∧
      (∀ fuel, 0 < fuel → MessageDecoder.new.framedRead decodeEof fuel [newsFrame.bytes.take 40] =
        some (.idle (MessageDecoder.new.withBuffer (newsFrame.bytes.take 40)))) ∧
      ¬ MessageDecoder.new.TruncationReported decodeEof [newsFrame.bytes.take 40] := by
  have hAdmits : MessageDecoder.new.AdmitsAll [newsFrame.bytes.take 40] :=
    FrameDecoder.admitsAll_of_length (by decide) (by decide)
  have hWait : MessageDecoder.new.bytes.verdict (newsFrame.bytes.take 40 ++ []) = .wait := rfl
  have hRead : ∀ fuel, 0 < fuel → MessageDecoder.new.framedRead decodeEof fuel [newsFrame.bytes.take 40] =
      some (.idle (MessageDecoder.new.withBuffer (newsFrame.bytes.take 40))) := by
    intro fuel hFuel
    have hRun : MessageDecoder.new.framedRead decodeEof fuel [newsFrame.bytes.take 40] =
        some ((MessageDecoder.new.bytes.drain (newsFrame.bytes.take 40 ++ [])).map
          MessageDecoder.new.withBuffer) :=
      @FrameDecoder.framedRead_eq_run decodeEof decodeEof_lawful
        ⟨defaultMaxMessageSize, defaultMaxHeaderSize⟩ _ hAdmits fuel hFuel
    rw [hRun, Decoder.drain_wait hWait]
    rfl
  refine ⟨hAdmits, hRead, ?_⟩
  rintro ⟨outcome, hOutcome, hDelivered⟩
  obtain rfl := Option.some.inj ((hRead 1 Nat.one_pos).symm.trans (hOutcome 1 Nat.one_pos))
  exact absurd (hDelivered _ rfl).1 (by decide)

end Fleximq.Protocol
