import Fleximq.Foundation.LengthPrefixed
import Fleximq.Foundation.Trace
import Fleximq.Transport.Tcp

/-! # Writes that are cut off

The write timeout drops a call of `write_frame` at an await point. What it has
put on the wire stays there, and the next call writes behind it.
-/
namespace Fleximq.Transport
open Foundation
open Foundation.Incremental (Outcome Decoder)

/-- Where a call of `write_frame` is: in `write_all`, with the bytes that are left, or in `flush`. -/
inductive WritePhase where
  | idle
  | writing (data left : List UInt8)
  | flushing (data : List UInt8)

/-- The bytes on the wire, the call that is running, the data of all calls and the results of those
that have returned; `torn` tells that one was cut off inside its frame. -/
structure TcpWriter where
  wire : List UInt8
  phase : WritePhase
  passed : List (List UInt8)
  results : List (List UInt8 × Except TransportError Unit)
  torn : Bool

inductive WriteEvent where
  | call (data : List UInt8)
  | write (count : Nat)
  | flush
  | expire

namespace TcpWriter

def init : TcpWriter := ⟨[], .idle, [], [], false⟩

def returns (w : TcpWriter) (data : List UInt8) (result : Except TransportError Unit) : TcpWriter :=
  { w with phase := .idle, results := w.results ++ [(data, result)] }

/-- The start of `write_frame_internal`. -/
def call (w : TcpWriter) (data : List UInt8) : TcpWriter :=
  let w := { w with passed := w.passed ++ [data] }
  if data.length > tcpDefaultMaxMessageSize.toNat then
    w.returns data (.error (.messageTooLarge data.length tcpDefaultMaxMessageSize.toNat))
  else
    let length := UInt32.ofNat data.length
    { w with phase := .writing data (BigEndian.write 4 length.toNat ++ data) }

/-- `write_all` gets rid of up to `count` bytes. -/
def write (w : TcpWriter) (data left : List UInt8) (count : Nat) : TcpWriter :=
  let rest := left.drop count
  let phase := if rest.isEmpty then .flushing data else .writing data rest
  { w with wire := w.wire ++ left.take count, phase := phase }

def step (s : TcpTransportStream) (w : TcpWriter) : WriteEvent → TcpWriter
  | .call data =>
    match w.phase with
    | .idle => w.call data
    | _ => w
  | .write count =>
    match w.phase with
    | .writing data left => w.write data left count
    | _ => w
  | .flush =>
    match w.phase with
    | .flushing data => w.returns data (.ok ())
    | _ => w
  | .expire =>
    match s.timeouts.writeTimeout, w.phase with
    | some timeout, .writing data left =>
      let started := left.length < (tcpFrame data).length
      { w.returns data (.error (.timeout timeout)) with torn := w.torn || started }
    | some timeout, .flushing data => w.returns data (.error (.timeout timeout))
    | _, _ => w

/-- What a receiver makes of the bytes on the wire. -/
def obtained (w : TcpWriter) : List (List UInt8) :=
  ((LengthPrefixed.decoder 4 (by decide)).drain w.wire).messages

def succeeded (results : List (List UInt8 × Except TransportError Unit)) : List (List UInt8) :=
  results.filterMap fun call => if call.2.isOk then some call.1 else none

/-- The receiver obtains nothing but data that was passed, in the order of the calls, and all data
whose call succeeded. -/
structure Intact (w : TcpWriter) : Prop where
  of_passed : w.obtained.Sublist w.passed
  of_succeeded : (succeeded w.results).Sublist w.obtained

/-- No call writes once another was cut off inside its frame. -/
def Clean (w : TcpWriter) : WriteEvent → Prop
  | .write _ => w.torn = false
  | _ => True

instance (w : TcpWriter) : (event : WriteEvent) → Decidable (w.Clean event)
  | .write _ => inferInstanceAs (Decidable (w.torn = false))
  | .call _ | .flush | .expire => .isTrue trivial

theorem call_of_lt {w : TcpWriter} {data : List UInt8} (h : tcpDefaultMaxMessageSize.toNat < data.length) :
    w.call data = { w with
      phase := .idle
      passed := w.passed ++ [data]
      results := w.results ++ [(data, .error (.messageTooLarge data.length tcpDefaultMaxMessageSize.toNat))] } := by
  rw [call, if_pos h]
  rfl

theorem call_of_le {w : TcpWriter} {data : List UInt8} (h : data.length ≤ tcpDefaultMaxMessageSize.toNat) :
    w.call data = { w with phase := .writing data (tcpFrame data), passed := w.passed ++ [data] } := by
  have hLength : (UInt32.ofNat data.length).toNat = data.length :=
    UInt32.toNat_ofNat_of_lt' (Nat.lt_of_le_of_lt h (by decide))
  rw [call, if_neg (Nat.not_lt.mpr h)]
  dsimp only
  rw [hLength, tcpFrame]

/-- A call that is not cut off writes and returns what `write_frame_internal` does. -/
theorem run_uninterrupted {s : TcpTransportStream} {w : TcpWriter} (hIdle : w.phase = .idle)
    (data : List UInt8) :
    Trace.run (step s) w [.call data, .write (tcpFrame data).length, .flush] =
      { w with
        wire := (s.writeFrameInternal w.wire data).1
        passed := w.passed ++ [data]
        results := w.results ++ [(data, (s.writeFrameInternal w.wire data).2)] } := by
  obtain ⟨wire, phase, passed, results, torn⟩ := w
  obtain rfl : phase = .idle := hIdle
  change Trace.run (step s) (call ⟨wire, .idle, passed, results, torn⟩ data)
    [.write (tcpFrame data).length, .flush] = _
  rcases Nat.lt_or_ge tcpDefaultMaxMessageSize.toNat data.length with hLong | hShort
  · rw [TcpTransportStream.writeFrameInternal_of_lt hLong, call_of_lt hLong]
    rfl
  · rw [TcpTransportStream.writeFrameInternal_of_le hShort, call_of_le hShort]
    change Trace.run (step s) (write _ data (tcpFrame data) (tcpFrame data).length) [.flush] = _
    rw [write, List.drop_length, List.take_length]
    rfl

/-! ## The invariant -/

/-- The frames on the wire lie between the successful calls and all calls. -/
structure Carries (sent passed : List (List UInt8)) (results : List (List UInt8 × Except TransportError Unit)) :
    Prop where
  of_passed : sent.Sublist passed
  of_succeeded : (succeeded results).Sublist sent
  length_lt : ∀ data ∈ sent, data.length < 256 ^ 4

section
variable {sent passed : List (List UInt8)} {results : List (List UInt8 × Except TransportError Unit)}
  {data : List UInt8}

theorem succeeded_error (e : TransportError) : succeeded (results ++ [(data, .error e)]) = succeeded results := by
  simp [succeeded, Except.isOk, Except.toBool]

theorem succeeded_ok : succeeded (results ++ [(data, .ok ())]) = succeeded results ++ [data] := by
  simp [succeeded, Except.isOk, Except.toBool]

theorem Carries.nil : Carries [] [] [] := ⟨.refl _, .refl _, fun _ h => by cases h⟩

theorem Carries.fail (h : Carries sent passed results) (e : TransportError) :
    Carries sent passed (results ++ [(data, .error e)]) :=
  ⟨h.of_passed, by rw [succeeded_error]; exact h.of_succeeded, h.length_lt⟩

theorem Carries.pass (h : Carries sent passed results) : Carries sent (passed ++ [data]) results :=
  ⟨h.of_passed.trans (List.sublist_append_left passed [data]), h.of_succeeded, h.length_lt⟩

theorem Carries.send (h : Carries sent passed results) (hLength : data.length < 256 ^ 4) :
    Carries (sent ++ [data]) (passed ++ [data]) results := by
  refine ⟨h.of_passed.append_right [data], ?_, ?_⟩
  · exact h.of_succeeded.trans (List.sublist_append_left sent [data])
  · intro other hOther
    rcases List.mem_append.mp hOther with hOther | hOther
    · exact h.length_lt other hOther
    · obtain rfl := List.mem_singleton.mp hOther
      exact hLength

theorem Carries.succeed (h : Carries sent passed results) (hLength : data.length < 256 ^ 4) :
    Carries (sent ++ [data]) (passed ++ [data]) (results ++ [(data, .ok ())]) := by
  refine ⟨(h.send hLength).of_passed, ?_, (h.send hLength).length_lt⟩
  rw [succeeded_ok]
  exact h.of_succeeded.append_right [data]

end

/-- The wire holds whole frames, and then what the running call has written of its own, or what a
call has left behind that was cut off. -/
inductive Consistent : TcpWriter → Prop where
  | idle {sent passed results} :
    Carries sent passed results → Consistent ⟨sent.flatMap tcpFrame, .idle, passed, results, false⟩
  | writing {sent passed results part data left} :
    Carries sent passed results → part ++ left = tcpFrame data → left ≠ [] → data.length < 256 ^ 4 →
    Consistent ⟨sent.flatMap tcpFrame ++ part, .writing data left, passed ++ [data], results, false⟩
  | flushing {sent passed results data} :
    Carries sent passed results → data.length < 256 ^ 4 →
    Consistent ⟨(sent ++ [data]).flatMap tcpFrame, .flushing data, passed ++ [data], results, false⟩
  | torn {sent passed results part phase} :
    Carries sent passed results → LengthPrefixed.verdict 4 part = .wait → (∀ data, phase ≠ .flushing data) →
    Consistent ⟨sent.flatMap tcpFrame ++ part, phase, passed, results, true⟩

theorem tcpFrame_length (data : List UInt8) : (tcpFrame data).length = 4 + data.length :=
  LengthPrefixed.frame_length 4 data

/-! ## What the receiver obtains -/

theorem Carries.drain {sent passed : List (List UInt8)}
    {results : List (List UInt8 × Except TransportError Unit)} (h : Carries sent passed results)
    {part : List UInt8} (hPart : LengthPrefixed.verdict 4 part = .wait) :
    ((LengthPrefixed.decoder 4 (by decide)).drain (sent.flatMap tcpFrame ++ part)).messages = sent := by
  have hDelivers : ∀ data ∈ sent, (LengthPrefixed.decoder 4 (by decide)).Delivers (tcpFrame data) data :=
    fun data hMem => LengthPrefixed.delivers_frame (by decide) (h.length_lt data hMem)
  rw [Decoder.drain_flatMap_append hDelivers, Decoder.drain_wait hPart]
  simp [Outcome.prepend, Outcome.idle]

theorem Carries.drain_whole {sent passed : List (List UInt8)}
    {results : List (List UInt8 × Except TransportError Unit)} (h : Carries sent passed results) :
    ((LengthPrefixed.decoder 4 (by decide)).drain (sent.flatMap tcpFrame)).messages = sent := by
  have hDrain := h.drain (LengthPrefixed.decoder_nil (by decide))
  rw [List.append_nil] at hDrain
  exact hDrain

theorem Consistent.intact {w : TcpWriter} (h : Consistent w) : w.Intact := by
  cases h with
  | idle hCarries =>
    exact ⟨by rw [obtained, hCarries.drain_whole]; exact hCarries.of_passed,
      by rw [obtained, hCarries.drain_whole]; exact hCarries.of_succeeded⟩
  | writing hCarries hFrame hLeft hLength =>
    have hPart := LengthPrefixed.verdict_part (by decide) hLength hFrame hLeft
    refine ⟨?_, ?_⟩
    · rw [obtained, hCarries.drain hPart]
      exact hCarries.pass.of_passed
    · rw [obtained, hCarries.drain hPart]
      exact hCarries.of_succeeded
  | flushing hCarries hLength =>
    have hSent := hCarries.send hLength
    exact ⟨by rw [obtained, hSent.drain_whole]; exact hSent.of_passed,
      by rw [obtained, hSent.drain_whole]; exact hSent.of_succeeded⟩
  | torn hCarries hPart _ =>
    exact ⟨by rw [obtained, hCarries.drain hPart]; exact hCarries.of_passed,
      by rw [obtained, hCarries.drain hPart]; exact hCarries.of_succeeded⟩

/-! ## One step -/

section
variable {s : TcpTransportStream}

theorem Consistent.start {sent passed : List (List UInt8)}
    {results : List (List UInt8 × Except TransportError Unit)} (h : Carries sent passed results)
    (data : List UInt8) : Consistent (call ⟨sent.flatMap tcpFrame, .idle, passed, results, false⟩ data) := by
  rcases Nat.lt_or_ge tcpDefaultMaxMessageSize.toNat data.length with hLong | hShort
  · rw [call_of_lt hLong]
    exact .idle (h.pass.fail _)
  · have hLength : data.length < 256 ^ 4 := Nat.lt_of_le_of_lt hShort (by decide)
    have hNonempty : tcpFrame data ≠ [] := List.ne_nil_of_length_pos (by rw [tcpFrame_length]; omega)
    have hWriting := Consistent.writing h (List.nil_append (tcpFrame data)) hNonempty hLength
    rw [List.append_nil] at hWriting
    rw [call_of_le hShort]
    exact hWriting

theorem Consistent.advance {sent passed part : List _}
    {results : List (List UInt8 × Except TransportError Unit)} {data left : List UInt8}
    (h : Carries sent passed results) (hFrame : part ++ left = tcpFrame data)
    (hLength : data.length < 256 ^ 4) (count : Nat) :
    Consistent (write ⟨sent.flatMap tcpFrame ++ part, .writing data left, passed ++ [data], results, false⟩
      data left count) := by
  rw [write]
  dsimp only
  cases hRest : left.drop count with
  | nil =>
    have hAll : left.take count = left := List.take_of_length_le (List.drop_eq_nil_iff.mp hRest)
    have hWire : sent.flatMap tcpFrame ++ part ++ left = (sent ++ [data]).flatMap tcpFrame := by
      rw [List.append_assoc, hFrame, List.flatMap_append, List.flatMap_singleton]
    rw [hAll, hWire]
    exact .flushing h hLength
  | cons byte rest =>
    rw [List.append_assoc]
    refine .writing h ?_ (List.cons_ne_nil byte rest) hLength
    rw [List.append_assoc, ← hRest, List.take_append_drop]
    exact hFrame

theorem Consistent.cutOff {sent passed part : List _}
    {results : List (List UInt8 × Except TransportError Unit)} {data left : List UInt8}
    (h : Carries sent passed results) (hFrame : part ++ left = tcpFrame data) (hLeft : left ≠ [])
    (hLength : data.length < 256 ^ 4) (e : TransportError) :
    Consistent ⟨sent.flatMap tcpFrame ++ part, .idle, passed ++ [data], results ++ [(data, .error e)],
      false || decide (left.length < (tcpFrame data).length)⟩ := by
  rw [Bool.false_or]
  cases part with
  | nil =>
    rw [List.nil_append] at hFrame
    rw [hFrame, decide_eq_false (Nat.lt_irrefl _), List.append_nil]
    exact .idle (h.pass.fail e)
  | cons byte part =>
    have hStarted : left.length < (tcpFrame data).length := by
      rw [← hFrame, List.length_append, List.length_cons]
      omega
    rw [decide_eq_true hStarted]
    exact .torn (h.pass.fail e) (LengthPrefixed.verdict_part (by decide) hLength hFrame hLeft)
      (fun other hPhase => by cases hPhase)

/-- Where a frame is torn, the wire stays as it is. -/
theorem Consistent.step_torn {sent passed : List (List UInt8)}
    {results : List (List UInt8 × Except TransportError Unit)} {part : List UInt8} {phase : WritePhase}
    {event : WriteEvent} (h : Carries sent passed results) (hPart : LengthPrefixed.verdict 4 part = .wait)
    (hPhase : ∀ data, phase ≠ .flushing data)
    (hClean : Clean ⟨sent.flatMap tcpFrame ++ part, phase, passed, results, true⟩ event) :
    Consistent (step s ⟨sent.flatMap tcpFrame ++ part, phase, passed, results, true⟩ event) := by
  cases event with
  | write count => cases hClean
  | call data =>
    cases phase with
    | flushing other => exact absurd rfl (hPhase other)
    | writing other left => exact .torn h hPart hPhase
    | idle =>
      rw [step]
      rcases Nat.lt_or_ge tcpDefaultMaxMessageSize.toNat data.length with hLong | hShort
      · rw [call_of_lt hLong]
        exact .torn (h.pass.fail _) hPart (fun other hOther => by cases hOther)
      · rw [call_of_le hShort]
        exact .torn h.pass hPart (fun other hOther => by cases hOther)
  | flush =>
    cases phase with
    | flushing other => exact absurd rfl (hPhase other)
    | writing other left => exact .torn h hPart hPhase
    | idle => exact .torn h hPart hPhase
  | expire =>
    rw [step]
    dsimp only
    split
    · exact .torn (h.fail _) hPart (fun other hOther => by cases hOther)
    · exact absurd rfl (hPhase _)
    · exact .torn h hPart hPhase

theorem Consistent.step {w : TcpWriter} {event : WriteEvent} (h : Consistent w) (hClean : w.Clean event) :
    Consistent (w.step s event) := by
  cases h with
  | idle hCarries =>
    cases event with
    | call data => exact .start hCarries data
    | write count => exact .idle hCarries
    | flush => exact .idle hCarries
    | expire =>
      rw [TcpWriter.step]
      cases s.timeouts.writeTimeout <;> exact .idle hCarries
  | writing hCarries hFrame hLeft hLength =>
    cases event with
    | call other => exact .writing hCarries hFrame hLeft hLength
    | write count => exact .advance hCarries hFrame hLength count
    | flush => exact .writing hCarries hFrame hLeft hLength
    | expire =>
      rw [TcpWriter.step]
      cases s.timeouts.writeTimeout with
      | none => exact .writing hCarries hFrame hLeft hLength
      | some timeout => exact .cutOff hCarries hFrame hLeft hLength (.timeout timeout)
  | flushing hCarries hLength =>
    cases event with
    | call other => exact .flushing hCarries hLength
    | write count => exact .flushing hCarries hLength
    | flush => exact .idle (hCarries.succeed hLength)
    | expire =>
      rw [TcpWriter.step]
      cases s.timeouts.writeTimeout with
      | none => exact .flushing hCarries hLength
      | some timeout => exact .idle ((hCarries.send hLength).fail (.timeout timeout))
  | torn hCarries hPart hPhase => exact .step_torn hCarries hPart hPhase hClean

end

/-! ## Every run -/

/-- As long as no call writes behind a torn frame, the receiver obtains data that was passed, in
order, and the data of every successful call. -/
theorem intact_of_clean {s : TcpTransportStream} {events : List WriteEvent}
    (hClean : Trace.Along (step s) Clean init events) :
    ∀ before, before <+: events → (Trace.run (step s) init before).Intact := by
  intro before hBefore
  have hStep (w : TcpWriter) (event : WriteEvent) (h : Consistent w) (hOk : w.Clean event) :
      Consistent (w.step s event) := h.step hOk
  exact (hClean.throughout hStep (.idle .nil) hBefore).intact

/-- One call is written in two pieces, one is cut off before its first byte and one in its flush. -/
def boundaryEvents : List WriteEvent :=
  [.call [1, 2], .write 3, .write 3, .flush, .call [3], .expire, .call [4], .write 5, .expire]

theorem boundaryEvents_intact :
    (Trace.run (step TcpConfig.default.connect) init boundaryEvents).Intact :=
  @intact_of_clean TcpConfig.default.connect boundaryEvents (by decide +kernel) boundaryEvents
    (List.prefix_refl boundaryEvents)

/-- A call is cut off after five of its seven bytes, and the next one succeeds: the receiver takes
the front of its length for the end of the first frame. -/
def tornEvents : List WriteEvent := [.call [1, 2, 3], .write 5, .expire, .call [9], .write 5, .flush]

theorem torn_frame_not_intact :
    obtained (Trace.run (step TcpConfig.default.connect) init tornEvents) = [[1, 0, 0]] ∧
      succeeded (Trace.run (step TcpConfig.default.connect) init tornEvents).results = [[9]] ∧
      ¬ (Trace.run (step TcpConfig.default.connect) init tornEvents).Intact := by
  have hWire : (Trace.run (step TcpConfig.default.connect) init tornEvents).wire =
        [[1, 0, 0]].flatMap tcpFrame ++ [0, 1, 9] := by decide +kernel
  have hCarries : Carries [[1, 0, 0]] [[1, 0, 0]] [] := Carries.nil.send (by decide)
  have hObtained : obtained (Trace.run (step TcpConfig.default.connect) init tornEvents) = [[1, 0, 0]] := by
    rw [obtained, hWire]
    exact hCarries.drain (if_pos (by decide))
  have hSucceeded : succeeded (Trace.run (step TcpConfig.default.connect) init tornEvents).results = [[9]] := by
    decide +kernel
  refine ⟨hObtained, hSucceeded, ?_⟩
  intro hIntact
  have hSublist := hIntact.of_succeeded
  rw [hObtained, hSucceeded] at hSublist
  exact absurd hSublist (by decide)

end TcpWriter

end Fleximq.Transport
