import Fleximq.Transport.TcpReader
import Fleximq.Transport.TcpWriter

/-! # Frames from one end to the other

One end writes frames and the other reads them, while the bytes are under way.
Either end may be cut off by its timeout. What the reader hands out is what a
whole reader would make of the wire, up to where it has got.
-/
namespace Fleximq.Transport
open Foundation
open Foundation.Incremental (Outcome Decoder)

/-- The reader's bytes under way are those that the writer has written and that have not arrived. -/
structure TcpConnection where
  writer : TcpWriter
  reader : TcpReader

inductive ConnectionEvent where
  | write (event : WriteEvent)
  | read (event : ReadEvent)

namespace TcpConnection

def init : TcpConnection := ⟨.init, .init []⟩

def send (r : TcpReader) (bytes : List UInt8) : TcpReader := { r with inFlight := r.inFlight ++ bytes }

def step (w r : TcpTransportStream) (c : TcpConnection) : ConnectionEvent → TcpConnection
  | .write event =>
    let writer := c.writer.step w event
    ⟨writer, send c.reader (writer.wire.drop c.writer.wire.length)⟩
  | .read event => ⟨c.writer, c.reader.step r event⟩

/-- No write behind a torn frame, and no read behind a call that has ended inside a frame. -/
def Sound (c : TcpConnection) : ConnectionEvent → Prop
  | .write event => c.writer.Clean event
  | .read event => c.reader.Steady event

instance (c : TcpConnection) : (event : ConnectionEvent) → Decidable (c.Sound event)
  | .write event => inferInstanceAs (Decidable (c.writer.Clean event))
  | .read event => inferInstanceAs (Decidable (c.reader.Steady event))

/-- A read that is cut off between the length and the data of an empty frame drops it, so these do
not count. -/
def filled (frames : List (List UInt8)) : List (List UInt8) := frames.filter (!·.isEmpty)

/-! ## The reader on the wire -/

/-- The calls have handed out the frames that were passed. -/
structure Handed (done : List (List UInt8)) (results : List (Except TransportError (List UInt8))) : Prop where
  filled_eq : filled (TcpReader.handedOut results) = filled done
  length_lt : ∀ data ∈ done, data.length < 256 ^ 4

/-- The reader has passed some frames, and stands where the running call has got to in the next one, or
where the call has ended that took part of it. -/
inductive Aligned (wire : List UInt8) : TcpReader → Prop where
  | idle {done inFlight arrived results} :
    wire = done.flatMap tcpFrame ++ (arrived ++ inFlight) →
    Handed done results →
    Aligned wire ⟨inFlight, arrived, .idle, results, false⟩
  | length {done inFlight arrived got results} :
    wire = done.flatMap tcpFrame ++ (got ++ (arrived ++ inFlight)) →
    Handed done results → got.length < 4 →
    Aligned wire ⟨inFlight, arrived, .length got, results, false⟩
  | body {done inFlight arrived length got results} :
    wire = done.flatMap tcpFrame ++ (BigEndian.write 4 length ++ (got ++ (arrived ++ inFlight))) →
    Handed done results → got.length < length ∨ got = [] ∧ length = 0 → length < 256 ^ 4 →
    Aligned wire ⟨inFlight, arrived, .body length got, results, false⟩
  | lost {done part inFlight arrived phase results} :
    wire = done.flatMap tcpFrame ++ (part ++ (arrived ++ inFlight)) →
    Handed done results → LengthPrefixed.verdict 4 part = .wait →
    Aligned wire ⟨inFlight, arrived, phase, results, true⟩

section
variable {results : List (Except TransportError (List UInt8))} {done : List (List UInt8)}
  {wire got arrived inFlight : List UInt8} {s : TcpTransportStream}

theorem Handed.error (h : Handed done results) (e : TransportError) : Handed done (results ++ [.error e]) := by
  have hSame : TcpReader.handedOut (results ++ [.error e]) = TcpReader.handedOut results := by
    simp [TcpReader.handedOut, Except.toOption]
  refine ⟨?_, h.length_lt⟩
  rw [hSame]
  exact h.filled_eq

theorem length_lt_append (h : ∀ data ∈ done, data.length < 256 ^ 4) {last : List UInt8}
    (hLast : last.length < 256 ^ 4) : ∀ data ∈ done ++ [last], data.length < 256 ^ 4 := by
  intro data hMem
  rcases List.mem_append.mp hMem with hOld | hNew
  · exact h data hOld
  · rw [List.mem_singleton.mp hNew]
    exact hLast

theorem Handed.ok (h : Handed done results) {data : List UInt8} (hLength : data.length < 256 ^ 4) :
    Handed (done ++ [data]) (results ++ [.ok data]) := by
  have hLast : TcpReader.handedOut (results ++ [.ok data]) = TcpReader.handedOut results ++ [data] := by
    simp [TcpReader.handedOut, Except.toOption]
  refine ⟨?_, length_lt_append h.length_lt hLength⟩
  rw [hLast, filled, filled, List.filter_append, List.filter_append]
  exact congrArg (· ++ _) h.filled_eq

/-- An empty frame is passed over. -/
theorem Handed.drop_empty (h : Handed done results) : Handed (done ++ [[]]) results := by
  refine ⟨?_, length_lt_append h.length_lt (by decide)⟩
  rw [h.filled_eq, filled, filled, List.filter_append]
  exact (List.append_nil _).symm

theorem Handed.drain (h : Handed done results) (rest : List UInt8) :
    ((LengthPrefixed.decoder 4 (by decide)).drain (done.flatMap tcpFrame ++ rest)).messages =
      done ++ ((LengthPrefixed.decoder 4 (by decide)).drain rest).messages := by
  have hDelivers : ∀ data ∈ done, (LengthPrefixed.decoder 4 (by decide)).Delivers (tcpFrame data) data :=
    fun data hMem => LengthPrefixed.delivers_frame (by decide) (h.length_lt data hMem)
  rw [Decoder.drain_flatMap_append hDelivers]
  simp [Outcome.prepend]

theorem Aligned.send {r : TcpReader} (h : Aligned wire r) (bytes : List UInt8) :
    Aligned (wire ++ bytes) (TcpConnection.send r bytes) := by
  cases h with
  | idle hWire hResults => exact .idle (by simp [hWire]) hResults
  | length hWire hResults hShort => exact .length (by simp [hWire]) hResults hShort
  | body hWire hResults hMore hLength => exact .body (by simp [hWire]) hResults hMore hLength
  | lost hWire hResults hPart => exact .lost (by simp [hWire]) hResults hPart

theorem Aligned.readLength (hWire : wire = done.flatMap tcpFrame ++ (got ++ (arrived ++ inFlight)))
    (hResults : Handed done results) (hShort : got.length < 4) (count : Nat) :
    Aligned wire (TcpReader.readLength s ⟨inFlight, arrived, .length got, results, false⟩ got count) := by
  have hAppend := @TcpReader.readExact_append 4 count got arrived
  have hLe := @TcpReader.readExact_length_le 4 count got arrived (Nat.le_of_lt hShort)
  rw [TcpReader.readLength]
  generalize readExact 4 count got arrived = exact at hAppend hLe
  obtain ⟨got', arrived'⟩ := exact
  dsimp only at hAppend hLe ⊢
  have hWire' : wire = done.flatMap tcpFrame ++ (got' ++ (arrived' ++ inFlight)) := by
    rw [hWire, ← List.append_assoc got, ← hAppend, List.append_assoc]
  split
  · rename_i hPartial
    exact .length hWire' hResults hPartial
  · rename_i hComplete
    have hFour : got'.length = 4 := Nat.le_antisymm hLe (Nat.not_lt.mp hComplete)
    have hBound : BigEndian.read got' < 256 ^ 4 := by
      rw [← hFour]
      exact BigEndian.read_lt got'
    have hWrite : BigEndian.write 4 (BigEndian.read got') = got' := BigEndian.write_read_of_length hFour
    split
    · rename_i hLong
      have hWait := @LengthPrefixed.verdict_length 4 _ [] hBound (Nat.zero_lt_of_lt hLong)
      rw [hWrite, List.append_nil] at hWait
      exact .lost hWire' (hResults.error _) hWait
    · refine .body ?_ hResults ?_ hBound
      · rw [hWire', hWrite, List.nil_append]
      · rcases Nat.eq_zero_or_pos (BigEndian.read got') with hNone | hSome
        · exact .inr ⟨rfl, hNone⟩
        · exact .inl hSome

theorem Aligned.readBody {length : Nat}
    (hWire : wire = done.flatMap tcpFrame ++ (BigEndian.write 4 length ++ (got ++ (arrived ++ inFlight))))
    (hResults : Handed done results) (hMore : got.length < length ∨ got = [] ∧ length = 0)
    (hLength : length < 256 ^ 4) (count : Nat) :
    Aligned wire
      (TcpReader.readBody ⟨inFlight, arrived, .body length got, results, false⟩ length got count) := by
  have hShort : got.length ≤ length := by
    rcases hMore with hLess | ⟨rfl, _⟩
    · exact Nat.le_of_lt hLess
    · exact Nat.zero_le length
  have hAppend := @TcpReader.readExact_append length count got arrived
  have hLe := @TcpReader.readExact_length_le length count got arrived hShort
  rw [TcpReader.readBody]
  generalize readExact length count got arrived = exact at hAppend hLe
  obtain ⟨got', arrived'⟩ := exact
  dsimp only at hAppend hLe ⊢
  have hWire' : wire =
      done.flatMap tcpFrame ++ (BigEndian.write 4 length ++ (got' ++ (arrived' ++ inFlight))) := by
    rw [hWire, ← List.append_assoc got, ← hAppend, List.append_assoc got']
  split
  · rename_i hPartial
    exact .body hWire' hResults (.inl hPartial) hLength
  · rename_i hComplete
    obtain rfl : got'.length = length := Nat.le_antisymm hLe (Nat.not_lt.mp hComplete)
    refine .idle ?_ (hResults.ok hLength)
    rw [hWire', List.flatMap_append, List.flatMap_singleton, tcpFrame]
    simp only [List.append_assoc]

theorem Aligned.step {r : TcpReader} {event : ReadEvent} (h : Aligned wire r) (hSteady : r.Steady event) :
    Aligned wire (r.step s event) := by
  have hArrive (inFlight arrived : List UInt8) (count : Nat) :
      arrived ++ inFlight.take count ++ inFlight.drop count = arrived ++ inFlight := by
    rw [List.append_assoc, List.take_append_drop]
  cases h with
  | idle hWire hResults =>
    cases event with
    | arrive count => exact .idle (by rw [hArrive, hWire]) hResults
    | call => exact .length hWire hResults (by decide)
    | read count => exact .idle hWire hResults
    | expire =>
      rw [TcpReader.step]
      cases s.timeouts.readTimeout <;> exact .idle hWire hResults
  | @length _ _ _ got _ hWire hResults hShort =>
    cases event with
    | arrive count => exact .length (by rw [hArrive, hWire]) hResults hShort
    | call => exact .length hWire hResults hShort
    | read count => exact .readLength hWire hResults hShort count
    | expire =>
      rw [TcpReader.step]
      cases s.timeouts.readTimeout with
      | none => exact .length hWire hResults hShort
      | some timeout =>
        cases got with
        | nil => exact .idle hWire (hResults.error _)
        | cons byte got => exact .lost hWire (hResults.error _) (if_pos hShort)
  | @body done _ _ length got _ hWire hResults hMore hLength =>
    cases event with
    | arrive count => exact .body (by rw [hArrive, hWire]) hResults hMore hLength
    | call => exact .body hWire hResults hMore hLength
    | read count => exact .readBody hWire hResults hMore hLength count
    | expire =>
      rw [TcpReader.step]
      cases s.timeouts.readTimeout with
      | none => exact .body hWire hResults hMore hLength
      | some timeout =>
        cases length with
        | zero =>
          -- an empty frame ends with its length
          obtain ⟨rfl, _⟩ := hMore.resolve_left (Nat.not_lt_zero _)
          refine .idle ?_ (hResults.error (.timeout timeout)).drop_empty
          rw [hWire, List.flatMap_append, List.flatMap_singleton, tcpFrame]
          simp only [List.append_assoc]
          rfl
        | succ length =>
          have hShort : got.length < length + 1 := hMore.resolve_right (by simp)
          rw [← List.append_assoc (BigEndian.write 4 _)] at hWire
          exact .lost hWire (hResults.error _) (LengthPrefixed.verdict_length hLength hShort)
  | lost hWire hResults hPart =>
    cases event with
    | arrive count => exact .lost (by rw [hArrive, hWire]) hResults hPart
    | call =>
      rw [TcpReader.step]
      split <;> exact .lost hWire hResults hPart
    | read count => cases hSteady
    | expire =>
      rw [TcpReader.step]
      split
      · exact .lost hWire (hResults.error _) hPart
      · exact .lost hWire (hResults.error _) hPart
      · exact .lost hWire hResults hPart

/-- What is read is the front of what a whole reader makes of the wire. -/
theorem Aligned.isPrefix {w : TcpWriter} {r : TcpReader} (h : Aligned w.wire r) :
    filled (TcpReader.handedOut r.results) <+: filled w.obtained := by
  have hDone : ∃ done rest, w.wire = done.flatMap tcpFrame ++ rest ∧ Handed done r.results := by
    cases h with
    | idle hWire hResults => exact ⟨_, _, hWire, hResults⟩
    | length hWire hResults _ => exact ⟨_, _, hWire, hResults⟩
    | body hWire hResults _ _ => exact ⟨_, _, hWire, hResults⟩
    | lost hWire hResults _ => exact ⟨_, _, hWire, hResults⟩
  obtain ⟨done, rest, hWire, hResults⟩ := hDone
  rw [hResults.filled_eq, TcpWriter.obtained, hWire, hResults.drain, filled, filled, List.filter_append]
  exact List.prefix_append _ _

/-- Behind the frames that were passed there is none that is complete. -/
theorem Handed.whole {w : TcpWriter} {rest : List UInt8} (h : Handed done results)
    (hWire : w.wire = done.flatMap tcpFrame ++ rest) (hWait : LengthPrefixed.verdict 4 rest = .wait) :
    filled (TcpReader.handedOut results) = filled w.obtained := by
  rw [h.filled_eq, TcpWriter.obtained, hWire, h.drain, Decoder.drain_wait hWait]
  exact congrArg filled (List.append_nil done).symm

/-- Once every byte is read the reader has handed out all that there is. -/
theorem Aligned.complete {w : TcpWriter} {r : TcpReader} (h : Aligned w.wire r) (hArrived : r.arrived = [])
    (hFlight : r.inFlight = []) : filled (TcpReader.handedOut r.results) = filled w.obtained := by
  cases h with
  | idle hWire hResults =>
    obtain rfl := hArrived
    obtain rfl := hFlight
    exact hResults.whole hWire (if_pos (by decide))
  | length hWire hResults hShort =>
    obtain rfl := hArrived
    obtain rfl := hFlight
    rw [List.append_nil, List.append_nil] at hWire
    exact hResults.whole hWire (if_pos hShort)
  | @body done _ _ length got _ hWire hResults hMore hLength =>
    obtain rfl := hArrived
    obtain rfl := hFlight
    rw [List.append_nil, List.append_nil] at hWire
    rcases hMore with hLess | ⟨rfl, rfl⟩
    · exact hResults.whole hWire (LengthPrefixed.verdict_length hLength hLess)
    · have hPassed : w.wire = (done ++ [[]]).flatMap tcpFrame ++ [] := by
        rw [hWire, List.flatMap_append, List.append_nil, List.append_nil]
        rfl
      exact hResults.drop_empty.whole hPassed (if_pos (by decide))
  | lost hWire hResults hPart =>
    obtain rfl := hArrived
    obtain rfl := hFlight
    rw [List.append_nil, List.append_nil] at hWire
    exact hResults.whole hWire hPart

end

/-! ## Both ends -/

section
variable {w r : TcpTransportStream} {c : TcpConnection}

theorem wire_isPrefix (s : TcpTransportStream) (writer : TcpWriter) (event : WriteEvent) :
    writer.wire <+: (writer.step s event).wire := by
  cases event with
  | call data =>
    rw [TcpWriter.step]
    split
    · rw [TcpWriter.call]
      dsimp only
      split <;> exact List.prefix_refl _
    · exact List.prefix_refl _
  | write count =>
    rw [TcpWriter.step]
    split
    · exact List.prefix_append _ _
    · exact List.prefix_refl _
  | flush =>
    rw [TcpWriter.step]
    split <;> exact List.prefix_refl _
  | expire =>
    rw [TcpWriter.step]
    split <;> exact List.prefix_refl _

structure Connected (c : TcpConnection) : Prop where
  writer : TcpWriter.Consistent c.writer
  reader : Aligned c.writer.wire c.reader

theorem connected_step (c : TcpConnection) (event : ConnectionEvent) (h : c.Connected) (hSound : c.Sound event) :
    (c.step w r event).Connected := by
  cases event with
  | write event =>
    refine ⟨h.writer.step hSound, ?_⟩
    have hReader := h.reader.send ((c.writer.step w event).wire.drop c.writer.wire.length)
    rw [List.prefix_iff_eq_append.mp (wire_isPrefix w c.writer event)] at hReader
    exact hReader
  | read event => exact ⟨h.writer, h.reader.step hSound⟩

/-- While neither end goes on behind a call that was cut off inside a frame, the reader hands out the
front of the frames on the wire, without the empty ones, and all of them once every byte is read.
These are data that was passed to the writer, in order, and include that of all calls that succeeded. -/
theorem exchange_run {events : List ConnectionEvent} (hSound : Trace.Along (step w r) Sound init events) :
    ∀ before, before <+: events →
      let c := Trace.run (step w r) init before
      filled (TcpReader.handedOut c.reader.results) <+: filled c.writer.obtained ∧
      c.writer.obtained.Sublist c.writer.passed ∧
      (TcpWriter.succeeded c.writer.results).Sublist c.writer.obtained ∧
      (c.reader.arrived = [] → c.reader.inFlight = [] →
        filled (TcpReader.handedOut c.reader.results) = filled c.writer.obtained) := by
  intro before hBefore c
  have hInit : init.Connected := ⟨.idle .nil, @Aligned.idle _ [] _ _ _ rfl ⟨rfl, fun _ hNone => by cases hNone⟩⟩
  have hConnected : c.Connected := hSound.throughout connected_step hInit hBefore
  exact ⟨hConnected.reader.isPrefix, hConnected.writer.intact.of_passed, hConnected.writer.intact.of_succeeded,
    hConnected.reader.complete⟩

end

/-- The second of four writes is cut off before its first byte and the last one inside its frame, and
the frames arrive in pieces. The reader is cut off where the wire ends. -/
def interleavedEvents : List ConnectionEvent :=
  [.write (.call [1, 2]), .write (.write 3), .read (.arrive 3), .read .call, .read (.read 4), .write (.write 3),
    .write .flush, .read (.arrive 2), .read (.read 1), .read (.read 1), .write (.call [3]), .write .expire,
    .read (.arrive 1), .read (.read 1), .write (.call [4]), .write (.write 5), .write .flush, .read (.arrive 5),
    .read .call, .read (.read 4), .read (.read 1), .write (.call [5, 6]), .write (.write 5), .write .expire,
    .read .call, .read (.arrive 5), .read (.read 4), .read (.read 1), .read .expire]

theorem interleavedEvents_exchange :
    (Trace.run (step TcpConfig.default.connect TcpConfig.default.accept) init
        interleavedEvents).reader.lost = true ∧
      filled (TcpReader.handedOut (Trace.run (step TcpConfig.default.connect TcpConfig.default.accept) init
          interleavedEvents).reader.results) =
        filled (Trace.run (step TcpConfig.default.connect TcpConfig.default.accept) init
          interleavedEvents).writer.obtained := by
  have hSound : Trace.Along (step TcpConfig.default.connect TcpConfig.default.accept) Sound init
      interleavedEvents := by decide +kernel
  refine ⟨by decide +kernel, ?_⟩
  exact (exchange_run hSound interleavedEvents (List.prefix_refl _)).2.2.2 (by decide +kernel) (by decide +kernel)

end TcpConnection
end Fleximq.Transport
