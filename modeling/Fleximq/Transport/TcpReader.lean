import Fleximq.Foundation.Trace
import Fleximq.Transport.Tcp

/-! # Reads that are cut off

The read timeout drops a call of `read_frame` at an await point, and a frame that
is too long is refused after its length was read. The bytes that were taken from
the stream are gone either way, and the next call starts with what comes next.
-/
namespace Fleximq.Transport
open Foundation

/-- Where a call of `read_frame` is, with the bytes that the `read_exact` has got so far. -/
inductive ReadPhase where
  | idle
  | length (got : List UInt8)
  | body (length : Nat) (got : List UInt8)

/-- The bytes that are under way and those that have arrived, the call that is running and the
results; `lost` tells that a call has ended inside a frame. -/
structure TcpReader where
  inFlight : List UInt8
  arrived : List UInt8
  phase : ReadPhase
  results : List (Except TransportError (List UInt8))
  lost : Bool

inductive ReadEvent where
  | arrive (count : Nat)
  | call
  | read (count : Nat)
  | expire

/-- `read_exact` gets up to `count` of the bytes that are missing from `want`. -/
def readExact (want count : Nat) (got source : List UInt8) : List UInt8 × List UInt8 :=
  let n := min count (want - got.length)
  (got ++ source.take n, source.drop n)

namespace TcpReader

def init (frames : List (List UInt8)) : TcpReader := ⟨frames.flatMap tcpFrame, [], .idle, [], false⟩

def returns (r : TcpReader) (result : Except TransportError (List UInt8)) : TcpReader :=
  { r with phase := .idle, results := r.results ++ [result] }

def readLength (s : TcpTransportStream) (r : TcpReader) (got : List UInt8) (count : Nat) : TcpReader :=
  let (got, arrived) := readExact 4 count got r.arrived
  let r := { r with arrived := arrived }
  if got.length < 4 then { r with phase := .length got }
  else
    let length := BigEndian.read got
    if length > s.readLimit.toNat then
      { r.returns (.error (.messageTooLarge length s.readLimit.toNat)) with lost := true }
    else { r with phase := .body length [] }

def readBody (r : TcpReader) (length : Nat) (got : List UInt8) (count : Nat) : TcpReader :=
  let (got, arrived) := readExact length count got r.arrived
  let r := { r with arrived := arrived }
  if got.length < length then { r with phase := .body length got } else r.returns (.ok got)

def step (s : TcpTransportStream) (r : TcpReader) : ReadEvent → TcpReader
  | .arrive count =>
    { r with inFlight := r.inFlight.drop count, arrived := r.arrived ++ r.inFlight.take count }
  | .call =>
    match r.phase with
    | .idle => { r with phase := .length [] }
    | _ => r
  | .read count =>
    match r.phase with
    | .idle => r
    | .length got => r.readLength s got count
    | .body length got => r.readBody length got count
  | .expire =>
    match s.timeouts.readTimeout, r.phase with
    | some timeout, .length got =>
      { r.returns (.error (.timeout timeout)) with lost := r.lost || !got.isEmpty }
    | some timeout, .body length _ =>
      { r.returns (.error (.timeout timeout)) with lost := r.lost || length != 0 }
    | _, _ => r

def handedOut (results : List (Except TransportError (List UInt8))) : List (List UInt8) :=
  results.filterMap Except.toOption

/-- No call reads once another has ended inside a frame. -/
def Steady (r : TcpReader) : ReadEvent → Prop
  | .read _ => r.lost = false
  | _ => True

instance (r : TcpReader) : (event : ReadEvent) → Decidable (r.Steady event)
  | .read _ => inferInstanceAs (Decidable (r.lost = false))
  | .arrive _ | .call | .expire => .isTrue trivial

/-! ## `read_exact` -/

section
variable {want count : Nat} {got source : List UInt8}

theorem readExact_append : (readExact want count got source).1 ++ (readExact want count got source).2 =
    got ++ source := by
  rw [readExact, List.append_assoc, List.take_append_drop]

theorem readExact_length_le (h : got.length ≤ want) : (readExact want count got source).1.length ≤ want := by
  rw [readExact, List.length_append, List.length_take]
  omega

theorem readExact_all {bytes rest : List UInt8} (h : bytes.length = want) :
    readExact want want [] (bytes ++ rest) = (bytes, rest) := by
  rw [readExact, List.length_nil, Nat.sub_zero, Nat.min_self]
  rw [List.take_left' h, List.drop_left' h, List.nil_append]

end

/-- A call that is not cut off takes from the stream and returns what `read_frame_internal` does. -/
theorem run_uninterrupted {s : TcpTransportStream} {r : TcpReader} {data rest : List UInt8}
    (hIdle : r.phase = .idle) (hArrived : r.arrived = tcpFrame data ++ rest)
    (hLength : data.length < 2 ^ 32) :
    Trace.run (step s) r [.call, .read 4, .read data.length] =
      { r with
        arrived := (s.readFrameInternal r.arrived).1
        results := r.results ++ [(s.readFrameInternal r.arrived).2]
        lost := r.lost || decide (s.readLimit.toNat < data.length) } := by
  obtain ⟨inFlight, arrived, phase, results, lost⟩ := r
  obtain rfl : phase = .idle := hIdle
  obtain rfl : arrived = tcpFrame data ++ rest := hArrived
  have hRead : BigEndian.read (BigEndian.write 4 data.length) = data.length :=
    BigEndian.read_write_of_lt hLength
  rw [Trace.run, List.foldl_cons, List.foldl_cons]
  dsimp only [step]
  rw [readLength]
  dsimp only
  rw [tcpFrame, List.append_assoc, readExact_all (BigEndian.write_length 4 _)]
  dsimp only
  rw [if_neg (by rw [BigEndian.write_length]; decide), hRead]
  rcases Nat.lt_or_ge s.readLimit.toNat data.length with hLong | hShort
  · rw [if_pos hLong, TcpTransportStream.readFrameInternal_of_lt hLength hLong, decide_eq_true hLong,
      Bool.or_true]
    rfl
  · have hWhole := TcpTransportStream.readFrameInternal_of_le hLength hShort rest
    rw [tcpFrame, List.append_assoc] at hWhole
    rw [if_neg (Nat.not_lt.mpr hShort), hWhole, decide_eq_false (Nat.not_lt.mpr hShort), Bool.or_false]
    change readBody ⟨inFlight, data ++ rest, .body data.length [], results, lost⟩ data.length []
      data.length = _
    rw [readBody]
    dsimp only
    rw [readExact_all rfl]
    dsimp only
    rw [if_neg (Nat.lt_irrefl _)]
    rfl

/-! ## The invariant -/

/-- The stream stands where the running call has got to in the next frame, or framing is lost. -/
inductive Consistent (frames : List (List UInt8)) : TcpReader → Prop where
  | idle {done rest inFlight arrived results} :
    frames = done ++ rest → (handedOut results).Sublist done → arrived ++ inFlight = rest.flatMap tcpFrame →
    Consistent frames ⟨inFlight, arrived, .idle, results, false⟩
  | length {done rest inFlight arrived got results} :
    frames = done ++ rest → (handedOut results).Sublist done →
    got ++ (arrived ++ inFlight) = rest.flatMap tcpFrame → got.length < 4 →
    Consistent frames ⟨inFlight, arrived, .length got, results, false⟩
  | body {done rest data inFlight arrived got results} :
    frames = done ++ data :: rest → (handedOut results).Sublist done →
    got ++ (arrived ++ inFlight) = data ++ rest.flatMap tcpFrame → got.length ≤ data.length →
    Consistent frames ⟨inFlight, arrived, .body data.length got, results, false⟩
  | lost {inFlight arrived phase results} :
    (handedOut results).Sublist frames → Consistent frames ⟨inFlight, arrived, phase, results, true⟩

section
variable {results : List (Except TransportError (List UInt8))} {frames done rest : List (List UInt8)}

theorem sublist_error (h : (handedOut results).Sublist done) (e : TransportError) :
    (handedOut (results ++ [.error e])).Sublist done := by
  have hSame : handedOut (results ++ [.error e]) = handedOut results := by
    simp [handedOut, Except.toOption]
  rw [hSame]
  exact h

theorem sublist_ok (h : (handedOut results).Sublist done) (data : List UInt8) :
    (handedOut (results ++ [.ok data])).Sublist (done ++ [data]) := by
  have hLast : handedOut (results ++ [.ok data]) = handedOut results ++ [data] := by
    simp [handedOut, Except.toOption]
  rw [hLast]
  exact h.append_right [data]

theorem sublist_frames (hFrames : frames = done ++ rest) (h : (handedOut results).Sublist done) :
    (handedOut results).Sublist frames := by
  rw [hFrames]
  exact h.trans (List.sublist_append_left done rest)

end

theorem Consistent.handedOut_sublist {frames : List (List UInt8)} {r : TcpReader} (h : Consistent frames r) :
    (handedOut r.results).Sublist frames := by
  cases h with
  | idle hFrames hResults _ => exact sublist_frames hFrames hResults
  | length hFrames hResults _ _ => exact sublist_frames hFrames hResults
  | body hFrames hResults _ _ => exact sublist_frames hFrames hResults
  | lost hResults => exact hResults

/-! ## One step -/

section
variable {s : TcpTransportStream} {frames done rest : List (List UInt8)} {data got inFlight arrived : List UInt8}
  {results : List (Except TransportError (List UInt8))}

theorem Consistent.readLength (hLength : ∀ data ∈ frames, data.length < 2 ^ 32) (hFrames : frames = done ++ rest)
    (hResults : (TcpReader.handedOut results).Sublist done)
    (hStream : got ++ (arrived ++ inFlight) = rest.flatMap tcpFrame) (hShort : got.length < 4) (count : Nat) :
    Consistent frames (TcpReader.readLength s ⟨inFlight, arrived, .length got, results, false⟩ got count) := by
  have hAppend := @readExact_append 4 count got arrived
  have hLe := @readExact_length_le 4 count got arrived (Nat.le_of_lt hShort)
  rw [TcpReader.readLength]
  generalize readExact 4 count got arrived = exact at hAppend hLe
  obtain ⟨got', arrived'⟩ := exact
  dsimp only at hAppend hLe ⊢
  have hStream' : got' ++ (arrived' ++ inFlight) = rest.flatMap tcpFrame := by
    rw [← hStream, ← List.append_assoc, hAppend, List.append_assoc]
  split
  · rename_i hPartial
    exact .length hFrames hResults hStream' hPartial
  · rename_i hComplete
    have hFour : got'.length = 4 := Nat.le_antisymm hLe (Nat.not_lt.mp hComplete)
    cases rest with
    | nil =>
      rw [List.flatMap_nil, List.append_eq_nil_iff] at hStream'
      rw [hStream'.1] at hFour
      cases hFour
    | cons data rest =>
      rw [List.flatMap_cons, tcpFrame, List.append_assoc] at hStream'
      obtain ⟨rfl, hBody⟩ := List.append_inj hStream' (by rw [hFour, BigEndian.write_length])
      have hData : data.length < 256 ^ 4 := hLength data (by rw [hFrames]; simp)
      rw [BigEndian.read_write_of_lt hData]
      split
      · exact .lost (sublist_error (sublist_frames hFrames hResults) _)
      · exact .body hFrames hResults hBody (Nat.zero_le _)

theorem Consistent.readBody (hFrames : frames = done ++ data :: rest)
    (hResults : (TcpReader.handedOut results).Sublist done)
    (hStream : got ++ (arrived ++ inFlight) = data ++ rest.flatMap tcpFrame) (hShort : got.length ≤ data.length)
    (count : Nat) :
    Consistent frames
      (TcpReader.readBody ⟨inFlight, arrived, .body data.length got, results, false⟩ data.length got count) := by
  have hAppend := @readExact_append data.length count got arrived
  have hLe := @readExact_length_le data.length count got arrived hShort
  rw [TcpReader.readBody]
  generalize readExact data.length count got arrived = exact at hAppend hLe
  obtain ⟨got', arrived'⟩ := exact
  dsimp only at hAppend hLe ⊢
  have hStream' : got' ++ (arrived' ++ inFlight) = data ++ rest.flatMap tcpFrame := by
    rw [← hStream, ← List.append_assoc, hAppend, List.append_assoc]
  split
  · exact .body hFrames hResults hStream' hLe
  · rename_i hComplete
    obtain ⟨rfl, hNext⟩ := List.append_inj hStream' (Nat.le_antisymm hLe (Nat.not_lt.mp hComplete))
    rw [List.append_cons] at hFrames
    exact .idle hFrames (sublist_ok hResults got') hNext

theorem Consistent.step {r : TcpReader} {event : ReadEvent} (hLength : ∀ data ∈ frames, data.length < 2 ^ 32)
    (h : Consistent frames r) (hSteady : r.Steady event) : Consistent frames (r.step s event) := by
  have hArrive (inFlight arrived : List UInt8) (count : Nat) :
      arrived ++ inFlight.take count ++ inFlight.drop count = arrived ++ inFlight := by
    rw [List.append_assoc, List.take_append_drop]
  cases h with
  | idle hFrames hResults hStream =>
    cases event with
    | arrive count => exact .idle hFrames hResults (by rw [hArrive, hStream])
    | call => exact .length hFrames hResults hStream (by decide)
    | read count => exact .idle hFrames hResults hStream
    | expire =>
      rw [TcpReader.step]
      cases s.timeouts.readTimeout <;> exact .idle hFrames hResults hStream
  | @length _ _ inFlight arrived got _ hFrames hResults hStream hShort =>
    cases event with
    | arrive count => exact .length hFrames hResults (by rw [hArrive, hStream]) hShort
    | call => exact .length hFrames hResults hStream hShort
    | read count => exact .readLength hLength hFrames hResults hStream hShort count
    | expire =>
      rw [TcpReader.step]
      cases s.timeouts.readTimeout with
      | none => exact .length hFrames hResults hStream hShort
      | some timeout =>
        cases got with
        | nil => exact .idle hFrames (sublist_error hResults _) hStream
        | cons byte got => exact .lost (sublist_error (sublist_frames hFrames hResults) _)
  | @body _ _ data _ _ _ _ hFrames hResults hStream hShort =>
    cases event with
    | arrive count => exact .body hFrames hResults (by rw [hArrive, hStream]) hShort
    | call => exact .body hFrames hResults hStream hShort
    | read count => exact .readBody hFrames hResults hStream hShort count
    | expire =>
      rw [TcpReader.step]
      cases s.timeouts.readTimeout with
      | none => exact .body hFrames hResults hStream hShort
      | some timeout =>
        cases data with
        | nil =>
          -- an empty frame ends with its length
          obtain rfl := List.eq_nil_of_length_eq_zero (Nat.le_zero.mp hShort)
          rw [List.append_cons] at hFrames
          exact .idle hFrames (sublist_error (hResults.trans (List.sublist_append_left _ _)) _) hStream
        | cons byte data => exact .lost (sublist_error (sublist_frames hFrames hResults) _)
  | lost hResults =>
    cases event with
    | arrive count => exact .lost hResults
    | call =>
      rw [TcpReader.step]
      split <;> exact .lost hResults
    | read count => cases hSteady
    | expire =>
      rw [TcpReader.step]
      split
      · exact .lost (sublist_error hResults _)
      · exact .lost (sublist_error hResults _)
      · exact .lost hResults

end

/-! ## Every run -/

/-- As long as no call reads behind a call that ended inside a frame, the data that is handed out was
sent, in the order of the frames. -/
theorem handedOut_of_steady {s : TcpTransportStream} {frames : List (List UInt8)} {events : List ReadEvent}
    (hLength : ∀ data ∈ frames, data.length < 2 ^ 32)
    (hSteady : Trace.Along (step s) Steady (init frames) events) :
    ∀ before, before <+: events →
      (handedOut (Trace.run (step s) (init frames) before).results).Sublist frames := by
  intro before hBefore
  have hStep (r : TcpReader) (event : ReadEvent) (h : Consistent frames r) (hOk : r.Steady event) :
      Consistent frames (r.step s event) := h.step hLength hOk
  have hInit : Consistent frames (init frames) := .idle (List.nil_append frames).symm (.refl _) rfl
  exact (hSteady.throughout hStep hInit hBefore).handedOut_sublist

/-- Two frames arrive in pieces, and a call is cut off before the second of them has begun. -/
def piecewiseEvents : List ReadEvent :=
  [.arrive 3, .call, .read 4, .arrive 4, .read 1, .read 8, .call, .expire, .arrive 5, .call, .read 4, .read 1]

theorem piecewiseEvents_handedOut :
    (handedOut (Trace.run (step TcpConfig.default.accept) (init [[7, 8], [9]]) piecewiseEvents).results).Sublist
      [[7, 8], [9]] :=
  @handedOut_of_steady TcpConfig.default.accept [[7, 8], [9]] piecewiseEvents (by decide)
    (by decide +kernel) piecewiseEvents (List.prefix_refl piecewiseEvents)

/-- A frame of 31 bytes, which is one more than the default timeout has seconds. -/
def longFrame : List UInt8 := [0, 0, 0, 1, 7] ++ List.replicate 26 0

def refusedEvents : List ReadEvent := [.arrive 35, .call, .read 4, .call, .read 4, .read 1]

def cutOffEvents : List ReadEvent :=
  [.arrive 4, .call, .read 4, .expire, .arrive 5, .call, .read 4, .read 1]

/-- After a frame was refused, and after a call was cut off while the data of its frame was still to
arrive, the next call takes the data of the frame for a length, and returns a byte from the middle. -/
theorem middle_handedOut :
    (Trace.run (step TcpConfig.default.accept) (init [longFrame]) refusedEvents).results =
        [.error (.messageTooLarge 31 30), .ok [7]] ∧
      ¬ (handedOut (Trace.run (step TcpConfig.default.accept) (init [longFrame])
        refusedEvents).results).Sublist [longFrame] ∧
      (Trace.run (step TcpConfig.default.accept) (init [[0, 0, 0, 1, 7]]) cutOffEvents).results =
        [.error (.timeout (.fromSecs 30)), .ok [7]] ∧
      ¬ (handedOut (Trace.run (step TcpConfig.default.accept) (init [[0, 0, 0, 1, 7]])
        cutOffEvents).results).Sublist [[0, 0, 0, 1, 7]] := by
  have hRefused : (Trace.run (step TcpConfig.default.accept) (init [longFrame]) refusedEvents).results =
      [.error (.messageTooLarge 31 30), .ok [7]] := by decide +kernel
  have hCutOff : (Trace.run (step TcpConfig.default.accept) (init [[0, 0, 0, 1, 7]]) cutOffEvents).results =
      [.error (.timeout (.fromSecs 30)), .ok [7]] := by decide +kernel
  refine ⟨hRefused, ?_, hCutOff, ?_⟩
  · rw [hRefused]
    decide +kernel
  · rw [hCutOff]
    decide +kernel

end TcpReader

end Fleximq.Transport
