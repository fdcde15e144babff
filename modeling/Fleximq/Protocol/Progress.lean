import Fleximq.Foundation.Loop
import Fleximq.Protocol.ParseAll
import Fleximq.Protocol.Waiting

/-! # Progress of the parser

`push_data` bounds the buffer and `try_parse` the frames it waits for by the same
limit, so there is room for the rest of any frame that the parser waits for.
-/
namespace Fleximq.Protocol.MessageParser
open Foundation

inductive Operation where
  | pushData (data : List UInt8)
  | tryParse
  | parseAll
  | clear

def operate (p : MessageParser) : Operation → MessageParser
  | .pushData data =>
    match p.pushData data with
    | .ok p => p
    | .error _ => p
  | .tryParse => p.tryParse.1
  | .parseAll => p.parseAll.1
  | .clear => p.clear

/-- The buffer is within the message limit. When a call leaves the parser waiting with a base header
in its buffer, the rest of the declared total is accepted, and with it the next call delivers exactly
those bytes. -/
structure Unwedged (maxMessageSize : Usize) (p : MessageParser) : Prop where
  size_le : p.bufferSize ≤ maxMessageSize.toNat
  progress : ∀ p' h, p.tryParse = (p', .ok none) → baseHeaderSize ≤ p'.bufferSize →
    parseBaseHeader p'.buffer = .ok h →
    p'.bufferSize < h.totalMessageSize.toNat ∧ h.totalMessageSize.toNat ≤ maxMessageSize.toNat ∧
      ∀ data : List UInt8, data.length = h.totalMessageSize.toNat - p'.bufferSize →
        ∃ p'' m, p'.pushData data = .ok p'' ∧ p''.tryParse = (p''.clear, .ok (some m)) ∧
          m.rawBytes = p'.buffer ++ data

structure Bounded (maxMessageSize maxHeaderSize : Usize) (p : MessageParser) : Prop where
  message_eq : p.maxMessageSize = maxMessageSize
  header_eq : p.maxHeaderSize = maxHeaderSize
  size_le : p.bufferSize ≤ maxMessageSize.toNat

variable {maxMessageSize maxHeaderSize : Usize}

theorem Bounded.withBuffer {p : MessageParser} (hBounded : Bounded maxMessageSize maxHeaderSize p)
    {buffer : List UInt8} (hSuffix : buffer <:+ p.buffer) :
    Bounded maxMessageSize maxHeaderSize { p with buffer := buffer } :=
  ⟨hBounded.message_eq, hBounded.header_eq, Nat.le_trans hSuffix.length_le hBounded.size_le⟩

theorem Bounded.operate (p : MessageParser) (operation : Operation)
    (hBounded : Bounded maxMessageSize maxHeaderSize p) :
    Bounded maxMessageSize maxHeaderSize (p.operate operation) := by
  cases operation with
  | pushData data =>
    rw [MessageParser.operate, MessageParser.pushData]
    split_ifs with hFull
    · exact hBounded
    · refine ⟨hBounded.message_eq, hBounded.header_eq, ?_⟩
      rw [← hBounded.message_eq, bufferSize, List.length_append]
      exact Nat.not_lt.mp hFull
  | tryParse =>
    obtain ⟨buffer, hSuffix, hState⟩ := tryParse_state p
    rw [MessageParser.operate, hState]
    exact hBounded.withBuffer hSuffix
  | parseAll =>
    obtain ⟨buffer, hSuffix, hState⟩ := parseAll_state p
    rw [MessageParser.operate, hState]
    exact hBounded.withBuffer hSuffix
  | clear => exact hBounded.withBuffer (List.nil_suffix)

theorem bounded_withLimits (maxMessageSize maxHeaderSize : Usize) :
    Bounded maxMessageSize maxHeaderSize (withLimits maxMessageSize maxHeaderSize) :=
  ⟨rfl, rfl, Nat.zero_le _⟩

theorem tryParse_completed {p : MessageParser} {h : BaseHeader} {data : List UInt8}
    (hParse : parseBaseHeader p.buffer = .ok h) (hPermits : Permits p.maxMessageSize p.maxHeaderSize h)
    (hLength : (p.buffer ++ data).length = h.totalMessageSize.toNat) :
    MessageParser.tryParse { p with buffer := p.buffer ++ data } =
      (p.clear, .ok (some ⟨h, p.buffer ++ data⟩)) := by
  have hMin := parseBaseHeader_length hParse
  have hDeliver : verdict p.maxMessageSize p.maxHeaderSize (p.buffer ++ data) =
      .deliver ⟨h, p.buffer ++ data⟩ (p.buffer ++ data).length := by
    refine verdict_eq_deliver.mpr
      ⟨h, parseBaseHeader_append hParse data, hPermits, hLength, ?_, Nat.le_refl _, ?_⟩
    · rw [List.length_append]
      omega
    · rw [List.take_length]
  rw [tryParse_deliver { p with buffer := p.buffer ++ data } hDeliver, List.drop_length]
  rfl

theorem Bounded.unwedged {p : MessageParser} (hBounded : Bounded maxMessageSize maxHeaderSize p) :
    Unwedged maxMessageSize p := by
  refine ⟨hBounded.size_le, ?_⟩
  intro p' h hNone hMin hParse
  have hWait := tryParse_eq_none.mp (congrArg Prod.snd hNone)
  obtain rfl : p = p' := congrArg Prod.fst ((tryParse_wait p hWait).symm.trans hNone)
  rcases verdict_eq_wait.mp hWait with hUndecided | ⟨h', hParse', hPermits, hIncomplete⟩
  · exact absurd hParse (hUndecided h)
  obtain rfl : h = h' := Except.ok.inj (hParse.symm.trans hParse')
  have hTotal := UInt64.le_iff_toNat_le.mp hPermits.total_le
  refine ⟨hIncomplete, by rwa [← hBounded.message_eq], ?_⟩
  intro data hData
  have hLength : (p.buffer ++ data).length = h.totalMessageSize.toNat := by
    rw [List.length_append, hData, bufferSize]
    omega
  refine ⟨{ p with buffer := p.buffer ++ data }, ⟨h, p.buffer ++ data⟩, ?_, ?_, rfl⟩
  · rw [List.length_append] at hLength
    rw [MessageParser.pushData, hLength, if_neg (Nat.not_lt.mpr hTotal)]
  · exact tryParse_completed hParse hPermits hLength

/-- No sequence of calls wedges the parser. -/
theorem run_unwedged (maxMessageSize maxHeaderSize : Usize) (operations : List Operation) :
    Unwedged maxMessageSize (Trace.run operate (withLimits maxMessageSize maxHeaderSize) operations) :=
  (Trace.run_invariant Bounded.operate (bounded_withLimits maxMessageSize maxHeaderSize) operations).unwedged

theorem newsFrame_unwedged :
    ∃ p p' p'' m, Trace.run operate (withLimits 47 12) [.pushData (newsFrame.bytes.take 40)] = p ∧
      p.tryParse = (p', .ok none) ∧ p'.pushData (newsFrame.bytes.drop 40) = .ok p'' ∧
      p''.tryParse = (p''.clear, .ok (some m)) ∧ m.rawBytes = newsFrame.bytes := by
  have hWaits : tryParse (Trace.run operate (withLimits 47 12) [.pushData (newsFrame.bytes.take 40)]) =
      (⟨newsFrame.bytes.take 40, 47, 12⟩, .ok none) := rfl
  obtain ⟨_, _, hFits⟩ := (run_unwedged 47 12 [.pushData (newsFrame.bytes.take 40)]).progress _
    newsFrame.baseHeader hWaits (by decide) (by decide +kernel)
  obtain ⟨p'', m, hPush, hDeliver, hBytes⟩ := hFits (newsFrame.bytes.drop 40) (by decide)
  exact ⟨_, _, p'', m, rfl, hWaits, hPush, hDeliver, hBytes.trans (List.take_append_drop 40 _)⟩

/-! ## Every delivery -/

theorem tryParse_takes {p p' : MessageParser} {m : Message} (h : p.tryParse = (p', .ok (some m))) :
    p.buffer = m.rawBytes ++ p'.buffer ∧ baseHeaderSize ≤ m.rawBytes.length := by
  obtain ⟨n, hDeliver, rfl⟩ := tryParse_eq_some h
  have hBytes := verdict_take_rawBytes hDeliver
  obtain ⟨_, _, _, rfl, hLong, hComplete, _⟩ := verdict_eq_deliver.mp hDeliver
  constructor
  · rw [hBytes, List.take_append_drop]
  · rw [hBytes, List.length_take_of_le hComplete]
    exact hLong

/-- The body of the loop in `parse_all`, in the state of its messages and its parser. -/
def parseAllBody : List Message × MessageParser →
    Loop.Flow (List Message × MessageParser) (MessageParser × Except ProtocolError (List Message))
  | (messages, p) =>
    match p.tryParse with
    | (p', .error e) => .done (p', .error e)
    | (p', .ok none) => .done (p', .ok messages)
    | (p', .ok (some message)) => .next (messages ++ [message], p')

theorem parseAllBody_next {s s' : List Message × MessageParser} (h : parseAllBody s = .next s') :
    ∃ m, s.2.tryParse = (s'.2, .ok (some m)) ∧ s'.1 = s.1 ++ [m] := by
  obtain ⟨messages, p⟩ := s
  rw [parseAllBody] at h
  split at h
  · cases h
  · cases h
  · rename_i p' m hParse
    cases h
    exact ⟨m, hParse, rfl⟩

theorem parseAllFrom_of_run {fuel : Nat} {messages : List Message} {p : MessageParser}
    {result : MessageParser × Except ProtocolError (List Message)}
    (h : Loop.run parseAllBody fuel (messages, p) = some result) : parseAllFrom messages p = result := by
  refine Loop.eq_of_run (f := fun s => parseAllFrom s.1 s.2) ?_ ?_ h
  · intro s s' hNext
    obtain ⟨m, hParse, hMessages⟩ := parseAllBody_next hNext
    rw [parseAllFrom_eq, hParse, hMessages]
  · rintro ⟨found, p⟩ result hDone
    rw [parseAllBody] at hDone
    rw [parseAllFrom_eq]
    split at hDone <;> rename_i hParse <;> cases hDone <;> rw [hParse]

/-- The loop of `parse_all` breaks after at most one delivery for every 34 bytes of the buffer, with
the result of `parse_all`. -/
theorem run_parseAllBody (p : MessageParser) :
    Loop.run parseAllBody (p.bufferSize / baseHeaderSize + 1) ([], p) = some p.parseAll := by
  have hStep (s s' : List Message × MessageParser) (hNext : parseAllBody s = .next s') :
      s'.2.bufferSize + baseHeaderSize ≤ s.2.bufferSize := by
    obtain ⟨m, hParse, _⟩ := parseAllBody_next hNext
    obtain ⟨hBuffer, hLong⟩ := tryParse_takes hParse
    rw [bufferSize, bufferSize, hBuffer, List.length_append]
    omega
  have hFuel : p.bufferSize < (p.bufferSize / baseHeaderSize + 1) * baseHeaderSize :=
    Nat.lt_mul_of_div_lt (Nat.lt_succ_self _) (by decide)
  obtain ⟨result, hRun⟩ := Loop.exists_run hStep (s := ([], p)) hFuel
  rw [hRun, parseAll, parseAllFrom_of_run hRun]

/-- Whatever the buffer holds, each delivery consumes its message and the loop ends. -/
theorem deliveries_progress (p : MessageParser) :
    (∀ p' m, p.tryParse = (p', .ok (some m)) →
      p.buffer = m.rawBytes ++ p'.buffer ∧ baseHeaderSize ≤ m.rawBytes.length) ∧
    Loop.run parseAllBody (p.bufferSize / baseHeaderSize + 1) ([], p) = some p.parseAll :=
  ⟨fun _ _ => tryParse_takes, run_parseAllBody p⟩

end Fleximq.Protocol.MessageParser
