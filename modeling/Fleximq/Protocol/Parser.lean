import Fleximq.Foundation.Incremental
import Fleximq.Protocol.Frame

/-! # The streaming parser

`MessageParser::try_parse` reads the base header at the front of its buffer and
decides by it alone, until the whole message is there. Every lemma about it goes
through the two equations `tryParse_undecided` and `tryParse_decided`.
-/
namespace Fleximq.Protocol
open Foundation
open Foundation.Incremental (Verdict Decoder)

structure MessageParser where
  buffer : List UInt8
  maxMessageSize : Usize
  maxHeaderSize : Usize
  deriving DecidableEq

namespace MessageParser

def withLimits (maxMessageSize maxHeaderSize : Usize) : MessageParser :=
  ⟨[], maxMessageSize, maxHeaderSize⟩

def new : MessageParser := withLimits defaultMaxMessageSize defaultMaxHeaderSize

/-- The parser with the data added; on an error it is unchanged. -/
def pushData (p : MessageParser) (data : List UInt8) : Except ProtocolError MessageParser :=
  -- the sum of two lengths in memory does not wrap
  if p.buffer.length + data.length > p.maxMessageSize.toNat then
    .error (.messageTooLarge (p.buffer.length + data.length) p.maxMessageSize.toNat)
  else .ok { p with buffer := p.buffer ++ data }

def tryComplete (p : MessageParser) (baseHeader : BaseHeader) :
    MessageParser × Except ProtocolError (Option Message) :=
  if baseHeader.headerLength > p.maxHeaderSize.toUInt32 then
    (p, .error (.headerTooLarge baseHeader.headerLength.toNat p.maxHeaderSize.toNat))
  else
    let totalSize := baseHeader.totalMessageSize
    if totalSize > p.maxMessageSize then
      (p, .error (.messageTooLarge totalSize.toNat p.maxMessageSize.toNat))
    else if p.buffer.length < totalSize.toNat then (p, .ok none)
    else
      -- the bytes are gone from the buffer even when `from_bytes` refuses them
      let messageBytes := p.buffer.take totalSize.toNat
      ({ p with buffer := p.buffer.drop totalSize.toNat }, (Message.fromBytes messageBytes).map some)

def tryParse (p : MessageParser) : MessageParser × Except ProtocolError (Option Message) :=
  if p.buffer.length < baseHeaderSize then (p, .ok none)
  else
    match parseBaseHeader (p.buffer.take baseHeaderSize) with
    | .error _ => (p, .ok none)
    | .ok baseHeader => p.tryComplete baseHeader

def bufferSize (p : MessageParser) : Nat := p.buffer.length

def clear (p : MessageParser) : MessageParser := { p with buffer := [] }

def isEmpty (p : MessageParser) : Bool := p.buffer.isEmpty

/-! ## The decision -/

theorem tryParse_undecided (p : MessageParser)
    (h : ∀ baseHeader, parseBaseHeader p.buffer ≠ .ok baseHeader) :
    p.tryParse = (p, .ok none) := by
  rw [tryParse]
  split
  · rfl
  · split
    · rfl
    · rename_i baseHeader hParse
      exact absurd (parseBaseHeader_take.mp hParse) (h baseHeader)

theorem tryParse_decided (p : MessageParser) {baseHeader : BaseHeader}
    (h : parseBaseHeader p.buffer = .ok baseHeader) : p.tryParse = p.tryComplete baseHeader := by
  rw [tryParse, if_neg (Nat.not_lt.mpr (parseBaseHeader_length h)), parseBaseHeader_take.mpr h]

structure Permits (maxMessageSize maxHeaderSize : Usize) (h : BaseHeader) : Prop where
  header_le : h.headerLength ≤ maxHeaderSize.toUInt32
  total_le : h.totalMessageSize ≤ maxMessageSize

def limitError (maxMessageSize maxHeaderSize : Usize) (h : BaseHeader) : ProtocolError :=
  if h.headerLength > maxHeaderSize.toUInt32 then
    .headerTooLarge h.headerLength.toNat maxHeaderSize.toNat
  else .messageTooLarge h.totalMessageSize.toNat maxMessageSize.toNat

theorem tryComplete_of_permits {p : MessageParser} {h : BaseHeader}
    (hPermits : Permits p.maxMessageSize p.maxHeaderSize h) :
    p.tryComplete h =
      if p.buffer.length < h.totalMessageSize.toNat then (p, .ok none)
      else ({ p with buffer := p.buffer.drop h.totalMessageSize.toNat },
        (Message.fromBytes (p.buffer.take h.totalMessageSize.toNat)).map some) := by
  rw [tryComplete, if_neg (UInt32.not_lt.mpr hPermits.header_le)]
  exact if_neg (UInt64.not_lt.mpr hPermits.total_le)

theorem tryComplete_of_not_permits {p : MessageParser} {h : BaseHeader}
    (hRefused : ¬ Permits p.maxMessageSize p.maxHeaderSize h) :
    p.tryComplete h = (p, .error (limitError p.maxMessageSize p.maxHeaderSize h)) := by
  rw [tryComplete, limitError]
  split
  · rfl
  · rename_i hHeader
    apply if_pos
    rw [gt_iff_lt, ← UInt64.not_le]
    intro hTotal
    exact hRefused ⟨UInt32.not_lt.mp hHeader, hTotal⟩

theorem fromBytes_take {data : List UInt8} {baseHeader : BaseHeader}
    (hParse : parseBaseHeader data = .ok baseHeader)
    (hLength : baseHeader.totalMessageSize.toNat ≤ data.length) :
    Message.fromBytes (data.take baseHeader.totalMessageSize.toNat) =
      if baseHeader.totalMessageSize.toNat < baseHeaderSize then
        .error (.incompleteData baseHeaderSize baseHeader.totalMessageSize.toNat)
      else .ok ⟨baseHeader, data.take baseHeader.totalMessageSize.toNat⟩ := by
  have hTake : (data.take baseHeader.totalMessageSize.toNat).length =
      baseHeader.totalMessageSize.toNat := by
    rw [List.length_take]
    omega
  split
  · rename_i hShort
    rw [Message.fromBytes, hTake, if_pos hShort]
  · rename_i hLong
    apply Message.fromBytes_eq_ok.mpr
    refine ⟨?_, rfl, hTake⟩
    apply parseBaseHeader_take.mp
    rw [List.take_take, Nat.min_eq_left (Nat.not_lt.mp hLong)]
    exact parseBaseHeader_take.mpr hParse

/-! ## The parser as a decoder -/

def verdict (maxMessageSize maxHeaderSize : Usize) (buffer : List UInt8) :
    Verdict ProtocolError Message :=
  match tryParse ⟨buffer, maxMessageSize, maxHeaderSize⟩ with
  | (_, .ok none) => .wait
  | (p, .ok (some message)) => .deliver message (buffer.length - p.buffer.length)
  | (_, .error e) => .fail e

variable {maxMessageSize maxHeaderSize : Usize} {buffer : List UInt8} {h : BaseHeader}

theorem verdict_undecided (hParse : ∀ h, parseBaseHeader buffer ≠ .ok h) :
    verdict maxMessageSize maxHeaderSize buffer = .wait := by
  rw [verdict, tryParse_undecided ⟨buffer, _, _⟩ hParse]

theorem verdict_refused (hParse : parseBaseHeader buffer = .ok h)
    (hRefused : ¬ Permits maxMessageSize maxHeaderSize h) :
    verdict maxMessageSize maxHeaderSize buffer = .fail (limitError maxMessageSize maxHeaderSize h) := by
  rw [verdict, tryParse_decided ⟨buffer, _, _⟩ hParse, tryComplete_of_not_permits hRefused]

theorem verdict_permitted (hParse : parseBaseHeader buffer = .ok h)
    (hPermits : Permits maxMessageSize maxHeaderSize h) :
    verdict maxMessageSize maxHeaderSize buffer =
      if buffer.length < h.totalMessageSize.toNat then .wait
      else if h.totalMessageSize.toNat < baseHeaderSize then
        .fail (.incompleteData baseHeaderSize h.totalMessageSize.toNat)
      else .deliver ⟨h, buffer.take h.totalMessageSize.toNat⟩ h.totalMessageSize.toNat := by
  rw [verdict, tryParse_decided ⟨buffer, _, _⟩ hParse, tryComplete_of_permits hPermits]
  dsimp only
  by_cases hIncomplete : buffer.length < h.totalMessageSize.toNat
  · rw [if_pos hIncomplete, if_pos hIncomplete]
  · have hLength := Nat.not_lt.mp hIncomplete
    rw [if_neg hIncomplete, if_neg hIncomplete, fromBytes_take hParse hLength]
    by_cases hShort : h.totalMessageSize.toNat < baseHeaderSize
    · rw [if_pos hShort, if_pos hShort]
      rfl
    · rw [if_neg hShort, if_neg hShort]
      change Verdict.deliver _ (buffer.length - (buffer.drop _).length) = _
      rw [List.length_drop, Nat.sub_sub_self hLength]

theorem verdict_eq_wait :
    verdict maxMessageSize maxHeaderSize buffer = .wait ↔
      (∀ h, parseBaseHeader buffer ≠ .ok h) ∨
        ∃ h, parseBaseHeader buffer = .ok h ∧ Permits maxMessageSize maxHeaderSize h ∧
          buffer.length < h.totalMessageSize.toNat := by
  constructor
  · intro hWait
    by_cases hParse : ∃ h, parseBaseHeader buffer = .ok h
    · right
      obtain ⟨h, hParse⟩ := hParse
      by_cases hPermits : Permits maxMessageSize maxHeaderSize h
      · refine ⟨h, hParse, hPermits, ?_⟩
        rw [verdict_permitted hParse hPermits] at hWait
        by_contra hComplete
        rw [if_neg hComplete] at hWait
        split at hWait <;> cases hWait
      · rw [verdict_refused hParse hPermits] at hWait
        cases hWait
    · exact .inl (not_exists.mp hParse)
  · rintro (hParse | ⟨h, hParse, hPermits, hIncomplete⟩)
    · exact verdict_undecided hParse
    · rw [verdict_permitted hParse hPermits, if_pos hIncomplete]

theorem verdict_eq_deliver {m : Message} {n : Nat} :
    verdict maxMessageSize maxHeaderSize buffer = .deliver m n ↔
      ∃ h, parseBaseHeader buffer = .ok h ∧ Permits maxMessageSize maxHeaderSize h ∧
        n = h.totalMessageSize.toNat ∧ baseHeaderSize ≤ n ∧ n ≤ buffer.length ∧
          m = ⟨h, buffer.take n⟩ := by
  constructor
  · intro hDeliver
    by_cases hParse : ∃ h, parseBaseHeader buffer = .ok h
    · obtain ⟨h, hParse⟩ := hParse
      by_cases hPermits : Permits maxMessageSize maxHeaderSize h
      · rw [verdict_permitted hParse hPermits] at hDeliver
        split at hDeliver
        · cases hDeliver
        · rename_i hComplete
          split at hDeliver
          · cases hDeliver
          · rename_i hLong
            cases hDeliver
            exact ⟨h, hParse, hPermits, rfl, Nat.not_lt.mp hLong, Nat.not_lt.mp hComplete, rfl⟩
      · rw [verdict_refused hParse hPermits] at hDeliver
        cases hDeliver
    · rw [verdict_undecided (not_exists.mp hParse)] at hDeliver
      cases hDeliver
  · rintro ⟨h, hParse, hPermits, rfl, hLong, hComplete, rfl⟩
    rw [verdict_permitted hParse hPermits, if_neg (Nat.not_lt.mpr hComplete), if_neg (Nat.not_lt.mpr hLong)]

theorem verdict_eq_fail {e : ProtocolError} :
    verdict maxMessageSize maxHeaderSize buffer = .fail e ↔
      ∃ h, parseBaseHeader buffer = .ok h ∧
        (¬ Permits maxMessageSize maxHeaderSize h ∧ e = limitError maxMessageSize maxHeaderSize h ∨
          Permits maxMessageSize maxHeaderSize h ∧ h.totalMessageSize.toNat < baseHeaderSize ∧
            e = .incompleteData baseHeaderSize h.totalMessageSize.toNat) := by
  constructor
  · intro hFail
    by_cases hParse : ∃ h, parseBaseHeader buffer = .ok h
    · obtain ⟨h, hParse⟩ := hParse
      refine ⟨h, hParse, ?_⟩
      by_cases hPermits : Permits maxMessageSize maxHeaderSize h
      · right
        rw [verdict_permitted hParse hPermits] at hFail
        split at hFail
        · cases hFail
        · split at hFail
          · rename_i hShort
            cases hFail
            exact ⟨hPermits, hShort, rfl⟩
          · cases hFail
      · left
        rw [verdict_refused hParse hPermits] at hFail
        cases hFail
        exact ⟨hPermits, rfl⟩
    · rw [verdict_undecided (not_exists.mp hParse)] at hFail
      cases hFail
  · rintro ⟨h, hParse, ⟨hRefused, rfl⟩ | ⟨hPermits, hShort, rfl⟩⟩
    · exact verdict_refused hParse hRefused
    · have hLength := parseBaseHeader_length hParse
      rw [verdict_permitted hParse hPermits, if_neg (by omega), if_pos hShort]

theorem parseBaseHeader_append (hParse : parseBaseHeader buffer = .ok h) (more : List UInt8) :
    parseBaseHeader (buffer ++ more) = .ok h := by
  obtain ⟨hVersion, rest, rfl⟩ := parseBaseHeader_eq_ok.mp hParse
  rw [List.append_assoc]
  exact parseBaseHeader_encode hVersion _

/-- `try_parse` decides by the base header, so bytes to come change no answer but waiting. -/
def decoder (maxMessageSize maxHeaderSize : Usize) : Decoder UInt8 ProtocolError Message where
  verdict := verdict maxMessageSize maxHeaderSize
  progress := by
    intro input m n hDeliver
    obtain ⟨_, _, _, _, hLong, hComplete, _⟩ := verdict_eq_deliver.mp hDeliver
    exact ⟨Nat.lt_of_lt_of_le (by decide) hLong, hComplete⟩
  deliver_append := by
    intro input m n hDeliver more
    obtain ⟨h, hParse, hPermits, hTotal, hLong, hComplete, rfl⟩ := verdict_eq_deliver.mp hDeliver
    refine verdict_eq_deliver.mpr
      ⟨h, parseBaseHeader_append hParse more, hPermits, hTotal, hLong, ?_, ?_⟩
    · rw [List.length_append]
      omega
    · rw [List.take_append_of_le_length hComplete]
  fail_append := by
    intro input e hFail more
    obtain ⟨h, hParse, hReason⟩ := verdict_eq_fail.mp hFail
    exact verdict_eq_fail.mpr ⟨h, parseBaseHeader_append hParse more, hReason⟩

theorem verdict_nil (maxMessageSize maxHeaderSize : Usize) :
    verdict maxMessageSize maxHeaderSize [] = .wait :=
  verdict_undecided fun _ hParse => absurd (parseBaseHeader_length hParse) (by decide)

/-! What `try_parse` does to the parser and returns, by its answer. -/

theorem tryParse_wait (p : MessageParser)
    (hWait : verdict p.maxMessageSize p.maxHeaderSize p.buffer = .wait) : p.tryParse = (p, .ok none) := by
  rcases verdict_eq_wait.mp hWait with hParse | ⟨h, hParse, hPermits, hIncomplete⟩
  · exact tryParse_undecided p hParse
  · rw [tryParse_decided p hParse, tryComplete_of_permits hPermits, if_pos hIncomplete]

theorem tryParse_deliver (p : MessageParser) {m : Message} {n : Nat}
    (hDeliver : verdict p.maxMessageSize p.maxHeaderSize p.buffer = .deliver m n) :
    p.tryParse = ({ p with buffer := p.buffer.drop n }, .ok (some m)) := by
  obtain ⟨h, hParse, hPermits, rfl, hLong, hComplete, rfl⟩ := verdict_eq_deliver.mp hDeliver
  rw [tryParse_decided p hParse, tryComplete_of_permits hPermits, if_neg (Nat.not_lt.mpr hComplete),
    fromBytes_take hParse hComplete, if_neg (Nat.not_lt.mpr hLong)]
  rfl

theorem tryParse_fail (p : MessageParser) {e : ProtocolError}
    (hFail : verdict p.maxMessageSize p.maxHeaderSize p.buffer = .fail e) : p.tryParse.2 = .error e := by
  obtain ⟨h, hParse, ⟨hRefused, rfl⟩ | ⟨hPermits, hShort, rfl⟩⟩ := verdict_eq_fail.mp hFail
  · rw [tryParse_decided p hParse, tryComplete_of_not_permits hRefused]
  · have hComplete : h.totalMessageSize.toNat ≤ p.buffer.length :=
      Nat.le_trans (Nat.le_of_lt hShort) (parseBaseHeader_length hParse)
    rw [tryParse_decided p hParse, tryComplete_of_permits hPermits, if_neg (Nat.not_lt.mpr hComplete),
      fromBytes_take hParse hComplete, if_pos hShort]
    rfl

/-- All that `try_parse` can do. -/
theorem tryParse_cases (p : MessageParser) :
    (verdict p.maxMessageSize p.maxHeaderSize p.buffer = .wait ∧ p.tryParse = (p, .ok none)) ∨
      (∃ m n, verdict p.maxMessageSize p.maxHeaderSize p.buffer = .deliver m n ∧
        p.tryParse = ({ p with buffer := p.buffer.drop n }, .ok (some m))) ∨
      ∃ e, verdict p.maxMessageSize p.maxHeaderSize p.buffer = .fail e ∧ p.tryParse.2 = .error e := by
  cases hVerdict : verdict p.maxMessageSize p.maxHeaderSize p.buffer with
  | wait => exact .inl ⟨rfl, tryParse_wait p hVerdict⟩
  | deliver m n => exact .inr (.inl ⟨m, n, rfl, tryParse_deliver p hVerdict⟩)
  | fail e => exact .inr (.inr ⟨e, rfl, tryParse_fail p hVerdict⟩)

theorem tryParse_eq_some {p p' : MessageParser} {m : Message} (h : p.tryParse = (p', .ok (some m))) :
    ∃ n, verdict p.maxMessageSize p.maxHeaderSize p.buffer = .deliver m n ∧
      p' = { p with buffer := p.buffer.drop n } := by
  rcases p.tryParse_cases with ⟨_, hParse⟩ | ⟨m', n, hDeliver, hParse⟩ | ⟨e, _, hError⟩
  · cases h.symm.trans hParse
  · cases h.symm.trans hParse
    exact ⟨n, hDeliver, rfl⟩
  · rw [h] at hError
    cases hError

end MessageParser

/-- The frame is within the limits, over unbounded integers. -/
structure Frame.Within (f : Frame) (maxMessageSize maxHeaderSize : Usize) : Prop where
  header_le : f.header.length ≤ maxHeaderSize.toNat
  size_le : f.size ≤ maxMessageSize.toNat

theorem Frame.Within.size_lt {f : Frame} {maxMessageSize maxHeaderSize : Usize}
    (h : f.Within maxMessageSize maxHeaderSize) : f.size < 2 ^ 64 :=
  Nat.lt_of_le_of_lt h.size_le maxMessageSize.toNat_lt

namespace MessageParser

theorem delivers_of_permits {maxMessageSize maxHeaderSize : Usize} {f : Frame} (hSize : f.size < 2 ^ 64)
    (hPermits : Permits maxMessageSize maxHeaderSize f.baseHeader) :
    (decoder maxMessageSize maxHeaderSize).Delivers f.bytes f.message := by
  apply verdict_eq_deliver.mpr
  have hParse := f.parseBaseHeader_bytes []
  rw [List.append_nil] at hParse
  refine ⟨f.baseHeader, hParse, hPermits, ?_, ?_, Nat.le_refl _, ?_⟩
  · rw [f.bytes_length, Frame.totalMessageSize_toNat hSize]
  · rw [f.bytes_length]
    exact f.le_size
  · rw [List.take_length]
    rfl

theorem delivers_of_within {maxMessageSize maxHeaderSize : Usize} {f : Frame}
    (hLimit : maxHeaderSize.toNat < 2 ^ 32) (hWithin : f.Within maxMessageSize maxHeaderSize) :
    (decoder maxMessageSize maxHeaderSize).Delivers f.bytes f.message := by
  apply delivers_of_permits hWithin.size_lt
  constructor
  · rw [UInt32.le_iff_toNat_le, UInt64.toNat_toUInt32, Nat.mod_eq_of_lt hLimit, ← f.header_length]
    exact hWithin.header_le
  · rw [UInt64.le_iff_toNat_le, Frame.totalMessageSize_toNat hWithin.size_lt]
    exact hWithin.size_le

end MessageParser
end Fleximq.Protocol
