import Fleximq.Protocol.FrameRoundTrip
import Fleximq.Protocol.Parser

/-! # When the parser waits

Waiting is justified when the buffer is the beginning of a frame. The parser also
waits behind 34 bytes that are no base header, and behind a base header whose
declared sum wraps.
-/
namespace Fleximq.Protocol.MessageParser
open Foundation

variable {maxMessageSize maxHeaderSize : Usize} {buffer : List UInt8}

/-- The buffer is a proper prefix of a frame within the limits, which the parser delivers. -/
def Extensible (maxMessageSize maxHeaderSize : Usize) (buffer : List UInt8) : Prop :=
  ∃ f : Frame, buffer <+: f.bytes ∧ buffer ≠ f.bytes ∧ f.Within maxMessageSize maxHeaderSize ∧
    tryParse ⟨f.bytes, maxMessageSize, maxHeaderSize⟩ =
      (⟨[], maxMessageSize, maxHeaderSize⟩, .ok (some f.message))

def Hopeless (maxMessageSize maxHeaderSize : Usize) (buffer : List UInt8) : Prop :=
  ∀ (more : List UInt8) (m : Message),
    (tryParse ⟨buffer ++ more, maxMessageSize, maxHeaderSize⟩).2 ≠ .ok (some m)

/-- The parser waits for frames only, and reports what cannot become one. -/
def WaitsHonestly (maxMessageSize maxHeaderSize : Usize) (buffer : List UInt8) : Prop :=
  ((tryParse ⟨buffer, maxMessageSize, maxHeaderSize⟩).2 = .ok none →
      Extensible maxMessageSize maxHeaderSize buffer) ∧
    (Hopeless maxMessageSize maxHeaderSize buffer →
      ∃ e, (tryParse ⟨buffer, maxMessageSize, maxHeaderSize⟩).2 = .error e)

theorem tryParse_eq_none :
    (tryParse ⟨buffer, maxMessageSize, maxHeaderSize⟩).2 = .ok none ↔
      verdict maxMessageSize maxHeaderSize buffer = .wait := by
  constructor
  · intro hNone
    rcases tryParse_cases ⟨buffer, maxMessageSize, maxHeaderSize⟩ with
      ⟨hWait, _⟩ | ⟨m, n, _, hParse⟩ | ⟨e, _, hError⟩
    · exact hWait
    · rw [hParse] at hNone
      cases hNone
    · cases hNone.symm.trans hError
  · intro hWait
    rw [tryParse_wait ⟨buffer, maxMessageSize, maxHeaderSize⟩ hWait]

/-- Waiting on the buffer is justified: a base header decodes from it, and its sum is exact
unless the parser decides without waiting. -/
def JustifiesWaiting (maxMessageSize maxHeaderSize : Usize) (buffer : List UInt8) : Prop :=
  ∃ h, parseBaseHeader buffer = .ok h ∧
    (h.declaredSize < 2 ^ 64 ∨ maxHeaderSize.toUInt32 < h.headerLength ∨
      maxMessageSize < h.totalMessageSize ∨ h.totalMessageSize.toNat ≤ buffer.length)

theorem exists_frame_extending {h : BaseHeader} (hParse : parseBaseHeader buffer = .ok h)
    (hShort : buffer.length < h.declaredSize) :
    ∃ f : Frame, f.baseHeader = h ∧ buffer <+: f.bytes ∧ buffer ≠ f.bytes := by
  have hParse' := parseBaseHeader_append hParse (List.replicate (h.declaredSize - buffer.length) 0)
  obtain ⟨f, rfl, hBytes⟩ := exists_frame_of_length hParse' (by
    rw [List.length_append, List.length_replicate]
    omega)
  refine ⟨f, rfl, ⟨_, hBytes.symm⟩, ?_⟩
  rintro rfl
  rw [f.bytes_length, Frame.size] at hShort
  exact Nat.lt_irrefl _ hShort

theorem extensible_of_wait {h : BaseHeader} (hParse : parseBaseHeader buffer = .ok h)
    (hPermits : Permits maxMessageSize maxHeaderSize h)
    (hIncomplete : buffer.length < h.totalMessageSize.toNat) (hExact : h.declaredSize < 2 ^ 64) :
    Extensible maxMessageSize maxHeaderSize buffer := by
  have hTotal : h.totalMessageSize.toNat = h.declaredSize := by
    rw [BaseHeader.totalMessageSize_toNat, Nat.mod_eq_of_lt hExact]
  rw [hTotal] at hIncomplete
  obtain ⟨f, rfl, hPrefix, hProper⟩ := exists_frame_extending hParse hIncomplete
  refine ⟨f, hPrefix, hProper, ⟨?_, ?_⟩, ?_⟩
  · have hHeader := UInt32.le_iff_toNat_le.mp hPermits.header_le
    rw [UInt64.toNat_toUInt32] at hHeader
    rw [f.header_length]
    exact Nat.le_trans hHeader (Nat.mod_le _ _)
  · rw [Frame.size, ← hTotal]
    exact UInt64.le_iff_toNat_le.mp hPermits.total_le
  · rw [tryParse_deliver ⟨f.bytes, maxMessageSize, maxHeaderSize⟩ (delivers_of_permits hExact hPermits),
      List.drop_length]

theorem Extensible.exists_parse (hExtensible : Extensible maxMessageSize maxHeaderSize buffer)
    (hLength : baseHeaderSize ≤ buffer.length) :
    ∃ h, parseBaseHeader buffer = .ok h ∧ h.declaredSize < 2 ^ 64 := by
  obtain ⟨f, ⟨more, hMore⟩, _, hWithin, _⟩ := hExtensible
  have hParse := f.parseBaseHeader_bytes []
  rw [List.append_nil, ← hMore, ← parseBaseHeader_take, List.take_append_of_le_length hLength,
    parseBaseHeader_take] at hParse
  exact ⟨f.baseHeader, hParse, hWithin.size_lt⟩

/-- Of the buffers that hold 34 bytes, the parser treats exactly these as it should. -/
theorem waitsHonestly_iff (hLength : baseHeaderSize ≤ buffer.length) :
    WaitsHonestly maxMessageSize maxHeaderSize buffer ↔
      JustifiesWaiting maxMessageSize maxHeaderSize buffer := by
  rw [WaitsHonestly, tryParse_eq_none]
  constructor
  · rintro ⟨hWaits, _⟩
    cases hVerdict : verdict maxMessageSize maxHeaderSize buffer with
    | wait =>
      obtain ⟨h, hParse, hExact⟩ := (hWaits hVerdict).exists_parse hLength
      exact ⟨h, hParse, .inl hExact⟩
    | deliver m n =>
      obtain ⟨h, hParse, _, rfl, _, hComplete, _⟩ := verdict_eq_deliver.mp hVerdict
      exact ⟨h, hParse, .inr (.inr (.inr hComplete))⟩
    | fail e =>
      obtain ⟨h, hParse, ⟨hRefused, _⟩ | ⟨_, hShort, _⟩⟩ := verdict_eq_fail.mp hVerdict
      · refine ⟨h, hParse, .inr ?_⟩
        by_contra hNeither
        obtain ⟨hHeader, hRest⟩ := not_or.mp hNeither
        exact hRefused ⟨UInt32.not_lt.mp hHeader, UInt64.not_lt.mp (not_or.mp hRest).1⟩
      · exact ⟨h, hParse, .inr (.inr (.inr (Nat.le_trans (Nat.le_of_lt hShort) hLength)))⟩
  · rintro ⟨h, hParse, hReason⟩
    have hExtend (hWait : verdict maxMessageSize maxHeaderSize buffer = .wait) :
        Extensible maxMessageSize maxHeaderSize buffer := by
      rcases verdict_eq_wait.mp hWait with hNone | ⟨h', hParse', hPermits, hIncomplete⟩
      · exact absurd hParse (hNone h)
      · obtain rfl : h = h' := Except.ok.inj (hParse.symm.trans hParse')
        rcases hReason with hExact | hHeader | hTotal | hComplete
        · exact extensible_of_wait hParse hPermits hIncomplete hExact
        · exact absurd hHeader (UInt32.not_lt.mpr hPermits.header_le)
        · exact absurd hTotal (UInt64.not_lt.mpr hPermits.total_le)
        · omega
    refine ⟨hExtend, ?_⟩
    intro hHopeless
    cases hVerdict : verdict maxMessageSize maxHeaderSize buffer with
    | wait =>
      obtain ⟨f, ⟨more, hMore⟩, _, _, hDeliver⟩ := hExtend hVerdict
      rw [← hMore] at hDeliver
      exact absurd (congrArg Prod.snd hDeliver) (hHopeless more f.message)
    | deliver m n =>
      have hNow := hHopeless [] m
      rw [List.append_nil] at hNow
      exact absurd (congrArg Prod.snd (tryParse_deliver ⟨buffer, _, _⟩ hVerdict)) hNow
    | fail e => exact ⟨e, tryParse_fail ⟨buffer, maxMessageSize, maxHeaderSize⟩ hVerdict⟩

theorem waitsHonestly_newsFrame :
    WaitsHonestly defaultMaxMessageSize defaultMaxHeaderSize (newsFrame.bytes.take 40) :=
  (waitsHonestly_iff (by decide)).mpr ⟨newsFrame.baseHeader, by decide +kernel, .inl (by decide)⟩

theorem not_waitsHonestly_zeros :
    (tryParse ⟨List.replicate 34 0, defaultMaxMessageSize, defaultMaxHeaderSize⟩).2 = .ok none ∧
      ¬ WaitsHonestly defaultMaxMessageSize defaultMaxHeaderSize (List.replicate 34 0) := by
  refine ⟨rfl, ?_⟩
  rintro ⟨hWaits, _⟩
  obtain ⟨f, ⟨more, hMore⟩, _⟩ := hWaits rfl
  have hVersion : f.baseHeader.version = 0 := (List.cons.inj hMore).1.symm
  rw [f.version_eq] at hVersion
  exact absurd hVersion (by decide)

end Fleximq.Protocol.MessageParser
