import Fleximq.Foundation.BigEndian
import Fleximq.Transport.Error

/-! # TCP frames

A frame on a TCP connection is its length in four bytes and its data. The reader
compares the length with the read timeout in seconds and the writer with a
constant; neither looks at the message limit of the configuration. The byte
stream is what has arrived or been written so far, and no timeout elapses.
-/
namespace Fleximq.Transport
open Foundation Fleximq.Protocol

def defaultConnectionTimeoutSecs : UInt64 := 30
def tcpDefaultMaxMessageSize : Usize := 1024 * 1024

structure TcpConfig where
  connectTimeout : Option Duration
  readTimeout : Option Duration
  writeTimeout : Option Duration
  maxMessageSize : Usize

def TcpConfig.default : TcpConfig where
  connectTimeout := some (.fromSecs defaultConnectionTimeoutSecs)
  readTimeout := some (.fromSecs 30)
  writeTimeout := some (.fromSecs 30)
  maxMessageSize := tcpDefaultMaxMessageSize

structure ConnectionTimeouts where
  readTimeout : Option Duration
  writeTimeout : Option Duration
  connectTimeout : Option Duration

structure TcpTransportStream where
  timeouts : ConnectionTimeouts

def TcpConfig.accept (config : TcpConfig) : TcpTransportStream where
  timeouts := ⟨config.readTimeout, config.writeTimeout, none⟩

def TcpConfig.connect (config : TcpConfig) : TcpTransportStream where
  timeouts := ⟨config.readTimeout, config.writeTimeout, config.connectTimeout⟩

namespace TcpTransportStream

def readLimit (s : TcpTransportStream) : Usize :=
  (s.timeouts.readTimeout.getD (.fromSecs defaultConnectionTimeoutSecs)).asSecs

/-- The rest of the stream and the result. -/
def readFrameInternal (s : TcpTransportStream) (input : List UInt8) :
    List UInt8 × Except TransportError (List UInt8) :=
  if input.length < 4 then ([], .error (.io "Failed to read frame length: early eof"))
  else
    let length := BigEndian.read (input.take 4)
    let input := input.drop 4
    if length > s.readLimit.toNat then (input, .error (.messageTooLarge length s.readLimit.toNat))
    else if input.length < length then
      ([], .error (.io ("Failed to read frame data of length " ++ toString length ++ ": early eof")))
    else (input.drop length, .ok (input.take length))

/-- The bytes written so far, with those of this call, and the result. -/
def writeFrameInternal (_s : TcpTransportStream) (output data : List UInt8) :
    List UInt8 × Except TransportError Unit :=
  if data.length > tcpDefaultMaxMessageSize.toNat then
    (output, .error (.messageTooLarge data.length tcpDefaultMaxMessageSize.toNat))
  else
    let length := UInt32.ofNat data.length
    (output ++ (BigEndian.write 4 length.toNat ++ data), .ok ())

/-- `write_frame` for each of the frames in turn, up to the first error. -/
def writeFrames (s : TcpTransportStream) (output : List UInt8) :
    List (List UInt8) → List UInt8 × Except TransportError Unit
  | [] => (output, .ok ())
  | data :: frames =>
    match s.writeFrameInternal output data with
    | (output, .error e) => (output, .error e)
    | (output, .ok ()) => s.writeFrames output frames

/-- `read_frame` for `count` times, up to the first error. -/
def readFrames (s : TcpTransportStream) (input : List UInt8) :
    Nat → List UInt8 × Except TransportError (List (List UInt8))
  | 0 => (input, .ok [])
  | count + 1 =>
    match s.readFrameInternal input with
    | (input, .error e) => (input, .error e)
    | (input, .ok data) =>
      match s.readFrames input count with
      | (input, .error e) => (input, .error e)
      | (input, .ok frames) => (input, .ok (data :: frames))

end TcpTransportStream

/-! ## One frame -/

def tcpFrame (data : List UInt8) : List UInt8 := BigEndian.write 4 data.length ++ data

namespace TcpTransportStream
variable {s : TcpTransportStream}

theorem writeFrameInternal_of_le {data : List UInt8} (h : data.length ≤ tcpDefaultMaxMessageSize.toNat)
    (output : List UInt8) : s.writeFrameInternal output data = (output ++ tcpFrame data, .ok ()) := by
  have hLength : (UInt32.ofNat data.length).toNat = data.length :=
    UInt32.toNat_ofNat_of_lt' (Nat.lt_of_le_of_lt h (by decide))
  rw [writeFrameInternal, if_neg (Nat.not_lt.mpr h)]
  dsimp only
  rw [hLength, tcpFrame]

theorem writeFrameInternal_of_lt {data : List UInt8} (h : tcpDefaultMaxMessageSize.toNat < data.length)
    (output : List UInt8) :
    s.writeFrameInternal output data =
      (output, .error (.messageTooLarge data.length tcpDefaultMaxMessageSize.toNat)) := by
  rw [writeFrameInternal, if_pos h]

theorem readFrameInternal_write {n : Nat} (hLength : n < 2 ^ 32) (rest : List UInt8) :
    s.readFrameInternal (BigEndian.write 4 n ++ rest) =
      if n > s.readLimit.toNat then (rest, .error (.messageTooLarge n s.readLimit.toNat))
      else if rest.length < n then
        ([], .error (.io ("Failed to read frame data of length " ++ toString n ++ ": early eof")))
      else (rest.drop n, .ok (rest.take n)) := by
  have hLong : ¬ (BigEndian.write 4 n ++ rest).length < 4 := by
    rw [List.length_append, BigEndian.write_length]
    omega
  have hTake : (BigEndian.write 4 n ++ rest).take 4 = BigEndian.write 4 n :=
    List.take_left' (BigEndian.write_length 4 n)
  have hDrop : (BigEndian.write 4 n ++ rest).drop 4 = rest :=
    List.drop_left' (BigEndian.write_length 4 n)
  rw [readFrameInternal, if_neg hLong, hTake, hDrop, BigEndian.read_write_of_lt hLength]

theorem readFrameInternal_of_le {data : List UInt8} (hLength : data.length < 2 ^ 32)
    (h : data.length ≤ s.readLimit.toNat) (rest : List UInt8) :
    s.readFrameInternal (tcpFrame data ++ rest) = (rest, .ok data) := by
  have hComplete : ¬ (data ++ rest).length < data.length := by
    rw [List.length_append]
    omega
  rw [tcpFrame, List.append_assoc, readFrameInternal_write hLength, if_neg (Nat.not_lt.mpr h),
    if_neg hComplete, List.drop_left, List.take_left]

theorem readFrameInternal_of_lt {n : Nat} (hLength : n < 2 ^ 32) (h : s.readLimit.toNat < n)
    (rest : List UInt8) :
    s.readFrameInternal (BigEndian.write 4 n ++ rest) =
      (rest, .error (.messageTooLarge n s.readLimit.toNat)) := by
  rw [readFrameInternal_write hLength, if_pos h]

/-! ## Lists of frames -/

theorem writeFrames_of_le {frames : List (List UInt8)}
    (h : ∀ data ∈ frames, data.length ≤ tcpDefaultMaxMessageSize.toNat) (output : List UInt8) :
    s.writeFrames output frames = (output ++ frames.flatMap tcpFrame, .ok ()) := by
  induction frames generalizing output with
  | nil => rw [writeFrames, List.flatMap_nil, List.append_nil]
  | cons data frames ih =>
    rw [writeFrames, writeFrameInternal_of_le (h data List.mem_cons_self)]
    dsimp only
    rw [ih fun other hOther => h other (List.mem_cons_of_mem data hOther), List.flatMap_cons,
      List.append_assoc]

theorem le_of_writeFrames {frames : List (List UInt8)} {output stream : List UInt8}
    (h : s.writeFrames output frames = (stream, .ok ())) :
    ∀ data ∈ frames, data.length ≤ tcpDefaultMaxMessageSize.toNat := by
  induction frames generalizing output with
  | nil =>
    intro data hData
    cases hData
  | cons first frames ih =>
    rw [writeFrames] at h
    rcases Nat.lt_or_ge tcpDefaultMaxMessageSize.toNat first.length with hLong | hShort
    · rw [writeFrameInternal_of_lt hLong] at h
      cases h
    · rw [writeFrameInternal_of_le hShort] at h
      intro data hData
      rcases List.mem_cons.mp hData with rfl | hData
      · exact hShort
      · exact ih h data hData

theorem readFrames_of_le {frames : List (List UInt8)} (hLength : ∀ data ∈ frames, data.length < 2 ^ 32)
    (h : ∀ data ∈ frames, data.length ≤ s.readLimit.toNat) :
    s.readFrames (frames.flatMap tcpFrame) frames.length = ([], .ok frames) := by
  induction frames with
  | nil => rfl
  | cons data frames ih =>
    rw [List.flatMap_cons, List.length_cons, readFrames,
      readFrameInternal_of_le (hLength data List.mem_cons_self) (h data List.mem_cons_self)]
    dsimp only
    rw [ih (fun other hOther => hLength other (List.mem_cons_of_mem data hOther))
      fun other hOther => h other (List.mem_cons_of_mem data hOther)]

theorem le_of_readFrames {frames : List (List UInt8)} {rest : List UInt8} {result : List (List UInt8)}
    (hLength : ∀ data ∈ frames, data.length < 2 ^ 32)
    (h : s.readFrames (frames.flatMap tcpFrame) frames.length = (rest, .ok result)) :
    ∀ data ∈ frames, data.length ≤ s.readLimit.toNat := by
  induction frames generalizing rest result with
  | nil =>
    intro data hData
    cases hData
  | cons first frames ih =>
    have hFirst := hLength first List.mem_cons_self
    rw [List.flatMap_cons, List.length_cons, readFrames] at h
    rcases Nat.lt_or_ge s.readLimit.toNat first.length with hLong | hShort
    · rw [tcpFrame, List.append_assoc, readFrameInternal_of_lt hFirst hLong] at h
      cases h
    · rw [readFrameInternal_of_le hFirst hShort] at h
      dsimp only at h
      split at h
      · cases h
      · rename_i hTail
        intro data hData
        rcases List.mem_cons.mp hData with rfl | hData
        · exact hShort
        · exact ih (fun other hOther => hLength other (List.mem_cons_of_mem first hOther)) hTail data hData

end TcpTransportStream

/-! ## The limits -/

def TcpConfig.Makes (config : TcpConfig) (s : TcpTransportStream) : Prop :=
  s = config.accept ∨ s = config.connect

def TcpConfig.readSecs (config : TcpConfig) : Usize :=
  (config.readTimeout.getD (.fromSecs defaultConnectionTimeoutSecs)).asSecs

def FramesRoundTrip (writer reader : TcpTransportStream) (frames : List (List UInt8)) : Prop :=
  ∃ stream, writer.writeFrames [] frames = (stream, .ok ()) ∧
    reader.readFrames stream frames.length = ([], .ok frames)

def WriteRejects (writer : TcpTransportStream) (output data : List UInt8) : Prop :=
  ∃ size max, writer.writeFrameInternal output data = (output, .error (.messageTooLarge size max))

/-- The reader rejects the length prefix `n`, whatever comes after it. -/
def ReadRejects (reader : TcpTransportStream) (n : Nat) (rest : List UInt8) : Prop :=
  ∃ size max, reader.readFrameInternal (BigEndian.write 4 n ++ rest) =
    (rest, .error (.messageTooLarge size max))

/-- Frames within the configured limit make the round trip, longer ones are rejected. -/
def RespectsLimit (config : TcpConfig) (writer reader : TcpTransportStream) : Prop :=
  (∀ frames : List (List UInt8), (∀ data ∈ frames, data.length ≤ config.maxMessageSize.toNat) →
      FramesRoundTrip writer reader frames) ∧
    (∀ output data, config.maxMessageSize.toNat < data.length → WriteRejects writer output data) ∧
    ∀ n rest, n < 2 ^ 32 → config.maxMessageSize.toNat < n → ReadRejects reader n rest

theorem TcpConfig.Makes.readLimit {config : TcpConfig} {s : TcpTransportStream} (h : config.Makes s) :
    s.readLimit = config.readSecs := by
  rcases h with rfl | rfl <;> rfl

theorem framesRoundTrip_iff {writer reader : TcpTransportStream} {frames : List (List UInt8)} :
    FramesRoundTrip writer reader frames ↔ ∀ data ∈ frames,
      data.length ≤ tcpDefaultMaxMessageSize.toNat ∧ data.length ≤ reader.readLimit.toNat := by
  have hWord {data : List UInt8} (h : data.length ≤ tcpDefaultMaxMessageSize.toNat) :
      data.length < 2 ^ 32 := Nat.lt_of_le_of_lt h (by decide)
  constructor
  · rintro ⟨stream, hWrite, hRead⟩
    have hShort := TcpTransportStream.le_of_writeFrames hWrite
    rw [TcpTransportStream.writeFrames_of_le hShort, List.nil_append] at hWrite
    cases hWrite
    have hFits := TcpTransportStream.le_of_readFrames (fun data hData => hWord (hShort data hData)) hRead
    exact fun data hData => ⟨hShort data hData, hFits data hData⟩
  · intro h
    refine ⟨_, TcpTransportStream.writeFrames_of_le (fun data hData => (h data hData).1) [], ?_⟩
    rw [List.nil_append]
    exact TcpTransportStream.readFrames_of_le (fun data hData => hWord (h data hData).1)
      fun data hData => (h data hData).2

theorem writeRejects_iff {writer : TcpTransportStream} {output data : List UInt8} :
    WriteRejects writer output data ↔ tcpDefaultMaxMessageSize.toNat < data.length := by
  constructor
  · rintro ⟨size, max, hWrite⟩
    by_contra hShort
    rw [TcpTransportStream.writeFrameInternal_of_le (Nat.not_lt.mp hShort)] at hWrite
    cases congrArg Prod.snd hWrite
  · intro hLong
    exact ⟨_, _, TcpTransportStream.writeFrameInternal_of_lt hLong output⟩

theorem readRejects_iff {reader : TcpTransportStream} {n : Nat} (hLength : n < 2 ^ 32) {rest : List UInt8} :
    ReadRejects reader n rest ↔ reader.readLimit.toNat < n := by
  constructor
  · rintro ⟨size, max, hRead⟩
    by_contra hShort
    rw [TcpTransportStream.readFrameInternal_write hLength, if_neg hShort] at hRead
    split at hRead
    · cases congrArg Prod.snd hRead
    · cases congrArg Prod.snd hRead
  · intro hLong
    exact ⟨_, _, TcpTransportStream.readFrameInternal_of_lt hLength hLong rest⟩

theorem respectsLimit_config {config : TcpConfig} {writer reader : TcpTransportStream}
    (hReader : config.Makes reader) :
    RespectsLimit config writer reader ↔
      config.maxMessageSize = tcpDefaultMaxMessageSize ∧ config.readSecs = tcpDefaultMaxMessageSize := by
  constructor
  · rintro ⟨hRound, hWrite, hRead⟩
    have hLongest := framesRoundTrip_iff.mp
      (hRound [List.replicate config.maxMessageSize.toNat 0] (by simp))
      (List.replicate config.maxMessageSize.toNat 0) List.mem_cons_self
    rw [List.length_replicate, hReader.readLimit] at hLongest
    have hRejected := writeRejects_iff.mp
      (hWrite [] (List.replicate (config.maxMessageSize.toNat + 1) 0) (by simp))
    rw [List.length_replicate] at hRejected
    have hMessage : config.maxMessageSize = tcpDefaultMaxMessageSize := by
      apply UInt64.toNat_inj.mp
      omega
    have hWord : config.maxMessageSize.toNat + 1 < 2 ^ 32 := by
      rw [hMessage]
      decide
    have hPrefix := (readRejects_iff hWord).mp (hRead _ [] hWord (Nat.lt_succ_self _))
    rw [hReader.readLimit] at hPrefix
    refine ⟨hMessage, ?_⟩
    apply UInt64.toNat_inj.mp
    rw [← hMessage]
    omega
  · rintro ⟨hMessage, hSecs⟩
    have hReadLimit : reader.readLimit = config.maxMessageSize := by
      rw [hReader.readLimit, hSecs, hMessage]
    refine ⟨?_, ?_, ?_⟩
    · intro frames hFrames
      apply framesRoundTrip_iff.mpr
      intro data hData
      rw [hReadLimit, ← hMessage]
      exact ⟨hFrames data hData, hFrames data hData⟩
    · intro output data hLong
      rw [hMessage] at hLong
      exact writeRejects_iff.mpr hLong
    · intro n rest hWord hLong
      rw [← hReadLimit] at hLong
      exact (readRejects_iff hWord).mpr hLong

/-- The limits that are enforced are one mebibyte for the writer and the read timeout in seconds
for the reader, so the configured limit is respected only where it is equal to both. -/
theorem respectsLimit_iff {config : TcpConfig} {writer reader : TcpTransportStream}
    (hReader : config.Makes reader) :
    (∀ frames, FramesRoundTrip writer reader frames ↔ ∀ data ∈ frames,
        data.length ≤ tcpDefaultMaxMessageSize.toNat ∧ data.length ≤ config.readSecs.toNat) ∧
      (∀ output data, WriteRejects writer output data ↔
        tcpDefaultMaxMessageSize.toNat < data.length) ∧
      (∀ n rest, n < 2 ^ 32 → (ReadRejects reader n rest ↔ config.readSecs.toNat < n)) ∧
      (RespectsLimit config writer reader ↔
        config.maxMessageSize = tcpDefaultMaxMessageSize ∧ config.readSecs = tcpDefaultMaxMessageSize) := by
  refine ⟨?_, ?_, ?_, respectsLimit_config hReader⟩
  · intro frames
    rw [framesRoundTrip_iff, hReader.readLimit]
  · intro output data
    exact writeRejects_iff
  · intro n rest hWord
    rw [readRejects_iff hWord, hReader.readLimit]

def patientConfig : TcpConfig := { TcpConfig.default with readTimeout := some (.fromSecs 1048576) }

theorem respectsLimit_patientConfig :
    RespectsLimit patientConfig patientConfig.connect patientConfig.accept :=
  (respectsLimit_iff (.inl rfl)).2.2.2.mpr ⟨rfl, rfl⟩

theorem not_respectsLimit_default :
    TcpConfig.default.connect.writeFrameInternal [] (List.replicate 31 0) =
        (tcpFrame (List.replicate 31 0), .ok ()) ∧
      TcpConfig.default.accept.readFrameInternal (tcpFrame (List.replicate 31 0)) =
        (List.replicate 31 0, .error (.messageTooLarge 31 30)) ∧
      ¬ RespectsLimit TcpConfig.default TcpConfig.default.connect TcpConfig.default.accept := by
  refine ⟨by decide, by decide, ?_⟩
  rintro ⟨hRound, _⟩
  have hLimits := framesRoundTrip_iff.mp (hRound [List.replicate 31 0] (by decide)) _ List.mem_cons_self
  exact absurd hLimits.2 (by decide)

end Fleximq.Transport
