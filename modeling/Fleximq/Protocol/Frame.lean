import Fleximq.Protocol.RawMessage

/-! # Frames

A frame is a base header of version 1 with the two sections it declares. Every
reader and the writer are described by it: `parse_message_bytes` accepts exactly
the frames whose size fits a machine word, `to_bytes` writes frames, and
`Message::from_bytes` accepts the frames and, where the declared sum wraps, some
byte strings that are none.
-/
namespace Fleximq.Protocol
open Foundation

@[ext] structure Frame where
  baseHeader : BaseHeader
  header : List UInt8
  payload : List UInt8
  version_eq : baseHeader.version = protocolVersion
  header_length : header.length = baseHeader.headerLength.toNat
  payload_length : payload.length = baseHeader.payloadLength.toNat

def Frame.bytes (f : Frame) : List UInt8 := f.baseHeader.encode ++ (f.header ++ f.payload)

def Frame.size (f : Frame) : Nat := f.baseHeader.declaredSize

def Frame.message (f : Frame) : Message := ⟨f.baseHeader, f.bytes⟩

@[simp] theorem Frame.bytes_length (f : Frame) : f.bytes.length = f.size := by
  simp only [bytes, size, BaseHeader.declaredSize, List.length_append, BaseHeader.encode_length,
    f.header_length, f.payload_length]
  omega

theorem Frame.le_size (f : Frame) : baseHeaderSize ≤ f.size := by
  unfold size BaseHeader.declaredSize
  omega

theorem Frame.parseBaseHeader_bytes (f : Frame) (rest : List UInt8) :
    parseBaseHeader (f.bytes ++ rest) = .ok f.baseHeader := by
  rw [bytes, List.append_assoc]
  exact parseBaseHeader_encode f.version_eq _

theorem Frame.totalMessageSize_toNat {f : Frame} (hSize : f.size < 2 ^ 64) :
    f.baseHeader.totalMessageSize.toNat = f.size := by
  rw [BaseHeader.totalMessageSize_toNat]
  exact Nat.mod_eq_of_lt hSize

theorem Frame.bytes_append_inj {f f' : Frame} {rest rest' : List UInt8}
    (h : f.bytes ++ rest = f'.bytes ++ rest') : f = f' ∧ rest = rest' := by
  simp only [bytes, List.append_assoc] at h
  obtain ⟨hBase, hSections⟩ := BaseHeader.encode_append_inj f.version_eq f'.version_eq h
  have hHeaderLength : f.header.length = f'.header.length := by
    rw [f.header_length, f'.header_length, hBase]
  obtain ⟨hHeader, hTail⟩ := List.append_inj hSections hHeaderLength
  have hPayloadLength : f.payload.length = f'.payload.length := by
    rw [f.payload_length, f'.payload_length, hBase]
  obtain ⟨hPayload, hRest⟩ := List.append_inj hTail hPayloadLength
  exact ⟨Frame.ext hBase hHeader hPayload, hRest⟩

theorem Frame.bytes_inj {f f' : Frame} (h : f.bytes = f'.bytes) : f = f' := by
  have hEq : f.bytes ++ [] = f'.bytes ++ [] := by rw [h]
  exact (bytes_append_inj hEq).1

theorem exists_frame_of_length {data : List UInt8} {h : BaseHeader}
    (hParse : parseBaseHeader data = .ok h) (hLength : data.length = h.declaredSize) :
    ∃ f : Frame, f.baseHeader = h ∧ f.bytes = data := by
  obtain ⟨hVersion, rest, rfl⟩ := parseBaseHeader_eq_ok.mp hParse
  have hRest : rest.length = h.headerLength.toNat + h.payloadLength.toNat := by
    rw [List.length_append, h.encode_length, BaseHeader.declaredSize] at hLength
    omega
  refine ⟨⟨h, rest.take h.headerLength.toNat, rest.drop h.headerLength.toNat, hVersion, ?_, ?_⟩, rfl, ?_⟩
  · rw [List.length_take, hRest]
    omega
  · rw [List.length_drop, hRest]
    omega
  · rw [Frame.bytes, List.take_append_drop]

/-! ## The lazy slices -/

theorem slice_append {before bytes after : List UInt8} {start stop : Usize}
    (hStart : start.toNat = before.length) (hStop : stop.toNat = before.length + bytes.length) :
    slice (before ++ (bytes ++ after)) start stop = some bytes := by
  unfold slice
  have hOrder : start ≤ stop := by
    rw [UInt64.le_iff_toNat_le]
    omega
  rw [if_pos ⟨hOrder, by simp only [List.length_append]; omega⟩, hStart, hStop, List.drop_left,
    Nat.add_sub_cancel_left, List.take_left]

theorem BaseHeader.headerEnd_toNat (h : BaseHeader) :
    (UInt64.ofNat baseHeaderSize + h.headerLength.toUInt64).toNat =
      baseHeaderSize + h.headerLength.toNat := by
  have hHeader := h.headerLength.toNat_lt
  simp [baseHeaderSize]
  omega

theorem Frame.rawHeaderBytes_message (f : Frame) : f.message.rawHeaderBytes = some f.header := by
  have hLength := f.header_length
  unfold Message.rawHeaderBytes
  split
  · rename_i hZero
    rw [show f.baseHeader.headerLength = 0 from hZero] at hLength
    rw [List.length_eq_zero_iff.mp hLength]
  · apply slice_append
    · rw [BaseHeader.encode_length]
      rfl
    · rw [BaseHeader.encode_length, hLength]
      exact f.baseHeader.headerEnd_toNat

theorem Frame.rawPayloadBytes_message {f : Frame} (hSize : f.size < 2 ^ 64) :
    f.message.rawPayloadBytes = some f.payload := by
  have hLength := f.payload_length
  unfold Message.rawPayloadBytes
  split
  · rename_i hZero
    rw [show f.baseHeader.payloadLength = 0 from hZero] at hLength
    rw [List.length_eq_zero_iff.mp hLength]
  · have hBytes : f.message.rawData = (f.baseHeader.encode ++ f.header) ++ (f.payload ++ []) := by
      rw [List.append_nil, List.append_assoc]
      rfl
    have hStart : (f.baseHeader.encode ++ f.header).length =
        baseHeaderSize + f.baseHeader.headerLength.toNat := by
      rw [List.length_append, BaseHeader.encode_length, f.header_length]
    rw [hBytes]
    apply slice_append
    · rw [hStart]
      exact f.baseHeader.headerEnd_toNat
    · rw [hStart, hLength]
      exact Frame.totalMessageSize_toNat hSize

theorem Frame.fromBytes_bytes {f : Frame} (hSize : f.size < 2 ^ 64) :
    Message.fromBytes f.bytes = .ok f.message := by
  apply Message.fromBytes_eq_ok.mpr
  refine ⟨?_, rfl, ?_⟩
  · have hParse := f.parseBaseHeader_bytes []
    rw [List.append_nil] at hParse
    exact hParse
  · rw [f.bytes_length]
    exact (Frame.totalMessageSize_toNat hSize).symm

/-! ## The bounds-checked reader -/

theorem parseMessageFrameNom_eq_ok {data rest : List UInt8} {frame : MessageFrame} :
    parseMessageFrameNom data = .ok (rest, frame) ↔
      ∃ f : Frame, f.bytes ++ rest = data ∧ data.length = f.baseHeader.totalMessageSize.toNat ∧
        frame = ⟨f.baseHeader, f.header, f.payload⟩ := by
  unfold parseMessageFrameNom
  constructor
  · intro hParse
    obtain ⟨⟨body, baseHeader⟩, hNom, hChecked⟩ := bind_eq_ok.mp hParse
    obtain ⟨hVersion, rfl⟩ := parseBaseHeaderNom_eq_ok.mp hNom
    dsimp only at hChecked
    split at hChecked
    · cases hChecked
    · rename_i hSize
      obtain ⟨⟨body', header⟩, hHeader, hRest⟩ := bind_eq_ok.mp hChecked
      obtain ⟨⟨body'', payload⟩, hPayload, hResult⟩ := bind_eq_ok.mp hRest
      cases hResult
      obtain ⟨hHeaderLength, rfl⟩ := Nom.take_eq_ok.mp hHeader
      obtain ⟨hPayloadLength, rfl⟩ := Nom.take_eq_ok.mp hPayload
      refine ⟨⟨baseHeader, header, payload, hVersion, hHeaderLength, hPayloadLength⟩, ?_, ?_, rfl⟩
      · simp only [Frame.bytes, List.append_assoc]
      · rw [List.length_append, BaseHeader.encode_length, Nat.add_comm]
        exact not_not.mp hSize
  · rintro ⟨f, rfl, hSize, rfl⟩
    have hBytes : f.bytes ++ rest = f.baseHeader.encode ++ (f.header ++ (f.payload ++ rest)) := by
      simp only [Frame.bytes, List.append_assoc]
    rw [hBytes] at hSize ⊢
    refine bind_eq_ok.mpr ⟨_, parseBaseHeaderNom_eq_ok.mpr ⟨f.version_eq, rfl⟩, ?_⟩
    rw [List.length_append, BaseHeader.encode_length, Nat.add_comm] at hSize
    dsimp only
    rw [if_neg (not_not.mpr hSize)]
    refine bind_eq_ok.mpr ⟨_, Nom.take_eq_ok.mpr ⟨f.header_length, rfl⟩, ?_⟩
    exact bind_eq_ok.mpr ⟨_, Nom.take_eq_ok.mpr ⟨f.payload_length, rfl⟩, rfl⟩

theorem parseMessageBytes_eq_ok {data : List UInt8} {frame : MessageFrame} :
    parseMessageBytes data = .ok frame ↔
      ∃ f : Frame, f.bytes = data ∧ f.size < 2 ^ 64 ∧ frame = ⟨f.baseHeader, f.header, f.payload⟩ := by
  constructor
  · intro h
    unfold parseMessageBytes at h
    split at h
    · rename_i remaining frame' hNom
      obtain ⟨f, hBytes, hSize, rfl⟩ := parseMessageFrameNom_eq_ok.mp hNom
      cases remaining with
      | cons byte remaining => cases h
      | nil =>
        cases h
        rw [List.append_nil] at hBytes
        rw [← hBytes, f.bytes_length] at hSize
        refine ⟨f, hBytes, ?_, rfl⟩
        rw [hSize]
        exact f.baseHeader.totalMessageSize.toNat_lt
    · cases h
  · rintro ⟨f, rfl, hSize, rfl⟩
    have hNom : parseMessageFrameNom f.bytes = .ok ([], ⟨f.baseHeader, f.header, f.payload⟩) := by
      refine parseMessageFrameNom_eq_ok.mpr ⟨f, List.append_nil _, ?_, rfl⟩
      rw [f.bytes_length, Frame.totalMessageSize_toNat hSize]
    unfold parseMessageBytes
    rw [hNom]
    rfl

/-! ## Acceptance by `from_bytes` -/

/-- The message reports the sections that the data consists of. -/
def Message.FrameSound (m : Message) (data : List UInt8) : Prop :=
  baseHeaderSize + m.headerLength.toNat + m.payloadLength.toNat = data.length ∧
    ∃ header payload, m.rawHeaderBytes = some header ∧ m.rawPayloadBytes = some payload ∧
      header.length = m.headerLength.toNat ∧ payload.length = m.payloadLength.toNat ∧
      data.take baseHeaderSize ++ header ++ payload = data

/-- The declared size of the data is its length and `2 ^ 64` more. -/
def Overdeclared (data : List UInt8) : Prop :=
  ∃ h, parseBaseHeader data = .ok h ∧ h.declaredSize = data.length + 2 ^ 64

theorem Frame.message_frameSound {f : Frame} (hSize : f.size < 2 ^ 64) :
    f.message.FrameSound f.bytes := by
  refine ⟨f.bytes_length.symm, f.header, f.payload, f.rawHeaderBytes_message,
    Frame.rawPayloadBytes_message hSize, f.header_length, f.payload_length, ?_⟩
  rw [Frame.bytes, List.take_left' f.baseHeader.encode_length, List.append_assoc]

theorem Message.fromBytes_cases {data : List UInt8} {m : Message} (h : fromBytes data = .ok m) :
    (∃ f : Frame, f.bytes = data ∧ f.message = m ∧ f.size < 2 ^ 64) ∨
      m.baseHeader.declaredSize = data.length + 2 ^ 64 := by
  obtain ⟨baseHeader, rawData⟩ := m
  obtain ⟨hParse, hData, hLength⟩ := fromBytes_eq_ok.mp h
  dsimp only at hParse hData hLength
  rcases baseHeader.declaredSize_cases with hExact | hWrapped
  · left
    obtain ⟨f, rfl, hBytes⟩ := exists_frame_of_length hParse (hLength.trans hExact.symm)
    refine ⟨f, hBytes, ?_, ?_⟩
    · rw [Frame.message, hBytes, hData]
    · rw [Frame.size, hExact]
      exact f.baseHeader.totalMessageSize.toNat_lt
  · right
    rw [hWrapped, hLength]

theorem Message.slices_panic {data : List UInt8} {m : Message} (h : fromBytes data = .ok m)
    (hWrapped : m.baseHeader.declaredSize = data.length + 2 ^ 64) :
    m.rawHeaderBytes = none ∧ m.rawPayloadBytes = none := by
  obtain ⟨hParse, hData, hLength⟩ := fromBytes_eq_ok.mp h
  have hMin := parseBaseHeader_length hParse
  have hHeader := m.baseHeader.headerLength.toNat_lt
  have hPayload := m.baseHeader.payloadLength.toNat_lt
  have hEnd := m.baseHeader.headerEnd_toNat
  unfold BaseHeader.declaredSize at hWrapped
  constructor
  · have hNonzero : m.headerLength ≠ 0 := by
      intro hZero
      rw [show m.baseHeader.headerLength = 0 from hZero, UInt32.toNat_zero] at hWrapped
      omega
    rw [rawHeaderBytes, if_neg hNonzero]
    apply if_neg
    rintro ⟨_, hStop⟩
    rw [hData] at hStop
    change (UInt64.ofNat baseHeaderSize + m.baseHeader.headerLength.toUInt64).toNat ≤ _ at hStop
    omega
  · have hNonzero : m.payloadLength ≠ 0 := by
      intro hZero
      rw [show m.baseHeader.payloadLength = 0 from hZero, UInt64.toNat_zero] at hWrapped
      unfold baseHeaderSize at hWrapped
      omega
    rw [rawPayloadBytes, if_neg hNonzero]
    apply if_neg
    rintro ⟨hOrder, _⟩
    have hOrder := UInt64.le_iff_toNat_le.mp hOrder
    change (UInt64.ofNat baseHeaderSize + m.baseHeader.headerLength.toUInt64).toNat ≤
      m.baseHeader.totalMessageSize.toNat at hOrder
    omega

theorem Overdeclared.fromBytes {data : List UInt8} (h : Overdeclared data) :
    ∃ m, Message.fromBytes data = .ok m ∧ m.baseHeader.declaredSize = data.length + 2 ^ 64 := by
  obtain ⟨baseHeader, hParse, hWrapped⟩ := h
  have hLength : data.length = baseHeader.totalMessageSize.toNat := by
    have hBound := baseHeader.totalMessageSize.toNat_lt
    rcases baseHeader.declaredSize_cases with hExact | hSum
    · omega
    · omega
  exact ⟨⟨baseHeader, data⟩, Message.fromBytes_eq_ok.mpr ⟨hParse, rfl, hLength⟩, hWrapped⟩

/-- Accepted data is framed as its message says, except where the declared size wraps. -/
theorem fromBytes_frameSound_iff (data : List UInt8) :
    (∀ m, Message.fromBytes data = .ok m → m.FrameSound data) ↔ ¬ Overdeclared data := by
  constructor
  · intro hSound hOver
    obtain ⟨m, hAccept, hWrapped⟩ := hOver.fromBytes
    have hSize : m.baseHeader.declaredSize = data.length := (hSound _ hAccept).1
    omega
  · intro hExact m hAccept
    rcases Message.fromBytes_cases hAccept with ⟨f, rfl, rfl, hSize⟩ | hWrapped
    · exact Frame.message_frameSound hSize
    · exact absurd ⟨m.baseHeader, (Message.fromBytes_eq_ok.mp hAccept).1, hWrapped⟩ hExact

/-- A base header alone, which declares one header byte and `2 ^ 64 - 1` payload bytes. -/
def overdeclaredHeader : BaseHeader := .new .request clientIdMinDynamic 1 0xffffffffffffffff

theorem overdeclaredHeader_not_frameSound :
    Message.fromBytes overdeclaredHeader.encode = .ok ⟨overdeclaredHeader, overdeclaredHeader.encode⟩ ∧
      Message.rawHeaderBytes ⟨overdeclaredHeader, overdeclaredHeader.encode⟩ = none ∧
      ¬ ∀ data m, Message.fromBytes data = .ok m → m.FrameSound data := by
  refine ⟨rfl, rfl, ?_⟩
  intro hSound
  obtain ⟨hSize, _⟩ := hSound overdeclaredHeader.encode _ rfl
  exact absurd hSize (by decide)

/-! ## The two readers together -/

/-- The readers accept the same bytes, and report the same base header and sections of them. -/
structure ReadersAgree (data : List UInt8) : Prop where
  accept_iff : (∃ f, parseMessageBytes data = .ok f) ↔ ∃ m, Message.fromBytes data = .ok m
  sections : ∀ f m, parseMessageBytes data = .ok f → Message.fromBytes data = .ok m →
    f.baseHeader = m.baseHeader ∧ m.rawHeaderBytes = some f.headerBytes ∧
      m.rawPayloadBytes = some f.payloadBytes

/-- What the bounds-checked reader accepts, the lazy one accepts with the same sections. -/
theorem fromBytes_of_parseMessageBytes {data : List UInt8} {frame : MessageFrame}
    (h : parseMessageBytes data = .ok frame) :
    ∃ m, Message.fromBytes data = .ok m ∧ m.baseHeader = frame.baseHeader ∧
      m.baseHeader.declaredSize = data.length ∧ m.rawHeaderBytes = some frame.headerBytes ∧
        m.rawPayloadBytes = some frame.payloadBytes := by
  obtain ⟨f, rfl, hSize, rfl⟩ := parseMessageBytes_eq_ok.mp h
  exact ⟨f.message, Frame.fromBytes_bytes hSize, rfl, f.bytes_length.symm, f.rawHeaderBytes_message,
    Frame.rawPayloadBytes_message hSize⟩

theorem not_parseMessageBytes_of_overdeclared {data : List UInt8} (h : Overdeclared data)
    (f : MessageFrame) : parseMessageBytes data ≠ .ok f := by
  intro hOk
  obtain ⟨m, hAccept, hWrapped⟩ := h.fromBytes
  obtain ⟨m', hAccept', _, hExact, _⟩ := fromBytes_of_parseMessageBytes hOk
  obtain rfl := Except.ok.inj (hAccept.symm.trans hAccept')
  omega

/-- The two readers agree except where the declared size wraps. -/
theorem readersAgree_iff (data : List UInt8) : ReadersAgree data ↔ ¬ Overdeclared data := by
  constructor
  · intro hAgree hOver
    obtain ⟨m, hAccept, _⟩ := hOver.fromBytes
    obtain ⟨f, hOk⟩ := hAgree.accept_iff.mpr ⟨m, hAccept⟩
    exact not_parseMessageBytes_of_overdeclared hOver f hOk
  · intro hExact
    refine ⟨⟨?_, ?_⟩, ?_⟩
    · rintro ⟨f, hOk⟩
      obtain ⟨m, hAccept, _⟩ := fromBytes_of_parseMessageBytes hOk
      exact ⟨m, hAccept⟩
    · rintro ⟨m, hAccept⟩
      rcases Message.fromBytes_cases hAccept with ⟨f, hBytes, _, hSize⟩ | hWrapped
      · exact ⟨_, parseMessageBytes_eq_ok.mpr ⟨f, hBytes, hSize, rfl⟩⟩
      · exact absurd ⟨m.baseHeader, (Message.fromBytes_eq_ok.mp hAccept).1, hWrapped⟩ hExact
    · intro f m hOk hAccept
      obtain ⟨m', hAccept', hBase, _, hHeader, hPayload⟩ := fromBytes_of_parseMessageBytes hOk
      obtain rfl := Except.ok.inj (hAccept.symm.trans hAccept')
      exact ⟨hBase.symm, hHeader, hPayload⟩

theorem overdeclaredHeader_not_readersAgree :
    (∃ m, Message.fromBytes overdeclaredHeader.encode = .ok m) ∧
      parseMessageBytes overdeclaredHeader.encode =
        .error (.parseError "Failed to parse message: Parsing Error: Error \x7b input: [], code: Eof \x7d") ∧
      ¬ ReadersAgree overdeclaredHeader.encode := by
  refine ⟨⟨_, rfl⟩, by decide +kernel, ?_⟩
  intro hAgree
  obtain ⟨f, hOk⟩ := hAgree.accept_iff.mpr ⟨_, rfl⟩
  cases hOk

end Fleximq.Protocol
