import Fleximq.Protocol.Builder
import Fleximq.Protocol.Caching
import Fleximq.Protocol.HeaderRoundTrip

/-! # Typed messages

A typed message is a message with both sections decoded. Turning it back into a
message writes it anew, with the writer's limits, zero reserved bytes and the
writer's form of the header.
-/
namespace Fleximq.Protocol
open Foundation
open Foundation.MessagePack (Value)

structure TypedMessage (T : Type) where
  baseHeader : BaseHeader
  header : Header
  payload : T

variable {T : Type}

/-- `none` where `header` or `raw_payload_bytes` panics. -/
def TypedMessage.fromMessage (rmp : Rmp) (read : List UInt8 → Except String T) (m : Message) :
    Option (Except ProtocolError (TypedMessage T)) :=
  match m.header rmp with
  | none => none
  | some (.error e) => some (.error e)
  | some (.ok header) =>
    m.rawPayloadBytes.map fun bytes => do
      let payload ← (read bytes).mapError .messagePackDeserialization
      return ⟨m.baseHeader, header, payload⟩

/-- `Message::from`, and `none` where one of its two `expect`s panics. -/
def TypedMessage.intoMessage (rmp : Rmp) (write : T → Except String Bytes) (typed : TypedMessage T) :
    Option Message :=
  let raw := RawMessage.newOf write typed.baseHeader.messageType typed.baseHeader.clientId typed.header
    typed.payload
  match raw with
  | .error _ => none
  | .ok raw =>
    match raw.intoMessage rmp with
    | .error _ => none
    | .ok message => some message

section
variable (rmp : Rmp) (read : List UInt8 → Except String T) (write : T → Except String Bytes) (m : Message)
  (typed : TypedMessage T)

/-- The conversion does not panic, and its message has the type, sender and reserved bytes of the
original and reads as the same header and payload. -/
def TypedMessage.ConvertsBack : Prop :=
  ∃ m', typed.intoMessage rmp write = some m' ∧ m'.messageType = m.messageType ∧
    m'.clientId = m.clientId ∧ m'.baseHeader.reserved = m.baseHeader.reserved ∧
    ∃ typed', fromMessage rmp read m' = some (.ok typed') ∧ typed'.header.Same typed.header ∧
      typed'.payload = typed.payload

/-- The writer can encode both sections, within its limits. -/
def TypedMessage.Writable : Prop :=
  ∃ headerBytes payloadData, typed.header.toVec rmp = .ok headerBytes ∧
    write typed.payload = .ok payloadData ∧ headerBytes.length ≤ defaultMaxHeaderSize.toNat ∧
    baseHeaderSize + headerBytes.length + payloadData.length ≤ defaultMaxMessageSize.toNat

end

section
variable {rmp : Rmp} {read : List UInt8 → Except String T} {write : T → Except String Bytes} {m : Message}
  {typed : TypedMessage T}

def TypedMessage.raw (typed : TypedMessage T) (payloadData : Bytes) : RawMessage where
  messageType := typed.baseHeader.messageType
  clientId := typed.baseHeader.clientId
  header := typed.header
  payloadData := payloadData

theorem TypedMessage.fromMessage_eq_ok :
    fromMessage rmp read m = some (.ok typed) ↔
      m.header rmp = some (.ok typed.header) ∧ typed.baseHeader = m.baseHeader ∧
        ∃ bytes, m.rawPayloadBytes = some bytes ∧ read bytes = .ok typed.payload := by
  rw [fromMessage]
  constructor
  · intro h
    split at h
    · cases h
    · cases h
    · rename_i header hHeader
      obtain ⟨bytes, hBytes, hResult⟩ := Option.map_eq_some_iff.mp h
      obtain ⟨payload, hRead, hTyped⟩ := bind_eq_ok.mp hResult
      cases hTyped
      exact ⟨hHeader, rfl, bytes, hBytes, mapError_eq_ok.mp hRead⟩
  · rintro ⟨hHeader, hBase, bytes, hBytes, hRead⟩
    rw [hHeader, hBytes, ← hBase]
    exact congrArg some (bind_eq_ok.mpr ⟨typed.payload, mapError_eq_ok.mpr hRead, rfl⟩)

theorem TypedMessage.intoMessage_eq_some {m' : Message} :
    typed.intoMessage rmp write = some m' ↔
      ∃ headerBytes payloadData, typed.header.toVec rmp = .ok headerBytes ∧
        write typed.payload = .ok payloadData ∧ headerBytes.length ≤ defaultMaxHeaderSize.toNat ∧
        baseHeaderSize + headerBytes.length + payloadData.length ≤ defaultMaxMessageSize.toNat ∧
        ∃ hLimit, m' = ((typed.raw payloadData).frame headerBytes hLimit).message := by
  rw [intoMessage]
  constructor
  · intro h
    split at h
    · cases h
    · rename_i raw hRaw
      split at h
      · cases h
      · rename_i message hMessage
        obtain rfl := Option.some.inj h
        obtain ⟨_, _, _, payloadData⟩ := raw
        obtain ⟨hWrite, rfl, rfl, rfl⟩ := RawMessage.newOf_eq_ok.mp hRaw
        obtain ⟨b, hBytes, _⟩ := bind_eq_ok.mp hMessage
        obtain ⟨headerBytes, hVec, _⟩ := bind_eq_ok.mp hBytes
        exact ⟨headerBytes, payloadData, hVec, hWrite, (RawMessage.intoMessage_eq_ok hVec).mp hMessage⟩
  · rintro ⟨headerBytes, payloadData, hVec, hWrite, hFrame⟩
    have hRaw : RawMessage.newOf write typed.baseHeader.messageType typed.baseHeader.clientId typed.header
        typed.payload = .ok (typed.raw payloadData) :=
      RawMessage.newOf_eq_ok.mpr ⟨hWrite, rfl, rfl, rfl⟩
    have hMessage : (typed.raw payloadData).intoMessage rmp = .ok m' :=
      (@RawMessage.intoMessage_eq_ok rmp (typed.raw payloadData) headerBytes m' hVec).mpr hFrame
    rw [hRaw]
    dsimp only
    rw [hMessage]

theorem Message.header_cases {header : Header} (hHeader : m.header rmp = some (.ok header)) :
    header = Header.new ∨ ∃ bytes v, rmp.fromSlice bytes = .ok v ∧ Header.deserialize v = .ok header := by
  rw [Message.header] at hHeader
  split at hHeader
  · obtain ⟨bytes, _, hResult⟩ := Option.map_eq_some_iff.mp hHeader
    obtain ⟨v, hSlice, hRead⟩ := bind_eq_ok.mp hResult
    exact .inr ⟨bytes, v, mapError_eq_ok.mp hSlice, mapError_eq_ok.mp hRead⟩
  · cases hHeader
    exact .inl rfl

theorem Message.header_keys {header : Header} (hHeader : m.header rmp = some (.ok header)) :
    ∀ key ∈ header.additional, key ∉ headerFields := by
  rcases header_cases hHeader with rfl | ⟨_, v, _, hRead⟩
  · exact fun key hKey => absurd hKey (AList.notMem_empty key)
  · exact Header.keys_of_deserialize hRead

/-- A header that was read can be read again. -/
theorem Message.header_within (hRmp : rmp.Lawful) {header : Header} (hHeader : m.header rmp = some (.ok header)) :
    header.Within rmp := by
  rcases header_cases hHeader with rfl | ⟨_, v, hSlice, hRead⟩
  · exact Header.within_of_named rfl
  · intro item hItem limit hLimit
    exact Header.nesting_of_deserialize (hRmp.within_of_fromSlice hSlice limit hLimit) hRead item hItem

/-- A typed message converts back exactly when the reserved bytes were zero, every routing entry
names a client, and the writer accepts both sections. -/
theorem convertsBack_iff (hRmp : rmp.Lawful)
    (hRoundTrip : ∀ payloadData, write typed.payload = .ok payloadData →
      read payloadData.toList = .ok typed.payload)
    (hTyped : TypedMessage.fromMessage rmp read m = some (.ok typed)) :
    typed.ConvertsBack rmp read write m ↔
      m.baseHeader.reserved = List.Vector.replicate reservedSize 0 ∧
        typed.header.routingComplete = true ∧ typed.Writable rmp write := by
  obtain ⟨hHeader, hBase, _⟩ := TypedMessage.fromMessage_eq_ok.mp hTyped
  constructor
  · rintro ⟨m', hInto, _, _, hReserved, typed', hTyped', _⟩
    obtain ⟨headerBytes, payloadData, hVec, hWrite, hHeaderSize, hSize, hLimit, rfl⟩ :=
      TypedMessage.intoMessage_eq_some.mp hInto
    refine ⟨hReserved.symm, ?_, headerBytes, payloadData, hVec, hWrite, hHeaderSize, hSize⟩
    exact @RawMessage.routingComplete_of_header rmp (typed.raw payloadData) headerBytes hRmp hLimit hVec _
      (TypedMessage.fromMessage_eq_ok.mp hTyped').1
  · rintro ⟨hReserved, hComplete, headerBytes, payloadData, hVec, hWrite, hHeaderSize, hSize⟩
    have hLimit := lt_of_le_maxHeaderSize hHeaderSize
    have hInto : typed.intoMessage rmp write =
        some ((typed.raw payloadData).frame headerBytes hLimit).message :=
      TypedMessage.intoMessage_eq_some.mpr
        ⟨headerBytes, payloadData, hVec, hWrite, hHeaderSize, hSize, hLimit, rfl⟩
    have hMachine : ((typed.raw payloadData).frame headerBytes hLimit).size < 2 ^ 64 := by
      rw [RawMessage.frame_size]
      exact Nat.lt_of_le_of_lt hSize (by decide)
    obtain ⟨header, hRead, hSame⟩ := @RawMessage.header_message_same rmp (typed.raw payloadData)
      headerBytes hRmp hLimit hVec (Message.header_keys hHeader) hComplete (Message.header_within hRmp hHeader)
    refine ⟨_, hInto, ?_, ?_, hReserved.symm, ?_⟩
    · change typed.baseHeader.messageType = m.baseHeader.messageType
      rw [hBase]
    · change typed.baseHeader.clientId = m.baseHeader.clientId
      rw [hBase]
    · refine ⟨⟨((typed.raw payloadData).frame headerBytes hLimit).baseHeader, header, typed.payload⟩, ?_,
        hSame, rfl⟩
      exact TypedMessage.fromMessage_eq_ok.mpr ⟨hRead, rfl, payloadData.toList,
        Frame.rawPayloadBytes_message hMachine, hRoundTrip _ hWrite⟩

end

theorem newsFrame_read :
    newsFrame.message.header Rmp.messagePack = some (.ok newsMessage.header) := by
  have hVec : newsMessage.header.toVec Rmp.messagePack = .ok newsHeader := by
    decide +kernel
  exact RawMessage.header_message Rmp.messagePack_lawful _ hVec (Header.within_of_named rfl)

theorem newsFrame_convertsBack :
    TypedMessage.ConvertsBack Rmp.messagePack Rmp.messagePack.fromSlice Rmp.messagePack.toVec newsFrame.message
      ⟨newsFrame.baseHeader, newsMessage.header, .nil⟩ :=
  (@convertsBack_iff _ Rmp.messagePack Rmp.messagePack.fromSlice Rmp.messagePack.toVec newsFrame.message
    ⟨newsFrame.baseHeader, newsMessage.header, .nil⟩ Rmp.messagePack_lawful
    (fun _ hWrite => Rmp.messagePack_lawful.fromSlice_toVec hWrite
      (Rmp.messagePack_lawful.within_of_le_three (Nat.zero_le 3)))
    (TypedMessage.fromMessage_eq_ok.mpr ⟨newsFrame_read, rfl, [0xc0], rfl, rfl⟩)).mpr
    ⟨rfl, rfl, newsHeader, nilPayload, by decide +kernel, by decide +kernel, by decide, by decide⟩

def reservedFrame : Frame where
  baseHeader := { newsFrame.baseHeader with reserved := List.Vector.replicate reservedSize 0xff }
  header := newsFrame.header
  payload := newsFrame.payload
  version_eq := rfl
  header_length := newsFrame.header_length
  payload_length := newsFrame.payload_length

theorem reservedFrame_not_convertsBack :
    Message.fromBytes reservedFrame.bytes = .ok reservedFrame.message ∧
      TypedMessage.fromMessage Rmp.messagePack Rmp.messagePack.fromSlice reservedFrame.message =
        some (.ok ⟨reservedFrame.baseHeader, newsMessage.header, .nil⟩) ∧
      TypedMessage.intoMessage Rmp.messagePack Rmp.messagePack.toVec
        ⟨reservedFrame.baseHeader, newsMessage.header, .nil⟩ = some newsFrame.message ∧
      ¬ TypedMessage.ConvertsBack Rmp.messagePack Rmp.messagePack.fromSlice Rmp.messagePack.toVec
        reservedFrame.message ⟨reservedFrame.baseHeader, newsMessage.header, .nil⟩ := by
  have hInto : TypedMessage.intoMessage Rmp.messagePack Rmp.messagePack.toVec
      ⟨reservedFrame.baseHeader, newsMessage.header, .nil⟩ = some newsFrame.message :=
    TypedMessage.intoMessage_eq_some.mpr ⟨newsHeader, nilPayload, by decide +kernel, by decide +kernel,
      by decide, by decide, by decide, rfl⟩
  refine ⟨Frame.fromBytes_bytes (by decide), ?_, hInto, ?_⟩
  · exact TypedMessage.fromMessage_eq_ok.mpr ⟨newsFrame_read, rfl, [0xc0], rfl, rfl⟩
  · rintro ⟨m', hOther, _, _, hReserved, _⟩
    obtain rfl := Option.some.inj (hInto.symm.trans hOther)
    exact absurd hReserved (by decide)

/-! ## Payloads as values -/

section
variable (rmp : Rmp) (m : Message)

/-- `payload_as::<Value>` on fresh caches. -/
def Message.payloadAsValue : Option (Except ProtocolError Value) :=
  (CachedMessage.payloadAs (fun _ : Unit => rmp.fromSlice) () m.uncached).2

/-- `payload` on fresh caches. -/
def Message.payloadFresh : Option (Except ProtocolError Value) :=
  (CachedMessage.payload rmp (m.uncached : CachedMessage fun _ : Unit => Value)).2

/-- The three decoders of the payload succeed with one value, or all fail. -/
def PayloadsAgree : Prop :=
  (∃ v typed, m.payloadFresh rmp = some (.ok v) ∧ m.payloadAsValue rmp = some (.ok v) ∧
      TypedMessage.fromMessage rmp rmp.fromSlice m = some (.ok typed) ∧ typed.payload = v) ∨
    ((∃ e, m.payloadFresh rmp = some (.error e)) ∧ (∃ e, m.payloadAsValue rmp = some (.error e)) ∧
      ∃ e, TypedMessage.fromMessage rmp rmp.fromSlice m = some (.error e))

end

section
variable {rmp : Rmp} {m : Message} {header : Header} {bytes : List UInt8}

theorem Message.payloadFresh_eq : m.payloadFresh rmp = m.payload rmp :=
  @CachedMessage.payload_result _ _ rmp (fun _ : Unit => rmp.fromSlice) m _ .uncached

theorem Message.payloadFresh_nonempty (hNonempty : m.payloadLength ≠ 0)
    (hBytes : m.rawPayloadBytes = some bytes) :
    m.payloadFresh rmp = some ((rmp.fromSlice bytes).mapError .messagePackDeserialization) := by
  rw [payloadFresh_eq, payload, if_pos (UInt64.pos_iff_ne_zero.mpr hNonempty), hBytes]
  rfl

theorem Message.payloadAsValue_eq (hBytes : m.rawPayloadBytes = some bytes) :
    m.payloadAsValue rmp = some ((rmp.fromSlice bytes).mapError .messagePackDeserialization) := by
  rw [payloadAsValue, CachedMessage.payloadAs_empty rfl]
  change m.rawPayloadBytes.map _ = _
  rw [hBytes]
  rfl

theorem TypedMessage.fromMessage_eq {T : Type} {read : List UInt8 → Except String T}
    (hHeader : m.header rmp = some (.ok header)) (hBytes : m.rawPayloadBytes = some bytes) :
    fromMessage rmp read m =
      some (((read bytes).mapError .messagePackDeserialization).map fun payload =>
        ⟨m.baseHeader, header, payload⟩) := by
  rw [fromMessage, hHeader, hBytes]
  dsimp only [Option.map_some]
  cases read bytes <;> rfl

/-- The payload decoders agree on the messages that have a payload. -/
theorem payloadsAgree_iff {data : List UInt8} (hAccept : Message.fromBytes data = .ok m)
    (hSound : m.baseHeader.declaredSize = m.rawData.length) (hHeader : m.header rmp = some (.ok header))
    (hEmpty : ∀ v, rmp.fromSlice [] ≠ .ok v) : PayloadsAgree rmp m ↔ m.payloadLength ≠ 0 := by
  obtain ⟨bytes, hBytes⟩ := Option.ne_none_iff_exists'.mp ((Message.slices_iff hAccept).2.mpr hSound)
  constructor
  · intro hAgree hZero
    have hNil : m.payloadFresh rmp = some (.ok .nil) := by
      rw [Message.payloadFresh_eq, Message.payload, hZero]
      rfl
    have hSection : bytes = [] := by
      rw [Message.rawPayloadBytes, if_pos hZero] at hBytes
      exact (Option.some.inj hBytes).symm
    have hAs : m.payloadAsValue rmp = _ := Message.payloadAsValue_eq hBytes
    rcases hAgree with ⟨v, _, _, hOk, _⟩ | ⟨⟨e, hError⟩, _⟩
    · rw [hAs, hSection] at hOk
      exact hEmpty v (mapError_eq_ok.mp (Option.some.inj hOk))
    · cases hNil.symm.trans hError
  · intro hNonempty
    have hFresh := @Message.payloadFresh_nonempty rmp m bytes hNonempty hBytes
    have hAs := @Message.payloadAsValue_eq rmp m bytes hBytes
    have hTyped := @TypedMessage.fromMessage_eq rmp m header bytes Value rmp.fromSlice hHeader hBytes
    cases hRead : rmp.fromSlice bytes with
    | ok v =>
      rw [hRead] at hFresh hAs hTyped
      exact .inl ⟨v, _, hFresh, hAs, hTyped, rfl⟩
    | error e =>
      rw [hRead] at hFresh hAs hTyped
      exact .inr ⟨⟨_, hFresh⟩, ⟨_, hAs⟩, _, hTyped⟩

end

theorem newsFrame_payloadsAgree : PayloadsAgree Rmp.messagePack newsFrame.message :=
  (@payloadsAgree_iff Rmp.messagePack newsFrame.message newsMessage.header newsFrame.bytes
    (Frame.fromBytes_bytes (by decide)) newsFrame.bytes_length.symm newsFrame_read
    (fun _ hRead => by cases hRead)).mpr (by decide)

def bareHeader : BaseHeader := .new .notification clientIdMinDynamic 0 0

def bareMessage : Message := ⟨bareHeader, bareHeader.encode⟩

theorem bareMessage_not_payloadsAgree :
    Message.fromBytes bareMessage.rawData = .ok bareMessage ∧
      bareMessage.header Rmp.messagePack = some (.ok Header.new) ∧
      bareMessage.payloadFresh Rmp.messagePack = some (.ok .nil) ∧
      bareMessage.payloadAsValue Rmp.messagePack =
        some (.error (.messagePackDeserialization "IO error while reading marker")) ∧
      ¬ PayloadsAgree Rmp.messagePack bareMessage := by
  have hNil : bareMessage.payloadFresh Rmp.messagePack = some (.ok .nil) := rfl
  have hAs : bareMessage.payloadAsValue Rmp.messagePack =
      some (.error (.messagePackDeserialization "IO error while reading marker")) := rfl
  refine ⟨rfl, rfl, hNil, hAs, ?_⟩
  rintro (⟨v, _, _, hOk, _⟩ | ⟨⟨e, hError⟩, _⟩)
  · cases hAs.symm.trans hOk
  · cases hNil.symm.trans hError

end Fleximq.Protocol
