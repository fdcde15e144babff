import Fleximq.Protocol.FrameRoundTrip
import Fleximq.Protocol.Parser

/-! # The size limits against exact sizes

The receiving side compares with the low 32 bits of its header limit and with a
wrapped total, the sending side checks the low 32 bits of its header length. The
checks are exact away from these reductions and nowhere else.
-/
namespace Fleximq.Protocol
open Foundation

/-! ## Receiving -/

structure BaseHeader.Within (h : BaseHeader) (maxMessageSize maxHeaderSize : Usize) : Prop where
  header_le : h.headerLength.toNat ≤ maxHeaderSize.toNat
  size_le : h.declaredSize ≤ maxMessageSize.toNat

def TooLarge (result : Except ProtocolError (Option Message)) : Prop :=
  ∃ size max, result = .error (.headerTooLarge size max) ∨ result = .error (.messageTooLarge size max)

/-- The two checks accept the base header exactly when it is within the limits, so a parser delivers
nothing larger and refuses nothing else for its size. -/
structure ReceivesExactly (maxMessageSize maxHeaderSize : Usize) (h : BaseHeader) : Prop where
  check : h.isSizeValid maxMessageSize maxHeaderSize = true ↔ h.Within maxMessageSize maxHeaderSize
  parse : ∀ buffer, parseBaseHeader buffer = .ok h →
    (TooLarge (MessageParser.tryParse ⟨buffer, maxMessageSize, maxHeaderSize⟩).2 ↔
      h.isSizeValid maxMessageSize maxHeaderSize = false)
  delivered : ∀ buffer m, parseBaseHeader buffer = .ok h →
    (MessageParser.tryParse ⟨buffer, maxMessageSize, maxHeaderSize⟩).2 = .ok (some m) →
    h.Within maxMessageSize maxHeaderSize
  refused : ∀ buffer, parseBaseHeader buffer = .ok h →
    TooLarge (MessageParser.tryParse ⟨buffer, maxMessageSize, maxHeaderSize⟩).2 →
    ¬ h.Within maxMessageSize maxHeaderSize

/-- The header length is between the low 32 bits of the limit and the limit, and the size is within
its own; or the size passes `2 ^ 64`, and what is left of it and the header length are within the
limits that are compared with. -/
def Misjudged (maxMessageSize maxHeaderSize : Usize) (h : BaseHeader) : Prop :=
  (h.declaredSize ≤ maxMessageSize.toNat ∧ maxHeaderSize.toNat % 2 ^ 32 < h.headerLength.toNat ∧
    h.headerLength.toNat ≤ maxHeaderSize.toNat) ∨
  (2 ^ 64 ≤ h.declaredSize ∧ h.declaredSize ≤ maxMessageSize.toNat + 2 ^ 64 ∧
    h.headerLength.toNat ≤ maxHeaderSize.toNat % 2 ^ 32)

section
variable {maxMessageSize maxHeaderSize : Usize} {h : BaseHeader}

theorem permits_iff :
    MessageParser.Permits maxMessageSize maxHeaderSize h ↔
      h.headerLength.toNat ≤ maxHeaderSize.toNat % 2 ^ 32 ∧
        h.declaredSize % 2 ^ 64 ≤ maxMessageSize.toNat := by
  rw [← h.totalMessageSize_toNat, ← UInt64.toNat_toUInt32, ← UInt32.le_iff_toNat_le,
    ← UInt64.le_iff_toNat_le]
  exact ⟨fun hPermits => ⟨hPermits.header_le, hPermits.total_le⟩, fun hBoth => ⟨hBoth.1, hBoth.2⟩⟩

theorem isSizeValid_iff_permits :
    h.isSizeValid maxMessageSize maxHeaderSize = true ↔
      MessageParser.Permits maxMessageSize maxHeaderSize h := by
  rw [BaseHeader.isSizeValid, Bool.and_eq_true, decide_eq_true_iff, decide_eq_true_iff]
  exact ⟨fun hBoth => ⟨hBoth.2, hBoth.1⟩, fun hPermits => ⟨hPermits.total_le, hPermits.header_le⟩⟩

theorem tooLarge_iff {buffer : List UInt8} (hParse : parseBaseHeader buffer = .ok h) :
    TooLarge (MessageParser.tryParse ⟨buffer, maxMessageSize, maxHeaderSize⟩).2 ↔
      h.isSizeValid maxMessageSize maxHeaderSize = false := by
  rw [MessageParser.tryParse_decided ⟨buffer, maxMessageSize, maxHeaderSize⟩ hParse, ← Bool.not_eq_true,
    isSizeValid_iff_permits]
  constructor
  · rintro ⟨size, max, hError⟩ hPermits
    rw [MessageParser.tryComplete_of_permits hPermits] at hError
    split at hError
    · rcases hError with hError | hError <;> cases hError
    · rename_i hComplete
      rw [MessageParser.fromBytes_take hParse (Nat.not_lt.mp hComplete)] at hError
      split at hError
      · rcases hError with hError | hError <;> cases hError
      · rcases hError with hError | hError <;> cases hError
  · intro hRefused
    rw [MessageParser.tryComplete_of_not_permits hRefused, MessageParser.limitError]
    split
    · exact ⟨_, _, .inl rfl⟩
    · exact ⟨_, _, .inr rfl⟩

theorem permits_iff_within :
    (MessageParser.Permits maxMessageSize maxHeaderSize h ↔ h.Within maxMessageSize maxHeaderSize) ↔
      ¬ Misjudged maxMessageSize maxHeaderSize h := by
  have hWithin : h.Within maxMessageSize maxHeaderSize ↔
      h.headerLength.toNat ≤ maxHeaderSize.toNat ∧ h.declaredSize ≤ maxMessageSize.toNat :=
    ⟨fun hBoth => ⟨hBoth.header_le, hBoth.size_le⟩, fun hBoth => ⟨hBoth.1, hBoth.2⟩⟩
  have hMessage := maxMessageSize.toNat_lt
  have hSize := h.declaredSize_lt
  rw [permits_iff, hWithin, Misjudged]
  omega

end

/-- The receive limits are exact for a base header unless the reduced limit or the wrapped size
misjudges it. -/
theorem receivesExactly_iff (maxMessageSize maxHeaderSize : Usize) (h : BaseHeader) :
    ReceivesExactly maxMessageSize maxHeaderSize h ↔ ¬ Misjudged maxMessageSize maxHeaderSize h := by
  rw [← permits_iff_within, ← isSizeValid_iff_permits]
  constructor
  · exact fun hExact => hExact.check
  · intro hCheck
    have hRefused (buffer : List UInt8) (hParse : parseBaseHeader buffer = .ok h)
        (hWithin : h.Within maxMessageSize maxHeaderSize) :
        ¬ TooLarge (MessageParser.tryParse ⟨buffer, maxMessageSize, maxHeaderSize⟩).2 := by
      rw [tooLarge_iff hParse, hCheck.mpr hWithin]
      decide
    refine ⟨hCheck, fun buffer hParse => tooLarge_iff hParse, ?_,
      fun buffer hParse hLarge hWithin => hRefused buffer hParse hWithin hLarge⟩
    intro buffer m hParse hDelivered
    by_contra hOutside
    have hLarge : TooLarge (MessageParser.tryParse ⟨buffer, maxMessageSize, maxHeaderSize⟩).2 :=
      (tooLarge_iff hParse).mpr (eq_false_of_ne_true (mt hCheck.mp hOutside))
    obtain ⟨size, max, hError | hError⟩ := hLarge
    all_goals rw [hDelivered] at hError; cases hError

/-- One header byte and no payload, under a header limit of `2 ^ 32`; and one header byte and a
payload that makes the size `2 ^ 64 + 34`, under the default limits. -/
theorem not_receivesExactly :
    BaseHeader.Within (.new .request clientIdMinDynamic 1 0) 1024 0x100000000 ∧
      (MessageParser.tryParse ⟨(BaseHeader.new .request clientIdMinDynamic 1 0).encode, 1024, 0x100000000⟩).2 =
        .error (.headerTooLarge 1 0x100000000) ∧
      ¬ ReceivesExactly 1024 0x100000000 (.new .request clientIdMinDynamic 1 0) ∧
      overdeclaredHeader.isSizeValid defaultMaxMessageSize defaultMaxHeaderSize = true ∧
      ¬ ReceivesExactly defaultMaxMessageSize defaultMaxHeaderSize overdeclaredHeader := by
  have hWithin : BaseHeader.Within (.new .request clientIdMinDynamic 1 0) 1024 0x100000000 :=
    ⟨by decide, by decide⟩
  refine ⟨hWithin, rfl, ?_, rfl, ?_⟩
  · intro hExact
    cases hExact.check.mpr hWithin
  · intro hExact
    exact absurd (hExact.check.mp rfl).size_le (by decide)

/-! ## Sending -/

def RawMessage.size (r : RawMessage) (headerBytes : Bytes) : Nat :=
  baseHeaderSize + headerBytes.length + r.payloadData.length

structure RawMessage.Sendable (r : RawMessage) (headerBytes : Bytes) : Prop where
  header_le : headerBytes.length ≤ defaultMaxHeaderSize.toNat
  size_le : r.size headerBytes ≤ defaultMaxMessageSize.toNat

/-- With the header section `headerBytes`, exactly the messages within the limits are written, with
their size as length and declared size, and the others are refused with their true sizes. -/
structure RawMessage.SendsExactly (rmp : Rmp) (r : RawMessage) (headerBytes : Bytes) : Prop where
  ok_iff : (∃ b, r.toBytes rmp = .ok b) ↔ r.Sendable headerBytes
  written : ∀ b, r.toBytes rmp = .ok b → b.length = r.size headerBytes ∧
    ∃ h, parseBaseHeader b = .ok h ∧ h.totalMessageSize.toNat = b.length ∧ h.declaredSize = b.length
  refused : ¬ r.Sendable headerBytes →
    r.toBytes rmp = .error (.headerTooLarge headerBytes.length defaultMaxHeaderSize.toNat) ∨
      r.toBytes rmp = .error (.messageTooLarge (r.size headerBytes) defaultMaxMessageSize.toNat)

section
variable {rmp : Rmp} {r : RawMessage} {headerBytes : Bytes}

theorem RawMessage.not_sendsExactly_of_le (hHeader : r.header.toVec rmp = .ok headerBytes)
    (hLong : 2 ^ 32 ≤ headerBytes.length) : ¬ r.SendsExactly rmp headerBytes := by
  intro hExact
  have hOutside : ¬ r.Sendable headerBytes := by
    intro hSendable
    exact absurd (lt_of_le_maxHeaderSize hSendable.header_le) (Nat.not_lt.mpr hLong)
  have hTruncated := Nat.mod_lt headerBytes.length (Nat.two_pow_pos 32)
  have hRefused := hExact.refused hOutside
  rw [toBytes_eq hHeader, layOut_eq, r.baseHeader_headerLength, r.baseHeader_declaredSize] at hRefused
  split at hRefused
  · rcases hRefused with hError | hError
    · injection hError with hError
      injection hError with hSize _
      omega
    · cases hError
  · split at hRefused
    · rcases hRefused with hError | hError
      · cases hError
      · injection hError with hError
        injection hError with hSize _
        rw [RawMessage.size] at hSize
        omega
    · rcases hRefused with hError | hError <;> cases hError

theorem RawMessage.sendsExactly_of_refused {e : ProtocolError} (hBytes : r.toBytes rmp = .error e)
    (hOutside : ¬ r.Sendable headerBytes)
    (hTrue : e = .headerTooLarge headerBytes.length defaultMaxHeaderSize.toNat ∨
      e = .messageTooLarge (r.size headerBytes) defaultMaxMessageSize.toNat) :
    r.SendsExactly rmp headerBytes := by
  refine ⟨⟨?_, fun hSendable => absurd hSendable hOutside⟩, ?_, ?_⟩
  · rintro ⟨b, hOk⟩
    cases hOk.symm.trans hBytes
  · intro b hOk
    cases hOk.symm.trans hBytes
  · intro _
    rw [hBytes]
    exact hTrue.imp (congrArg Except.error) (congrArg Except.error)

/-- The send limits are exact exactly for header sections whose length fits 32 bits. -/
theorem sendsExactly_iff (hHeader : r.header.toVec rmp = .ok headerBytes) :
    r.SendsExactly rmp headerBytes ↔ headerBytes.length < 2 ^ 32 := by
  constructor
  · intro hExact
    by_contra hLong
    exact RawMessage.not_sendsExactly_of_le hHeader (Nat.not_lt.mp hLong) hExact
  · intro hFits
    have hHeaderLength : (r.baseHeader headerBytes).headerLength.toNat = headerBytes.length := by
      rw [r.baseHeader_headerLength, Nat.mod_eq_of_lt hFits]
    have hDeclared : (r.baseHeader headerBytes).declaredSize = r.size headerBytes := by
      rw [r.baseHeader_declaredSize, Nat.mod_eq_of_lt hFits]
      rfl
    have hBytes : r.toBytes rmp = _ := (RawMessage.toBytes_eq hHeader).trans (r.layOut_eq headerBytes)
    rw [hHeaderLength, hDeclared] at hBytes
    split at hBytes
    · rename_i hHeaderSize
      refine RawMessage.sendsExactly_of_refused hBytes ?_ (.inl rfl)
      exact fun hSendable => Nat.not_lt.mpr hSendable.header_le hHeaderSize
    · rename_i hHeaderSize
      split at hBytes
      · rename_i hSize
        refine RawMessage.sendsExactly_of_refused hBytes ?_ (.inr rfl)
        exact fun hSendable => Nat.not_lt.mpr hSendable.size_le hSize
      · rename_i hSize
        have hSendable : r.Sendable headerBytes := ⟨Nat.not_lt.mp hHeaderSize, Nat.not_lt.mp hSize⟩
        refine ⟨⟨fun _ => hSendable, fun _ => ⟨_, hBytes⟩⟩, ?_, fun hOutside => absurd hSendable hOutside⟩
        intro b hOk
        obtain rfl := Except.ok.inj (hBytes.symm.trans hOk)
        refine ⟨r.laidOut_length headerBytes, r.baseHeader headerBytes, ?_, ?_, ?_⟩
        · rw [RawMessage.laidOut, List.append_assoc]
          exact parseBaseHeader_encode rfl _
        · rw [BaseHeader.totalMessageSize_toNat, hDeclared, r.laidOut_length]
          exact Nat.mod_eq_of_lt (Nat.lt_of_le_of_lt hSendable.size_le (by decide))
        · rw [hDeclared, r.laidOut_length]
          rfl

end

theorem sendsExactly_newsMessage : newsMessage.SendsExactly Rmp.messagePack newsHeader :=
  (@sendsExactly_iff Rmp.messagePack newsMessage newsHeader (by decide +kernel)).mpr (by decide)

def blobMessage (data : List UInt8) : RawMessage where
  messageType := .broadcast
  clientId := clientIdMinDynamic
  header := { Header.new with additional := AList.insert "blob" (.binary data) ∅ }
  payloadData := nilPayload

theorem blobMessage_toVec {data : List UInt8} (hLong : 256 ^ 2 ≤ data.length)
    (hFits : data.length < 256 ^ 4) :
    ∃ headerBytes, (blobMessage data).header.toVec Rmp.messagePack = .ok headerBytes ∧
      headerBytes.length = data.length + 11 := by
  have hHead : MessagePack.writeHead (.binary data.length) =
      some (MessagePack.field 0xc6 4 data.length) := by
    rw [MessagePack.writeHead, if_neg (by omega), if_neg (by omega), if_pos hFits]
  have hKey : MessagePack.encode (.string "blob") = some [0xa4, 98, 108, 111, 98] := by decide +kernel
  have hEncode : MessagePack.encode (blobMessage data).header.serialize =
      some ([0x81, 0xa4, 98, 108, 111, 98] ++ MessagePack.field 0xc6 4 data.length ++ data) := by
    change MessagePack.encode (.map [(.string "blob", .binary data)]) = _
    rw [MessagePack.encode, MessagePack.encodeEntries, MessagePack.encodeEntries, hKey, MessagePack.encode,
      hHead]
    simp [MessagePack.writeHead]
  have hLength : ([0x81, 0xa4, 98, 108, 111, 98] ++ MessagePack.field 0xc6 4 data.length ++ data).length =
      data.length + 11 := by
    simp [MessagePack.field]
    omega
  have hVec : Rmp.messagePack.toVec (blobMessage data).header.serialize = .ok ⟨_, by rw [hLength]; omega⟩ :=
    Rmp.messagePack_toVec_eq_ok.mpr hEncode
  refine ⟨⟨_, by rw [hLength]; omega⟩, ?_, hLength⟩
  rw [Header.toVec, if_neg (by rintro ⟨⟩), hVec]
  rfl

/-- With `2 ^ 32 - 1` bytes of data the header section has `2 ^ 32 + 10` bytes. All of them are written
behind a base header that declares 10. -/
theorem blobMessage_not_sendsExactly :
    ∃ headerBytes b,
      (blobMessage (List.replicate (2 ^ 32 - 1) 0)).header.toVec Rmp.messagePack = .ok headerBytes ∧
        headerBytes.length = 2 ^ 32 + 10 ∧
        (blobMessage (List.replicate (2 ^ 32 - 1) 0)).toBytes Rmp.messagePack = .ok b ∧
        b.length = 2 ^ 32 + 45 ∧ (∃ h, parseBaseHeader b = .ok h ∧ h.totalMessageSize.toNat = 45) ∧
        ¬ (blobMessage (List.replicate (2 ^ 32 - 1) 0)).SendsExactly Rmp.messagePack headerBytes := by
  have hData : (List.replicate (2 ^ 32 - 1) (0 : UInt8)).length = 2 ^ 32 - 1 := List.length_replicate
  generalize List.replicate (2 ^ 32 - 1) (0 : UInt8) = data at hData ⊢
  obtain ⟨headerBytes, hHeader, hLength⟩ := @blobMessage_toVec data (by omega) (by omega)
  have hLong : headerBytes.length = 2 ^ 32 + 10 := by omega
  have hHeaderLength : ((blobMessage data).baseHeader headerBytes).headerLength.toNat = 10 := by
    rw [RawMessage.baseHeader_headerLength, hLong]
    rfl
  have hDeclared : ((blobMessage data).baseHeader headerBytes).declaredSize = 45 := by
    rw [RawMessage.baseHeader_declaredSize, hLong]
    rfl
  have hBytes : (blobMessage data).toBytes Rmp.messagePack = .ok ((blobMessage data).laidOut headerBytes) := by
    rw [RawMessage.toBytes_eq hHeader, RawMessage.layOut_eq, hHeaderLength, hDeclared,
      if_neg (by decide), if_neg (by decide)]
  refine ⟨headerBytes, _, hHeader, hLong, hBytes, ?_, ⟨(blobMessage data).baseHeader headerBytes, ?_, ?_⟩,
    RawMessage.not_sendsExactly_of_le hHeader (by omega)⟩
  · rw [RawMessage.laidOut_length, hLong]
    rfl
  · rw [RawMessage.laidOut, List.append_assoc]
    exact parseBaseHeader_encode rfl _
  · rw [BaseHeader.totalMessageSize_toNat, hDeclared]
    rfl

end Fleximq.Protocol
