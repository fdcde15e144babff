import Fleximq.Protocol.Delivery
import Fleximq.Protocol.FailStop

/-! # All messages of a buffer

`parse_all` takes messages from the buffer until `try_parse` finds none. When a
later call fails, `?` drops the messages that were taken before.
-/
namespace Fleximq.Protocol.MessageParser
open Foundation
open Foundation.Incremental (Decoder)

theorem tryParse_length {p p' : MessageParser} {m : Message} (h : p.tryParse = (p', .ok (some m))) :
    p'.buffer.length < p.buffer.length := by
  obtain ⟨n, hDeliver, rfl⟩ := tryParse_eq_some h
  have hProgress := (decoder p.maxMessageSize p.maxHeaderSize).progress hDeliver
  dsimp only
  rw [List.length_drop]
  omega

/-- The loop of `parse_all`, with the messages that it has found. -/
def parseAllFrom (messages : List Message) (p : MessageParser) :
    MessageParser × Except ProtocolError (List Message) :=
  match _h : p.tryParse with
  | (p', .error e) => (p', .error e)
  | (p', .ok none) => (p', .ok messages)
  | (p', .ok (some message)) => parseAllFrom (messages ++ [message]) p'
termination_by p.buffer.length
decreasing_by exact tryParse_length _h

def parseAll (p : MessageParser) : MessageParser × Except ProtocolError (List Message) :=
  parseAllFrom [] p

/-- What is returned, nothing with an error, and the buffer afterwards make up the buffer. -/
def Conserves (p : MessageParser) : Prop :=
  (match p.parseAll.2 with
    | .ok messages => messages.flatMap Message.rawBytes
    | .error _ => []) ++ p.parseAll.1.buffer = p.buffer

/-- `try_parse` refuses what the bytes declare, for its size or because it is less than a base
header. -/
def Refuses (maxMessageSize maxHeaderSize : Usize) (bytes : List UInt8) : Prop :=
  ∃ h, parseBaseHeader bytes = .ok h ∧
    (¬ Permits maxMessageSize maxHeaderSize h ∨ h.totalMessageSize.toNat < baseHeaderSize)

/-- Messages are at the front of the buffer, and bytes that are refused come behind them. -/
def RefusesBehind (p : MessageParser) : Prop :=
  ∃ (messages : List Message) (tail : List UInt8), messages ≠ [] ∧
    messages.flatMap Message.rawBytes ++ tail = p.buffer ∧
    (∀ m ∈ messages, m.Accepted p.maxMessageSize p.maxHeaderSize) ∧
    Refuses p.maxMessageSize p.maxHeaderSize tail

/-! ## The loop over the pieces of the buffer -/

section
variable {maxMessageSize maxHeaderSize : Usize}

theorem refuses_iff {bytes : List UInt8} :
    Refuses maxMessageSize maxHeaderSize bytes ↔
      ∃ e, verdict maxMessageSize maxHeaderSize bytes = .fail e := by
  constructor
  · rintro ⟨h, hParse, hReason⟩
    by_cases hPermits : Permits maxMessageSize maxHeaderSize h
    · exact ⟨_, verdict_eq_fail.mpr
        ⟨h, hParse, .inr ⟨hPermits, hReason.resolve_left (not_not.mpr hPermits), rfl⟩⟩⟩
    · exact ⟨_, verdict_refused hParse hPermits⟩
  · rintro ⟨e, hFail⟩
    obtain ⟨h, hParse, ⟨hRefused, _⟩ | ⟨_, hShort, _⟩⟩ := verdict_eq_fail.mp hFail
    · exact ⟨h, hParse, .inl hRefused⟩
    · exact ⟨h, hParse, .inr hShort⟩

theorem parseAllFrom_eq (messages : List Message) (p : MessageParser) :
    parseAllFrom messages p =
      match p.tryParse with
      | (p', .error e) => (p', .error e)
      | (p', .ok none) => (p', .ok messages)
      | (p', .ok (some message)) => parseAllFrom (messages ++ [message]) p' := by
  rw [parseAllFrom.eq_def]
  split <;> rename_i hParse <;> rw [hParse]

theorem parseAllFrom_flatMap {messages : List Message}
    (hMessages : ∀ m ∈ messages, m.Accepted maxMessageSize maxHeaderSize)
    (found : List Message) (rest : List UInt8) :
    parseAllFrom found ⟨messages.flatMap Message.rawBytes ++ rest, maxMessageSize, maxHeaderSize⟩ =
      parseAllFrom (found ++ messages) ⟨rest, maxMessageSize, maxHeaderSize⟩ := by
  induction messages generalizing found with
  | nil => rw [List.flatMap_nil, List.nil_append, List.append_nil]
  | cons m messages ih =>
    have hFirst := (decoder maxMessageSize maxHeaderSize).deliver_append
      (hMessages m List.mem_cons_self).delivers (messages.flatMap Message.rawBytes ++ rest)
    rw [List.flatMap_cons, List.append_assoc, parseAllFrom_eq, tryParse_deliver ⟨_, _, _⟩ hFirst]
    dsimp only
    rw [List.drop_left, ih fun other hOther => hMessages other (List.mem_cons_of_mem m hOther),
      List.append_assoc]
    rfl

end

section
variable {p : MessageParser} {messages : List Message} {rest : List UInt8}
  (hBuffer : messages.flatMap Message.rawBytes ++ rest = p.buffer)
  (hMessages : ∀ m ∈ messages, m.Accepted p.maxMessageSize p.maxHeaderSize)
include hBuffer hMessages

theorem parseAll_pieces : p.parseAll = parseAllFrom messages { p with buffer := rest } := by
  have hParse := parseAllFrom_flatMap hMessages [] rest
  rw [hBuffer] at hParse
  exact hParse

theorem parseAll_of_wait (hWait : verdict p.maxMessageSize p.maxHeaderSize rest = .wait) :
    p.parseAll = ({ p with buffer := rest }, .ok messages) := by
  rw [parseAll_pieces hBuffer hMessages, parseAllFrom_eq, tryParse_wait { p with buffer := rest } hWait]

theorem parseAll_of_fail {e : ProtocolError}
    (hFail : verdict p.maxMessageSize p.maxHeaderSize rest = .fail e) :
    p.parseAll = ((MessageParser.tryParse { p with buffer := rest }).1, .error e) := by
  have hResult := tryParse_fail { p with buffer := rest } hFail
  rw [parseAll_pieces hBuffer hMessages, parseAllFrom_eq]
  split
  · rename_i p' e' hParse
    rw [hParse] at hResult ⊢
    rw [Except.error.inj hResult]
  all_goals
    rename_i hParse
    rw [hParse] at hResult
    cases hResult

end

/-- All that `parse_all` can do: messages are taken from the front until the parser waits or fails. -/
theorem parseAll_cases (p : MessageParser) :
    ∃ (messages : List Message) (rest : List UInt8),
      messages.flatMap Message.rawBytes ++ rest = p.buffer ∧
      (∀ m ∈ messages, m.Accepted p.maxMessageSize p.maxHeaderSize) ∧
      (p.parseAll = ({ p with buffer := rest }, .ok messages) ∨
        ∃ e, verdict p.maxMessageSize p.maxHeaderSize rest = .fail e ∧
          p.parseAll = ((MessageParser.tryParse { p with buffer := rest }).1, .error e)) := by
  obtain ⟨messages, rest, hBuffer, hMessages, hStop⟩ :=
    @Decoder.exists_pieces _ _ _ (decoder p.maxMessageSize p.maxHeaderSize) Message.rawBytes
      verdict_take_rawBytes _ accepted_of_deliver p.buffer
  refine ⟨messages, rest, hBuffer, hMessages, ?_⟩
  cases hVerdict : verdict p.maxMessageSize p.maxHeaderSize rest with
  | wait => exact .inl (parseAll_of_wait hBuffer hMessages hVerdict)
  | deliver m n => exact absurd hVerdict (hStop m n)
  | fail e => exact .inr ⟨e, rfl, parseAll_of_fail hBuffer hMessages hVerdict⟩

theorem tryParse_state (p : MessageParser) :
    ∃ buffer, buffer <:+ p.buffer ∧ p.tryParse.1 = { p with buffer := buffer } := by
  by_cases hParse : ∃ h, parseBaseHeader p.buffer = .ok h
  · obtain ⟨h, hParse⟩ := hParse
    rw [tryParse_decided p hParse]
    by_cases hPermits : Permits p.maxMessageSize p.maxHeaderSize h
    · rw [tryComplete_of_permits hPermits]
      split
      · exact ⟨p.buffer, List.suffix_rfl, rfl⟩
      · exact ⟨_, List.drop_suffix _ _, rfl⟩
    · rw [tryComplete_of_not_permits hPermits]
      exact ⟨p.buffer, List.suffix_rfl, rfl⟩
  · rw [tryParse_undecided p (not_exists.mp hParse)]
    exact ⟨p.buffer, List.suffix_rfl, rfl⟩

theorem parseAll_state (p : MessageParser) :
    ∃ buffer, buffer <:+ p.buffer ∧ p.parseAll.1 = { p with buffer := buffer } := by
  obtain ⟨messages, rest, hBuffer, _, hParse | ⟨e, _, hParse⟩⟩ := p.parseAll_cases
  · exact ⟨rest, ⟨_, hBuffer⟩, congrArg Prod.fst hParse⟩
  · obtain ⟨buffer, hRest, hState⟩ := tryParse_state { p with buffer := rest }
    rw [hParse]
    exact ⟨buffer, hRest.trans ⟨_, hBuffer⟩, hState⟩

theorem rawBytes_ne_nil {maxMessageSize maxHeaderSize : Usize} {m : Message}
    (hAccepted : m.Accepted maxMessageSize maxHeaderSize) : m.rawBytes ≠ [] := by
  intro hNil
  have hLength := parseBaseHeader_length (Message.fromBytes_eq_ok.mp hAccepted.fromBytes).1
  rw [show m.rawData = [] from hNil] at hLength
  exact absurd hLength (by decide)

theorem not_conserves_of_splitsShort {p : MessageParser} (hShort : p.SplitsShort) : ¬ p.Conserves := by
  obtain ⟨⟨e, hError⟩, hChanged⟩ := tryParse_splitsShort hShort
  have hParse := @parseAll_of_fail p [] p.buffer rfl (List.forall_mem_nil _) e (verdict_of_tryParse hError)
  intro hConserves
  rw [Conserves, hParse] at hConserves
  exact hChanged hConserves

theorem not_conserves_of_refusesBehind {p : MessageParser} (hBehind : p.RefusesBehind) : ¬ p.Conserves := by
  obtain ⟨messages, tail, hSome, hBuffer, hMessages, hRefuses⟩ := hBehind
  obtain ⟨e, hFail⟩ := refuses_iff.mp hRefuses
  have hParse := parseAll_of_fail hBuffer hMessages hFail
  obtain ⟨buffer, hSuffix, hState⟩ := tryParse_state { p with buffer := tail }
  have hLength := hSuffix.length_le
  intro hConserves
  rw [Conserves, hParse, List.nil_append, ← hBuffer, hState] at hConserves
  obtain ⟨m, others, rfl⟩ := List.exists_cons_of_ne_nil hSome
  have hFirst := List.length_pos_of_ne_nil (rawBytes_ne_nil (hMessages m List.mem_cons_self))
  have hWhole := congrArg List.length hConserves
  simp only [List.flatMap_cons, List.length_append] at hWhole
  dsimp only at hLength
  omega

/-- `parse_all` conserves the buffer unless a later frame is refused, or the first one is split off
before it is. -/
theorem conserves_iff (p : MessageParser) : p.Conserves ↔ ¬ (p.SplitsShort ∨ p.RefusesBehind) := by
  constructor
  · rintro hConserves (hShort | hBehind)
    · exact not_conserves_of_splitsShort hShort hConserves
    · exact not_conserves_of_refusesBehind hBehind hConserves
  · intro hNeither
    obtain ⟨hWhole, hNone⟩ := not_or.mp hNeither
    obtain ⟨messages, rest, hBuffer, hMessages, hParse | ⟨e, hFail, hParse⟩⟩ := p.parseAll_cases
    · rw [Conserves, hParse]
      exact hBuffer
    · have hEmpty : messages = [] := by
        by_contra hSome
        exact hNone ⟨messages, rest, hSome, hBuffer, hMessages, refuses_iff.mpr ⟨e, hFail⟩⟩
      subst hEmpty
      obtain rfl : rest = p.buffer := hBuffer
      rw [Conserves, hParse, tryParse_of_fail hWhole hFail]
      rfl

/-- A base header that declares more header bytes than the default limits allow. -/
def oversizedHeader : BaseHeader := .new .request clientIdMinDynamic 0xffffffff 0

theorem not_conserves_newsFrame :
    ∃ p, new.pushData (newsFrame.bytes ++ oversizedHeader.encode) = .ok p ∧
      p.parseAll = ({ p with buffer := oversizedHeader.encode }, .error (.headerTooLarge 0xffffffff 65536)) ∧
      ¬ p.Conserves := by
  refine ⟨⟨newsFrame.bytes ++ oversizedHeader.encode, defaultMaxMessageSize, defaultMaxHeaderSize⟩, rfl, ?_⟩
  have hNews : ∀ m ∈ [newsFrame.message], m.Accepted defaultMaxMessageSize defaultMaxHeaderSize := by
    intro m hMem
    obtain rfl := List.mem_singleton.mp hMem
    exact ⟨Frame.fromBytes_bytes (by decide), ⟨by decide, by decide⟩⟩
  have hRefused : verdict defaultMaxMessageSize defaultMaxHeaderSize oversizedHeader.encode =
      .fail (.headerTooLarge 0xffffffff 65536) := rfl
  have hParse := @parseAll_of_fail ⟨newsFrame.bytes ++ oversizedHeader.encode, defaultMaxMessageSize,
    defaultMaxHeaderSize⟩ [newsFrame.message] oversizedHeader.encode rfl hNews _ hRefused
  refine ⟨hParse, ?_⟩
  intro hConserves
  rw [Conserves, hParse] at hConserves
  exact absurd (congrArg List.length hConserves) (by decide)

end Fleximq.Protocol.MessageParser
