import Fleximq.Foundation.OnceCell
import Fleximq.Foundation.Trace
import Fleximq.Protocol.FrameRoundTrip

/-! # The caches of a message

`header`, `payload` and `payload_as` fill three cells of the message, and a clone
takes the filled cells along. The cell for typed payloads is one for all types,
and a full cell is not filled again.
-/
namespace Fleximq.Protocol
open Foundation Foundation.OnceCell
open Foundation.MessagePack (Value)

variable {Ty : Type} {Val : Ty → Type}

/-- `rmp_serde::from_slice::<T>` for each type that a payload is read as. -/
abbrev ReadAs (Val : Ty → Type) := (τ : Ty) → List UInt8 → Except String (Val τ)

structure CachedMessage (Val : Ty → Type) where
  message : Message
  headerCache : Option Header
  payloadCache : Option Value
  typedPayloadCache : Option (Σ τ, Val τ)

def Message.uncached (m : Message) : CachedMessage Val := ⟨m, none, none, none⟩

inductive Call (Ty : Type) where
  | header
  | payload
  | payloadAs (τ : Ty)
  | clearCache
  | clone

inductive Answer (Val : Ty → Type) where
  | header (result : Except ProtocolError Header)
  | payload (result : Except ProtocolError Value)
  | payloadAs (τ : Ty) (result : Except ProtocolError (Val τ))
  | done
  | panicked

/-- The answer to a call, which panics where there is no result. -/
def Answer.of {α : Type} (answer : Except ProtocolError α → Answer Val) :
    Option (Except ProtocolError α) → Answer Val
  | some result => answer result
  | none => .panicked

namespace CachedMessage

def header (rmp : Rmp) (c : CachedMessage Val) : CachedMessage Val × Option (Except ProtocolError Header) :=
  let (cell, result) := getOrTryInit (c.message.header rmp) c.headerCache
  ({ c with headerCache := cell }, result)

def payload (rmp : Rmp) (c : CachedMessage Val) : CachedMessage Val × Option (Except ProtocolError Value) :=
  let (cell, result) := getOrTryInit (c.message.payload rmp) c.payloadCache
  ({ c with payloadCache := cell }, result)

def payloadAs [DecidableEq Ty] (readAs : ReadAs Val) (τ : Ty) (c : CachedMessage Val) :
    CachedMessage Val × Option (Except ProtocolError (Val τ)) :=
  match c.typedPayloadCache.bind (downcast τ) with
  | some v => (c, some (.ok v))
  | none =>
    match c.message.rawPayloadBytes with
    | none => (c, none)
    | some bytes =>
      match readAs τ bytes with
      | .error e => (c, some (.error (.messagePackDeserialization e)))
      | .ok v =>
        let cell := OnceCell.set ⟨τ, v⟩ c.typedPayloadCache
        -- the two `expect`s
        ({ c with typedPayloadCache := cell }, (cell.bind (downcast τ)).map .ok)

def clearCache (c : CachedMessage Val) : CachedMessage Val :=
  { c with headerCache := none, payloadCache := none, typedPayloadCache := none }

variable [DecidableEq Ty]

def call (rmp : Rmp) (readAs : ReadAs Val) (c : CachedMessage Val) :
    Call Ty → CachedMessage Val × Answer Val
  | .header => ((c.header rmp).1, .of .header (c.header rmp).2)
  | .payload => ((c.payload rmp).1, .of .payload (c.payload rmp).2)
  | .payloadAs τ => ((c.payloadAs readAs τ).1, .of (.payloadAs τ) (c.payloadAs readAs τ).2)
  | .clearCache => (c.clearCache, .done)
  | .clone => (c, .done)

end CachedMessage

section
variable [DecidableEq Ty] (rmp : Rmp) (readAs : ReadAs Val) (m : Message)

/-- A call on one of the message and its clones; a clone comes last. -/
def callOn (pool : List (CachedMessage Val)) (event : Nat × Call Ty) : List (CachedMessage Val) :=
  match pool[event.1]? with
  | none => pool
  | some c =>
    match event.2 with
    | .clone => pool ++ [c]
    | call => pool.set event.1 (c.call rmp readAs call).1

/-- The call does not panic and is answered as on the message without caches. -/
def CachedMessage.Transparent (c : CachedMessage Val) (call : Call Ty) : Prop :=
  (c.call rmp readAs call).2 ≠ .panicked ∧
    (c.call rmp readAs call).2 = ((Message.uncached m).call rmp readAs call).2

def CachesTransparent (events : List (Nat × Call Ty)) : Prop :=
  Trace.Along (callOn rmp readAs)
    (fun pool event => ∀ c, pool[event.1]? = some c → c.Transparent rmp readAs m event.2)
    [m.uncached] events

/-- The sections are within the data, and no value of another type is cached when the payload can be
read. -/
def CachedMessage.Safe (c : CachedMessage Val) : Call Ty → Prop
  | .header | .payload => c.message.baseHeader.declaredSize = c.message.rawData.length
  | .payloadAs τ => c.message.baseHeader.declaredSize = c.message.rawData.length ∧
    ∀ bytes, c.message.rawPayloadBytes = some bytes → (∃ v, readAs τ bytes = .ok v) →
      ∀ cached, c.typedPayloadCache = some cached → cached.1 = τ
  | .clearCache | .clone => True

def CallsSafe (events : List (Nat × Call Ty)) : Prop :=
  Trace.Along (callOn rmp readAs)
    (fun pool event => ∀ c, pool[event.1]? = some c → c.Safe readAs event.2) [m.uncached] events

end

/-! ## What the caches hold -/

section
variable {rmp : Rmp} {readAs : ReadAs Val} {m : Message}

/-- What is cached is what would be computed again. -/
structure CachedMessage.Caches (rmp : Rmp) (readAs : ReadAs Val) (m : Message) (c : CachedMessage Val) :
    Prop where
  message : c.message = m
  header : Holds (m.header rmp) c.headerCache
  payload : Holds (m.payload rmp) c.payloadCache
  typed : ∀ cached, c.typedPayloadCache = some cached →
    ∃ bytes, m.rawPayloadBytes = some bytes ∧ readAs cached.1 bytes = .ok cached.2

theorem CachedMessage.Caches.uncached : CachedMessage.Caches rmp readAs m m.uncached where
  message := rfl
  header := holds_none _
  payload := holds_none _
  typed := by
    intro cached h
    cases h

variable [DecidableEq Ty]

theorem CachedMessage.payloadAs_caches {c : CachedMessage Val} (hCaches : c.Caches rmp readAs m) (τ : Ty) :
    (c.payloadAs readAs τ).1.Caches rmp readAs m := by
  rw [payloadAs]
  split
  · exact hCaches
  · split
    · exact hCaches
    · rename_i bytes hRaw
      split
      · exact hCaches
      · rename_i v hRead
        refine ⟨hCaches.message, hCaches.header, hCaches.payload, ?_⟩
        intro cached hCell
        rcases Option.or_eq_some_iff.mp hCell with hOld | ⟨_, hNew⟩
        · exact hCaches.typed cached hOld
        · cases hNew
          exact ⟨bytes, hCaches.message ▸ hRaw, hRead⟩

theorem CachedMessage.call_caches {c : CachedMessage Val} (hCaches : c.Caches rmp readAs m) (call : Call Ty) :
    (c.call rmp readAs call).1.Caches rmp readAs m := by
  obtain ⟨rfl, hHeader, hPayload, hTyped⟩ := hCaches
  cases call with
  | header => exact ⟨rfl, getOrTryInit_holds hHeader, hPayload, hTyped⟩
  | payload => exact ⟨rfl, hHeader, getOrTryInit_holds hPayload, hTyped⟩
  | payloadAs τ => exact payloadAs_caches ⟨rfl, hHeader, hPayload, hTyped⟩ τ
  | clearCache => exact CachedMessage.Caches.uncached
  | clone => exact ⟨rfl, hHeader, hPayload, hTyped⟩

theorem callOn_caches {pool : List (CachedMessage Val)} (event : Nat × Call Ty)
    (hPool : ∀ c ∈ pool, c.Caches rmp readAs m) :
    ∀ c ∈ callOn rmp readAs pool event, c.Caches rmp readAs m := by
  intro c hMem
  rw [callOn] at hMem
  split at hMem
  · exact hPool c hMem
  · rename_i target hTarget
    have hCaches := hPool target (List.mem_of_getElem? hTarget)
    split at hMem
    · rcases List.mem_append.mp hMem with hMem | hMem
      · exact hPool c hMem
      · obtain rfl := List.mem_singleton.mp hMem
        exact hCaches
    · rcases List.mem_or_eq_of_mem_set hMem with hMem | rfl
      · exact hPool c hMem
      · exact CachedMessage.call_caches hCaches _

end

/-! ## One call -/

theorem Answer.of_eq_panicked {α : Type} {answer : Except ProtocolError α → Answer Val}
    (hAnswer : ∀ result, answer result ≠ .panicked) {result : Option (Except ProtocolError α)} :
    Answer.of answer result = .panicked ↔ result = none := by
  cases result with
  | none => simp [Answer.of]
  | some result => simp [Answer.of, hAnswer result]

theorem Answer.of_payloadAs_inj {τ : Ty} {result result' : Option (Except ProtocolError (Val τ))} :
    (Answer.of (Answer.payloadAs τ) result : Answer Val) = .of (.payloadAs τ) result' ↔ result = result' := by
  cases result <;> cases result' <;> simp [Answer.of]

theorem Message.header_eq_none {rmp : Rmp} {m : Message} : m.header rmp = none ↔ m.rawHeaderBytes = none := by
  by_cases hZero : m.headerLength = 0
  · rw [header, rawHeaderBytes, if_pos hZero, hZero, if_neg (UInt32.lt_irrefl 0)]
    simp
  · rw [header, if_pos (UInt32.pos_iff_ne_zero.mpr hZero), Option.map_eq_none_iff]

theorem Message.payload_eq_none {rmp : Rmp} {m : Message} :
    m.payload rmp = none ↔ m.rawPayloadBytes = none := by
  by_cases hZero : m.payloadLength = 0
  · rw [payload, rawPayloadBytes, if_pos hZero, hZero, if_neg (UInt64.lt_irrefl 0)]
    simp
  · rw [payload, if_pos (UInt64.pos_iff_ne_zero.mpr hZero), Option.map_eq_none_iff]

theorem Message.slices_iff {data : List UInt8} {m : Message} (hAccept : Message.fromBytes data = .ok m) :
    (m.rawHeaderBytes ≠ none ↔ m.baseHeader.declaredSize = m.rawData.length) ∧
      (m.rawPayloadBytes ≠ none ↔ m.baseHeader.declaredSize = m.rawData.length) := by
  rcases Message.fromBytes_cases hAccept with ⟨f, rfl, rfl, hSize⟩ | hWrapped
  · rw [f.rawHeaderBytes_message, Frame.rawPayloadBytes_message hSize]
    simp [Frame.message, f.bytes_length, Frame.size]
  · obtain ⟨hHeader, hPayload⟩ := Message.slices_panic hAccept hWrapped
    obtain ⟨_, hData, _⟩ := Message.fromBytes_eq_ok.mp hAccept
    rw [hHeader, hPayload, hWrapped, hData]
    simp

section
variable {rmp : Rmp} {readAs : ReadAs Val} {m : Message} {c : CachedMessage Val}
  (hCaches : c.Caches rmp readAs m)
include hCaches

theorem CachedMessage.header_result : (c.header rmp).2 = m.header rmp := by
  obtain ⟨rfl, hHeader, _, _⟩ := hCaches
  exact getOrTryInit_result hHeader

theorem CachedMessage.payload_result : (c.payload rmp).2 = m.payload rmp := by
  obtain ⟨rfl, _, hPayload, _⟩ := hCaches
  exact getOrTryInit_result hPayload

end

section
variable [DecidableEq Ty] {rmp : Rmp} {readAs : ReadAs Val} {m : Message} {c : CachedMessage Val} {τ : Ty}

theorem CachedMessage.payloadAs_hit {v : Val τ} (hCell : c.typedPayloadCache = some ⟨τ, v⟩) :
    c.payloadAs readAs τ = (c, some (.ok v)) := by
  rw [payloadAs, hCell, Option.bind_some, downcast_same]

theorem CachedMessage.payloadAs_empty (hCell : c.typedPayloadCache = none) :
    (c.payloadAs readAs τ).2 = c.message.rawPayloadBytes.map fun bytes =>
      (readAs τ bytes).mapError .messagePackDeserialization := by
  rw [payloadAs, hCell, Option.bind_none]
  cases c.message.rawPayloadBytes with
  | none => rfl
  | some bytes =>
    dsimp only [Option.map_some]
    cases readAs τ bytes with
    | error e => rfl
    | ok v => simp [Except.mapError, downcast_same, OnceCell.set_none]

theorem CachedMessage.payloadAs_other {σ : Ty} {w : Val σ} (hCell : c.typedPayloadCache = some ⟨σ, w⟩)
    (hOther : σ ≠ τ) :
    (c.payloadAs readAs τ).2 = c.message.rawPayloadBytes.bind fun bytes =>
      match readAs τ bytes with
      | .ok _ => none
      | .error e => some (.error (.messagePackDeserialization e)) := by
  rw [payloadAs, hCell, Option.bind_some, downcast_other hOther]
  cases c.message.rawPayloadBytes with
  | none => rfl
  | some bytes =>
    dsimp only [Option.bind_some]
    cases readAs τ bytes with
    | error e => rfl
    | ok v => simp [downcast_other hOther, OnceCell.set_some]

/-- Asking for a type while another one is cached is the only way to a different answer. -/
theorem CachedMessage.payloadAs_result_iff (hCaches : c.Caches rmp readAs m) :
    ((c.payloadAs readAs τ).2 ≠ none ∧
        (c.payloadAs readAs τ).2 = ((Message.uncached m).payloadAs readAs τ).2) ↔
      m.rawPayloadBytes ≠ none ∧
        ∀ bytes, m.rawPayloadBytes = some bytes → (∃ v, readAs τ bytes = .ok v) →
          ∀ cached, c.typedPayloadCache = some cached → cached.1 = τ := by
  obtain ⟨rfl, _, _, hTyped⟩ := hCaches
  rw [@payloadAs_empty Ty Val _ readAs c.message.uncached τ rfl]
  change _ ∧ _ = c.message.rawPayloadBytes.map _ ↔ _
  cases hCell : c.typedPayloadCache with
  | none =>
    rw [payloadAs_empty hCell]
    simp
  | some cached =>
    obtain ⟨σ, w⟩ := cached
    obtain ⟨bytes, hRaw, hRead⟩ := hTyped ⟨σ, w⟩ hCell
    rw [hRaw]
    by_cases hSame : σ = τ
    · subst hSame
      rw [payloadAs_hit hCell, Option.map_some, hRead]
      simp [Except.mapError]
    · rw [payloadAs_other hCell hSame, hRaw]
      cases hOther : readAs τ bytes with
      | error e => simp [Except.mapError, hOther]
      | ok v => simp [hOther, hSame]

/-- One call, in a state where the caches hold what they should. -/
theorem CachedMessage.transparent_iff_safe {data : List UInt8} (hAccept : Message.fromBytes data = .ok m)
    (hCaches : c.Caches rmp readAs m) (call : Call Ty) :
    c.Transparent rmp readAs m call ↔ c.Safe readAs call := by
  have hFresh : (Message.uncached m : CachedMessage Val).Caches rmp readAs m := .uncached
  obtain ⟨hHeaderSlice, hPayloadSlice⟩ := Message.slices_iff hAccept
  rw [Transparent]
  cases call with
  | header =>
    change Answer.of _ (c.header rmp).2 ≠ _ ∧ Answer.of _ (c.header rmp).2 = Answer.of _ (header rmp _).2 ↔ _
    rw [header_result hCaches, header_result hFresh, Safe, hCaches.message, ← hHeaderSlice,
      Ne, Answer.of_eq_panicked (by simp), Message.header_eq_none]
    simp
  | payload =>
    change Answer.of _ (c.payload rmp).2 ≠ _ ∧ Answer.of _ (c.payload rmp).2 = Answer.of _ (payload rmp _).2 ↔ _
    rw [payload_result hCaches, payload_result hFresh, Safe, hCaches.message, ← hPayloadSlice,
      Ne, Answer.of_eq_panicked (by simp), Message.payload_eq_none]
    simp
  | payloadAs τ =>
    have hPayloadAs := @payloadAs_result_iff _ _ _ _ _ _ _ τ hCaches
    rw [hPayloadSlice] at hPayloadAs
    rw [Safe, hCaches.message, ← hPayloadAs]
    change Answer.of _ (c.payloadAs readAs τ).2 ≠ _ ∧
      Answer.of _ (c.payloadAs readAs τ).2 = Answer.of _ (payloadAs readAs τ _).2 ↔ _
    rw [Ne, Answer.of_eq_panicked (by simp), Answer.of_payloadAs_inj]
  | clearCache => simp [CachedMessage.call, Safe]
  | clone => simp [CachedMessage.call, Safe]

/-- The caches are transparent in exactly the runs whose calls are all safe in the state before
them. -/
theorem cachesTransparent_iff {data : List UInt8} (hAccept : Message.fromBytes data = .ok m)
    (events : List (Nat × Call Ty)) :
    CachesTransparent rmp readAs m events ↔ CallsSafe rmp readAs m events := by
  have hInit : ∀ c ∈ [(Message.uncached m : CachedMessage Val)], c.Caches rmp readAs m :=
    List.forall_mem_singleton.mpr .uncached
  have hStep (pool : List (CachedMessage Val)) (event : Nat × Call Ty)
      (hPool : ∀ c ∈ pool, c.Caches rmp readAs m) :
      ∀ c ∈ callOn rmp readAs pool event, c.Caches rmp readAs m := callOn_caches event hPool
  refine Trace.along_iff hStep ?_ hInit events
  intro pool event hPool
  constructor
  · intro hAll c hTarget
    have hCaches := hPool c (List.mem_of_getElem? hTarget)
    exact (CachedMessage.transparent_iff_safe hAccept hCaches event.2).mp (hAll c hTarget)
  · intro hAll c hTarget
    have hCaches := hPool c (List.mem_of_getElem? hTarget)
    exact (CachedMessage.transparent_iff_safe hAccept hCaches event.2).mpr (hAll c hTarget)

end

inductive PayloadType where
  | value
  | text
  deriving DecidableEq

def PayloadType.Target : PayloadType → Type
  | .value => Value
  | .text => Option String

def readPayload : ReadAs PayloadType.Target
  | .value, bytes => Rmp.messagePack.fromSlice bytes
  | .text, bytes => do
    let v ← Rmp.messagePack.fromSlice bytes
    (Serde.option Serde.string v).mapError Rmp.messagePack.errorText

theorem newsFrame_cleared :
    CachesTransparent Rmp.messagePack readPayload newsFrame.message
      [(0, .payloadAs .value), (0, .clone), (1, .payloadAs .value), (1, .clearCache), (1, .payloadAs .text)] :=
  (cachesTransparent_iff (Frame.fromBytes_bytes (by decide)) _).mpr (by
    have hFramed : newsFrame.message.baseHeader.declaredSize = newsFrame.message.rawData.length :=
      newsFrame.bytes_length.symm
    refine ⟨?_, ?_, ?_, ?_, ?_, trivial⟩
    · rintro c ⟨⟩
      exact ⟨hFramed, fun _ _ _ cached hCell => by cases hCell⟩
    · exact fun _ _ => trivial
    · rintro c ⟨⟩
      exact ⟨hFramed, fun _ _ _ cached hCell => by cases hCell; rfl⟩
    · exact fun _ _ => trivial
    · rintro c ⟨⟩
      exact ⟨hFramed, fun _ _ _ cached hCell => by cases hCell⟩)

/-- The payload nil is read as a value, and then as an optional text. -/
theorem newsFrame_panics :
    Message.fromBytes newsFrame.bytes = .ok newsFrame.message ∧
      readPayload .text [0xc0] = .ok none ∧
      ¬ CachesTransparent Rmp.messagePack readPayload newsFrame.message
        [(0, .payloadAs .value), (0, .payloadAs .text)] := by
  refine ⟨Frame.fromBytes_bytes (by decide), rfl, ?_⟩
  rintro ⟨_, hSecond, _⟩
  exact (hSecond _ rfl).1 rfl

end Fleximq.Protocol
