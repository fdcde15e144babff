import Mathlib.Data.List.Basic

/-! # Incremental decoders

A decoder looks at the bytes that have arrived and waits, delivers a message from
their front, or fails. When bytes to come cannot change an answer other than
waiting, the messages, the failure and the bytes left over depend on the whole
input alone and not on how it arrived.
-/
namespace Foundation.Incremental

inductive Verdict (ε μ : Type) where
  | wait
  | deliver (message : μ) (consumed : Nat)
  | fail (error : ε)

/-- What a run delivers, and how it stops: with a failure, or in a state. -/
structure Outcome (ε μ σ : Type) where
  messages : List μ
  stop : Except ε σ

namespace Outcome
variable {ε μ σ τ ρ : Type}

def idle (s : σ) : Outcome ε μ σ := ⟨[], .ok s⟩

def failed (e : ε) : Outcome ε μ σ := ⟨[], .error e⟩

def prepend (messages : List μ) (o : Outcome ε μ σ) : Outcome ε μ σ := ⟨messages ++ o.messages, o.stop⟩

def andThen (o : Outcome ε μ σ) (next : σ → Outcome ε μ τ) : Outcome ε μ τ :=
  match o.stop with
  | .ok s => (next s).prepend o.messages
  | .error e => ⟨o.messages, .error e⟩

def map (f : σ → τ) (o : Outcome ε μ σ) : Outcome ε μ τ := ⟨o.messages, o.stop.map f⟩

theorem prepend_prepend (xs ys : List μ) (o : Outcome ε μ σ) :
    (o.prepend ys).prepend xs = o.prepend (xs ++ ys) := by
  simp only [prepend, List.append_assoc]

theorem prepend_andThen (messages : List μ) (o : Outcome ε μ σ) (next : σ → Outcome ε μ τ) :
    (o.prepend messages).andThen next = (o.andThen next).prepend messages := by
  obtain ⟨delivered, stop⟩ := o
  cases stop with
  | ok s => exact (prepend_prepend messages delivered (next s)).symm
  | error e => rfl

theorem andThen_congr {o : Outcome ε μ σ} {next next' : σ → Outcome ε μ τ}
    (h : ∀ s, o.stop = .ok s → next s = next' s) : o.andThen next = o.andThen next' := by
  obtain ⟨delivered, stop⟩ := o
  cases stop with
  | ok s => exact congrArg (prepend delivered) (h s rfl)
  | error e => rfl

theorem mem_andThen {o : Outcome ε μ σ} {next : σ → Outcome ε μ τ} {m : μ} :
    m ∈ (o.andThen next).messages ↔
      m ∈ o.messages ∨ ∃ s, o.stop = .ok s ∧ m ∈ (next s).messages := by
  obtain ⟨delivered, stop⟩ := o
  cases stop <;> simp [andThen, prepend]

theorem map_prepend (f : σ → τ) (messages : List μ) (o : Outcome ε μ σ) :
    (o.prepend messages).map f = (o.map f).prepend messages := rfl

theorem map_andThen (f : σ → τ) (o : Outcome ε μ σ) (next : τ → Outcome ε μ ρ) :
    (o.map f).andThen next = o.andThen fun s => next (f s) := by
  obtain ⟨delivered, stop⟩ := o
  cases stop <;> rfl

theorem andThen_map (f : τ → ρ) (o : Outcome ε μ σ) (next : σ → Outcome ε μ τ) :
    (o.andThen next).map f = o.andThen fun s => (next s).map f := by
  obtain ⟨delivered, stop⟩ := o
  cases stop <;> rfl

end Outcome

structure Decoder (α ε μ : Type) where
  verdict : List α → Verdict ε μ
  progress : ∀ {input m n}, verdict input = .deliver m n → 0 < n ∧ n ≤ input.length
  deliver_append : ∀ {input m n}, verdict input = .deliver m n →
    ∀ more, verdict (input ++ more) = .deliver m n
  fail_append : ∀ {input e}, verdict input = .fail e → ∀ more, verdict (input ++ more) = .fail e

namespace Decoder
variable {α ε μ : Type} (d : Decoder α ε μ)

def drain (input : List α) : Outcome ε μ (List α) :=
  match _h : d.verdict input with
  | .wait => .idle input
  | .fail e => .failed e
  | .deliver m n => (drain (input.drop n)).prepend [m]
termination_by input.length
decreasing_by
  have hProgress := d.progress _h
  rw [List.length_drop]
  omega

variable {d}

theorem drain_eq (input : List α) :
    d.drain input =
      match d.verdict input with
      | .wait => .idle input
      | .fail e => .failed e
      | .deliver m n => (d.drain (input.drop n)).prepend [m] := by
  rw [drain.eq_def]
  cases d.verdict input <;> rfl

theorem drain_wait {input : List α} (h : d.verdict input = .wait) : d.drain input = .idle input := by
  rw [drain_eq, h]

theorem drain_fail {input : List α} {e : ε} (h : d.verdict input = .fail e) :
    d.drain input = .failed e := by
  rw [drain_eq, h]

theorem drain_deliver {input : List α} {m : μ} {n : Nat} (h : d.verdict input = .deliver m n) :
    d.drain input = (d.drain (input.drop n)).prepend [m] := by
  rw [drain_eq, h]

theorem drain_induction {motive : List α → Prop}
    (wait : ∀ input, d.verdict input = .wait → motive input)
    (fail : ∀ input e, d.verdict input = .fail e → motive input)
    (deliver : ∀ input m n, d.verdict input = .deliver m n → motive (input.drop n) → motive input)
    (input : List α) : motive input := by
  induction hLength : input.length using Nat.strongRecOn generalizing input with
  | ind length ih =>
    cases hVerdict : d.verdict input with
    | wait => exact wait input hVerdict
    | fail e => exact fail input e hVerdict
    | deliver m n =>
      have hProgress := d.progress hVerdict
      apply deliver input m n hVerdict
      apply ih (input.drop n).length _ (input.drop n) rfl
      rw [List.length_drop]
      omega

/-- Input that arrives in two parts is drained part by part. -/
theorem drain_append (input more : List α) :
    d.drain (input ++ more) = (d.drain input).andThen fun rest => d.drain (rest ++ more) := by
  induction input using d.drain_induction with
  | wait input h =>
    rw [drain_wait h]
    rfl
  | fail input e h =>
    rw [drain_fail h, drain_fail (d.fail_append h more)]
    rfl
  | deliver input m n h ih =>
    have hLength := (d.progress h).2
    rw [drain_deliver h, drain_deliver (d.deliver_append h more), List.drop_append_of_le_length hLength,
      ih, Outcome.prepend_andThen]

theorem drain_rest {input rest : List α} (h : (d.drain input).stop = .ok rest) :
    d.verdict rest = .wait := by
  induction input using d.drain_induction with
  | wait input hWait =>
    rw [drain_wait hWait] at h
    cases h
    exact hWait
  | fail input e hFail =>
    rw [drain_fail hFail] at h
    cases h
  | deliver input m n hDeliver ih =>
    rw [drain_deliver hDeliver] at h
    exact ih h

theorem drain_rest_suffix {input rest : List α} (h : (d.drain input).stop = .ok rest) : rest <:+ input := by
  induction input using d.drain_induction with
  | wait input hWait =>
    rw [drain_wait hWait] at h
    cases h
    exact List.suffix_rfl
  | fail input e hFail =>
    rw [drain_fail hFail] at h
    cases h
  | deliver input m n hDeliver ih =>
    rw [drain_deliver hDeliver] at h
    exact (ih h).trans (List.drop_suffix n input)

variable (d) in
def feed (input : List α) : List (List α) → Outcome ε μ (List α)
  | [] => .idle input
  | chunk :: chunks => (d.drain (input ++ chunk)).andThen fun rest => feed rest chunks

theorem feed_eq_drain {input : List α} (hWait : d.verdict input = .wait) (chunks : List (List α)) :
    d.feed input chunks = d.drain (input ++ chunks.flatten) := by
  induction chunks generalizing input with
  | nil => rw [List.flatten_nil, List.append_nil, drain_wait hWait, feed]
  | cons chunk chunks ih =>
    rw [feed, List.flatten_cons, ← List.append_assoc, drain_append (input ++ chunk)]
    apply Outcome.andThen_congr
    intro rest hStop
    exact ih (drain_rest hStop)

/-! ## Concatenated pieces -/

variable (d) in
/-- The piece is delivered as `m` when all of it has arrived. -/
def Delivers (piece : List α) (m : μ) : Prop := d.verdict piece = .deliver m piece.length

theorem drain_delivers {piece : List α} {m : μ} (h : d.Delivers piece m) (rest : List α) :
    d.drain (piece ++ rest) = (d.drain rest).prepend [m] := by
  rw [drain_deliver (d.deliver_append h rest), List.drop_left]

theorem verdict_take {piece : List α} {m : μ} (h : d.Delivers piece m) {n : Nat}
    (hShort : n < piece.length) : d.verdict (piece.take n) = .wait := by
  cases hVerdict : d.verdict (piece.take n) with
  | wait => rfl
  | fail e =>
    have hWhole := d.fail_append hVerdict (piece.drop n)
    rw [List.take_append_drop, show d.verdict piece = .deliver m piece.length from h] at hWhole
    cases hWhole
  | deliver m' n' =>
    have hWhole := d.deliver_append hVerdict (piece.drop n)
    rw [List.take_append_drop, show d.verdict piece = .deliver m piece.length from h] at hWhole
    cases hWhole
    have hLength := (d.progress hVerdict).2
    rw [List.length_take] at hLength
    omega

/-- How much of an unfinished piece has arrived with `received` elements, the pieces having the
given sizes. -/
def pending : List Nat → Nat → Nat
  | [], _ => 0
  | size :: sizes, received => if received < size then received else pending sizes (received - size)

theorem pending_zero (sizes : List Nat) : pending sizes 0 = 0 := by
  induction sizes with
  | nil => rfl
  | cons size sizes ih =>
    rw [pending, Nat.zero_sub, ih, ite_self]

theorem pending_le {limit : Nat} {sizes : List Nat} (h : ∀ size ∈ sizes, size ≤ limit) (received : Nat) :
    pending sizes received ≤ limit := by
  induction sizes generalizing received with
  | nil => exact Nat.zero_le _
  | cons size sizes ih =>
    rw [pending]
    split
    · rename_i hShort
      exact Nat.le_trans (Nat.le_of_lt hShort) (h size List.mem_cons_self)
    · exact ih (fun other hOther => h other (List.mem_cons_of_mem size hOther)) _

/-- From the first `received` elements of the pieces, the whole pieces are delivered and the
unfinished one is left over. -/
theorem drain_take {κ : Type} {bytes : κ → List α} {message : κ → μ} {pieces : List κ}
    (hWait : d.verdict [] = .wait) (hPieces : ∀ piece ∈ pieces, d.Delivers (bytes piece) (message piece))
    (received : Nat) :
    ∃ delivered rest, d.drain ((pieces.flatMap bytes).take received) = ⟨delivered, .ok rest⟩ ∧
      rest.length = pending (pieces.map fun piece => (bytes piece).length) received := by
  induction pieces generalizing received with
  | nil => exact ⟨[], [], by rw [List.flatMap_nil, List.take_nil, drain_wait hWait]; rfl, rfl⟩
  | cons piece pieces ih =>
    have hPiece := hPieces piece List.mem_cons_self
    rw [List.flatMap_cons, List.map_cons, pending]
    split
    · rename_i hShort
      refine ⟨[], (bytes piece).take received, ?_, ?_⟩
      · rw [List.take_append_of_le_length (Nat.le_of_lt hShort), drain_wait (verdict_take hPiece hShort)]
        rfl
      · rw [List.length_take]
        omega
    · rename_i hLong
      obtain ⟨delivered, rest, hDrain, hRest⟩ :=
        ih (fun other hOther => hPieces other (List.mem_cons_of_mem piece hOther))
          (received - (bytes piece).length)
      refine ⟨message piece :: delivered, rest, ?_, hRest⟩
      rw [List.take_append, List.take_of_length_le (Nat.not_lt.mp hLong), drain_delivers hPiece, hDrain]
      rfl

theorem drain_flatMap_append {κ : Type} {bytes : κ → List α} {message : κ → μ} {pieces : List κ}
    (hPieces : ∀ piece ∈ pieces, d.Delivers (bytes piece) (message piece)) (rest : List α) :
    d.drain (pieces.flatMap bytes ++ rest) = (d.drain rest).prepend (pieces.map message) := by
  induction pieces with
  | nil => rfl
  | cons piece pieces ih =>
    rw [List.flatMap_cons, List.append_assoc, drain_delivers (hPieces piece List.mem_cons_self),
      ih fun other hOther => hPieces other (List.mem_cons_of_mem piece hOther), Outcome.prepend_prepend]
    rfl

theorem drain_flatMap {κ : Type} {bytes : κ → List α} {message : κ → μ} {pieces : List κ}
    (hWait : d.verdict [] = .wait) (hPieces : ∀ piece ∈ pieces, d.Delivers (bytes piece) (message piece)) :
    d.drain (pieces.flatMap bytes) = ⟨pieces.map message, .ok []⟩ := by
  have hDrain := drain_flatMap_append hPieces []
  rw [List.append_nil, drain_wait hWait] at hDrain
  rw [hDrain, Outcome.prepend, Outcome.idle, List.append_nil]

/-! ## What the messages are made of -/

section
variable {bytes : μ → List α}
  (hBytes : ∀ {input m n}, d.verdict input = .deliver m n → bytes m = input.take n)
include hBytes

/-- The messages and the bytes left over make up the input. -/
theorem drain_consumed {input rest : List α} (h : (d.drain input).stop = .ok rest) :
    (d.drain input).messages.flatMap bytes ++ rest = input := by
  induction input using d.drain_induction with
  | wait input hWait =>
    rw [drain_wait hWait] at h ⊢
    cases h
    rfl
  | fail input e hFail =>
    rw [drain_fail hFail] at h
    cases h
  | deliver input m n hDeliver ih =>
    rw [drain_deliver hDeliver] at h ⊢
    change (m :: (d.drain (input.drop n)).messages).flatMap bytes ++ rest = input
    rw [List.flatMap_cons, List.append_assoc, ih h, hBytes hDeliver, List.take_append_drop]

theorem drain_messages_isPrefix (input : List α) : (d.drain input).messages.flatMap bytes <+: input := by
  induction input using d.drain_induction with
  | wait input hWait =>
    rw [drain_wait hWait]
    exact List.nil_prefix
  | fail input e hFail =>
    rw [drain_fail hFail]
    exact List.nil_prefix
  | deliver input m n hDeliver ih =>
    rw [drain_deliver hDeliver]
    change (m :: (d.drain (input.drop n)).messages).flatMap bytes <+: input
    rw [List.flatMap_cons, hBytes hDeliver]
    calc
      input.take n ++ (d.drain (input.drop n)).messages.flatMap bytes <+:
          input.take n ++ input.drop n := (List.prefix_append_right_inj _).mpr ih
      _ = input := List.take_append_drop n input

/-- Any input consists of messages and a rest that begins with none. -/
theorem exists_pieces {good : μ → Prop}
    (hGood : ∀ {input m n}, d.verdict input = .deliver m n → good m) (input : List α) :
    ∃ (messages : List μ) (rest : List α), messages.flatMap bytes ++ rest = input ∧
      (∀ m ∈ messages, good m) ∧ ∀ m n, d.verdict rest ≠ .deliver m n := by
  induction input using d.drain_induction with
  | wait input hWait => exact ⟨[], input, rfl, List.forall_mem_nil _, by simp [hWait]⟩
  | fail input e hFail => exact ⟨[], input, rfl, List.forall_mem_nil _, by simp [hFail]⟩
  | deliver input m n hDeliver ih =>
    obtain ⟨messages, rest, hInput, hMessages, hRest⟩ := ih
    refine ⟨m :: messages, rest, ?_, ?_, hRest⟩
    · rw [List.flatMap_cons, List.append_assoc, hInput, hBytes hDeliver, List.take_append_drop]
    · intro m' hMem
      rcases List.mem_cons.mp hMem with rfl | hMem
      · exact hGood hDeliver
      · exact hMessages m' hMem

end

theorem drain_messages_forall {good : μ → Prop}
    (hGood : ∀ {input m n}, d.verdict input = .deliver m n → good m) (input : List α) :
    ∀ m ∈ (d.drain input).messages, good m := by
  induction input using d.drain_induction with
  | wait input hWait =>
    rw [drain_wait hWait]
    exact fun m hMem => nomatch hMem
  | fail input e hFail =>
    rw [drain_fail hFail]
    exact fun m hMem => nomatch hMem
  | deliver input m n hDeliver ih =>
    rw [drain_deliver hDeliver]
    intro m' hMem
    rcases List.mem_cons.mp hMem with rfl | hMem
    · exact hGood hDeliver
    · exact ih m' hMem

end Decoder
end Foundation.Incremental
