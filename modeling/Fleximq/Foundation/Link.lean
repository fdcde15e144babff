import Fleximq.Foundation.Incremental

/-! # A link from a writer to a decoder

Pieces are put into a buffer, the buffer goes out in parts of any size, and a
decoder takes messages from the front of what has arrived. Whatever the order of
these steps, the messages are the pieces, and a piece that was in the buffer when
the buffer was found empty cannot stay behind.
-/
namespace Foundation.Incremental

/-- `flushed` counts the pieces accepted when the buffer was last found empty. -/
structure Link (α μ : Type) where
  accepted : List μ
  flushed : Nat
  unsent : List α
  underway : List α
  arrived : List α
  delivered : List μ

namespace Link
variable {α ε μ : Type}

def fresh : Link α μ := ⟨[], 0, [], [], [], []⟩

inductive Step (d : Decoder α ε μ) (bytes : μ → List α) (l : Link α μ) : Link α μ → Prop where
  | accept {m} :
    d.Delivers (bytes m) m →
    Step d bytes l { l with accepted := l.accepted ++ [m], unsent := l.unsent ++ bytes m }
  | write (n : Nat) :
    Step d bytes l { l with unsent := l.unsent.drop n, underway := l.underway ++ l.unsent.take n }
  | read (n : Nat) :
    Step d bytes l { l with underway := l.underway.drop n, arrived := l.arrived ++ l.underway.take n }
  | deliver {m n} :
    d.verdict l.arrived = .deliver m n →
    Step d bytes l { l with arrived := l.arrived.drop n, delivered := l.delivered ++ [m] }
  | flush : l.unsent = [] → Step d bytes l { l with flushed := l.accepted.length }

/-- The accepted pieces are the delivered ones and those whose elements are still on the way; the
buffer holds none of the flushed ones. -/
structure Sound (d : Decoder α ε μ) (bytes : μ → List α) (l : Link α μ) : Prop where
  pieces : ∀ m ∈ l.accepted, d.Delivers (bytes m) m
  conserved : ∃ pending, l.accepted = l.delivered ++ pending ∧
    pending.flatMap bytes = l.arrived ++ l.underway ++ l.unsent
  flushed_le : l.flushed ≤ l.accepted.length
  unsent_le : l.unsent.length ≤ ((l.accepted.drop l.flushed).flatMap bytes).length

variable {d : Decoder α ε μ} {bytes : μ → List α} {l l' : Link α μ}

theorem sound_fresh : (fresh : Link α μ).Sound d bytes :=
  ⟨List.forall_mem_nil _, ⟨[], rfl, rfl⟩, Nat.le_refl _, Nat.le_refl _⟩

/-- What is delivered from the front of pieces is the first of them, and all of it. -/
theorem deliver_front {pending : List μ} {rest : List α} {arrived : List α} {m : μ} {n : Nat}
    (hPieces : ∀ p ∈ pending, d.Delivers (bytes p) p) (hBytes : pending.flatMap bytes = arrived ++ rest)
    (hDeliver : d.verdict arrived = .deliver m n) :
    ∃ later, pending = m :: later ∧ n = (bytes m).length ∧ later.flatMap bytes = arrived.drop n ++ rest := by
  have hProgress := d.progress hDeliver
  have hWhole := d.deliver_append hDeliver rest
  rw [← hBytes] at hWhole
  cases pending with
  | nil =>
    have hLength := congrArg List.length hBytes
    rw [List.flatMap_nil, List.length_nil, List.length_append] at hLength
    omega
  | cons first later =>
    have hFirst := d.deliver_append (hPieces first List.mem_cons_self) (later.flatMap bytes)
    rw [List.flatMap_cons, hFirst] at hWhole
    cases hWhole
    refine ⟨later, rfl, rfl, ?_⟩
    rw [← List.drop_append_of_le_length hProgress.2, ← hBytes, List.flatMap_cons, List.drop_left]

theorem Step.sound (h : Step d bytes l l') (hSound : l.Sound d bytes) : l'.Sound d bytes := by
  obtain ⟨hPieces, ⟨pending, hAccepted, hBytes⟩, hFlushed, hUnsent⟩ := hSound
  cases h with
  | @accept m hDelivers =>
    refine ⟨?_, ⟨pending ++ [m], ?_, ?_⟩, ?_, ?_⟩
    · intro p hMem
      rcases List.mem_append.mp hMem with hOld | hNew
      · exact hPieces p hOld
      · obtain rfl := List.mem_singleton.mp hNew
        exact hDelivers
    · dsimp only
      rw [hAccepted, List.append_assoc]
    · dsimp only
      rw [List.flatMap_append, hBytes, List.flatMap_singleton, List.append_assoc _ l.unsent]
    · exact Nat.le_trans hFlushed (by rw [List.length_append]; exact Nat.le_add_right _ _)
    · dsimp only
      rw [List.drop_append_of_le_length hFlushed, List.flatMap_append, List.length_append,
        List.length_append, List.flatMap_singleton]
      exact Nat.add_le_add_right hUnsent _
  | write n =>
    refine ⟨hPieces, ⟨pending, hAccepted, ?_⟩, hFlushed, ?_⟩
    · dsimp only
      rw [hBytes, List.append_assoc, List.append_assoc, List.append_assoc, List.take_append_drop]
    · exact Nat.le_trans (by rw [List.length_drop]; exact Nat.sub_le _ _) hUnsent
  | read n =>
    refine ⟨hPieces, ⟨pending, hAccepted, ?_⟩, hFlushed, hUnsent⟩
    dsimp only
    rw [hBytes, List.append_assoc l.arrived (l.underway.take n), List.take_append_drop]
  | @deliver m n hDeliver =>
    rw [List.append_assoc] at hBytes
    have hPending (p : μ) (hMem : p ∈ pending) : d.Delivers (bytes p) p := by
      apply hPieces
      rw [hAccepted]
      exact List.mem_append_right _ hMem
    obtain ⟨later, rfl, _, hLater⟩ := deliver_front hPending hBytes hDeliver
    refine ⟨hPieces, ⟨later, ?_, ?_⟩, hFlushed, hUnsent⟩
    · dsimp only
      rw [hAccepted, List.append_assoc]
      rfl
    · dsimp only
      rw [hLater, List.append_assoc]
  | flush hEmpty =>
    refine ⟨hPieces, ⟨pending, hAccepted, hBytes⟩, Nat.le_refl _, ?_⟩
    dsimp only
    rw [hEmpty]
    exact Nat.zero_le _

namespace Sound
variable (h : l.Sound d bytes)
include h

theorem delivered_isPrefix : l.delivered <+: l.accepted := by
  obtain ⟨pending, hAccepted, _⟩ := h.conserved
  rw [hAccepted]
  exact List.prefix_append _ _

theorem pending_pieces {pending : List μ} (hAccepted : l.accepted = l.delivered ++ pending) :
    ∀ p ∈ pending, d.Delivers (bytes p) p := by
  intro p hMem
  apply h.pieces
  rw [hAccepted]
  exact List.mem_append_right _ hMem

theorem not_fail (hNil : d.verdict [] = .wait) (e : ε) : d.verdict l.arrived ≠ .fail e := by
  intro hFail
  obtain ⟨pending, hAccepted, hBytes⟩ := h.conserved
  have hWhole := d.fail_append hFail (l.underway ++ l.unsent)
  rw [← List.append_assoc, ← hBytes] at hWhole
  cases pending with
  | nil =>
    rw [List.flatMap_nil, hNil] at hWhole
    cases hWhole
  | cons first later =>
    have hFirst := d.deliver_append (h.pending_pieces hAccepted first List.mem_cons_self)
      (later.flatMap bytes)
    rw [List.flatMap_cons, hFirst] at hWhole
    cases hWhole

/-- A front on which the decoder waits is shorter than the first piece that is not delivered. -/
theorem front_lt {front : List α} (hFront : front <+: l.arrived) (hWait : d.verdict front = .wait)
    {first : μ} {later : List μ} (hAccepted : l.accepted = l.delivered ++ first :: later) :
    front.length < (bytes first).length := by
  by_contra hLong
  obtain ⟨pending, hSplit, hBytes⟩ := h.conserved
  obtain rfl : pending = first :: later := List.append_cancel_left (hSplit.symm.trans hAccepted)
  rw [List.append_assoc] at hBytes
  have hStream : front <+: (first :: later).flatMap bytes :=
    hFront.trans (hBytes ▸ List.prefix_append l.arrived _)
  have hPiece : bytes first <+: front := by
    apply List.prefix_of_prefix_length_le _ hStream (Nat.not_lt.mp hLong)
    rw [List.flatMap_cons]
    exact List.prefix_append _ _
  obtain ⟨rest, rfl⟩ := hPiece
  have hDeliver := d.deliver_append (h.pending_pieces hAccepted first List.mem_cons_self) rest
  rw [hWait] at hDeliver
  cases hDeliver

theorem arrived_nil (hAccepted : l.accepted = l.delivered) : l.arrived = [] := by
  obtain ⟨pending, hSplit, hBytes⟩ := h.conserved
  obtain rfl : pending = [] := by
    rw [hAccepted] at hSplit
    exact List.self_eq_append_right.mp hSplit
  rw [List.flatMap_nil] at hBytes
  exact (List.append_eq_nil_iff.mp (List.append_eq_nil_iff.mp hBytes.symm).1).1

/-- The first piece that is not delivered has left the buffer when it was flushed. -/
theorem first_written (hFlushed : l.delivered.length < l.flushed) :
    ∃ first later, l.accepted = l.delivered ++ first :: later ∧
      (bytes first).length ≤ l.arrived.length + l.underway.length := by
  obtain ⟨pending, hAccepted, hBytes⟩ := h.conserved
  have hCount := h.flushed_le
  cases pending with
  | nil =>
    rw [hAccepted, List.append_nil] at hCount
    omega
  | cons first later =>
    refine ⟨first, later, hAccepted, ?_⟩
    have hUnsent := h.unsent_le
    have hDrop : l.accepted.drop l.flushed = later.drop (l.flushed - (l.delivered.length + 1)) := by
      rw [hAccepted, List.drop_append, List.drop_eq_nil_of_le (Nat.le_of_lt hFlushed), List.nil_append,
        show l.flushed - l.delivered.length = l.flushed - (l.delivered.length + 1) + 1 by omega,
        List.drop_succ_cons]
    have hLater : ((later.drop (l.flushed - (l.delivered.length + 1))).flatMap bytes).length ≤
        (later.flatMap bytes).length := by
      conv_rhs => rw [← List.take_append_drop (l.flushed - (l.delivered.length + 1)) later]
      rw [List.flatMap_append, List.length_append]
      exact Nat.le_add_left _ _
    have hLength := congrArg List.length hBytes
    rw [List.flatMap_cons, List.length_append, List.length_append, List.length_append] at hLength
    rw [hDrop] at hUnsent
    omega

/-- When nothing is on the way and the decoder waits, the flushed pieces have been delivered. -/
theorem flushed_isPrefix (hWait : d.verdict l.arrived = .wait) (hUnderway : l.underway = []) :
    l.accepted.take l.flushed <+: l.delivered := by
  refine List.prefix_of_prefix_length_le (List.take_prefix _ _) h.delivered_isPrefix ?_
  rw [List.length_take, Nat.min_eq_left h.flushed_le]
  by_contra hMore
  obtain ⟨first, later, hAccepted, hWritten⟩ := h.first_written (Nat.not_le.mp hMore)
  have hShort := h.front_lt List.prefix_rfl hWait hAccepted
  rw [hUnderway, List.length_nil] at hWritten
  omega

end Sound
end Link
end Foundation.Incremental
