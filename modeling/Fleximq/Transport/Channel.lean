import Mathlib.Algebra.Group.Nat.Even
import Mathlib.Data.List.Nodup
import Fleximq.Foundation.Trace

/-! # Rendezvous on a channel name

`connect` first looks for a waiting endpoint of the name. When there is none, it
makes a duplex, stores one half and returns the other. The lookup and the storing
are each one step on the registry, and those of different calls interleave.
-/
namespace Fleximq.Transport
open Foundation

inductive Half where
  | a
  | b
  deriving DecidableEq, Repr

def Half.other : Half → Half
  | .a => .b
  | .b => .a

/-- A half of a duplex, which has the number of the call that made it. -/
structure Endpoint where
  duplex : Nat
  half : Half
  deriving DecidableEq, Repr

def Endpoint.other (e : Endpoint) : Endpoint := ⟨e.duplex, e.half.other⟩

theorem Endpoint.ne_other (e : Endpoint) : e ≠ e.other := by
  obtain ⟨duplex, half⟩ := e
  cases half <;> simp [Endpoint.other, Half.other]

/-- The registry entry of a name, the calls that have found nobody and not stored yet, and what the
completed calls have returned. -/
structure Channel where
  waiting : List Endpoint
  inProgress : List Nat
  returned : List (Nat × Endpoint)

inductive ChannelEvent where
  | lookup (call : Nat)
  | push (call : Nat)

namespace Channel

def init : Channel := ⟨[], [], []⟩

def Started (s : Channel) (call : Nat) : Prop := call ∈ s.inProgress ++ s.returned.map Prod.fst

instance (s : Channel) (call : Nat) : Decidable (s.Started call) :=
  inferInstanceAs (Decidable (call ∈ s.inProgress ++ s.returned.map Prod.fst))

/-- A lookup is the first step of a call, and a push is the second step of one that found nobody. -/
def step (s : Channel) : ChannelEvent → Channel
  | .lookup call =>
    if s.Started call then s
    else
      match s.waiting with
      | stream :: waiting => { s with waiting := waiting, returned := s.returned ++ [(call, stream)] }
      | [] => { s with inProgress := s.inProgress ++ [call] }
  | .push call =>
    if call ∈ s.inProgress then
      { waiting := s.waiting ++ [⟨call, .a⟩]
        inProgress := s.inProgress.erase call
        returned := s.returned ++ [(call, ⟨call, .b⟩)] }
    else s

/-- The two calls hold the two halves of one duplex. -/
def Connected (call call' : Nat × Endpoint) : Prop := call'.1 ≠ call.1 ∧ call'.2 = call.2.other

structure Paired (s : Channel) : Prop where
  waiting_le : s.inProgress = [] → s.waiting.length ≤ 1
  connected : s.inProgress = [] → ∀ call ∈ s.returned, call.2.other ∉ s.waiting →
    ∃! call', call' ∈ s.returned ∧ Connected call call'
  connected_all : Even s.returned.length →
    ∀ call ∈ s.returned, ∃! call', call' ∈ s.returned ∧ Connected call call'

/-- No call is between its two steps when another finds nobody waiting. -/
def Exclusive (s : Channel) : ChannelEvent → Prop
  | .lookup call => s.Started call ∨ s.waiting ≠ [] ∨ s.inProgress = []
  | .push _ => True

/-! ## What an event does -/

inductive Happens (s : Channel) : ChannelEvent → Channel → Prop where
  | pops {call stream waiting} :
    ¬ s.Started call → s.waiting = stream :: waiting →
    Happens s (.lookup call) { s with waiting := waiting, returned := s.returned ++ [(call, stream)] }
  | misses {call} :
    ¬ s.Started call → s.waiting = [] →
    Happens s (.lookup call) { s with inProgress := s.inProgress ++ [call] }
  | stores {call} :
    call ∈ s.inProgress →
    Happens s (.push call)
      { waiting := s.waiting ++ [⟨call, .a⟩]
        inProgress := s.inProgress.erase call
        returned := s.returned ++ [(call, ⟨call, .b⟩)] }

theorem step_cases (s : Channel) (event : ChannelEvent) :
    (s.step event = s ∧ (∀ call, event = .lookup call → s.Started call)) ∨ Happens s event (s.step event) := by
  cases event with
  | lookup call =>
    by_cases hStarted : s.Started call
    · refine .inl ⟨if_pos hStarted, ?_⟩
      rintro _ ⟨⟩
      exact hStarted
    · rw [step, if_neg hStarted]
      split
      next stream waiting hWaiting => exact .inr (.pops hStarted hWaiting)
      next hWaiting => exact .inr (.misses hStarted hWaiting)
  | push call =>
    rw [step]
    split
    next hMem => exact .inr (.stores hMem)
    next => exact .inl ⟨rfl, fun _ hEvent => nomatch hEvent⟩

/-! ## Every run -/

/-- The endpoints that exist. -/
def endpoints (s : Channel) : List Endpoint := s.waiting ++ s.returned.map Prod.snd

structure Consistent (s : Channel) : Prop where
  calls : (s.inProgress ++ s.returned.map Prod.fst).Nodup
  distinct : s.endpoints.Nodup
  halves : ∀ e ∈ s.endpoints, e.other ∈ s.endpoints
  made : ∀ e ∈ s.endpoints, e.duplex ∈ s.returned.map Prod.fst
  even : Even s.endpoints.length

theorem consistent_init : init.Consistent :=
  ⟨List.nodup_nil, List.nodup_nil, List.forall_mem_nil _, List.forall_mem_nil _, Even.zero⟩

theorem Consistent.of_perm {s s' : Channel} (h : s.Consistent) (hEndpoints : s'.endpoints.Perm s.endpoints)
    (hCalls : (s'.inProgress ++ s'.returned.map Prod.fst).Nodup)
    (hReturned : s.returned.map Prod.fst ⊆ s'.returned.map Prod.fst) : s'.Consistent where
  calls := hCalls
  distinct := hEndpoints.nodup_iff.mpr h.distinct
  halves e hMem := hEndpoints.mem_iff.mpr (h.halves e (hEndpoints.mem_iff.mp hMem))
  made e hMem := hReturned (h.made e (hEndpoints.mem_iff.mp hMem))
  even := hEndpoints.length_eq ▸ h.even

theorem Consistent.calls_append {s : Channel} (h : s.Consistent) {call : Nat} (hStarted : ¬ s.Started call) :
    (s.inProgress ++ s.returned.map Prod.fst ++ [call]).Nodup := by
  rw [List.nodup_append_comm, List.singleton_append]
  exact List.nodup_cons.mpr ⟨hStarted, h.calls⟩

/-- The endpoints of a call in progress do not exist yet. -/
theorem Consistent.fresh {s : Channel} (h : s.Consistent) {call : Nat} (hMem : call ∈ s.inProgress) (half : Half) :
    ⟨call, half⟩ ∉ s.endpoints := by
  intro hExists
  exact List.disjoint_of_nodup_append h.calls hMem (h.made _ hExists)

theorem Consistent.pops {s : Channel} (h : s.Consistent) {call : Nat} {stream : Endpoint}
    {waiting : List Endpoint} (hStarted : ¬ s.Started call) (hWaiting : s.waiting = stream :: waiting) :
    Consistent { s with waiting := waiting, returned := s.returned ++ [(call, stream)] } := by
  apply h.of_perm
  · rw [endpoints, endpoints, hWaiting, List.map_append, ← List.append_assoc]
    exact List.perm_append_singleton _ _
  · rw [List.map_append, ← List.append_assoc]
    exact h.calls_append hStarted
  · rw [List.map_append]
    exact List.subset_append_left _ _

theorem Consistent.misses {s : Channel} (h : s.Consistent) {call : Nat} (hStarted : ¬ s.Started call) :
    Consistent { s with inProgress := s.inProgress ++ [call] } := by
  refine h.of_perm (List.Perm.refl _) ?_ (List.Subset.refl _)
  have hMoved : (s.inProgress ++ [call] ++ s.returned.map Prod.fst).Perm
      (s.inProgress ++ s.returned.map Prod.fst ++ [call]) := by
    rw [List.append_assoc, List.append_assoc]
    exact List.perm_append_comm.append_left _
  exact hMoved.nodup_iff.mpr (h.calls_append hStarted)

theorem Consistent.stores {s : Channel} (h : s.Consistent) {call : Nat} (hMem : call ∈ s.inProgress) :
    Consistent
      { waiting := s.waiting ++ [⟨call, .a⟩]
        inProgress := s.inProgress.erase call
        returned := s.returned ++ [(call, ⟨call, .b⟩)] } := by
  have hEndpoints :
      (s.waiting ++ [Endpoint.mk call .a] ++ (s.returned ++ [(call, Endpoint.mk call .b)]).map Prod.snd).Perm
        (⟨call, .a⟩ :: ⟨call, .b⟩ :: s.endpoints) := by
    rw [List.map_append, ← List.append_assoc]
    refine (List.perm_append_singleton _ _).trans ?_
    refine (List.Perm.cons _ ?_).trans (List.Perm.swap _ _ _)
    rw [List.append_assoc]
    exact List.perm_middle
  have hCalls : (s.inProgress.erase call ++ (s.returned ++ [(call, Endpoint.mk call .b)]).map Prod.fst).Perm
      (s.inProgress ++ s.returned.map Prod.fst) := by
    rw [List.map_append, ← List.append_assoc]
    refine (List.perm_append_singleton _ _).trans ?_
    exact (List.perm_cons_erase hMem).symm.append_right _
  constructor
  · exact hCalls.nodup_iff.mpr h.calls
  · rw [endpoints, hEndpoints.nodup_iff]
    simp [h.fresh hMem, h.distinct]
  · intro e hExists
    rw [endpoints, hEndpoints.mem_iff] at hExists ⊢
    simp only [List.mem_cons] at hExists ⊢
    rcases hExists with rfl | rfl | hOld
    · exact .inr (.inl rfl)
    · exact .inl rfl
    · exact .inr (.inr (h.halves e hOld))
  · intro e hExists
    rw [endpoints, hEndpoints.mem_iff] at hExists
    simp only [List.mem_cons] at hExists
    rw [List.map_append, List.mem_append]
    rcases hExists with rfl | rfl | hOld
    · exact .inr (List.mem_singleton.mpr rfl)
    · exact .inr (List.mem_singleton.mpr rfl)
    · exact .inl (h.made e hOld)
  · rw [endpoints, hEndpoints.length_eq]
    exact h.even.add (by decide : Even 2)

theorem Consistent.happens {s s' : Channel} {event : ChannelEvent} (h : s.Consistent)
    (hEvent : Happens s event s') : s'.Consistent := by
  cases hEvent with
  | pops hStarted hWaiting => exact h.pops hStarted hWaiting
  | misses hStarted _ => exact h.misses hStarted
  | stores hMem => exact h.stores hMem

theorem consistent_step (s : Channel) (event : ChannelEvent) (h : s.Consistent) : (s.step event).Consistent := by
  rcases s.step_cases event with ⟨hSame, -⟩ | hHappens
  · rw [hSame]
    exact h
  · exact h.happens hHappens

/-- Every returned half is returned together with the other one, or that one still waits. -/
theorem Consistent.connected {s : Channel} (h : s.Consistent) {call : Nat × Endpoint} (hCall : call ∈ s.returned)
    (hOther : call.2.other ∉ s.waiting) : ∃! call', call' ∈ s.returned ∧ Connected call call' := by
  have hExists := h.halves call.2 (List.mem_append_right _ (List.mem_map_of_mem hCall))
  obtain ⟨call', hCall', hHalf⟩ := List.mem_map.mp ((List.mem_append.mp hExists).resolve_left hOther)
  have hEndpoints := (List.nodup_append.mp h.distinct).2.1
  have hCalls := (List.nodup_append.mp h.calls).2.1
  refine ⟨call', ⟨hCall', ?_, hHalf⟩, ?_⟩
  · intro hSame
    rw [List.inj_on_of_nodup_map hCalls hCall' hCall hSame] at hHalf
    exact call.2.ne_other hHalf
  · rintro other ⟨hMem, -, hEq⟩
    exact List.inj_on_of_nodup_map hEndpoints hMem hCall' (hEq.trans hHalf.symm)

theorem Consistent.paired {s : Channel} (h : s.Consistent) (hWaiting : s.waiting.length ≤ 1) : s.Paired := by
  refine ⟨fun _ => hWaiting, fun _ call hCall hOther => h.connected hCall hOther, ?_⟩
  intro hEven call hCall
  have hNone : s.waiting = [] := by
    have hAll := h.even
    rw [endpoints, List.length_append, List.length_map, Nat.even_add] at hAll
    have hTwo := Nat.even_iff.mp (hAll.mpr hEven)
    apply List.length_eq_zero_iff.mp
    omega
  exact h.connected hCall (by rw [hNone]; exact List.not_mem_nil)

/-! ## One call after the other -/

/-- At most one endpoint waits, or will when the calls in progress have stored theirs. -/
def Alone (s : Channel) : Prop := s.waiting.length + s.inProgress.length ≤ 1

theorem alone_init : init.Alone := Nat.zero_le 1

theorem alone_step (s : Channel) (event : ChannelEvent) (h : s.Alone) :
    (s.step event).Alone ↔ s.Exclusive event := by
  rcases s.step_cases event with ⟨hSame, hStarted⟩ | hHappens
  · rw [hSame]
    refine iff_of_true h ?_
    cases event with
    | lookup call => exact .inl (hStarted call rfl)
    | push call => trivial
  · generalize s.step event = next at hHappens
    cases hHappens with
    | pops hStarted hWaiting =>
      have hSome : s.waiting ≠ [] := by
        rw [hWaiting]
        exact List.cons_ne_nil _ _
      refine iff_of_true ?_ (.inr (.inl hSome))
      rw [Alone, hWaiting, List.length_cons] at h
      rw [Alone]
      dsimp only
      omega
    | misses hStarted hWaiting =>
      rw [Alone, Exclusive, hWaiting, List.length_append, List.length_singleton, ← List.length_eq_zero_iff]
      simp [hStarted]
    | stores hMem =>
      refine iff_of_true ?_ trivial
      have hErased := List.length_erase_of_mem hMem
      have hSome := List.length_pos_of_mem hMem
      rw [Alone] at h ⊢
      simp only [List.length_append, List.length_singleton, hErased]
      omega

theorem alone_run_iff (events : List ChannelEvent) :
    (∀ before, before <+: events → (Trace.run step init before).Alone) ↔
      Trace.Along step Exclusive init events :=
  Trace.throughout_iff_along alone_step alone_init events

theorem push_head {s : Channel} {call : Nat} {rest : List Nat} (h : s.inProgress = call :: rest) :
    (s.step (.push call)).inProgress = rest ∧ (s.step (.push call)).waiting.length = s.waiting.length + 1 := by
  rw [step, if_pos (by rw [h]; exact List.mem_cons_self)]
  exact ⟨by rw [h, List.erase_cons_head], by rw [List.length_append, List.length_singleton]⟩

/-- The calls in progress store their endpoints, one after the other. -/
theorem run_push_inProgress (s : Channel) :
    (Trace.run step s (s.inProgress.map .push)).inProgress = [] ∧
      (Trace.run step s (s.inProgress.map .push)).waiting.length = s.waiting.length + s.inProgress.length := by
  induction hCalls : s.inProgress generalizing s with
  | nil => exact ⟨hCalls, rfl⟩
  | cons call rest ih =>
    obtain ⟨hRest, hWaiting⟩ := push_head hCalls
    obtain ⟨hDone, hLength⟩ := ih (s.step (.push call)) hRest
    refine ⟨hDone, hLength.trans ?_⟩
    rw [hWaiting, List.length_cons]
    omega

theorem alone_push {s : Channel} (h : s.Alone) (calls : List Nat) :
    (Trace.run step s (calls.map .push)).Alone := by
  have hAlong : Trace.Along step Exclusive s (calls.map .push) := by
    induction calls generalizing s with
    | nil => trivial
    | cons call calls ih => exact ⟨trivial, ih ((alone_step s (.push call) h).mpr trivial)⟩
  exact hAlong.throughout (fun s event hAlone => (alone_step s event hAlone).mpr) h (List.prefix_refl _)

theorem consistent_run (events : List ChannelEvent) : (Trace.run step init events).Consistent :=
  Trace.run_invariant consistent_step consistent_init events

/-- The endpoints are paired throughout a run, and when the calls in progress are left to finish,
exactly when no call of the run finds nobody while another is between its steps. -/
theorem pairedThroughout_iff (events : List ChannelEvent) :
    (∀ (before : List ChannelEvent) (calls : List Nat), before <+: events →
      (Trace.run step init (before ++ calls.map .push)).Paired) ↔
      Trace.Along step Exclusive init events := by
  rw [← alone_run_iff]
  constructor
  · intro hPaired before hBefore
    obtain ⟨hDone, hLength⟩ := run_push_inProgress (Trace.run step init before)
    have hFinished := hPaired before (Trace.run step init before).inProgress hBefore
    rw [Trace.run_append] at hFinished
    have hWaiting := hFinished.waiting_le hDone
    rw [hLength] at hWaiting
    exact hWaiting
  · intro hAlone before calls hBefore
    have hFinished := alone_push (hAlone before hBefore) calls
    rw [← Trace.run_append] at hFinished
    exact (consistent_run _).paired (Nat.le_trans (Nat.le_add_right _ _) hFinished)

/-- Two calls that both look before either stores: two endpoints wait, and nobody is connected. -/
theorem not_paired_concurrent :
    (Trace.run step init [.lookup 0, .lookup 1, .push 0, .push 1]).inProgress = [] ∧
      (Trace.run step init [.lookup 0, .lookup 1, .push 0, .push 1]).returned.length = 2 ∧
      ¬ (Trace.run step init [.lookup 0, .lookup 1, .push 0, .push 1]).Paired :=
  ⟨by decide, by decide, fun h => absurd (h.waiting_le (by decide)) (by decide)⟩

end Channel
end Fleximq.Transport
