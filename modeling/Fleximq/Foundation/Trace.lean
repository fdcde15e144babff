import Mathlib.Data.List.Infix

/-! # Runs of a state machine

A run folds the steps over the events. What every step preserves holds at its
end, and what a step preserves exactly when it meets a condition holds in every
state of a run exactly when each of its steps meets it.
-/
namespace Foundation.Trace

variable {σ ε : Type} {step : σ → ε → σ}

def run (step : σ → ε → σ) (s : σ) (events : List ε) : σ := events.foldl step s

/-- The condition holds of every event of the run in the state before it. -/
def Along (step : σ → ε → σ) (ok : σ → ε → Prop) : σ → List ε → Prop
  | _, [] => True
  | s, event :: events => ok s event ∧ Along step ok (step s event) events

instance decidableAlong {ok : σ → ε → Prop} [∀ s event, Decidable (ok s event)] :
    (s : σ) → (events : List ε) → Decidable (Along step ok s events)
  | _, [] => .isTrue trivial
  | s, event :: events => @instDecidableAnd _ _ _ (decidableAlong (step s event) events)

theorem run_append (s : σ) (events events' : List ε) :
    run step s (events ++ events') = run step (run step s events) events' := List.foldl_append

theorem run_invariant {inv : σ → Prop} (hStep : ∀ s event, inv s → inv (step s event)) {s : σ}
    (hInit : inv s) (events : List ε) : inv (run step s events) := by
  induction events generalizing s with
  | nil => exact hInit
  | cons event events ih => exact ih (hStep s event hInit)

theorem run_invariant_of_forall {inv : σ → Prop} {ok : ε → Prop}
    (hStep : ∀ s event, inv s → ok event → inv (step s event)) {s : σ} (hInit : inv s) {events : List ε}
    (hOk : ∀ event ∈ events, ok event) : inv (run step s events) := by
  induction events generalizing s with
  | nil => exact hInit
  | cons event events ih =>
    exact ih (hStep s event hInit (hOk event List.mem_cons_self))
      fun later hLater => hOk later (List.mem_cons_of_mem event hLater)

/-- What does not hold before a run and holds after it begins to hold at one of its steps. -/
theorem exists_first_step {holds : σ → Prop} {s : σ} (hInit : ¬ holds s) {events : List ε}
    (h : holds (run step s events)) :
    ∃ before event after, events = before ++ event :: after ∧ ¬ holds (run step s before) ∧
      holds (step (run step s before) event) := by
  induction events generalizing s with
  | nil => exact absurd h hInit
  | cons event events ih =>
    by_cases hNext : holds (step s event)
    · exact ⟨[], event, events, rfl, hInit, hNext⟩
    · obtain ⟨before, later, after, rfl, hBefore, hLater⟩ := ih hNext h
      exact ⟨event :: before, later, after, rfl, hBefore, hLater⟩

theorem exists_last_step {holds : σ → Prop} {s : σ} (hInit : ¬ holds s) {events : List ε}
    (h : holds (run step s events)) :
    ∃ before event after, events = before ++ event :: after ∧ ¬ holds (run step s before) ∧
      ∀ part, part <+: after → holds (run step (step (run step s before) event) part) := by
  induction events using List.reverseRecOn with
  | nil => exact absurd h hInit
  | append_singleton events last ih =>
    by_cases hHeld : holds (run step s events)
    · obtain ⟨before, event, after, rfl, hBefore, hSince⟩ := ih hHeld
      refine ⟨before, event, after ++ [last], by simp, hBefore, ?_⟩
      intro part hPart
      rcases List.prefix_concat_iff.mp hPart with rfl | hShort
      · rw [List.append_assoc, List.cons_append, run_append] at h
        exact h
      · exact hSince part hShort
    · refine ⟨events, last, [], rfl, hHeld, ?_⟩
      intro part hPart
      obtain rfl := List.prefix_nil.mp hPart
      rw [run_append] at h
      exact h

theorem along_iff {inv : σ → Prop} {ok ok' : σ → ε → Prop}
    (hStep : ∀ s event, inv s → inv (step s event))
    (hSame : ∀ s event, inv s → (ok s event ↔ ok' s event)) {s : σ} (hInit : inv s) (events : List ε) :
    Along step ok s events ↔ Along step ok' s events := by
  induction events generalizing s with
  | nil => exact Iff.rfl
  | cons event events ih => exact and_congr (hSame s event hInit) (ih (hStep s event hInit))

theorem Along.ofPrefix {ok : σ → ε → Prop} {s : σ} {before events : List ε}
    (h : Along step ok s events) (hPrefix : before <+: events) : Along step ok s before := by
  induction before generalizing s events with
  | nil => trivial
  | cons event before ih =>
    obtain ⟨after, rfl⟩ := hPrefix
    exact ⟨h.1, ih h.2 (List.prefix_append before after)⟩

/-- What the steps that meet the condition preserve holds in every state of a run of such steps. -/
theorem Along.throughout {inv : σ → Prop} {ok : σ → ε → Prop}
    (hStep : ∀ s event, inv s → ok s event → inv (step s event)) {s : σ} (hInit : inv s)
    {events : List ε} (h : Along step ok s events) {before : List ε} (hBefore : before <+: events) :
    inv (run step s before) := by
  have hAlong := h.ofPrefix hBefore
  clear h hBefore
  induction before generalizing s with
  | nil => exact hInit
  | cons event before ih => exact ih (hStep s event hInit hAlong.1) hAlong.2

/-- What a step preserves exactly when it meets the condition holds in every state of a run exactly
when each of its steps does. -/
theorem throughout_iff_along {good : σ → Prop} {ok : σ → ε → Prop}
    (hStep : ∀ s event, good s → (good (step s event) ↔ ok s event)) {s : σ} (hInit : good s)
    (events : List ε) :
    (∀ before, before <+: events → good (run step s before)) ↔ Along step ok s events := by
  constructor
  · intro hGood
    induction events generalizing s with
    | nil => trivial
    | cons event events ih =>
      have hNext : good (step s event) := hGood [event] (List.prefix_append [event] events)
      refine ⟨(hStep s event hInit).mp hNext, ih hNext ?_⟩
      intro before hBefore
      exact hGood (event :: before) ((List.prefix_cons_inj event).mpr hBefore)
  · intro hAlong before hBefore
    exact hAlong.throughout (fun s event hBefore => (hStep s event hBefore).mpr) hInit hBefore

/-- When each step is the last or lowers the measure, a run is at its end or is no longer than what the
measure has gone down. -/
theorem Along.exhausts {inv done : σ → Prop} {ok : σ → ε → Prop} {measure : σ → Nat}
    (hStep : ∀ s event, inv s → ok s event →
      done (step s event) ∨ inv (step s event) ∧ measure (step s event) < measure s)
    (hDone : ∀ s event, done s → ok s event → done (step s event)) {s : σ} (hInit : inv s) {events : List ε}
    (h : Along step ok s events) :
    done (run step s events) ∨ inv (run step s events) ∧ events.length + measure (run step s events) ≤ measure s := by
  induction events generalizing s with
  | nil => exact .inr ⟨hInit, by rw [List.length_nil, Nat.zero_add]; exact Nat.le_refl _⟩
  | cons event events ih =>
    rcases hStep s event hInit h.1 with hLast | ⟨hNext, hLess⟩
    · exact .inl (h.2.throughout hDone hLast (List.prefix_refl events))
    · rcases ih hNext h.2 with hLast | ⟨hEnd, hLength⟩
      · exact .inl hLast
      · refine .inr ⟨hEnd, ?_⟩
        change events.length + 1 + measure (run step (step s event) events) ≤ measure s
        omega

theorem run_append_of_step {σ' ε' : Type} {step' : σ' → ε' → σ'} {init' : σ'} {abstract : σ → σ'} {s : σ} {event : ε}
    (hRun : ∃ events', abstract s = run step' init' events')
    (hStep : ∃ events', abstract (step s event) = run step' (abstract s) events') :
    ∃ events', abstract (step s event) = run step' init' events' := by
  obtain ⟨before, hBefore⟩ := hRun
  obtain ⟨more, hMore⟩ := hStep
  exact ⟨before ++ more, by rw [run_append, ← hBefore, hMore]⟩

end Foundation.Trace
