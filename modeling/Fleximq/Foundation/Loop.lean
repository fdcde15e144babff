/-! # Loops

A loop body continues in a state or breaks with a result. A loop is run for a
number of iterations; a result does not depend on how many more were allowed.
-/
namespace Foundation.Loop

inductive Flow (σ ρ : Type) where
  | next (s : σ)
  | done (result : ρ)

variable {σ ρ : Type} {step : σ → Flow σ ρ}

/-- The result of at most `fuel` iterations; `none` when the loop is still running. -/
def run (step : σ → Flow σ ρ) : Nat → σ → Option ρ
  | 0, _ => none
  | fuel + 1, s =>
    match step s with
    | .next s' => run step fuel s'
    | .done result => some result

theorem run_next {s s' : σ} (h : step s = .next s') (fuel : Nat) :
    run step (fuel + 1) s = run step fuel s' := by
  rw [run, h]

theorem run_done {s : σ} {result : ρ} (h : step s = .done result) (fuel : Nat) :
    run step (fuel + 1) s = some result := by
  rw [run, h]

theorem run_count {step : Nat → Flow Nat ρ} {first last : Nat} {result : ρ}
    (hNext : ∀ i, first ≤ i → i < last → step i = .next (i + 1)) (hDone : step last = .done result)
    (hOrder : first ≤ last) {fuel : Nat} (hFuel : last - first < fuel) :
    run step fuel first = some result := by
  induction fuel generalizing first with
  | zero => omega
  | succ fuel ih =>
    rcases Nat.eq_or_lt_of_le hOrder with rfl | hLess
    · exact run_done hDone fuel
    · rw [run_next (hNext first (Nat.le_refl first) hLess)]
      apply ih
      · intro i hFirst hLast
        exact hNext i (Nat.le_of_succ_le hFirst) hLast
      · exact hLess
      · omega

/-- A function that unfolds as the loop does is what the loop computes. -/
theorem eq_of_run {f : σ → ρ} (hNext : ∀ s s', step s = .next s' → f s = f s')
    (hDone : ∀ s result, step s = .done result → f s = result) {fuel : Nat} {s : σ} {result : ρ}
    (h : run step fuel s = some result) : f s = result := by
  induction fuel generalizing s with
  | zero => cases h
  | succ fuel ih =>
    cases hStep : step s with
    | done result' =>
      rw [run_done hStep] at h
      cases h
      exact hDone s result hStep
    | next s' =>
      rw [run_next hStep] at h
      exact (hNext s s' hStep).trans (ih h)

/-- A loop that uses up `cost` of its measure in every iteration but the last breaks. -/
theorem exists_run {size : σ → Nat} {cost : Nat}
    (hStep : ∀ s s', step s = .next s' → size s' + cost ≤ size s) {fuel : Nat} {s : σ}
    (hFuel : size s < fuel * cost) : ∃ result, run step fuel s = some result := by
  induction fuel generalizing s with
  | zero =>
    rw [Nat.zero_mul] at hFuel
    exact absurd hFuel (Nat.not_lt_zero _)
  | succ fuel ih =>
    cases hNext : step s with
    | done result => exact ⟨result, run_done hNext fuel⟩
    | next s' =>
      have hUsed := hStep s s' hNext
      rw [Nat.succ_mul] at hFuel
      rw [run_next hNext]
      exact ih (by omega)

/-! ## Counting loops -/

theorem exists_of_run {step : Nat → Flow Nat ρ} (hCount : ∀ i j, step i = .next j → j = i + 1)
    {first fuel : Nat} {result : ρ} (h : run step fuel first = some result) :
    ∃ last, first ≤ last ∧ (∀ i, first ≤ i → i < last → step i = .next (i + 1)) ∧
      step last = .done result := by
  induction fuel generalizing first with
  | zero => cases h
  | succ fuel ih =>
    cases hStep : step first with
    | done result' =>
      rw [run_done hStep] at h
      cases h
      exact ⟨first, Nat.le_refl first, fun i hFirst hLast => by omega, hStep⟩
    | next s =>
      obtain rfl := hCount first s hStep
      rw [run_next hStep] at h
      obtain ⟨last, hOrder, hBefore, hDone⟩ := ih h
      refine ⟨last, Nat.le_of_succ_le hOrder, ?_, hDone⟩
      intro i hFirst hLast
      rcases Nat.eq_or_lt_of_le hFirst with rfl | hLess
      · exact hStep
      · exact hBefore i hLess hLast

theorem run_endless {step : Nat → Flow Nat ρ} (h : ∀ i, step i = .next (i + 1)) (fuel first : Nat) :
    run step fuel first = none := by
  induction fuel generalizing first with
  | zero => rfl
  | succ fuel ih =>
    rw [run_next (h first)]
    exact ih (first + 1)

theorem last_unique {step : Nat → Flow Nat ρ} {last last' : Nat} {result result' : ρ}
    (hBefore : ∀ i < last, step i = .next (i + 1)) (hDone : step last = .done result)
    (hBefore' : ∀ i < last', step i = .next (i + 1)) (hDone' : step last' = .done result') :
    last = last' := by
  rcases Nat.lt_trichotomy last last' with hLess | hSame | hLess
  · rw [hBefore' last hLess] at hDone
    cases hDone
  · exact hSame
  · rw [hBefore last' hLess] at hDone'
    cases hDone'

end Foundation.Loop
