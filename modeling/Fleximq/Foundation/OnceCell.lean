/-! # Cells that are filled once

A cell keeps the value of a fallible computation that has succeeded. A cell that
holds nothing else answers like the computation itself. In a cell for values of
any type a value is found under its own type only.
-/
namespace Foundation.OnceCell

section
variable {ε α : Type}

/-- The cell afterwards and the result; an initializer that panics is `none`. -/
def getOrTryInit (init : Option (Except ε α)) : Option α → Option α × Option (Except ε α)
  | some a => (some a, some (.ok a))
  | none =>
    match init with
    | some (.ok a) => (some a, some (.ok a))
    | result => (none, result)

/-- `set`, which leaves a full cell as it is. -/
def set (a : α) (cell : Option α) : Option α := cell.or (some a)

theorem set_none (a : α) : set a none = some a := rfl

theorem set_some (a b : α) : set a (some b) = some b := rfl

def Holds (init : Option (Except ε α)) (cell : Option α) : Prop :=
  ∀ a, cell = some a → init = some (.ok a)

theorem holds_none (init : Option (Except ε α)) : Holds init none := by
  intro a h
  cases h

variable {init : Option (Except ε α)} {cell : Option α}

theorem getOrTryInit_result (h : Holds init cell) : (getOrTryInit init cell).2 = init := by
  cases cell with
  | some a => exact (h a rfl).symm
  | none => rcases init with _ | _ | a <;> rfl

theorem getOrTryInit_holds (h : Holds init cell) : Holds init (getOrTryInit init cell).1 := by
  cases cell with
  | some a => exact h
  | none =>
    rcases init with _ | _ | a
    · exact holds_none _
    · exact holds_none _
    · rintro a ⟨⟩
      rfl

end

section
variable {κ : Type} [DecidableEq κ] {Val : κ → Type}

def downcast (k : κ) (item : Σ k, Val k) : Option (Val k) :=
  if h : item.1 = k then some (h ▸ item.2) else none

theorem downcast_same (k : κ) (v : Val k) : downcast k ⟨k, v⟩ = some v := dif_pos rfl

theorem downcast_other {k other : κ} (h : other ≠ k) (v : Val other) : downcast k ⟨other, v⟩ = none :=
  dif_neg h

end

end Foundation.OnceCell
