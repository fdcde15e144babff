/-! # Words

The words of a text are its maximal runs without a separator. Which words a text
has is told by how it is spelt: any number of separators stand around the words,
and at least one stands between two of them.
-/
namespace Foundation

variable {α : Type} {sep : α → Bool}

/-- `str::split_whitespace`, for any notion of a separator. -/
def words (sep : α → Bool) (text : List α) : List (List α) := (text.splitOnP sep).filter (!·.isEmpty)

structure IsWord (sep : α → Bool) (word : List α) : Prop where
  ne_nil : word ≠ []
  unbroken : ∀ c ∈ word, sep c = false

inductive Spells (sep : α → Bool) : List (List α) → List α → Prop where
  | nil : Spells sep [] []
  | gap {ws text c} (hSep : sep c = true) (hText : Spells sep ws text) : Spells sep ws (c :: text)
  | last {word} (hWord : IsWord sep word) : Spells sep [word] word
  | word {word ws text c} (hWord : IsWord sep word) (hSep : sep c = true) (hText : Spells sep ws text) :
    Spells sep (word :: ws) (word ++ c :: text)

/-! ## The split -/

theorem IsWord.isEmpty {word : List α} (h : IsWord sep word) : word.isEmpty = false :=
  List.isEmpty_eq_false_iff.mpr h.ne_nil

@[simp] theorem words_nil : words sep [] = [] := by simp [words]

theorem words_gap {c : α} (hSep : sep c = true) (text : List α) : words sep (c :: text) = words sep text := by
  simp [words, List.splitOnP_cons_eq_if_modifyHead, hSep]

theorem words_last {word : List α} (hWord : IsWord sep word) : words sep word = [word] := by
  simp [words, List.splitOnP_eq_singleton hWord.unbroken, hWord.isEmpty]

theorem words_word {word : List α} (hWord : IsWord sep word) {c : α} (hSep : sep c = true) (text : List α) :
    words sep (word ++ c :: text) = word :: words sep text := by
  simp [words, List.splitOnP_append_cons_of_forall_mem hWord.unbroken c hSep, hWord.isEmpty]

theorem Spells.words_eq {ws : List (List α)} {text : List α} (h : Spells sep ws text) : words sep text = ws := by
  induction h with
  | nil => exact words_nil
  | gap hSep _ ih => rw [words_gap hSep, ih]
  | last hWord => exact words_last hWord
  | word hWord hSep _ ih => rw [words_word hWord hSep, ih]

/-! ## The spelling -/

theorem isWord_singleton {c : α} (h : sep c = false) : IsWord sep [c] :=
  ⟨List.cons_ne_nil c [], by simpa using h⟩

theorem IsWord.cons {c : α} (h : sep c = false) {word : List α} (hWord : IsWord sep word) :
    IsWord sep (c :: word) :=
  ⟨List.cons_ne_nil c word, by simpa [h] using hWord.unbroken⟩

/-- A character in front of a text starts a word or belongs to its first one. -/
theorem Spells.exists_cons {c : α} (h : sep c = false) {ws : List (List α)} {text : List α}
    (hText : Spells sep ws text) : ∃ ws', Spells sep ws' (c :: text) := by
  cases hText with
  | nil => exact ⟨_, .last (isWord_singleton h)⟩
  | gap hSep hText => exact ⟨_, .word (isWord_singleton h) hSep hText⟩
  | last hWord => exact ⟨_, .last (hWord.cons h)⟩
  | word hWord hSep hText => exact ⟨_, .word (hWord.cons h) hSep hText⟩

theorem exists_spells (text : List α) : ∃ ws, Spells sep ws text := by
  induction text with
  | nil => exact ⟨[], .nil⟩
  | cons c text ih =>
    obtain ⟨ws, hText⟩ := ih
    cases hSep : sep c with
    | true => exact ⟨ws, .gap hSep hText⟩
    | false => exact hText.exists_cons hSep

theorem words_eq_iff {ws : List (List α)} {text : List α} : words sep text = ws ↔ Spells sep ws text := by
  constructor
  · rintro rfl
    obtain ⟨ws, hText⟩ := @exists_spells _ sep text
    rw [hText.words_eq]
    exact hText
  · exact Spells.words_eq

theorem Spells.isWord {ws : List (List α)} {text : List α} (h : Spells sep ws text) :
    ∀ word ∈ ws, IsWord sep word := by
  induction h with
  | nil => simp
  | gap _ _ ih => exact ih
  | last hWord => simpa using hWord
  | word hWord _ _ ih => simpa [hWord] using ih

/-- The words of a list joined by a separator are the list exactly when each of them is a word. -/
theorem words_intercalate_iff {c : α} (hSep : sep c = true) {ws : List (List α)} :
    words sep ([c].intercalate ws) = ws ↔ ∀ word ∈ ws, IsWord sep word := by
  constructor
  · intro h
    exact (words_eq_iff.mp h).isWord
  · intro h
    induction ws with
    | nil => exact words_nil
    | cons word ws ih =>
      obtain ⟨hWord, hWords⟩ := List.forall_mem_cons.mp h
      cases ws with
      | nil =>
        rw [List.intercalate_singleton]
        exact words_last hWord
      | cons word' ws =>
        rw [List.intercalate_cons_cons, List.append_assoc, List.singleton_append, words_word hWord hSep, ih hWords]

end Foundation
