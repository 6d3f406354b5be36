import TriggerChain.Proofs.Text.Pieces

/-!
# Lines and words that are put together

Lines that end with a newline each, and words with a space between them, are cut where they were
put together.

Main statements: `lines_flatMap_newline` and `words_intercalate`.
-/

namespace TriggerChain.Text

/-! ## Lines -/

theorem withoutReturn_of_notMem {l : List Char} (h : '\r' ∉ l) : withoutReturn l = l :=
  if_neg fun hlast => h (List.mem_of_getLast? hlast)

/-- Lines that are written one after the other are read one after the other. -/
theorem lines_flatMap_newline {ls : List (List Char)} (h : ∀ l ∈ ls, '\n' ∉ l ∧ '\r' ∉ l) :
    lines (ls.flatMap fun l => l ++ ['\n']) = ls := by
  rw [lines_eq_linesBetween]
  induction ls with
  | nil => rfl
  | cons l ls ih =>
    obtain ⟨hnewline, hreturn⟩ := h l List.mem_cons_self
    rw [List.flatMap_cons, List.append_assoc, List.singleton_append,
      linesBetween_append_newline hnewline, withoutReturn_of_notMem hreturn,
      ih fun l' hl' => h l' (List.mem_cons_of_mem l hl')]

/-! ## Words -/

/-- A word that can be told from its neighbours: it has characters, and none of them is a blank. -/
structure IsWord (w : List Char) : Prop where
  ne_nil : w ≠ []
  visible : ∀ c ∈ w, isBlank c = false

/-- Words with a space between them are cut where they were put together. -/
theorem words_intercalate {ws : List (List Char)} (h : ∀ w ∈ ws, IsWord w) :
    words ([' '].intercalate ws) = ws := by
  rw [words_eq_wordsBetween]
  induction ws with
  | nil => rfl
  | cons w ws ih =>
    have hw := h w List.mem_cons_self
    have hne : ¬w.isEmpty = true := mt List.isEmpty_iff.1 hw.ne_nil
    cases ws with
    | nil => rw [List.intercalate_singleton, wordsBetween_of_visible hw.visible, if_neg hne]
    | cons v ws =>
      rw [List.intercalate_cons_cons, List.append_assoc, List.singleton_append,
        wordsBetween_append_blank hw.visible (by decide), if_neg hne, List.singleton_append,
        ih fun w' hw' => h w' (List.mem_cons_of_mem w hw')]

/-- What stands in words with a separator between them. -/
theorem eq_or_mem_of_mem_intercalate {separator : Char} {ws : List (List Char)} {c : Char}
    (h : c ∈ [separator].intercalate ws) : c = separator ∨ ∃ w ∈ ws, c ∈ w := by
  induction ws with
  | nil => exact absurd h List.not_mem_nil
  | cons w ws ih =>
    cases ws with
    | nil =>
      rw [List.intercalate_singleton] at h
      exact .inr ⟨w, List.mem_cons_self, h⟩
    | cons v ws =>
      rw [List.intercalate_cons_cons, List.append_assoc, List.mem_append, List.mem_append] at h
      rcases h with h | h | h
      · exact .inr ⟨w, List.mem_cons_self, h⟩
      · exact .inl (List.mem_singleton.1 h)
      · rcases ih h with hseparator | ⟨u, hu, hc⟩
        · exact .inl hseparator
        · exact .inr ⟨u, List.mem_cons_of_mem w hu, hc⟩

/-- A blank that is not the space does not occur in words with a space between them. -/
theorem notMem_intercalate {ws : List (List Char)} (h : ∀ w ∈ ws, IsWord w) {c : Char}
    (hblank : isBlank c = true) (hc : c ≠ ' ') : c ∉ [' '].intercalate ws := by
  intro hmem
  rcases eq_or_mem_of_mem_intercalate hmem with hspace | ⟨w, hw, hcw⟩
  · exact hc hspace
  · exact Bool.false_ne_true (((h w hw).visible c hcw).symm.trans hblank)

end TriggerChain.Text
