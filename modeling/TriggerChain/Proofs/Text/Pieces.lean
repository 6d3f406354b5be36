import Mathlib.Data.List.DropRight
import TriggerChain.Text.Lines

/-!
# Lines and words as pieces of a text

The lines of a text are the pieces between its newlines, and the words of a line are the pieces
between its blanks that are not empty. A line without the blanks at its ends begins with its first
word, and is empty if there is none.

Main statements: `lines_eq_linesBetween`, `words_eq_wordsBetween` and `head?_wordsBetween`.
-/

namespace TriggerChain.Text

/-! ## Lines -/

/-- A line without the carriage return at its end, if there is one. -/
def withoutReturn (l : List Char) : List Char := if l.getLast? = some '\r' then l.dropLast else l

/-- The pieces between the newlines of a text. Each newline closes the piece before it, and takes a
    carriage return with it; what is behind the last newline is a line if it is not empty. -/
def linesBetween (cs : List Char) : List (List Char) :=
  let pieces := cs.splitOn '\n'
  pieces.dropLast.map withoutReturn ++ (pieces.getLast?.toList).filter fun l => !l.isEmpty

theorem reverse_dropReturn (cs : List Char) :
    (dropReturn cs).reverse = withoutReturn cs.reverse := by
  unfold withoutReturn
  rw [List.getLast?_reverse, List.dropLast_reverse]
  cases cs with
  | nil => rfl
  | cons c cs =>
    by_cases hc : c = '\r'
    · subst hc
      rfl
    · rw [if_neg (by simpa using hc)]
      unfold dropReturn
      split
      · rename_i heq
        exact absurd (List.cons.inj heq).1 hc
      · rfl

/-- What is before the first newline is a line. -/
theorem linesBetween_append_newline {l : List Char} (h : '\n' ∉ l) (rest : List Char) :
    linesBetween (l ++ '\n' :: rest) = withoutReturn l :: linesBetween rest := by
  have hrest := List.splitOn_ne_nil '\n' rest
  unfold linesBetween
  rw [List.splitOn_append_cons_self_of_not_mem h]
  simp [List.dropLast_cons_of_ne_nil hrest, List.getLast?_cons, List.getLast?_eq_some_getLast hrest]

theorem linesBetween_of_notMem {l : List Char} (h : '\n' ∉ l) :
    linesBetween l = if l.isEmpty then [] else [l] := by
  unfold linesBetween
  rw [List.splitOn_eq_singleton h]
  cases l <;> rfl

theorem lines_eq_linesBetween (cs : List Char) : lines cs = linesBetween cs := by
  have hfrom : ∀ (begun : List Char) (before : List (List Char)), '\n' ∉ begun →
      linesFrom begun before cs = before.reverse ++ linesBetween (begun.reverse ++ cs) := by
    induction cs with
    | nil =>
      intro begun before hbegun
      rw [List.append_nil, linesBetween_of_notMem (mt List.mem_reverse.1 hbegun),
        List.isEmpty_reverse, linesFrom]
      split <;> simp
    | cons c cs ih =>
      intro begun before hbegun
      rw [linesFrom]
      by_cases hc : c = '\n'
      · rw [if_pos hc, ih _ _ List.not_mem_nil, hc,
          linesBetween_append_newline (mt List.mem_reverse.1 hbegun), reverse_dropReturn]
        simp
      · have hnext : '\n' ∉ c :: begun := by simp [Ne.symm hc, hbegun]
        rw [if_neg hc, ih _ _ hnext]
        simp
  exact hfrom [] [] List.not_mem_nil

/-! ## Words -/

/-- The pieces between the blanks of a line, without the empty ones. -/
def wordsBetween (cs : List Char) : List (List Char) :=
  (cs.splitOnP isBlank).filter fun w => !w.isEmpty

theorem wordsBetween_append_blank {w : List Char} (hw : ∀ c ∈ w, isBlank c = false) {c : Char}
    (hc : isBlank c = true) (rest : List Char) :
    wordsBetween (w ++ c :: rest) = (if w.isEmpty then [] else [w]) ++ wordsBetween rest := by
  unfold wordsBetween
  rw [List.splitOnP_append_cons_of_forall_mem hw c hc]
  cases w <;> simp

theorem wordsBetween_of_visible {w : List Char} (hw : ∀ c ∈ w, isBlank c = false) :
    wordsBetween w = if w.isEmpty then [] else [w] := by
  unfold wordsBetween
  rw [List.splitOnP_eq_singleton hw]
  cases w <;> rfl

theorem words_eq_wordsBetween (cs : List Char) : words cs = wordsBetween cs := by
  have hfrom : ∀ (begun : List Char) (before : List (List Char)),
      (∀ c ∈ begun, isBlank c = false) →
      wordsFrom begun before cs = before.reverse ++ wordsBetween (begun.reverse ++ cs) := by
    induction cs with
    | nil =>
      intro begun before hbegun
      rw [List.append_nil, wordsBetween_of_visible (by simpa using hbegun), List.isEmpty_reverse,
        wordsFrom, closeWord]
      split <;> simp
    | cons c cs ih =>
      intro begun before hbegun
      rw [wordsFrom]
      by_cases hc : isBlank c = true
      · rw [if_pos hc, ih _ _ (List.forall_mem_nil _),
          wordsBetween_append_blank (by simpa using hbegun) hc, List.isEmpty_reverse, closeWord]
        split <;> simp
      · have hnext : ∀ c' ∈ c :: begun, isBlank c' = false :=
          List.forall_mem_cons.2 ⟨Bool.eq_false_iff.2 hc, hbegun⟩
        rw [if_neg hc, ih _ _ hnext]
        simp
  exact hfrom [] [] (List.forall_mem_nil _)

/-! ## The ends of a line -/

/-- A line without the blanks at its ends. -/
def trimmed (cs : List Char) : List Char := (cs.dropWhile isBlank).rdropWhile isBlank

/-- A line without the blanks at its ends begins as its first word does. -/
theorem head?_wordsBetween (cs : List Char) :
    (wordsBetween cs).head?.bind List.head? = (trimmed cs).head? := by
  induction cs with
  | nil => rfl
  | cons c cs ih =>
    by_cases hc : isBlank c = true
    · have hwords : wordsBetween (c :: cs) = wordsBetween cs :=
        wordsBetween_append_blank (List.forall_mem_nil _) hc cs
      have htrim : trimmed (c :: cs) = trimmed cs := by
        unfold trimmed
        rw [List.dropWhile_cons_of_pos hc]
      rw [hwords, htrim, ih]
    · have hfirst : (wordsBetween (c :: cs)).head?.bind List.head? = some c := by
        unfold wordsBetween
        rw [List.splitOnP_cons_eq_if_modifyHead, if_neg hc]
        cases hpieces : cs.splitOnP isBlank with
        | nil => exact absurd hpieces (List.splitOnP_ne_nil _ _)
        | cons piece pieces => simp
      have hne : (c :: cs).rdropWhile isBlank ≠ [] := by
        intro hnil
        exact hc (List.rdropWhile_eq_nil_iff.1 hnil c List.mem_cons_self)
      rw [hfirst, trimmed, List.dropWhile_cons_of_neg hc]
      obtain ⟨d, ds, hds⟩ := List.exists_cons_of_ne_nil hne
      obtain ⟨tail, htail⟩ := List.rdropWhile_prefix isBlank (c :: cs)
      rw [hds] at htail ⊢
      exact congrArg some (List.cons.inj htail).1.symm

end TriggerChain.Text
