import TriggerChain.Proofs.Text.Lines
import TriggerChain.Text.Numeral

/-!
# Fields of a row

A numeral is made of digits and perhaps a minus, so any other character can stand between two of
them. Fields without a comma and a newline can be put together to a row, and rows to a text, and are
cut where they were put together.

Main statements: `splitOn_flatMap_newline` and `isField_ofInt`.
-/

namespace TriggerChain.Text

/-! ## Numerals -/

/-- Nothing but digits stands in a natural number. -/
theorem notMem_natural {c : Char} (hc : c.isDigit = false) (n : Nat) : c ∉ natural n := by
  have hdigit : ∀ d : Fin 10, (digitChar d).isDigit = true := by decide
  intro h
  obtain ⟨d, hd, rfl⟩ := mem_natural h
  exact Bool.false_ne_true (hc.symm.trans (hdigit ⟨d, hd⟩))

/-- Nothing but digits and a minus stands in an integer. -/
theorem notMem_integer {c : Char} (hc : c.isDigit = false) (hminus : c ≠ '-') (i : Int) :
    c ∉ integer i := by
  unfold integer
  split
  · exact List.not_mem_cons_of_ne_of_not_mem hminus (notMem_natural hc _)
  · exact notMem_natural hc _

/-! ## Fields -/

/-- A text can be a field of a row: it has no comma and no newline. -/
structure IsField (f : String) : Prop where
  comma : ',' ∉ f.toList
  newline : '\n' ∉ f.toList

instance (f : String) : Decidable (IsField f) :=
  decidable_of_iff (',' ∉ f.toList ∧ '\n' ∉ f.toList)
    ⟨fun h => ⟨h.1, h.2⟩, fun h => ⟨h.comma, h.newline⟩⟩

theorem isField_ofInt (i : Int) : IsField (ofInt i) := by
  unfold ofInt
  constructor
  · rw [String.toList_ofList]
    exact notMem_integer (by decide) (by decide) i
  · rw [String.toList_ofList]
    exact notMem_integer (by decide) (by decide) i

theorem isField_ofNat (n : Nat) : IsField (ofNat n) := by
  unfold ofNat
  constructor
  · rw [String.toList_ofList]
    exact notMem_natural (by decide) n
  · rw [String.toList_ofList]
    exact notMem_natural (by decide) n

/-! ## Rows -/

/-- Between the newlines of a text stand the lines that end with them, and nothing behind the last
    one. -/
theorem splitOn_flatMap_newline {ls : List (List Char)} (h : ∀ l ∈ ls, '\n' ∉ l) :
    (ls.flatMap fun l => l ++ ['\n']).splitOn '\n' = ls ++ [[]] := by
  induction ls with
  | nil => rfl
  | cons l ls ih =>
    rw [List.flatMap_cons, List.append_assoc, List.singleton_append,
      List.splitOn_append_cons_self_of_not_mem (h l List.mem_cons_self),
      ih fun l' hl' => h l' (List.mem_cons_of_mem l hl'), List.cons_append]

end TriggerChain.Text
