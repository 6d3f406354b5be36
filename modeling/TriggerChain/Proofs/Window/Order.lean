import Mathlib.Data.List.DropRight
import TriggerChain.Proofs.Window.Consistency

/-!
# The order of the elements of a window

Elements that may arrive late are put behind every element that began no later. The place is
looked for from the front, which finds it because the elements of a window stand in the order
in which they began; every change keeps them so. Ages saturate, but a comparison with the
positive length of a window does not notice.
-/

namespace TriggerChain

namespace Window

variable {τ : Type} [Element τ]

/-! ## Exact times -/

/-- When an element began, exactly. -/
def began (e : τ) : Int := (Element.timeStart e).toInt

/-- Elements stand in the order in which they began. -/
def Chronological (xs : List τ) : Prop := xs.Pairwise fun a b => began a ≤ began b

theorem Chronological.head_le {first : τ} {rest : List τ}
    (h : Chronological (first :: rest)) : ∀ e ∈ first :: rest, began first ≤ began e := by
  intro e he
  rcases List.mem_cons.1 he with rfl | he
  · exact Int.le_refl _
  · exact (List.pairwise_cons.1 h).1 e he

theorem Chronological.le_last {xs : List τ} (h : Chronological xs) {last : τ}
    (hlast : last ∈ xs.getLast?) : ∀ e ∈ xs, began e ≤ began last := by
  obtain ⟨ys, rfl⟩ := List.getLast?_eq_some_iff.1 hlast
  intro e he
  rcases List.mem_append.1 he with he | he
  · exact (List.pairwise_append.1 h).2.2 e he last (List.mem_singleton.2 rfl)
  · obtain rfl := List.mem_singleton.1 he
    exact Int.le_refl _

theorem admits_iff {w : Window τ} {first : τ} {rest : List τ} (hw : w.Consistent)
    (hinputs : w.inputs = first :: rest) (x : τ) {length : Ticks} (hlength : 0 < length) :
    w.admits (Element.timeStart x) length = true ↔ began x - began first < length.toInt := by
  have hstart : w.timeStart = Element.timeStart first := by
    rw [hw.start, hinputs]
    rfl
  rw [admits, decide_eq_true_eq, hstart]
  exact Ticks.since_lt_iff (Int64.lt_iff_toInt_lt.1 hlength)

theorem expired_iff (x e : τ) {length : Ticks} (hlength : 0 < length) :
    expired (Element.timeStart x) length e = true ↔ length.toInt ≤ began x - began e := by
  rw [expired, decide_eq_true_eq, ← Int64.not_lt,
    Ticks.since_lt_iff (Int64.lt_iff_toInt_lt.1 hlength), Int.not_lt]
  rfl

/-! ## The place of an element -/

/-- Behind a point where a condition fails, it fails from there on, if the order says so. -/
theorem not_of_mem_dropWhile {α : Type} {r : α → α → Prop} {p : α → Bool} {xs : List α}
    (hr : ∀ a b, r a b → p b = true → p a = true) (hxs : xs.Pairwise r) :
    ∀ e ∈ xs.dropWhile p, p e = false := by
  induction xs with
  | nil => simp
  | cons a xs ih =>
    obtain ⟨ha, hrest⟩ := List.pairwise_cons.1 hxs
    rw [List.dropWhile_cons]
    split
    · exact ih hrest
    · next hpa =>
      intro e he
      rcases List.mem_cons.1 he with rfl | he
      · simpa using hpa
      · rw [← Bool.not_eq_true]
        exact fun hpe => hpa (hr a e (ha e he) hpe)

/-- Among elements in order, an element is put between those that began no later and those
    that began later. -/
theorem place_split (x : τ) {xs : List τ} (hxs : Chronological xs)
    (hlate : Element.inOrder τ = false) :
    ∃ front back, xs = front ++ back ∧ place x xs = front ++ x :: back ∧
      (∀ e ∈ front, began e ≤ began x) ∧ ∀ e ∈ back, began x < began e := by
  have hearlier : ∀ e : τ, decide (Element.timeStart e ≤ Element.timeStart x) = true →
      began e ≤ began x :=
    fun e he => Int64.le_iff_toInt_le.1 (of_decide_eq_true he)
  refine ⟨_, _, List.takeWhile_append_dropWhile.symm, if_neg (by simp [hlate]), ?_, ?_⟩
  · intro e he
    have hyes := List.mem_takeWhile_imp he
    exact hearlier e hyes
  · intro e he
    -- Behind the first later element there are only later ones.
    have hno := not_of_mem_dropWhile ?_ hxs e he
    · exact Int64.lt_iff_toInt_lt.1 (Int64.not_le.1 (of_decide_eq_false hno))
    · intro a b hab hb
      rw [decide_eq_true_eq, Int64.le_iff_toInt_le]
      exact Int.le_trans hab (hearlier b hb)

/-- Late elements are put where the order wants them. -/
theorem place_chronological (x : τ) {xs : List τ} (hxs : Chronological xs)
    (hlate : Element.inOrder τ = false) : Chronological (place x xs) := by
  obtain ⟨front, back, rfl, hplace, hfront, hback⟩ := place_split x hxs hlate
  obtain ⟨hleft, hright, hacross⟩ := List.pairwise_append.1 hxs
  rw [hplace]
  refine List.pairwise_append.2 ⟨hleft, List.pairwise_cons.2 ⟨?_, hright⟩, ?_⟩
  · exact fun e he => Int.le_of_lt (hback e he)
  · intro a ha b hb
    rcases List.mem_cons.1 hb with rfl | hb
    · exact hfront a ha
    · exact hacross a ha b hb

/-- An element that began last goes to the end, in whatever way its place is found. -/
theorem place_eq_append {x : τ} {xs : List τ} (h : ∀ e ∈ xs, began e ≤ began x) :
    place x xs = xs ++ [x] := by
  unfold place
  split
  · rfl
  · have hall : ∀ e ∈ xs, decide (Element.timeStart e ≤ Element.timeStart x) = true := by
      intro e he
      rw [decide_eq_true_eq, Int64.le_iff_toInt_le]
      exact h e he
    dsimp only
    rw [List.takeWhile_eq_self_iff.2 hall, List.dropWhile_eq_nil_iff.2 hall]

/-- The place of an element, looked for from the back: behind the last element that began no
    later. -/
def placeBehind (x : τ) (xs : List τ) : List τ :=
  let later := fun e => decide (began x < began e)
  xs.rdropWhile later ++ x :: xs.rtakeWhile later

/-- Where the elements stand in order, the search from the back finds the same place. -/
theorem placeBehind_eq_place (x : τ) {xs : List τ} (hxs : Chronological xs)
    (hlate : Element.inOrder τ = false) : placeBehind x xs = place x xs := by
  obtain ⟨front, back, rfl, hplace, hfront, hback⟩ := place_split x hxs hlate
  rw [hplace, placeBehind]
  -- Seen from the back, the later elements come first and the others behind them.
  generalize hlater : (fun e : τ => decide (began x < began e)) = later
  have hyes : ∀ e ∈ back.reverse, later e = true := by
    intro e he
    subst hlater
    exact decide_eq_true (hback e (List.mem_reverse.1 he))
  have hno : ∀ e ∈ front.reverse, ¬ later e = true := by
    intro e he
    subst hlater
    rw [decide_eq_true_eq, Int.not_lt]
    exact hfront e (List.mem_reverse.1 he)
  have hdrop : (front ++ back).rdropWhile later = front := by
    rw [List.rdropWhile, List.reverse_append, List.dropWhile_append_of_pos hyes,
      List.dropWhile_eq_self_iff.2 fun hl => hno _ (List.getElem_mem hl), List.reverse_reverse]
  have htake : (front ++ back).rtakeWhile later = back := by
    rw [List.rtakeWhile, List.reverse_append, List.takeWhile_append_of_pos hyes,
      List.takeWhile_eq_nil_iff.2 fun hl => hno _ (List.getElem_mem hl), List.append_nil,
      List.reverse_reverse]
  rw [hdrop, htake]

/-! ## Sound windows -/

/-- A window is consistent, and elements that may arrive late stand in order. -/
structure Sound (w : Window τ) : Prop where
  consistent : w.Consistent
  chronological : Element.inOrder τ = false → Chronological w.inputs

theorem Sound.fit {w : Window τ} (hw : w.Sound) {xs : List τ} (hinputs : w.inputs = xs) :
    AggregatesFit xs := hinputs ▸ hw.consistent.aggregates.fit

theorem sound_empty : (empty : Window τ).Sound := ⟨consistent_empty, fun _ => .nil⟩

theorem Sound.of_add {w w' : Window τ} {x : τ} (hw : w.Sound) (h : w.add x = .ok w') :
    w'.Sound ∧ w'.inputs = place x w.inputs := by
  rcases hw.consistent.add x with ⟨w₁, hok, hw₁, hinputs⟩ | ⟨herr, -⟩
  · obtain rfl : w' = w₁ := Except.ok.inj (h.symm.trans hok)
    refine ⟨⟨hw₁, fun hlate => ?_⟩, hinputs⟩
    rw [hinputs]
    exact place_chronological x (hw.chronological hlate) hlate
  · exact (Checked.false_of_ok_error h herr).elim

theorem Sound.of_reset {w : Window τ} {x : τ} (h : reset x = .ok w) :
    w.Sound ∧ w.inputs = [x] := by
  obtain ⟨hw, hinputs⟩ := sound_empty.of_add h
  exact ⟨hw, hinputs.trans (place_nil x)⟩

theorem Sound.of_slide {w w' : Window τ} {x : τ} {length : Ticks} (hw : w.Sound)
    (h : w.slide x length = .ok w') :
    w'.Sound ∧ w'.inputs = place x (unexpired (Element.timeStart x) length w.inputs) := by
  rcases hw.consistent.slide x length with ⟨w₁, hok, hw₁, hinputs⟩ | ⟨herr, -⟩
  · obtain rfl : w' = w₁ := Except.ok.inj (h.symm.trans hok)
    refine ⟨⟨hw₁, fun hlate => ?_⟩, hinputs⟩
    rw [hinputs]
    -- What leaves does not disturb the order.
    have hkept := (hw.chronological hlate).sublist
      (List.dropWhile_sublist (expired (Element.timeStart x) length))
    exact place_chronological x hkept hlate
  · exact (Checked.false_of_ok_error h herr).elim

end Window

end TriggerChain
