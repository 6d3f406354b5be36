import TriggerChain.Proofs.Window.Order

/-!
# Lists up to the order of simultaneous elements

Elements that began at the same time may stand in a list in any order. Two lists are equal up to
this order if one becomes the other by exchanging such elements, two neighbours at a time. The
times are then the same place by place, so whatever cuts a list between different times cuts both
lists at the same place.

Main statement: `Shuffled.of_perm` says that it takes no more than the same elements and the
order of time on both sides.
-/

namespace TriggerChain

variable {τ : Type} [Element τ]

/-- Two lists are equal up to the order of elements that began at the same time. -/
inductive Shuffled : List τ → List τ → Prop where
  /-- There is nothing to exchange. -/
  | nil : Shuffled [] []
  /-- The first element stays where it is. -/
  | cons (x : τ) {xs ys : List τ} (h : Shuffled xs ys) : Shuffled (x :: xs) (x :: ys)
  /-- The first two elements change places. -/
  | swap {x y : τ} (hxy : Window.began x = Window.began y) {xs ys : List τ}
      (h : Shuffled xs ys) : Shuffled (x :: y :: xs) (y :: x :: ys)
  /-- Elements are exchanged several times. -/
  | trans {xs ys zs : List τ} (h : Shuffled xs ys) (h' : Shuffled ys zs) : Shuffled xs zs

namespace Shuffled

variable {xs ys xs' ys' : List τ}

theorem refl (xs : List τ) : Shuffled xs xs := by
  induction xs with
  | nil => exact .nil
  | cons x xs ih => exact .cons x ih

theorem perm (h : Shuffled xs ys) : xs.Perm ys := by
  induction h with
  | nil => exact .nil
  | cons x _ ih => exact .cons x ih
  | swap _ _ ih => exact (List.Perm.swap _ _ _).trans ((ih.cons _).cons _)
  | trans _ _ ih ih' => exact ih.trans ih'

/-- The times are the same, place by place. -/
theorem map_began (h : Shuffled xs ys) : xs.map Window.began = ys.map Window.began := by
  induction h with
  | nil => rfl
  | cons x _ ih => rw [List.map_cons, List.map_cons, ih]
  | swap hxy _ ih => simp only [List.map_cons, ih, hxy]
  | trans _ _ ih ih' => exact ih.trans ih'

theorem append (h : Shuffled xs ys) (h' : Shuffled xs' ys') :
    Shuffled (xs ++ xs') (ys ++ ys') := by
  induction h generalizing xs' ys' with
  | nil => exact h'
  | cons x _ ih => exact .cons x (ih h')
  | swap hxy _ ih => exact .swap hxy (ih h')
  | trans _ _ ih ih' => exact (ih (refl xs')).trans (ih' h')

/-- A condition on the time cuts both lists at the same place. -/
theorem dropWhile {p : τ → Bool}
    (hp : ∀ a b, Window.began a = Window.began b → p a = p b) (h : Shuffled xs ys) :
    Shuffled (xs.dropWhile p) (ys.dropWhile p) := by
  induction h with
  | nil => exact .nil
  | cons x h ih =>
    rw [List.dropWhile_cons, List.dropWhile_cons]
    split
    · exact ih
    · exact .cons x h
  | @swap x y hxy xs ys h ih =>
    -- The two that change places are both dropped or both kept.
    have hboth := hp x y hxy
    cases hx : p x with
    | true => simpa [List.dropWhile_cons, ← hboth, hx] using ih
    | false => simpa [List.dropWhile_cons, ← hboth, hx] using h.swap hxy
  | trans _ _ ih ih' => exact ih.trans ih'

theorem nil_iff (h : Shuffled xs ys) : xs = [] ↔ ys = [] := by
  have hlength := h.perm.length_eq
  rw [← List.length_eq_zero_iff, ← List.length_eq_zero_iff, hlength]

theorem chronological (h : Shuffled xs ys) (hxs : Window.Chronological xs) :
    Window.Chronological ys := by
  have htimes : (xs.map Window.began).Pairwise (· ≤ ·) := List.pairwise_map.2 hxs
  rw [h.map_began] at htimes
  exact List.pairwise_map.1 htimes

/-- An element may change places with the elements in front of it, if all of them began when
    it did. -/
theorem move {x : τ} {front : List τ} (hfront : ∀ e ∈ front, Window.began x = Window.began e)
    (h : Shuffled xs (front ++ ys)) : Shuffled (x :: xs) (front ++ x :: ys) := by
  have hmove : Shuffled (x :: (front ++ ys)) (front ++ x :: ys) := by
    clear h
    induction front with
    | nil => exact refl _
    | cons e front ih =>
      rw [List.forall_mem_cons] at hfront
      have hfirst : Shuffled (x :: e :: (front ++ ys)) (e :: x :: (front ++ ys)) :=
        .swap hfront.1 (refl _)
      exact hfirst.trans (.cons e (ih hfront.2))
  exact (h.cons x).trans hmove

/-- Two lists in the order of time that have the same elements are equal up to the order of
    simultaneous ones. -/
theorem of_perm (h : xs.Perm ys) (hxs : Window.Chronological xs)
    (hys : Window.Chronological ys) : Shuffled xs ys := by
  induction xs generalizing ys with
  | nil =>
    rw [List.nil_perm.1 h]
    exact .nil
  | cons x xs ih =>
    have hmem : x ∈ ys := h.subset List.mem_cons_self
    obtain ⟨front, back, rfl⟩ := List.append_of_mem hmem
    have hrest : xs.Perm (front ++ back) := (h.trans List.perm_middle).cons_inv
    -- What stands before `x` on the right began no later, and no earlier on the left.
    have hfront : ∀ e ∈ front, Window.began x = Window.began e := by
      intro e he
      have hle : Window.began e ≤ Window.began x :=
        (List.pairwise_append.1 hys).2.2 e he x List.mem_cons_self
      have hge : Window.began x ≤ Window.began e := by
        apply hxs.head_le
        exact h.symm.subset (by simp [he])
      omega
    have hxs' : Window.Chronological xs := (List.pairwise_cons.1 hxs).2
    have hys' : Window.Chronological (front ++ back) :=
      hys.sublist (List.Sublist.append_left (List.sublist_cons_self x back) front)
    exact move hfront (ih hrest hxs' hys')

theorem aggregatesFit (h : Shuffled xs ys) (hxs : Window.AggregatesFit xs) :
    Window.AggregatesFit ys := hxs.of_subperm h.perm.symm.subperm

end Shuffled

end TriggerChain
