import Mathlib.Data.List.Basic

/-!
# Stable sorting

A list is sorted stably by a key if the keys ascend and elements with one key keep their order. What
a list holds under each key determines the sorted list, so there is exactly one.

Main statements: `eq_of_ascending`, `StablySorted.unique` and `stablySorted_mergeSort`.
-/

namespace TriggerChain

variable {α κ : Type}

/-! ## Elements with one key -/

section

variable [DecidableEq κ]

/-- The elements with a key, in their order. -/
def underKey (key : α → κ) (k : κ) (xs : List α) : List α :=
  xs.filter fun x => decide (key x = k)

theorem mem_underKey {key : α → κ} {k : κ} {xs : List α} {x : α} :
    x ∈ underKey key k xs ↔ x ∈ xs ∧ key x = k := by
  simp [underKey]

theorem underKey_cons_self (key : α → κ) (x : α) (xs : List α) :
    underKey key (key x) (x :: xs) = x :: underKey key (key x) xs := by
  simp [underKey]

/-- Lists that begin alike and hold the same under each key hold the same behind. -/
theorem underKey_tail {key : α → κ} {x : α} {xs ys : List α}
    (h : ∀ k, underKey key k (x :: xs) = underKey key k (x :: ys)) (k : κ) :
    underKey key k xs = underKey key k ys := by
  have hk := h k
  unfold underKey at hk ⊢
  by_cases heq : key x = k
  · simpa [heq] using hk
  · simpa [heq] using hk

/-- The second list is the first one, sorted stably by a key. -/
structure StablySorted [LE κ] (key : α → κ) (xs ys : List α) : Prop where
  /-- The keys ascend. -/
  ascending : ys.Pairwise fun a b => key a ≤ key b
  /-- No element is lost, and none is added. -/
  perm : ys.Perm xs
  /-- Elements with one key keep their order. -/
  order : ∀ k, underKey key k ys = underKey key k xs

end

/-! ## There is one sorted list -/

section

variable [LE κ] [Std.IsLinearOrder κ] [DecidableEq κ] {key : α → κ} {xs ys : List α}

/-- Lists whose keys ascend are equal if they hold the same under each key. -/
theorem eq_of_ascending (hxs : xs.Pairwise fun a b => key a ≤ key b)
    (hys : ys.Pairwise fun a b => key a ≤ key b)
    (h : ∀ k, underKey key k xs = underKey key k ys) : xs = ys := by
  induction xs generalizing ys with
  | nil =>
    cases ys with
    | nil => rfl
    | cons b ys => simpa [underKey] using h (key b)
  | cons a xs ih =>
    cases ys with
    | nil => simpa [underKey] using h (key a)
    | cons b ys =>
      obtain ⟨ha, hxs'⟩ := List.pairwise_cons.1 hxs
      obtain ⟨hb, hys'⟩ := List.pairwise_cons.1 hys
      -- Each first element occurs in the other list, so neither key lies above the other.
      have hleft : a ∈ b :: ys := (mem_underKey.1 (h (key a) ▸ mem_underKey.2 ⟨by simp, rfl⟩)).1
      have hright : b ∈ a :: xs :=
        (mem_underKey.1 ((h (key b)).symm ▸ mem_underKey.2 ⟨by simp, rfl⟩)).1
      have hkey : key a = key b := by
        apply Std.le_antisymm
        · rcases List.mem_cons.1 hright with rfl | hmem
          · exact Std.le_refl _
          · exact ha b hmem
        · rcases List.mem_cons.1 hleft with rfl | hmem
          · exact Std.le_refl _
          · exact hb a hmem
      have hfirst := h (key a)
      rw [underKey_cons_self, hkey, underKey_cons_self] at hfirst
      obtain rfl := (List.cons.inj hfirst).1
      rw [ih hxs' hys' (underKey_tail h)]

theorem StablySorted.unique {zs : List α} (h : StablySorted key xs ys)
    (h' : StablySorted key xs zs) : ys = zs :=
  eq_of_ascending h.ascending h'.ascending fun k => (h.order k).trans (h'.order k).symm

end

/-! ## Sorting -/

section

variable [LE κ] [Std.IsLinearOrder κ] [DecidableLE κ] (key : α → κ)

theorem byKey_trans (a b c : α) (hab : decide (key a ≤ key b) = true)
    (hbc : decide (key b ≤ key c) = true) : decide (key a ≤ key c) = true := by
  simp only [decide_eq_true_eq] at hab hbc ⊢
  exact Std.le_trans hab hbc

theorem byKey_total (a b : α) :
    (decide (key a ≤ key b) || decide (key b ≤ key a)) = true := by
  simpa using Std.le_total (a := key a) (b := key b)

theorem stablySorted_mergeSort [DecidableEq κ] (xs : List α) :
    StablySorted key xs (xs.mergeSort fun a b => decide (key a ≤ key b)) := by
  have hperm := List.mergeSort_perm xs fun a b => decide (key a ≤ key b)
  refine ⟨?_, hperm, ?_⟩
  · exact (List.pairwise_mergeSort (byKey_trans key) (byKey_total key) xs).imp of_decide_eq_true
  · intro k
    have hsame : (underKey key k xs).Pairwise fun a b => decide (key a ≤ key b) = true := by
      apply List.pairwise_of_forall_mem_list
      intro a ha b hb
      rw [(mem_underKey.1 ha).2, (mem_underKey.1 hb).2]
      simp
    have hpart : (underKey key k xs).Sublist (xs.mergeSort fun a b => decide (key a ≤ key b)) :=
      List.sublist_mergeSort (byKey_trans key) (byKey_total key) hsame List.filter_sublist
    have honce : underKey key k (underKey key k xs) = underKey key k xs := by simp [underKey]
    have hpart' : (underKey key k xs).Sublist
        (underKey key k (xs.mergeSort fun a b => decide (key a ≤ key b))) :=
      honce ▸ hpart.filter fun x => decide (key x = k)
    -- None of them is lost, and there are no more of them.
    exact (hpart'.eq_of_length (hperm.filter _).length_eq.symm).symm

end

end TriggerChain
