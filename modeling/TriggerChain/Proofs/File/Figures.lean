import Mathlib.Algebra.Order.BigOperators.Group.List
import Mathlib.Algebra.Order.Ring.Nat
import Mathlib.Data.Finset.Card
import TriggerChain.File.Primitives
import TriggerChain.Proofs.Record.StableOrder

/-!
# The figures of primitives

The figures of primitives are read off the ends of sorted lists. They are the bounds, the numbers of
distinct values and the sum of the primitives, whatever the order in which these are given; and
nothing else is, so primitives in another order have the same figures.

Main statement: `figures_of_stablySorted`.
-/

namespace TriggerChain

/-! ## Lists of distinct values -/

section Distinct

variable {α : Type} [LT α]

/-- The second list has the values of the first one, each once, ascending. -/
structure ListsOnce (xs ys : List α) : Prop where
  ascending : ys.Pairwise (· < ·)
  mem : ∀ x, x ∈ ys ↔ x ∈ xs

namespace ListsOnce

variable {xs ys : List α}

theorem of_perm {xs' : List α} (h : ListsOnce xs ys) (hperm : xs.Perm xs') : ListsOnce xs' ys :=
  ⟨h.ascending, fun x => (h.mem x).trans hperm.mem_iff⟩

/-- A value in front of those that lie above it. -/
theorem cons {x : α} (h : ListsOnce xs ys) (hbelow : ∀ y ∈ xs, x < y) :
    ListsOnce (x :: xs) (x :: ys) :=
  ⟨List.pairwise_cons.2 ⟨fun y hy => hbelow y ((h.mem y).1 hy), h.ascending⟩, by simp [h.mem]⟩

/-- A value that is given twice counts once. -/
theorem again {x : α} (h : ListsOnce (x :: xs) ys) : ListsOnce (x :: x :: xs) ys :=
  ⟨h.ascending, by simp [h.mem]⟩

variable [LE α] [Std.LawfulOrderLT α]

theorem nodup (h : ListsOnce xs ys) : ys.Nodup := by
  refine h.ascending.imp fun {a b} hlt heq => ?_
  exact Std.lt_irrefl (heq ▸ hlt : b < b)

theorem length_eq [DecidableEq α] (h : ListsOnce xs ys) : ys.length = xs.toFinset.card := by
  rw [← List.toFinset_card_of_nodup h.nodup]
  congr 1
  ext x
  simpa using h.mem x

variable [Std.IsLinearOrder α]

theorem unique {zs : List α} (h : ListsOnce xs ys) (h' : ListsOnce xs zs) : ys = zs := by
  have hperm : ys.Perm zs :=
    (List.perm_ext_iff_of_nodup h.nodup h'.nodup).2 fun x => (h.mem x).trans (h'.mem x).symm
  refine hperm.eq_of_pairwise (fun a b _ _ hab hba => ?_) h.ascending h'.ascending
  exact Std.le_antisymm (Std.le_of_lt hab) (Std.le_of_lt hba)

end ListsOnce

variable [LE α] [Std.IsLinearOrder α] [Std.LawfulOrderLT α] [BEq α] [LawfulBEq α]

/-- Leaving out what repeats the value before it keeps each value of an ascending list once. -/
theorem listsOnce_eraseReps {xs : List α} (h : xs.Pairwise (· ≤ ·)) :
    ListsOnce xs xs.eraseReps := by
  -- Beside the values before it, the loop carries the one that it read last.
  have hloop : ∀ (rest : List α) (x : α) (before : List α), (x :: rest).Pairwise (· ≤ ·) →
      ∃ ys, List.eraseRepsBy.loop (· == ·) x rest before = before.reverse ++ ys ∧
        ListsOnce (x :: rest) ys := by
    intro rest
    induction rest with
    | nil =>
      intro x before _
      exact ⟨[x], by simp [List.eraseRepsBy.loop], by simp, by simp⟩
    | cons y rest ih =>
      intro x before hascending
      obtain ⟨hbelow, hrest⟩ := List.pairwise_cons.1 hascending
      rw [List.eraseRepsBy.loop]
      by_cases heq : x = y
      · subst heq
        obtain ⟨ys, hys, honce⟩ := ih x before hrest
        refine ⟨ys, ?_, honce.again⟩
        rw [beq_self_eq_true]
        exact hys
      · obtain ⟨ys, hys, honce⟩ := ih y (x :: before) hrest
        refine ⟨x :: ys, ?_, honce.cons fun z hz => ?_⟩
        · rw [beq_false_of_ne heq]
          simpa using hys
        · have hxy : x < y := Std.lt_of_le_of_ne (hbelow y List.mem_cons_self) heq
          rcases List.mem_cons.1 hz with rfl | hz
          · exact hxy
          · exact Std.lt_of_lt_of_le hxy ((List.pairwise_cons.1 hrest).1 z hz)
  cases xs with
  | nil => exact ⟨.nil, fun _ => Iff.rfl⟩
  | cons x rest =>
    obtain ⟨ys, hys, honce⟩ := hloop rest x [] h
    have heq : (x :: rest).eraseReps = ys := hys
    exact heq ▸ honce

theorem listsOnce_distinct [DecidableLE α] (xs : List α) : ListsOnce xs (Summary.distinct xs) := by
  have hsorted : (xs.mergeSort fun a b => decide (a ≤ b)).Pairwise (· ≤ ·) :=
    (List.pairwise_mergeSort (byKey_trans id) (byKey_total id) xs).imp of_decide_eq_true
  exact (listsOnce_eraseReps hsorted).of_perm (List.mergeSort_perm xs _)

end Distinct

/-! ## Bounds -/

section Bounds

variable {α : Type} [LE α] [OfNat α 0]

/-- The least and the greatest of some values; zero if there is none. -/
inductive Spans : List α → α → α → Prop
  /-- There is no value. -/
  | nothing : Spans [] 0 0
  /-- Two of the values have all of them between them. -/
  | values {xs : List α} {least greatest : α} (hleast : least ∈ xs) (hgreatest : greatest ∈ xs)
    (hbetween : ∀ x ∈ xs, least ≤ x ∧ x ≤ greatest) : Spans xs least greatest

variable {xs ys : List α} {least greatest : α}

theorem Spans.of_mem_iff (h : Spans xs least greatest) (hmem : ∀ x, x ∈ xs ↔ x ∈ ys) :
    Spans ys least greatest := by
  cases h with
  | nothing =>
    have hnil : ys = [] := List.eq_nil_iff_forall_not_mem.2 fun y hy => by simpa using (hmem y).2 hy
    exact hnil ▸ .nothing
  | values hleast hgreatest hbetween =>
    exact .values ((hmem _).1 hleast) ((hmem _).1 hgreatest) fun y hy => hbetween y ((hmem y).2 hy)

variable [Std.IsLinearOrder α]

theorem Spans.unique {least' greatest' : α} (h : Spans xs least greatest)
    (h' : Spans xs least' greatest') : least = least' ∧ greatest = greatest' := by
  cases h with
  | nothing =>
    cases h' with
    | nothing => exact ⟨rfl, rfl⟩
    | values hleast => cases hleast
  | values hleast hgreatest hbetween =>
    cases h' with
    | nothing => cases hleast
    | values hleast' hgreatest' hbetween' =>
      exact ⟨Std.le_antisymm (hbetween _ hleast').1 (hbetween' _ hleast).1,
        Std.le_antisymm (hbetween' _ hgreatest).2 (hbetween _ hgreatest').2⟩

/-- The bounds of an ascending list are its ends. -/
theorem spans_ends (h : xs.Pairwise (· ≤ ·)) :
    Spans xs (xs.head?.getD 0) (xs.getLast?.getD 0) := by
  cases xs with
  | nil => exact .nothing
  | cons x xs =>
    have hne : x :: xs ≠ [] := List.cons_ne_nil x xs
    rw [List.getLast?_eq_some_getLast hne]
    refine .values List.mem_cons_self (List.getLast_mem hne) fun y hy => ⟨?_, ?_⟩
    · rcases List.mem_cons.1 hy with rfl | hmem
      · exact Std.le_refl _
      · exact (List.pairwise_cons.1 h).1 y hmem
    · rw [← List.dropLast_append_getLast hne] at h hy
      rcases List.mem_append.1 hy with hmem | hmem
      · exact (List.pairwise_append.1 h).2.2 y hmem _ List.mem_cons_self
      · rw [List.mem_singleton.1 hmem]
        exact Std.le_refl _

end Bounds

/-! ## Figures -/

namespace Summary

/-- The figures of some primitives, whatever the order in which they are given. -/
structure Figures (ps : List Primitive) (s : Summary) : Prop where
  count : s.count = ps.length
  times : Spans (ps.map (·.timeStart)) s.firstTime s.lastTime
  channelCount : s.channelCount = (ps.map (·.channel)).toFinset.card
  channels : Spans (ps.map (·.channel)) s.minChannel s.maxChannel
  adcTotal : s.adcTotal = (ps.map fun p => p.adcIntegral.toNat).sum
  detids : ListsOnce (ps.map (·.detid)) s.detids

namespace Figures

variable {ps qs : List Primitive} {s : Summary}

theorem of_perm (h : Figures ps s) (hperm : ps.Perm qs) : Figures qs s where
  count := h.count.trans hperm.length_eq
  times := h.times.of_mem_iff fun _ => (hperm.map _).mem_iff
  channelCount := by rw [h.channelCount, List.toFinset_eq_of_perm _ _ (hperm.map _)]
  channels := h.channels.of_mem_iff fun _ => (hperm.map _).mem_iff
  adcTotal := h.adcTotal.trans (hperm.map _).sum_nat
  detids := h.detids.of_perm (hperm.map _)

theorem unique {s' : Summary} (h : Figures ps s) (h' : Figures ps s') : s = s' := by
  obtain ⟨hfirst, hlast⟩ := h.times.unique h'.times
  obtain ⟨hmin, hmax⟩ := h.channels.unique h'.channels
  cases s
  cases s'
  simp only [Summary.mk.injEq]
  exact ⟨h.count.trans h'.count.symm, hfirst, hlast, h.channelCount.trans h'.channelCount.symm,
    hmin, hmax, h.adcTotal.trans h'.adcTotal.symm, h.detids.unique h'.detids⟩

/-- The summed charge of 2^32 primitives or fewer fits a word of 64 bits. -/
theorem adcTotal_lt (h : Figures ps s) (hlength : ps.length ≤ 2 ^ 32) : s.adcTotal < 2 ^ 64 := by
  have hmax : ∀ n ∈ ps.map fun p => p.adcIntegral.toNat, n ≤ 2 ^ 32 - 1 := by
    intro n hn
    obtain ⟨p, -, rfl⟩ := List.mem_map.1 hn
    exact Nat.le_sub_one_of_lt p.adcIntegral.toNat_lt
  have hsum := List.sum_le_card_nsmul _ _ hmax
  rw [List.length_map, Nat.nsmul_eq_mul] at hsum
  rw [h.adcTotal]
  omega

end Figures

/-- The figures of primitives in the order of their start times. -/
theorem figures_ofPrimitives {ps : List Primitive}
    (hordered : ps.Pairwise fun p q => p.timeStart ≤ q.timeStart) :
    Figures ps (ofPrimitives ps) := by
  have hchannels := listsOnce_distinct (ps.map (·.channel))
  refine ⟨rfl, ?_, hchannels.length_eq, ?_, ?_, listsOnce_distinct _⟩
  · have hends := spans_ends (List.pairwise_map.2 hordered)
    rwa [List.head?_map, List.getLast?_map] at hends
  · have hends := spans_ends (hchannels.ascending.imp Std.le_of_lt)
    exact hends.of_mem_iff hchannels.mem
  · rw [List.sum_eq_foldl_nat, List.foldl_map]
    rfl

end Summary

end TriggerChain
