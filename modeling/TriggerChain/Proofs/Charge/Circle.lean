import Mathlib.Algebra.BigOperators.Ring.Finset
import Mathlib.Algebra.Field.Rat
import Mathlib.Data.List.Rotate
import TriggerChain.Proofs.Charge.RecordedMeans

/-!
# Running means around the circle

A running mean at a position is that of a stretch of the circle that the charges close up to, so it
does not matter where the circle is cut open: the means of charges that are rotated are the means,
rotated. Every charge stands in as many stretches as the width says. So if nothing is rounded, the
mean of the means is the mean of the charges, whatever the width is.

Main statements: `runningMean_rotate`, `sum_numerators` and `running_means_have_no_seam`.
-/

namespace TriggerChain

/-! ## The circle -/

/-- The charge at a position of the circle that the charges close up to. -/
def onCircle (charges : List UInt32) (i : Nat) : UInt32 := charges[i % charges.length]?.getD 0

/-- The charges from a position of the circle on, around it as often as the width asks for. -/
def stretch (charges : List UInt32) (i width : Nat) : List UInt32 :=
  (List.range width).map fun j => onCircle charges (i + j)

variable (charges : List UInt32) (i k width : Nat)

theorem onCircle_mod : onCircle charges (i % charges.length) = onCircle charges i := by
  rw [onCircle, onCircle, Nat.mod_mod]

/-- Where charges are rotated, the circle is rotated. -/
theorem onCircle_rotate : onCircle (charges.rotate k) i = onCircle charges (i + k) := by
  by_cases hcharges : charges = []
  · -- Without charges there is nothing at any position.
    subst hcharges
    rfl
  · have hi : i % charges.length < charges.length :=
      Nat.mod_lt _ (List.length_pos_iff.2 hcharges)
    rw [onCircle, List.length_rotate, List.getElem?_rotate hi, Nat.mod_add_mod, onCircle]

/-- Once around the circle stand the charges, from the one at which the circle is entered. -/
theorem map_onCircle :
    ((List.range charges.length).map fun i => onCircle charges (i + k)) = charges.rotate k := by
  apply List.ext_getElem
  · simp
  · intro i hi hi'
    have hlength : i < charges.length := by simpa using hi
    have hpos : 0 < charges.length := by omega
    simp [onCircle, List.getElem_rotate, Nat.mod_lt _ hpos]

theorem stretch_rotate : stretch (charges.rotate k) i width = stretch charges (i + k) width := by
  unfold stretch
  refine List.map_congr_left fun j _ => ?_
  rw [onCircle_rotate, Nat.add_right_comm]

theorem stretch_mod : stretch charges (i % charges.length) width = stretch charges i width := by
  unfold stretch
  refine List.map_congr_left fun j _ => ?_
  rw [← onCircle_mod, Nat.mod_add_mod, onCircle_mod]

/-- A stretch that is wider than the circle goes around it more than once. -/
example : stretch [10, 20, 30] 2 7 = [30, 10, 20, 30, 10, 20, 30] := rfl

/-! ## Means -/

/-- The mean at a position is the sum of a stretch from left to right, divided by the width. -/
theorem meanFrom_eq : meanFrom charges i width =
    sumOf ((stretch charges i width).map fun charge => Float.ofNat charge.toNat) /
      Float.ofNat width := by
  rw [meanFrom, stretch, List.map_map]
  rfl

theorem rotate_map_range {α : Type} (f : Nat → α) (n : Nat) :
    ((List.range n).map f).rotate k = (List.range n).map fun i => f ((i + k) % n) := by
  apply List.ext_getElem
  · simp
  · intro i hi hi'
    simp [List.getElem_rotate]

/-- The means of rotated charges are the means, rotated. -/
theorem runningMean_rotate :
    runningMean (charges.rotate k) width = (runningMean charges width).rotate k := by
  by_cases hwidth : width = 0
  · rw [hwidth, runningMean_zero, runningMean_zero, List.rotate_nil]
  · rw [runningMean_eq _ hwidth, runningMean_eq _ hwidth, rotate_map_range, List.length_rotate]
    refine List.map_congr_left fun i _ => ?_
    rw [meanFrom_eq, meanFrom_eq, stretch_rotate, stretch_mod]

/-! ## Exact sums -/

/-- The exact sum of a stretch. -/
def numerator : Nat := ((stretch charges i width).map UInt32.toNat).sum

/-- The exact sum of charges. -/
def totalCharge : Nat := (charges.map UInt32.toNat).sum

theorem totalCharge_rotate : totalCharge (charges.rotate k) = totalCharge charges :=
  ((charges.rotate_perm k).map UInt32.toNat).sum_eq

theorem numerator_succ : numerator charges i (width + 1) =
    numerator charges i width + (onCircle charges (i + width)).toNat := by
  simp [numerator, stretch, List.range_succ]

/-- Each charge is summed as often as the width says. -/
theorem sum_numerators :
    ((List.range charges.length).map fun i => numerator charges i width).sum =
      width * totalCharge charges := by
  induction width with
  | zero => simp [numerator, stretch]
  | succ width ih =>
    -- A stretch that is longer by one: the last charges of all stretches are the charges, rotated.
    have hlast : ((List.range charges.length).map fun i =>
        (onCircle charges (i + width)).toNat).sum = totalCharge charges := by
      rw [← totalCharge_rotate charges width, totalCharge, ← map_onCircle, List.map_map]
      rfl
    simp only [numerator_succ]
    rw [List.sum_map_add, ih, hlast, Nat.succ_mul]

/-- The running means if nothing is rounded. -/
def exactMeans : List ℚ :=
  (List.range charges.length).map fun i => (numerator charges i width : ℚ) / width

/-- The mean of exact values; zero if there are none. -/
def exactMean (values : List ℚ) : ℚ := values.sum / values.length

/-- The charges as exact values. -/
def exactCharges : List ℚ := charges.map fun charge => (charge.toNat : ℚ)

theorem sum_exactCharges : (exactCharges charges).sum = totalCharge charges := by
  rw [exactCharges, totalCharge, Nat.cast_list_sum, List.map_map]
  rfl

theorem sum_exactMeans {width : Nat} (h : width ≠ 0) :
    (exactMeans charges width).sum = totalCharge charges := by
  have hwidth : (width : ℚ) ≠ 0 := Nat.cast_ne_zero.2 h
  calc (exactMeans charges width).sum
      = ((List.range charges.length).map fun i =>
          (numerator charges i width : ℚ) * (width : ℚ)⁻¹).sum := by
        simp only [exactMeans, div_eq_mul_inv]
    _ = ((List.range charges.length).map fun i => (numerator charges i width : ℚ)).sum *
          (width : ℚ)⁻¹ := List.sum_map_mul_right ..
    _ = ((width * totalCharge charges : Nat) : ℚ) * (width : ℚ)⁻¹ := by
        rw [← sum_numerators, Nat.cast_list_sum, List.map_map]
        rfl
    _ = totalCharge charges := by
        rw [Nat.cast_mul, mul_comm, inv_mul_cancel_left₀ hwidth]

theorem exactMean_exactMeans {width : Nat} (h : width ≠ 0) :
    exactMean (exactMeans charges width) = exactMean (exactCharges charges) := by
  have hlength : (exactMeans charges width).length = (exactCharges charges).length := by
    simp [exactMeans, exactCharges]
  rw [exactMean, exactMean, sum_exactMeans charges h, sum_exactCharges, hlength]

/-! ## Series of means -/

/-- The means of a width have no seam. -/
structure Seamless (charges : List UInt32) (width : Nat) : Prop where
  /-- Each mean is a stretch of the circle, summed from left to right and divided by the width. -/
  means : width ≠ 0 → runningMean charges width =
    (List.range charges.length).map fun i =>
      sumOf ((stretch charges i width).map fun charge => Float.ofNat charge.toNat) /
        Float.ofNat width
  /-- There are as many means as charges. -/
  length : width ≠ 0 → (runningMean charges width).length = charges.length
  /-- Of charges that are rotated the means are the same, rotated. -/
  rotate : ∀ k, runningMean (charges.rotate k) width = (runningMean charges width).rotate k
  /-- The exact sums of the stretches add up to the charges, taken as often as the width says. -/
  numerators : ((List.range charges.length).map fun i =>
    ((stretch charges i width).map UInt32.toNat).sum).sum = width * (charges.map UInt32.toNat).sum
  /-- If nothing is rounded, the mean of the means is the mean of the charges. -/
  mean : width ≠ 0 → exactMean (exactMeans charges width) = exactMean (exactCharges charges)

theorem seamless : Seamless charges width where
  means h := by
    rw [runningMean_eq charges h]
    exact List.map_congr_left fun i _ => meanFrom_eq charges i width
  length := length_runningMean charges
  rotate k := runningMean_rotate charges k width
  numerators := sum_numerators charges width
  mean := exactMean_exactMeans charges

/-- The running means of any charges have no seam, whatever their width; and the series of a test
    are the running means of the charges of its track. -/
theorem running_means_have_no_seam :
    (∀ (charges : List UInt32) (width : Nat), Seamless charges width) ∧
      ∀ (t : ProfileTest) (ps : List Primitive),
        (t.run ps).means = t.widths.map (runningMean ((t.run ps).track.map (·.adc))) :=
  ⟨seamless, fun _ _ => rfl⟩

end TriggerChain
