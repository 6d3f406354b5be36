import TriggerChain.Proofs.Maker.Residents
import TriggerChain.Proofs.Maker.Summary

/-!
# Streams whose numbers fit

The charge of a primitive is a word half as long as a summed charge, and a primitive is one hit.
So the aggregates of fewer than `2 ^ 32` primitives always fit. What is left are the times of the
records: an activity that ends when its last primitive begins always fits, and one that lasts until
its last primitive is below threshold again fits if this time does.

Main statements: `Geometry.fitsAll` and `Shape.fitsAll`.
-/

namespace TriggerChain

theorem chargeOf_primitives_le (ps : List Primitive) :
    Window.chargeOf ps ≤ ps.length * (UInt32.size - 1) := by
  induction ps with
  | nil => simp
  | cons p ps ih =>
    have hcharge : (Element.charge p).toNat ≤ UInt32.size - 1 := by
      show p.adcIntegral.toUInt64.toNat ≤ _
      rw [UInt32.toNat_toUInt64]
      exact Nat.le_sub_one_of_lt p.adcIntegral.toNat_lt
    rw [Window.chargeOf_cons, List.length_cons, Nat.succ_mul]
    omega

/-- The charge of a primitive is a small word, so few primitives always fit. -/
theorem aggregatesFit_of_length {ps : List Primitive} (h : ps.length < UInt32.size) :
    Window.AggregatesFit ps := by
  refine ⟨?_, fun c => ?_⟩
  · have hcharge := chargeOf_primitives_le ps
    have hle : ps.length * (UInt32.size - 1) ≤ UInt32.size * (UInt32.size - 1) :=
      Nat.mul_le_mul_right _ (by omega)
    have hsize : UInt32.size * (UInt32.size - 1) < UInt64.size := by decide
    omega
  · have hcount := List.count_le_length (a := c) (l := Window.channelsOf ps)
    rw [channelsOf_primitives, List.length_map] at hcount
    rw [channelsOf_primitives]
    omega

/-- Primitives become a record if they are few, and each one ends at a time that fits. -/
theorem record_ne_none_of_length {algorithm : ActivityAlgorithm} {timeEnd : Primitive → Int}
    {ps : List Primitive} (hne : ps ≠ []) (h : ps.length < UInt32.size)
    (hend : ∀ p ∈ ps, Ticks.Fits (timeEnd p)) :
    Activity.ofPrimitives? algorithm timeEnd ps ≠ none := by
  have hlast := List.getLast?_eq_some_getLast hne
  refine ofPrimitives?_ne_none_iff.2 ⟨⟨_, hlast, ?_⟩, (aggregatesFit_of_length h).charge⟩
  exact hend _ (List.getLast_mem hne)

/-- The numbers of a sequence of calls fit, if few primitives are handed over and a record of some
    of them always fits. -/
theorem Reference.fitsAll_of_length {π : Type} [Policy π Primitive Activity]
    [ListPolicy π Primitive Activity] {r : Reference π Primitive} {cs : List (Call Primitive)}
    (h : r.residents.length + (Call.inputs cs).length < UInt32.size)
    (hrecord : ∀ ps, ps ≠ [] → ps.length < UInt32.size →
      (∀ p ∈ ps, p ∈ r.residents ++ Call.inputs cs) → ListPolicy.record? r.policy ps ≠ none) :
    r.FitsAll cs := by
  rw [← List.length_append] at h
  refine fitsAll_of_pool (aggregatesFit_of_length h) ?_ (.refl _)
  intro ps hne hsub
  exact hrecord ps hne (Nat.lt_of_le_of_lt hsub.length_le h) fun p hp => hsub.subset hp

/-- A geometry goes through every sequence of calls with fewer than `2 ^ 32` primitives. -/
theorem Geometry.fitsAll {r : Reference Geometry Primitive} {cs : List (Call Primitive)}
    (h : r.residents.length + (Call.inputs cs).length < UInt32.size) : r.FitsAll cs :=
  Reference.fitsAll_of_length h fun _ hne hfew _ =>
    record_ne_none_of_length hne hfew fun p _ => p.timeStart.fits_toInt

/-- A shape goes through every sequence of calls with fewer than `2 ^ 32` primitives that are
    below threshold again at times that fit. -/
theorem Shape.fitsAll {r : Reference Shape Primitive} {cs : List (Call Primitive)}
    (h : r.residents.length + (Call.inputs cs).length < UInt32.size)
    (hend : ∀ p ∈ r.residents ++ Call.inputs cs,
      Ticks.Fits (p.timeStart.toInt + p.timeOverThreshold.toInt)) : r.FitsAll cs :=
  Reference.fitsAll_of_length h fun _ hne hfew hmem =>
    record_ne_none_of_length hne hfew fun p hp => hend p (hmem p hp)

end TriggerChain
