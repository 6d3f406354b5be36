import TriggerChain.Maker.Prescale
import TriggerChain.Proofs.Maker.Lawful

/-!
# What an activity says of its primitives

Every maker of activities fills the same fields from the primitives of the activity: the start
from the first, the end from the last, the charge from all of them, the peak from the highest.
The makers differ in one thing only: whether the activity lasts until its last primitive
begins, or until that primitive is below threshold again.

Main statements: `summary_of_record` and `describes_of_record` for windows, `summary_of_primitive`
and `describes_of_primitive` for the prescale.
-/

namespace TriggerChain

/-! ## The highest primitive -/

theorem highestFrom_cons (first p : Primitive) (rest : List Primitive) :
    highestFrom first (p :: rest) =
      highestFrom (if first.adcPeak < p.adcPeak then p else first) rest := rfl

theorem highestFrom_mem (first : Primitive) (rest : List Primitive) :
    highestFrom first rest ∈ first :: rest := by
  induction rest generalizing first with
  | nil => exact List.mem_singleton.2 rfl
  | cons p rest ih =>
    rw [highestFrom_cons]
    have hmem := ih (if first.adcPeak < p.adcPeak then p else first)
    rcases List.mem_cons.1 hmem with heq | htail
    · -- The best so far is one of the two that were compared.
      rw [heq]
      split
      · simp
      · simp
    · simp [htail]

theorem le_highestFrom (first : Primitive) (rest : List Primitive) :
    ∀ p ∈ first :: rest, p.adcPeak ≤ (highestFrom first rest).adcPeak := by
  induction rest generalizing first with
  | nil =>
    intro p hp
    obtain rfl := List.mem_singleton.1 hp
    exact UInt32.le_refl _
  | cons q rest ih =>
    rw [highestFrom_cons]
    generalize hbest : (if first.adcPeak < q.adcPeak then q else first) = best
    have hfirst : first.adcPeak ≤ best.adcPeak ∧ q.adcPeak ≤ best.adcPeak := by
      rw [← hbest]
      by_cases hlt : first.adcPeak < q.adcPeak
      · rw [if_pos hlt]
        exact ⟨UInt32.le_of_lt hlt, UInt32.le_refl _⟩
      · rw [if_neg hlt]
        exact ⟨UInt32.le_refl _, UInt32.not_lt.1 hlt⟩
    have hle := ih best
    have hbest' := hle best List.mem_cons_self
    intro p hp
    rcases List.mem_cons.1 hp with rfl | hp
    · exact UInt32.le_trans hfirst.1 hbest'
    · rcases List.mem_cons.1 hp with rfl | hp
      · exact UInt32.le_trans hfirst.2 hbest'
      · exact hle p (List.mem_cons_of_mem best hp)

/-- Of the primitives that are as high as the highest, it is the first. -/
theorem find?_highestFrom (first : Primitive) (rest : List Primitive) :
    (first :: rest).find? (fun p => p.adcPeak = (highestFrom first rest).adcPeak) =
      some (highestFrom first rest) := by
  induction rest generalizing first with
  | nil => exact List.find?_cons_of_pos (decide_eq_true rfl)
  | cons p rest ih =>
    have hle := le_highestFrom first (p :: rest)
    rw [highestFrom_cons] at hle ⊢
    by_cases hlt : first.adcPeak < p.adcPeak
    · -- The first is lower than the second, so it is not the highest.
      rw [if_pos hlt] at hle ⊢
      have hne : first.adcPeak ≠ (highestFrom p rest).adcPeak := fun heq =>
        UInt32.not_lt.2 (hle p (by simp)) (heq ▸ hlt)
      rw [List.find?_cons_of_neg (by simpa using hne)]
      exact ih p
    · rw [if_neg hlt] at hle ⊢
      have hrest := ih first
      by_cases heq : first.adcPeak = (highestFrom first rest).adcPeak
      · rw [List.find?_cons_of_pos (by simpa using heq)] at hrest ⊢
        exact hrest
      · -- If the first is not the highest, the second is lower still.
        have hne : p.adcPeak ≠ (highestFrom first rest).adcPeak := by
          intro hp
          refine heq (UInt32.le_antisymm (hle first List.mem_cons_self) ?_)
          exact hp ▸ UInt32.not_lt.1 hlt
        rw [List.find?_cons_of_neg (by simpa using heq)] at hrest ⊢
        rwa [List.find?_cons_of_neg (by simpa using hne)]

/-! ## Summaries -/

/-- The fields of an activity that are read off its primitives. -/
structure Activity.Summary (a : Activity) (endIncludesTot : Bool) : Prop where
  /-- There are primitives. -/
  nonempty : a.inputs ≠ []
  /-- It begins with the first. -/
  timeStart : a.timeStart = Window.startOf a.inputs
  /-- It ends with the last. -/
  timeEnd : ∀ last ∈ a.inputs.getLast?, a.timeEnd.toInt = exactTimeEnd endIncludesTot last
  /-- Its charge is the sum of theirs. -/
  charge : a.adcIntegral.toNat = Window.chargeOf a.inputs
  /-- None of them is higher than its peak. -/
  peak_le : ∀ p ∈ a.inputs, p.adcPeak ≤ a.adcPeak
  /-- One of them is as high as its peak. -/
  peak_mem : ∃ p ∈ a.inputs, p.adcPeak = a.adcPeak

/-- The fields of an activity that are read off one of its primitives, with the primitive. -/
structure Activity.Describes (a : Activity) (endIncludesTot : Bool) : Prop
    extends a.Summary endIncludesTot where
  first : ∀ p ∈ a.inputs.head?, a.timeStart = p.timeStart ∧ a.channelStart = p.channel
  last : ∀ p ∈ a.inputs.getLast?, a.channelEnd = p.channel ∧ a.detid = p.detid
  /-- The highest is the first of those that are as high as its peak. -/
  highest : ∃ p, a.inputs.find? (fun q => q.adcPeak = a.adcPeak) = some p ∧
    a.channelPeak = p.channel ∧ a.timePeak = p.timePeak

theorem Ticks.ofInt?_eq_some {i : Int} {t : Ticks} (h : ofInt? i = some t) : t.toInt = i := by
  unfold ofInt? at h
  split at h
  · next hfits =>
    obtain rfl := Option.some.inj h
    obtain ⟨hlow, hhigh⟩ := hfits
    rw [Int64.toInt_ofInt_of_le (by simpa using hlow) (by simpa using hhigh)]
  · cases h

theorem Charge.ofNat?_eq_some {n : Nat} {c : Charge} (h : ofNat? n = some c) : c.toNat = n := by
  unfold ofNat? at h
  split at h
  · next hfits =>
    obtain rfl := Option.some.inj h
    exact UInt64.toNat_ofNat_of_lt hfits
  · cases h

/-- A record is made of some primitives exactly if there are any, and the exact end and the exact
    charge fit their words. -/
theorem ofPrimitives?_ne_none_iff {algorithm : ActivityAlgorithm} {timeEnd : Primitive → Int}
    {ps : List Primitive} : Activity.ofPrimitives? algorithm timeEnd ps ≠ none ↔
      (∃ last ∈ ps.getLast?, Ticks.Fits (timeEnd last)) ∧
        Window.chargeOf ps < UInt64.size := by
  cases ps with
  | nil => simp [Activity.ofPrimitives?]
  | cons first rest =>
    rw [getLast?_cons_eq_getLastD, Activity.ofPrimitives?, Ticks.ofInt?, Charge.ofNat?]
    simp

theorem summary_of_record {algorithm : ActivityAlgorithm} {endIncludesTot : Bool}
    {ps : List Primitive} {a : Activity}
    (h : Activity.ofPrimitives? algorithm (exactTimeEnd endIncludesTot) ps = some a) :
    a.Summary endIncludesTot := by
  cases ps with
  | nil => cases h
  | cons first rest =>
    obtain ⟨timeEnd, hend, h⟩ := Option.bind_eq_some_iff.1 h
    obtain ⟨charge, hcharge, h⟩ := Option.bind_eq_some_iff.1 h
    obtain rfl := Option.some.inj h
    refine ⟨List.cons_ne_nil first rest, rfl, ?_, Charge.ofNat?_eq_some hcharge,
      le_highestFrom first rest, ⟨_, highestFrom_mem first rest, rfl⟩⟩
    intro last hlast
    have hlast' : (first :: rest).getLast? = some last := hlast
    rw [getLast?_cons_eq_getLastD] at hlast'
    obtain rfl := Option.some.inj hlast'
    exact Ticks.ofInt?_eq_some hend

theorem describes_of_record {algorithm : ActivityAlgorithm} {endIncludesTot : Bool}
    {ps : List Primitive} {a : Activity}
    (h : Activity.ofPrimitives? algorithm (exactTimeEnd endIncludesTot) ps = some a) :
    a.Describes endIncludesTot := by
  have hsummary := summary_of_record h
  cases ps with
  | nil => cases h
  | cons first rest =>
    obtain ⟨timeEnd, -, h⟩ := Option.bind_eq_some_iff.1 h
    obtain ⟨charge, -, h⟩ := Option.bind_eq_some_iff.1 h
    obtain rfl := Option.some.inj h
    refine ⟨hsummary, ?_, ?_, ⟨_, find?_highestFrom first rest, rfl, rfl⟩⟩
    · intro p hp
      obtain rfl : first = p := Option.some.inj hp
      exact ⟨rfl, rfl⟩
    · intro p hp
      have hp' : (first :: rest).getLast? = some p := hp
      rw [getLast?_cons_eq_getLastD] at hp'
      obtain rfl := Option.some.inj hp'
      exact ⟨rfl, rfl⟩

theorem summary_of_primitive {p : Primitive} {algorithm : ActivityAlgorithm} {a : Activity}
    (h : Activity.ofPrimitive p algorithm = .ok a) : a.inputs = [p] ∧ a.Summary true := by
  obtain ⟨timeEnd, hend, h⟩ := Checked.bind_eq_ok_iff.1 h
  obtain rfl := Except.ok.inj h
  refine ⟨rfl, List.cons_ne_nil p [], rfl, ?_, ?_, ?_, ⟨p, List.mem_singleton.2 rfl, rfl⟩⟩
  · intro last hlast
    obtain rfl : p = last := Option.some.inj hlast
    exact Ticks.plus_eq_ok_iff.1 hend
  · exact (Nat.add_zero _).symm
  · intro q hq
    obtain rfl := List.mem_singleton.1 hq
    exact UInt32.le_refl _

theorem describes_of_primitive {p : Primitive} {algorithm : ActivityAlgorithm} {a : Activity}
    (h : Activity.ofPrimitive p algorithm = .ok a) : a.Describes true := by
  have hsummary := (summary_of_primitive h).2
  obtain ⟨timeEnd, -, h⟩ := Checked.bind_eq_ok_iff.1 h
  obtain rfl := Except.ok.inj h
  refine ⟨hsummary, ?_, ?_, ⟨p, List.find?_cons_of_pos (decide_eq_true rfl), rfl, rfl⟩⟩
  · intro q hq
    obtain rfl : p = q := Option.some.inj hq
    exact ⟨rfl, rfl⟩
  · intro q hq
    obtain rfl : p = q := Option.some.inj hq
    exact ⟨rfl, rfl⟩

end TriggerChain
