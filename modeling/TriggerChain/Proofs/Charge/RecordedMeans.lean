import Mathlib.Data.List.Basic
import TriggerChain.Event.Basic
import TriggerChain.Proofs.Charge.ClosedRuns

/-!
# The means that a record holds

A record of a track lists the widths of its test, and at each hit the means of the series that reach
as far. Every series but that of a width of zero reaches as far as the track, so a hit has one mean
for each width, in the order of the widths, unless the width that decides was asked to be zero:
widths of zero are dropped, but the one that decides is added again.

Main statements: `ProfileTest.decides_adjusted` and `records_are_full_unless_zero_decides`.
-/

namespace TriggerChain

/-! ## Means around the circle -/

/-- The mean of the `width` charges from position `i` on, around the circle that they close to. -/
def meanFrom (charges : List UInt32) (i width : Nat) : Float :=
  sumOf ((List.range width).map fun j =>
    Float.ofNat (charges[(i + j) % charges.length]?.getD 0).toNat) / Float.ofNat width

theorem runningMean_zero (charges : List UInt32) : runningMean charges 0 = [] := by
  simp [runningMean]

theorem runningMean_eq (charges : List UInt32) {width : Nat} (h : width ≠ 0) :
    runningMean charges width =
      (List.range charges.length).map fun i => meanFrom charges i width := by
  simp [runningMean, meanFrom, circularAt, h]

/-- At a position of the track there is one mean for each width that is not zero. -/
theorem meansAt_runningMean {charges : List UInt32} {widths : List Nat} {i : Nat}
    (hwidths : 0 ∉ widths) (hi : i < charges.length) :
    meansAt ((widths.map (runningMean charges)).map List.toArray) i =
      widths.map (meanFrom charges i) := by
  induction widths with
  | nil => rfl
  | cons width widths ih =>
    obtain ⟨hpos, hrest⟩ : 0 ≠ width ∧ 0 ∉ widths := by simpa using hwidths
    have hone : (runningMean charges width).toArray[i]? = some (meanFrom charges i width) := by
      simp [runningMean_eq charges (Ne.symm hpos), hi]
    have ih := ih hrest
    unfold meansAt at ih ⊢
    rw [List.map_cons, List.map_cons, List.filterMap_cons, hone, ih, List.map_cons]

/-- A width of zero has no mean. -/
theorem meansAt_append_zero (charges : List UInt32) (widths : List Nat) (i : Nat) :
    meansAt (((widths ++ [0]).map (runningMean charges)).map List.toArray) i =
      meansAt ((widths.map (runningMean charges)).map List.toArray) i := by
  simp [meansAt, runningMean_zero]

namespace ChargeProfile

variable (profile : ChargeProfile) (maker : String) (widths : List Nat)

/-- The record of a track has the hits of the track, with the means at each. -/
theorem getElem?_hits_record (i : Nat) :
    (profile.record maker widths).hits[i]? =
      profile.track[i]?.map fun hit => ⟨hit, meansAt (profile.means.map List.toArray) i⟩ := by
  simp [record, Function.comp_def]

theorem hits_record : (profile.record maker widths).hits.map (·.hit) = profile.track := by
  apply List.ext_getElem?
  intro i
  rw [List.getElem?_map, getElem?_hits_record, Option.map_map]
  exact Option.map_id'

end ChargeProfile

/-! ## Widths that are asked for -/

namespace ProfileTest

/-- What can be asked of a test before it runs. -/
inductive Adjustment where
  /-- Widths of its own, one of which decides. -/
  | widths (widths : List Nat) (decision : Nat)
  /-- How few ticks apart hits on one channel belong to one track. -/
  | sameChannelWindow (ticks : Nat)

/-- A test that is adjusted. -/
def adjust (t : ProfileTest) : Adjustment → ProfileTest
  | .widths widths decision => t.withWidths widths decision
  | .sameChannelWindow ticks => { t with sameChannelWindow := ticks }

/-- The test of a scanner after some adjustments, in their order. The test that is used by default
    is the one of the scanner that counts missing wires. -/
def adjusted (scanner : Scanner) (adjustments : List Adjustment) : ProfileTest :=
  adjustments.foldl adjust { scanner }

/-- The width that is to decide after an adjustment. -/
def requested (decision : Nat) : Adjustment → Nat
  | .widths _ decision => decision
  | .sameChannelWindow _ => decision

/-- The width that is to decide after some adjustments. -/
def requestedWidth (adjustments : List Adjustment) : Nat := adjustments.foldl requested 8

/-- The width at the deciding position is the one that was asked for. Zero is a width only if it was
    asked to decide, and then it is the last one. -/
structure Decides (t : ProfileTest) (decision : Nat) : Prop where
  asked : t.widths[t.decision]? = some decision
  positive : decision ≠ 0 → 0 ∉ t.widths
  zero : decision = 0 → ∃ kept, t.widths = kept ++ [0] ∧ 0 ∉ kept

/-- Whatever widths are given, the one that is to decide is where it is looked for. -/
theorem decides_withWidths (t : ProfileTest) (widths : List Nat) (decision : Nat) :
    (t.withWidths widths decision).Decides decision := by
  have hkept : 0 ∉ widths.filter (0 < ·) := by simp
  unfold withWidths
  dsimp only
  by_cases hmem : decision ∈ widths.filter (0 < ·)
  · have hpos : decision ≠ 0 := fun h => hkept (h ▸ hmem)
    rw [if_pos (List.contains_iff_mem.2 hmem)]
    exact ⟨List.getElem?_idxOf hmem, fun _ => hkept, fun h => absurd h hpos⟩
  · rw [if_neg (mt List.contains_iff_mem.1 hmem)]
    refine ⟨List.getElem?_idxOf (by simp), fun hpos => ?_, ?_⟩
    · simpa using Ne.symm hpos
    · rintro rfl
      exact ⟨_, rfl, hkept⟩

theorem Decides.adjust {t : ProfileTest} {decision : Nat} (h : t.Decides decision)
    (a : Adjustment) : (t.adjust a).Decides (requested decision a) := by
  cases a with
  | widths widths decision => exact t.decides_withWidths widths decision
  | sameChannelWindow ticks => exact ⟨h.asked, h.positive, h.zero⟩

/-- The width that was asked for last is the one that decides. -/
theorem decides_adjusted (scanner : Scanner) (adjustments : List Adjustment) :
    (adjusted scanner adjustments).Decides (requestedWidth adjustments) := by
  have hfrom : ∀ (t : ProfileTest) (decision : Nat), t.Decides decision →
      (adjustments.foldl ProfileTest.adjust t).Decides (adjustments.foldl requested decision) := by
    induction adjustments with
    | nil => exact fun t decision h => h
    | cons a adjustments ih => exact fun t decision h => ih _ _ (h.adjust a)
  have hreference : 0 ∉ [4, 6, 8, 10, 15] := by decide
  exact hfrom _ _ ⟨rfl, fun _ => hreference, fun h => absurd h (by decide)⟩

/-! ## Records -/

/-- What a test, asked to decide by a width, records of the track among some primitives. -/
structure RecordsMeans (t : ProfileTest) (decision : Nat) (ps : List Primitive) (maker : String) :
    Prop where
  /-- The series that decides is the one of the width that was asked for. -/
  asked : t.widths[t.decision]? = some decision
  /-- The baseline and the clusters are those of this series. -/
  baseline : (t.run ps).baseline = meanOf (t.decidingSeries ps) ∧
    (t.run ps).clusters = chargeClusters (t.decidingSeries ps)
  /-- The record lists the widths of the test. -/
  widths : ((t.run ps).record maker t.widths).widths = t.widths
  /-- It has the hits of the track. -/
  hits : ((t.run ps).record maker t.widths).hits.map (·.hit) = (t.run ps).track
  /-- Each hit has one mean for each width, in their order. -/
  means : decision ≠ 0 → ∀ i hit, ((t.run ps).record maker t.widths).hits[i]? = some hit →
    hit.means = t.widths.map (meanFrom ((t.run ps).track.map (·.adc)) i)
  /-- The series that decides has one mean for each hit. -/
  series : decision ≠ 0 → t.decidingSeries ps = (List.range (t.run ps).track.length).map
    fun i => meanFrom ((t.run ps).track.map (·.adc)) i decision
  /-- If zero was asked to decide, it stands behind the other widths. It has no means and no series,
      so each hit has one mean less than there are widths, and nothing is found. -/
  zero : decision = 0 → ∃ kept, t.widths = kept ++ [0] ∧
    (∀ i hit, ((t.run ps).record maker t.widths).hits[i]? = some hit →
      hit.means = kept.map (meanFrom ((t.run ps).track.map (·.adc)) i)) ∧
    t.decidingSeries ps = [] ∧ (t.run ps).endPeaked = false

variable {t : ProfileTest} {decision : Nat} {ps : List Primitive} {maker : String}

theorem decidingSeries_eq (h : t.Decides decision) (ps : List Primitive) :
    t.decidingSeries ps = runningMean ((t.run ps).track.map (·.adc)) decision := by
  have hseries : t.decidingSeries ps =
      ((t.widths.map (runningMean ((t.run ps).track.map (·.adc))))[t.decision]?).getD [] := rfl
  rw [hseries, List.getElem?_map, h.asked]
  rfl

/-- The means at a recorded hit are those at its position of the track. -/
theorem means_of_hit {i : Nat} {hit : TrackHitRecord}
    (h : ((t.run ps).record maker t.widths).hits[i]? = some hit) :
    i < ((t.run ps).track.map (·.adc)).length ∧
      hit.means = meansAt
        ((t.widths.map (runningMean ((t.run ps).track.map (·.adc)))).map List.toArray) i := by
  rw [ChargeProfile.getElem?_hits_record] at h
  obtain ⟨e, he, rfl⟩ := Option.map_eq_some_iff.1 h
  rw [List.length_map]
  exact ⟨(List.getElem?_eq_some_iff.1 he).1, rfl⟩

theorem Decides.recordsMeans (h : t.Decides decision) (ps : List Primitive) (maker : String) :
    t.RecordsMeans decision ps maker := by
  have hseries := decidingSeries_eq h ps
  refine ⟨h.asked, ⟨rfl, rfl⟩, rfl, ChargeProfile.hits_record _ _ _, ?_, ?_, ?_⟩
  · intro hpos i hit hhit
    obtain ⟨hi, hmeans⟩ := means_of_hit hhit
    rw [hmeans, meansAt_runningMean (h.positive hpos) hi]
  · intro hpos
    rw [hseries, runningMean_eq _ hpos, List.length_map]
  · rintro rfl
    obtain ⟨kept, hwidths, hkept⟩ := h.zero rfl
    have hnone : t.decidingSeries ps = [] := hseries.trans (runningMean_zero _)
    have hclusters : chargeClusters (t.decidingSeries ps) = [] := by
      rw [hnone]
      rfl
    refine ⟨kept, hwidths, ?_, hnone, (t.not_endPeaked_of_clusters hclusters).1⟩
    intro i hit hhit
    obtain ⟨hi, hmeans⟩ := means_of_hit hhit
    rw [hmeans, hwidths, meansAt_append_zero, meansAt_runningMean hkept hi]

end ProfileTest

/-- Every test that can be put together, and every list of primitives: each hit of the record has
    the mean of each width at its place, and the deciding series is the one of the width that was
    asked for, unless that is zero. -/
theorem records_are_full_unless_zero_decides (scanner : Scanner)
    (adjustments : List ProfileTest.Adjustment) (ps : List Primitive) (maker : String) :
    (ProfileTest.adjusted scanner adjustments).RecordsMeans
      (ProfileTest.requestedWidth adjustments) ps maker :=
  (ProfileTest.decides_adjusted scanner adjustments).recordsMeans ps maker

/-- Hits on two neighbouring channels. -/
def twoNeighbours : List Primitive := [.hit 5 0 10, .hit 6 0 10]

/-- A track of two hits, tested with a width of four and decided by a width of zero: two widths are
    recorded, and one mean at each hit. -/
theorem zero_decides_without_means :
    let t := ProfileTest.adjusted { rule := .missingWires } [.widths [4] 0]
    t.widths = [4, 0] ∧
      ((t.run twoNeighbours).record "michel_electron" t.widths).hits.map (·.means.length) = [1, 1] ∧
      ¬∀ (scanner : Scanner) (adjustments : List ProfileTest.Adjustment) (ps : List Primitive)
        (maker : String),
        let t := ProfileTest.adjusted scanner adjustments
        ∀ hit ∈ ((t.run ps).record maker t.widths).hits, hit.means.length = t.widths.length := by
  intro t
  have hsorted : (twoNeighbours.map TrackHit.ofPrimitive).Pairwise
      fun a b => decide (a.channel ≤ b.channel) = true := by decide
  have htrack : t.longestTrack twoNeighbours = ([⟨5, 0, 10⟩, ⟨6, 0, 10⟩], 2) := by
    rw [ProfileTest.longestTrack, ProfileTest.hitsInOrder, List.mergeSort_of_pairwise hsorted]
    decide
  have hlengths : ((t.run twoNeighbours).record "michel_electron" t.widths).hits.map
      (·.means.length) = [1, 1] := by
    rw [ProfileTest.run, htrack]
    rfl
  refine ⟨rfl, hlengths, ?_⟩
  intro hfull
  have hall := hfull { rule := .missingWires } [.widths [4] 0] twoNeighbours "michel_electron"
  have hones : ∀ n ∈ [1, 1], n = 2 := by
    rw [← hlengths]
    intro n hn
    obtain ⟨hit, hhit, rfl⟩ := List.mem_map.1 hn
    exact hall hit hhit
  exact absurd (hones 1 (by decide)) (by decide)

end TriggerChain
