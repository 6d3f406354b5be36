import TriggerChain.Proofs.Charge.Collected

/-!
# Charge profiles and how channels are interleaved

The search for the longest track sees the hits in channel order, and in nothing else does it look at
the primitives. That order is determined by what arrives on each channel, so it does not matter how
the channels take turns.

Main statement: `profile_ignores_interleaving`.
-/

namespace TriggerChain

namespace ProfileTest

/-- The hits on a channel are those of the primitives on it. -/
theorem onChannel_map_ofPrimitive (ps : List Primitive) (c : Channel) :
    onChannel (ps.map TrackHit.ofPrimitive) c =
      (underKey Primitive.channel c ps).map TrackHit.ofPrimitive := by
  unfold onChannel underKey
  rw [List.filter_map]
  rfl

variable {ps qs : List Primitive}

theorem hitsInOrder_congr
    (h : ∀ c, underKey Primitive.channel c ps = underKey Primitive.channel c qs) :
    hitsInOrder ps = hitsInOrder qs := by
  apply eq_of_ascending (stablySorted_hitsInOrder ps).ascending
    (stablySorted_hitsInOrder qs).ascending
  intro c
  calc onChannel (hitsInOrder ps) c
    _ = (underKey Primitive.channel c ps).map TrackHit.ofPrimitive := by
      rw [onChannel_hitsInOrder, onChannel_map_ofPrimitive]
    _ = (underKey Primitive.channel c qs).map TrackHit.ofPrimitive := by rw [h c]
    _ = onChannel (hitsInOrder qs) c := by
      rw [onChannel_hitsInOrder, onChannel_map_ofPrimitive]

/-- The track and its length are read off the hits in channel order. -/
theorem longestTrack_congr (t : ProfileTest) (h : hitsInOrder ps = hitsInOrder qs) :
    t.longestTrack ps = t.longestTrack qs := by
  unfold longestTrack
  rw [h]

end ProfileTest

/-- A test finds the same profile among primitives that are the same on each channel, however the
    channels take turns: the track, its length, its means, their baseline, its clusters, the largest
    of them, and whether that lies at an end. -/
theorem profile_ignores_interleaving (t : ProfileTest) {ps qs : List Primitive}
    (h : ∀ c, underKey Primitive.channel c ps = underKey Primitive.channel c qs) :
    t.run ps = t.run qs := by
  have htrack := t.longestTrack_congr (ProfileTest.hitsInOrder_congr h)
  unfold ProfileTest.run
  rw [htrack]

/-- Hits on three channels; two are on the same channel, the later one first. -/
def turnsTaken : List Primitive :=
  [Primitive.hit 5 100 30, Primitive.hit 7 20 5, Primitive.hit 5 0 10, Primitive.hit 6 10 20]

/-- The same hits, channel by channel. -/
def oneByOne : List Primitive :=
  [Primitive.hit 6 10 20, Primitive.hit 5 100 30, Primitive.hit 5 0 10, Primitive.hit 7 20 5]

theorem turns_do_not_matter :
    (∀ c, underKey Primitive.channel c turnsTaken = underKey Primitive.channel c oneByOne) ∧
      ({} : ProfileTest).run turnsTaken = ({} : ProfileTest).run oneByOne := by
  have hsame : ∀ c,
      underKey Primitive.channel c turnsTaken = underKey Primitive.channel c oneByOne := by
    intro c
    by_cases h5 : c = 5
    · subst h5
      decide
    · by_cases h6 : c = 6
      · subst h6
        decide
      · have hother : (5 : Channel) ≠ c ∧ (6 : Channel) ≠ c := ⟨Ne.symm h5, Ne.symm h6⟩
        simp [underKey, turnsTaken, oneByOne, Primitive.hit, List.filter_cons, hother]
  exact ⟨hsame, profile_ignores_interleaving {} hsame⟩

end TriggerChain
