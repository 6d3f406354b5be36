import TriggerChain.Proofs.Record.Moved

/-!
# The longest track of primitives that move

The search for the longest track looks at the channels of the hits, and at the time between two
hits on one channel. If all hits move by the same offset it finds the same track, so the charge
along the track passes the same test.

Main statement: `ProfileTest.endPeaked_moved`.
-/

namespace TriggerChain

/-! ## Related lists -/

section Lists

variable {α β : Type} {R : α → β → Prop} {xs : List α} {ys : List β}

/-- Lists that are sorted by what is equal on both sides stay related. -/
theorem forall₂_mergeSort {le : α → α → Bool} {le' : β → β → Bool}
    (hle : ∀ a a' b b', R a b → R a' b' → le a a' = le' b b') (h : List.Forall₂ R xs ys) :
    List.Forall₂ R (xs.mergeSort le) (ys.mergeSort le') := by
  -- Both are the sides of one list of pairs, which is sorted once.
  have hxs : (xs.zip ys).map Prod.fst = xs := List.map_fst_zip (Nat.le_of_eq h.length_eq)
  have hys : (xs.zip ys).map Prod.snd = ys := List.map_snd_zip (Nat.le_of_eq h.length_eq.symm)
  have hpairs : ∀ z ∈ xs.zip ys, R z.1 z.2 := fun z hz => (List.forall₂_iff_zip.1 h).2 hz
  have hleft := List.map_mergeSort (r := fun z w => le z.1 w.1) (s := le) (f := Prod.fst)
    (l := xs.zip ys) fun _ _ _ _ => rfl
  have hright := List.map_mergeSort (r := fun z w => le z.1 w.1) (s := le') (f := Prod.snd)
    (l := xs.zip ys) fun z hz w hw => hle _ _ _ _ (hpairs z hz) (hpairs w hw)
  rw [hxs] at hleft
  rw [hys] at hright
  rw [← hleft, ← hright, List.forall₂_map_left_iff, List.forall₂_map_right_iff,
    List.forall₂_same]
  exact fun z hz => hpairs z (List.mem_mergeSort.1 hz)

theorem forall₂_zip {us : List α} {vs : List β} (h : List.Forall₂ R xs ys)
    (h' : List.Forall₂ R us vs) :
    List.Forall₂ (fun p q => R p.1 q.1 ∧ R p.2 q.2) (xs.zip us) (ys.zip vs) := by
  induction h generalizing us vs with
  | nil => exact .nil
  | cons hab _ ih =>
    cases h' with
    | nil => exact .nil
    | cons hcd h' => exact .cons ⟨hab, hcd⟩ (ih h')

theorem forall₂_cyclicSteps (h : List.Forall₂ R xs ys) :
    List.Forall₂ (fun p q => R p.1 q.1 ∧ R p.2 q.2) (cyclicSteps xs) (cyclicSteps ys) := by
  cases h with
  | nil => exact .nil
  | cons hab hrest => exact forall₂_zip (.cons hab hrest) (List.rel_append hrest (.cons hab .nil))

theorem forall₂_orSingleton {a : α} {b : β} (hab : R a b) (h : List.Forall₂ R xs ys) :
    List.Forall₂ R (if xs.isEmpty then [a] else xs) (if ys.isEmpty then [b] else ys) := by
  cases h with
  | nil => exact .cons hab .nil
  | cons hcd h => exact .cons hcd h

end Lists

/-! ## The search -/

variable {d : Int}

/-- A hit is another one, moved by `d`. -/
structure TrackHit.MovedBy (d : Int) (a b : TrackHit) : Prop where
  channel : a.channel = b.channel
  timeStart : Ticks.MovedBy d a.timeStart b.timeStart
  adc : a.adc = b.adc

/-- A search has come as far as another one, over hits that are moved by `d`. -/
structure TrackSearch.MovedBy (d : Int) (s t : TrackSearch) : Prop where
  walk : s.walk = t.walk
  current : List.Forall₂ (TrackHit.MovedBy d) s.current t.current
  longest : List.Forall₂ (TrackHit.MovedBy d) s.longest t.longest

/-- The distance between two moments does not move. -/
theorem Ticks.distance_moved {a a' b b' : Ticks} (ha : MovedBy d a a') (hb : MovedBy d b b') :
    a.distance b = a'.distance b' := by
  have ha' : a'.toInt = a.toInt + d := ha
  have hb' : b'.toInt = b.toInt + d := hb
  rw [distance, distance, ha', hb']
  omega

theorem hitsInOrder_moved {ps qs : List Primitive}
    (h : List.Forall₂ (Primitive.MovedBy d) ps qs) :
    List.Forall₂ (TrackHit.MovedBy d) (ProfileTest.hitsInOrder ps)
      (ProfileTest.hitsInOrder qs) := by
  refine forall₂_mergeSort ?_ ?_
  · intro a a' b b' hab hab'
    rw [hab.channel, hab'.channel]
  · rw [List.forall₂_map_left_iff, List.forall₂_map_right_iff]
    exact h.imp fun p q hpq => ⟨hpq.channel, hpq.timeStart, hpq.adcIntegral⟩

namespace ProfileTest

variable (t : ProfileTest)

theorem follow_moved {s s' : TrackSearch} (h : s.MovedBy d s') {p q : TrackHit × TrackHit}
    (hfirst : p.1.MovedBy d q.1) (hsecond : p.2.MovedBy d q.2) :
    (t.follow s p).MovedBy d (t.follow s' q) := by
  have hcurrent : List.Forall₂ (TrackHit.MovedBy d)
      (if s.current.isEmpty then [p.1] else s.current)
      (if s'.current.isEmpty then [q.1] else s'.current) :=
    forall₂_orSingleton hfirst h.current
  unfold follow
  dsimp only
  rw [h.walk, hfirst.channel, hsecond.channel,
    Ticks.distance_moved hsecond.timeStart hfirst.timeStart]
  -- What the step means is read off the channels, so it means the same on both sides.
  cases t.scanner.link s'.walk q.1.channel q.2.channel with
  | same =>
    dsimp only
    split
    · exact ⟨rfl, .cons hsecond hcurrent, h.longest⟩
    · exact ⟨rfl, hcurrent, h.longest⟩
  | adjacent => exact ⟨rfl, .cons hsecond hcurrent, h.longest⟩
  | bridged gap => exact ⟨rfl, .cons hsecond hcurrent, h.longest⟩
  | ends run longest =>
    cases longest with
    | true => exact ⟨rfl, .nil, hcurrent⟩
    | false => exact ⟨rfl, .nil, h.longest⟩

theorem longestTrack_moved {ps qs : List Primitive}
    (h : List.Forall₂ (Primitive.MovedBy d) ps qs) :
    List.Forall₂ (TrackHit.MovedBy d) (t.longestTrack ps).1 (t.longestTrack qs).1 := by
  have hsteps := forall₂_cyclicSteps (hitsInOrder_moved h)
  have hsearch : TrackSearch.MovedBy d ((cyclicSteps (hitsInOrder ps)).foldl t.follow {})
      ((cyclicSteps (hitsInOrder qs)).foldl t.follow {}) := by
    refine List.rel_foldl ?_ (⟨rfl, .nil, .nil⟩ : TrackSearch.MovedBy d {} {}) hsteps
    rintro s s' hs p q ⟨hfirst, hsecond⟩
    exact t.follow_moved hs hfirst hsecond
  exact List.rel_reverse hsearch.longest

theorem endPeaked_moved {ps qs : List Primitive}
    (h : List.Forall₂ (Primitive.MovedBy d) ps qs) :
    (t.run ps).endPeaked = (t.run qs).endPeaked := by
  have hadc : (t.longestTrack ps).1.map (·.adc) = (t.longestTrack qs).1.map (·.adc) :=
    forall₂_map_eq (fun _ _ hab => hab.adc) (t.longestTrack_moved h)
  unfold run
  dsimp only
  rw [hadc]

end ProfileTest

end TriggerChain
