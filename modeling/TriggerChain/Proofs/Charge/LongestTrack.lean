import Mathlib.Data.List.Perm.Subperm
import TriggerChain.Proofs.Charge.Collected

/-!
# The longest track

The longest track holds the hits that are kept along the first longest segment of the channels:
they are a part of the hits in channel order, on the channels of this segment and no others, and
begin on each of them with the first hit. So as long as the count is not cut off the track has as
many channels as the walk has counted.

Main statements: `ProfileTest.longestTrack_sublist`, `ProfileTest.distinctChannels_longestTrack` and
`track_follows_longest_run`.
-/

namespace TriggerChain

/-- The number of distinct channels of some hits. -/
def distinctChannels (hits : List TrackHit) : Nat := (hits.map (·.channel)).dedup.length

theorem distinctChannels_eq_zero {hits : List TrackHit} :
    distinctChannels hits = 0 ↔ hits = [] := by
  constructor
  · intro h
    have hnil := List.length_eq_zero_iff.1 h
    rw [List.dedup_eq_nil] at hnil
    simpa using hnil
  · rintro rfl
    simp [distinctChannels]

namespace ProfileTest

/-! ## What is kept along a segment -/

/-- Every hit that is kept along a segment is on one of its channels. -/
theorem mem_trackAlong {t : ProfileTest} {hits : List TrackHit} {seg : List Channel}
    {hit : TrackHit} (h : hit ∈ t.trackAlong hits seg) : hit ∈ hits ∧ hit.channel ∈ seg := by
  obtain ⟨c, hc, hmem⟩ := List.mem_flatMap.1 h
  obtain ⟨hhits, rfl⟩ := mem_onChannel.1 ((t.kept_sublist _).subset hmem)
  exact ⟨hhits, hc⟩

/-- What is kept along a segment on one of its channels. -/
theorem onChannel_trackAlong (t : ProfileTest) (hits : List TrackHit) {seg : List Channel}
    (hnodup : seg.Nodup) {c : Channel} (hc : c ∈ seg) :
    onChannel (t.trackAlong hits seg) c = t.kept (onChannel hits c) := by
  obtain ⟨earlier, later, rfl⟩ := List.append_of_mem hc
  have hnone : ∀ other : List Channel, c ∉ other → onChannel (t.trackAlong hits other) c = [] := by
    intro other hother
    apply onChannel_eq_nil
    intro hmem
    obtain ⟨hit, hhit, rfl⟩ := List.mem_map.1 hmem
    exact hother (mem_trackAlong hhit).2
  have hall : onChannel (t.kept (onChannel hits c)) c = t.kept (onChannel hits c) := by
    apply List.filter_eq_self.2
    intro hit hhit
    simpa using (mem_onChannel.1 ((t.kept_sublist _).subset hhit)).2
  obtain ⟨-, hlater, hdisjoint⟩ := List.nodup_append.1 hnodup
  have hearlier : c ∉ earlier := fun hmem => hdisjoint c hmem c List.mem_cons_self rfl
  have hsplit : t.trackAlong hits (earlier ++ c :: later) =
      t.trackAlong hits earlier ++ (t.kept (onChannel hits c) ++ t.trackAlong hits later) := by
    simp [trackAlong]
  rw [hsplit]
  unfold onChannel at hnone hall ⊢
  rw [List.filter_append, List.filter_append, hnone earlier hearlier, hall,
    hnone later (List.nodup_cons.1 hlater).1]
  simp

/-- On each channel of a segment the first hit is kept. -/
theorem find?_trackAlong (t : ProfileTest) (hits : List TrackHit) {seg : List Channel}
    (hnodup : seg.Nodup) {c : Channel} (hc : c ∈ seg) :
    (t.trackAlong hits seg).find? (fun hit => decide (hit.channel = c)) =
      hits.find? fun hit => decide (hit.channel = c) := by
  have hhead := congrArg List.head? (t.onChannel_trackAlong hits hnodup hc)
  simpa [onChannel, List.head?_filter] using hhead

/-- What is kept along a segment is on all of its channels that are hit at all. -/
theorem mem_channels_trackAlong (t : ProfileTest) {hits : List TrackHit} {seg : List Channel}
    (hnodup : seg.Nodup) (hhit : ∀ c ∈ seg, c ∈ hits.map (·.channel)) {c : Channel} :
    c ∈ (t.trackAlong hits seg).map (·.channel) ↔ c ∈ seg := by
  constructor
  · intro h
    obtain ⟨hit, hmem, rfl⟩ := List.mem_map.1 h
    exact (mem_trackAlong hmem).2
  · intro hc
    have hfind := t.find?_trackAlong hits hnodup hc
    obtain ⟨hit, hmem, rfl⟩ := List.mem_map.1 (hhit c hc)
    cases hfirst : hits.find? fun hit' => decide (hit'.channel = hit.channel) with
    | none => simpa using List.find?_eq_none.1 hfirst hit hmem
    | some first =>
      rw [hfirst] at hfind
      have hchannel : first.channel = hit.channel := by simpa using List.find?_some hfind
      rw [← hchannel]
      exact List.mem_map_of_mem (List.mem_of_find?_eq_some hfind)

theorem distinctChannels_trackAlong (t : ProfileTest) {hits : List TrackHit} {seg : List Channel}
    (hnodup : seg.Nodup) (hhit : ∀ c ∈ seg, c ∈ hits.map (·.channel)) :
    distinctChannels (t.trackAlong hits seg) = seg.length := by
  apply List.Perm.length_eq
  rw [List.perm_ext_iff_of_nodup (List.nodup_dedup _) hnodup]
  intro c
  rw [List.mem_dedup, t.mem_channels_trackAlong hnodup hhit]

/-! ## A part of the hits in channel order -/

theorem flatMap_onChannel_sublist {hits : List TrackHit} {seg : List Channel}
    (hsorted : (hits.map (·.channel)).Pairwise (· ≤ ·)) (hlt : seg.Pairwise (· < ·)) :
    (seg.flatMap (onChannel hits)).Sublist hits := by
  induction hits generalizing seg with
  | nil => simp [onChannel]
  | cons hit rest ih =>
    have hrest : (rest.map (·.channel)).Pairwise (· ≤ ·) := (List.pairwise_cons.1 hsorted).2
    have hother : ∀ part : List Channel, hit.channel ∉ part →
        part.flatMap (onChannel (hit :: rest)) = part.flatMap (onChannel rest) := by
      intro part hpart
      apply List.flatMap_congr
      intro c hc
      apply onChannel_cons_ne
      rintro rfl
      exact hpart hc
    by_cases hmem : hit.channel ∈ seg
    · obtain ⟨low, high, rfl⟩ := List.append_of_mem hmem
      obtain ⟨-, hhigh, hbelow⟩ := List.pairwise_append.1 hlt
      -- Nothing is left on the channels below the first hit.
      have hlow : low.flatMap (onChannel (hit :: rest)) = [] := by
        rw [List.flatMap_eq_nil_iff]
        intro c hc
        apply onChannel_eq_nil
        exact Scanner.notMem_of_lt_first hsorted (hbelow c hc hit.channel List.mem_cons_self)
      have hnot : hit.channel ∉ high := by
        intro hin
        exact UInt32.lt_irrefl _ ((List.pairwise_cons.1 hhigh).1 hit.channel hin)
      rw [List.flatMap_append, hlow, List.nil_append, List.flatMap_cons, onChannel_cons_self,
        hother high hnot, List.cons_append, ← List.flatMap_cons]
      exact (ih hrest hhigh).cons_cons hit
    · rw [hother seg hmem]
      exact (ih hrest hlt).cons hit

theorem trackAlong_sublist (t : ProfileTest) {hits : List TrackHit} {seg : List Channel}
    (hsorted : (hits.map (·.channel)).Pairwise (· ≤ ·)) (hlt : seg.Pairwise (· < ·)) :
    (t.trackAlong hits seg).Sublist hits := by
  have hpart : (t.trackAlong hits seg).Sublist (seg.flatMap (onChannel hits)) := by
    clear hlt
    induction seg with
    | nil => simp
    | cons c seg ih =>
      rw [trackAlong_cons, List.flatMap_cons]
      exact (t.kept_sublist _).append ih
  exact hpart.trans (flatMap_onChannel_sublist hsorted hlt)

/-! ## The largest collection -/

/-- Nothing but what is offered is taken. -/
theorem foldl_largerOf_mem (best : Nat × List TrackHit) (runs : List (Nat × List TrackHit)) :
    runs.foldl largerOf best ∈ best :: runs := by
  induction runs generalizing best with
  | nil => simp
  | cons run runs ih =>
    have hone : largerOf best run = best ∨ largerOf best run = run := by
      unfold largerOf
      split <;> simp
    have hnext := ih (largerOf best run)
    rw [List.foldl_cons]
    rcases hone with hone | hone
    · rw [hone] at hnext ⊢
      simp only [List.mem_cons] at hnext ⊢
      tauto
    · rw [hone] at hnext ⊢
      exact List.mem_cons_of_mem best hnext

/-- The greatest count is found. -/
theorem fst_foldl_largerOf (best : Nat × List TrackHit) (runs : List (Nat × List TrackHit)) :
    (runs.foldl largerOf best).1 = (runs.map (·.1)).foldl max best.1 := by
  induction runs generalizing best with
  | nil => simp
  | cons run runs ih =>
    have hone : (largerOf best run).1 = max best.1 run.1 := by
      unfold largerOf
      split <;> omega
    rw [List.foldl_cons, ih, hone, List.map_cons, List.foldl_cons]

/-- What counts no more than the best is not taken. -/
theorem foldl_largerOf_of_le {best : Nat × List TrackHit} {runs : List (Nat × List TrackHit)}
    (h : ∀ run ∈ runs, run.1 ≤ best.1) : runs.foldl largerOf best = best := by
  induction runs with
  | nil => simp
  | cons run runs ih =>
    have hrun := h run List.mem_cons_self
    have hone : largerOf best run = best := if_neg (by omega)
    rw [List.foldl_cons, hone]
    exact ih fun other hother => h other (List.mem_cons_of_mem run hother)

/-- What counts more than all before it and no less than all behind it is taken. -/
theorem foldl_largerOf_first {best run : Nat × List TrackHit}
    {earlier later : List (Nat × List TrackHit)} (hbest : best.1 < run.1)
    (hearlier : ∀ other ∈ earlier, other.1 < run.1) (hlater : ∀ other ∈ later, other.1 ≤ run.1) :
    (earlier ++ run :: later).foldl largerOf best = run := by
  have hbefore : (earlier.foldl largerOf best).1 < run.1 := by
    rcases List.mem_cons.1 (foldl_largerOf_mem best earlier) with heq | hmem
    · rw [heq]
      exact hbest
    · exact hearlier _ hmem
  have hone : largerOf (earlier.foldl largerOf best) run = run := if_pos hbefore
  rw [List.foldl_append, List.foldl_cons, hone]
  exact foldl_largerOf_of_le hlater

/-! ## The longest track -/

/-- The search counts what the scanner counts. -/
theorem longestTrack_count (t : ProfileTest) (ps : List Primitive) :
    (t.longestTrack ps).2 = t.scanner.longestRun (ps.map (·.channel)) := by
  by_cases hfew : (distinctAscending (ps.map (·.channel))).length ≤ 1
  · rw [t.longestTrack_of_few hfew, t.scanner.longestRun_of_few hfew]
  · have hfound := congrArg Prod.fst (t.longestTrack_eq (Nat.lt_of_not_le hfew))
    rw [fst_foldl_largerOf, List.map_map] at hfound
    rw [Scanner.longestRun_eq, if_neg hfew]
    exact hfound

/-- There is no track, or it is what is kept along a part of the channels. -/
theorem longestTrack_eq_nil_or_trackAlong (t : ProfileTest) (ps : List Primitive) :
    (t.longestTrack ps).1 = [] ∨ ∃ seg, seg.Sublist (distinctAscending (ps.map (·.channel))) ∧
      (t.longestTrack ps).1 = t.trackAlong (ps.map TrackHit.ofPrimitive) seg := by
  by_cases hfew : (distinctAscending (ps.map (·.channel))).length ≤ 1
  · simp [t.longestTrack_of_few hfew]
  · have hfound := t.longestTrack_eq (Nat.lt_of_not_le hfew)
    have hmem := foldl_largerOf_mem (0, []) ((t.scanner.segmentsOf
      (distinctAscending (ps.map (·.channel)))).map (t.collected (ps.map TrackHit.ofPrimitive)))
    rw [← hfound, List.mem_cons] at hmem
    rcases hmem with hnone | hmem
    · exact .inl (Prod.mk.inj hnone).2
    · obtain ⟨seg, hseg, hcollected⟩ := List.mem_map.1 hmem
      have hpart := ((t.scanner.isCutting_distinctAscending _).isInfix hseg).sublist
      exact .inr ⟨seg, hpart, (Prod.mk.inj hcollected).2.symm⟩

/-- The hits of the track are hits of the primitives, in channel order. -/
theorem longestTrack_sublist (t : ProfileTest) (ps : List Primitive) :
    (t.longestTrack ps).1.Sublist (hitsInOrder ps) := by
  rcases t.longestTrack_eq_nil_or_trackAlong ps with hnone | ⟨seg, hpart, htrack⟩
  · rw [hnone]
    exact List.nil_sublist _
  · have hlt := pairwise_distinctAscending (ps.map (·.channel))
    have hsame : t.trackAlong (ps.map TrackHit.ofPrimitive) seg =
        t.trackAlong (hitsInOrder ps) seg := by
      simp [trackAlong, onChannel_hitsInOrder]
    rw [htrack, hsame]
    exact t.trackAlong_sublist (sorted_hitsInOrder ps) (hlt.sublist hpart)

theorem longestTrack_subperm (t : ProfileTest) (ps : List Primitive) :
    (t.longestTrack ps).1.Subperm (ps.map TrackHit.ofPrimitive) :=
  (t.longestTrack_sublist ps).subperm.trans (hitsInOrder_perm ps).subperm

variable {ps : List Primitive} {seg : List Channel}

/-- The segments of the channels are counted to their ends, if there are few enough channels. -/
theorem counted_of_segment {s : Scanner} {segs : List (List Channel)}
    (hcount : (ps.map (·.channel)).dedup.length ≤ maxRunLength)
    (h : s.IsCutting (distinctAscending (ps.map (·.channel))) segs) (hseg : seg ∈ segs) :
    Scanner.counted seg = seg.length := by
  have hlength := (h.isInfix hseg).length_le
  rw [length_distinctAscending] at hlength
  exact Nat.min_eq_left (Nat.le_trans hlength hcount)

@[simp] theorem channels_ofPrimitive (ps : List Primitive) :
    (ps.map TrackHit.ofPrimitive).map (·.channel) = ps.map (·.channel) := by
  rw [List.map_map]
  rfl

/-- The channels of a segment differ, and each of them is hit. -/
theorem channels_of_segment {s : Scanner} {segs : List (List Channel)}
    (h : s.IsCutting (distinctAscending (ps.map (·.channel))) segs) (hseg : seg ∈ segs) :
    seg.Nodup ∧ ∀ c ∈ seg, c ∈ ps.map (·.channel) := by
  have hpart := (h.isInfix hseg).sublist
  have hlt := (pairwise_distinctAscending (ps.map (·.channel))).sublist hpart
  refine ⟨hlt.imp fun hab => UInt32.ne_of_lt hab, ?_⟩
  intro c hc
  exact mem_distinctAscending.1 (hpart.subset hc)

/-- As long as the count is not cut off, the track is what is kept along the first longest
    segment. -/
theorem longestTrack_eq_trackAlong (t : ProfileTest)
    (hcount : (ps.map (·.channel)).dedup.length ≤ maxRunLength)
    (hmany : 1 < (distinctAscending (ps.map (·.channel))).length)
    (hseg : Scanner.IsFirstLongest
      (t.scanner.segmentsOf (distinctAscending (ps.map (·.channel)))) seg) :
    t.longestTrack ps = (t.trackAlong (ps.map TrackHit.ofPrimitive) seg, seg.length) := by
  have hcutting := t.scanner.isCutting_distinctAscending (ps.map (·.channel))
  have hpos := List.length_pos_iff.2 (hcutting.nonempty seg hseg.mem)
  have hcounted : ∀ other ∈ t.scanner.segmentsOf (distinctAscending (ps.map (·.channel))),
      (t.collected (ps.map TrackHit.ofPrimitive) other).1 = other.length :=
    fun other hother => counted_of_segment hcount hcutting hother
  have hfound := t.longestTrack_eq hmany
  obtain ⟨earlier, later, hsegs, hearlier, hlater⟩ := hseg
  rw [hsegs] at hcounted hfound
  have hseg' := hcounted seg (by simp)
  rw [List.map_append, List.map_cons, foldl_largerOf_first] at hfound
  · obtain ⟨hlength, htrack⟩ := Prod.mk.inj hfound
    exact Prod.ext htrack (hlength.trans hseg')
  · rw [hseg']
    exact hpos
  · intro run hrun
    obtain ⟨other, hother, rfl⟩ := List.mem_map.1 hrun
    rw [hcounted other (by simp [hother]), hseg']
    exact hearlier other hother
  · intro run hrun
    obtain ⟨other, hother, rfl⟩ := List.mem_map.1 hrun
    rw [hcounted other (by simp [hother]), hseg']
    exact hlater other hother

/-- The track has as many channels as the longest run of the channels of the primitives, unless
    there are more channels than can be counted. -/
theorem distinctChannels_longestTrack (t : ProfileTest)
    (hcount : (ps.map (·.channel)).dedup.length ≤ maxRunLength) :
    distinctChannels (t.longestTrack ps).1 = t.scanner.longestRun (ps.map (·.channel)) := by
  rw [← longestTrack_count]
  by_cases hfew : (distinctAscending (ps.map (·.channel))).length ≤ 1
  · simp [t.longestTrack_of_few hfew, distinctChannels]
  · have hmany := Nat.lt_of_not_le hfew
    obtain ⟨seg, hseg, -⟩ := t.scanner.exists_longest_segment hmany
    have hcutting := t.scanner.isCutting_distinctAscending (ps.map (·.channel))
    obtain ⟨hnodup, hhit⟩ := channels_of_segment hcutting hseg.mem
    rw [t.longestTrack_eq_trackAlong hcount hmany hseg]
    exact t.distinctChannels_trackAlong hnodup (by rwa [channels_ofPrimitive])

/-! ## The track and the walk -/

/-- The longest track follows the longest run of the walk around the channels. -/
structure FollowsRun (t : ProfileTest) (ps : List Primitive) : Prop where
  /-- What is counted is the longest run of the channels. -/
  adjacency : (t.longestTrack ps).2 = t.scanner.longestRun (ps.map (·.channel))
  /-- The track is a part of the hits in channel order. -/
  part : (t.longestTrack ps).1.Sublist (hitsInOrder ps)
  /-- It is made of what is kept along the first longest run of the walk: it is on all the channels
      of this run and on no others, and begins on each of them with the first hit. -/
  run : 2 ≤ (ps.map (·.channel)).dedup.length →
    ∃ segs seg, t.scanner.IsCutting (distinctAscending (ps.map (·.channel))) segs ∧
      endedRuns (t.scanner.walk ((ps.map (·.channel)).mergeSort fun a b => decide (a ≤ b))) =
        segs.map List.length ∧
      Scanner.IsFirstLongest segs seg ∧
      (t.longestTrack ps).1 = t.trackAlong (ps.map TrackHit.ofPrimitive) seg ∧
      (∀ c, c ∈ (t.longestTrack ps).1.map (·.channel) ↔ c ∈ seg) ∧
      ∀ c ∈ seg, ∃ p, ps.find? (fun p => decide (p.channel = c)) = some p ∧
        (t.longestTrack ps).1.find? (fun hit => decide (hit.channel = c)) =
          some (TrackHit.ofPrimitive p)
  /-- It has as many channels as are counted. -/
  count : distinctChannels (t.longestTrack ps).1 = (t.longestTrack ps).2
  /-- There is no track exactly if nothing is counted. -/
  empty : (t.longestTrack ps).1 = [] ↔ (t.longestTrack ps).2 = 0
  /-- Nothing is counted exactly if there are fewer than two channels. -/
  few : (t.longestTrack ps).2 = 0 ↔ (ps.map (·.channel)).dedup.length < 2

end ProfileTest

theorem track_follows_longest_run (t : ProfileTest) {ps : List Primitive}
    (hcount : (ps.map (·.channel)).dedup.length < 65536) : t.FollowsRun ps := by
  have hcount' : (ps.map (·.channel)).dedup.length ≤ maxRunLength := Nat.le_of_lt_succ hcount
  have hlength := length_distinctAscending (ps.map (·.channel))
  have hdistinct : distinctChannels (t.longestTrack ps).1 = (t.longestTrack ps).2 := by
    rw [t.distinctChannels_longestTrack hcount', t.longestTrack_count]
  apply ProfileTest.FollowsRun.mk
  · exact t.longestTrack_count ps
  · exact t.longestTrack_sublist ps
  · intro htwo
    have hmany : 1 < (distinctAscending (ps.map (·.channel))).length := by omega
    have hcutting := t.scanner.isCutting_distinctAscending (ps.map (·.channel))
    obtain ⟨seg, hseg, -⟩ := t.scanner.exists_longest_segment hmany
    obtain ⟨hnodup, hhit⟩ := ProfileTest.channels_of_segment hcutting hseg.mem
    have htrack := t.longestTrack_eq_trackAlong hcount' hmany hseg
    refine ⟨_, seg, hcutting, ?_, hseg, ?_, ?_, ?_⟩
    · rw [t.scanner.endedRuns_walk hmany]
      apply List.map_congr_left
      intro other hother
      exact ProfileTest.counted_of_segment hcount' hcutting hother
    · rw [htrack]
    · intro c
      rw [htrack, t.mem_channels_trackAlong hnodup (by rwa [ProfileTest.channels_ofPrimitive])]
    · intro c hc
      obtain ⟨p, hp, rfl⟩ := List.mem_map.1 (hhit c hc)
      cases hfirst : ps.find? fun q => decide (q.channel = p.channel) with
      | none => simpa using List.find?_eq_none.1 hfirst p hp
      | some first =>
        refine ⟨first, rfl, ?_⟩
        rw [htrack, t.find?_trackAlong _ hnodup hc, List.find?_map, Option.map_eq_some_iff]
        exact ⟨first, hfirst, rfl⟩
  · exact hdistinct
  · rw [← distinctChannels_eq_zero, hdistinct]
  · rw [t.longestTrack_count, t.scanner.longestRun_eq_zero_iff]
    omega

/-- Hits on two neighbouring channels and on one far away. -/
def neighbouringHits : List Primitive :=
  [Primitive.hit 5 100 7, Primitive.hit 4 110 3, Primitive.hit 5 150 2, Primitive.hit 40 160 1]

theorem track_follows_neighbouring_hits :
    (neighbouringHits.map (·.channel)).dedup.length < 65536 ∧
      ProfileTest.FollowsRun {} neighbouringHits :=
  ⟨by decide, track_follows_longest_run {} (by decide)⟩

end TriggerChain
