import Mathlib.Data.List.Chain
import TriggerChain.Proofs.Charge.LongestTrack

/-!
# Hits on one channel of the longest track

A hit on the channel of the hit before it joins the track if the two begin close enough. The hit
before it is the one that came before it on the channel, whether this one has joined the track or
not. So two hits that are neighbours in the track may begin further apart than the window allows:
where the hits between them were left out, only the last of these is close to the later hit.

Main statements: `same_channel_hits_join_the_one_before`, and `left_out_hit_lets_a_later_one_in`
for a track that does not keep to its window.
-/

namespace TriggerChain

namespace ProfileTest

variable {t : ProfileTest} {hits : List TrackHit} {a b : TrackHit} {between : List TrackHit}

/-- Whether two hits on one channel begin close enough to belong to one track. -/
def IsClose (t : ProfileTest) (a b : TrackHit) : Prop :=
  b.timeStart.distance a.timeStart < t.sameChannelWindow

instance (t : ProfileTest) (a b : TrackHit) : Decidable (t.IsClose a b) :=
  inferInstanceAs (Decidable (_ < _))

/-! ## Neighbours on a channel -/

/-- Of the hits on a channel, two that the track keeps with nothing kept between them. Each hit
    between them is too far from the one before it; the later of the two is close to the last hit
    before it. -/
structure KeptNext (t : ProfileTest) (hits : List TrackHit) (a b : TrackHit)
    (between : List TrackHit) : Prop where
  place : a :: between ++ [b] <:+: hits
  far : (a :: between).IsChain fun e e' => ¬t.IsClose e e'
  close : ∀ last ∈ (a :: between).getLast?, t.IsClose last b

theorem KeptNext.isClose (h : t.KeptNext hits a b []) : t.IsClose a b := h.close a (by simp)

/-- Where the hits come in the order of time, what is behind a hit that was left out is at least as
    far away as this one. -/
theorem KeptNext.isClose_iff (h : t.KeptNext hits a b between)
    (hchron : hits.Pairwise fun e e' => e.timeStart ≤ e'.timeStart) :
    t.IsClose a b ↔ between = [] := by
  cases between with
  | nil => simp [h.isClose]
  | cons e rest =>
    have hpart := hchron.sublist h.place.sublist
    simp only [List.cons_append, List.pairwise_cons, List.mem_cons, List.mem_append] at hpart
    obtain ⟨ha, he, -⟩ := hpart
    have hae := Int64.le_iff_toInt_le.1 (ha e (by simp))
    have heb := Int64.le_iff_toInt_le.1 (he b (by simp))
    have hfar := (List.isChain_cons_cons.1 h.far).1
    simp only [IsClose, Ticks.distance] at hfar ⊢
    simp only [reduceCtorEq, iff_false]
    omega

/-- On a channel no hit is close to one that is too far from the one before it. -/
def Settles (t : ProfileTest) (hits : List TrackHit) : Prop :=
  ∀ e e' e'', [e, e', e''] <:+: hits → ¬t.IsClose e e' → ¬t.IsClose e' e''

theorem KeptNext.eq_nil (h : t.KeptNext hits a b between) (hsettles : t.Settles hits) :
    between = [] := by
  rcases List.eq_nil_or_concat' between with hnil | ⟨middle, last, rfl⟩
  · exact hnil
  · exfalso
    -- The last hit that was left out stands between the one before it and the later of the two.
    rcases List.eq_nil_or_concat' (a :: middle) with hnil | ⟨front, before, hfront⟩
    · cases hnil
    · have hsplit : a :: (middle ++ [last]) = front ++ [before, last] := by
        rw [← List.cons_append, hfront, List.append_assoc]
        rfl
      have hplace := h.place
      have hfar := h.far
      rw [hsplit] at hplace hfar
      have hthree : [before, last, b] <:+: hits := by
        refine List.IsInfix.trans ⟨front, [], ?_⟩ hplace
        simp
      have hleft : ¬t.IsClose before last :=
        List.isChain_pair.1 (List.isChain_append.1 hfar).2.1
      have hlast : (a :: (middle ++ [last])).getLast? = some last := by
        rw [← List.cons_append, List.getLast?_concat]
      exact hsettles before last b hthree hleft (h.close last hlast)

/-! ## What is kept -/

/-- Neighbours among the hits that are kept, from one of them on. The hits between this one and
    the hit that is looked at next have been left out. -/
theorem isChain_keptAfter (t : ProfileTest) {before skipped rest : List TrackHit}
    {previous : TrackHit} (hlast : (a :: skipped).getLast? = some previous)
    (hfar : (a :: skipped).IsChain fun e e' => ¬t.IsClose e e') :
    (a :: t.keptAfter previous rest).IsChain fun x y =>
      ∃ between, t.KeptNext (before ++ (a :: skipped ++ rest)) x y between := by
  induction rest generalizing before skipped a previous with
  | nil => simp [keptAfter]
  | cons hit rest ih =>
    by_cases hclose : t.IsClose previous hit
    · -- The hit is kept, and nothing is left out behind it yet.
      have hkept : t.keptAfter previous (hit :: rest) = hit :: t.keptAfter hit rest := if_pos hclose
      have hlist : before ++ (a :: skipped ++ hit :: rest) =
          before ++ (a :: skipped) ++ ([hit] ++ rest) := by simp
      rw [hkept, List.isChain_cons_cons, hlist]
      refine ⟨⟨skipped, ?_, hfar, ?_⟩, ih rfl (List.isChain_singleton hit)⟩
      · exact ⟨before, rest, by simp⟩
      · intro last hmem
        rw [hlast] at hmem
        obtain rfl := Option.some.inj hmem
        exact hclose
    · have hkept : t.keptAfter previous (hit :: rest) = t.keptAfter hit rest := if_neg hclose
      have hfar' : (a :: (skipped ++ [hit])).IsChain fun e e' => ¬t.IsClose e e' := by
        rw [← List.cons_append, List.isChain_append]
        refine ⟨hfar, List.isChain_singleton hit, ?_⟩
        intro last hmem next hnext
        rw [hlast] at hmem
        obtain rfl := Option.some.inj hmem
        obtain rfl : hit = next := by simpa using hnext
        exact hclose
      have hlist : a :: (skipped ++ [hit]) ++ rest = a :: skipped ++ hit :: rest := by simp
      have hlast' : (a :: (skipped ++ [hit])).getLast? = some hit := by
        rw [← List.cons_append, List.getLast?_concat]
      rw [hkept, ← hlist]
      exact ih hlast' hfar'

theorem isChain_kept (t : ProfileTest) (hits : List TrackHit) :
    (t.kept hits).IsChain fun a b => ∃ between, t.KeptNext hits a b between := by
  cases hits with
  | nil => simp [kept]
  | cons first rest =>
    have hchain : (first :: t.keptAfter first rest).IsChain fun a b =>
        ∃ between, t.KeptNext ([] ++ ([first] ++ rest)) a b between :=
      t.isChain_keptAfter rfl (List.isChain_singleton first)
    exact hchain

/-- Neighbours along a segment are on different channels, or they are neighbours on one. -/
theorem isChain_trackAlong (t : ProfileTest) (hits : List TrackHit) {seg : List Channel}
    (hlt : seg.Pairwise (· < ·)) :
    (t.trackAlong hits seg).IsChain fun a b => a.channel = b.channel →
      ∃ between, t.KeptNext (onChannel hits a.channel) a b between := by
  induction seg with
  | nil => simp
  | cons c seg ih =>
    obtain ⟨hc, hseg⟩ := List.pairwise_cons.1 hlt
    have hchannel : ∀ hit ∈ t.kept (onChannel hits c), hit.channel = c :=
      fun hit hhit => (mem_onChannel.1 ((t.kept_sublist _).subset hhit)).2
    rw [trackAlong_cons, List.isChain_append]
    refine ⟨?_, ih hseg, ?_⟩
    · apply (t.isChain_kept (onChannel hits c)).imp_of_mem_imp
      intro a b ha _ hnext _
      rwa [hchannel a ha]
    · -- The next channel of the segment is higher.
      intro a ha b hb hsame
      have hlow := hchannel a (List.mem_of_getLast? ha)
      have hhigh := hc b.channel (mem_trackAlong (List.mem_of_head? hb)).2
      rw [← hlow, hsame] at hhigh
      exact absurd hhigh (UInt32.lt_irrefl _)

/-! ## The track -/

/-- How neighbouring hits of the longest track lie on one channel, by the hits of the channel in the
    order in which they came. -/
structure MergesSameChannel (t : ProfileTest) (ps : List Primitive) : Prop where
  /-- The later of the two is close to the hit that came before it on the channel. -/
  neighbours : (t.longestTrack ps).1.IsChain fun a b => a.channel = b.channel →
    ∃ between, t.KeptNext (onChannel (ps.map TrackHit.ofPrimitive) a.channel) a b between
  /-- If no hit is close to one that is too far from the one before it, the two are close. -/
  settled : (∀ c, t.Settles (onChannel (ps.map TrackHit.ofPrimitive) c)) →
    (t.longestTrack ps).1.IsChain fun a b => a.channel = b.channel → t.IsClose a b
  /-- If the hits come in the order of time, the two are close exactly if no hit came between
      them. -/
  inTime : (∀ c, (onChannel (ps.map TrackHit.ofPrimitive) c).Pairwise
      fun e e' => e.timeStart ≤ e'.timeStart) →
    (t.longestTrack ps).1.IsChain fun a b => a.channel = b.channel →
      ∃ between, t.KeptNext (onChannel (ps.map TrackHit.ofPrimitive) a.channel) a b between ∧
        (t.IsClose a b ↔ between = [])

theorem isChain_longestTrack (t : ProfileTest) (ps : List Primitive) :
    (t.longestTrack ps).1.IsChain fun a b => a.channel = b.channel →
      ∃ between, t.KeptNext (onChannel (ps.map TrackHit.ofPrimitive) a.channel) a b between := by
  rcases t.longestTrack_eq_nil_or_trackAlong ps with hnone | ⟨seg, hpart, htrack⟩
  · rw [hnone]
    exact List.isChain_nil
  · rw [htrack]
    exact t.isChain_trackAlong _ ((pairwise_distinctAscending _).sublist hpart)

end ProfileTest

/-- Every test and every list of primitives, in any order of time: a hit joins the longest track by
    the hit that came before it on its channel, kept or not. -/
theorem same_channel_hits_join_the_one_before (t : ProfileTest) (ps : List Primitive) :
    t.MergesSameChannel ps := by
  have hneighbours := t.isChain_longestTrack ps
  refine ⟨hneighbours, ?_, ?_⟩
  · intro hsettles
    apply hneighbours.imp
    intro a b hnext hsame
    obtain ⟨between, hkept⟩ := hnext hsame
    have hnone := hkept.eq_nil (hsettles a.channel)
    subst hnone
    exact hkept.isClose
  · intro hchron
    apply hneighbours.imp
    intro a b hnext hsame
    obtain ⟨between, hkept⟩ := hnext hsame
    exact ⟨between, hkept, hkept.isClose_iff (hchron a.channel)⟩

/-- Three hits on a channel, the second far from the first and close to the third, and a hit on the
    next channel. -/
def strayHit : List Primitive := [.hit 5 0 10, .hit 5 500 10, .hit 5 600 10, .hit 6 0 10]

/-- The second hit is left out. The third joins the track, six hundred ticks behind the first. -/
theorem left_out_hit_lets_a_later_one_in :
    (({} : ProfileTest).longestTrack strayHit).1.map (fun hit => (hit.channel, hit.timeStart)) =
      [(5, 0), (5, 600), (6, 0)] ∧
    ¬∀ (t : ProfileTest) (ps : List Primitive),
      (t.longestTrack ps).1.IsChain fun a b => a.channel = b.channel → t.IsClose a b := by
  have hsorted : (strayHit.map TrackHit.ofPrimitive).Pairwise
      fun a b => decide (a.channel ≤ b.channel) = true := by decide
  have htrack : (({} : ProfileTest).longestTrack strayHit).1 =
      [⟨5, 0, 10⟩, ⟨5, 600, 10⟩, ⟨6, 0, 10⟩] := by
    rw [ProfileTest.longestTrack, ProfileTest.hitsInOrder, List.mergeSort_of_pairwise hsorted]
    decide
  refine ⟨by rw [htrack]; rfl, ?_⟩
  intro hwindow
  have hchain := hwindow {} strayHit
  rw [htrack, List.isChain_cons_cons] at hchain
  exact absurd (hchain.1 rfl) (by decide)

end TriggerChain
