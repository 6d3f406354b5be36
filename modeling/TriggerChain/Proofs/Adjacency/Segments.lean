import Mathlib.Data.List.Chain
import Mathlib.Data.List.Dedup
import TriggerChain.Adjacency.Scanner
import TriggerChain.Proofs.Record.StableOrder

/-!
# Segments of a set of channels

A set of channels in ascending order can be cut into segments. Inside a segment each step leads to
the neighbouring channel, or over a gap that is not too wide while the gaps before it have not used
up the tolerance of the segment; a cut lies only where no such step is possible. This module is
about such cuttings alone, with no walk around the channels: there is exactly one of each set.

Main statements: `Scanner.existsUnique_isCutting` and `Scanner.IsCutting.block_within`.
-/

namespace TriggerChain

/-! ## Sets of channels -/

/-- The channels of a list in ascending order, each of them once. -/
def distinctAscending (channels : List Channel) : List Channel :=
  channels.dedup.mergeSort fun a b => decide (a ≤ b)

theorem sorted_mergeSort (channels : List Channel) :
    (channels.mergeSort fun a b => decide (a ≤ b)).Pairwise (· ≤ ·) :=
  (stablySorted_mergeSort (fun c => c) channels).ascending

@[simp] theorem mem_distinctAscending {c : Channel} {channels : List Channel} :
    c ∈ distinctAscending channels ↔ c ∈ channels := by
  simp [distinctAscending]

theorem length_distinctAscending (channels : List Channel) :
    (distinctAscending channels).length = channels.dedup.length := by
  simp [distinctAscending]

theorem pairwise_distinctAscending (channels : List Channel) :
    (distinctAscending channels).Pairwise (· < ·) := by
  have hnodup : (distinctAscending channels).Nodup :=
    (List.mergeSort_perm _ _).nodup_iff.2 channels.nodup_dedup
  apply ((sorted_mergeSort channels.dedup).and hnodup).imp
  intro a b hab
  exact UInt32.lt_of_le_of_ne hab.1 hab.2

/-- A set of channels has one ascending list. -/
theorem ascending_ext {xs ys : List Channel} (hxs : xs.Pairwise (· < ·))
    (hys : ys.Pairwise (· < ·)) (h : ∀ c, c ∈ xs ↔ c ∈ ys) : xs = ys := by
  have hne : ∀ {a b : Channel}, a < b → a ≠ b := fun hab => UInt32.ne_of_lt hab
  have hperm : xs.Perm ys :=
    (List.perm_ext_iff_of_nodup (hxs.imp hne) (hys.imp hne)).2 h
  apply hperm.eq_of_pairwise _ hxs hys
  intro a b _ _ hab hba
  exact absurd hba (UInt32.lt_asymm hab)

/-- The ascending list of the channels of a list depends on the set of them alone. -/
theorem distinctAscending_congr {cs ds : List Channel} (h : ∀ c, c ∈ cs ↔ c ∈ ds) :
    distinctAscending cs = distinctAscending ds := by
  apply ascending_ext (pairwise_distinctAscending cs) (pairwise_distinctAscending ds)
  simpa using h

theorem dedup_eq_distinctAscending {channels : List Channel}
    (hsorted : channels.Pairwise (· ≤ ·)) : channels.dedup = distinctAscending channels := by
  apply ascending_ext _ (pairwise_distinctAscending channels)
  · simp
  · apply ((hsorted.sublist channels.dedup_sublist).and channels.nodup_dedup).imp
    intro a b hab
    exact UInt32.lt_of_le_of_ne hab.1 hab.2

/-! ## What a segment is -/

/-- How far one channel lies above another. -/
def gapBetween (a b : Channel) : Nat := b.toNat - a.toNat

theorem gapBetween_pos {a b : Channel} : 0 < gapBetween a b ↔ a < b := by
  rw [gapBetween, UInt32.lt_iff_toNat_lt]
  omega

namespace ToleranceRule

/-- What a step inside a segment costs: nothing if it leads to the neighbouring channel. -/
def price (r : ToleranceRule) (a b : Channel) : Nat :=
  if gapBetween a b = 1 then 0 else r.cost (gapBetween a b)

/-- What the steps along some channels cost together. -/
def spentOn (r : ToleranceRule) : List Channel → Nat
  | a :: b :: rest => r.price a b + r.spentOn (b :: rest)
  | _ => 0

@[simp] theorem spentOn_singleton (r : ToleranceRule) (a : Channel) : r.spentOn [a] = 0 := by
  simp [spentOn]

/-- One step more costs its price. -/
theorem spentOn_snoc (r : ToleranceRule) (before : List Channel) (a b : Channel) :
    r.spentOn (before ++ [a, b]) = r.spentOn (before ++ [a]) + r.price a b := by
  induction before with
  | nil => simp [spentOn]
  | cons c before ih =>
    cases before with
    | nil => simp [spentOn]
    | cons d before =>
      simp only [List.cons_append, spentOn] at ih ⊢
      omega

/-- A part at the end costs no more than the whole. -/
theorem spentOn_le_append (r : ToleranceRule) (before rest : List Channel) :
    r.spentOn rest ≤ r.spentOn (before ++ rest) := by
  induction before with
  | nil => simp
  | cons c before ih =>
    cases hwhole : before ++ rest with
    | nil => simp_all [spentOn]
    | cons d tail =>
      rw [hwhole] at ih
      simp only [List.cons_append, hwhole, spentOn]
      omega

end ToleranceRule

namespace Scanner

/-- A segment that has come over `before` to the channel `a` goes on with `b`: it is the
    neighbouring channel, or the gap can be bridged and what was spent so far leaves some of the
    tolerance. -/
def GoesOn (s : Scanner) (before : List Channel) (a b : Channel) : Prop :=
  gapBetween a b = 1 ∨
    2 ≤ gapBetween a b ∧ gapBetween a b ≤ s.maxGap ∧
      s.rule.spentOn (before ++ [a]) < s.tolerance

instance (s : Scanner) (before : List Channel) (a b : Channel) :
    Decidable (s.GoesOn before a b) := by
  unfold GoesOn
  infer_instance

/-- A segment that has come over `before` to the channel `a` stops before `b`: the gap is too wide,
    or the tolerance has been spent. -/
def StopsAt (s : Scanner) (before : List Channel) (a b : Channel) : Prop :=
  2 ≤ gapBetween a b ∧
    (s.maxGap < gapBetween a b ∨ s.tolerance ≤ s.rule.spentOn (before ++ [a]))

/-- On the way up a segment stops exactly where it does not go on. -/
theorem stopsAt_iff (s : Scanner) {before : List Channel} {a b : Channel} (hlt : a < b) :
    s.StopsAt before a b ↔ ¬s.GoesOn before a b := by
  have hpos := gapBetween_pos.2 hlt
  unfold StopsAt GoesOn
  omega

theorem StopsAt.not_goesOn {s : Scanner} {before : List Channel} {a b : Channel}
    (h : s.StopsAt before a b) : ¬s.GoesOn before a b := by
  unfold StopsAt at h
  unfold GoesOn
  omega

/-- Channels each of which goes on with the next. -/
def IsSegment (s : Scanner) (seg : List Channel) : Prop :=
  ∀ before a b after, seg = before ++ a :: b :: after → s.GoesOn before a b

/-- There is a cut between two segments. -/
def IsCut (s : Scanner) (seg next : List Channel) : Prop :=
  ∀ before a b after, seg = before ++ [a] → next = b :: after → s.StopsAt before a b

/-- Channels cut into segments, as long as they can be. -/
structure IsCutting (s : Scanner) (channels : List Channel) (segs : List (List Channel)) :
    Prop where
  /-- The segments are the channels, one segment after the other. -/
  flatten : segs.flatten = channels
  /-- No segment is empty. -/
  nonempty : ∀ seg ∈ segs, seg ≠ []
  /-- Inside a segment every step goes on. -/
  segments : ∀ seg ∈ segs, s.IsSegment seg
  /-- Between two segments no step does. -/
  cuts : segs.IsChain s.IsCut

variable {s : Scanner}

theorem isSegment_singleton (a : Channel) : s.IsSegment [a] := by
  intro before c d after heq
  have hlength := congrArg List.length heq
  simp only [List.length_append, List.length_cons, List.length_nil] at hlength
  omega

/-- A segment grows at its end by one step that goes on. -/
theorem IsSegment.snoc {before : List Channel} {a b : Channel} (h : s.IsSegment (before ++ [a]))
    (hgoes : s.GoesOn before a b) : s.IsSegment (before ++ [a] ++ [b]) := by
  intro before' c d after heq
  rcases List.eq_nil_or_concat after with rfl | ⟨after, e, rfl⟩
  · -- The step is the last one.
    have hinit : before ++ [a] ++ [b] = (before' ++ [c]) ++ [d] := by simp [heq]
    obtain ⟨hleft, hd⟩ := List.append_inj' hinit (by simp)
    obtain ⟨rfl, hc⟩ := List.append_inj' hleft (by simp)
    simp only [List.cons.injEq, and_true] at hc hd
    rwa [← hc, ← hd]
  · have hinit : before ++ [a] ++ [b] = (before' ++ c :: d :: after) ++ [e] := by simp [heq]
    exact h before' c d after (List.append_inj' hinit (by simp)).1

/-- What a segment ends with is a segment: it has spent no more. -/
theorem IsSegment.suffix {seg whole : List Channel} (h : s.IsSegment whole) (hsuf : seg <:+ whole) :
    s.IsSegment seg := by
  obtain ⟨front, rfl⟩ := hsuf
  intro before a b after heq
  have hstep := h (front ++ before) a b after (by simp [heq])
  have hspent := s.rule.spentOn_le_append front (before ++ [a])
  unfold GoesOn at hstep ⊢
  rw [List.append_assoc] at hstep
  omega

/-! ## There is only one cutting -/

/-- Later segments are a cutting of what is left. -/
theorem IsCutting.later {channels : List Channel} {earlier segs : List (List Channel)}
    (h : s.IsCutting channels (earlier ++ segs)) : s.IsCutting segs.flatten segs where
  flatten := rfl
  nonempty seg hseg := h.nonempty seg (List.mem_append_right earlier hseg)
  segments seg hseg := h.segments seg (List.mem_append_right earlier hseg)
  cuts := (List.isChain_append.1 h.cuts).2.1

theorem IsCutting.isInfix {channels seg : List Channel} {segs : List (List Channel)}
    (h : s.IsCutting channels segs) (hseg : seg ∈ segs) : seg <:+: channels := by
  obtain ⟨earlier, later, rfl⟩ := List.append_of_mem hseg
  exact ⟨earlier.flatten, later.flatten, by simp [← h.flatten]⟩

theorem IsCutting.tail {channels seg : List Channel} {segs : List (List Channel)}
    (h : s.IsCutting channels (seg :: segs)) : s.IsCutting segs.flatten segs := by
  rw [← List.singleton_append] at h
  exact h.later

/-- No segment that the channels begin with is longer than the first one of a cutting. -/
theorem IsCutting.first_longest {channels seg : List Channel} {segs : List (List Channel)}
    (h : s.IsCutting channels (seg :: segs)) {other : List Channel} (hother : s.IsSegment other)
    (hpre : other <+: channels) : other <+: seg := by
  have hseg : seg <+: channels := ⟨segs.flatten, by simpa using h.flatten⟩
  rcases List.prefix_or_prefix_of_prefix hpre hseg with hshort | ⟨more, rfl⟩
  · exact hshort
  · cases more with
    | nil => simp
    | cons b after =>
      exfalso
      -- The longer one steps over the cut behind the first segment.
      obtain ⟨before, a, rfl⟩ :=
        (List.eq_nil_or_concat seg).resolve_left (h.nonempty seg List.mem_cons_self)
      have hgoes := hother before a b after (by simp)
      obtain ⟨behind, hbehind⟩ := hpre
      have hrest : segs.flatten = b :: (after ++ behind) := by
        have hflatten := h.flatten
        rw [← hbehind, List.flatten_cons] at hflatten
        simpa using hflatten
      cases segs with
      | nil => simp at hrest
      | cons next segs =>
        have hnext : next ≠ [] := h.nonempty next (by simp)
        obtain ⟨d, tail, rfl⟩ := List.exists_cons_of_ne_nil hnext
        simp only [List.flatten_cons, List.cons_append, List.cons.injEq] at hrest
        obtain ⟨rfl, -⟩ := hrest
        have hcut := (List.isChain_cons_cons.1 h.cuts).1
        exact (hcut before a d tail (by simp) rfl).not_goesOn hgoes

theorem IsCutting.unique {channels : List Channel} {segs segs' : List (List Channel)}
    (h : s.IsCutting channels segs) (h' : s.IsCutting channels segs') : segs = segs' := by
  induction segs generalizing channels segs' with
  | nil =>
    have hempty : segs'.flatten = [] := by rw [h'.flatten, ← h.flatten, List.flatten_nil]
    cases segs' with
    | nil => rfl
    | cons seg' segs' =>
      have hnonempty := h'.nonempty seg' List.mem_cons_self
      simp_all
  | cons seg segs ih =>
    cases segs' with
    | nil =>
      have hempty : (seg :: segs).flatten = [] := by rw [h.flatten, ← h'.flatten, List.flatten_nil]
      have hnonempty := h.nonempty seg List.mem_cons_self
      simp_all
    | cons seg' segs' =>
      -- Each of the two first segments begins with the other.
      have hle : seg <+: seg' := by
        apply h'.first_longest (h.segments seg List.mem_cons_self)
        rw [← h.flatten, List.flatten_cons]
        exact List.prefix_append seg _
      have hge : seg' <+: seg := by
        apply h.first_longest (h'.segments seg' List.mem_cons_self)
        rw [← h'.flatten, List.flatten_cons]
        exact List.prefix_append seg' _
      obtain rfl : seg = seg' := hle.eq_of_length_le hge.length_le
      have hrest : segs.flatten = segs'.flatten := by
        have hflatten := h.flatten.trans h'.flatten.symm
        simpa using hflatten
      have htail' := h'.tail
      rw [← hrest] at htail'
      rw [ih h.tail htail']

/-! ## There is a cutting -/

/-- The segments that come of going on wherever it is possible. The first of them is open at the
    channel `a`, to which it has come over `before`. -/
def segmentsFrom (s : Scanner) (before : List Channel) (a : Channel) :
    List Channel → List (List Channel)
  | [] => [before ++ [a]]
  | b :: rest =>
    if s.GoesOn before a b then s.segmentsFrom (before ++ [a]) b rest
    else (before ++ [a]) :: s.segmentsFrom [] b rest

/-- The segments of some channels. -/
def segmentsOf (s : Scanner) : List Channel → List (List Channel)
  | [] => []
  | a :: rest => s.segmentsFrom [] a rest

/-- The first segment goes on from where it is open. -/
theorem segmentsFrom_eq_cons (s : Scanner) (before : List Channel) (a : Channel)
    (rest : List Channel) :
    ∃ more segs, s.segmentsFrom before a rest = (before ++ a :: more) :: segs := by
  induction rest generalizing before a with
  | nil => exact ⟨[], [], by simp [segmentsFrom]⟩
  | cons b rest ih =>
    by_cases hgoes : s.GoesOn before a b
    · obtain ⟨more, segs, heq⟩ := ih (before ++ [a]) b
      exact ⟨b :: more, segs, by simp [segmentsFrom, hgoes, heq]⟩
    · exact ⟨[], s.segmentsFrom [] b rest, by simp [segmentsFrom, hgoes]⟩

@[simp] theorem flatten_segmentsFrom (s : Scanner) (before : List Channel) (a : Channel)
    (rest : List Channel) : (s.segmentsFrom before a rest).flatten = before ++ a :: rest := by
  induction rest generalizing before a with
  | nil => simp [segmentsFrom]
  | cons b rest ih =>
    by_cases hgoes : s.GoesOn before a b <;> simp [segmentsFrom, hgoes, ih]

theorem isCutting_segmentsFrom {before rest : List Channel} {a : Channel}
    (hopen : s.IsSegment (before ++ [a])) (hlt : (a :: rest).Pairwise (· < ·)) :
    s.IsCutting (before ++ a :: rest) (s.segmentsFrom before a rest) := by
  induction rest generalizing before a with
  | nil =>
    apply IsCutting.mk <;> simp [segmentsFrom, hopen]
  | cons b rest ih =>
    obtain ⟨habove, hrest⟩ := List.pairwise_cons.1 hlt
    by_cases hgoes : s.GoesOn before a b
    · simpa [segmentsFrom, hgoes] using ih (hopen.snoc hgoes) hrest
    · have hbegin : s.IsSegment ([] ++ [b]) := isSegment_singleton b
      have hnext := ih hbegin hrest
      rw [List.nil_append] at hnext
      obtain ⟨more, segs, hsegs⟩ := s.segmentsFrom_eq_cons [] b rest
      have hcut : s.IsCut (before ++ [a]) ([] ++ b :: more) := by
        intro before' a' b' after hseg hmore
        obtain ⟨rfl, ha⟩ := List.append_inj' hseg (by simp)
        simp only [List.nil_append, List.cons.injEq, and_true] at ha hmore
        rw [← ha, ← hmore.1, stopsAt_iff s (habove b List.mem_cons_self)]
        exact hgoes
      simp only [segmentsFrom, hgoes, if_false]
      apply IsCutting.mk
      · simp
      · simpa using hnext.nonempty
      · simpa using ⟨hopen, hnext.segments⟩
      · have hcuts := hnext.cuts
        rw [hsegs] at hcuts ⊢
        exact List.isChain_cons_cons.2 ⟨hcut, hcuts⟩

theorem isCutting_segmentsOf {channels : List Channel} (hlt : channels.Pairwise (· < ·)) :
    s.IsCutting channels (s.segmentsOf channels) := by
  cases channels with
  | nil => apply IsCutting.mk <;> simp [segmentsOf]
  | cons a rest =>
    have hopen : s.IsSegment ([] ++ [a]) := isSegment_singleton a
    exact isCutting_segmentsFrom hopen hlt

theorem isCutting_distinctAscending (s : Scanner) (channels : List Channel) :
    s.IsCutting (distinctAscending channels) (s.segmentsOf (distinctAscending channels)) :=
  isCutting_segmentsOf (pairwise_distinctAscending channels)

/-- The gap between 3 and 5 costs two units, so there is none left for the one before 9. -/
example : ({ tolerance := 2 } : Scanner).segmentsOf [1, 2, 3, 5, 9] = [[1, 2, 3, 5], [9]] := by
  decide

/-- Channels in ascending order are cut into segments in one way. -/
theorem existsUnique_isCutting (s : Scanner) {channels : List Channel}
    (hlt : channels.Pairwise (· < ·)) : ∃! segs, s.IsCutting channels segs :=
  ⟨s.segmentsOf channels, isCutting_segmentsOf hlt,
    fun _ hcutting => hcutting.unique (isCutting_segmentsOf hlt)⟩

theorem IsCutting.eq_segmentsOf {channels : List Channel} {segs : List (List Channel)}
    (h : s.IsCutting channels segs) (hlt : channels.Pairwise (· < ·)) :
    segs = s.segmentsOf channels := h.unique (isCutting_segmentsOf hlt)

/-! ## Blocks of neighbouring channels -/

/-- A channel lies in the segment of the channel below it. -/
theorem IsCutting.neighbour_within {channels seg : List Channel} {segs : List (List Channel)}
    (h : s.IsCutting channels segs) (hlt : channels.Pairwise (· < ·)) (hseg : seg ∈ segs)
    {c d : Channel} (hc : c ∈ seg) (hd : d ∈ channels) (hnext : d.toNat = c.toNat + 1) :
    d ∈ seg := by
  obtain ⟨earlier, later, rfl⟩ := List.append_of_mem hseg
  obtain ⟨before, after, rfl⟩ := List.append_of_mem hc
  have hflatten : channels = (earlier.flatten ++ before) ++ c :: (after ++ later.flatten) := by
    rw [← h.flatten]
    simp
  rw [hflatten] at hlt hd
  obtain ⟨-, hbehind, hfront⟩ := List.pairwise_append.1 hlt
  obtain ⟨habove, hascending⟩ := List.pairwise_cons.1 hbehind
  -- The channel stands behind its lower neighbour, since what stands before is lower still.
  have hd' : d ∈ after ++ later.flatten := by
    rcases List.mem_append.1 hd with hd | hd
    · have hbelow := UInt32.lt_iff_toNat_lt.1 (hfront d hd c List.mem_cons_self)
      omega
    · rcases List.mem_cons.1 hd with rfl | hd
      · omega
      · exact hd
  -- Nothing has room between the two, so the next channel is the one.
  have hfirst : ∀ b rest, after ++ later.flatten = b :: rest → b = d := by
    intro b rest heq
    rw [heq] at hd' habove hascending
    have hcb := UInt32.lt_iff_toNat_lt.1 (habove b List.mem_cons_self)
    rcases List.mem_cons.1 hd' with rfl | hmem
    · rfl
    · have hbd := UInt32.lt_iff_toNat_lt.1 ((List.pairwise_cons.1 hascending).1 d hmem)
      omega
  cases after with
  | cons b after =>
    obtain rfl := hfirst b (after ++ later.flatten) rfl
    simp
  | nil =>
    exfalso
    cases later with
    | nil => simp at hd'
    | cons next later =>
      have hnonempty : next ≠ [] := h.nonempty next (by simp)
      obtain ⟨b, tail, rfl⟩ := List.exists_cons_of_ne_nil hnonempty
      obtain rfl := hfirst b (tail ++ later.flatten) (by simp)
      have hstops := (List.isChain_cons_cons.1 h.later.cuts).1 before c b tail rfl rfl
      have hgap := hstops.1
      unfold gapBetween at hgap
      omega

/-- Channels without a gap lie within one segment. -/
theorem IsCutting.block_within {channels : List Channel} {segs : List (List Channel)}
    (h : s.IsCutting channels segs) (hlt : channels.Pairwise (· < ·)) {low high : Channel}
    (hle : low ≤ high) (hblock : ∀ c, low ≤ c → c ≤ high → c ∈ channels) :
    ∃ seg ∈ segs, ∀ c, low ≤ c → c ≤ high → c ∈ seg := by
  have hlow : low ∈ segs.flatten := by
    rw [h.flatten]
    exact hblock low (UInt32.le_refl low) hle
  obtain ⟨seg, hseg, hmem⟩ := List.mem_flatten.1 hlow
  refine ⟨seg, hseg, ?_⟩
  -- Upwards from the lowest channel, one neighbour after the other.
  have hup : ∀ n, ∀ c : Channel, c.toNat = low.toNat + n → c ≤ high → c ∈ seg := by
    intro n
    induction n with
    | zero =>
      intro c hc _
      obtain rfl : c = low := UInt32.toNat_inj.1 (by omega)
      exact hmem
    | succ n ih =>
      intro c hc hhigh
      have hfits : low.toNat + n < UInt32.size := by
        have := c.toNat_lt_size
        omega
      have hbelow : (UInt32.ofNat (low.toNat + n)).toNat = low.toNat + n :=
        UInt32.toNat_ofNat_of_lt' hfits
      have hc' : UInt32.ofNat (low.toNat + n) ∈ seg := by
        apply ih _ hbelow
        rw [UInt32.le_iff_toNat_le] at hhigh ⊢
        omega
      apply h.neighbour_within hlt hseg hc' _ (by omega)
      apply hblock c _ hhigh
      rw [UInt32.le_iff_toNat_le]
      omega
  intro c hc hhigh
  have hle' := UInt32.le_iff_toNat_le.1 hc
  exact hup (c.toNat - low.toNat) c (by omega) hhigh

/-! ## The longest segment -/

/-- A segment is the first that no other is longer than. -/
def IsFirstLongest (segs : List (List Channel)) (seg : List Channel) : Prop :=
  ∃ earlier later, segs = earlier ++ seg :: later ∧
    (∀ other ∈ earlier, other.length < seg.length) ∧
    ∀ other ∈ later, other.length ≤ seg.length

variable {segs : List (List Channel)} {seg : List Channel}

theorem IsFirstLongest.mem (h : IsFirstLongest segs seg) : seg ∈ segs := by
  obtain ⟨earlier, later, rfl, -⟩ := h
  simp

theorem IsFirstLongest.length_le (h : IsFirstLongest segs seg) :
    ∀ other ∈ segs, other.length ≤ seg.length := by
  obtain ⟨earlier, later, rfl, hearlier, hlater⟩ := h
  intro other hother
  rw [List.mem_append, List.mem_cons] at hother
  rcases hother with hother | rfl | hother
  · exact Nat.le_of_lt (hearlier other hother)
  · exact Nat.le_refl _
  · exact hlater other hother

theorem exists_isFirstLongest (h : segs ≠ []) : ∃ seg, IsFirstLongest segs seg := by
  induction segs with
  | nil => exact absurd rfl h
  | cons first segs ih =>
    by_cases hsegs : segs = []
    · exact ⟨first, [], [], by simp [hsegs]⟩
    · obtain ⟨seg, hseg⟩ := ih hsegs
      by_cases hlonger : first.length < seg.length
      · obtain ⟨earlier, later, rfl, hearlier, hlater⟩ := hseg
        refine ⟨seg, first :: earlier, later, rfl, ?_, hlater⟩
        simpa using ⟨hlonger, hearlier⟩
      · refine ⟨first, [], segs, rfl, by simp, ?_⟩
        intro other hother
        have := hseg.length_le other hother
        omega

end Scanner

end TriggerChain
