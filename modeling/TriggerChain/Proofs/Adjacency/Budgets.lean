import TriggerChain.Proofs.Adjacency.LongestRun

/-!
# More tolerance

With more tolerance each run bridges more gaps, and yet the longest run may become shorter: a run
that begins early can spend the tolerance on small gaps and stop in the middle of channels that a
run with less tolerance, which had to begin later, goes through as a whole. This is the only way to
lose channels, and what was one run is then cut once and no more. So with more tolerance the longest
run is more than half as long, and it is no shorter where no run spends all of its tolerance.

Main statement: `longest_run_under_more_tolerance`.
-/

namespace TriggerChain

namespace Scanner

/-- The same scanner with another tolerance. -/
def withTolerance (s : Scanner) (tolerance : Nat) : Scanner := { s with tolerance }

variable {s : Scanner} {t t' : Nat}

/-! ## Segments under more tolerance -/

theorem GoesOn.mono (hle : t ≤ t') {before : List Channel} {a b : Channel}
    (h : (s.withTolerance t).GoesOn before a b) : (s.withTolerance t').GoesOn before a b := by
  simp only [GoesOn, withTolerance] at h ⊢
  omega

/-- A segment remains one under more tolerance. -/
theorem IsSegment.mono (hle : t ≤ t') {seg : List Channel}
    (h : (s.withTolerance t).IsSegment seg) : (s.withTolerance t').IsSegment seg := by
  intro before a b after heq
  exact (h before a b after heq).mono hle

/-- How a segment under the tolerance `t` lies among the segments under the tolerance `t'`. -/
inductive Lies (s : Scanner) (t t' : Nat) (segs : List (List Channel)) (seg : List Channel) : Prop
  /-- It lies within one of them. -/
  | within {whole : List Channel} (hwhole : whole ∈ segs) (hpart : seg <:+: whole)
  /-- It is cut once, where a segment ends that has begun earlier and has spent its tolerance. -/
  | across {earlier later : List (List Channel)} {front left right rest : List Channel}
      (hsegs : segs = earlier ++ (front ++ left) :: (right ++ rest) :: later)
      (hseg : seg = left ++ right) (hfront : front ≠ []) (hright : right ≠ [])
      (hleft : s.rule.spentOn left < t) (hspent : t' ≤ s.rule.spentOn (front ++ left))

/-- Where a place in the channels falls into the segments. -/
theorem IsCutting.exists_split {channels before rest : List Channel} {segs : List (List Channel)}
    (h : s.IsCutting channels segs) (hsplit : channels = before ++ rest) (hrest : rest ≠ []) :
    ∃ earlier front tail later, segs = earlier ++ (front ++ tail) :: later ∧ tail ≠ [] ∧
      rest = tail ++ later.flatten := by
  have hflatten := h.flatten.trans hsplit
  rcases List.flatten_eq_append_iff.1 hflatten with
    ⟨earlier, later, rfl, -, rfl⟩ | ⟨earlier, front, c, tail, later, rfl, -, rfl⟩
  · -- The place is between two segments.
    cases later with
    | nil => simp at hrest
    | cons seg later =>
      exact ⟨earlier, [], seg, later, rfl, h.nonempty seg (by simp), by simp⟩
  · exact ⟨earlier, front, c :: tail, later, rfl, by simp, rfl⟩

theorem IsCutting.lies (hle : t ≤ t') {channels seg : List Channel} {segs : List (List Channel)}
    (h : (s.withTolerance t').IsCutting channels segs) (hseg : (s.withTolerance t).IsSegment seg)
    (hne : seg ≠ []) (hpart : seg <:+: channels) : s.Lies t t' segs seg := by
  obtain ⟨before, after, hsplit⟩ := hpart
  rw [List.append_assoc] at hsplit
  obtain ⟨earlier, front, left, later, rfl, hleft, hrest⟩ :=
    h.exists_split hsplit.symm (by simp [hne])
  have hwhole : front ++ left ∈ earlier ++ (front ++ left) :: later := by simp
  rcases List.append_eq_append_iff.1 hrest with ⟨more, rfl, -⟩ | ⟨right, rfl, hlater⟩
  · exact .within hwhole ⟨front, more, by simp⟩
  · by_cases hright : right = []
    · subst hright
      exact .within hwhole ⟨front, [], by simp⟩
    · -- The segment steps over the cut behind the one in which it begins.
      cases later with
      | nil => simp [hright] at hlater
      | cons next later =>
        have hcutting := h.later
        have hmore := hseg.mono hle
        have hnext : right <+: next := by
          apply hcutting.tail.first_longest (hmore.suffix (List.suffix_append left right))
          rw [hlater]
          exact List.prefix_append right after
        obtain ⟨rest, rfl⟩ := hnext
        have hfront : front ≠ [] := by
          rintro rfl
          have hlong : left ++ right <+: left := by
            apply hcutting.first_longest hmore
            simp
          have hlength := hlong.length_le
          have hpos := List.length_pos_iff.2 hright
          rw [List.length_append] at hlength
          omega
        obtain ⟨init, a, rfl⟩ := (List.eq_nil_or_concat left).resolve_left hleft
        obtain ⟨b, right, rfl⟩ := List.exists_cons_of_ne_nil hright
        rw [List.concat_eq_append] at *
        have hgoes := hseg init a b right (by simp)
        have hcut := (List.isChain_cons_cons.1 hcutting.cuts).1
        have hstops := hcut (front ++ init) a b (right ++ rest) (by simp) (by simp)
        simp only [GoesOn, StopsAt, withTolerance] at hgoes hstops
        simp only [List.append_assoc] at hgoes hstops
        refine .across rfl rfl hfront hright ?_ ?_
        · omega
        · omega

/-! ## The longest run under more tolerance -/

/-- A segment is shorter than two that are no shorter than any. -/
theorem Lies.length_lt {segs : List (List Channel)} {seg longest : List Channel}
    (h : s.Lies t t' segs seg) (hne : seg ≠ [])
    (hlongest : ∀ other ∈ segs, other.length ≤ longest.length) :
    seg.length < 2 * longest.length := by
  have hpos := List.length_pos_iff.2 hne
  cases h with
  | within hwhole hpart =>
    have hlength := hpart.length_le
    have := hlongest _ hwhole
    omega
  | @across _ _ front left right rest hsegs hseg hfront =>
    -- What is left in front of the segment is what one of the two is longer by.
    have hpos' := List.length_pos_iff.2 hfront
    have hfirst := hlongest (front ++ left) (by simp [hsegs])
    have hsecond := hlongest (right ++ rest) (by simp [hsegs])
    simp only [hseg, List.length_append] at hfirst hsecond ⊢
    omega

/-- A segment remains whole if there was no tolerance before, or if some is left over now. -/
theorem Lies.length_le {segs : List (List Channel)} {seg longest : List Channel}
    (h : s.Lies t t' segs seg)
    (hspare : t = 0 ∨ ∀ other ∈ segs, s.rule.spentOn other < t')
    (hlongest : ∀ other ∈ segs, other.length ≤ longest.length) : seg.length ≤ longest.length := by
  cases h with
  | within hwhole hpart => exact Nat.le_trans hpart.length_le (hlongest _ hwhole)
  | @across _ _ front left _ _ hsegs _ _ _ hleft hspent =>
    exfalso
    rcases hspare with rfl | hspare
    · omega
    · have := hspare (front ++ left) (by simp [hsegs])
      omega

/-- Of the segments of a scanner, one that is counted, and how it lies under more tolerance. -/
theorem exists_longest_lies (s : Scanner) (hle : t ≤ t') {channels : List Channel}
    (hmany : 1 < (distinctAscending channels).length) :
    ∃ seg longest : List Channel,
      (s.withTolerance t).longestRun channels = min seg.length maxRunLength ∧
      (s.withTolerance t').longestRun channels = min longest.length maxRunLength ∧
      seg ≠ [] ∧
      s.Lies t t' ((s.withTolerance t').segmentsOf (distinctAscending channels)) seg ∧
      ∀ other ∈ (s.withTolerance t').segmentsOf (distinctAscending channels),
        other.length ≤ longest.length := by
  obtain ⟨seg, hseg, hrun⟩ := (s.withTolerance t).exists_longest_segment hmany
  obtain ⟨longest, hlongest, hrun'⟩ := (s.withTolerance t').exists_longest_segment hmany
  have hcutting := (s.withTolerance t).isCutting_distinctAscending channels
  have hcutting' := (s.withTolerance t').isCutting_distinctAscending channels
  have hne := hcutting.nonempty seg hseg.mem
  have hlies := hcutting'.lies hle (hcutting.segments seg hseg.mem) hne (hcutting.isInfix hseg.mem)
  exact ⟨seg, longest, hrun, hrun', hne, hlies, hlongest.length_le⟩

/-- With more tolerance the longest run is more than half as long. -/
theorem longestRun_withTolerance_le (s : Scanner) (hle : t ≤ t') (channels : List Channel) :
    (s.withTolerance t).longestRun channels ≤
      2 * (s.withTolerance t').longestRun channels - 1 := by
  by_cases hmany : 1 < (distinctAscending channels).length
  · obtain ⟨seg, longest, hrun, hrun', hne, hlies, hlongest⟩ := s.exists_longest_lies hle hmany
    have hlength := hlies.length_lt hne hlongest
    simp only [hrun, hrun', maxRunLength]
    omega
  · rw [longestRun_of_few _ (by omega)]
    omega

/-- With more tolerance the longest run is no shorter if some of the tolerance is left over. -/
theorem longestRun_withTolerance_mono (s : Scanner) (hle : t ≤ t') {channels : List Channel}
    (hspare : t = 0 ∨
      ∀ seg ∈ (s.withTolerance t').segmentsOf (distinctAscending channels),
        s.rule.spentOn seg < t') :
    (s.withTolerance t).longestRun channels ≤ (s.withTolerance t').longestRun channels := by
  by_cases hmany : 1 < (distinctAscending channels).length
  · obtain ⟨seg, longest, hrun, hrun', -, hlies, hlongest⟩ := s.exists_longest_lies hle hmany
    have hlength := hlies.length_le hspare hlongest
    simp only [hrun, hrun']
    omega
  · rw [longestRun_of_few _ (by omega)]
    omega

end Scanner

/-! ## The adjacency trigger under more tolerance -/

/-- The same conditions with another tolerance. -/
def Geometry.withTolerance (g : Geometry) (tolerance : Nat) : Geometry :=
  { g with settings := { g.settings with adjacencyTolerance := tolerance } }

theorem Geometry.adjacency_withTolerance (g : Geometry) (t : Nat) (w : Window Primitive) :
    (g.withTolerance t).adjacency w =
      ((g.settings.scanner .gapWidth).withTolerance t).longestRun (w.inputs.map (·.channel)) := rfl

/-- A geometry looks at the longest run if it is told to and the run exceeds the threshold. -/
theorem Geometry.isSome_evaluateAdjacency {g : Geometry} {w : Window Primitive} :
    (g.evaluateAdjacency w).isSome ↔
      g.settings.triggerOnAdjacency ∧ g.settings.adjacencyThreshold < g.adjacency w := by
  unfold evaluateAdjacency
  split <;> simp_all

/-- What more tolerance makes of the longest run of some channels, and of the trigger on it. -/
structure Scanner.Relaxes (s : Scanner) (t t' : Nat) (channels : List Channel) : Prop where
  /-- A segment lies within one of the new ones, or is cut once where one that has begun earlier has
      spent all its tolerance. -/
  lies : ∀ segs segs', (s.withTolerance t).IsCutting (distinctAscending channels) segs →
    (s.withTolerance t').IsCutting (distinctAscending channels) segs' →
      ∀ seg ∈ segs, s.Lies t t' segs' seg
  /-- The longest run is more than half as long. -/
  half : (s.withTolerance t).longestRun channels ≤
    2 * (s.withTolerance t').longestRun channels - 1
  /-- It is no shorter if there was no tolerance before, or if no segment spends all of it now. -/
  spare : ∀ segs', (s.withTolerance t').IsCutting (distinctAscending channels) segs' →
    (t = 0 ∨ ∀ seg ∈ segs', s.rule.spentOn seg < t') →
      (s.withTolerance t).longestRun channels ≤ (s.withTolerance t').longestRun channels

theorem longest_run_under_more_tolerance {t t' : Nat} (hle : t ≤ t') :
    (∀ (s : Scanner) (channels : List Channel), s.Relaxes t t' channels) ∧
    ∀ (g : Geometry) (w : Window Primitive),
      ((g.withTolerance t).evaluateAdjacency w).isSome →
      2 * g.settings.adjacencyThreshold < (g.withTolerance t).adjacency w ∨
        (g.withTolerance t).adjacency w ≤ (g.withTolerance t').adjacency w →
      ((g.withTolerance t').evaluateAdjacency w).isSome := by
  refine ⟨?_, ?_⟩
  · intro s channels
    have hlt := pairwise_distinctAscending channels
    apply Scanner.Relaxes.mk
    · intro segs segs' h h' seg hseg
      exact h'.lies hle (h.segments seg hseg) (h.nonempty seg hseg) (h.isInfix hseg)
    · exact s.longestRun_withTolerance_le hle channels
    · intro segs' h' hspare
      rw [h'.eq_segmentsOf hlt] at hspare
      exact s.longestRun_withTolerance_mono hle hspare
  · intro g w hfired hlong
    rw [Geometry.isSome_evaluateAdjacency] at hfired ⊢
    have hhalf := (g.settings.scanner .gapWidth).longestRun_withTolerance_le hle
      (w.inputs.map (·.channel))
    rw [← g.adjacency_withTolerance, ← g.adjacency_withTolerance] at hhalf
    refine ⟨hfired.1, ?_⟩
    have hthreshold := hfired.2
    simp only [Geometry.withTolerance] at hthreshold hhalf hlong ⊢
    omega

/-! ## A run that is cut -/

/-- Five channels with a gap among them, behind four that are two apart. -/
def lateRun : List Channel := [0, 2, 4, 6, 11, 12, 14, 15, 16]

/-- A window of hits on these channels. -/
def lateRunWindow : Window Primitive where
  elements := (lateRun.map fun channel => { channel }).toArray

/-- Looks at the longest run, with a threshold. -/
def adjacencyAbove (threshold : Nat) : Geometry where
  settings := { triggerOnAdjacency := true, adjacencyThreshold := threshold }

theorem Scanner.longestRun_of_sorted (s : Scanner) {channels : List Channel}
    (h : channels.Pairwise fun a b => decide (a ≤ b) = true) :
    s.longestRun channels = s.longestOnWalk channels := by
  rw [longestRun, List.mergeSort_of_pairwise h]

/-- With the tolerance one, the run of five is bridged as a whole; with the tolerance three, what
    begins before it spends the tolerance and stops in the middle. The trigger loses the window. -/
theorem more_tolerance_shortens_run :
    ({ tolerance := 1 } : Scanner).longestRun lateRun = 5 ∧
    ({ tolerance := 3 } : Scanner).longestRun lateRun = 3 ∧
    (((adjacencyAbove 3).withTolerance 1).evaluateAdjacency lateRunWindow).isSome ∧
    ¬(((adjacencyAbove 3).withTolerance 3).evaluateAdjacency lateRunWindow).isSome ∧
    ¬∀ (s : Scanner) (channels : List Channel) (t t' : Nat), t ≤ t' →
      (s.withTolerance t).longestRun channels ≤ (s.withTolerance t').longestRun channels := by
  have hsorted : lateRun.Pairwise fun a b => decide (a ≤ b) = true := by decide
  have hone : ({ tolerance := 1 } : Scanner).longestRun lateRun = 5 := by
    rw [Scanner.longestRun_of_sorted _ hsorted]
    decide
  have hthree : ({ tolerance := 3 } : Scanner).longestRun lateRun = 3 := by
    rw [Scanner.longestRun_of_sorted _ hsorted]
    decide
  have hadjacency : ∀ t, ((adjacencyAbove 3).withTolerance t).adjacency lateRunWindow =
      ({ tolerance := t } : Scanner).longestRun lateRun := fun _ => rfl
  refine ⟨hone, hthree, ?_, ?_, ?_⟩
  · rw [Geometry.isSome_evaluateAdjacency, hadjacency, hone]
    decide
  · rw [Geometry.isSome_evaluateAdjacency, hadjacency, hthree]
    decide
  · intro hmono
    have hless := hmono {} lateRun 1 3 (by omega)
    simp only [Scanner.withTolerance, hone, hthree] at hless
    omega

/-- With a lower threshold the trigger keeps the window. -/
theorem late_run_keeps_low_trigger :
    1 ≤ 3 ∧ (((adjacencyAbove 2).withTolerance 1).evaluateAdjacency lateRunWindow).isSome ∧
    (((adjacencyAbove 2).withTolerance 3).evaluateAdjacency lateRunWindow).isSome := by
  have hrun : ((adjacencyAbove 2).withTolerance 1).adjacency lateRunWindow = 5 := by
    show ({ tolerance := 1 } : Scanner).longestRun lateRun = 5
    rw [Scanner.longestRun_of_sorted _ (by decide)]
    decide
  have hfires : (((adjacencyAbove 2).withTolerance 1).evaluateAdjacency lateRunWindow).isSome := by
    rw [Geometry.isSome_evaluateAdjacency, hrun]
    decide
  have hlong : 2 * (adjacencyAbove 2).settings.adjacencyThreshold <
      ((adjacencyAbove 2).withTolerance 1).adjacency lateRunWindow := by
    rw [hrun]
    decide
  have hle : 1 ≤ 3 := by omega
  exact ⟨hle, hfires,
    (longest_run_under_more_tolerance hle).2 (adjacencyAbove 2) lateRunWindow hfires (.inl hlong)⟩

end TriggerChain
