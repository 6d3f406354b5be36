import TriggerChain.Maker.Geometry
import TriggerChain.Proofs.Adjacency.Segments
import TriggerChain.Proofs.Window.Consistency

/-!
# What the longest run measures

The walk around some channels goes through the segments of their set one by one: it counts the
channels of the open segment, keeps what the segment has spent, and ends a run at each cut. A
channel that is met again changes nothing, and the step that closes the circle ends the last run.
So the longest run is the length of the longest segment, up to the largest count.

Main statement: `longest_run_is_longest_segment`.
-/

namespace TriggerChain

/-! ## Runs that end -/

/-- The length of the run that a link ends, if it ends one. -/
def Link.ended? : Link → Option Nat
  | .ends run _ => some run
  | _ => none

/-- The link lengthens the run. -/
def Link.Lengthens : Link → Prop
  | .adjacent | .bridged _ => True
  | _ => False

theorem Link.Lengthens.ended? {link : Link} (h : link.Lengthens) : link.ended? = none := by
  cases link <;> simp_all [Lengthens, Link.ended?]

/-- The lengths of the runs that end on a walk. -/
def endedRuns (links : List Link) : List Nat := links.filterMap Link.ended?

theorem endedRuns_cons_quiet {link : Link} (links : List Link) (h : link.ended? = none) :
    endedRuns (link :: links) = endedRuns links := List.filterMap_cons_none h

@[simp] theorem endedRuns_cons_ends (run : Nat) (longest : Bool) (links : List Link) :
    endedRuns (.ends run longest :: links) = run :: endedRuns links :=
  List.filterMap_cons_some rfl

@[simp] theorem endedRuns_append (links more : List Link) :
    endedRuns (links ++ more) = endedRuns links ++ endedRuns more := List.filterMap_append

namespace Scanner

variable {s : Scanner}

/-- The longest run is the greatest of those that have ended. -/
theorem longest_foldl (s : Scanner) (w : Walk) (steps : List (Channel × Channel)) :
    (steps.foldl s.advance w).longest = (endedRuns (s.links w steps)).foldl max w.longest := by
  induction steps generalizing w with
  | nil => simp [links, endedRuns]
  | cons step rest ih =>
    rw [List.foldl_cons, ih, links, advance]
    cases hlink : s.link w step.1 step.2 with
    | ends run longest => simp [follow]
    | same => rw [endedRuns_cons_quiet _ rfl, follow]
    | adjacent => rw [endedRuns_cons_quiet _ rfl, follow]
    | bridged gap => rw [endedRuns_cons_quiet _ rfl, follow]

theorem links_append (s : Scanner) (w : Walk) (steps more : List (Channel × Channel)) :
    s.links w (steps ++ more) = s.links w steps ++ s.links (steps.foldl s.advance w) more := by
  induction steps generalizing w with
  | nil => simp [links]
  | cons step rest ih => simp [links, ih]

/-! ## One step -/

/-- A walk stands at the channel `a` of a segment that began with `before`. -/
structure IsAt (s : Scanner) (before : List Channel) (a : Channel) (w : Walk) : Prop where
  /-- The channels of the segment are counted as far as the count goes. -/
  run : w.run = min (before.length + 1) maxRunLength
  /-- What the segment has cost so far is known. -/
  spent : w.spent = s.rule.spentOn (before ++ [a])

/-- A walk begins a segment at any channel. -/
theorem isAt_begin (s : Scanner) (a : Channel) (longest : Nat) :
    s.IsAt [] a { longest := longest } := by
  apply IsAt.mk <;> simp [maxRunLength]

/-- What a step up from one channel to another is, as the segments have it. -/
inductive Goes (s : Scanner) (before : List Channel) (a b : Channel) (w : Walk) : Link → Prop
  /-- The channel is met again. -/
  | again (hsame : b = a) : Goes s before a b w .same
  /-- The segment goes on. -/
  | on {link : Link} (hlt : a < b) (hgoes : s.GoesOn before a b) (hlink : link.Lengthens)
      (hnext : s.IsAt (before ++ [a]) b (s.follow w link))
      (hlongest : (s.follow w link).longest = w.longest) : Goes s before a b w link
  /-- There is a cut. -/
  | cut (hlt : a < b) (hcut : ¬s.GoesOn before a b) :
      Goes s before a b w (.ends w.run (w.longest < w.run))

/-- A count that grows by one channel. -/
theorem lengthen_count (n : Nat) : lengthen (min n maxRunLength) = min (n + 1) maxRunLength := by
  unfold lengthen
  omega

theorem goes {before : List Channel} {a b : Channel} {w : Walk} (h : s.IsAt before a w)
    (hle : a ≤ b) : s.Goes before a b w (s.link w a b) := by
  have hle' := UInt32.le_iff_toNat_le.1 hle
  have hup : ¬b < a := UInt32.not_lt.2 hle
  have hrun := lengthen_count (before.length + 1)
  rw [← h.run] at hrun
  have hspent := s.rule.spentOn_snoc before a b
  rw [← h.spent] at hspent
  simp only [link, hup, if_false]
  by_cases hsame : b.toNat - a.toNat = 0
  · simp only [hsame, if_true]
    exact .again (UInt32.toNat_inj.1 (by omega))
  · have hlt : a < b := UInt32.lt_iff_toNat_lt.2 (by omega)
    by_cases hone : b.toNat - a.toNat = 1
    · simp only [hone, if_true]
      apply Goes.on hlt (.inl hone) (by simp [Link.Lengthens]) _ (by simp [follow])
      apply IsAt.mk
      · simpa [follow] using hrun
      · simp [follow, hspent, ToleranceRule.price, gapBetween, hone]
    · simp only [hsame, hone, if_false]
      by_cases hbridge : b.toNat - a.toNat ≤ s.maxGap ∧ w.spent < s.tolerance
      · simp only [hbridge, and_self, if_true]
        have hgoes : s.GoesOn before a b := by
          unfold GoesOn gapBetween
          rw [← h.spent]
          omega
        apply Goes.on hlt hgoes (by simp [Link.Lengthens]) _ (by simp [follow])
        apply IsAt.mk
        · simpa [follow] using hrun
        · simp [follow, hspent, ToleranceRule.price, gapBetween, hone]
      · simp only [hbridge, if_false]
        apply Goes.cut hlt
        unfold GoesOn gapBetween
        rw [← h.spent]
        omega

/-- A step down ends the run. -/
theorem link_down (s : Scanner) (w : Walk) {a b : Channel} (hdown : b < a) :
    s.link w a b = .ends w.run (w.longest < w.run) := by
  simp [link, hdown]

/-! ## The walk around the channels -/

theorem dedup_cons_self (a : Channel) (rest : List Channel) :
    (a :: a :: rest).dedup = (a :: rest).dedup :=
  List.dedup_cons_of_mem List.mem_cons_self

/-- What lies below the first of some channels in order is not among them. -/
theorem notMem_of_lt_first {a b : Channel} {rest : List Channel}
    (hsorted : (b :: rest).Pairwise (· ≤ ·)) (hlt : a < b) : a ∉ b :: rest := by
  intro hmem
  rcases List.mem_cons.1 hmem with rfl | hmem
  · exact UInt32.lt_irrefl a hlt
  · exact UInt32.not_le.2 hlt ((List.pairwise_cons.1 hsorted).1 a hmem)

theorem dedup_cons_first {a b : Channel} {rest : List Channel}
    (hsorted : (a :: b :: rest).Pairwise (· ≤ ·)) (hlt : a < b) :
    (a :: b :: rest).dedup = a :: (b :: rest).dedup :=
  List.dedup_cons_of_notMem (notMem_of_lt_first (List.pairwise_cons.1 hsorted).2 hlt)

/-- The first of some channels in order is the first of their set. -/
theorem exists_dedup_cons {a : Channel} {rest : List Channel}
    (hsorted : (a :: rest).Pairwise (· ≤ ·)) : ∃ tail, (a :: rest).dedup = a :: tail := by
  induction rest with
  | nil => exact ⟨[], by simp⟩
  | cons b rest ih =>
    obtain ⟨hlow, hrest⟩ := List.pairwise_cons.1 hsorted
    by_cases hsame : a = b
    · subst hsame
      rw [dedup_cons_self]
      exact ih hrest
    · have hlt : a < b := UInt32.lt_of_le_of_ne (hlow b List.mem_cons_self) hsame
      exact ⟨(b :: rest).dedup, dedup_cons_first hsorted hlt⟩

theorem exists_dedup_rest {a b : Channel} {rest tail : List Channel}
    (hsorted : (a :: b :: rest).Pairwise (· ≤ ·)) (hlt : a < b)
    (htail : (a :: b :: rest).dedup = a :: tail) :
    ∃ more, tail = b :: more ∧ (b :: rest).dedup = b :: more := by
  obtain ⟨more, hmore⟩ := exists_dedup_cons (List.pairwise_cons.1 hsorted).2
  rw [dedup_cons_first hsorted hlt, hmore] at htail
  exact ⟨more, (List.cons.inj htail).2.symm, hmore⟩

/-- What lies above the beginning of the circle is still to come. -/
theorem exists_above_rest {a b last : Channel} {rest : List Channel}
    (hsorted : (a :: b :: rest).Pairwise (· ≤ ·)) (h : ∃ c ∈ a :: b :: rest, last < c) :
    ∃ c ∈ b :: rest, last < c := by
  obtain ⟨c, hc, hlt⟩ := h
  rcases List.mem_cons.1 hc with rfl | hc
  · have hle := (List.pairwise_cons.1 hsorted).1 b List.mem_cons_self
    exact ⟨b, List.mem_cons_self, UInt32.lt_of_lt_of_le hlt hle⟩
  · exact ⟨c, hc, hlt⟩

/-- The length of a segment, as a walk counts it. -/
def counted (seg : List Channel) : Nat := min seg.length maxRunLength

/-- From a channel on, the walk ends one run for each segment, the last one with the step back to
    the beginning. -/
theorem IsAt.endedRuns {before rest tail : List Channel} {a last : Channel} {w : Walk}
    (h : s.IsAt before a w) (hsorted : (a :: rest).Pairwise (· ≤ ·))
    (htail : (a :: rest).dedup = a :: tail) (hdown : ∃ c ∈ a :: rest, last < c) :
    TriggerChain.endedRuns (s.links w ((a :: rest).zip (rest ++ [last]))) =
      (s.segmentsFrom before a tail).map counted := by
  -- By induction on the channels to come; where the walk stands is carried along.
  induction rest generalizing before a tail w with
  | nil =>
    obtain ⟨c, hc, hlt⟩ := hdown
    obtain rfl := List.mem_singleton.1 hc
    obtain rfl : tail = [] := by simpa using htail.symm
    simp [links, s.link_down w hlt, TriggerChain.endedRuns, Link.ended?, segmentsFrom, counted,
      h.run]
  | cons b rest ih =>
    obtain ⟨hlow, hrest⟩ := List.pairwise_cons.1 hsorted
    have hab := hlow b List.mem_cons_self
    have hdown' := exists_above_rest hsorted hdown
    have hgoes := goes h hab
    simp only [List.cons_append, List.zip_cons_cons, links, advance]
    generalize s.link w a b = link at hgoes
    cases hgoes with
    | again hsame =>
      subst hsame
      rw [dedup_cons_self] at htail
      exact ih h hrest htail hdown'
    | on hlt hgoes hlink hnext =>
      obtain ⟨more, rfl, hmore⟩ := exists_dedup_rest hsorted hlt htail
      rw [endedRuns_cons_quiet _ hlink.ended?, ih hnext hrest hmore hdown', segmentsFrom,
        if_pos hgoes]
    | cut hlt hcut =>
      obtain ⟨more, rfl, hmore⟩ := exists_dedup_rest hsorted hlt htail
      rw [endedRuns_cons_ends, follow, ih (s.isAt_begin b _) hrest hmore hdown', segmentsFrom,
        if_neg hcut]
      simp [counted, h.run]

/-- The greatest count is that of a longest segment. -/
theorem IsFirstLongest.max_counted {segs : List (List Channel)} {seg : List Channel}
    (h : IsFirstLongest segs seg) : (segs.map counted).foldl max 0 = counted seg := by
  have hgreatest : (segs.map counted).max? = some (counted seg) := by
    rw [List.max?_eq_some_iff]
    refine ⟨List.mem_map_of_mem h.mem, ?_⟩
    intro n hn
    obtain ⟨other, hother, rfl⟩ := List.mem_map.1 hn
    have := h.length_le other hother
    unfold counted
    omega
  simp [List.foldl_max, hgreatest]

/-! ## One channel, and more than one -/

/-- A walk that meets one channel alone counts nothing. -/
theorem foldl_advance_same (s : Scanner) (w : Walk) {steps : List (Channel × Channel)}
    (h : ∀ step ∈ steps, step.1 = step.2) : steps.foldl s.advance w = w := by
  induction steps with
  | nil => simp
  | cons step rest ih =>
    have hstep := h step List.mem_cons_self
    have hstays : s.advance w step = w := by simp [advance, link, follow, hstep]
    rw [List.foldl_cons, hstays]
    exact ih fun step' hstep' => h step' (List.mem_cons_of_mem step hstep')

theorem mem_cyclicSteps {α : Type} {xs : List α} {step : α × α} (h : step ∈ cyclicSteps xs) :
    step.1 ∈ xs ∧ step.2 ∈ xs := by
  obtain ⟨hleft, hright⟩ := List.of_mem_zip h
  refine ⟨hleft, ?_⟩
  cases xs with
  | nil => cases hleft
  | cons first rest => simpa [or_comm] using hright

/-- Fewer than two channels are one and the same. -/
theorem eq_of_few {channels : List Channel} (h : (distinctAscending channels).length ≤ 1)
    {c d : Channel} (hc : c ∈ channels) (hd : d ∈ channels) : c = d := by
  rw [← mem_distinctAscending] at hc hd
  cases hdistinct : distinctAscending channels with
  | nil => simp [hdistinct] at hc
  | cons first rest =>
    obtain rfl : rest = [] := by simpa [hdistinct] using h
    simp_all

/-- There is no run of fewer than two channels. -/
theorem longestRun_of_few (s : Scanner) {channels : List Channel}
    (h : (distinctAscending channels).length ≤ 1) : s.longestRun channels = 0 := by
  rw [longestRun, longestOnWalk, foldl_advance_same]
  intro step hstep
  obtain ⟨hleft, hright⟩ := mem_cyclicSteps hstep
  exact eq_of_few h (List.mem_mergeSort.1 hleft) (List.mem_mergeSort.1 hright)

/-- More than one channel in order: they begin below where they end. -/
theorem exists_sorted_cons {channels : List Channel}
    (h : 1 < (distinctAscending channels).length) :
    ∃ first rest, channels.mergeSort (fun a b => decide (a ≤ b)) = first :: rest ∧
      (first :: rest).Pairwise (· ≤ ·) ∧ (first :: rest).dedup = distinctAscending channels ∧
      ∃ c ∈ first :: rest, first < c := by
  have hsorted := sorted_mergeSort channels
  have hdedup := dedup_eq_distinctAscending hsorted
  rw [distinctAscending_congr (fun c => List.mem_mergeSort)] at hdedup
  cases hlist : channels.mergeSort (fun a b => decide (a ≤ b)) with
  | nil =>
    rw [← hdedup, hlist] at h
    simp at h
  | cons first rest =>
    rw [hlist] at hsorted hdedup
    refine ⟨first, rest, rfl, hsorted, hdedup, ?_⟩
    obtain ⟨tail, htail⟩ := exists_dedup_cons hsorted
    rw [← hdedup, htail] at h
    cases tail with
    | nil => simp at h
    | cons c tail =>
      have hc : c ∈ first :: rest := by
        rw [← List.mem_dedup, htail]
        simp
      have hlt := pairwise_distinctAscending channels
      rw [← hdedup, htail] at hlt
      exact ⟨c, hc, (List.pairwise_cons.1 hlt).1 c List.mem_cons_self⟩

/-- The walk around more than one channel ends one run for each segment. -/
theorem endedRuns_walk (s : Scanner) {channels : List Channel}
    (h : 1 < (distinctAscending channels).length) :
    endedRuns (s.walk (channels.mergeSort fun a b => decide (a ≤ b))) =
      (s.segmentsOf (distinctAscending channels)).map counted := by
  obtain ⟨first, rest, hlist, hsorted, hdedup, hdown⟩ := exists_sorted_cons h
  obtain ⟨tail, htail⟩ := exists_dedup_cons hsorted
  rw [hlist, ← hdedup, htail]
  exact (s.isAt_begin first 0).endedRuns hsorted htail hdown

/-- The step that closes the circle ends a run. -/
theorem exists_walk_append_ends (s : Scanner) {channels : List Channel}
    (h : 1 < (distinctAscending channels).length) :
    ∃ links run longest, s.walk (channels.mergeSort fun a b => decide (a ≤ b)) =
      links ++ [.ends run longest] := by
  obtain ⟨first, rest, hlist, hsorted, -, c, hc, hlt⟩ := exists_sorted_cons h
  obtain ⟨front, last, hfront⟩ := (List.eq_nil_or_concat (first :: rest)).resolve_left (by simp)
  rw [List.concat_eq_append] at hfront
  -- The last channel is the highest.
  have hdown : first < last := by
    rw [hfront] at hsorted hc
    rcases List.mem_append.1 hc with hc | hc
    · have hle := (List.pairwise_append.1 hsorted).2.2 c hc last (by simp)
      exact UInt32.lt_of_lt_of_le hlt hle
    · obtain rfl := List.mem_singleton.1 hc
      exact hlt
  have hlength : front.length = rest.length := by
    have := congrArg List.length hfront
    simpa using this.symm
  have hsteps : cyclicSteps (first :: rest) = front.zip rest ++ [(last, first)] := by
    show (first :: rest).zip (rest ++ [first]) = _
    rw [hfront, List.zip_append hlength]
    simp
  rw [hlist, walk, hsteps, links_append, links, links, s.link_down _ hdown]
  exact ⟨_, _, _, rfl⟩

/-- The longest run in terms of the segments. -/
theorem longestRun_eq (s : Scanner) (channels : List Channel) :
    s.longestRun channels = if (distinctAscending channels).length ≤ 1 then 0
      else ((s.segmentsOf (distinctAscending channels)).map counted).foldl max 0 := by
  by_cases hfew : (distinctAscending channels).length ≤ 1
  · rw [if_pos hfew, s.longestRun_of_few hfew]
  · rw [if_neg hfew, ← s.endedRuns_walk (by omega)]
    exact s.longest_foldl {} _

/-- The longest run of more than one channel is the length of the first longest segment. -/
theorem exists_longest_segment (s : Scanner) {channels : List Channel}
    (h : 1 < (distinctAscending channels).length) :
    ∃ seg, IsFirstLongest (s.segmentsOf (distinctAscending channels)) seg ∧
      s.longestRun channels = counted seg := by
  have hcutting := s.isCutting_distinctAscending channels
  have hne : s.segmentsOf (distinctAscending channels) ≠ [] := by
    intro hnil
    have hflatten := hcutting.flatten
    rw [hnil, List.flatten_nil] at hflatten
    simp [← hflatten] at h
  obtain ⟨seg, hseg⟩ := exists_isFirstLongest hne
  refine ⟨seg, hseg, ?_⟩
  rw [longestRun_eq, if_neg (by omega), hseg.max_counted]

theorem longestRun_eq_zero_iff (s : Scanner) {channels : List Channel} :
    s.longestRun channels = 0 ↔ (distinctAscending channels).length ≤ 1 := by
  constructor
  · intro hzero
    by_contra hmany
    obtain ⟨seg, hseg, hlength⟩ := s.exists_longest_segment (Nat.lt_of_not_le hmany)
    have hcutting := s.isCutting_distinctAscending channels
    have hpos := List.length_pos_iff.2 (hcutting.nonempty seg hseg.mem)
    simp only [hzero, counted, maxRunLength] at hlength
    omega
  · exact s.longestRun_of_few

/-- The last segment is ended by the step that closes the circle. -/
theorem exists_walk_append_last (s : Scanner) {channels : List Channel}
    (h : 1 < (distinctAscending channels).length) :
    ∃ links earlier last longest,
      s.segmentsOf (distinctAscending channels) = earlier ++ [last] ∧
      s.walk (channels.mergeSort fun a b => decide (a ≤ b)) =
        links ++ [.ends (counted last) longest] := by
  obtain ⟨links, run, longest, hwalk⟩ := s.exists_walk_append_ends h
  have hruns := s.endedRuns_walk h
  rw [hwalk, endedRuns_append, endedRuns_cons_ends] at hruns
  rcases List.eq_nil_or_concat (s.segmentsOf (distinctAscending channels)) with
    hnil | ⟨earlier, last, hlast⟩
  · simp [hnil] at hruns
  · rw [List.concat_eq_append] at hlast
    rw [hlast, List.map_append] at hruns
    -- The run that ends last is that of the last segment.
    have hrun := (List.append_inj' hruns (by simp [endedRuns])).2
    obtain rfl : run = counted last := by simpa [endedRuns] using hrun
    exact ⟨links, earlier, last, longest, hlast, hwalk⟩

/-- The longest run depends on the set of the channels alone. -/
theorem longestRun_congr (s : Scanner) {cs ds : List Channel} (h : ∀ c, c ∈ cs ↔ c ∈ ds) :
    s.longestRun cs = s.longestRun ds := by
  rw [longestRun_eq, longestRun_eq, distinctAscending_congr h]

end Scanner

/-! ## What is spent, in a word -/

/-- A walk whose expenses are counted in a word of 32 bits, and no further. -/
def Walk.inWord (w : Walk) : Walk := { w with spent := min w.spent (UInt32.size - 1) }

namespace Scanner

/-- A walk that counts its expenses in a word takes the same steps, if the tolerance is a word. -/
theorem foldl_advance_inWord {s : Scanner} (htolerance : s.tolerance < UInt32.size) (w : Walk)
    (steps : List (Channel × Channel)) :
    steps.foldl (fun w step => (s.advance w step).inWord) w.inWord =
      (steps.foldl s.advance w).inWord := by
  induction steps generalizing w with
  | nil => simp
  | cons step rest ih =>
    have hlink : s.link w.inWord step.1 step.2 = s.link w step.1 step.2 := by
      have hbudget : w.inWord.spent < s.tolerance ↔ w.spent < s.tolerance := by
        simp only [Walk.inWord]
        omega
      exact if_congr Iff.rfl rfl (if_congr Iff.rfl rfl (if_congr Iff.rfl rfl
        (if_congr (and_congr_right' hbudget) rfl rfl)))
    have hstep : (s.advance w.inWord step).inWord = (s.advance w step).inWord := by
      rw [advance, advance, hlink]
      cases s.link w step.1 step.2 with
      | same => simp [follow, Walk.inWord]
      | adjacent => simp [follow, Walk.inWord]
      | ends run longest => simp [follow, Walk.inWord]
      | bridged gap =>
        simp only [follow, Walk.inWord, Walk.mk.injEq, true_and, and_true]
        omega
    rw [List.foldl_cons, List.foldl_cons, hstep]
    exact ih (s.advance w step)

/-! ## The longest run -/

/-- What the longest run of some channels says of the segments of their set. -/
structure Measures (s : Scanner) (channels : List Channel) (segs : List (List Channel)) : Prop where
  /-- There is no run of fewer than two channels. -/
  few : (distinctAscending channels).length ≤ 1 → s.longestRun channels = 0
  /-- Otherwise it is the length of a longest segment, as far as the count goes. -/
  longest : 1 < (distinctAscending channels).length →
    ∃ seg ∈ segs, (∀ other ∈ segs, other.length ≤ seg.length) ∧
      s.longestRun channels = min seg.length maxRunLength
  /-- One run ends for each segment. -/
  runs : 1 < (distinctAscending channels).length →
    endedRuns (s.walk (channels.mergeSort fun a b => decide (a ≤ b))) =
      segs.map fun seg => min seg.length maxRunLength
  /-- The last segment is ended by the step that closes the circle. -/
  closed : 1 < (distinctAscending channels).length →
    ∃ links earlier last longest, segs = earlier ++ [last] ∧
      s.walk (channels.mergeSort fun a b => decide (a ≤ b)) =
        links ++ [.ends (min last.length maxRunLength) longest]
  /-- Channels without a gap lie within one segment. -/
  blocks : ∀ low high, low ≤ high → (∀ c, low ≤ c → c ≤ high → c ∈ channels) →
    ∃ seg ∈ segs, ∀ c, low ≤ c → c ≤ high → c ∈ seg
  /-- The same is measured in any order and with any repetitions. -/
  sameSet : ∀ others, (∀ c, c ∈ others ↔ c ∈ channels) →
    s.longestRun others = s.longestRun channels
  /-- Nothing changes if what a run has spent is counted in a word and no further. -/
  inWord : s.tolerance < UInt32.size →
    ((cyclicSteps (channels.mergeSort fun a b => decide (a ≤ b))).foldl
      (fun w step => (s.advance w step).inWord) {}).longest = s.longestRun channels

theorem measures (s : Scanner) (channels : List Channel) :
    s.Measures channels (s.segmentsOf (distinctAscending channels)) := by
  have hcutting := s.isCutting_distinctAscending channels
  apply Measures.mk
  · exact s.longestRun_of_few
  · intro hmany
    obtain ⟨seg, hseg, hlength⟩ := s.exists_longest_segment hmany
    exact ⟨seg, hseg.mem, hseg.length_le, hlength⟩
  · exact s.endedRuns_walk
  · exact s.exists_walk_append_last
  · intro low high hle hblock
    apply hcutting.block_within (pairwise_distinctAscending channels) hle
    simpa using hblock
  · intro others hsame
    exact s.longestRun_congr hsame
  · intro htolerance
    have hstart : ({} : Walk).inWord = {} := by simp [Walk.inWord]
    have hwords := foldl_advance_inWord htolerance {}
      (cyclicSteps (channels.mergeSort fun a b => decide (a ≤ b)))
    rw [hstart] at hwords
    rw [hwords, longestRun, longestOnWalk, Walk.inWord]

end Scanner

/-- The longest run is the length of the longest segment of the set of channels. -/
theorem longest_run_is_longest_segment (s : Scanner) (channels : List Channel) :
    (∃! segs, s.IsCutting (distinctAscending channels) segs) ∧
    (∀ segs, s.IsCutting (distinctAscending channels) segs → s.Measures channels segs) ∧
    ∀ (g : Geometry) (changes : List (Window.Change Primitive)) (w : Window Primitive),
      Window.afterAll changes = .ok w →
        g.adjacency w = (g.settings.scanner .gapWidth).longestRun w.hits.channels := by
  have hlt := pairwise_distinctAscending channels
  refine ⟨s.existsUnique_isCutting hlt, ?_, ?_⟩
  · intro segs hcutting
    rw [hcutting.eq_segmentsOf hlt]
    exact s.measures channels
  · intro g changes w hw
    rcases Window.consistent_empty.changes changes with ⟨w', hok, hconsistent, -⟩ | ⟨herr, -⟩
    · obtain rfl : w = w' := Except.ok.inj (hw.symm.trans hok)
      apply Scanner.longestRun_congr
      intro c
      rw [hconsistent.represents.channels]
      simp [Element.channels, eq_comm]
    · exact (Checked.false_of_ok_error hw herr).elim

end TriggerChain
