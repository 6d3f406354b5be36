import TriggerChain.Charge.Track
import TriggerChain.Proofs.Adjacency.LongestRun

/-!
# What the search for the longest track collects

The search goes through the segments of the channels as the scanner does. Beside each segment it
collects, channel by channel, the first hit and every later one that begins close to the hit before
it on the same channel; at each cut it keeps the collection if its segment is longer than those
before.

Main statement: `ProfileTest.longestTrack_eq`.
-/

namespace TriggerChain

/-! ## Hits on one channel -/

/-- The hits on a channel. -/
def onChannel (hits : List TrackHit) (c : Channel) : List TrackHit :=
  hits.filter fun hit => decide (hit.channel = c)

theorem mem_onChannel {hits : List TrackHit} {c : Channel} {hit : TrackHit} :
    hit ∈ onChannel hits c ↔ hit ∈ hits ∧ hit.channel = c := by
  simp [onChannel]

theorem onChannel_cons_self (hit : TrackHit) (hits : List TrackHit) :
    onChannel (hit :: hits) hit.channel = hit :: onChannel hits hit.channel := by
  simp [onChannel]

theorem onChannel_cons_ne {hit : TrackHit} {c : Channel} (hits : List TrackHit)
    (h : c ≠ hit.channel) : onChannel (hit :: hits) c = onChannel hits c := by
  simp [onChannel, h.symm]

theorem onChannel_eq_nil {hits : List TrackHit} {c : Channel} (h : c ∉ hits.map (·.channel)) :
    onChannel hits c = [] := by
  unfold onChannel
  rw [List.filter_eq_nil_iff]
  intro hit hhit
  rw [decide_eq_true_eq]
  rintro rfl
  exact h (List.mem_map_of_mem hhit)

namespace ProfileTest

/-- Hits in channel order are the hits of the primitives, sorted stably by the channel. -/
theorem stablySorted_hitsInOrder (ps : List Primitive) :
    StablySorted TrackHit.channel (ps.map TrackHit.ofPrimitive) (hitsInOrder ps) :=
  stablySorted_mergeSort TrackHit.channel _

theorem sorted_hitsInOrder (ps : List Primitive) :
    ((hitsInOrder ps).map (·.channel)).Pairwise (· ≤ ·) := by
  rw [List.pairwise_map]
  exact (stablySorted_hitsInOrder ps).ascending

theorem hitsInOrder_perm (ps : List Primitive) :
    (hitsInOrder ps).Perm (ps.map TrackHit.ofPrimitive) := (stablySorted_hitsInOrder ps).perm

/-- The hits in channel order keep the order in which they came on each channel. -/
theorem onChannel_hitsInOrder (ps : List Primitive) (c : Channel) :
    onChannel (hitsInOrder ps) c = onChannel (ps.map TrackHit.ofPrimitive) c :=
  (stablySorted_hitsInOrder ps).order c

/-! ## What is kept on a channel -/

/-- Of hits behind a hit on the same channel, those that begin close to the one before. -/
def keptAfter (t : ProfileTest) (previous : TrackHit) : List TrackHit → List TrackHit
  | [] => []
  | hit :: rest =>
    if hit.timeStart.distance previous.timeStart < t.sameChannelWindow then
      hit :: t.keptAfter hit rest
    else t.keptAfter hit rest

/-- Of hits on one channel, the first and all that begin close to the one before. -/
def kept (t : ProfileTest) : List TrackHit → List TrackHit
  | [] => []
  | first :: rest => first :: t.keptAfter first rest

/-- What is kept of some hits along a segment. -/
def trackAlong (t : ProfileTest) (hits : List TrackHit) (seg : List Channel) : List TrackHit :=
  seg.flatMap fun c => t.kept (onChannel hits c)

theorem keptAfter_sublist (t : ProfileTest) (previous : TrackHit) (hits : List TrackHit) :
    (t.keptAfter previous hits).Sublist hits := by
  induction hits generalizing previous with
  | nil => simp [keptAfter]
  | cons hit rest ih =>
    by_cases hclose : hit.timeStart.distance previous.timeStart < t.sameChannelWindow
    · simpa [keptAfter, hclose] using ih hit
    · simpa [keptAfter, hclose] using (ih hit).cons hit

theorem kept_sublist (t : ProfileTest) (hits : List TrackHit) : (t.kept hits).Sublist hits := by
  cases hits with
  | nil => simp [kept]
  | cons first rest => simpa [kept] using t.keptAfter_sublist first rest

@[simp] theorem head?_kept (t : ProfileTest) (hits : List TrackHit) :
    (t.kept hits).head? = hits.head? := by
  cases hits <;> simp [kept]

@[simp] theorem trackAlong_nil (t : ProfileTest) (hits : List TrackHit) :
    t.trackAlong hits [] = [] := by
  simp [trackAlong]

theorem trackAlong_cons (t : ProfileTest) (hits : List TrackHit) (c : Channel)
    (seg : List Channel) :
    t.trackAlong hits (c :: seg) = t.kept (onChannel hits c) ++ t.trackAlong hits seg := by
  simp [trackAlong]

/-- A hit on another channel does not matter for what is kept. -/
theorem trackAlong_cons_ne (t : ProfileTest) {hit : TrackHit} (hits : List TrackHit)
    {seg : List Channel} (h : hit.channel ∉ seg) :
    t.trackAlong (hit :: hits) seg = t.trackAlong hits seg := by
  induction seg with
  | nil => simp
  | cons c seg ih =>
    rw [List.mem_cons, not_or] at h
    rw [trackAlong_cons, trackAlong_cons, onChannel_cons_ne hits (Ne.symm h.1), ih h.2]

/-- What is kept along a segment, from its first hit on. -/
theorem trackAlong_cons_self (t : ProfileTest) {hit : TrackHit} (hits : List TrackHit)
    {seg : List Channel} (h : hit.channel ∉ seg) :
    t.trackAlong (hit :: hits) (hit.channel :: seg) =
      hit :: t.keptAfter hit (onChannel hits hit.channel) ++ t.trackAlong hits seg := by
  rw [trackAlong_cons, onChannel_cons_self, kept, trackAlong_cons_ne t hits h]

end ProfileTest

/-! ## One step of the search -/

/-- The hits of the run that is open at a hit, latest first. -/
def TrackSearch.openAt (search : TrackSearch) (hit : TrackHit) : List TrackHit :=
  if search.current.isEmpty then [hit] else search.current

/-- The search after the run has ended with a hit. -/
def TrackSearch.closeAt (search : TrackSearch) (hit : TrackHit) : TrackSearch where
  walk := { longest := max search.walk.longest search.walk.run }
  longest := if search.walk.longest < search.walk.run then search.openAt hit else search.longest

@[simp] theorem TrackSearch.openAt_ne_nil (search : TrackSearch) (hit : TrackHit) :
    search.openAt hit ≠ [] := by
  unfold openAt
  cases hcurrent : search.current <;> simp

/-- A run that is open goes on being so. -/
theorem TrackSearch.openAt_mk {walk : Walk} {current longest : List TrackHit} (hit : TrackHit)
    (h : current ≠ []) : TrackSearch.openAt { walk, current, longest } hit = current := by
  simp [openAt, h]

@[simp] theorem TrackSearch.openAt_closeAt (search : TrackSearch) (a b : TrackHit) :
    (search.closeAt a).openAt b = [b] := by
  simp [openAt, closeAt]

namespace ProfileTest

variable {t : ProfileTest} {before : List Channel} {search : TrackSearch} {a b : TrackHit}

/-- What a step up makes of a search, as the segments have it. -/
inductive Collects (t : ProfileTest) (before : List Channel) (search : TrackSearch)
    (a b : TrackHit) : TrackSearch → Prop
  /-- A hit on the same channel joins the run if it begins close enough. -/
  | again (hsame : b.channel = a.channel) :
      Collects t before search a b
        { search with
          current := if b.timeStart.distance a.timeStart < t.sameChannelWindow then
            b :: search.openAt a else search.openAt a }
  /-- The segment goes on with the hit. -/
  | grows {walk : Walk} (hlt : a.channel < b.channel)
      (hgoes : t.scanner.GoesOn before a.channel b.channel)
      (hnext : t.scanner.IsAt (before ++ [a.channel]) b.channel walk)
      (hlongest : walk.longest = search.walk.longest) :
      Collects t before search a b { search with walk, current := b :: search.openAt a }
  /-- There is a cut between the two hits. -/
  | ends (hlt : a.channel < b.channel)
      (hcut : ¬t.scanner.GoesOn before a.channel b.channel) :
      Collects t before search a b (search.closeAt a)

/-- A step that ends the run closes the search. -/
theorem follow_of_ends (hends : t.scanner.link search.walk a.channel b.channel =
      .ends search.walk.run (search.walk.longest < search.walk.run)) :
    t.follow search (a, b) = search.closeAt a := by
  unfold follow TrackSearch.closeAt TrackSearch.openAt
  dsimp only
  rw [hends]
  by_cases hlonger : search.walk.longest < search.walk.run
  · simp [hlonger, Scanner.follow]
  · simp [hlonger, Scanner.follow]

theorem collects (h : t.scanner.IsAt before a.channel search.walk)
    (hle : a.channel ≤ b.channel) : Collects t before search a b (t.follow search (a, b)) := by
  have hgoes := Scanner.goes h hle
  have hends : _ → t.follow search (a, b) = search.closeAt a := follow_of_ends
  have hopen : (if search.current.isEmpty then [a] else search.current) = search.openAt a := rfl
  unfold follow at hends ⊢
  dsimp only at hends ⊢
  rw [hopen] at hends ⊢
  generalize t.scanner.link search.walk a.channel b.channel = link at hgoes hends
  cases hgoes with
  | again hsame =>
    have hagain : Collects t before search a b _ := .again hsame
    by_cases hclose : b.timeStart.distance a.timeStart < t.sameChannelWindow
    · simpa [hclose, Scanner.follow] using hagain
    · simpa [hclose, Scanner.follow] using hagain
  | on hlt hgoes hlink hnext hlongest =>
    cases link with
    | same => exact hlink.elim
    | ends => exact hlink.elim
    | adjacent => exact .grows hlt hgoes hnext hlongest
    | bridged gap => exact .grows hlt hgoes hnext hlongest
  | cut hlt hcut =>
    rw [hends rfl]
    exact .ends hlt hcut

end ProfileTest

/-! ## The whole search -/

/-- Of two collections with the counts of their segments the larger one, the first if they are
    equal. -/
def largerOf (best found : Nat × List TrackHit) : Nat × List TrackHit :=
  if best.1 < found.1 then found else best

/-- What a search has found, with its count. -/
def TrackSearch.found (search : TrackSearch) : Nat × List TrackHit :=
  (search.walk.longest, search.longest.reverse)

theorem TrackSearch.found_closeAt (search : TrackSearch) (hit : TrackHit) :
    (search.closeAt hit).found =
      largerOf search.found (search.walk.run, (search.openAt hit).reverse) := by
  unfold found closeAt largerOf
  by_cases hlonger : search.walk.longest < search.walk.run
  · have hmax : max search.walk.longest search.walk.run = search.walk.run := by omega
    simp [hlonger, hmax]
  · have hmax : max search.walk.longest search.walk.run = search.walk.longest := by omega
    simp [hlonger, hmax]

/-- While a run is open, nothing new is found. -/
theorem TrackSearch.found_mk {search : TrackSearch} {walk : Walk} (current : List TrackHit)
    (h : walk.longest = search.walk.longest) :
    TrackSearch.found { walk, current, longest := search.longest } = search.found := by
  simp [found, h]

namespace ProfileTest

variable {t : ProfileTest}

/-- What is collected of some hits along a segment, with the count of its channels. -/
def collected (t : ProfileTest) (hits : List TrackHit) (seg : List Channel) :
    Nat × List TrackHit :=
  (Scanner.counted seg, t.trackAlong hits seg)

theorem map_collected_cons_ne (t : ProfileTest) {hit : TrackHit} (hits : List TrackHit)
    {segs : List (List Channel)} (h : hit.channel ∉ segs.flatten) :
    segs.map (t.collected (hit :: hits)) = segs.map (t.collected hits) := by
  apply List.map_congr_left
  intro seg hseg
  have hnot : hit.channel ∉ seg := fun hmem => h (List.mem_flatten.2 ⟨seg, hseg, hmem⟩)
  rw [collected, collected, t.trackAlong_cons_ne hits hnot]

/-- The channel at which a segment is open does not come again. -/
theorem notMem_more {channels before tail more : List Channel} {later : List (List Channel)}
    {a : Channel} (htail : channels.dedup = a :: tail)
    (hsegs : t.scanner.segmentsFrom before a tail = (before ++ a :: more) :: later) :
    a ∉ more ∧ a ∉ later.flatten := by
  have hflatten := t.scanner.flatten_segmentsFrom before a tail
  rw [hsegs] at hflatten
  obtain rfl : more ++ later.flatten = tail := by simpa using hflatten
  have hnodup := channels.nodup_dedup
  rw [htail] at hnodup
  simpa using (List.nodup_cons.1 hnodup).1

/-- From a hit on, the search closes one segment after the other, the last one with the step back to
    the beginning. -/
theorem found_foldl {before tail more : List Channel} {later : List (List Channel)}
    {search : TrackSearch} {a last : TrackHit} {rest : List TrackHit}
    (h : t.scanner.IsAt before a.channel search.walk)
    (hsorted : ((a :: rest).map (·.channel)).Pairwise (· ≤ ·))
    (htail : ((a :: rest).map (·.channel)).dedup = a.channel :: tail)
    (hdown : ∃ c ∈ (a :: rest).map (·.channel), last.channel < c)
    (hsegs : t.scanner.segmentsFrom before a.channel tail =
      (before ++ a.channel :: more) :: later) :
    (((a :: rest).zip (rest ++ [last])).foldl t.follow search).found =
      (later.map (t.collected rest)).foldl largerOf
        (largerOf search.found (Scanner.counted (before ++ a.channel :: more),
          (search.openAt a).reverse ++
            (t.keptAfter a (onChannel rest a.channel) ++ t.trackAlong rest more))) := by
  -- By induction on the hits to come. The run that is open has taken its part of the hits up to `a`;
  -- what it will take is what is kept of the others on the channel of `a`, and along `more`.
  induction rest generalizing before a tail more later search with
  | nil =>
    obtain ⟨c, hc, hlt⟩ := hdown
    obtain rfl : c = a.channel := by simpa using hc
    obtain rfl : tail = [] := by simpa using htail.symm
    obtain ⟨rfl, rfl⟩ : more = [] ∧ later = [] := by
      simpa [Scanner.segmentsFrom, eq_comm] using hsegs
    have hends := follow_of_ends (t.scanner.link_down search.walk hlt)
    simp [hends, TrackSearch.found_closeAt, onChannel, keptAfter, Scanner.counted, h.run]
  | cons b rest ih =>
    obtain ⟨hlow, hrest⟩ := List.pairwise_cons.1 hsorted
    have hab : a.channel ≤ b.channel := hlow b.channel (by simp)
    have hdown' := Scanner.exists_above_rest hsorted hdown
    have hstep := collects h hab
    simp only [List.cons_append, List.zip_cons_cons, List.foldl_cons]
    generalize t.follow search (a, b) = next at hstep
    cases hstep with
    | again hsame =>
      obtain ⟨hmore, hlater⟩ := notMem_more htail hsegs
      rw [← hsame] at h hsegs hmore hlater ⊢
      have htail' : ((b :: rest).map (·.channel)).dedup = b.channel :: tail := by
        simpa [hsame] using htail
      -- Whether the hit is taken or not, the run remains open.
      generalize hcurrent : (if b.timeStart.distance a.timeStart < t.sameChannelWindow then
        b :: search.openAt a else search.openAt a) = current
      have hopen : current ≠ [] := by
        rw [← hcurrent]
        split <;> simp
      have hnext : t.scanner.IsAt before b.channel
          (TrackSearch.walk { search with current }) := h
      rw [ih hnext hrest htail' hdown' hsegs, TrackSearch.found_mk _ rfl,
        TrackSearch.openAt_mk b hopen, t.map_collected_cons_ne rest hlater,
        t.trackAlong_cons_ne rest hmore, onChannel_cons_self, keptAfter, ← hcurrent]
      split <;> simp
    | @grows walk hlt hgoes hnext hlongest =>
      -- No hit is left on the channel of `a`, and the hit is the first on its own.
      obtain ⟨tail, rfl, htail'⟩ := Scanner.exists_dedup_rest hsorted hlt htail
      obtain ⟨more', later', heq⟩ :=
        t.scanner.segmentsFrom_eq_cons (before ++ [a.channel]) b.channel tail
      obtain ⟨rfl, rfl⟩ : more = b.channel :: more' ∧ later = later' := by
        rw [Scanner.segmentsFrom, if_pos hgoes, heq] at hsegs
        simpa [eq_comm] using hsegs
      obtain ⟨hmore, hlater⟩ := notMem_more htail' heq
      have hnext' : t.scanner.IsAt (before ++ [a.channel]) b.channel
          (TrackSearch.walk { search with walk, current := b :: search.openAt a }) := hnext
      have hnone : onChannel (b :: rest) a.channel = [] :=
        onChannel_eq_nil (Scanner.notMem_of_lt_first hrest hlt)
      rw [ih hnext' hrest htail' hdown' heq, TrackSearch.found_mk _ hlongest,
        TrackSearch.openAt_mk b (by simp), t.map_collected_cons_ne rest hlater,
        t.trackAlong_cons_self rest hmore, hnone, keptAfter]
      simp
    | ends hlt hcut =>
      obtain ⟨tail, rfl, htail'⟩ := Scanner.exists_dedup_rest hsorted hlt htail
      obtain ⟨more', later', heq⟩ := t.scanner.segmentsFrom_eq_cons [] b.channel tail
      obtain ⟨rfl, rfl⟩ : more = [] ∧ later = (b.channel :: more') :: later' := by
        rw [Scanner.segmentsFrom, if_neg hcut, heq] at hsegs
        simpa [eq_comm] using hsegs
      obtain ⟨hmore, hlater⟩ := notMem_more htail' heq
      have hnone : onChannel (b :: rest) a.channel = [] :=
        onChannel_eq_nil (Scanner.notMem_of_lt_first hrest hlt)
      have hnext : t.scanner.IsAt [] b.channel (search.closeAt a).walk :=
        t.scanner.isAt_begin b.channel _
      rw [ih hnext hrest htail' hdown' heq, TrackSearch.found_closeAt, List.map_cons,
        t.map_collected_cons_ne rest hlater, collected, t.trackAlong_cons_self rest hmore,
        hnone, keptAfter]
      simp [Scanner.counted, h.run]

/-! ## The longest track -/

theorem channels_hitsInOrder (ps : List Primitive) :
    (hitsInOrder ps).map (·.channel) =
      (ps.map (·.channel)).mergeSort fun a b => decide (a ≤ b) := by
  have hsort : (hitsInOrder ps).map (·.channel) = ((ps.map TrackHit.ofPrimitive).map
      (·.channel)).mergeSort fun a b => decide (a ≤ b) :=
    List.map_mergeSort fun _ _ _ _ => rfl
  rw [hsort, List.map_map]
  rfl

theorem collected_hitsInOrder (t : ProfileTest) (ps : List Primitive) :
    t.collected (hitsInOrder ps) = t.collected (ps.map TrackHit.ofPrimitive) := by
  funext seg
  simp [collected, trackAlong, onChannel_hitsInOrder]

/-- The longest track is the largest of what is collected along the segments. -/
theorem longestTrack_eq (t : ProfileTest) {ps : List Primitive}
    (hmany : 1 < (distinctAscending (ps.map (·.channel))).length) :
    ((t.longestTrack ps).2, (t.longestTrack ps).1) =
      ((t.scanner.segmentsOf (distinctAscending (ps.map (·.channel)))).map
        (t.collected (ps.map TrackHit.ofPrimitive))).foldl largerOf (0, []) := by
  obtain ⟨c, cs, hlist, hsorted, hdedup, hdown⟩ := Scanner.exists_sorted_cons hmany
  obtain ⟨tail, htail⟩ := Scanner.exists_dedup_cons hsorted
  rw [← channels_hitsInOrder] at hlist
  rw [← t.collected_hitsInOrder, ← hdedup, htail, Scanner.segmentsOf, longestTrack]
  cases hhits : hitsInOrder ps with
  | nil => simp [hhits] at hlist
  | cons first rest =>
    rw [hhits] at hlist
    obtain ⟨rfl, rfl⟩ := List.cons.inj hlist
    obtain ⟨more, later, hsegs⟩ := t.scanner.segmentsFrom_eq_cons [] first.channel tail
    obtain ⟨hmore, hlater⟩ := notMem_more htail hsegs
    have hstart : t.scanner.IsAt [] first.channel (TrackSearch.walk {}) :=
      t.scanner.isAt_begin first.channel 0
    show (((first :: rest).zip (rest ++ [first])).foldl t.follow {}).found = _
    rw [found_foldl hstart hsorted htail hdown hsegs, hsegs, List.map_cons, List.foldl_cons,
      t.map_collected_cons_ne rest hlater, collected, List.nil_append,
      t.trackAlong_cons_self rest hmore]
    simp [TrackSearch.found, TrackSearch.openAt]

/-- Steps to hits on the same channel find nothing. -/
theorem found_foldl_same (t : ProfileTest) (search : TrackSearch)
    {steps : List (TrackHit × TrackHit)} (h : ∀ step ∈ steps, step.1.channel = step.2.channel) :
    (steps.foldl t.follow search).found = search.found := by
  induction steps generalizing search with
  | nil => simp
  | cons step rest ih =>
    have hstep := h step List.mem_cons_self
    have hlink : t.scanner.link search.walk step.1.channel step.2.channel = .same := by
      simp [Scanner.link, hstep]
    have hrest := ih (t.follow search step)
      fun step' hstep' => h step' (List.mem_cons_of_mem step hstep')
    rw [List.foldl_cons, hrest, follow, hlink]
    dsimp only
    split <;> simp [TrackSearch.found, Scanner.follow]

/-- Hits on fewer than two channels make no track. -/
theorem longestTrack_of_few (t : ProfileTest) {ps : List Primitive}
    (hfew : (distinctAscending (ps.map (·.channel))).length ≤ 1) : t.longestTrack ps = ([], 0) := by
  have hmem : ∀ hit ∈ hitsInOrder ps, hit.channel ∈ ps.map (·.channel) := by
    intro hit hhit
    have hhit' := (hitsInOrder_perm ps).mem_iff.1 hhit
    obtain ⟨p, hp, rfl⟩ := List.mem_map.1 hhit'
    exact List.mem_map_of_mem hp
  have hsame : ∀ step ∈ cyclicSteps (hitsInOrder ps), step.1.channel = step.2.channel := by
    intro step hstep
    obtain ⟨hleft, hright⟩ := Scanner.mem_cyclicSteps hstep
    exact Scanner.eq_of_few hfew (hmem _ hleft) (hmem _ hright)
  have hfound := t.found_foldl_same {} hsame
  simpa [longestTrack, TrackSearch.found, and_comm] using hfound

end ProfileTest

end TriggerChain
