import TriggerChain.Proofs.Maker.Fits

/-!
# No dense cluster is missed

A window is looked at only when an input does not fit it, and then it moves on. Still, if some
successive elements of a stream began within one window length and together are above a
threshold, an output has elements of them. The first of them cannot leave the window while
the others arrive, so either the window fires with it, or all of them come to stand in the
window together; such a window is above the threshold from then on and fires at the next
input that does not fit it, or at the end of the stream.

The argument is made on the reference, where outputs are lists and sums are sums. It follows
the first of the elements and not the whole cluster, because the window may fire for another
reason when only some of the cluster has arrived.

Main statement: `no_dense_cluster_missed`.
-/

namespace TriggerChain

/-! ## Dense elements -/

/-- Some elements are above an enabled threshold on their sums. -/
def Settings.Dense (s : Settings) {τ : Type} [Element τ] (xs : List τ) : Prop :=
  (s.triggerOnAdc = true ∧ s.adcThreshold < Window.chargeOf xs) ∨
  (s.triggerOnChannels = true ∧
    s.channelsThreshold < (Window.channelsOf xs).dedup.length)

namespace Settings

variable {τ : Type} [Element τ] {s : Settings}

theorem Dense.firesOnSums {xs : List τ} (h : s.Dense xs) :
    ∃ fired, s.firesOnSums xs = some fired := by
  unfold Settings.firesOnSums
  by_cases hcharge : s.triggerOnAdc = true ∧ s.adcThreshold < Window.chargeOf xs
  · exact ⟨_, if_pos hcharge⟩
  · rw [if_neg hcharge]
    rcases h with hdense | hdense
    · exact absurd hdense hcharge
    · exact ⟨_, if_pos hdense⟩

/-- More elements have no less charge and no fewer channels. -/
theorem Dense.of_infix {xs ys : List τ} (h : s.Dense xs) (hsub : xs <:+: ys) : s.Dense ys := by
  obtain ⟨u, v, rfl⟩ := hsub
  rcases h with ⟨hon, hcharge⟩ | ⟨hon, hchannels⟩
  · refine .inl ⟨hon, ?_⟩
    rw [Window.chargeOf_append, Window.chargeOf_append]
    omega
  · have hmem : (Window.channelsOf xs).dedup ⊆ (Window.channelsOf (u ++ xs ++ v)).dedup := by
      intro c hc
      rw [List.mem_dedup] at hc ⊢
      simp [hc]
    have hle := (List.nodup_dedup _).length_le_of_subset hmem
    exact .inr ⟨hon, by omega⟩

theorem not_dense_nil : ¬ s.Dense ([] : List τ) := by
  rintro (⟨-, h⟩ | ⟨-, h⟩)
  · exact absurd h (Nat.not_lt_zero _)
  · exact absurd h (Nat.not_lt_zero _)

end Settings

/-- A policy on lists that looks at the sums first, and at the end looks at nothing else. -/
structure LooksAtSums {π τ ο : Type} [Element τ] [Policy π τ ο] [ListPolicy π τ ο] (p : π) :
    Prop where
  passes : ∀ xs : List τ, (Policy.settings p).Dense xs → ListPolicy.passes p = false
  fires : ∀ (xs : List τ) (x : τ), (Policy.settings p).Dense xs →
    ∃ fired, ListPolicy.fires p xs x = some fired
  firesAtEnd : ∀ xs : List τ, (Policy.settings p).Dense xs →
    ∃ fired, ListPolicy.firesAtEnd p xs = some fired

theorem Geometry.looksAtSums (g : Geometry) : LooksAtSums g := by
  refine ⟨fun _ _ => rfl, ?_, fun _ h => h.firesOnSums⟩
  intro xs x hdense
  obtain ⟨fired, hfired⟩ := hdense.firesOnSums
  refine ⟨fired, ?_⟩
  show g.firesOn xs x = some fired
  have hfired' : g.settings.firesOnSums xs = some fired := hfired
  rw [Geometry.firesOn, hfired']
  rfl

theorem Grouping.looksAtSums (g : Grouping) : LooksAtSums g := by
  refine ⟨?_, ?_, fun _ h => h.firesOnSums⟩
  · intro xs hdense
    -- A sum is above an enabled threshold, so a condition is enabled.
    show (!g.settings.triggerOnAdc && !g.settings.triggerOnChannels &&
      !g.settings.triggerOnAdjacency) = false
    rcases hdense with ⟨hon, -⟩ | ⟨hon, -⟩
    · have hadc : g.settings.triggerOnAdc = true := hon
      simp [hadc]
    · have hchannels : g.settings.triggerOnChannels = true := hon
      simp [hchannels]
  · intro xs x hdense
    obtain ⟨fired, hfired⟩ := hdense.firesOnSums
    refine ⟨fired, ?_⟩
    show (g.settings.firesOnSums xs).or _ = some fired
    have hfired' : g.settings.firesOnSums xs = some fired := hfired
    rw [hfired']
    rfl

/-! ## One input -/

theorem suffix_append_append {α : Type} {xs ys : List α} (h : xs <:+ ys) (zs : List α) :
    xs ++ zs <:+ ys ++ zs := by
  obtain ⟨before, rfl⟩ := h
  exact ⟨before, (List.append_assoc before xs zs).symm⟩

namespace Reference

variable {π τ ο : Type} [Element τ] [Policy π τ ο]

theorem young_snoc {r : Reference π τ} {x : τ}
    (h : Window.Chronological (r.residents ++ [x])) :
    Window.Chronological (r.young x ++ [x]) :=
  h.sublist ((List.dropWhile_sublist _).append_right _)

/-- An element that is not too old keeps itself and what is behind it in the window. -/
theorem young_append {r : Reference π τ} {x : τ} {u b : List τ} {first : τ}
    (hresidents : r.residents = u ++ first :: b)
    (hyoung : Window.began x - Window.began first < r.windowLength) :
    ∃ v, v <:+ u ∧ r.young x = v ++ first :: b := by
  unfold young
  -- Either all of `u` leaves, or a part of it and nothing else.
  rw [hresidents, List.dropWhile_append]
  split
  · refine ⟨[], List.nil_suffix, ?_⟩
    rw [List.dropWhile_cons_of_neg (by simpa using hyoung)]
    rfl
  · exact ⟨_, List.dropWhile_suffix _, rfl⟩

variable [ListPolicy π τ ο]

omit [Element τ] [ListPolicy π τ ο] in
theorem emitted_fire {r : Reference π τ} (hone : r.prescale = 1) (fired : Fired)
    (next : List τ) : (r.fire fired next).emitted = some r.residents := by
  rw [fire, if_pos (hone ▸ Nat.one_dvd _)]

/-- An input that comes last fires the window, is added to it, or makes it slide. -/
theorem process_cases {r : Reference π τ} {x : τ} (hone : r.prescale = 1)
    (hfull : r.residents ≠ []) (hchron : Window.Chronological (r.residents ++ [x])) :
    ((r.process x).emitted = some r.residents ∧ (r.process x).next.residents = [x]) ∨
    (r.process x).next.residents = r.residents ++ [x] ∨
    (ListPolicy.fires r.policy r.residents x = none ∧
      (r.process x).next.residents = r.young x ++ [x]) := by
  cases r.branches x with
  | seeded hempty => exact absurd hempty hfull
  | passed hempty => exact absurd hempty hfull
  | admitted _ _ hprocess =>
    right
    left
    rw [hprocess]
    exact insert_eq_append hchron
  | fired _ _ hprocess =>
    left
    have hone' : r.heard.prescale = 1 := hone
    rw [hprocess]
    exact ⟨emitted_fire hone' _ [x], (fire_cases r.heard _ [x]).2.2⟩
  | slid _ hquiet hprocess =>
    right
    right
    rw [hprocess]
    exact ⟨hquiet, insert_eq_append (young_snoc hchron)⟩

/-- After an input that comes last, the window ends with it. -/
theorem process_last {r : Reference π τ} {x : τ} (hone : r.prescale = 1)
    (hpasses : ListPolicy.passes r.policy = false)
    (hchron : Window.Chronological (r.residents ++ [x])) :
    ∃ u, u <:+ r.residents ∧ (r.process x).next.residents = u ++ [x] := by
  by_cases hfull : r.residents = []
  · refine ⟨[], List.nil_suffix, ?_⟩
    rw [process_seeded hfull hpasses]
    rfl
  · rcases process_cases hone hfull hchron with ⟨-, hnext⟩ | hnext | ⟨-, hnext⟩
    · exact ⟨[], List.nil_suffix, hnext⟩
    · exact ⟨r.residents, List.suffix_rfl, hnext⟩
    · exact ⟨r.young x, List.dropWhile_suffix _, hnext⟩

/-! ## The rest of a stream -/

/-- After `heard`, one of some calls emits the element that was heard at place `n`: what it
    emits is the end of what was heard until then, from before that place on. -/
def Emits (r : Reference π τ) (heard : List τ) (cs : List (Call τ)) (n : Nat) : Prop :=
  ∃ k o before xs, (r.run cs)[k]? = some o ∧ o.emitted = some xs ∧
    heard ++ Call.inputs (cs.take k) = before ++ xs ∧ before.length ≤ n ∧
    n < heard.length + k

theorem Emits.now {r : Reference π τ} {heard : List τ} {c : Call τ} {cs : List (Call τ)}
    {n : Nat} (hemitted : (r.call c).emitted = some r.residents)
    (hsuffix : r.residents <:+ heard) (hn : heard.length ≤ n + r.residents.length)
    (hheard : n < heard.length) : Emits r heard (c :: cs) n := by
  obtain ⟨before, rfl⟩ := hsuffix
  rw [List.length_append] at hn
  refine ⟨0, r.call c, before, r.residents, rfl, hemitted, ?_, by omega, hheard⟩
  exact List.append_nil _

theorem Emits.later {r : Reference π τ} {heard : List τ} {x : τ} {cs : List (Call τ)}
    {n : Nat} (h : Emits (r.process x).next (heard ++ [x]) cs n) :
    Emits r heard (.process x :: cs) n := by
  obtain ⟨k, o, before, xs, hcall, hemitted, hsplit, hbefore, hn⟩ := h
  refine ⟨k + 1, o, before, xs, hcall, hemitted, ?_, hbefore, ?_⟩
  · rw [List.take_succ_cons, Call.inputs_process, ← hsplit, List.append_assoc]
    rfl
  · rw [List.length_append, List.length_singleton] at hn
    omega

/-- The policy looks at the sums, and every trigger becomes an output. -/
structure Ready (r : Reference π τ) : Prop where
  sums : LooksAtSums r.policy
  prescale : r.prescale = 1

theorem policy_process (r : Reference π τ) (x : τ) :
    (r.process x).next.policy = r.policy := policy_call r (.process x)

theorem windowLength_process (r : Reference π τ) (x : τ) :
    (r.process x).next.windowLength = r.windowLength := by
  rw [windowLength, policy_process]
  rfl

theorem Ready.process {r : Reference π τ} (h : Ready r) (x : τ) :
    Ready (r.process x).next := by
  refine ⟨policy_process r x ▸ h.sums, ?_⟩
  rw [Reference.prescale, policy_process]
  exact h.prescale

theorem chronological_snoc {xs heard rest : List τ} {x : τ} (hsuffix : xs <:+ heard)
    (hchron : Window.Chronological (heard ++ x :: rest)) : Window.Chronological (xs ++ [x]) :=
  hchron.sublist (hsuffix.sublist.append (List.cons_sublist_cons.2 (List.nil_sublist rest)))

/-- A window that is above a threshold is emitted, with more or without. -/
theorem emits_of_dense {r : Reference π τ} (h : Ready r) {heard : List τ}
    (hsuffix : r.residents <:+ heard) (hdense : (Policy.settings r.policy).Dense r.residents)
    {n : Nat} (hn : heard.length ≤ n + r.residents.length) (hheard : n < heard.length)
    (rest : List τ) (hchron : Window.Chronological (heard ++ rest)) :
    Emits r heard (Call.stream rest) n := by
  have hfull : r.residents ≠ [] := by
    intro hnil
    rw [hnil] at hdense
    exact Settings.not_dense_nil hdense
  induction rest generalizing r heard with
  | nil =>
    -- The stream ends, and the window fires once more.
    obtain ⟨fired, hfires⟩ := h.sums.firesAtEnd r.residents hdense
    refine Emits.now ?_ hsuffix hn hheard
    show r.flush.emitted = _
    rw [flush_fired hfull hfires]
    exact emitted_fire h.prescale fired []
  | cons x rest ih =>
    show Emits r heard (.process x :: Call.stream rest) n
    have hsnoc := chronological_snoc hsuffix hchron
    rcases process_cases h.prescale hfull hsnoc with ⟨hemitted, -⟩ | hnext | ⟨hquiet, -⟩
    · exact Emits.now hemitted hsuffix hn hheard
    · -- One element more leaves the window above the threshold.
      apply Emits.later
      apply ih (h.process x)
      · rw [hnext]
        exact suffix_append_append hsuffix [x]
      · rw [policy_process, hnext]
        exact hdense.of_infix (List.prefix_append _ _).isInfix
      · rw [hnext, List.length_append, List.length_append]
        omega
      · rw [List.length_append]
        omega
      · rwa [List.append_assoc]
      · rw [hnext]
        simp
    · -- A window above a threshold does not slide.
      obtain ⟨fired, hfires⟩ := h.sums.fires r.residents x hdense
      rw [hquiet] at hfires
      cases hfires

/-- An input that comes within a window length of an element fires the window, or leaves the
    element in it with everything that is behind it. -/
theorem process_keeps {r : Reference π τ} (hone : r.prescale = 1) {u b : List τ} {first x : τ}
    (hresidents : r.residents = u ++ first :: b)
    (hspan : Window.began x - Window.began first < r.windowLength)
    (hchron : Window.Chronological (r.residents ++ [x])) :
    (r.process x).emitted = some r.residents ∨
    ∃ v, v <:+ u ∧ (r.process x).next.residents = v ++ first :: (b ++ [x]) := by
  have hfull : r.residents ≠ [] := by
    rw [hresidents]
    simp
  rcases process_cases hone hfull hchron with ⟨hemitted, -⟩ | hnext | ⟨-, hnext⟩
  · exact .inl hemitted
  · refine .inr ⟨u, List.suffix_rfl, ?_⟩
    rw [hnext, hresidents, List.append_assoc]
    rfl
  · obtain ⟨v, hv, hyoung⟩ := young_append hresidents hspan
    refine .inr ⟨v, hv, ?_⟩
    rw [hnext, hyoung, List.append_assoc]
    rfl

/-- While the elements behind a first one arrive within a window length of it, the first one
    stays in the window or is emitted; once they are there and dense, it is emitted. -/
theorem emits_of_arriving {r : Reference π τ} (h : Ready r) {pre u b : List τ} {first : τ}
    (hu : u <:+ pre) (hresidents : r.residents = u ++ first :: b) (todo post : List τ)
    (hdense : (Policy.settings r.policy).Dense (first :: b ++ todo))
    (hspan : ∀ x ∈ todo, Window.began x - Window.began first < r.windowLength)
    (hchron : Window.Chronological (pre ++ first :: b ++ (todo ++ post))) :
    Emits r (pre ++ first :: b) (Call.stream (todo ++ post)) pre.length := by
  induction todo generalizing r u b with
  | nil =>
    -- All of them are in the window.
    rw [List.append_nil] at hdense
    have hdense' : (Policy.settings r.policy).Dense r.residents := by
      rw [hresidents]
      exact hdense.of_infix (List.suffix_append _ _).isInfix
    apply emits_of_dense h _ hdense' _ _ post hchron
    · rw [hresidents]
      exact suffix_append_append hu _
    · rw [hresidents, List.length_append, List.length_append]
      omega
    · simp
  | cons x todo ih =>
    show Emits r _ (.process x :: Call.stream (todo ++ post)) pre.length
    have hsuffix : r.residents <:+ pre ++ first :: b := by
      rw [hresidents]
      exact suffix_append_append hu _
    have hsnoc := chronological_snoc hsuffix hchron
    have hx := hspan x (List.mem_cons_self ..)
    rcases process_keeps h.prescale hresidents hx hsnoc with hemitted | ⟨v, hv, hnext⟩
    · have hcall : (r.call (.process x)).emitted = some r.residents := hemitted
      apply Emits.now hcall hsuffix
      · rw [hresidents, List.length_append, List.length_append]
        omega
      · simp
    · apply Emits.later
      have hheard : pre ++ first :: b ++ [x] = pre ++ first :: (b ++ [x]) := by simp
      rw [hheard]
      apply ih (h.process x) (hv.trans hu) hnext
      · rw [policy_process]
        simpa using hdense
      · intro y hy
        rw [windowLength_process]
        exact hspan y (List.mem_cons_of_mem x hy)
      · simpa using hchron

/-- Some successive elements that are dense, and begin within a window length of the first one:
    the first one is emitted, whatever is in the window before it arrives. -/
theorem emits_of_cluster {r : Reference π τ} (h : Ready r) {heard : List τ}
    (hsuffix : r.residents <:+ heard) (pre : List τ) {first : τ} {rest : List τ}
    (post : List τ) (hdense : (Policy.settings r.policy).Dense (first :: rest))
    (hspan : ∀ x ∈ rest, Window.began x - Window.began first < r.windowLength)
    (hchron : Window.Chronological (heard ++ (pre ++ first :: (rest ++ post)))) :
    Emits r heard (Call.stream (pre ++ first :: (rest ++ post)))
      (heard.length + pre.length) := by
  have hpasses := h.sums.passes _ hdense
  induction pre generalizing r heard with
  | nil =>
    show Emits r heard (.process first :: Call.stream (rest ++ post)) heard.length
    apply Emits.later
    have hsnoc := chronological_snoc hsuffix hchron
    -- From here on the first element is in the window, with `u` in front of it.
    obtain ⟨u, hu, hnext⟩ := process_last h.prescale hpasses hsnoc
    apply emits_of_arriving (h.process first) (hu.trans hsuffix) hnext
    · rw [policy_process]
      exact hdense
    · rw [windowLength_process]
      exact hspan
    · simpa using hchron
  | cons y pre ih =>
    -- What comes before only decides what else is in the window.
    show Emits r heard (.process y :: Call.stream (pre ++ first :: (rest ++ post))) _
    apply Emits.later
    have hsnoc := chronological_snoc hsuffix hchron
    obtain ⟨u, hu, hnext⟩ := process_last h.prescale hpasses hsnoc
    have hplace : heard.length + (y :: pre).length = (heard ++ [y]).length + pre.length := by
      rw [List.length_append, List.length_cons, List.length_singleton]
      omega
    rw [hplace]
    apply ih (h.process y)
    · rw [hnext]
      exact suffix_append_append (hu.trans hsuffix) [y]
    · rw [policy_process]
      exact hdense
    · rw [windowLength_process]
      exact hspan
    · simpa using hchron
    · rw [policy_process]
      exact hpasses

end Reference

/-! ## Covered clusters -/

section Coverage

variable {π τ ο : Type} [Cluster ο τ]

/-- The element at place `n` of a stream is in an output: the call that gives the output comes
    after the element, and the output has the end of the stream as it was then, from before
    the element on. -/
def Delivers (xs : List τ) (steps : List (Step (Windowed π τ) ο)) (n : Nat) : Prop :=
  ∃ k step a before, steps[k]? = some step ∧ a ∈ step.outputs ∧
    xs.take k = before ++ Cluster.elements a ∧ before.length ≤ n ∧ n < k

/-- What is delivered is among the elements of the outputs. -/
theorem Delivers.mem {xs : List τ} {steps : List (Step (Windowed π τ) ο)} {n : Nat} {e : τ}
    (h : Delivers xs steps n) (he : xs[n]? = some e) :
    ∃ a ∈ Maker.outputs steps, e ∈ Cluster.elements a := by
  obtain ⟨k, step, a, before, hstep, ha, hsplit, hbefore, hk⟩ := h
  refine ⟨a, List.mem_flatMap.2 ⟨step, List.mem_of_getElem? hstep, ha⟩, ?_⟩
  have htake : (xs.take k)[n]? = some e := by
    rw [List.getElem?_take_of_lt hk, he]
  rw [hsplit, List.getElem?_append_right hbefore] at htake
  exact List.mem_of_getElem? htake

variable [Element τ] [Policy π τ ο] [ListPolicy π τ ο]

/-- A maker misses no dense cluster: what holds of every stream that is handed over and then
    ended. -/
structure Covers (p : π) : Prop where
  /-- The stream goes through exactly if every exact number fits its word. -/
  goesThrough : ∀ xs : List τ,
    (∃ steps, Maker.run ({ policy := p } : Windowed π τ) (Call.stream xs) = .ok steps) ↔
      ({ policy := p } : Reference π τ).FitsAll (Call.stream xs)
  /-- Of successive elements of a stream in the order of time, if the last began less than a
      window length after the first and together they are above a threshold, an output has
      one of them; and it is the first one, at its place in the stream. -/
  delivers : ∀ (xs : List τ) steps,
    Maker.run ({ policy := p } : Windowed π τ) (Call.stream xs) = .ok steps →
    Window.Chronological xs → ∀ pre block post, xs = pre ++ block ++ post →
    (∀ first ∈ block.head?, ∀ last ∈ block.getLast?,
      Window.began last - Window.began first < (Policy.settings p).windowLength.toInt) →
    (Policy.settings p).Dense block →
    (∃ a ∈ Maker.outputs steps, ∃ e ∈ block, e ∈ Cluster.elements a) ∧
      Delivers xs steps pre.length

theorem forall₂_getElem? {α β : Type} {r : α → β → Prop} {xs : List α} {ys : List β}
    (h : List.Forall₂ r xs ys) {k : Nat} {y : β} (hy : ys[k]? = some y) :
    ∃ x, xs[k]? = some x ∧ r x y := by
  induction h generalizing k with
  | nil => simp at hy
  | cons hxy _ ih =>
    cases k with
    | zero =>
      obtain rfl := Option.some.inj hy
      exact ⟨_, rfl, hxy⟩
    | succ k => exact ih hy

variable [LawfulPolicy π τ ο]

theorem covers_of_looksAtSums {p : π} (hp : (Policy.settings p).validate = .ok ())
    (hone : (Policy.settings p).prescale = 1) (hsums : LooksAtSums p) : Covers p := by
  have hvalid := Windowed.valid_fresh hp
  refine ⟨fun xs => (refines_of_validate hp).goesThrough _, ?_⟩
  rintro xs steps hrun hchron pre block post rfl hspan hdense
  cases block with
  | nil => exact absurd hdense Settings.not_dense_nil
  | cons first rest =>
    have hready : Reference.Ready ({ policy := p } : Reference π τ) := ⟨hsums, hone⟩
    have hblock : Window.Chronological (first :: rest) :=
      (List.pairwise_append.1 (List.pairwise_append.1 hchron).1).2.1
    have hlast := getLast?_cons_eq_getLastD first rest
    have hspan' : ∀ x ∈ rest, Window.began x - Window.began first <
        ({ policy := p } : Reference π τ).windowLength := by
      intro x hx
      have hle := hblock.le_last hlast x (List.mem_cons_of_mem first hx)
      have hlt := hspan first rfl _ hlast
      show _ < (Policy.settings p).windowLength.toInt
      omega
    have hsplit : pre ++ first :: rest ++ post = pre ++ first :: (rest ++ post) := by simp
    rw [hsplit] at hchron hrun ⊢
    have hemits := Reference.emits_of_cluster hready (List.nil_suffix (l := [])) pre post hdense
      hspan' hchron
    have hdelivers : Delivers (pre ++ first :: (rest ++ post)) steps pre.length := by
      obtain ⟨k, o, before, ys, hcall, hemitted, htake, hbefore, hn⟩ := hemits
      -- The call of the reference is a call of the maker, with the same elements.
      obtain ⟨step, hstep, hmatches⟩ :=
        forall₂_getElem? (hvalid.follows_run hrun).1 hcall
      have helements := hmatches.elements
      rw [hemitted] at helements
      obtain ⟨a, houtputs, ha⟩ := List.map_eq_singleton_iff.1 helements
      refine ⟨k, step, a, before, hstep, ?_, ?_, ?_, ?_⟩
      · rw [houtputs]
        exact List.mem_singleton.2 rfl
      · rw [ha, ← htake, Call.inputs_take_stream]
        rfl
      · simpa using hbefore
      · simpa using hn
    refine ⟨?_, hdelivers⟩
    obtain ⟨a, ha, hmem⟩ := hdelivers.mem (e := first) (by simp)
    exact ⟨a, ha, first, List.mem_cons_self .., hmem⟩

end Coverage

/-- With settings in range and no prescale, whatever else is enabled: neither a maker of
    activities that looks at sums nor the one that groups activities misses a dense cluster
    of a stream in the order of time. A maker of activities goes through every stream of
    fewer than `2 ^ 32` primitives. -/
theorem no_dense_cluster_missed (s : Settings) (hs : s.validate = .ok ())
    (hone : s.prescale = 1) :
    Covers (Geometry.horizontal s) ∧ Covers (Geometry.charge s) ∧
      Covers ({ settings := s } : Grouping) ∧
      ∀ ps : List Primitive, ps.length < UInt32.size →
        ({ policy := Geometry.horizontal s } : Reference Geometry Primitive).FitsAll
          (Call.stream ps) ∧
        ({ policy := Geometry.charge s } : Reference Geometry Primitive).FitsAll
          (Call.stream ps) := by
  have hcharge := (Geometry.validate_charge s).trans hs
  refine ⟨?_, ?_, ?_, ?_⟩
  · exact covers_of_looksAtSums hs hone (Geometry.looksAtSums _)
  · exact covers_of_looksAtSums hcharge hone (Geometry.looksAtSums _)
  · exact covers_of_looksAtSums hs hone (Grouping.looksAtSums _)
  · intro ps hps
    have hinputs : (Call.inputs (Call.stream ps)).length < UInt32.size := by
      rwa [Call.inputs_stream]
    exact ⟨Geometry.fitsAll (by simpa using hinputs), Geometry.fitsAll (by simpa using hinputs)⟩

/-- Two hits within a window length of one another, above the threshold together, and a later
    one: an activity has one of the two. -/
theorem two_hits_not_missed :
    (Settings.withAdcTrigger {} 100).validate = .ok () ∧
      (Settings.withAdcTrigger {} 100).prescale = 1 ∧
      ∃ steps, Maker.run
          ({ policy := Geometry.horizontal (.withAdcTrigger {} 100) } :
            Windowed Geometry Primitive)
          (Call.stream [.hit 1 0 60, .hit 2 7000 60, .hit 3 9000 10]) = .ok steps ∧
        ∃ a ∈ Maker.outputs steps, ∃ p ∈ [Primitive.hit 1 0 60, .hit 2 7000 60],
          p ∈ a.inputs := by
  have hvalid : (Settings.withAdcTrigger {} 100).validate = .ok () :=
    Settings.validate_eq_ok_iff.2 (by decide)
  have hone : (Settings.withAdcTrigger {} 100).prescale = 1 := rfl
  obtain ⟨hcovers, -, -, hfits⟩ := no_dense_cluster_missed _ hvalid hone
  have hfew := (hfits [.hit 1 0 60, .hit 2 7000 60, .hit 3 9000 10] (by decide)).1
  obtain ⟨steps, hrun⟩ := (hcovers.goesThrough _).2 hfew
  have hchron : Window.Chronological
      [Primitive.hit 1 0 60, .hit 2 7000 60, .hit 3 9000 10] := by
    unfold Window.Chronological
    decide
  have hdense : (Policy.settings (Geometry.horizontal (.withAdcTrigger {} 100))).Dense
      [Primitive.hit 1 0 60, .hit 2 7000 60] := .inl (by decide)
  have hdelivers := hcovers.delivers _ steps hrun hchron []
    [.hit 1 0 60, .hit 2 7000 60] [.hit 3 9000 10] rfl (by decide) hdense
  exact ⟨hvalid, hone, steps, hrun, hdelivers.1⟩

end TriggerChain
