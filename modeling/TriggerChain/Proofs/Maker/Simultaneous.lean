import TriggerChain.Proofs.Adjacency.LongestRun
import TriggerChain.Proofs.Maker.Coverage
import TriggerChain.Proofs.Window.Shuffled

/-!
# The order of simultaneous hits

Hits that begin at the same time reach a maker in some order, and which of them comes first
decides which one finds the window full, starts the next window or makes it slide. Still the
order does not matter to a policy that looks at sums and at sets of channels only: windows are
cut between different times, so when all hits of a moment have been handed over, the same hits
are in the window, whatever their order was.

Two streams are compared by steps that exchange two simultaneous neighbours. The windows on both
sides then differ for one call and agree again after the next one.

Main statement: `order_of_simultaneous_hits_is_irrelevant`.
-/

namespace TriggerChain

/-! ## Policies that do not see the order -/

variable {π τ ο : Type} [Element τ] [Policy π τ ο] [ListPolicy π τ ο]

/-- A policy on lists whose decisions depend neither on the order of simultaneous elements nor
    on the input that did not fit. -/
structure OrderBlind (p : π) : Prop where
  passes : ListPolicy.passes p = false
  fires : ∀ {xs ys : List τ} (x y : τ), Shuffled xs ys →
    ListPolicy.fires p xs x = ListPolicy.fires p ys y
  firesAtEnd : ∀ {xs ys : List τ}, Shuffled xs ys →
    ListPolicy.firesAtEnd p xs = ListPolicy.firesAtEnd p ys
  record : ∀ {xs ys : List τ}, Shuffled xs ys → ListPolicy.record? p xs ≠ none →
    ListPolicy.record? p ys ≠ none

namespace Reference

/-- The reference after some calls. -/
def after (r : Reference π τ) (cs : List (Call τ)) : Reference π τ :=
  cs.foldl (fun r c => (r.call c).next) r

/-- What some calls emit, in order. -/
def emissions (r : Reference π τ) (cs : List (Call τ)) : List (List τ) :=
  (r.run cs).filterMap Outcome.emitted

theorem after_cons (r : Reference π τ) (c : Call τ) (cs : List (Call τ)) :
    r.after (c :: cs) = (r.call c).next.after cs := rfl

theorem emissions_cons (r : Reference π τ) (c : Call τ) (cs : List (Call τ)) :
    r.emissions (c :: cs) = (r.call c).emitted.toList ++ (r.call c).next.emissions cs := by
  unfold emissions
  rw [run, List.filterMap_cons]
  cases (r.call c).emitted <;> rfl

/-! ## Two references side by side -/

/-- Two references that differ in the order of simultaneous elements only. -/
structure Twins (r r' : Reference π τ) : Prop where
  policy : r.policy = r'.policy
  statistics : r.statistics = r'.statistics
  residents : Shuffled r.residents r'.residents

omit [ListPolicy π τ ο] in
theorem Twins.windowLength {r r' : Reference π τ} (h : Twins r r') :
    r.windowLength = r'.windowLength := by
  rw [Reference.windowLength, Reference.windowLength, h.policy]

omit [ListPolicy π τ ο] in
theorem Twins.heard {r r' : Reference π τ} (h : Twins r r') :
    r.statistics.hear = r'.statistics.hear := by rw [h.statistics]

omit [ListPolicy π τ ο] in
theorem Twins.fire {r r' : Reference π τ} (h : Twins r r') (fired : Fired)
    (next next' : List τ) :
    (r.fire fired next).next.statistics = (r'.fire fired next').next.statistics ∧
      Option.Rel Shuffled (r.fire fired next).emitted (r'.fire fired next').emitted := by
  have hprescale : r.prescale = r'.prescale := by
    rw [Reference.prescale, Reference.prescale, h.policy]
  unfold Reference.fire
  rw [hprescale, h.statistics]
  dsimp only
  split
  · exact ⟨rfl, .some h.residents⟩
  · exact ⟨rfl, .none⟩

/-- What an input `x` on one side and an input `y` on the other come to: the windows are equal
    up to order but for their last elements. -/
structure TwinCalls (x y : τ) (o o' : Outcome π τ) : Prop where
  policy : o.next.policy = o'.next.policy
  statistics : o.next.statistics = o'.next.statistics
  emitted : Option.Rel Shuffled o.emitted o'.emitted
  residents : ∃ keep keep', Shuffled keep keep' ∧ o.next.residents = keep ++ [x] ∧
    o'.next.residents = keep' ++ [y]

theorem Twins.process (horder : Element.inOrder τ = true) {r r' : Reference π τ}
    (h : Twins r r') (hp : OrderBlind r.policy) {x y : τ}
    (hxy : Window.began x = Window.began y) : TwinCalls x y (r.process x) (r'.process y) := by
  have hinsert : ∀ (z : τ) (xs : List τ), insert z xs = xs ++ [z] := fun _ _ => if_pos horder
  have hpasses' : ListPolicy.passes r'.policy = false := h.policy ▸ hp.passes
  cases hres : r.residents with
  | nil =>
    have hres' : r'.residents = [] := h.residents.nil_iff.1 hres
    rw [process_seeded hres hp.passes, process_seeded hres' hpasses']
    exact ⟨h.policy, h.heard, .none, [], [], .nil, rfl, rfl⟩
  | cons first rest =>
    have hne : r'.residents ≠ [] := by
      intro hnil
      rw [h.residents.nil_iff.2 hnil] at hres
      cases hres
    obtain ⟨first', rest', hres'⟩ := List.exists_cons_of_ne_nil hne
    -- Both windows begin at the same time, so both admit their input or neither does.
    have hfirst : Window.began first = Window.began first' := by
      have htimes := h.residents.map_began
      rw [hres, hres'] at htimes
      exact (List.cons.inj htimes).1
    by_cases hfits : Window.began x - Window.began first < r.windowLength
    · have hfits' : Window.began y - Window.began first' < r'.windowLength := by
        rw [← hxy, ← hfirst, ← h.windowLength]
        exact hfits
      rw [process_admitted hres hfits, process_admitted hres' hfits', hinsert, hinsert]
      exact ⟨h.policy, h.heard, .none, _, _, h.residents, rfl, rfl⟩
    · have hfits' : ¬ Window.began y - Window.began first' < r'.windowLength := by
        rw [← hxy, ← hfirst, ← h.windowLength]
        exact hfits
      have hfires := hp.fires x y h.residents
      cases hfired : ListPolicy.fires r.policy r.residents x with
      | some fired =>
        have hfired' : ListPolicy.fires r'.policy r'.residents y = some fired := by
          rw [← h.policy, ← hfires, hfired]
        rw [process_fired hres hfits hfired, process_fired hres' hfits' hfired']
        have hheard : Twins r.heard r'.heard := ⟨h.policy, h.heard, h.residents⟩
        obtain ⟨hstatistics, hemitted⟩ := hheard.fire fired [x] [y]
        refine ⟨?_, hstatistics, hemitted, [], [], .nil, ?_, ?_⟩
        · rw [policy_fire, policy_fire]
          exact h.policy
        · exact (fire_cases r.heard fired [x]).2.2
        · exact (fire_cases r'.heard fired [y]).2.2
      | none =>
        have hfired' : ListPolicy.fires r'.policy r'.residents y = none := by
          rw [← h.policy, ← hfires, hfired]
        rw [process_slid hres hfits hfired, process_slid hres' hfits' hfired', hinsert, hinsert]
        have hyoung : Shuffled (r.young x) (r'.young y) := by
          unfold young
          rw [← hxy, ← h.windowLength]
          exact h.residents.dropWhile fun a b hab => by rw [hab]
        exact ⟨h.policy, h.heard, .none, _, _, hyoung, rfl, rfl⟩

theorem Twins.flush {r r' : Reference π τ} (h : Twins r r') (hp : OrderBlind r.policy) :
    r.flush.next.statistics = r'.flush.next.statistics ∧
      Option.Rel Shuffled r.flush.emitted r'.flush.emitted := by
  by_cases hres : r.residents = []
  · have hres' := h.residents.nil_iff.1 hres
    rw [flush_idle hres, flush_idle hres']
    exact ⟨h.statistics, .none⟩
  · have hres' : r'.residents ≠ [] := fun hnil => hres (h.residents.nil_iff.2 hnil)
    have hfires := hp.firesAtEnd h.residents
    rw [h.policy] at hfires
    cases hfired : ListPolicy.firesAtEnd r'.policy r'.residents with
    | some fired =>
      rw [hfired, ← h.policy] at hfires
      rw [flush_fired hres hfires, flush_fired hres' hfired]
      exact h.fire fired [] []
    | none =>
      rw [hfired, ← h.policy] at hfires
      rw [flush_left hres hfires, flush_left hres' hfired]
      exact ⟨h.statistics, .none⟩

/-- A second input of the same moment is always admitted. -/
theorem process_simultaneous (horder : Element.inOrder τ = true) {r : Reference π τ}
    (hpasses : ListPolicy.passes r.policy = false) (hlength : 0 < r.windowLength) {x y : τ}
    (hxy : Window.began x = Window.began y) (hx : x ∈ (r.process x).next.residents)
    (hchron : Window.Chronological (r.residents ++ [x])) :
    (r.process x).next.process y =
      { next := { (r.process x).next.heard with
          residents := (r.process x).next.residents ++ [y] } } := by
  have hwithin : Window.Within r.windowLength (r.process x).next.residents :=
    within_call hlength (.process x) horder hpasses hchron
  obtain ⟨first, rest, hres⟩ := List.exists_cons_of_ne_nil (List.ne_nil_of_mem hx)
  -- The first input is in the window, so the window began less than its length before it.
  have hfits : Window.began y - Window.began first < (r.process x).next.windowLength := by
    rw [windowLength_process, ← hxy]
    exact hwithin first (by simp [hres]) x hx
  rw [process_admitted hres hfits, insert, if_pos horder]

/-- Two inputs of the same moment, exchanged: the second one emits nothing, and then the windows
    agree up to order again. -/
theorem Twins.process_swap (horder : Element.inOrder τ = true) {r r' : Reference π τ}
    (h : Twins r r') (hp : OrderBlind r.policy) (hlength : 0 < r.windowLength) {x y : τ}
    (hxy : Window.began x = Window.began y)
    (hchron : Window.Chronological (r.residents ++ [x])) :
    ((r.process x).next.process y).emitted = none ∧
      ((r'.process y).next.process x).emitted = none ∧
      Twins ((r.process x).next.process y).next ((r'.process y).next.process x).next ∧
      ∃ keep, (r'.process y).next.residents = keep ++ [y] ∧
        ((r'.process y).next.process x).next.residents = keep ++ [y] ++ [x] := by
  have hcalls := h.process horder hp hxy
  obtain ⟨keep, keep', hkeep, hnext, hnext'⟩ := hcalls.residents
  have hchron' : Window.Chronological (r'.residents ++ [y]) := by
    have hlast : Window.Chronological (r'.residents ++ [x]) :=
      (h.residents.append (.refl [x])).chronological hchron
    obtain ⟨hres, -, hle⟩ := List.pairwise_append.1 hlast
    refine List.pairwise_append.2 ⟨hres, List.pairwise_singleton _ _, ?_⟩
    intro e he z hz
    obtain rfl := List.mem_singleton.1 hz
    rw [← hxy]
    exact hle e he x (List.mem_singleton.2 rfl)
  have hpasses' : ListPolicy.passes r'.policy = false := h.policy ▸ hp.passes
  have hlength' : 0 < r'.windowLength := h.windowLength ▸ hlength
  have hsecond := process_simultaneous horder hp.passes hlength hxy (by simp [hnext]) hchron
  have hsecond' := process_simultaneous horder hpasses' hlength' hxy.symm (by simp [hnext'])
    hchron'
  rw [hsecond, hsecond']
  refine ⟨rfl, rfl, ⟨hcalls.policy, ?_, ?_⟩, keep', hnext', congrArg (· ++ [x]) hnext'⟩
  · show (r.process x).next.statistics.hear = (r'.process y).next.statistics.hear
    rw [hcalls.statistics]
  · show Shuffled ((r.process x).next.residents ++ [y]) ((r'.process y).next.residents ++ [x])
    rw [hnext, hnext', List.append_assoc, List.append_assoc]
    exact hkeep.append (.swap hxy .nil)

/-! ## Whole streams side by side -/

/-- Two sequences of calls emit lists that are equal up to the order of simultaneous elements,
    end with the same counters, and do not fail to fit one without the other. -/
structure SameCourse (r : Reference π τ) (cs : List (Call τ)) (r' : Reference π τ)
    (cs' : List (Call τ)) : Prop where
  emissions : List.Forall₂ Shuffled (r.emissions cs) (r'.emissions cs')
  statistics : (r.after cs).statistics = (r'.after cs').statistics
  fits : r.FitsAll cs → r'.FitsAll cs'

theorem SameCourse.cons {r r' : Reference π τ} {c c' : Call τ} {cs cs' : List (Call τ)}
    (hemitted : Option.Rel Shuffled (r.call c).emitted (r'.call c').emitted)
    (hfits : r.FitsAll (c :: cs) → r'.Fits c')
    (h : SameCourse (r.call c).next cs (r'.call c').next cs') :
    SameCourse r (c :: cs) r' (c' :: cs') := by
  refine ⟨?_, h.statistics, fun hall => ⟨hfits hall, h.fits hall.2⟩⟩
  rw [emissions_cons, emissions_cons]
  refine List.rel_append ?_ h.emissions
  generalize (r.call c).emitted = emitted at hemitted
  generalize (r'.call c').emitted = emitted' at hemitted
  cases hemitted with
  | some hxs => exact .cons hxs .nil
  | none => exact .nil

omit [Policy π τ ο] [ListPolicy π τ ο] in
theorem forall₂_shuffled_trans {as bs cs : List (List τ)} (h : List.Forall₂ Shuffled as bs)
    (h' : List.Forall₂ Shuffled bs cs) : List.Forall₂ Shuffled as cs := by
  induction h generalizing cs with
  | nil => exact h'
  | cons hab _ ih =>
    cases h' with
    | cons hbc h' => exact .cons (hab.trans hbc) (ih h')

theorem SameCourse.trans {r r' r'' : Reference π τ} {cs cs' cs'' : List (Call τ)}
    (h : SameCourse r cs r' cs') (h' : SameCourse r' cs' r'' cs'') :
    SameCourse r cs r'' cs'' :=
  ⟨forall₂_shuffled_trans h.emissions h'.emissions, h.statistics.trans h'.statistics,
    fun hall => h'.fits (h.fits hall)⟩

/-- Calls that emit the same up to order need the same of their records. -/
theorem fits_of_rel {r r' : Reference π τ} (c c' : Call τ) (hpolicy : r.policy = r'.policy)
    (hp : OrderBlind r.policy)
    (hemitted : Option.Rel Shuffled (r.call c).emitted (r'.call c').emitted)
    (hfits : r.Fits c) (hinput : ∀ x, c'.input? = some x → Window.AggregatesFit [x])
    (hresidents : Window.AggregatesFit (r'.call c').next.residents) : r'.Fits c' := by
  refine ⟨hinput, hresidents, ?_⟩
  intro ys hys
  rw [hys] at hemitted
  generalize hxs : (r.call c).emitted = emitted at hemitted
  cases hemitted with
  | some hshuffled =>
    rw [← hpolicy]
    exact hp.record hshuffled (hfits.record _ hxs)

theorem chronological_next (horder : Element.inOrder τ = true) {r : Reference π τ}
    (hpasses : ListPolicy.passes r.policy = false) {x : τ} {xs : List τ}
    (hchron : Window.Chronological (r.residents ++ x :: xs)) :
    Window.Chronological ((r.process x).next.residents ++ xs) := by
  obtain ⟨old, hsplit⟩ := (advance_process r x horder hpasses).split
  have hstream : r.residents ++ x :: xs = old ++ ((r.process x).next.residents ++ xs) := by
    rw [← List.append_assoc]
    exact (List.append_cons _ _ _).trans (congrArg (· ++ xs) hsplit)
  rw [hstream] at hchron
  exact (List.pairwise_append.1 hchron).2.1

/-- Twins that are flushed. -/
theorem Twins.sameCourse_flush {r r' : Reference π τ} (h : Twins r r')
    (hp : OrderBlind r.policy) : SameCourse r [.flush] r' [.flush] := by
  obtain ⟨hstatistics, hemitted⟩ := h.flush hp
  refine SameCourse.cons hemitted ?_ ⟨.nil, hstatistics, id⟩
  intro hfits
  refine fits_of_rel .flush .flush h.policy hp hemitted hfits.1 (fun x hx => by cases hx) ?_
  show Window.AggregatesFit r'.flush.next.residents
  rw [residents_flush]
  exact Window.consistent_empty.aggregates.fit

/-- Twins that are handed the same input stay twins, and take the same course if they do after
    it. -/
theorem Twins.sameCourse_process (horder : Element.inOrder τ = true) {r r' : Reference π τ}
    (h : Twins r r') (hp : OrderBlind r.policy) (x : τ) {cs cs' : List (Call τ)}
    (hrest : Twins (r.process x).next (r'.process x).next →
      SameCourse (r.process x).next cs (r'.process x).next cs') :
    SameCourse r (.process x :: cs) r' (.process x :: cs') := by
  have hcalls := h.process horder hp (rfl : Window.began x = Window.began x)
  obtain ⟨keep, keep', hkeep, hnext, hnext'⟩ := hcalls.residents
  have hresidents : Shuffled (r.process x).next.residents (r'.process x).next.residents := by
    rw [hnext, hnext']
    exact hkeep.append (.refl [x])
  refine SameCourse.cons hcalls.emitted ?_ (hrest ⟨hcalls.policy, hcalls.statistics, hresidents⟩)
  intro hfits
  exact fits_of_rel (.process x) (.process x) h.policy hp hcalls.emitted hfits.1 hfits.1.input
    (hresidents.aggregatesFit hfits.1.residents)

/-- Twins that are handed two inputs of the same moment, exchanged, are twins again behind them,
    and take the same course if they do from there. -/
theorem Twins.sameCourse_swap (horder : Element.inOrder τ = true) {r r' : Reference π τ}
    (h : Twins r r') (hp : OrderBlind r.policy) (hlength : 0 < r.windowLength) {x y : τ}
    (hxy : Window.began x = Window.began y)
    (hchron : Window.Chronological (r.residents ++ [x])) {cs cs' : List (Call τ)}
    (hrest : Twins ((r.process x).next.process y).next ((r'.process y).next.process x).next →
      SameCourse ((r.process x).next.process y).next cs
        ((r'.process y).next.process x).next cs') :
    SameCourse r (.process x :: .process y :: cs) r' (.process y :: .process x :: cs') := by
  have hcalls := h.process horder hp hxy
  obtain ⟨hquiet, hquiet', htwins, keep, hfirst, hsecond⟩ :=
    h.process_swap horder hp hlength hxy hchron
  -- What the left side fits at its second input holds all that the right side needs.
  have hroom : (r.process x).next.Fits (.process y) →
      Window.AggregatesFit (keep ++ [y] ++ [x]) := by
    intro hfits
    rw [← hsecond]
    exact htwins.residents.aggregatesFit hfits.residents
  have hinput : ∀ z w, Window.AggregatesFit (keep ++ [y] ++ [x]) → z ∈ keep ++ [y] ++ [x] →
      (Call.process z).input? = some w → Window.AggregatesFit [w] := by
    intro z w hfit hz hw
    obtain rfl : z = w := Option.some.inj hw
    exact hfit.of_subperm (List.singleton_subperm_iff.2 hz)
  refine SameCourse.cons hcalls.emitted ?_ (SameCourse.cons ?_ ?_ (hrest htwins))
  · intro hfits
    have hfit := hroom hfits.2.1
    refine fits_of_rel (.process x) (.process y) h.policy hp hcalls.emitted hfits.1
      (fun w => hinput y w hfit (by simp)) ?_
    show Window.AggregatesFit (r'.process y).next.residents
    rw [hfirst]
    exact hfit.of_subperm (List.sublist_append_left _ _).subperm
  · show Option.Rel Shuffled ((r.process x).next.process y).emitted
      ((r'.process y).next.process x).emitted
    rw [hquiet, hquiet']
    exact .none
  · intro hfits
    have hfit := hroom hfits.1
    refine ⟨fun w => hinput x w hfit (by simp), ?_, ?_⟩
    · show Window.AggregatesFit ((r'.process y).next.process x).next.residents
      rw [hsecond]
      exact hfit
    · intro zs hzs
      have hnone : ((r'.process y).next.process x).emitted = some zs := hzs
      rw [hquiet'] at hnone
      cases hnone

/-- Two streams that are equal up to the order of simultaneous elements take the same course. -/
theorem Twins.sameCourse (horder : Element.inOrder τ = true) {xs ys : List τ}
    (h : Shuffled xs ys) {r r' : Reference π τ} (ht : Twins r r') (hp : OrderBlind r.policy)
    (hlength : 0 < r.windowLength) (hchron : Window.Chronological (r.residents ++ xs)) :
    SameCourse r (Call.stream xs) r' (Call.stream ys) := by
  -- By the exchanges that lead from one stream to the other; the twins are any two so far.
  induction h generalizing r r' with
  | nil => exact ht.sameCourse_flush hp
  | @cons x xs ys h ih =>
    refine ht.sameCourse_process horder hp x fun hnext => ih hnext ?_ ?_ ?_
    · rw [policy_process]
      exact hp
    · rw [windowLength_process]
      exact hlength
    · exact chronological_next horder hp.passes hchron
  | @swap x y hxy xs ys h ih =>
    have hfirst : Window.Chronological (r.residents ++ [x]) :=
      hchron.sublist (List.Sublist.append_left (by simp) _)
    refine ht.sameCourse_swap horder hp hlength hxy hfirst fun hnext => ih hnext ?_ ?_ ?_
    · rw [policy_process, policy_process]
      exact hp
    · rw [windowLength_process, windowLength_process]
      exact hlength
    · refine chronological_next horder ?_ (chronological_next horder hp.passes hchron)
      rw [policy_process]
      exact hp.passes
  | trans h h' ih ih' =>
    have hchron' := (Shuffled.append (.refl r.residents) h).chronological hchron
    have hself : Twins r r := ⟨rfl, rfl, .refl _⟩
    exact (ih hself hp hlength hchron).trans (ih' ht hp hlength hchron')

end Reference

/-! ## The makers of activities -/

theorem Scanner.longestRun_perm (s : Scanner) {cs ds : List Channel} (h : cs.Perm ds) :
    s.longestRun cs = s.longestRun ds := s.longestRun_congr fun _ => h.mem_iff

theorem Settings.firesOnSums_perm {τ : Type} [Element τ] (s : Settings) {xs ys : List τ}
    (h : xs.Perm ys) : s.firesOnSums xs = s.firesOnSums ys := by
  unfold Settings.firesOnSums
  rw [Window.chargeOf_perm h, (Window.channelsOf_perm h).dedup.length_eq]

/-- A geometry that does not look at the incoming primitive does not see the order. -/
theorem Geometry.orderBlind (g : Geometry) (htot : g.settings.triggerOnTot = false) :
    OrderBlind g where
  passes := rfl
  fires x y h := by
    show g.firesOn _ x = g.firesOn _ y
    unfold Geometry.firesOn
    rw [g.settings.firesOnSums_perm h.perm,
      Scanner.longestRun_perm _ (Window.channelsOf_perm h.perm), htot]
    simp only [Bool.false_eq_true, false_and, if_false]
  firesAtEnd h := g.settings.firesOnSums_perm h.perm
  record {xs ys} h hmade := by
    -- The last primitive may be another one, but a record ends when it begins.
    obtain ⟨⟨last, hlast, -⟩, hcharge⟩ := ofPrimitives?_ne_none_iff.1 hmade
    have hne : ys ≠ [] := by
      intro hnil
      rw [h.nil_iff.2 hnil] at hlast
      cases hlast
    refine ofPrimitives?_ne_none_iff.2 ⟨?_, ?_⟩
    · exact ⟨ys.getLast hne, List.getLast?_eq_some_getLast hne, Ticks.fits_toInt _⟩
    · rwa [← Window.chargeOf_perm h.perm]

namespace Windowed

variable [Cluster ο τ] [LawfulPolicy π τ ο]

/-- After a run, the reference is where the maker is, and emitted what the outputs are made of. -/
theorem Valid.reference_run {m : Windowed π τ} (hm : m.Valid) {cs : List (Call τ)}
    {steps : List (Step (Windowed π τ) ο)} (h : Maker.run m cs = .ok steps) :
    (Maker.after m steps).forget = m.forget.after cs ∧
      (Maker.outputs steps).map Cluster.elements = m.forget.emissions cs := by
  induction cs generalizing m steps with
  | nil =>
    obtain rfl := Except.ok.inj h
    exact ⟨rfl, rfl⟩
  | cons c cs ih =>
    obtain ⟨step, rest, hstep, hrest, rfl⟩ := Maker.run_cons_eq_ok_iff.1 h
    have hfollows := hm.follows hstep
    obtain ⟨hafter, houtputs⟩ := ih hfollows.valid hrest
    rw [Reference.after_cons, Reference.emissions_cons, hfollows.reference.next,
      ← hfollows.reference.elements, ← houtputs]
    exact ⟨hafter, List.map_append⟩

end Windowed

/-- Two activities agree in their times, their charge and their peak, and have the same
    primitives in some order. -/
structure Activity.SameUpToOrder (a b : Activity) : Prop where
  timeStart : a.timeStart = b.timeStart
  timeEnd : a.timeEnd = b.timeEnd
  adcIntegral : a.adcIntegral = b.adcIntegral
  adcPeak : a.adcPeak = b.adcPeak
  inputs : a.inputs.Perm b.inputs

theorem Activity.Summary.peak_le_of_perm {a b : Activity} {endIncludesTot : Bool}
    (ha : a.Summary endIncludesTot) (hb : b.Summary endIncludesTot)
    (h : a.inputs.Perm b.inputs) : a.adcPeak ≤ b.adcPeak := by
  obtain ⟨p, hp, hpeak⟩ := ha.peak_mem
  rw [← hpeak]
  exact hb.peak_le p (h.subset hp)

/-- Activities that last until their last primitive begins agree if their primitives are the same
    up to the order of simultaneous ones. -/
theorem Activity.Summary.sameUpToOrder {a b : Activity} (ha : a.Summary false)
    (hb : b.Summary false) (h : Shuffled a.inputs b.inputs) : a.SameUpToOrder b := by
  have htimes := h.map_began
  refine ⟨?_, ?_, ?_, ?_, h.perm⟩
  · have hhead := congrArg List.head? htimes
    rw [List.head?_map, List.head?_map] at hhead
    obtain ⟨p, ps, hps⟩ := List.exists_cons_of_ne_nil ha.nonempty
    obtain ⟨q, qs, hqs⟩ := List.exists_cons_of_ne_nil hb.nonempty
    rw [hps, hqs] at hhead
    rw [ha.timeStart, hb.timeStart, hps, hqs]
    exact Int64.toInt_inj.1 (Option.some.inj hhead)
  · have hlast := congrArg List.getLast? htimes
    rw [List.getLast?_map, List.getLast?_map, List.getLast?_eq_some_getLast ha.nonempty,
      List.getLast?_eq_some_getLast hb.nonempty] at hlast
    refine Int64.toInt_inj.1 ?_
    rw [ha.timeEnd _ (List.getLast?_eq_some_getLast ha.nonempty),
      hb.timeEnd _ (List.getLast?_eq_some_getLast hb.nonempty)]
    exact Option.some.inj hlast
  · refine UInt64.toNat_inj.1 ?_
    rw [ha.charge, hb.charge, Window.chargeOf_perm h.perm]
  · exact UInt32.le_antisymm (ha.peak_le_of_perm hb h.perm) (hb.peak_le_of_perm ha h.perm.symm)

/-- The order of simultaneous primitives does not matter to a maker of activities: what holds of
    every two streams in the order of time that have the same primitives. -/
structure IgnoresOrder {ρ : Type} [Policy ρ Primitive Activity] (p : ρ) : Prop where
  /-- Where one stream goes through the other does, the counters end up the same, and the
      activities agree one by one. -/
  agrees : ∀ ps qs steps, ps.Perm qs → Window.Chronological ps → Window.Chronological qs →
    Maker.run ({ policy := p } : Windowed ρ Primitive) (Call.stream ps) = .ok steps →
    ∃ steps', Maker.run ({ policy := p } : Windowed ρ Primitive) (Call.stream qs) = .ok steps' ∧
      (Maker.after { policy := p } steps).statistics =
        (Maker.after { policy := p } steps').statistics ∧
      List.Forall₂ Activity.SameUpToOrder (Maker.outputs steps) (Maker.outputs steps')
  /-- Every stream of fewer than `2 ^ 32` primitives goes through. -/
  goesThrough : ∀ ps : List Primitive, ps.length < UInt32.size →
    ∃ steps, Maker.run ({ policy := p } : Windowed ρ Primitive) (Call.stream ps) = .ok steps

theorem Geometry.ignoresOrder (g : Geometry) (hg : g.settings.validate = .ok ())
    (htot : g.settings.triggerOnTot = false) : IgnoresOrder g := by
  have hvalid := Windowed.valid_fresh (τ := Primitive) (p := g) hg
  have hrefines := refines_of_validate (p := g) hg
  refine ⟨?_, ?_⟩
  · intro ps qs steps hperm hps hqs hrun
    have hlength : 0 < ({ policy := g } : Reference Geometry Primitive).windowLength :=
      Int64.lt_iff_toInt_lt.1 hvalid.windowLength
    have htwins : Reference.Twins ({ policy := g } : Reference Geometry Primitive)
        { policy := g } := ⟨rfl, rfl, .nil⟩
    have hcourse := htwins.sameCourse rfl (.of_perm hperm hps hqs) (g.orderBlind htot) hlength hps
    obtain ⟨steps', hrun'⟩ := (hrefines.goesThrough _).2
      (hcourse.fits ((hrefines.goesThrough _).1 ⟨steps, hrun⟩))
    obtain ⟨hafter, helements⟩ := hvalid.reference_run hrun
    obtain ⟨hafter', helements'⟩ := hvalid.reference_run hrun'
    refine ⟨steps', hrun', ?_, ?_⟩
    · have hstatistics := hcourse.statistics
      change ((Windowed.forget { policy := g }).after _).statistics =
        ((Windowed.forget { policy := g }).after _).statistics at hstatistics
      rw [← hafter, ← hafter'] at hstatistics
      exact hstatistics
    · have hemissions := hcourse.emissions
      change List.Forall₂ _ ((Windowed.forget { policy := g }).emissions _)
        ((Windowed.forget { policy := g }).emissions _) at hemissions
      rw [← helements, ← helements', List.forall₂_map_left_iff, List.forall₂_map_right_iff,
        List.forall₂_iff_zip] at hemissions
      -- Each output is the record of its own primitives.
      refine List.forall₂_iff_zip.2 ⟨hemissions.1, ?_⟩
      intro a b hab
      obtain ⟨ha, hb⟩ := List.of_mem_zip hab
      have hsummary : a.Summary false := summary_of_record (hvalid.record_of_run hrun a ha)
      have hsummary' : b.Summary false := summary_of_record (hvalid.record_of_run hrun' b hb)
      exact hsummary.sameUpToOrder hsummary' (hemissions.2 hab)
  · intro ps hps
    refine (hrefines.goesThrough _).2 (Geometry.fitsAll ?_)
    simpa [Call.inputs_stream] using hps

/-- With settings in range, the maker that looks at the charge alone ignores the order of
    simultaneous primitives; and so does the maker of horizontal tracks, if it does not look at
    the time over threshold of the incoming primitive. -/
theorem order_of_simultaneous_hits_is_irrelevant (s : Settings) (hs : s.validate = .ok ()) :
    IgnoresOrder (Geometry.charge s) ∧
      (s.triggerOnTot = false → IgnoresOrder (Geometry.horizontal s)) :=
  ⟨Geometry.ignoresOrder (.charge s) ((Geometry.validate_charge s).trans hs) rfl,
    Geometry.ignoresOrder (.horizontal s) hs⟩

/-- Two hits at the same time, above the threshold together, and a later one: in either order
    the two become one activity. -/
theorem two_simultaneous_hits_exchanged :
    (Settings.withAdcTrigger {} 100).validate = .ok () ∧
      (Settings.withAdcTrigger {} 100).triggerOnTot = false ∧
      ∃ steps steps',
        Maker.run
            ({ policy := Geometry.horizontal (.withAdcTrigger {} 100) } :
              Windowed Geometry Primitive)
            (Call.stream [.hit 1 0 60, .hit 2 0 50, .hit 3 9000 10]) = .ok steps ∧
          Maker.run
            ({ policy := Geometry.horizontal (.withAdcTrigger {} 100) } :
              Windowed Geometry Primitive)
            (Call.stream [.hit 2 0 50, .hit 1 0 60, .hit 3 9000 10]) = .ok steps' ∧
          (Maker.outputs steps).map (·.inputs) = [[.hit 1 0 60, .hit 2 0 50]] ∧
          List.Forall₂ Activity.SameUpToOrder (Maker.outputs steps) (Maker.outputs steps') := by
  have hvalid : (Settings.withAdcTrigger {} 100).validate = .ok () :=
    Settings.validate_eq_ok_iff.2 (by decide)
  have htot : (Settings.withAdcTrigger {} 100).triggerOnTot = false := rfl
  have hignores := (order_of_simultaneous_hits_is_irrelevant _ hvalid).2 htot
  obtain ⟨steps, hrun⟩ :=
    hignores.goesThrough [.hit 1 0 60, .hit 2 0 50, .hit 3 9000 10] (by decide)
  obtain ⟨steps', hrun', -, hsame⟩ := hignores.agrees _
    [.hit 2 0 50, .hit 1 0 60, .hit 3 9000 10] steps (by decide)
    (by unfold Window.Chronological; decide) (by unfold Window.Chronological; decide) hrun
  have houtputs : (Maker.run
      ({ policy := Geometry.horizontal (.withAdcTrigger {} 100) } : Windowed Geometry Primitive)
      (Call.stream [.hit 1 0 60, .hit 2 0 50, .hit 3 9000 10])).map
        (fun steps => (Maker.outputs steps).map (·.inputs)) =
      .ok [[.hit 1 0 60, .hit 2 0 50]] := rfl
  rw [hrun] at houtputs
  exact ⟨hvalid, htot, steps, steps', hrun, hrun', Except.ok.inj houtputs, hsame⟩

end TriggerChain
