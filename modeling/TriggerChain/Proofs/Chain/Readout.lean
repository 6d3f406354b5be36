import TriggerChain.Proofs.Chain.Activities
import TriggerChain.Proofs.Chain.Passes
import TriggerChain.Proofs.Maker.Residents
import TriggerChain.Proofs.Maker.Stops

/-!
# What a candidate asks to read out

Each kind of candidate maker sets the interval to read out in a way of its own: from the window
and the last primitive of the last activity, from the first and the last activity of a bundle, from
a single activity, or back from the activity that completes a burst. Every one of these intervals
holds all primitives of the candidate, because the activities reach the candidate maker in the
order of time and what a maker keeps of them stays in this order.

Main statement: `readout_covers_hits`.
-/

namespace TriggerChain

/-! ## Candidates from a succession of activities -/

/-- The time of a candidate lies in the interval to read out, and so does the start of every
    primitive of its activities, of which there is at least one. -/
structure Candidate.CoversHits (c : Candidate) : Prop where
  nonempty : ∃ a ∈ c.inputs, a.inputs ≠ []
  start : c.timeStart ≤ c.timeCandidate
  stop : c.timeCandidate ≤ c.timeEnd
  hits : ∀ a ∈ c.inputs, ∀ p ∈ a.inputs, c.timeStart ≤ p.timeStart ∧ p.timeStart ≤ c.timeEnd

/-- A candidate covers its hits if it reaches from no later than its first activity to no earlier
    than the last primitive of its last one. -/
theorem coversHits_of_succession {c : Candidate} {first : Activity} {rest : List Activity}
    (hinputs : c.inputs = first :: rest) (hs : Succession (first :: rest))
    (hstart : c.timeStart.toInt ≤ first.timeStart.toInt)
    (hcandidate : c.timeCandidate = first.timeStart)
    (hend : ∀ last ∈ (rest.getLastD first).inputs.getLast?,
      Window.began last ≤ c.timeEnd.toInt) : c.CoversHits := by
  have hmem : rest.getLastD first ∈ first :: rest :=
    List.mem_of_getLast? (getLast?_cons_eq_getLastD first rest)
  have hlast := List.getLast?_eq_some_getLast (hs.activity _ hmem).nonempty
  have hbetween := hs.between hlast
  have hlast_le := hend _ hlast
  have hfirst := (hs.activity first List.mem_cons_self).nonempty
  refine ⟨⟨first, hinputs ▸ List.mem_cons_self, hfirst⟩, ?_, ?_, ?_⟩
  · rw [hcandidate, Int64.le_iff_toInt_le]
    exact hstart
  · -- Some primitive of the first activity lies between its start and the end.
    obtain ⟨p, hp⟩ := List.exists_mem_of_ne_nil _ hfirst
    obtain ⟨hle, hge⟩ := hbetween first List.mem_cons_self p hp
    rw [hcandidate, Int64.le_iff_toInt_le]
    omega
  · intro a ha p hp
    rw [hinputs] at ha
    obtain ⟨hle, hge⟩ := hbetween a ha p hp
    rw [Int64.le_iff_toInt_le, Int64.le_iff_toInt_le]
    change _ ≤ p.timeStart.toInt at hle
    change p.timeStart.toInt ≤ _ at hge
    omega

/-- Activities that follow one another begin in the order of time. -/
theorem Succession.chronological {as : List Activity} (h : Succession as) :
    Window.Chronological as := by
  refine h.order.imp_of_mem ?_
  intro a b ha hb hab
  have hfirst : ∀ x ∈ as, ∃ p ∈ x.inputs, x.timeStart.toInt = Window.began p := by
    intro x hx
    have hwell := h.activity x hx
    obtain ⟨p, ps, hcons⟩ := List.exists_cons_of_ne_nil hwell.nonempty
    refine ⟨p, by rw [hcons]; exact List.mem_cons_self, ?_⟩
    rw [hwell.timeStart, hcons]
    rfl
  obtain ⟨p, hp, hstart⟩ := hfirst a ha
  obtain ⟨q, hq, hstart'⟩ := hfirst b hb
  show a.timeStart.toInt ≤ b.timeStart.toInt
  rw [hstart, hstart']
  exact hab p hp q hq

/-! ## Groupings -/

theorem Grouping.coversHits_of_record {g : Grouping} (hg : g.settings.validate = .ok ())
    {as : List Activity} {c : Candidate} (hrecord : g.record? as = some c)
    (hs : Succession as) : c.CoversHits := by
  obtain ⟨-, -, -, hbefore, hafter⟩ := Settings.validate_eq_ok_iff.1 hg
  rw [Int64.le_iff_toInt_le] at hbefore hafter
  change 0 ≤ g.settings.readoutBefore.toInt at hbefore
  change 0 ≤ g.settings.readoutAfter.toInt at hafter
  cases as with
  | nil => cases hrecord
  | cons first rest =>
    obtain ⟨lastEnd, hlastEnd, hrecord⟩ := Option.bind_eq_some_iff.1 hrecord
    obtain ⟨timeStart, htimeStart, hrecord⟩ := Option.bind_eq_some_iff.1 hrecord
    obtain ⟨timeEnd, htimeEnd, hrecord⟩ := Option.bind_eq_some_iff.1 hrecord
    obtain rfl := Option.some.inj hrecord
    have hlastEnd := Ticks.ofInt?_eq_some hlastEnd
    have htimeStart := Ticks.ofInt?_eq_some htimeStart
    have htimeEnd := Ticks.ofInt?_eq_some htimeEnd
    refine coversHits_of_succession rfl hs ?_ rfl ?_
    · show timeStart.toInt ≤ _
      omega
    · intro last hlast
      have hmem : rest.getLastD first ∈ first :: rest :=
        List.mem_of_getLast? (getLast?_cons_eq_getLastD first rest)
      have htot := (hs.activity _ hmem).tot last (List.mem_of_getLast? hlast)
      have hlast' : (rest.getLastD first).inputs.getLast? = some last := hlast
      rw [Grouping.exactEndOf, hlast'] at hlastEnd
      dsimp only at hlastEnd
      show last.timeStart.toInt ≤ timeEnd.toInt
      omega

/-- What a call of a succession leaves in the window is still in succession with what follows, and
    every output covers its hits. -/
theorem Grouping.coversHits_call {g : Grouping} (hg : g.settings.validate = .ok ())
    {m : Windowed Grouping Activity} (hm : m.Valid) (hpolicy : m.policy = g)
    {c : Call Activity} {cs : List (Call Activity)}
    {step : Step (Windowed Grouping Activity) Candidate} (h : Maker.call m c = .ok step)
    (hs : Succession (m.window.inputs ++ Call.inputs (c :: cs))) :
    Succession (step.maker.window.inputs ++ Call.inputs cs) ∧
      ∀ o ∈ step.outputs, o.CoversHits := by
  have hmatches := (hm.follows h).reference
  rw [Call.inputs_cons, ← List.append_assoc] at hs
  have hheard : Succession (m.window.inputs ++ c.input?.toList) :=
    hs.sublist (List.sublist_append_left _ _)
  obtain ⟨⟨kept, hkept, -, hsame⟩, hemitted⟩ := Reference.draws_call m.forget c
  have hnext : step.maker.window.inputs = kept := by
    rw [← hsame hheard.chronological, hmatches.next]
    rfl
  refine ⟨?_, ?_⟩
  · rw [hnext]
    exact hs.sublist (hkept.append_right _)
  · intro o ho
    obtain ⟨hfrom, hrecord⟩ := hmatches.record_of_mem ho
    have hsub := (hemitted _ hfrom).2
    rw [hm.policy_eq h, hpolicy] at hrecord
    exact Grouping.coversHits_of_record hg hrecord (hheard.sublist hsub)

theorem Grouping.coversHits_run {g : Grouping} (hg : g.settings.validate = .ok ())
    {cs : List (Call Activity)} {steps : List (Step (Windowed Grouping Activity) Candidate)}
    (h : Maker.run ({ policy := g } : Windowed Grouping Activity) cs = .ok steps)
    (hs : Succession (Call.inputs cs)) : ∀ o ∈ Maker.outputs steps, o.CoversHits := by
  let Inv (m : Windowed Grouping Activity) (cs : List (Call Activity)) : Prop :=
    m.Valid ∧ m.policy = g ∧ Succession (m.window.inputs ++ Call.inputs cs)
  have hfresh : Inv { policy := g } cs := ⟨Windowed.valid_fresh hg, rfl, hs⟩
  refine (Maker.run_invariant Inv ?_ hfresh h).2
  rintro m c cs step ⟨hm, hpolicy, hs⟩ hstep
  obtain ⟨hnext, houtputs⟩ := Grouping.coversHits_call hg hm hpolicy hstep hs
  exact ⟨⟨(hm.follows hstep).valid, (hm.policy_eq hstep).trans hpolicy, hnext⟩, houtputs⟩

/-! ## Makers without a window -/

theorem Candidate.coversHits_ofActivity {a : Activity} (ha : a.WellTimed) :
    (Candidate.ofActivity a).CoversHits := by
  have hone : Succession [a] :=
    ⟨fun b hb => List.mem_singleton.1 hb ▸ ha, List.pairwise_singleton _ _⟩
  exact coversHits_of_succession rfl hone (Int.le_refl _) rfl ha.timeEnd

theorem Prescaler.coversHits_run {m : Prescaler Activity} {cs : List (Call Activity)}
    {steps : List (Step (Prescaler Activity) Candidate)} (h : Maker.run m cs = .ok steps)
    (hs : Succession (Call.inputs cs)) : ∀ o ∈ Maker.outputs steps, o.CoversHits := by
  let Inv (_ : Prescaler Activity) (cs : List (Call Activity)) : Prop :=
    Succession (Call.inputs cs)
  refine (Maker.run_invariant Inv ?_ hs h).2
  intro m c cs step hs hstep
  refine ⟨hs.sublist (by rw [Call.inputs_cons]; exact List.sublist_append_right _ _), ?_⟩
  cases c with
  | flush =>
    obtain rfl := Except.ok.inj hstep
    simp
  | process a =>
    cases Prescaler.processed_of_process hstep with
    | kept _ hpromote =>
      obtain rfl := Except.ok.inj hpromote
      intro o ho
      obtain rfl := List.mem_singleton.1 ho
      exact Candidate.coversHits_ofActivity (hs.activity a List.mem_cons_self)
    | dropped => simp

theorem Bundler.coversHits_candidate {first : Activity} {rest : List Activity}
    (hs : Succession (first :: rest)) : (Bundler.candidate first rest).CoversHits := by
  have hmem : rest.getLastD first ∈ first :: rest :=
    List.mem_of_getLast? (getLast?_cons_eq_getLastD first rest)
  exact coversHits_of_succession rfl hs (Int.le_refl _) rfl (hs.activity _ hmem).timeEnd

theorem Bundler.coversHits_run {m : Bundler} (hm : m.pending = []) {cs : List (Call Activity)}
    {steps : List (Step Bundler Candidate)} (h : Maker.run m cs = .ok steps)
    (hs : Succession (Call.inputs cs)) : ∀ o ∈ Maker.outputs steps, o.CoversHits := by
  let Inv (m : Bundler) (cs : List (Call Activity)) : Prop :=
    Succession (m.pending ++ Call.inputs cs)
  have hfresh : Inv m cs := by
    show Succession (m.pending ++ _)
    rwa [hm]
  refine (Maker.run_invariant Inv ?_ hfresh h).2
  intro m c cs step hs hstep
  change Succession (m.pending ++ _) at hs
  show Succession (step.maker.pending ++ _) ∧ _
  cases c with
  | flush =>
    obtain rfl := Except.ok.inj hstep
    exact ⟨hs.sublist (List.sublist_append_right _ _), by simp [Bundler.flush]⟩
  | process a =>
    rw [Call.inputs_process, List.append_cons] at hs
    cases Bundler.processed_of_process hstep with
    | collected => exact ⟨hs, by simp⟩
    | dropped => exact ⟨hs.sublist (List.sublist_append_right _ _), by simp⟩
    | made _ _ hbundle =>
      refine ⟨hs.sublist (List.sublist_append_right _ _), ?_⟩
      intro o ho
      obtain rfl := List.mem_singleton.1 ho
      rw [hbundle] at hs
      exact Bundler.coversHits_candidate (hs.sublist (List.sublist_append_left _ _))

/-! ## Bursts -/

theorem BurstFinder.coversHits_candidate {m : BurstFinder} (hm : 0 ≤ m.window.toInt)
    {a : Activity} (hburst : m.buffered a ≠ []) (hs : Succession (m.buffer ++ [a])) :
    (m.candidate a (m.buffered a)).CoversHits := by
  have ha := hs.activity a (by simp)
  obtain ⟨first, hfirst⟩ := List.exists_mem_of_ne_nil _ hburst
  have hmem := (m.buffered_sublist a).subset hfirst
  refine ⟨⟨first, hfirst, (hs.activity first hmem).nonempty⟩, ?_, ?_, ?_⟩
  · rw [Int64.le_iff_toInt_le]
    exact horizon_le hm a.timeStart
  · obtain ⟨p, hp⟩ := List.exists_mem_of_ne_nil _ ha.nonempty
    rw [Int64.le_iff_toInt_le]
    exact Int.le_trans (ha.start_le p hp) (ha.le_end p hp)
  · intro b hb p hp
    have hmem := (m.buffered_sublist a).subset hb
    have hstart := (hs.activity b hmem).start_le p hp
    have hhorizon := horizon_le_of_mem hm hb
    change _ ≤ p.timeStart.toInt at hstart
    -- The activity that completes the burst ends last.
    have hend : p.timeStart.toInt ≤ a.timeEnd.toInt := by
      rcases List.mem_append.1 hmem with hearlier | hlast
      · obtain ⟨q, hq⟩ := List.exists_mem_of_ne_nil _ ha.nonempty
        have horder := (List.pairwise_append.1 hs.order).2.2 b hearlier a
          (List.mem_singleton.2 rfl) p hp q hq
        exact Int.le_trans horder (ha.le_end q hq)
      · obtain rfl := List.mem_singleton.1 hlast
        exact ha.le_end p hp
    rw [Int64.le_iff_toInt_le, Int64.le_iff_toInt_le]
    exact ⟨Int.le_trans hhorizon hstart, hend⟩

theorem BurstFinder.coversHits_run {m : BurstFinder} (hm : 0 ≤ m.window.toInt)
    (hempty : m.buffer = []) {cs : List (Call Activity)}
    {steps : List (Step BurstFinder Candidate)} (h : Maker.run m cs = .ok steps)
    (hs : Succession (Call.inputs cs)) : ∀ o ∈ Maker.outputs steps, o.CoversHits := by
  let Inv (m : BurstFinder) (cs : List (Call Activity)) : Prop :=
    0 ≤ m.window.toInt ∧ Succession (m.buffer ++ Call.inputs cs)
  have hfresh : Inv m cs := by
    refine ⟨hm, ?_⟩
    rwa [hempty]
  refine (Maker.run_invariant Inv ?_ hfresh h).2
  rintro m c cs step ⟨hm, hs⟩ hstep
  show (0 ≤ step.maker.window.toInt ∧ Succession (step.maker.buffer ++ _)) ∧ _
  cases c with
  | flush =>
    obtain rfl := Except.ok.inj hstep
    exact ⟨⟨hm, hs.sublist (List.sublist_append_right _ _)⟩, by simp [BurstFinder.flush]⟩
  | process a =>
    rw [Call.inputs_process, List.append_cons] at hs
    cases BurstFinder.processed_of_process hstep with
    | quiet =>
      exact ⟨⟨hm, hs.sublist ((m.buffered_sublist a).append_right _)⟩, by simp⟩
    | burst hmany =>
      have hburst : m.buffered a ≠ [] := List.ne_nil_of_length_pos (by omega)
      refine ⟨⟨hm, hs.sublist (List.sublist_append_right _ _)⟩, ?_⟩
      intro o ho
      obtain rfl := List.mem_singleton.1 ho
      exact coversHits_candidate hm hburst (hs.sublist (List.sublist_append_left _ _))

/-! ## Chains -/

/-- From a succession of activities, every candidate of a maker of any kind covers its hits. -/
theorem CandidateMaker.coversHits_of_run {m : CandidateMaker} {s : Settings} (hm : m.Fresh s)
    {cs : List (Call Activity)} {steps : List (Step CandidateMaker Candidate)}
    (h : Maker.run m cs = .ok steps) (hsuccession : Succession (Call.inputs cs)) :
    ∀ o ∈ Maker.outputs steps, o.CoversHits := by
  cases hm with
  | grouping hs =>
    obtain ⟨steps', hrun, houtputs, -⟩ := embeds_grouping.run_eq_ok h
    rw [houtputs]
    exact Grouping.coversHits_run hs hrun hsuccession
  | prescale =>
    obtain ⟨steps', hrun, houtputs, -⟩ := embeds_prescale.run_eq_ok h
    rw [houtputs]
    exact Prescaler.coversHits_run hrun hsuccession
  | bundle =>
    obtain ⟨steps', hrun, houtputs, -⟩ := embeds_bundle.run_eq_ok h
    rw [houtputs]
    exact Bundler.coversHits_run rfl hrun hsuccession
  | burst hwindow =>
    obtain ⟨steps', hrun, houtputs, -⟩ := embeds_burst.run_eq_ok h
    rw [houtputs]
    exact BurstFinder.coversHits_run hwindow rfl hrun hsuccession

/-- Over primitives in the order of time with no negative time over threshold, every candidate of
    a chain of registered makers asks to read out an interval that holds the time of the candidate
    and all its primitives; and nothing but an overflow keeps the chain from its end. -/
theorem readout_covers_hits (registry : Registry) (setup : ChainSetup) (built : ChainSetup.Built)
    (hbuild : setup.build registry = .ok built) (ps : List Primitive)
    (hchron : Window.Chronological ps) (htot : ∀ p ∈ ps, 0 ≤ p.timeOverThreshold) :
    (∀ c, built.run ps = .ok c → ∀ o ∈ c.candidates, o.CoversHits) ∧
      ∀ fault left, built.run ps = .error (fault, left) → fault.IsOverflow := by
  obtain ⟨hactivity, s, -, hcandidate⟩ := ChainSetup.makers_of_build hbuild
  refine ⟨?_, ?_⟩
  · intro c hrun o ho
    obtain ⟨as, ks, hpasses⟩ := Chain.passes_of_run hrun
    -- The activities come in succession, and all of them reach the candidate maker.
    have hclusters := ActivityMaker.clusters_of_run hactivity hpasses.activityRun
    rw [Call.inputs_stream] at hclusters
    have hsuccession := hclusters.succession hchron htot
    rw [← Call.inputs_stream (Maker.outputs as)] at hsuccession
    refine CandidateMaker.coversHits_of_run hcandidate hpasses.candidateRun hsuccession o ?_
    rw [← hpasses.candidates]
    exact Array.mem_toList_iff.2 ho
  · intro fault left hrun
    rcases Chain.stops_of_run hrun with ⟨pre, -, hstop⟩ | ⟨pre, as, ds, -, -, -, hstop⟩
    · exact ActivityMaker.overflow_of_run hactivity hstop
    · exact CandidateMaker.overflow_of_run hcandidate hstop

/-- Two hits that fire a window, and a later one: the activity of the two becomes a candidate, and
    both are read out. -/
theorem two_hits_read_out :
    ∃ setup built c, ChainSetup.build setup .builtin = .ok built ∧
      built.run [.hit 1 2000 60, .hit 2 9000 60, .hit 3 20000 10] = .ok c ∧
      c.candidates.toList.map (fun o => (o.timeStart, o.timeEnd, o.inputs.map (·.inputs))) =
        [(2000, 9000, [[.hit 1 2000 60, .hit 2 9000 60]])] ∧
      ∀ o ∈ c.candidates, o.CoversHits := by
  let setup : ChainSetup := {
    activityMaker := "adc_simple_window"
    activityConfig := .object [("trigger_on_adc", .bool true), ("adc_threshold", .integer 100)] }
  let built : ChainSetup.Built := {
    activityMaker := ActivityMakerKind.adcSimpleWindow.made (.withAdcTrigger {} 100)
    candidateMaker := CandidateMakerKind.horizontalMuon.made .forCandidates
    notices := [] }
  have hbuild : setup.build .builtin = .ok built := rfl
  have hchron : Window.Chronological
      [Primitive.hit 1 2000 60, .hit 2 9000 60, .hit 3 20000 10] := by
    unfold Window.Chronological
    decide
  have hcovers := (readout_covers_hits .builtin setup built hbuild _ hchron (by decide)).1
  have hcandidates : (built.run [.hit 1 2000 60, .hit 2 9000 60, .hit 3 20000 10]).toOption.map
      (fun c => c.candidates.toList.map
        fun o => (o.timeStart, o.timeEnd, o.inputs.map (·.inputs))) =
      some [(2000, 9000, [[.hit 1 2000 60, .hit 2 9000 60]])] := by
    decide +kernel
  obtain ⟨c, hrun, hseen⟩ := Checked.toOption_map_eq_some_iff.1 hcandidates
  exact ⟨setup, built, c, hbuild, hrun, hseen, hcovers c hrun⟩

end TriggerChain
