import TriggerChain.Chain.Basic
import TriggerChain.Proofs.Maker.Calls

/-!
# A chain as two passes

A chain hands activities on as they come out of the activity maker. What the two makers do is
the same as if the activity maker had been run over all primitives first, and the candidate maker
over all of its activities afterwards. Where a chain stops, one of the two makers stops in such a
pass, after it has been handed a beginning of what it would have been handed.

Main statements: `passes_of_run`, `run_of_passes` and `stops_of_run`, and from the first two
`streaming_is_two_passes`.
-/

namespace TriggerChain

namespace Chain

variable {α κ : Type}

/-- A chain has come from `c` to `c'` while its makers returned the given steps. -/
structure Along (c : Chain α κ) (as : List (Step α Activity)) (ks : List (Step κ Candidate))
    (c' : Chain α κ) : Prop where
  activityMaker : c'.activityMaker = Maker.after c.activityMaker as
  candidateMaker : c'.candidateMaker = Maker.after c.candidateMaker ks
  activities : c'.activities.toList = c.activities.toList ++ Maker.outputs as
  candidates : c'.candidates.toList = c.candidates.toList ++ Maker.outputs ks

theorem Along.refl (c : Chain α κ) : Along c [] [] c :=
  ⟨rfl, rfl, (List.append_nil _).symm, (List.append_nil _).symm⟩

theorem Along.trans {c c' c'' : Chain α κ} {as as' : List (Step α Activity)}
    {ks ks' : List (Step κ Candidate)} (h : Along c as ks c') (h' : Along c' as' ks' c'') :
    Along c (as ++ as') (ks ++ ks') c'' := by
  refine ⟨?_, ?_, ?_, ?_⟩
  · rw [h'.activityMaker, h.activityMaker, Maker.after_append]
  · rw [h'.candidateMaker, h.candidateMaker, Maker.after_append]
  · rw [h'.activities, h.activities, Maker.outputs_append, List.append_assoc]
  · rw [h'.candidates, h.candidates, Maker.outputs_append, List.append_assoc]

theorem along_addCandidates (c : Chain α κ) (step : Step κ Candidate) :
    Along c [] [step] (c.addCandidates step) := by
  refine ⟨rfl, rfl, (List.append_nil _).symm, ?_⟩
  simp [addCandidates, Maker.outputs]

theorem along_addActivities (c : Chain α κ) (step : Step α Activity) :
    Along c [step] [] (c.addActivities step) := by
  refine ⟨rfl, rfl, ?_, (List.append_nil _).symm⟩
  simp [addActivities, Maker.outputs]

/-! ## Activities that are handed on -/

section HandOn

variable [Maker κ Activity Candidate]

theorem feedAll_ok {c c' : Chain α κ} {as : List Activity} (h : as.foldlM feed c = .ok c') :
    ∃ ks, Maker.run c.candidateMaker (as.map Call.process) = .ok ks ∧ Along c [] ks c' := by
  induction as generalizing c with
  | nil =>
    obtain rfl := Except.ok.inj h
    exact ⟨[], rfl, .refl c⟩
  | cons a as ih =>
    obtain ⟨c₁, hfeed, hrest⟩ := Checked.bind_eq_ok_iff.1 h
    unfold feed at hfeed
    split at hfeed
    · next step hstep =>
      obtain rfl := Except.ok.inj hfeed
      obtain ⟨ks, hrun, halong⟩ := ih hrest
      exact ⟨step :: ks, Maker.run_cons_eq_ok_iff.2 ⟨step, ks, hstep, hrun, rfl⟩,
        (c.along_addCandidates step).trans halong⟩
    · cases hfeed

theorem feedAll_error {c left : Chain α κ} {as : List Activity} {fault : Fault}
    (h : as.foldlM feed c = .error (fault, left)) :
    ∃ pre, pre <+: as ∧
      Maker.run (ο := Candidate) c.candidateMaker (pre.map Call.process) = .error fault := by
  induction as generalizing c with
  | nil => cases h
  | cons a as ih =>
    rcases Checked.bind_eq_error_iff.1 h with herr | ⟨c₁, hfeed, hrest⟩
    · -- The candidate maker stops at the first activity.
      refine ⟨[a], List.cons_prefix_cons.2 ⟨rfl, List.nil_prefix⟩, ?_⟩
      unfold feed at herr
      split at herr
      · cases herr
      · next fault' hstop =>
        obtain rfl : fault' = fault := congrArg Prod.fst (Except.error.inj herr)
        exact Maker.run_cons_eq_error_iff.2 (.inl hstop)
    · unfold feed at hfeed
      split at hfeed
      · next step hstep =>
        obtain rfl := Except.ok.inj hfeed
        obtain ⟨pre, hpre, hrun⟩ := ih hrest
        exact ⟨a :: pre, List.cons_prefix_cons.2 ⟨rfl, hpre⟩,
          Maker.run_cons_eq_error_iff.2 (.inr ⟨step, hstep, hrun⟩)⟩
      · cases hfeed

theorem handOn_ok {c c' : Chain α κ} {step : Step α Activity} (h : c.handOn step = .ok c') :
    ∃ ks, Maker.run c.candidateMaker (step.outputs.map Call.process) = .ok ks ∧
      Along c [step] ks c' := by
  obtain ⟨ks, hrun, halong⟩ := feedAll_ok h
  exact ⟨ks, hrun, (c.along_addActivities step).trans halong⟩

theorem handOn_error {c left : Chain α κ} {step : Step α Activity} {fault : Fault}
    (h : c.handOn step = .error (fault, left)) :
    ∃ pre, pre <+: step.outputs ∧
      Maker.run (ο := Candidate) c.candidateMaker (pre.map Call.process) = .error fault :=
  feedAll_error (c := c.addActivities step) h

end HandOn

variable [Maker α Primitive Activity] [Maker κ Activity Candidate]

/-! ## Calls on the activity maker -/

/-- A call on the activity maker of a chain, with all that follows from it. -/
def walk (c : Chain α κ) : Call Primitive → ChainRun α κ (Chain α κ)
  | .process p => c.take p
  | .flush => c.flushActivities

theorem walk_ok {c c' : Chain α κ} {call : Call Primitive} (h : c.walk call = .ok c') :
    ∃ step ks, Maker.call c.activityMaker call = .ok step ∧
      Maker.run c.candidateMaker (step.outputs.map Call.process) = .ok ks ∧
      Along c [step] ks c' := by
  cases call with
  | process p =>
    change c.take p = _ at h
    unfold take at h
    split at h
    · next step hstep =>
      obtain ⟨ks, hrun, halong⟩ := handOn_ok h
      exact ⟨step, ks, hstep, hrun, halong⟩
    · cases h
  | flush =>
    change c.flushActivities = _ at h
    unfold flushActivities at h
    split at h
    · next step hstep =>
      obtain ⟨ks, hrun, halong⟩ := handOn_ok h
      exact ⟨step, ks, hstep, hrun, halong⟩
    · cases h

theorem walk_error {c left : Chain α κ} {call : Call Primitive} {fault : Fault}
    (h : c.walk call = .error (fault, left)) :
    Maker.call (ο := Activity) c.activityMaker call = .error fault ∨
      ∃ step pre, Maker.call c.activityMaker call = .ok step ∧ pre <+: step.outputs ∧
        Maker.run (ο := Candidate) c.candidateMaker (pre.map Call.process) = .error fault := by
  cases call with
  | process p =>
    change c.take p = _ at h
    unfold take at h
    split at h
    · next step hstep =>
      obtain ⟨pre, hpre, hrun⟩ := handOn_error h
      exact .inr ⟨step, pre, hstep, hpre, hrun⟩
    · next fault' hstop =>
      obtain rfl : fault' = fault := congrArg Prod.fst (Except.error.inj h)
      exact .inl hstop
  | flush =>
    change c.flushActivities = _ at h
    unfold flushActivities at h
    split at h
    · next step hstep =>
      obtain ⟨pre, hpre, hrun⟩ := handOn_error h
      exact .inr ⟨step, pre, hstep, hpre, hrun⟩
    · next fault' hstop =>
      obtain rfl : fault' = fault := congrArg Prod.fst (Except.error.inj h)
      exact .inl hstop

/-- Calls that go through on a chain are two passes. -/
theorem walkAll_ok {c c' : Chain α κ} {cs : List (Call Primitive)}
    (h : cs.foldlM walk c = .ok c') :
    ∃ as ks, Maker.run c.activityMaker cs = .ok as ∧
      Maker.run c.candidateMaker ((Maker.outputs as).map Call.process) = .ok ks ∧
      Along c as ks c' := by
  induction cs generalizing c with
  | nil =>
    obtain rfl := Except.ok.inj h
    exact ⟨[], [], rfl, rfl, .refl c⟩
  | cons call cs ih =>
    obtain ⟨c₁, hwalk, hrest⟩ := Checked.bind_eq_ok_iff.1 h
    obtain ⟨step, ks, hstep, hks, halong⟩ := walk_ok hwalk
    obtain ⟨as, ks', hrun, hrun', halong'⟩ := ih hrest
    rw [halong.activityMaker] at hrun
    rw [halong.candidateMaker] at hrun'
    refine ⟨step :: as, ks ++ ks', ?_, ?_, halong.trans halong'⟩
    · exact Maker.run_cons_eq_ok_iff.2 ⟨step, as, hstep, hrun, rfl⟩
    · rw [Maker.outputs_cons, List.map_append]
      exact Maker.run_append hks hrun'

/-- Calls that stop on a chain stop one of two passes. -/
theorem walkAll_error {c left : Chain α κ} {cs : List (Call Primitive)} {fault : Fault}
    (h : cs.foldlM walk c = .error (fault, left)) :
    (∃ pre, pre <+: cs ∧ Maker.run (ο := Activity) c.activityMaker pre = .error fault) ∨
      ∃ pre as fed, pre <+: cs ∧ Maker.run c.activityMaker pre = .ok as ∧
        fed <+: Maker.outputs as ∧
        Maker.run (ο := Candidate) c.candidateMaker (fed.map Call.process) = .error fault := by
  induction cs generalizing c with
  | nil => cases h
  | cons call cs ih =>
    have hone : [call] <+: call :: cs := List.cons_prefix_cons.2 ⟨rfl, List.nil_prefix⟩
    rcases Checked.bind_eq_error_iff.1 h with herr | ⟨c₁, hwalk, hrest⟩
    · rcases walk_error herr with hstop | ⟨step, fed, hstep, hfed, hrun⟩
      · exact .inl ⟨[call], hone, Maker.run_cons_eq_error_iff.2 (.inl hstop)⟩
      · refine .inr ⟨[call], [step], fed, hone, ?_, ?_, hrun⟩
        · exact Maker.run_cons_eq_ok_iff.2 ⟨step, [], hstep, rfl, rfl⟩
        · rwa [Maker.outputs_cons, Maker.outputs, List.flatMap_nil, List.append_nil]
    · obtain ⟨step, ks, hstep, hks, halong⟩ := walk_ok hwalk
      -- Later calls start from where the first one has led.
      rcases ih hrest with ⟨pre, hpre, hrun⟩ | ⟨pre, as, fed, hpre, hrun, hfed, hrun'⟩
      · rw [halong.activityMaker] at hrun
        exact .inl ⟨call :: pre, List.cons_prefix_cons.2 ⟨rfl, hpre⟩,
          Maker.run_cons_eq_error_iff.2 (.inr ⟨step, hstep, hrun⟩)⟩
      · rw [halong.activityMaker] at hrun
        rw [halong.candidateMaker] at hrun'
        refine .inr ⟨call :: pre, step :: as, step.outputs ++ fed,
          List.cons_prefix_cons.2 ⟨rfl, hpre⟩, ?_, ?_, ?_⟩
        · exact Maker.run_cons_eq_ok_iff.2 ⟨step, as, hstep, hrun, rfl⟩
        · rw [Maker.outputs_cons]
          exact (List.prefix_append_right_inj _).2 hfed
        · rw [List.map_append]
          exact Maker.run_append_error hks hrun'

/-! ## Whole runs -/

theorem run_eq (activityMaker : α) (candidateMaker : κ) (ps : List Primitive) :
    run activityMaker candidateMaker ps = (do
      let c ← (Call.stream ps).foldlM walk { activityMaker, candidateMaker }
      let c ← c.flushCandidates
      return { c with notices := c.notices.push (c.summary ps.length) }) := by
  have htake : ∀ c : Chain α κ, (ps.map Call.process).foldlM walk c = ps.foldlM take c := by
    intro c
    rw [List.foldlM_map]
    rfl
  unfold run Call.stream
  rw [List.foldlM_append, htake]
  simp only [bind_assoc, List.foldlM_cons, List.foldlM_nil, bind_pure]
  rfl

/-- What a chain over some primitives comes to: the activity maker has been run over all of them,
    and the candidate maker over all of its activities. -/
structure Passes (activityMaker : α) (candidateMaker : κ) (ps : List Primitive)
    (as : List (Step α Activity)) (ks : List (Step κ Candidate)) (c : Chain α κ) : Prop where
  activityRun : Maker.run activityMaker (Call.stream ps) = .ok as
  candidateRun : Maker.run candidateMaker (Call.stream (Maker.outputs as)) = .ok ks
  activityMaker : c.activityMaker = Maker.after activityMaker as
  candidateMaker : c.candidateMaker = Maker.after candidateMaker ks
  activities : c.activities.toList = Maker.outputs as
  candidates : c.candidates.toList = Maker.outputs ks

theorem passes_of_run {activityMaker : α} {candidateMaker : κ} {ps : List Primitive}
    {c : Chain α κ} (h : run activityMaker candidateMaker ps = .ok c) :
    ∃ as ks, Passes activityMaker candidateMaker ps as ks c := by
  rw [run_eq] at h
  obtain ⟨c₁, hwalk, h⟩ := Checked.bind_eq_ok_iff.1 h
  obtain ⟨c₂, hflush, h⟩ := Checked.bind_eq_ok_iff.1 h
  obtain rfl := Except.ok.inj h
  obtain ⟨as, ks, hrun, hrun', halong⟩ := walkAll_ok hwalk
  unfold flushCandidates at hflush
  split at hflush
  · next step hstep =>
    obtain rfl := Except.ok.inj hflush
    rw [halong.candidateMaker] at hstep
    have hlast : Maker.run (Maker.after candidateMaker ks) [Call.flush] = .ok [step] :=
      Maker.run_cons_eq_ok_iff.2 ⟨step, [], hstep, rfl, rfl⟩
    have hend := halong.trans (c₁.along_addCandidates step)
    rw [List.append_nil] at hend
    exact ⟨as, ks ++ [step], hrun, Maker.run_append hrun' hlast, hend.activityMaker,
      hend.candidateMaker, hend.activities, hend.candidates⟩
  · cases hflush

/-- Two passes that go through are those of a chain that goes through. -/
theorem run_of_passes {activityMaker : α} {candidateMaker : κ} {ps : List Primitive}
    {as : List (Step α Activity)} {ks : List (Step κ Candidate)}
    (hactivity : Maker.run activityMaker (Call.stream ps) = .ok as)
    (hcandidate : Maker.run candidateMaker (Call.stream (Maker.outputs as)) = .ok ks) :
    ∃ c, run activityMaker candidateMaker ps = .ok c := by
  rw [run_eq]
  cases hwalk : (Call.stream ps).foldlM walk { activityMaker, candidateMaker } with
  | error stop =>
    -- What stops the chain stops a pass on a beginning of what that pass is handed.
    exfalso
    rcases walkAll_error hwalk with ⟨pre, hpre, hrun⟩ | ⟨pre, bs, fed, hpre, hrun, hfed, hrun'⟩
    · exact Checked.false_of_ok_error (Maker.run_of_prefix hactivity hpre) hrun
    · obtain rfl := Except.ok.inj ((Maker.run_of_prefix hactivity hpre).symm.trans hrun)
      have hhanded : fed.map Call.process <+: Call.stream (Maker.outputs as) :=
        ((hfed.trans (Maker.outputs_take_prefix as _)).map _).trans (List.prefix_append _ _)
      exact Checked.false_of_ok_error (Maker.run_of_prefix hcandidate hhanded) hrun'
  | ok c =>
    obtain ⟨bs, ks', hrun, hrun', halong⟩ := walkAll_ok hwalk
    obtain rfl := Except.ok.inj (hactivity.symm.trans hrun)
    show ∃ c', c.flushCandidates.bind _ = .ok c'
    unfold flushCandidates
    split
    · exact ⟨_, rfl⟩
    · next fault hstop =>
      -- The last flush belongs to the second pass.
      exfalso
      rw [halong.candidateMaker] at hstop
      have hlast : Maker.run (ο := Candidate) (Maker.after candidateMaker ks') [Call.flush] =
          .error fault := Maker.run_cons_eq_error_iff.2 (.inl hstop)
      exact Checked.false_of_ok_error hcandidate (Maker.run_append_error hrun' hlast)

/-- Where a chain stops, one of its makers stops on a beginning of what it is handed. -/
theorem stops_of_run {activityMaker : α} {candidateMaker : κ} {ps : List Primitive}
    {left : Chain α κ} {fault : Fault}
    (h : run activityMaker candidateMaker ps = .error (fault, left)) :
    (∃ pre, pre <+: Call.stream ps ∧
      Maker.run (ο := Activity) activityMaker pre = .error fault) ∨
    ∃ pre as ds, pre <+: Call.stream ps ∧ Maker.run activityMaker pre = .ok as ∧
      ds <+: Call.stream (Maker.outputs as) ∧
      Maker.run (ο := Candidate) candidateMaker ds = .error fault := by
  rw [run_eq] at h
  rcases Checked.bind_eq_error_iff.1 h with herr | ⟨c₁, hwalk, h⟩
  · rcases walkAll_error herr with hstop | ⟨pre, as, fed, hpre, hrun, hfed, hrun'⟩
    · exact .inl hstop
    · have hprefix : fed.map Call.process <+: Call.stream (Maker.outputs as) :=
        (hfed.map _).trans (List.prefix_append _ _)
      exact .inr ⟨pre, as, _, hpre, hrun, hprefix, hrun'⟩
  · obtain ⟨as, ks, hrun, hrun', halong⟩ := walkAll_ok hwalk
    rcases Checked.bind_eq_error_iff.1 h with herr | ⟨c₂, -, h⟩
    · -- Only the last flush is left to stop.
      unfold flushCandidates at herr
      split at herr
      · cases herr
      · next fault' hstop =>
        obtain rfl : fault' = fault := congrArg Prod.fst (Except.error.inj herr)
        rw [halong.candidateMaker] at hstop
        have hlast : Maker.run (ο := Candidate) (Maker.after candidateMaker ks) [Call.flush] =
            .error fault' := Maker.run_cons_eq_error_iff.2 (.inl hstop)
        exact .inr ⟨_, as, _, List.prefix_rfl, hrun, List.prefix_rfl,
          Maker.run_append_error hrun' hlast⟩
    · cases h

/-! ## One pass after the other -/

/-- What a chain comes to: the outputs of its makers, and their counters. -/
structure Outcome where
  /-- The activities, in order. -/
  activities : List Activity
  /-- The candidates, in order. -/
  candidates : List Candidate
  /-- The counters of the activity maker. -/
  activityStatistics : Statistics
  /-- The counters of the candidate maker. -/
  candidateStatistics : Statistics

/-- What a chain has come to. -/
def outcome (c : Chain α κ) : Outcome where
  activities := c.activities.toList
  candidates := c.candidates.toList
  activityStatistics := Maker.statistics c.activityMaker
  candidateStatistics := Maker.statistics c.candidateMaker

/-- Hands all primitives to the activity maker and flushes it; then hands all activities that came
    of this, those of the flush included, to the candidate maker and flushes it. -/
def twoPasses (activityMaker : α) (candidateMaker : κ) (ps : List Primitive) :
    Except Fault Outcome := do
  let as ← Maker.run activityMaker (Call.stream ps)
  let ks ← Maker.run candidateMaker (Call.stream (Maker.outputs as))
  return {
    activities := Maker.outputs as
    candidates := Maker.outputs ks
    activityStatistics := Maker.statistics (Maker.after activityMaker as)
    candidateStatistics := Maker.statistics (Maker.after candidateMaker ks) }

theorem Passes.twoPasses_eq {activityMaker : α} {candidateMaker : κ} {ps : List Primitive}
    {as : List (Step α Activity)} {ks : List (Step κ Candidate)} {c : Chain α κ}
    (h : Passes activityMaker candidateMaker ps as ks c) :
    twoPasses activityMaker candidateMaker ps = .ok c.outcome := by
  unfold twoPasses outcome
  rw [h.activities, h.candidates, h.activityMaker, h.candidateMaker]
  refine Checked.bind_eq_ok_iff.2 ⟨as, h.activityRun, ?_⟩
  exact Checked.bind_eq_ok_iff.2 ⟨ks, h.candidateRun, rfl⟩

/-- Two passes that go through are two runs. -/
theorem runs_of_twoPasses {activityMaker : α} {candidateMaker : κ} {ps : List Primitive}
    {o : Outcome} (h : twoPasses activityMaker candidateMaker ps = .ok o) :
    ∃ as ks, Maker.run (ο := Activity) activityMaker (Call.stream ps) = .ok as ∧
      Maker.run (ο := Candidate) candidateMaker (Call.stream (Maker.outputs as)) = .ok ks := by
  obtain ⟨as, hactivity, h⟩ := Checked.bind_eq_ok_iff.1 h
  obtain ⟨ks, hcandidate, -⟩ := Checked.bind_eq_ok_iff.1 h
  exact ⟨as, ks, hactivity, hcandidate⟩

/-- Whatever the makers are, a chain goes through some primitives exactly if the two passes do, and
    comes to what they come to. -/
theorem streaming_is_two_passes (activityMaker : α) (candidateMaker : κ) (ps : List Primitive) :
    (run activityMaker candidateMaker ps).toOption.map outcome =
      (twoPasses activityMaker candidateMaker ps).toOption := by
  cases hrun : run activityMaker candidateMaker ps with
  | ok c =>
    obtain ⟨as, ks, hpasses⟩ := passes_of_run hrun
    rw [hpasses.twoPasses_eq]
    rfl
  | error stop =>
    cases hpasses : twoPasses activityMaker candidateMaker ps with
    | error fault => rfl
    | ok o =>
      -- Passes that go through would be those of a chain that does.
      obtain ⟨as, ks, hactivity, hcandidate⟩ := runs_of_twoPasses hpasses
      obtain ⟨c, hok⟩ := run_of_passes hactivity hcandidate
      exact (Checked.false_of_ok_error hok hrun).elim

end Chain

end TriggerChain
