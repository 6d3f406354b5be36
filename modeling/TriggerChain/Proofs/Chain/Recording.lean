import TriggerChain.Maker.Recorded
import TriggerChain.Proofs.Chain.Passes

/-!
# Chains that are recorded

A call on a maker with a sink can stop where the sink cannot be told of it. If it goes through, the
maker has done what it does without the sink. So a recorded chain that goes through comes to what
the chain comes to when nobody records it.

Main statements: `Chain.outcome_of_recorded`, and `Chain.tables_of_recorded` for what becomes of the
sinks.
-/

namespace TriggerChain

namespace Recorded

variable {μ ι ο : Type} [Maker μ ι ο]

/-! ## Calls with any sink -/

/-- What a call that goes through leaves: the sink was told of all that the call was to tell. -/
structure Told (sink : Sink) (heard : List Event) (bare : Step μ ο) (step : Step (Recorded μ) ο) :
    Prop where
  maker : step.maker.maker = bare.maker
  outputs : step.outputs = bare.outputs
  sink : ∃ told, step.maker.sink = some (sink.recordAll (heard ++ told)).1

theorem recordAll_append (s : Sink) (es es' : List Event) {s' : Sink}
    (h : s.recordAll es = (s', .ok ())) : s.recordAll (es ++ es') = s'.recordAll es' := by
  induction es generalizing s with
  | nil =>
    obtain rfl : s = s' := congrArg Prod.fst h
    rfl
  | cons e es ih =>
    rw [List.cons_append, Sink.recordAll]
    rw [Sink.recordAll] at h
    cases hrecord : s.record e with
    | error fault =>
      rw [hrecord] at h
      cases congrArg Prod.snd h
    | ok next =>
      rw [hrecord] at h
      exact ih next h

omit [Maker μ ι ο] in
theorem told_of_callWith {sink : Sink} {heard : List Event} {result : Except Fault (Step μ ο)}
    {step : Step (Recorded μ) ο} (h : (callWith sink heard result).2 = .ok step) :
    ∃ bare, result = .ok bare ∧ Told sink heard bare step := by
  unfold callWith at h
  rcases hheard : sink.recordAll heard with ⟨sink₁, fault | ⟨⟨⟩⟩⟩
  · rw [hheard] at h
    cases h
  · rw [hheard] at h
    cases result with
    | error fault => cases h
    | ok bare =>
      dsimp only at h
      cases hevents : bare.events with
      | error fault =>
        rw [hevents] at h
        cases h
      | ok events =>
        rw [hevents] at h
        dsimp only at h
        rcases htold : sink₁.recordAll events with ⟨sink₂, fault | ⟨⟨⟩⟩⟩
        · rw [htold] at h
          cases h
        · rw [htold] at h
          obtain rfl := Except.ok.inj h
          refine ⟨bare, rfl, rfl, rfl, events, ?_⟩
          rw [recordAll_append sink heard events hheard, htold]

/-- A call that goes through with a sink or without goes through for the maker alone, with the same
    outputs. -/
theorem bare_of_call {r : Recorded μ} {c : Call ι} {step : Step (Recorded μ) ο}
    (h : Maker.call r c = .ok step) :
    ∃ bare, Maker.call r.maker c = .ok bare ∧ step.maker.maker = bare.maker ∧
      step.outputs = bare.outputs := by
  have hresult : ∀ (heard : List Event) (result : Except Fault (Step μ ο)),
      (r.call heard result).2 = .ok step →
      ∃ bare, result = .ok bare ∧ step.maker.maker = bare.maker ∧ step.outputs = bare.outputs := by
    intro heard result h
    unfold Recorded.call at h
    split at h
    · cases result with
      | error fault => cases h
      | ok bare =>
        obtain rfl := Except.ok.inj h
        exact ⟨bare, rfl, rfl, rfl⟩
    · obtain ⟨bare, hbare, htold⟩ := told_of_callWith h
      exact ⟨bare, hbare, htold.maker, htold.outputs⟩
  cases c with
  | process x => exact hresult _ _ h
  | flush => exact hresult _ _ h

/-- Calls that go through for a maker with a sink or without go through for the maker alone, with the
    same outputs. -/
theorem bare_of_run {r : Recorded μ} {cs : List (Call ι)} {steps : List (Step (Recorded μ) ο)}
    (h : Maker.run r cs = .ok steps) :
    ∃ bares, Maker.run r.maker cs = .ok bares ∧ Maker.outputs steps = Maker.outputs bares ∧
      (Maker.after r steps).maker = Maker.after r.maker bares := by
  induction cs generalizing r steps with
  | nil =>
    obtain rfl := Except.ok.inj h
    exact ⟨[], rfl, rfl, rfl⟩
  | cons c cs ih =>
    obtain ⟨step, rest, hstep, hrest, rfl⟩ := Maker.run_cons_eq_ok_iff.1 h
    obtain ⟨bare, hbare, hmaker, hout⟩ := bare_of_call hstep
    obtain ⟨bares, hrun, houtputs, hafter⟩ := ih hrest
    rw [hmaker] at hrun hafter
    refine ⟨bare :: bares, Maker.run_cons_eq_ok_iff.2 ⟨bare, bares, hbare, hrun, rfl⟩, ?_, hafter⟩
    rw [Maker.outputs_cons, Maker.outputs_cons, hout, houtputs]

/-! ## Tables -/

/-- The sink of the maker writes tables. -/
def HasTables (r : Recorded μ) : Prop := ∃ t, r.sink = some (.tables t)

theorem recordAll_tables (t : EventTables) (es : List Event) :
    ∃ t', ((Sink.tables t).recordAll es).1 = .tables t' := by
  induction es generalizing t with
  | nil => exact ⟨t, rfl⟩
  | cons e es ih =>
    have hrecord : (Sink.tables t).record e = (t.record e).map .tables := rfl
    rw [Sink.recordAll, hrecord]
    cases t.record e with
    | error fault => exact ⟨t, rfl⟩
    | ok t' => exact ih t'

theorem HasTables.call {r : Recorded μ} {c : Call ι} {step : Step (Recorded μ) ο}
    (hr : r.HasTables) (h : Maker.call r c = .ok step) : step.maker.HasTables := by
  obtain ⟨t, ht⟩ := hr
  have hresult : ∀ (heard : List Event) (result : Except Fault (Step μ ο)),
      (r.call heard result).2 = .ok step → step.maker.HasTables := by
    intro heard result h
    unfold Recorded.call at h
    rw [ht] at h
    obtain ⟨bare, -, told⟩ := told_of_callWith h
    obtain ⟨events, hsink⟩ := told.sink
    obtain ⟨t', ht'⟩ := recordAll_tables t (heard ++ events)
    exact ⟨t', hsink.trans (congrArg some ht')⟩
  cases c with
  | process x => exact hresult _ _ h
  | flush => exact hresult _ _ h

theorem HasTables.run {r : Recorded μ} {cs : List (Call ι)} {steps : List (Step (Recorded μ) ο)}
    (hr : r.HasTables) (h : Maker.run r cs = .ok steps) : (Maker.after r steps).HasTables :=
  (Maker.run_invariant (fun r _ => r.HasTables) (Q := fun _ => True)
    (fun _ _ _ _ hr hcall => ⟨hr.call hcall, fun _ _ => trivial⟩) hr h).1

end Recorded

/-! ## Chains -/

namespace Chain

variable {α κ : Type} [Maker α Primitive Activity] [Maker κ Activity Candidate]
variable {r : Recorded α} {s : Recorded κ} {ps : List Primitive}
variable {c : Chain (Recorded α) (Recorded κ)}

/-- A recorded chain that goes through comes to what the chain comes to that nobody records. -/
theorem outcome_of_recorded (h : run r s ps = .ok c) :
    ∃ bare, run r.maker s.maker ps = .ok bare ∧ c.outcome = bare.outcome := by
  obtain ⟨as, ks, hpasses⟩ := passes_of_run h
  obtain ⟨as', hactivity, houtputs, hactivityMaker⟩ := Recorded.bare_of_run hpasses.activityRun
  obtain ⟨ks', hcandidate, houtputs', hcandidateMaker⟩ := Recorded.bare_of_run hpasses.candidateRun
  rw [houtputs] at hcandidate
  obtain ⟨bare, hbare⟩ := run_of_passes hactivity hcandidate
  refine ⟨bare, hbare, ?_⟩
  -- Both outcomes are read off the same two passes.
  have htwo : twoPasses r.maker s.maker ps = .ok c.outcome := by
    refine Checked.bind_eq_ok_iff.2 ⟨as', hactivity, ?_⟩
    refine Checked.bind_eq_ok_iff.2 ⟨ks', hcandidate, ?_⟩
    unfold outcome
    rw [hpasses.activities, hpasses.candidates, hpasses.activityMaker, hpasses.candidateMaker,
      houtputs, houtputs', ← hactivityMaker, ← hcandidateMaker]
    rfl
  obtain ⟨bs, ls, hbarePasses⟩ := passes_of_run hbare
  exact Except.ok.inj (htwo.symm.trans hbarePasses.twoPasses_eq)

/-- Sinks that write tables still do when a chain has gone through. -/
theorem tables_of_recorded (h : run r s ps = .ok c) (hr : r.HasTables) (hs : s.HasTables) :
    c.activityMaker.HasTables ∧ c.candidateMaker.HasTables := by
  obtain ⟨as, ks, hpasses⟩ := passes_of_run h
  rw [hpasses.activityMaker, hpasses.candidateMaker]
  exact ⟨hr.run hpasses.activityRun, hs.run hpasses.candidateRun⟩

end Chain

end TriggerChain
