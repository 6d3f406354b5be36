import TriggerChain.Proofs.Chain.Passes
import TriggerChain.Proofs.Maker.Moved

/-!
# Chains of primitives that move in time

A chain that is handed primitives at other times, all later by the same offset, makes of them what
it made before, later by the same offset. No maker looks at the time itself, so the counters are
the same. Only the ends of the range of times can tell the two runs apart, where a time is checked
and stops the run, or where the start of a burst is cut off.

Main statement: `chain_moves_with_primitives`.
-/

namespace TriggerChain

theorem forall₂_stream {ι : Type} {R : ι → ι → Prop} {xs ys : List ι} (h : List.Forall₂ R xs ys) :
    List.Forall₂ (Call.Related R) (Call.stream xs) (Call.stream ys) := by
  refine List.rel_append ?_ (.cons .flush .nil)
  induction h with
  | nil => exact .nil
  | cons hxy _ ih => exact .cons (.process hxy) ih

/-- Two chains with the same counters, and the outputs of the second are those of the first,
    moved by `d`. -/
structure Chain.MovedBy {α κ : Type} [Maker α Primitive Activity] [Maker κ Activity Candidate]
    (d : Int) (c c' : Chain α κ) : Prop where
  activityStatistics : Maker.statistics c.activityMaker = Maker.statistics c'.activityMaker
  candidateStatistics : Maker.statistics c.candidateMaker = Maker.statistics c'.candidateMaker
  activities : List.Forall₂ (Activity.MovedBy d) c.activities.toList c'.activities.toList
  candidates : List.Forall₂ (Candidate.MovedBy d) c.candidates.toList c'.candidates.toList

namespace ChainSetup.Built

/-- The times that the makers of a chain check stay in range when its outputs are moved. -/
structure TimesFit (built : Built) (d : Int) (c : Chain ActivityMaker CandidateMaker) : Prop where
  activities : ∀ a ∈ c.activities.toList, a.EndFits d
  candidates : ∀ k ∈ c.candidates.toList, built.candidateMaker.TimesFit d k

/-- No start of an interval to read out has been cut off at the end of the range. -/
def StartsFit (built : Built) (c : Chain ActivityMaker CandidateMaker) : Prop :=
  ∀ k ∈ c.candidates.toList, Ticks.Fits (built.candidateMaker.exactStart k)

end ChainSetup.Built

theorem CandidateMaker.movedBy_of_starts {m : CandidateMaker} {d : Int} {ks ks' : List Candidate}
    (h : List.Forall₂ (m.MovesCandidate d) ks ks')
    (hstarts : ∀ k ∈ ks, Ticks.Fits (m.exactStart k))
    (hstarts' : ∀ k ∈ ks', Ticks.Fits (m.exactStart k)) :
    List.Forall₂ (Candidate.MovedBy d) ks ks' := by
  induction h with
  | nil => exact .nil
  | cons hmoves _ ih =>
    obtain ⟨hfirst, hrest⟩ := List.forall_mem_cons.1 hstarts
    obtain ⟨hfirst', hrest'⟩ := List.forall_mem_cons.1 hstarts'
    exact .cons (hmoves hfirst hfirst') (ih hrest hrest')

/-- A chain of registered makers, on primitives that are all moved by the same offset, goes through
    exactly if the times that it has checked still fit when they are moved. Where both runs go
    through and no start of a burst is cut off, the counters are the same, and the second run makes
    what the first one makes, moved by the offset. -/
theorem chain_moves_with_primitives (registry : Registry) (setup : ChainSetup)
    (built : ChainSetup.Built) (hbuild : setup.build registry = .ok built) (d : Int)
    (ps qs : List Primitive) (hmoved : List.Forall₂ (Primitive.MovedBy d) ps qs) :
    (∀ c, built.run ps = .ok c → ((∃ c', built.run qs = .ok c') ↔ built.TimesFit d c)) ∧
      ∀ c c', built.run ps = .ok c → built.run qs = .ok c' → built.StartsFit c →
        built.StartsFit c' → c.MovedBy d c' := by
  obtain ⟨hactivity, s, -, hcandidate⟩ := ChainSetup.makers_of_build hbuild
  have hactivities := ActivityMaker.carries_moved (d := d) hactivity
  have hcandidates := CandidateMaker.carries_moved (d := d) hcandidate
  have hstream := forall₂_stream hmoved
  refine ⟨?_, ?_⟩
  · intro c hrun
    obtain ⟨as, ks, hpasses⟩ := Chain.passes_of_run hrun
    constructor
    · rintro ⟨c', hrun'⟩
      obtain ⟨bs, ks', hpasses'⟩ := Chain.passes_of_run hrun'
      have hfed := forall₂_stream
        (hactivities.agrees hstream hpasses.activityRun hpasses'.activityRun).2
      refine ⟨?_, ?_⟩
      · rw [hpasses.activities]
        exact (hactivities.goesThrough hstream hpasses.activityRun).1 ⟨bs, hpasses'.activityRun⟩
      · rw [hpasses.candidates]
        exact (hcandidates.goesThrough hfed hpasses.candidateRun).1 ⟨ks', hpasses'.candidateRun⟩
    · rintro ⟨hends, htimes⟩
      rw [hpasses.activities] at hends
      rw [hpasses.candidates] at htimes
      obtain ⟨bs, hbs⟩ := (hactivities.goesThrough hstream hpasses.activityRun).2 hends
      -- The candidate maker is handed the moved activities, so it goes through as well.
      have hfed := forall₂_stream (hactivities.agrees hstream hpasses.activityRun hbs).2
      obtain ⟨ks', hks'⟩ := (hcandidates.goesThrough hfed hpasses.candidateRun).2 htimes
      exact Chain.run_of_passes hbs hks'
  · intro c c' hrun hrun' hstarts hstarts'
    obtain ⟨as, ks, hpasses⟩ := Chain.passes_of_run hrun
    obtain ⟨bs, ks', hpasses'⟩ := Chain.passes_of_run hrun'
    obtain ⟨hsame, hlist⟩ := hactivities.agrees hstream hpasses.activityRun hpasses'.activityRun
    obtain ⟨hsame', hlist'⟩ :=
      hcandidates.agrees (forall₂_stream hlist) hpasses.candidateRun hpasses'.candidateRun
    unfold ChainSetup.Built.StartsFit at hstarts hstarts'
    rw [hpasses.candidates] at hstarts
    rw [hpasses'.candidates] at hstarts'
    refine ⟨?_, ?_, ?_, ?_⟩
    · rwa [hpasses.activityMaker, hpasses'.activityMaker]
    · rwa [hpasses.candidateMaker, hpasses'.candidateMaker]
    · rwa [hpasses.activities, hpasses'.activities]
    · rw [hpasses.candidates, hpasses'.candidates]
      exact CandidateMaker.movedBy_of_starts hlist' hstarts hstarts'

/-- Two hits that make a burst, and the same hits 5000 ticks earlier: the interval to read out
    begins 5000 ticks earlier as well. -/
theorem burst_moved_below_zero :
    ∃ setup built c c', ChainSetup.build setup .builtin = .ok built ∧
      built.run [.hit 1 2000 60, .hit 2 2500 60] = .ok c ∧
      built.run [.hit 1 (-3000) 60, .hit 2 (-2500) 60] = .ok c' ∧
      c.candidates.toList.map (·.timeStart) = [1500] ∧
      c'.candidates.toList.map (·.timeStart) = [-3500] ∧ c.MovedBy (-5000) c' := by
  let setup : ChainSetup := {
    activityMaker := "prescale"
    candidateMaker := "supernova"
    candidateConfig := .object [("window_length", .integer 1000),
      ("activity_threshold", .integer 1), ("hit_threshold", .integer 0)] }
  let built : ChainSetup.Built := {
    activityMaker := ActivityMakerKind.prescale.made {}
    candidateMaker := .burst { window := 1000, activityThreshold := 1, hitThreshold := 0 }
    notices := [] }
  have hbuild : setup.build .builtin = .ok built := rfl
  have hmoved : List.Forall₂ (Primitive.MovedBy (-5000)) [.hit 1 2000 60, .hit 2 2500 60]
      [.hit 1 (-3000) 60, .hit 2 (-2500) 60] :=
    .cons ⟨rfl, rfl, rfl, rfl, rfl, rfl, rfl, rfl⟩
      (.cons ⟨rfl, rfl, rfl, rfl, rfl, rfl, rfl, rfl⟩ .nil)
  have hmoves := (chain_moves_with_primitives .builtin setup built hbuild _ _ _ hmoved).2
  refine ⟨setup, built, _, _, hbuild, rfl, rfl, rfl, rfl, hmoves _ _ rfl rfl ?_ ?_⟩
  · intro k hk
    obtain rfl := List.mem_singleton.1 hk
    decide
  · intro k hk
    obtain rfl := List.mem_singleton.1 hk
    decide

end TriggerChain
