import TriggerChain.Proofs.Maker.Kinds
import TriggerChain.Proofs.Maker.Steps
import TriggerChain.Proofs.Maker.Windowless

/-!
# The regions of candidates

Whatever maker a candidate comes from, and whatever the maker has been through before, the regions
of the candidate are the detector elements of its activities, each once and in ascending order.

Main statement: `CandidateMaker.listsRegions_of_run`.
-/

namespace TriggerChain

/-- The regions of a candidate are the detector elements of its activities. -/
def Candidate.ListsRegions (c : Candidate) : Prop :=
  c.regions = regionsOf (c.inputs.map (·.detid))

theorem Candidate.ListsRegions.ascending {c : Candidate} (h : c.ListsRegions) :
    c.regions.Pairwise (· < ·) := by
  rw [h]
  exact sorted_regionsOf _

/-! ## Windows -/

section Constructed

variable {π τ ο : Type} [Element τ] [Policy π τ ο]

theorem Windowed.constructed_of_emitted {m m' : Windowed π τ} {fired : Fired} {e : Emission ο}
    (h : Emitted m fired e) {o : ο} (ho : o ∈ (e.step m').outputs) :
    ∃ w, Policy.construct m.policy w = .ok (some o) := by
  change o ∈ e.output.toList at ho
  cases h with
  | dropped _ _ houtput => simp [houtput] at ho
  | void _ _ _ houtput => simp [houtput] at ho
  | made _ hconstruct _ houtput =>
    rw [houtput] at ho
    obtain rfl := List.mem_singleton.1 ho
    exact ⟨m.window, hconstruct⟩

/-- An output of a call is what the policy makes of some window. -/
theorem Windowed.constructed_of_call {m : Windowed π τ} {c : Call τ}
    {step : Step (Windowed π τ) ο} (h : Maker.call m c = .ok step) {o : ο}
    (ho : o ∈ step.outputs) : ∃ w, Policy.construct m.policy w = .ok (some o) := by
  cases c with
  | process x =>
    cases processed_of_process h with
    | seeded => cases ho
    | passed _ _ _ hemitted => exact constructed_of_emitted hemitted ho
    | admitted => cases ho
    | fired _ _ _ hemitted => exact constructed_of_emitted hemitted ho
    | slid => cases ho
  | flush =>
    cases flushed_of_flush h with
    | idle => cases ho
    | left => cases ho
    | fired _ _ hemitted => exact constructed_of_emitted hemitted ho

end Constructed

theorem Grouping.listsRegions_of_construct {g : Grouping} {w : Window Activity} {c : Candidate}
    (h : g.construct w = .ok (some c)) : c.ListsRegions := by
  unfold construct at h
  split at h
  · cases h
  · obtain ⟨lastEnd, -, h⟩ := Checked.bind_eq_ok_iff.1 h
    obtain ⟨timeStart, -, h⟩ := Checked.bind_eq_ok_iff.1 h
    obtain ⟨timeEnd, -, h⟩ := Checked.bind_eq_ok_iff.1 h
    obtain rfl := Option.some.inj (Except.ok.inj h)
    rfl

/-! ## Makers without a window -/

theorem Prescaler.listsRegions_of_call {m : Prescaler Activity} {c : Call Activity}
    {step : Step (Prescaler Activity) Candidate} (h : Maker.call m c = .ok step) :
    ∀ o ∈ step.outputs, o.ListsRegions := by
  cases c with
  | flush =>
    obtain rfl := Except.ok.inj h
    exact fun o ho => absurd ho List.not_mem_nil
  | process a =>
    cases Prescaler.processed_of_process h with
    | kept _ hpromote =>
      obtain rfl := Except.ok.inj hpromote
      intro o ho
      obtain rfl := List.mem_singleton.1 ho
      rfl
    | dropped => exact fun o ho => absurd ho List.not_mem_nil

theorem Bundler.listsRegions_of_call {m : Bundler} {c : Call Activity}
    {step : Step Bundler Candidate} (h : Maker.call m c = .ok step) :
    ∀ o ∈ step.outputs, o.ListsRegions := by
  cases c with
  | flush =>
    obtain rfl := Except.ok.inj h
    exact fun o ho => absurd ho List.not_mem_nil
  | process a =>
    cases Bundler.processed_of_process h with
    | collected => exact fun o ho => absurd ho List.not_mem_nil
    | dropped => exact fun o ho => absurd ho List.not_mem_nil
    | made =>
      intro o ho
      obtain rfl := List.mem_singleton.1 ho
      rfl

theorem BurstFinder.listsRegions_of_call {m : BurstFinder} {c : Call Activity}
    {step : Step BurstFinder Candidate} (h : Maker.call m c = .ok step) :
    ∀ o ∈ step.outputs, o.ListsRegions := by
  cases c with
  | flush =>
    obtain rfl := Except.ok.inj h
    exact fun o ho => absurd ho List.not_mem_nil
  | process a =>
    cases BurstFinder.processed_of_process h with
    | quiet => exact fun o ho => absurd ho List.not_mem_nil
    | burst =>
      intro o ho
      obtain rfl := List.mem_singleton.1 ho
      rfl

/-! ## Any maker -/

theorem CandidateMaker.listsRegions_of_call {m : CandidateMaker} {c : Call Activity}
    {step : Step CandidateMaker Candidate} (h : Maker.call m c = .ok step) :
    ∀ o ∈ step.outputs, o.ListsRegions := by
  cases m with
  | grouping m =>
    obtain ⟨step, hstep, rfl⟩ := embeds_grouping.call_eq_ok h
    intro o ho
    obtain ⟨w, hconstruct⟩ := Windowed.constructed_of_call hstep ho
    exact Grouping.listsRegions_of_construct hconstruct
  | prescale m =>
    obtain ⟨step, hstep, rfl⟩ := embeds_prescale.call_eq_ok h
    exact Prescaler.listsRegions_of_call hstep
  | bundle m =>
    obtain ⟨step, hstep, rfl⟩ := embeds_bundle.call_eq_ok h
    exact Bundler.listsRegions_of_call hstep
  | burst m =>
    obtain ⟨step, hstep, rfl⟩ := embeds_burst.call_eq_ok h
    exact BurstFinder.listsRegions_of_call hstep

theorem CandidateMaker.listsRegions_of_run {m : CandidateMaker} {cs : List (Call Activity)}
    {steps : List (Step CandidateMaker Candidate)} (h : Maker.run m cs = .ok steps) :
    ∀ o ∈ Maker.outputs steps, o.ListsRegions :=
  (Maker.run_invariant (fun _ _ => True)
    (fun _ _ _ _ _ hstep => ⟨trivial, listsRegions_of_call hstep⟩) trivial h).2

end TriggerChain
