import TriggerChain.Proofs.Maker.Kinds
import TriggerChain.Proofs.Maker.Refinement
import TriggerChain.Proofs.Maker.Windowless

/-!
# What stops a maker

Bundlers, burst finders and prescalers of activities never stop: nothing that they add up has to
fit a word. A prescaler of primitives stops where a primitive ends at a time that does not fit,
and a windowed maker where a number of the reference does not fit. So whatever kind a maker is of,
with settings in range nothing but an overflow stops it.

Main statements: `ActivityMaker.overflow_of_run` and `CandidateMaker.overflow_of_run`.
-/

namespace TriggerChain

/-! ## Makers that never stop -/

theorem Bundler.goesThrough (m : Bundler) (cs : List (Call Activity)) :
    ∃ steps : List (Step Bundler Candidate), Maker.run m cs = .ok steps := by
  refine Maker.run_goesThrough (fun _ _ => True) ?_ trivial
  intro m c cs _
  cases c with
  | process a => exact ⟨m.process a, rfl, trivial⟩
  | flush => exact ⟨m.flush, rfl, trivial⟩

theorem BurstFinder.goesThrough (m : BurstFinder) (cs : List (Call Activity)) :
    ∃ steps : List (Step BurstFinder Candidate), Maker.run m cs = .ok steps := by
  refine Maker.run_goesThrough (fun _ _ => True) ?_ trivial
  intro m c cs _
  cases c with
  | process a => exact ⟨m.process a, rfl, trivial⟩
  | flush => exact ⟨m.flush, rfl, trivial⟩

/-! ## Prescalers -/

section Prescaler

variable {ι ο : Type} [Promotable ι ο]

/-- A prescaler goes through inputs that can all become outputs. -/
theorem Prescaler.goesThrough (m : Prescaler ι) {cs : List (Call ι)}
    (h : ∀ x ∈ Call.inputs cs, ∃ output : ο, Promotable.promote x = .ok output) :
    ∃ steps : List (Step (Prescaler ι) ο), Maker.run m cs = .ok steps := by
  let Inv (_ : Prescaler ι) (cs : List (Call ι)) : Prop :=
    ∀ x ∈ Call.inputs cs, ∃ output : ο, Promotable.promote x = .ok output
  refine Maker.run_goesThrough Inv ?_ h
  intro m c cs hinputs
  cases c with
  | flush => exact ⟨{ maker := m }, rfl, hinputs⟩
  | process x =>
    obtain ⟨output, hpromote⟩ := hinputs x List.mem_cons_self
    obtain ⟨step, hstep⟩ := m.process_goesThrough hpromote
    exact ⟨step, hstep, fun y hy => hinputs y (List.mem_cons_of_mem x hy)⟩

/-- What stops a prescaler is an input that cannot become an output. -/
theorem Prescaler.promote_of_run_error {m : Prescaler ι} {cs : List (Call ι)} {fault : Fault}
    (h : Maker.run (ο := ο) m cs = .error fault) :
    ∃ x : ι, Promotable.promote x = .error (α := ο) fault := by
  obtain ⟨m', c, hcall⟩ := Maker.call_of_run_error h
  cases c with
  | process x => exact ⟨x, promote_of_process_error hcall⟩
  | flush => cases hcall

end Prescaler

theorem Activity.overflow_of_ofPrimitive {p : Primitive} {algorithm : ActivityAlgorithm}
    {fault : Fault} (h : ofPrimitive p algorithm = .error fault) : fault.IsOverflow := by
  rcases Checked.bind_eq_error_iff.1 h with herr | ⟨timeEnd, -, h⟩
  · rcases Ticks.plus_cases p.timeStart p.timeOverThreshold with ⟨t, hok, -⟩ | ⟨hstop, -⟩
    · exact (Checked.false_of_ok_error hok herr).elim
    · obtain rfl : fault = .sumOverflow := Except.error.inj (herr.symm.trans hstop)
      exact .inl rfl
  · cases h

/-! ## Makers of any kind -/

theorem ActivityMaker.overflow_of_run {m : ActivityMaker} (hm : m.Fresh)
    {cs : List (Call Primitive)} {fault : Fault}
    (h : Maker.run (ο := Activity) m cs = .error fault) : fault.IsOverflow := by
  cases hm with
  | geometry hg => exact (refines_of_validate hg).stops cs fault (embeds_geometry.run_eq_error h)
  | shape hp => exact (refines_of_validate hp).stops cs fault (embeds_shape.run_eq_error h)
  | prescale =>
    obtain ⟨p, hpromote⟩ := Prescaler.promote_of_run_error (embeds_prescale.run_eq_error h)
    exact Activity.overflow_of_ofPrimitive hpromote

theorem CandidateMaker.overflow_of_run {m : CandidateMaker} {s : Settings} (hm : m.Fresh s)
    {cs : List (Call Activity)} {fault : Fault}
    (h : Maker.run (ο := Candidate) m cs = .error fault) : fault.IsOverflow := by
  cases hm with
  | grouping hs =>
    have hsettings : (Policy.settings ({ settings := s } : Grouping)).validate = .ok () := hs
    exact (refines_of_validate hsettings).stops cs fault (embeds_grouping.run_eq_error h)
  | prescale =>
    obtain ⟨a, hpromote⟩ := Prescaler.promote_of_run_error (embeds_prescale.run_eq_error h)
    cases hpromote
  | bundle =>
    obtain ⟨steps, hrun⟩ := Bundler.goesThrough _ cs
    exact (Checked.false_of_ok_error hrun (embeds_bundle.run_eq_error h)).elim
  | burst =>
    obtain ⟨steps, hrun⟩ := BurstFinder.goesThrough _ cs
    exact (Checked.false_of_ok_error hrun (embeds_burst.run_eq_error h)).elim

end TriggerChain
