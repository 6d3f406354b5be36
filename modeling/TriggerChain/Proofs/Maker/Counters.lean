import TriggerChain.Proofs.Maker.Kinds
import TriggerChain.Proofs.Maker.Steps
import TriggerChain.Proofs.Maker.Windowless

/-!
# The counters of a maker

A call raises no counter of a maker by more than one, and leaves alone the number by which the
maker takes remainders. So over a sequence of calls no counter goes beyond the number of calls, and
no remainder is ever taken by zero.

Main statements: `ActivityMaker.countsUpTo_of_run` and `CandidateMaker.countsUpTo_of_run`.
-/

namespace TriggerChain

/-! ## One call -/

/-- Counters none of which goes up by more than one. -/
structure Statistics.Advances (s s' : Statistics) : Prop where
  inputs : s'.inputs ≤ s.inputs + 1
  fired : s'.fired ≤ s.fired + 1
  emitted : s'.emitted ≤ s.emitted + 1
  prescaled : s'.prescaled ≤ s.prescaled + 1

namespace Statistics

theorem advances_refl (s : Statistics) : s.Advances s :=
  ⟨Nat.le_succ _, Nat.le_succ _, Nat.le_succ _, Nat.le_succ _⟩

theorem advances_hear (s : Statistics) : s.Advances s.hear :=
  ⟨Nat.le_refl _, Nat.le_succ _, Nat.le_succ _, Nat.le_succ _⟩

theorem advances_fire (s : Statistics) (adjacency : Option Nat) :
    s.Advances (s.fire adjacency) :=
  ⟨Nat.le_succ _, Nat.le_refl _, Nat.le_succ _, Nat.le_succ _⟩

theorem advances_fire_emit (s : Statistics) (adjacency : Option Nat) :
    s.Advances (s.fire adjacency).emit :=
  ⟨Nat.le_succ _, Nat.le_refl _, Nat.le_refl _, Nat.le_succ _⟩

theorem advances_fire_drop (s : Statistics) (adjacency : Option Nat) :
    s.Advances (s.fire adjacency).drop :=
  ⟨Nat.le_succ _, Nat.le_refl _, Nat.le_succ _, Nat.le_refl _⟩

/-- The count of inputs goes up apart from the others. -/
theorem Advances.of_hear {s s' : Statistics} (h : s.hear.Advances s')
    (hinputs : s'.inputs = s.hear.inputs) : s.Advances s' :=
  ⟨Nat.le_of_eq hinputs, h.fired, h.emitted, h.prescaled⟩

end Statistics

section Windowed

variable {π τ ο : Type} [Element τ] [Policy π τ ο]

namespace Windowed

theorem Emitted.advances {m : Windowed π τ} {fired : Fired} {e : Emission ο}
    (h : Emitted m fired e) :
    m.statistics.Advances e.statistics ∧ e.statistics.inputs = m.statistics.inputs := by
  cases h with
  | dropped _ hstatistics =>
    rw [hstatistics]
    exact ⟨m.statistics.advances_fire_drop _, rfl⟩
  | void _ _ hstatistics =>
    rw [hstatistics]
    exact ⟨m.statistics.advances_fire _, rfl⟩
  | made _ _ hstatistics =>
    rw [hstatistics]
    exact ⟨m.statistics.advances_fire_emit _, rfl⟩

theorem advances_of_call {m : Windowed π τ} {c : Call τ} {step : Step (Windowed π τ) ο}
    (h : Maker.call m c = .ok step) :
    m.statistics.Advances step.maker.statistics ∧ step.maker.policy = m.policy := by
  cases c with
  | process x =>
    cases processed_of_process h with
    | seeded => exact ⟨m.statistics.advances_hear, rfl⟩
    | admitted => exact ⟨m.statistics.advances_hear, rfl⟩
    | slid => exact ⟨m.statistics.advances_hear, rfl⟩
    | passed _ _ _ hemitted =>
      obtain ⟨hadvances, hinputs⟩ := hemitted.advances
      exact ⟨.of_hear hadvances hinputs, rfl⟩
    | fired _ _ _ hemitted =>
      obtain ⟨hadvances, hinputs⟩ := hemitted.advances
      exact ⟨.of_hear hadvances hinputs, rfl⟩
  | flush =>
    cases flushed_of_flush h with
    | idle => exact ⟨m.statistics.advances_refl, rfl⟩
    | left => exact ⟨m.statistics.advances_refl, rfl⟩
    | fired _ _ hemitted => exact ⟨hemitted.advances.1, rfl⟩

end Windowed

end Windowed

theorem Prescaler.advances_of_call {ι ο : Type} [Promotable ι ο] {m : Prescaler ι} {c : Call ι}
    {step : Step (Prescaler ι) ο} (h : Maker.call m c = .ok step) :
    m.statistics.Advances step.maker.statistics ∧ step.maker.prescale = m.prescale := by
  cases c with
  | process x =>
    cases processed_of_process h with
    | kept => exact ⟨.of_hear (m.statistics.hear.advances_fire_emit _) rfl, rfl⟩
    | dropped => exact ⟨.of_hear (m.statistics.hear.advances_fire_drop _) rfl, rfl⟩
  | flush =>
    obtain rfl := Except.ok.inj h
    exact ⟨m.statistics.advances_refl, rfl⟩

theorem Bundler.advances_of_call {m : Bundler} {c : Call Activity} {step : Step Bundler Candidate}
    (h : Maker.call m c = .ok step) :
    m.statistics.Advances step.maker.statistics ∧ step.maker.completed ≤ m.completed + 1 ∧
      step.maker.prescale = m.prescale := by
  cases c with
  | process a =>
    cases processed_of_process h with
    | collected => exact ⟨m.statistics.advances_hear, Nat.le_succ _, rfl⟩
    | dropped =>
      exact ⟨.of_hear (m.statistics.hear.advances_fire_drop _) rfl, Nat.le_refl _, rfl⟩
    | made => exact ⟨.of_hear (m.statistics.hear.advances_fire_emit _) rfl, Nat.le_refl _, rfl⟩
  | flush =>
    obtain rfl := Except.ok.inj h
    exact ⟨m.statistics.advances_refl, Nat.le_succ _, rfl⟩

theorem BurstFinder.advances_of_call {m : BurstFinder} {c : Call Activity}
    {step : Step BurstFinder Candidate} (h : Maker.call m c = .ok step) :
    m.statistics.Advances step.maker.statistics := by
  cases c with
  | process a =>
    cases processed_of_process h with
    | quiet => exact m.statistics.advances_hear
    | burst => exact .of_hear (m.statistics.hear.advances_fire_emit _) rfl
  | flush =>
    obtain rfl := Except.ok.inj h
    exact m.statistics.advances_refl

/-! ## Sequences of calls -/

/-- Counters none of which is above a bound. -/
structure Statistics.UpTo (s : Statistics) (n : Nat) : Prop where
  inputs : s.inputs ≤ n
  fired : s.fired ≤ n
  emitted : s.emitted ≤ n
  prescaled : s.prescaled ≤ n

theorem Statistics.UpTo.advance {s s' : Statistics} {n : Nat} (h : s.UpTo n)
    (h' : s.Advances s') : s'.UpTo (n + 1) :=
  ⟨Nat.le_trans h'.inputs (Nat.succ_le_succ h.inputs),
    Nat.le_trans h'.fired (Nat.succ_le_succ h.fired),
    Nat.le_trans h'.emitted (Nat.succ_le_succ h.emitted),
    Nat.le_trans h'.prescaled (Nat.succ_le_succ h.prescaled)⟩

theorem Statistics.UpTo.mono {s : Statistics} {n k : Nat} (h : s.UpTo n) (hle : n ≤ k) :
    s.UpTo k :=
  ⟨Nat.le_trans h.inputs hle, Nat.le_trans h.fired hle, Nat.le_trans h.emitted hle,
    Nat.le_trans h.prescaled hle⟩

theorem Statistics.upTo_zero : Statistics.UpTo {} 0 :=
  ⟨Nat.le_refl 0, Nat.le_refl 0, Nat.le_refl 0, Nat.le_refl 0⟩

namespace ActivityMaker

/-- The number by which a maker takes remainders. -/
def divisor : ActivityMaker → Nat
  | geometry m => max (Policy.settings m.policy).prescale 1
  | shape m => max (Policy.settings m.policy).prescale 1
  | prescale m => m.prescale

/-- No counter of a maker is above a bound, and it takes no remainders by zero. -/
structure CountsUpTo (m : ActivityMaker) (n : Nat) : Prop where
  statistics : (Maker.statistics m).UpTo n
  divisor : m.divisor ≠ 0

theorem CountsUpTo.mono {m : ActivityMaker} {n k : Nat} (h : m.CountsUpTo n) (hle : n ≤ k) :
    m.CountsUpTo k :=
  ⟨h.statistics.mono hle, h.divisor⟩

theorem advances_of_call {m : ActivityMaker} {c : Call Primitive}
    {step : Step ActivityMaker Activity} (h : Maker.call m c = .ok step) :
    (Maker.statistics m).Advances (Maker.statistics step.maker) ∧
      step.maker.divisor = m.divisor := by
  cases m with
  | geometry m =>
    obtain ⟨step, hstep, rfl⟩ := embeds_geometry.call_eq_ok h
    obtain ⟨hadvances, hpolicy⟩ := Windowed.advances_of_call hstep
    exact ⟨hadvances, congrArg (fun g : Geometry => max (Policy.settings g).prescale 1) hpolicy⟩
  | shape m =>
    obtain ⟨step, hstep, rfl⟩ := embeds_shape.call_eq_ok h
    obtain ⟨hadvances, hpolicy⟩ := Windowed.advances_of_call hstep
    exact ⟨hadvances, congrArg (fun p : Shape => max (Policy.settings p).prescale 1) hpolicy⟩
  | prescale m =>
    obtain ⟨step, hstep, rfl⟩ := embeds_prescale.call_eq_ok h
    exact Prescaler.advances_of_call hstep

theorem countsUpTo_of_run {m : ActivityMaker} (hm : m.Fresh) {cs : List (Call Primitive)}
    {steps : List (Step ActivityMaker Activity)} (h : Maker.run m cs = .ok steps) :
    ∀ m' ∈ m :: steps.map (·.maker), m'.CountsUpTo cs.length := by
  have hfresh : m.CountsUpTo 0 := by
    cases hm with
    | geometry => exact ⟨Statistics.upTo_zero, Nat.ne_of_gt (Nat.le_max_right _ _)⟩
    | shape => exact ⟨Statistics.upTo_zero, Nat.ne_of_gt (Nat.le_max_right _ _)⟩
    | prescale hn => exact ⟨Statistics.upTo_zero, hn⟩
  have hcall : ∀ n (m : ActivityMaker) (c : Call Primitive) (step : Step ActivityMaker Activity),
      m.CountsUpTo n → Maker.call m c = .ok step → step.maker.CountsUpTo (n + 1) := by
    intro n m c step hcounts hstep
    obtain ⟨hadvances, hdivisor⟩ := advances_of_call hstep
    exact ⟨hcounts.statistics.advance hadvances, hdivisor ▸ hcounts.divisor⟩
  intro m' hm'
  obtain ⟨k, hk, hcounts⟩ := Maker.run_counting hcall hfresh h m' hm'
  exact hcounts.mono (by omega)

end ActivityMaker

namespace CandidateMaker

/-- The number by which a maker takes remainders; one if it takes none. -/
def divisor : CandidateMaker → Nat
  | grouping m => max (Policy.settings m.policy).prescale 1
  | prescale m => m.prescale
  | bundle m => m.prescale
  | burst _ => 1

/-- The bundles that a maker has completed. -/
def bundles : CandidateMaker → Nat
  | bundle m => m.completed
  | _ => 0

/-- No counter of a maker is above a bound, and it takes no remainders by zero. -/
structure CountsUpTo (m : CandidateMaker) (n : Nat) : Prop where
  statistics : (Maker.statistics m).UpTo n
  bundles : m.bundles ≤ n
  divisor : m.divisor ≠ 0

theorem CountsUpTo.mono {m : CandidateMaker} {n k : Nat} (h : m.CountsUpTo n) (hle : n ≤ k) :
    m.CountsUpTo k :=
  ⟨h.statistics.mono hle, Nat.le_trans h.bundles hle, h.divisor⟩

theorem advances_of_call {m : CandidateMaker} {c : Call Activity}
    {step : Step CandidateMaker Candidate} (h : Maker.call m c = .ok step) :
    (Maker.statistics m).Advances (Maker.statistics step.maker) ∧
      step.maker.bundles ≤ m.bundles + 1 ∧ step.maker.divisor = m.divisor := by
  cases m with
  | grouping m =>
    obtain ⟨step, hstep, rfl⟩ := embeds_grouping.call_eq_ok h
    obtain ⟨hadvances, hpolicy⟩ := Windowed.advances_of_call hstep
    exact ⟨hadvances, Nat.zero_le _,
      congrArg (fun g : Grouping => max (Policy.settings g).prescale 1) hpolicy⟩
  | prescale m =>
    obtain ⟨step, hstep, rfl⟩ := embeds_prescale.call_eq_ok h
    obtain ⟨hadvances, hprescale⟩ := Prescaler.advances_of_call hstep
    exact ⟨hadvances, Nat.zero_le _, hprescale⟩
  | bundle m =>
    obtain ⟨step, hstep, rfl⟩ := embeds_bundle.call_eq_ok h
    exact Bundler.advances_of_call hstep
  | burst m =>
    obtain ⟨step, hstep, rfl⟩ := embeds_burst.call_eq_ok h
    exact ⟨BurstFinder.advances_of_call hstep, Nat.zero_le _, rfl⟩

theorem countsUpTo_of_run {m : CandidateMaker} {s : Settings} (hm : m.Fresh s)
    {cs : List (Call Activity)} {steps : List (Step CandidateMaker Candidate)}
    (h : Maker.run m cs = .ok steps) :
    ∀ m' ∈ m :: steps.map (·.maker), m'.CountsUpTo cs.length := by
  have hfresh : m.CountsUpTo 0 := by
    cases hm with
    | grouping =>
      exact ⟨Statistics.upTo_zero, Nat.le_refl 0, Nat.ne_of_gt (Nat.le_max_right _ _)⟩
    | prescale hn => exact ⟨Statistics.upTo_zero, Nat.le_refl 0, hn⟩
    | bundle hn => exact ⟨Statistics.upTo_zero, Nat.le_refl 0, hn⟩
    | burst => exact ⟨Statistics.upTo_zero, Nat.le_refl 0, Nat.one_ne_zero⟩
  have hcall : ∀ n (m : CandidateMaker) (c : Call Activity) (step : Step CandidateMaker Candidate),
      m.CountsUpTo n → Maker.call m c = .ok step → step.maker.CountsUpTo (n + 1) := by
    intro n m c step hcounts hstep
    obtain ⟨hadvances, hbundles, hdivisor⟩ := advances_of_call hstep
    have hup := Nat.le_trans hbundles (Nat.succ_le_succ hcounts.bundles)
    exact ⟨hcounts.statistics.advance hadvances, hup, hdivisor ▸ hcounts.divisor⟩
  intro m' hm'
  obtain ⟨k, hk, hcounts⟩ := Maker.run_counting hcall hfresh h m' hm'
  exact hcounts.mono (by omega)

end CandidateMaker

end TriggerChain
