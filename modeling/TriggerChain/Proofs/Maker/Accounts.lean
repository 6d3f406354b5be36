import Mathlib
import TriggerChain.Proofs.Maker.Counters
import TriggerChain.Proofs.Maker.Refinement

/-!
# The accounts of a maker

The counters of a maker are kept in several places: where an input is heard, where a trigger fires,
where the prescale drops it and where its output is made. Held against the calls of a run they are
exact. Each input, each trigger and each output is counted once, every trigger becomes an output or
is dropped, and the share of those that become outputs is one in `prescale`, rounded up.

Main statement: `statistics_are_exact`.
-/

namespace TriggerChain

/-! ## Counters -/

/-- The largest adjacency that some triggers measured; zero if none of them measured one. -/
def largestAdjacency (triggers : List (Option Nat)) : Nat :=
  (triggers.filterMap id).max?.getD 0

theorem largestAdjacency_cons (a : Option Nat) (triggers : List (Option Nat)) :
    largestAdjacency (a :: triggers) = max (a.getD 0) (largestAdjacency triggers) := by
  unfold largestAdjacency
  cases a with
  | none => exact (Nat.zero_max _).symm
  | some n =>
    have hcons : (some n :: triggers).filterMap id = n :: triggers.filterMap id := rfl
    rw [hcons, List.max?_cons]
    cases (triggers.filterMap id).max? with
    | none => exact (Nat.max_zero n).symm
    | some _ => rfl

theorem largestAdjacency_singleton (a : Option Nat) : largestAdjacency [a] = a.getD 0 := by
  rw [largestAdjacency_cons]
  exact Nat.max_zero _

theorem largestAdjacency_append (triggers triggers' : List (Option Nat)) :
    largestAdjacency (triggers ++ triggers') =
      max (largestAdjacency triggers) (largestAdjacency triggers') := by
  induction triggers with
  | nil => exact (Nat.zero_max _).symm
  | cons a triggers ih =>
    rw [List.cons_append, largestAdjacency_cons, largestAdjacency_cons, ih, Nat.max_assoc]

/-- The number of multiples below a number goes up behind each multiple. -/
theorem ceilDiv_succ {p : Nat} (hp : p ≠ 0) (n : Nat) :
    (n + 1) ⌈/⌉ p = n ⌈/⌉ p + if p ∣ n then 1 else 0 := by
  have hdvd : p ∣ n + p - 1 + 1 ↔ p ∣ n := by
    rw [show n + p - 1 + 1 = n + p by omega]
    exact Nat.dvd_add_self_right
  rw [Nat.ceilDiv_eq_add_pred_div, Nat.ceilDiv_eq_add_pred_div,
    show n + 1 + p - 1 = n + p - 1 + 1 by omega, Nat.succ_div]
  simp only [hdvd]

namespace Statistics

/-- Counters that have gone up by some inputs, some outputs and some triggers. -/
structure Raised (s s' : Statistics) (heard emitted : Nat) (triggers : List (Option Nat)) :
    Prop where
  inputs : s'.inputs = s.inputs + heard
  emitted : s'.emitted = s.emitted + emitted
  fired : s'.fired = s.fired + triggers.length
  maxAdjacency : s'.maxAdjacency = max s.maxAdjacency (largestAdjacency triggers)

theorem raised_refl (s : Statistics) : s.Raised s 0 0 [] :=
  ⟨rfl, rfl, rfl, (Nat.max_zero _).symm⟩

theorem raised_hear (s : Statistics) : s.Raised s.hear 1 0 [] :=
  ⟨rfl, rfl, rfl, (Nat.max_zero _).symm⟩

theorem raised_emit (s : Statistics) (adjacency : Option Nat) :
    s.Raised (s.fire adjacency).emit 0 1 [adjacency] := by
  refine ⟨rfl, rfl, rfl, ?_⟩
  rw [largestAdjacency_singleton]
  rfl

theorem raised_drop (s : Statistics) (adjacency : Option Nat) :
    s.Raised (s.fire adjacency).drop 0 0 [adjacency] := by
  refine ⟨rfl, rfl, rfl, ?_⟩
  rw [largestAdjacency_singleton]
  rfl

theorem Raised.trans {s s' s'' : Statistics} {heard heard' emitted emitted' : Nat}
    {triggers triggers' : List (Option Nat)} (h : s.Raised s' heard emitted triggers)
    (h' : s'.Raised s'' heard' emitted' triggers') :
    s.Raised s'' (heard + heard') (emitted + emitted') (triggers ++ triggers') := by
  refine ⟨?_, ?_, ?_, ?_⟩
  · rw [h'.inputs, h.inputs, Nat.add_assoc]
  · rw [h'.emitted, h.emitted, Nat.add_assoc]
  · rw [h'.fired, h.fired, List.length_append, Nat.add_assoc]
  · rw [h'.maxAdjacency, h.maxAdjacency, largestAdjacency_append, Nat.max_assoc]

/-- Of the triggers, the first and then every `p`-th became an output, and the others were
    dropped. -/
structure Balanced (s : Statistics) (p : Nat) : Prop where
  shared : s.fired = s.emitted + s.prescaled
  thinned : s.emitted = s.fired ⌈/⌉ p

theorem balanced_zero (p : Nat) : Balanced {} p := ⟨rfl, (zero_ceilDiv p).symm⟩

theorem Balanced.hear {s : Statistics} {p : Nat} (h : s.Balanced p) : s.hear.Balanced p :=
  ⟨h.shared, h.thinned⟩

theorem Balanced.emit {s : Statistics} {p : Nat} (hp : p ≠ 0) (h : s.Balanced p)
    (hnext : p ∣ s.fired) (adjacency : Option Nat) : (s.fire adjacency).emit.Balanced p := by
  refine ⟨?_, ?_⟩
  · show s.fired + 1 = s.emitted + 1 + s.prescaled
    rw [h.shared, Nat.add_right_comm]
  · show s.emitted + 1 = (s.fired + 1) ⌈/⌉ p
    rw [ceilDiv_succ hp, if_pos hnext, h.thinned]

theorem Balanced.drop {s : Statistics} {p : Nat} (hp : p ≠ 0) (h : s.Balanced p)
    (hnext : ¬ p ∣ s.fired) (adjacency : Option Nat) : (s.fire adjacency).drop.Balanced p := by
  refine ⟨?_, ?_⟩
  · show s.fired + 1 = s.emitted + (s.prescaled + 1)
    rw [h.shared, Nat.add_assoc]
  · show s.emitted = (s.fired + 1) ⌈/⌉ p
    rw [ceilDiv_succ hp, if_neg hnext, h.thinned, Nat.add_zero]

end Statistics

/-! ## The triggers of a call -/

section Windowed

variable {π τ ο : Type} [Element τ] [Policy π τ ο]

namespace Windowed

/-- The trigger that a call fires, if it fires one. -/
def trigger? (m : Windowed π τ) : Call τ → Option Fired
  | .process x =>
    if m.window.isEmpty then
      if Policy.passthrough m.policy then some { reason := .passthrough } else none
    else if m.window.admits (Element.timeStart x) (Policy.settings m.policy).windowLength then none
    else Policy.evaluate m.policy m.window x
  | .flush => if m.window.isEmpty then none else Policy.evaluateFlush m.policy m.window

/-- The triggers of a call, each with the adjacency that it measured. -/
def triggersOf (m : Windowed π τ) (c : Call τ) : List (Option Nat) :=
  (m.trigger? c).toList.map (·.adjacency)

end Windowed

end Windowed

/-- Every input fires a trigger. -/
def Prescaler.triggersOf {ι : Type} (_ : Prescaler ι) : Call ι → List (Option Nat)
  | .process _ => [none]
  | .flush => []

/-- A bundle that is full fires a trigger. -/
def Bundler.triggersOf (m : Bundler) : Call Activity → List (Option Nat)
  | .process a => if m.bundleSize ≤ (m.pending ++ [a]).length then [none] else []
  | .flush => []

/-- A buffer with enough activities fires a trigger. -/
def BurstFinder.triggersOf (m : BurstFinder) : Call Activity → List (Option Nat)
  | .process a => if m.activityThreshold < (m.buffered a).length then [none] else []
  | .flush => []

/-- The triggers of a call on an activity maker. -/
def ActivityMaker.triggersOf : ActivityMaker → Call Primitive → List (Option Nat)
  | geometry m => m.triggersOf
  | shape m => m.triggersOf
  | prescale m => m.triggersOf

/-- The triggers of a call on a candidate maker. -/
def CandidateMaker.triggersOf : CandidateMaker → Call Activity → List (Option Nat)
  | grouping m => m.triggersOf
  | prescale m => m.triggersOf
  | bundle m => m.triggersOf
  | burst m => m.triggersOf

/-- The triggers of a run. -/
def Maker.triggers {μ ι ο : Type} (triggersOf : μ → Call ι → List (Option Nat)) :
    μ → List (Call ι) → List (Step μ ο) → List (Option Nat)
  | m, c :: cs, step :: steps => triggersOf m c ++ triggers triggersOf step.maker cs steps
  | _, _, _ => []

/-! ## The accounts of a call -/

/-- A call raises the counters by what it hears, emits and fires, and keeps them balanced. -/
structure Statistics.Accounts (s s' : Statistics) (p heard emitted : Nat)
    (triggers : List (Option Nat)) : Prop where
  raised : s.Raised s' heard emitted triggers
  balanced : s.Balanced p → s'.Balanced p

theorem Statistics.Accounts.of_hear {s s' : Statistics} {p emitted : Nat}
    {triggers : List (Option Nat)} (h : s.hear.Accounts s' p 0 emitted triggers) :
    s.Accounts s' p 1 emitted triggers := by
  refine ⟨?_, fun hs => h.balanced hs.hear⟩
  have hraised := s.raised_hear.trans h.raised
  rwa [Nat.zero_add, List.nil_append] at hraised

section Windowed

variable {π τ ο : Type} [Element τ] [Policy π τ ο] [ListPolicy π τ ο] [Cluster ο τ]
  [LawfulPolicy π τ ο]

namespace Windowed

/-- A trigger is counted, and its output too if the prescale lets it through. -/
theorem Valid.accounts_of_emitted {m : Windowed π τ} (hm : m.Valid)
    (hinputs : m.window.inputs ≠ []) {fired : Fired} {e : Emission ο} (h : Emitted m fired e) :
    m.statistics.Accounts e.statistics (Policy.settings m.policy).prescale 0
      e.output.toList.length [fired.adjacency] := by
  have hprescale := passesNext_iff hm
  cases h with
  | dropped hdrop hstatistics houtput =>
    rw [hstatistics, houtput]
    exact ⟨m.statistics.raised_drop _,
      fun hs => hs.drop hm.prescale (fun hdvd => hdrop (hprescale.2 hdvd)) _⟩
  | void _ hconstruct =>
    -- A window that is not empty always becomes something.
    exfalso
    rcases LawfulPolicy.construct_cases m.policy m.window hm.window.consistent hinputs with
      ⟨o, hmade, -⟩ | ⟨fault, hfault, -⟩
    · cases hconstruct.symm.trans hmade
    · exact Checked.false_of_ok_error hconstruct hfault
  | made hpass _ hstatistics houtput =>
    rw [hstatistics, houtput]
    exact ⟨m.statistics.raised_emit _, fun hs => hs.emit hm.prescale (hprescale.1 hpass) _⟩

theorem Valid.accounts_of_call {m : Windowed π τ} (hm : m.Valid) {c : Call τ}
    {step : Step (Windowed π τ) ο} (h : Maker.call m c = .ok step) :
    m.statistics.Accounts step.maker.statistics (Policy.settings m.policy).prescale
      c.input?.toList.length step.outputs.length (m.triggersOf c) := by
  have hvacant : m.window.inputs = [] → m.window.isEmpty = true := Window.isEmpty_iff.2
  have hfilled : m.window.inputs ≠ [] → m.window.isEmpty = false := fun hinputs =>
    Bool.eq_false_iff.2 (mt Window.isEmpty_iff.1 hinputs)
  cases c with
  | process x =>
    refine .of_hear ?_
    cases processed_of_process h with
    | seeded hempty hwindowed =>
      have hnone : m.trigger? (.process x) = none := by
        rw [trigger?, hvacant hempty, hwindowed]
        rfl
      rw [triggersOf, hnone]
      exact ⟨Statistics.raised_refl _, id⟩
    | @passed w e hempty hpass hwindow hemitted =>
      have hsome : m.trigger? (.process x) = some { reason := .passthrough } := by
        rw [trigger?, hvacant hempty, hpass]
        rfl
      obtain ⟨hsound, hinputs⟩ := Window.Sound.of_reset hwindow
      rw [triggersOf, hsome]
      exact (hm.heard.withWindow hsound m.heard.statistics).accounts_of_emitted
        (by rw [hinputs]; simp) hemitted
    | admitted hinputs hadmits =>
      have hnone : m.trigger? (.process x) = none := by
        rw [trigger?, hfilled hinputs, hadmits]
        rfl
      rw [triggersOf, hnone]
      exact ⟨Statistics.raised_refl _, id⟩
    | @fired w fired e hinputs hadmits hfires hemitted =>
      have hsome : m.trigger? (.process x) = some fired := by
        rw [trigger?, hfilled hinputs, hadmits, hfires]
        rfl
      rw [triggersOf, hsome]
      exact hm.heard.accounts_of_emitted hinputs hemitted
    | slid hinputs hadmits hquiet =>
      have hnone : m.trigger? (.process x) = none := by
        rw [trigger?, hfilled hinputs, hadmits, hquiet]
        rfl
      rw [triggersOf, hnone]
      exact ⟨Statistics.raised_refl _, id⟩
  | flush =>
    cases flushed_of_flush h with
    | idle hempty =>
      have hnone : m.trigger? .flush = none := if_pos (hvacant hempty)
      rw [triggersOf, hnone]
      exact ⟨Statistics.raised_refl _, id⟩
    | left hinputs hquiet =>
      have hnone : m.trigger? .flush = none := by
        rw [trigger?, hfilled hinputs, hquiet]
        rfl
      rw [triggersOf, hnone]
      exact ⟨Statistics.raised_refl _, id⟩
    | @fired fired e hinputs hfires hemitted =>
      have hsome : m.trigger? .flush = some fired := by
        rw [trigger?, hfilled hinputs, hfires]
        rfl
      rw [triggersOf, hsome]
      exact hm.accounts_of_emitted hinputs hemitted

end Windowed

end Windowed

/-- A prescaler counts a trigger for every input. -/
theorem Prescaler.accounts_of_call {ι ο : Type} [Promotable ι ο] {m : Prescaler ι}
    (hprescale : m.prescale ≠ 0) (hfired : m.statistics.fired = m.statistics.inputs)
    {c : Call ι} {step : Step (Prescaler ι) ο} (h : Maker.call m c = .ok step) :
    m.statistics.Accounts step.maker.statistics m.prescale c.input?.toList.length
        step.outputs.length (m.triggersOf c) ∧
      step.maker.statistics.fired = step.maker.statistics.inputs := by
  cases c with
  | process x =>
    have hnext : m.keeps = true ↔ m.prescale ∣ m.statistics.hear.fired := by
      rw [keeps_iff, ← hfired]
      rfl
    cases processed_of_process h with
    | kept hkeeps =>
      refine ⟨.of_hear ⟨Statistics.raised_emit _ none, fun hs => ?_⟩, congrArg (· + 1) hfired⟩
      exact hs.emit hprescale (hnext.1 hkeeps) none
    | dropped hkeeps =>
      refine ⟨.of_hear ⟨Statistics.raised_drop _ none, fun hs => ?_⟩, congrArg (· + 1) hfired⟩
      exact hs.drop hprescale (fun hdvd => by simp [hnext.2 hdvd] at hkeeps) none
  | flush =>
    obtain rfl := Except.ok.inj h
    exact ⟨⟨m.statistics.raised_refl, id⟩, hfired⟩

/-- A bundler counts a trigger for every bundle that is completed. -/
theorem Bundler.accounts_of_call {m : Bundler} (hprescale : m.prescale ≠ 0)
    (hfired : m.statistics.fired = m.completed) {c : Call Activity}
    {step : Step Bundler Candidate} (h : Maker.call m c = .ok step) :
    m.statistics.Accounts step.maker.statistics m.prescale c.input?.toList.length
        step.outputs.length (m.triggersOf c) ∧
      step.maker.statistics.fired = step.maker.completed := by
  cases c with
  | process a =>
    have hnext : m.completed % m.prescale = 0 ↔ m.prescale ∣ m.statistics.hear.fired := by
      rw [← hfired, Nat.dvd_iff_mod_eq_zero]
      rfl
    cases processed_of_process h with
    | collected hroom =>
      rw [triggersOf, if_neg (Nat.not_le.2 hroom)]
      exact ⟨.of_hear ⟨Statistics.raised_refl _, id⟩, hfired⟩
    | dropped hfull hdrop =>
      rw [triggersOf, if_pos hfull]
      refine ⟨.of_hear ⟨Statistics.raised_drop _ none, fun hs => ?_⟩, congrArg (· + 1) hfired⟩
      exact hs.drop hprescale (fun hdvd => hdrop (hnext.2 hdvd)) none
    | made hfull hpass =>
      rw [triggersOf, if_pos hfull]
      refine ⟨.of_hear ⟨Statistics.raised_emit _ none, fun hs => ?_⟩, congrArg (· + 1) hfired⟩
      exact hs.emit hprescale (hnext.1 hpass) none
  | flush =>
    obtain rfl := Except.ok.inj h
    exact ⟨⟨m.statistics.raised_refl, id⟩, hfired⟩

/-- A burst finder emits what it fires. -/
theorem BurstFinder.accounts_of_call {m : BurstFinder} {c : Call Activity}
    {step : Step BurstFinder Candidate} (h : Maker.call m c = .ok step) :
    m.statistics.Accounts step.maker.statistics 1 c.input?.toList.length step.outputs.length
      (m.triggersOf c) := by
  cases c with
  | process a =>
    cases processed_of_process h with
    | quiet hfew =>
      rw [triggersOf, if_neg (Nat.not_lt.2 hfew)]
      exact .of_hear ⟨Statistics.raised_refl _, id⟩
    | burst hmany =>
      rw [triggersOf, if_pos hmany]
      refine .of_hear ⟨Statistics.raised_emit _ none, fun hs => ?_⟩
      exact hs.emit Nat.one_ne_zero (Nat.one_dvd _) none
  | flush =>
    obtain rfl := Except.ok.inj h
    exact ⟨m.statistics.raised_refl, id⟩

/-! ## The accounts of a run -/

section Runs

variable {μ ι ο : Type} [Maker μ ι ο]

/-- The accounts of the calls add up to those of the run, as long as an invariant carries from one
    call to the next. -/
theorem Maker.accounts_of_run {p : Nat} {triggersOf : μ → Call ι → List (Option Nat)}
    {Inv : μ → Prop}
    (hcall : ∀ m (c : Call ι) (step : Step μ ο), Inv m → call m c = .ok step →
      (statistics m).Accounts (statistics step.maker) p c.input?.toList.length
        step.outputs.length (triggersOf m c) ∧ Inv step.maker)
    {m : μ} (hm : Inv m) {cs : List (Call ι)} {steps : List (Step μ ο)}
    (h : run m cs = .ok steps) :
    (statistics m).Accounts (statistics (after m steps)) p (Call.inputs cs).length
      (outputs steps).length (triggers triggersOf m cs steps) := by
  induction cs generalizing m steps with
  | nil =>
    obtain rfl := Except.ok.inj h
    exact ⟨Statistics.raised_refl _, id⟩
  | cons c cs ih =>
    obtain ⟨step, rest, hstep, hrest, rfl⟩ := run_cons_eq_ok_iff.1 h
    obtain ⟨hfirst, hnext⟩ := hcall m c step hm hstep
    have hothers := ih hnext hrest
    rw [Call.inputs_cons, outputs_cons, List.length_append, List.length_append]
    exact ⟨hfirst.raised.trans hothers.raised,
      fun hbalanced => hothers.balanced (hfirst.balanced hbalanced)⟩

/-- The counters of a maker of which one trigger in `prescale` becomes an output, after some calls
    to which it gave some outputs, and with the adjacencies that its triggers measured. -/
structure Statistics.Exact (s : Statistics) (prescale : Nat) (cs : List (Call ι))
    (outputs : List ο) (triggers : List (Option Nat)) : Prop where
  inputs : s.inputs = (Call.inputs cs).length
  emitted : s.emitted = outputs.length
  fired : s.fired = triggers.length
  shared : s.fired = s.emitted + s.prescaled
  thinned : s.emitted = s.fired ⌈/⌉ prescale
  maxAdjacency : s.maxAdjacency = (triggers.filterMap id).max?.getD 0

theorem Statistics.Accounts.exact {s : Statistics} {p : Nat} {cs : List (Call ι)}
    {outputs : List ο} {triggers : List (Option Nat)}
    (h : Accounts {} s p (Call.inputs cs).length outputs.length triggers) :
    s.Exact p cs outputs triggers := by
  obtain ⟨⟨hinputs, hemitted, hfired, hmax⟩, hbalanced⟩ := h
  obtain ⟨hshared, hthinned⟩ := hbalanced (balanced_zero p)
  exact ⟨hinputs.trans (Nat.zero_add _), hemitted.trans (Nat.zero_add _),
    hfired.trans (Nat.zero_add _), hshared, hthinned, hmax.trans (Nat.zero_max _)⟩

/-- The counters of a run from zero are exact. -/
theorem Maker.exact_of_run {p : Nat} {triggersOf : μ → Call ι → List (Option Nat)}
    {Inv : μ → Prop}
    (hcall : ∀ m (c : Call ι) (step : Step μ ο), Inv m → call m c = .ok step →
      (statistics m).Accounts (statistics step.maker) p c.input?.toList.length
        step.outputs.length (triggersOf m c) ∧ Inv step.maker)
    {m : μ} (hm : Inv m) (hfresh : statistics m = {}) {cs : List (Call ι)}
    {steps : List (Step μ ο)} (h : run m cs = .ok steps) :
    (statistics (after m steps)).Exact p cs (outputs steps) (triggers triggersOf m cs steps) := by
  have haccounts := accounts_of_run hcall hm h
  rw [hfresh] at haccounts
  exact haccounts.exact

end Runs

/-! ## The makers of the two levels -/

/-- What the accounts of an activity maker rest on, with one trigger in `p` emitted. -/
inductive ActivityMaker.Accountable (p : Nat) : ActivityMaker → Prop
  | geometry {m : Windowed Geometry Primitive} (hm : m.Valid)
      (hp : (Policy.settings m.policy).prescale = p) : Accountable p (.geometry m)
  | shape {m : Windowed Shape Primitive} (hm : m.Valid)
      (hp : (Policy.settings m.policy).prescale = p) : Accountable p (.shape m)
  | prescale {m : Prescaler Primitive} (hprescale : m.prescale ≠ 0)
      (hfired : m.statistics.fired = m.statistics.inputs) (hp : m.prescale = p) :
      Accountable p (.prescale m)

theorem ActivityMaker.Accountable.call {p : Nat} {m : ActivityMaker} (hm : m.Accountable p)
    {c : Call Primitive} {step : Step ActivityMaker Activity} (h : Maker.call m c = .ok step) :
    (Maker.statistics m).Accounts (Maker.statistics step.maker) p c.input?.toList.length
        step.outputs.length (m.triggersOf c) ∧ step.maker.Accountable p := by
  cases hm with
  | geometry hm hp =>
    obtain ⟨step, hstep, rfl⟩ := embeds_geometry.call_eq_ok h
    subst hp
    exact ⟨hm.accounts_of_call hstep,
      .geometry (hm.follows hstep).valid (by rw [hm.policy_eq hstep])⟩
  | shape hm hp =>
    obtain ⟨step, hstep, rfl⟩ := embeds_shape.call_eq_ok h
    subst hp
    exact ⟨hm.accounts_of_call hstep,
      .shape (hm.follows hstep).valid (by rw [hm.policy_eq hstep])⟩
  | prescale hprescale hfired hp =>
    obtain ⟨step, hstep, rfl⟩ := embeds_prescale.call_eq_ok h
    subst hp
    obtain ⟨haccounts, hnext⟩ := Prescaler.accounts_of_call hprescale hfired hstep
    have hkept := (Prescaler.advances_of_call hstep).2
    exact ⟨haccounts, .prescale (hkept.symm ▸ hprescale) hnext hkept⟩

theorem ActivityMakerKind.accountable_made (kind : ActivityMakerKind) {s : Settings}
    (hs : s.validate = .ok ()) : (kind.made s).Accountable s.prescale := by
  cases kind with
  | adcSimpleWindow => exact .geometry (Windowed.valid_fresh hs) rfl
  | horizontalMuon => exact .geometry (Windowed.valid_fresh hs) rfl
  | michelElectron => exact .shape (Windowed.valid_fresh hs) rfl
  | prescale => exact .prescale (Settings.validate_eq_ok_iff.1 hs).1 rfl rfl

/-- What the accounts of a candidate maker rest on, with one trigger in `p` emitted. -/
inductive CandidateMaker.Accountable (p : Nat) : CandidateMaker → Prop
  | grouping {m : Windowed Grouping Activity} (hm : m.Valid)
      (hp : (Policy.settings m.policy).prescale = p) : Accountable p (.grouping m)
  | prescale {m : Prescaler Activity} (hprescale : m.prescale ≠ 0)
      (hfired : m.statistics.fired = m.statistics.inputs) (hp : m.prescale = p) :
      Accountable p (.prescale m)
  | bundle {m : Bundler} (hprescale : m.prescale ≠ 0)
      (hfired : m.statistics.fired = m.completed) (hp : m.prescale = p) :
      Accountable p (.bundle m)
  | burst {m : BurstFinder} (hp : p = 1) : Accountable p (.burst m)

theorem CandidateMaker.Accountable.call {p : Nat} {m : CandidateMaker} (hm : m.Accountable p)
    {c : Call Activity} {step : Step CandidateMaker Candidate} (h : Maker.call m c = .ok step) :
    (Maker.statistics m).Accounts (Maker.statistics step.maker) p c.input?.toList.length
        step.outputs.length (m.triggersOf c) ∧ step.maker.Accountable p := by
  cases hm with
  | grouping hm hp =>
    obtain ⟨step, hstep, rfl⟩ := embeds_grouping.call_eq_ok h
    subst hp
    exact ⟨hm.accounts_of_call hstep,
      .grouping (hm.follows hstep).valid (by rw [hm.policy_eq hstep])⟩
  | prescale hprescale hfired hp =>
    obtain ⟨step, hstep, rfl⟩ := embeds_prescale.call_eq_ok h
    subst hp
    obtain ⟨haccounts, hnext⟩ := Prescaler.accounts_of_call hprescale hfired hstep
    have hkept := (Prescaler.advances_of_call hstep).2
    exact ⟨haccounts, .prescale (hkept.symm ▸ hprescale) hnext hkept⟩
  | bundle hprescale hfired hp =>
    obtain ⟨step, hstep, rfl⟩ := embeds_bundle.call_eq_ok h
    subst hp
    obtain ⟨haccounts, hnext⟩ := Bundler.accounts_of_call hprescale hfired hstep
    have hkept := (Bundler.advances_of_call hstep).2.2
    exact ⟨haccounts, .bundle (hkept.symm ▸ hprescale) hnext hkept⟩
  | burst hp =>
    obtain ⟨step, hstep, rfl⟩ := embeds_burst.call_eq_ok h
    subst hp
    exact ⟨BurstFinder.accounts_of_call hstep, .burst rfl⟩

/-- How many triggers there are for each output. -/
def CandidateMakerKind.triggersPerOutput (s : Settings) : CandidateMakerKind → Nat
  | supernova => 1
  | _ => s.prescale

theorem CandidateMakerKind.accountable_made (kind : CandidateMakerKind) {s : Settings}
    (hs : s.validate = .ok ()) : (kind.made s).Accountable (kind.triggersPerOutput s) := by
  have hprescale := (Settings.validate_eq_ok_iff.1 hs).1
  cases kind with
  | bundle =>
    -- The guard against a prescale of zero does nothing here.
    have hmax : max s.prescale 1 = s.prescale := Nat.max_eq_left (Nat.pos_of_ne_zero hprescale)
    exact .bundle (hmax.symm ▸ hprescale) rfl hmax
  | horizontalMuon => exact .grouping (Windowed.valid_fresh hs) rfl
  | prescale => exact .prescale hprescale rfl rfl
  | supernova => exact .burst rfl

/-- With settings in range, and after any calls that go through, the counters of a maker are those
    of its inputs, its outputs and its triggers, whatever the kind of the maker. -/
theorem statistics_are_exact (s : Settings) (hs : s.validate = .ok ()) :
    (∀ (kind : ActivityMakerKind) (cs : List (Call Primitive))
        (steps : List (Step ActivityMaker Activity)),
      Maker.run (kind.made s) cs = .ok steps →
      (Maker.statistics (Maker.after (kind.made s) steps)).Exact s.prescale cs
        (Maker.outputs steps)
        (Maker.triggers ActivityMaker.triggersOf (kind.made s) cs steps)) ∧
    (∀ (kind : CandidateMakerKind) (cs : List (Call Activity))
        (steps : List (Step CandidateMaker Candidate)),
      Maker.run (kind.made s) cs = .ok steps →
      (Maker.statistics (Maker.after (kind.made s) steps)).Exact (kind.triggersPerOutput s) cs
        (Maker.outputs steps)
        (Maker.triggers CandidateMaker.triggersOf (kind.made s) cs steps)) := by
  constructor
  · intro kind cs steps hrun
    have hfresh : Maker.statistics (kind.made s) = {} := by cases kind <;> rfl
    exact Maker.exact_of_run (fun _ _ _ hm hcall => ActivityMaker.Accountable.call hm hcall)
      (kind.accountable_made hs) hfresh hrun
  · intro kind cs steps hrun
    have hfresh : Maker.statistics (kind.made s) = {} := by cases kind <;> rfl
    exact Maker.exact_of_run (fun _ _ _ hm hcall => CandidateMaker.Accountable.call hm hcall)
      (kind.accountable_made hs) hfresh hrun

/-- Two adjacent hits in one window, three in the next, and a hit behind them. -/
def twoTracks : List (Call Primitive) :=
  Call.stream [.hit 1 0 10, .hit 2 5 10, .hit 1 9000 10, .hit 2 9001 10, .hit 3 9002 10,
    .hit 1 18000 10]

/-- Of two windows that fire on their adjacency the second one is dropped. It is counted all the
    same, and its adjacency is the largest. -/
theorem dropped_trigger_is_counted :
    (Settings.withAdjacencyTrigger { prescale := 2 } 1 0).validate = .ok () ∧
      ∃ steps,
        Maker.run
            (ActivityMakerKind.horizontalMuon.made (.withAdjacencyTrigger { prescale := 2 } 1 0))
            twoTracks = .ok steps ∧
          Maker.statistics (Maker.after
            (ActivityMakerKind.horizontalMuon.made (.withAdjacencyTrigger { prescale := 2 } 1 0))
            steps) =
            { inputs := 6, fired := 2, emitted := 1, prescaled := 1, maxAdjacency := 3 } ∧
          (Maker.statistics (Maker.after
            (ActivityMakerKind.horizontalMuon.made (.withAdjacencyTrigger { prescale := 2 } 1 0))
            steps)).Exact 2 twoTracks (Maker.outputs steps)
            (Maker.triggers ActivityMaker.triggersOf
              (ActivityMakerKind.horizontalMuon.made (.withAdjacencyTrigger { prescale := 2 } 1 0))
              twoTracks steps) := by
  have hvalid : (Settings.withAdjacencyTrigger { prescale := 2 } 1 0).validate = .ok () :=
    Settings.validate_eq_ok_iff.2 (by decide)
  have hcounters : (Maker.run
      (ActivityMakerKind.horizontalMuon.made (.withAdjacencyTrigger { prescale := 2 } 1 0))
      twoTracks).map (fun steps => Maker.statistics (Maker.after
        (ActivityMakerKind.horizontalMuon.made (.withAdjacencyTrigger { prescale := 2 } 1 0))
        steps)) =
      .ok { inputs := 6, fired := 2, emitted := 1, prescaled := 1, maxAdjacency := 3 } := by
    cbv
  obtain ⟨steps, hrun, hstatistics⟩ := Checked.map_eq_ok_iff.1 hcounters
  exact ⟨hvalid, steps, hrun, hstatistics, (statistics_are_exact _ hvalid).1 _ _ _ hrun⟩

end TriggerChain
