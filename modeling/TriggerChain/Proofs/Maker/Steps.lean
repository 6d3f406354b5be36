import TriggerChain.Maker.Windowed
import TriggerChain.Proofs.Maker.Calls

/-!
# The steps of a windowed maker

How a call on a windowed maker can go through, and where it can stop, one case for each way.
Later proofs take a call apart by these cases only.
-/

namespace TriggerChain

namespace Windowed

variable {π τ ο : Type} [Element τ] [Policy π τ ο]

/-- The maker with one input more on its counters. -/
def heard (m : Windowed π τ) : Windowed π τ := { m with statistics := m.statistics.hear }

/-! ## Triggers -/

/-- Whether the prescale lets the next trigger through. -/
def passesNext (m : Windowed π τ) : Prop :=
  m.statistics.fired % max (Policy.settings m.policy).prescale 1 = 0

instance (m : Windowed π τ) : Decidable m.passesNext := inferInstanceAs (Decidable (_ = _))

/-- How a trigger can go through. -/
inductive Emitted (m : Windowed π τ) (fired : Fired) : Emission ο → Prop
  /-- The prescale drops the trigger. -/
  | dropped {e : Emission ο} (hprescale : ¬ m.passesNext)
      (hstatistics : e.statistics = (m.statistics.fire fired.adjacency).drop)
      (houtput : e.output = none) (hevents : e.events = .ok []) : Emitted m fired e
  /-- There is nothing to make an output of. -/
  | void {e : Emission ο} (hprescale : m.passesNext)
      (hconstruct : Policy.construct m.policy m.window = .ok none)
      (hstatistics : e.statistics = m.statistics.fire fired.adjacency)
      (houtput : e.output = none) (hevents : e.events = .ok []) : Emitted m fired e
  /-- The window becomes an output. -/
  | made {e : Emission ο} {output : ο} (hprescale : m.passesNext)
      (hconstruct : Policy.construct m.policy m.window = .ok (some output))
      (hstatistics : e.statistics = (m.statistics.fire fired.adjacency).emit)
      (houtput : e.output = some output) (hevents : e.events = m.eventsOf fired) :
      Emitted m fired e

theorem emitted_of_emit {m : Windowed π τ} {fired : Fired} {e : Emission ο}
    (h : m.emit fired = .ok e) : Emitted m fired e := by
  unfold emit at h
  dsimp only at h
  split at h
  · next hprescale =>
    obtain rfl := Except.ok.inj h
    exact .dropped hprescale rfl rfl rfl
  · next hprescale =>
    obtain ⟨output?, hconstruct, h⟩ := Checked.bind_eq_ok_iff.1 h
    -- A trigger that makes nothing is counted as fired and as nothing else.
    cases output? with
    | none =>
      obtain rfl := Except.ok.inj h
      exact .void (Decidable.not_not.1 hprescale) hconstruct rfl rfl rfl
    | some output =>
      obtain rfl := Except.ok.inj h
      exact .made (Decidable.not_not.1 hprescale) hconstruct rfl rfl rfl

/-- A trigger stops where the prescale lets it through and its output cannot be made. -/
structure EmitStops (m : Windowed π τ) (fault : Fault) : Prop where
  prescale : m.passesNext
  construct : Policy.construct m.policy m.window = .error fault

theorem emitStops_of_emit {m : Windowed π τ} {fired : Fired} {fault : Fault}
    (h : m.emit fired = .error fault) : EmitStops m fault := by
  unfold emit at h
  dsimp only at h
  split at h
  · cases h
  · next hprescale =>
    refine ⟨Decidable.not_not.1 hprescale, ?_⟩
    rcases Checked.bind_eq_error_iff.1 h with herr | ⟨output?, -, h⟩
    · exact herr
    · cases output? <;> cases h

/-! ## Inputs -/

/-- How a call with an input can go through. -/
inductive Processed (m : Windowed π τ) (x : τ) : Step (Windowed π τ) ο → Prop
  /-- An empty window is seeded. -/
  | seeded {w : Window τ} (hempty : m.window.inputs = [])
      (hwindowed : Policy.passthrough m.policy = false) (hwindow : Window.reset x = .ok w) :
      Processed m x { maker := { m.heard with window := w } }
  /-- The input is passed through on arrival. -/
  | passed {w : Window τ} {e : Emission ο} (hempty : m.window.inputs = [])
      (hpass : Policy.passthrough m.policy = true) (hwindow : Window.reset x = .ok w)
      (hemitted : Emitted { m.heard with window := w } { reason := .passthrough } e) :
      Processed m x (e.step { m.heard with window := .empty })
  /-- The input fits the window. -/
  | admitted {w : Window τ} (hinputs : m.window.inputs ≠ [])
      (hadmits : m.window.admits (Element.timeStart x)
        (Policy.settings m.policy).windowLength = true)
      (hwindow : m.window.add x = .ok w) :
      Processed m x { maker := { m.heard with window := w } }
  /-- The input does not fit the window, and the window fires. -/
  | fired {w : Window τ} {fired : Fired} {e : Emission ο} (hinputs : m.window.inputs ≠ [])
      (hadmits : m.window.admits (Element.timeStart x)
        (Policy.settings m.policy).windowLength = false)
      (hfires : Policy.evaluate m.policy m.window x = some fired)
      (hemitted : Emitted m.heard fired e) (hwindow : Window.reset x = .ok w) :
      Processed m x (e.step { m.heard with window := w })
  /-- The input does not fit the window, and the window slides on. -/
  | slid {w : Window τ} {notices : List Notice} (hinputs : m.window.inputs ≠ [])
      (hadmits : m.window.admits (Element.timeStart x)
        (Policy.settings m.policy).windowLength = false)
      (hquiet : Policy.evaluate m.policy m.window x = none)
      (hwindow : m.window.slide x (Policy.settings m.policy).windowLength = .ok w) :
      Processed m x { maker := { m.heard with window := w }, notices }

theorem processed_of_process {m : Windowed π τ} {x : τ} {step : Step (Windowed π τ) ο}
    (h : m.process x = .ok step) : Processed m x step := by
  unfold process at h
  dsimp only at h
  split at h
  · -- An empty window: the input seeds it or is passed through.
    next hempty =>
    have hempty' := Window.isEmpty_iff.1 hempty
    obtain ⟨w, hwindow, h⟩ := Checked.bind_eq_ok_iff.1 h
    split at h
    · next hpass =>
      obtain ⟨e, hemit, h⟩ := Checked.bind_eq_ok_iff.1 h
      obtain rfl := Except.ok.inj h
      exact .passed hempty' hpass hwindow (emitted_of_emit hemit)
    · next hpass =>
      obtain rfl := Except.ok.inj h
      exact .seeded hempty' (Bool.not_eq_true _ ▸ hpass) hwindow
  · next hinputs =>
    have hinputs' : m.window.inputs ≠ [] := fun hnil => hinputs (Window.isEmpty_iff.2 hnil)
    -- A window with elements: the input fits it, or the policy looks at it.
    split at h
    · next hadmits =>
      obtain ⟨w, hwindow, h⟩ := Checked.bind_eq_ok_iff.1 h
      obtain rfl := Except.ok.inj h
      exact .admitted hinputs' hadmits hwindow
    · next hadmits =>
      have hadmits' := Bool.not_eq_true _ ▸ hadmits
      split at h
      · next fired hfires =>
        obtain ⟨e, hemit, h⟩ := Checked.bind_eq_ok_iff.1 h
        obtain ⟨w, hwindow, h⟩ := Checked.bind_eq_ok_iff.1 h
        obtain rfl := Except.ok.inj h
        exact .fired hinputs' hadmits' hfires (emitted_of_emit hemit) hwindow
      · next hquiet =>
        obtain ⟨w, hwindow, h⟩ := Checked.bind_eq_ok_iff.1 h
        obtain rfl := Except.ok.inj h
        exact .slid hinputs' hadmits' hquiet hwindow

/-- Where a call with an input can stop. -/
inductive ProcessStops (m : Windowed π τ) (x : τ) (fault : Fault) : Prop
  /-- The input alone does not make a window. -/
  | reset (hwindow : Window.reset x = .error fault)
  /-- The input that is passed through does not make an output. -/
  | passed {w : Window τ} (hempty : m.window.inputs = [])
      (hpass : Policy.passthrough m.policy = true) (hwindow : Window.reset x = .ok w)
      (hemit : EmitStops { m.heard with window := w } fault)
  /-- The input fits the window, and its contribution does not. -/
  | admitted (hinputs : m.window.inputs ≠ [])
      (hadmits : m.window.admits (Element.timeStart x)
        (Policy.settings m.policy).windowLength = true)
      (hwindow : m.window.add x = .error fault)
  /-- The window that fires does not make an output. -/
  | fired {fired : Fired} (hinputs : m.window.inputs ≠ [])
      (hadmits : m.window.admits (Element.timeStart x)
        (Policy.settings m.policy).windowLength = false)
      (hfires : Policy.evaluate m.policy m.window x = some fired)
      (hemit : EmitStops m.heard fault)
  /-- The window cannot slide on. -/
  | slid (hinputs : m.window.inputs ≠ [])
      (hadmits : m.window.admits (Element.timeStart x)
        (Policy.settings m.policy).windowLength = false)
      (hquiet : Policy.evaluate m.policy m.window x = none)
      (hwindow : m.window.slide x (Policy.settings m.policy).windowLength = .error fault)

theorem processStops_of_process {m : Windowed π τ} {x : τ} {fault : Fault}
    (h : m.process (ο := ο) x = .error fault) : ProcessStops m x fault := by
  unfold process at h
  dsimp only at h
  split at h
  · next hempty =>
    rcases Checked.bind_eq_error_iff.1 h with herr | ⟨w, hwindow, h⟩
    · exact .reset herr
    · split at h
      · next hpass =>
        rcases Checked.bind_eq_error_iff.1 h with herr | ⟨e, -, h⟩
        · exact .passed (Window.isEmpty_iff.1 hempty) hpass hwindow (emitStops_of_emit herr)
        · cases h
      · cases h
  · next hinputs =>
    have hinputs' : m.window.inputs ≠ [] := fun hnil => hinputs (Window.isEmpty_iff.2 hnil)
    split at h
    · next hadmits =>
      rcases Checked.bind_eq_error_iff.1 h with herr | ⟨w, -, h⟩
      · exact .admitted hinputs' hadmits herr
      · cases h
    · next hadmits =>
      have hadmits' := Bool.not_eq_true _ ▸ hadmits
      -- The output is made before the window starts over, so it is the first to stop.
      split at h
      · next fired hfires =>
        rcases Checked.bind_eq_error_iff.1 h with herr | ⟨e, -, h⟩
        · exact .fired hinputs' hadmits' hfires (emitStops_of_emit herr)
        · rcases Checked.bind_eq_error_iff.1 h with herr | ⟨w, -, h⟩
          · exact .reset herr
          · cases h
      · next hquiet =>
        rcases Checked.bind_eq_error_iff.1 h with herr | ⟨w, -, h⟩
        · exact .slid hinputs' hadmits' hquiet herr
        · cases h

/-! ## The end of a stream -/

/-- How the end of a stream can go through. -/
inductive Flushed (m : Windowed π τ) : Step (Windowed π τ) ο → Prop
  /-- There is no window left. -/
  | idle (hempty : m.window.inputs = []) : Flushed m { maker := m }
  /-- The window that is left does not fire. -/
  | left (hinputs : m.window.inputs ≠ [])
      (hquiet : Policy.evaluateFlush m.policy m.window = none) :
      Flushed m { maker := { m with window := .empty } }
  /-- The window that is left fires once more. -/
  | fired {fired : Fired} {e : Emission ο} (hinputs : m.window.inputs ≠ [])
      (hfires : Policy.evaluateFlush m.policy m.window = some fired)
      (hemitted : Emitted m fired e) :
      Flushed m (e.step { m with window := .empty })

theorem flushed_of_flush {m : Windowed π τ} {step : Step (Windowed π τ) ο}
    (h : m.flush = .ok step) : Flushed m step := by
  unfold flush at h
  dsimp only at h
  split at h
  · next hempty =>
    obtain rfl := Except.ok.inj h
    exact .idle (Window.isEmpty_iff.1 hempty)
  · next hinputs =>
    have hinputs' : m.window.inputs ≠ [] := fun hnil => hinputs (Window.isEmpty_iff.2 hnil)
    split at h
    · next hquiet =>
      obtain rfl := Except.ok.inj h
      exact .left hinputs' hquiet
    · next fired hfires =>
      obtain ⟨e, hemit, h⟩ := Checked.bind_eq_ok_iff.1 h
      obtain rfl := Except.ok.inj h
      exact .fired hinputs' hfires (emitted_of_emit hemit)

/-- Where the end of a stream can stop: the window that is left fires once more, and does not
    make an output. -/
structure FlushStops (m : Windowed π τ) (fault : Fault) : Prop where
  inputs : m.window.inputs ≠ []
  fires : ∃ fired, Policy.evaluateFlush m.policy m.window = some fired
  emit : EmitStops m fault

theorem flushStops_of_flush {m : Windowed π τ} {fault : Fault}
    (h : m.flush (ο := ο) = .error fault) : FlushStops m fault := by
  unfold flush at h
  dsimp only at h
  split at h
  · cases h
  · next hinputs =>
    have hinputs' : m.window.inputs ≠ [] := fun hnil => hinputs (Window.isEmpty_iff.2 hnil)
    split at h
    · cases h
    · next fired hfires =>
      rcases Checked.bind_eq_error_iff.1 h with herr | ⟨e, -, h⟩
      · exact ⟨hinputs', ⟨fired, hfires⟩, emitStops_of_emit herr⟩
      · cases h

end Windowed

end TriggerChain
