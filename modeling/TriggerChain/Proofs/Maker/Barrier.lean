import TriggerChain.Maker.Geometry
import TriggerChain.Maker.Grouping
import TriggerChain.Maker.Shape
import TriggerChain.Proofs.Maker.Steps
import TriggerChain.Proofs.Maker.Windowless
import TriggerChain.Proofs.Window.Order

/-!
# Flushes as barriers

A maker that makes an output of every trigger shows nothing of what it has counted: what it emits
depends on its settings and on what it holds, a window, a bundle or a buffer. A flush leaves it with
nothing to hold, whether or not the last window fires. So whatever comes before a flush has no
influence on what is emitted behind it.

Main statements: `flushIsBarrier_of_agree` for makers of any kind, and `flush_is_barrier`.
-/

namespace TriggerChain

namespace Maker

variable {μ ι ο : Type} [Maker μ ι ο]

/-! ## What is emitted -/

/-- What each of some calls emits, or the fault that stops them. -/
def emissions (m : μ) (cs : List (Call ι)) : Except Fault (List (List ο)) := do
  let steps ← run m cs
  return steps.map Step.outputs

theorem emissions_cons (m : μ) (c : Call ι) (cs : List (Call ι)) :
    emissions (ο := ο) m (c :: cs) = do
      let step ← call m c
      let rest ← emissions step.maker cs
      return step.outputs :: rest := by
  simp only [emissions, run, bind_assoc, pure_bind, List.map_cons]

theorem run_append_eq (m : μ) (cs ds : List (Call ι)) :
    run (ο := ο) m (cs ++ ds) = do
      let steps ← run m cs
      let behind ← run (after m steps) ds
      return steps ++ behind := by
  induction cs generalizing m with
  | nil => exact (bind_pure (run m ds)).symm
  | cons c cs ih =>
    simp only [List.cons_append, run, ih, bind_assoc, pure_bind, after]

theorem emissions_append (m : μ) (cs ds : List (Call ι)) :
    emissions (ο := ο) m (cs ++ ds) = do
      let steps ← run m cs
      let behind ← emissions (after m steps) ds
      return steps.map Step.outputs ++ behind := by
  simp only [emissions, run_append_eq, bind_assoc, pure_bind, List.map_append]

/-! ## Makers that nobody can tell apart -/

/-- Two calls stop on the same fault, or emit the same and leave makers that are related. -/
inductive Agree (R : μ → μ → Prop) :
    Except Fault (Step μ ο) → Except Fault (Step μ ο) → Prop
  | stopped (fault : Fault) : Agree R (.error fault) (.error fault)
  | done {step step' : Step μ ο} (houtputs : step.outputs = step'.outputs)
      (hnext : R step.maker step'.maker) : Agree R (.ok step) (.ok step')

omit [Maker μ ι ο] in
/-- Calls that begin with the same computation agree if they do whatever it gives. -/
theorem Agree.bind {α : Type} {R : μ → μ → Prop} (x : Except Fault α)
    {f g : α → Except Fault (Step μ ο)} (h : ∀ a, Agree R (f a) (g a)) :
    Agree R (x >>= f) (x >>= g) := by
  cases x with
  | error fault => exact .stopped fault
  | ok a => exact h a

/-- Makers emit the same if their calls agree from one call to the next. -/
theorem emissions_eq_of_agree {R : μ → μ → Prop}
    (hagree : ∀ m m' (c : Call ι), R m m' → Agree (ο := ο) R (call m c) (call m' c)) {m m' : μ}
    (h : R m m') (cs : List (Call ι)) : emissions (ο := ο) m cs = emissions m' cs := by
  induction cs generalizing m m' with
  | nil => rfl
  | cons c cs ih =>
    rw [emissions_cons, emissions_cons]
    have hcall := hagree m m' c h
    revert hcall
    generalize call (ο := ο) m c = result, call (ο := ο) m' c = result'
    rintro (fault | ⟨houtputs, hnext⟩)
    · rfl
    · change (emissions _ cs >>= _) = (emissions _ cs >>= _)
      rw [ih hnext, houtputs]

/-! ## Barriers -/

/-- A flush of the maker `m` is a barrier, and leaves the maker idle. -/
structure FlushIsBarrier (Idle : μ → Prop) (m : μ) : Prop where
  /-- Behind a flush each call emits what it emits if the maker has heard nothing before; and where
      one of the two stops, the other stops on the same fault. -/
  emissions : ∀ cs ds : List (Call ι),
    Maker.emissions (ο := ο) m (cs ++ [.flush] ++ ds) = do
      let before ← Maker.emissions m (cs ++ [.flush])
      let behind ← Maker.emissions m ds
      return before ++ behind
  /-- After a flush the maker is idle. One more flush emits nothing and changes nothing. -/
  idle : ∀ (cs : List (Call ι)) (steps : List (Step μ ο)), run m (cs ++ [.flush]) = .ok steps →
    Idle (after m steps) ∧ Maker.flush (after m steps) = .ok { maker := after m steps }

/-- A flush of `m` is a barrier if it leaves a maker that nobody can tell from `m`, and that is
    idle. What the calls on `m` preserve, here `P`,
    may be used. -/
theorem flushIsBarrier_of_agree {R : μ → μ → Prop} {P Idle : μ → Prop} {m : μ}
    (hagree : ∀ m m' (c : Call ι), R m m' → Agree (ο := ο) R (call m c) (call m' c))
    (hown : ∀ m (c : Call ι) (step : Step μ ο), P m → call m c = .ok step → P step.maker)
    (hflush : ∀ m' (step : Step μ ο), P m' → Maker.flush m' = .ok step →
      R step.maker m ∧ Idle step.maker ∧
        Maker.flush step.maker = .ok { maker := step.maker })
    (hm : P m) : FlushIsBarrier (ι := ι) (ο := ο) Idle m := by
  -- What the last of some calls leaves, if it is a flush.
  have hlast : ∀ (cs : List (Call ι)) (steps : List (Step μ ο)),
      run m (cs ++ [.flush]) = .ok steps →
      R (after m steps) m ∧ Idle (after m steps) ∧
        Maker.flush (after m steps) = .ok { maker := after m steps } := by
    intro cs steps hrun
    rw [run_append_eq] at hrun
    obtain ⟨before, hbefore, hrun⟩ := Checked.bind_eq_ok_iff.1 hrun
    obtain ⟨last, hlast, hrun⟩ := Checked.bind_eq_ok_iff.1 hrun
    obtain ⟨step, rest, hstep, hrest, rfl⟩ := run_cons_eq_ok_iff.1 hlast
    obtain rfl := Except.ok.inj hrest
    obtain rfl := Except.ok.inj hrun
    have hbehind : P (after m before) :=
      (run_invariant (fun m _ => P m) (Q := fun _ => True)
        (fun m c _ step hown' hcall => ⟨hown m c step hown' hcall, fun _ _ => trivial⟩)
        hm hbefore).1
    rw [after_append]
    exact hflush _ step hbehind hstep
  refine ⟨?_, fun cs steps hrun => (hlast cs steps hrun).2⟩
  intro cs ds
  rw [emissions_append, emissions]
  simp only [bind_assoc, pure_bind]
  cases hrun : run (ο := ο) m (cs ++ [.flush]) with
  | error fault => rfl
  | ok steps =>
    change (emissions _ ds >>= _) = (emissions _ ds >>= _)
    rw [emissions_eq_of_agree hagree (hlast cs steps hrun).1]

end Maker

/-! ## Windowed makers -/

namespace Windowed

variable {π τ ο : Type} [Element τ] [Policy π τ ο]

/-- Two makers with one policy and one window. What they have counted may differ, and every trigger
    becomes an output whatever it is. -/
structure SameWindow (m m' : Windowed π τ) : Prop where
  policy : m.policy = m'.policy
  window : m.window = m'.window
  unscaled : (Policy.settings m.policy).prescale = 1

/-- A trigger has the same output whatever has been counted. -/
theorem SameWindow.emit_bind {m m' : Windowed π τ} (h : SameWindow m m') (fired : Fired)
    {f g : Emission ο → Except Fault (Step (Windowed π τ) ο)}
    (hfg : ∀ e e' : Emission ο, e.output = e'.output → Maker.Agree SameWindow (f e) (g e')) :
    Maker.Agree SameWindow (m.emit fired >>= f) (m'.emit fired >>= g) := by
  have hpasses : ∀ n : Nat, n % max 1 1 = 0 := fun n => Nat.mod_one n
  unfold emit
  dsimp only
  rw [← h.policy, ← h.window, h.unscaled, if_neg (not_not_intro (hpasses _)),
    if_neg (not_not_intro (hpasses _)), bind_assoc, bind_assoc]
  refine .bind _ fun output => ?_
  cases output with
  | none => exact hfg _ _ rfl
  | some output => exact hfg _ _ rfl

theorem SameWindow.process {m m' : Windowed π τ} (h : SameWindow m m') (x : τ) :
    Maker.Agree (ο := ο) SameWindow (m.process x) (m'.process x) := by
  have hwith : ∀ (w : Window τ) (s s' : Statistics),
      SameWindow { m with window := w, statistics := s }
        { policy := m.policy, window := w, statistics := s' } :=
    fun _ _ _ => ⟨rfl, rfl, h.unscaled⟩
  unfold Windowed.process
  dsimp only
  rw [← h.policy, ← h.window]
  split
  · -- An empty window: the input seeds it or is passed through.
    apply Maker.Agree.bind
    intro w
    split
    · apply (hwith w _ _).emit_bind
      intro e e' houtput
      exact .done (congrArg Option.toList houtput) (hwith _ _ _)
    · exact .done rfl (hwith w _ _)
  · split
    · apply Maker.Agree.bind
      intro w
      exact .done rfl (hwith w _ _)
    · split
      · apply (hwith m.window _ _).emit_bind
        intro e e' houtput
        apply Maker.Agree.bind
        intro w
        exact .done (congrArg Option.toList houtput) (hwith w _ _)
      · apply Maker.Agree.bind
        intro w
        exact .done rfl (hwith w _ _)

theorem SameWindow.flush {m m' : Windowed π τ} (h : SameWindow m m') :
    Maker.Agree (ο := ο) SameWindow m.flush m'.flush := by
  have hcleared : ∀ s s' : Statistics,
      SameWindow { m with window := .empty, statistics := s }
        { policy := m.policy, window := .empty, statistics := s' } :=
    fun _ _ => ⟨rfl, rfl, h.unscaled⟩
  unfold Windowed.flush
  dsimp only
  rw [← h.policy, ← h.window]
  split
  · exact .done rfl h
  · split
    · exact .done rfl (hcleared _ _)
    · apply h.emit_bind
      intro e e' houtput
      exact .done (congrArg Option.toList houtput) (hcleared _ _)

theorem SameWindow.call (m m' : Windowed π τ) (c : Call τ) (h : SameWindow m m') :
    Maker.Agree (ο := ο) SameWindow (Maker.call m c) (Maker.call m' c) := by
  cases c with
  | process x => exact h.process x
  | flush => exact h.flush

/-- A maker with the policy `p`, and with a window whose aggregates are those of its elements. -/
structure Keeps (p : π) (m : Windowed π τ) : Prop where
  policy : m.policy = p
  window : m.window.Sound

theorem Keeps.call {p : π} (m : Windowed π τ) (c : Call τ) (step : Step (Windowed π τ) ο)
    (hm : Keeps p m) (h : Maker.call m c = .ok step) : Keeps p step.maker := by
  have hpolicy := hm.policy
  cases c with
  | process x =>
    cases processed_of_process h with
    | seeded _ _ hwindow => exact ⟨hpolicy, (Window.Sound.of_reset hwindow).1⟩
    | passed => exact ⟨hpolicy, Window.sound_empty⟩
    | admitted _ _ hwindow => exact ⟨hpolicy, (hm.window.of_add hwindow).1⟩
    | fired _ _ _ _ hwindow => exact ⟨hpolicy, (Window.Sound.of_reset hwindow).1⟩
    | slid _ _ _ hwindow => exact ⟨hpolicy, (hm.window.of_slide hwindow).1⟩
  | flush =>
    cases flushed_of_flush h with
    | idle => exact hm
    | left => exact ⟨hpolicy, Window.sound_empty⟩
    | fired => exact ⟨hpolicy, Window.sound_empty⟩

/-- Nothing is left of the window, not even in its aggregates. -/
theorem Keeps.window_of_flush {p : π} {m : Windowed π τ} {step : Step (Windowed π τ) ο}
    (hm : Keeps p m) (h : Maker.flush m = .ok step) : step.maker.window = .empty := by
  cases flushed_of_flush h with
  | idle hempty => exact hm.window.consistent.ext Window.consistent_empty hempty
  | left => rfl
  | fired => rfl

theorem flush_of_empty {m : Windowed π τ} (h : m.window = .empty) :
    Maker.flush (ο := ο) m = .ok { maker := m } := by
  change m.flush = _
  unfold Windowed.flush
  rw [h]
  rfl

/-- A flush of a windowed maker with prescale one is a barrier. -/
theorem flushIsBarrier_of_unscaled {p : π} (h : (Policy.settings p).prescale = 1) :
    Maker.FlushIsBarrier (ι := τ) (ο := ο) (fun m => m.window = .empty)
      ({ policy := p } : Windowed π τ) := by
  refine Maker.flushIsBarrier_of_agree (P := Keeps p) SameWindow.call Keeps.call ?_
    ⟨rfl, Window.sound_empty⟩
  intro m step hm hflush
  have hpolicy : step.maker.policy = p := (hm.call m .flush step hflush).policy
  have hwindow := hm.window_of_flush hflush
  exact ⟨⟨hpolicy, hwindow, hpolicy ▸ h⟩, hwindow, flush_of_empty hwindow⟩

end Windowed

/-! ## Bundlers -/

namespace Bundler

/-- Two makers of bundles of one size, with the same activities in the bundle that is not full yet.
    Every full bundle becomes a candidate, whatever its number is. -/
structure SameBundle (m m' : Bundler) : Prop where
  bundleSize : m.bundleSize = m'.bundleSize
  pending : m.pending = m'.pending
  unscaled : m.prescale = 1
  unscaled' : m'.prescale = 1

theorem SameBundle.call (m m' : Bundler) (c : Call Activity) (h : SameBundle m m') :
    Maker.Agree SameBundle (Maker.call m c) (Maker.call m' c) := by
  obtain ⟨hsize, hpending, hone, hone'⟩ := h
  cases c with
  | flush => exact .done rfl ⟨hsize, rfl, hone, hone'⟩
  | process a =>
    have hpasses : ∀ n : Nat, ¬ n % 1 ≠ 0 := fun n => not_not_intro (Nat.mod_one n)
    change Maker.Agree SameBundle (.ok (m.process a)) (.ok (m'.process a))
    unfold Bundler.process
    dsimp only
    rw [← hsize, ← hpending, hone, hone', if_neg (hpasses _), if_neg (hpasses _)]
    split
    · exact .done rfl ⟨rfl, rfl, rfl, rfl⟩
    · exact .done rfl ⟨rfl, rfl, rfl, rfl⟩

/-- A flush of a bundler with prescale one is a barrier. -/
theorem flushIsBarrier_of_unscaled (bundleSize : Nat) :
    Maker.FlushIsBarrier (fun m => m.pending = []) ({ bundleSize, prescale := 1 } : Bundler) := by
  let Own (m : Bundler) : Prop := m.bundleSize = bundleSize ∧ m.prescale = 1
  have hown : ∀ (m : Bundler) (c : Call Activity) step, Own m → Maker.call m c = .ok step →
      Own step.maker := by
    intro m c step hm h
    cases c with
    | process a => cases processed_of_process h <;> exact hm
    | flush =>
      obtain rfl := Except.ok.inj h
      exact hm
  refine Maker.flushIsBarrier_of_agree (P := Own) SameBundle.call hown ?_ ⟨rfl, rfl⟩
  intro m step hm h
  obtain rfl := Except.ok.inj h
  exact ⟨⟨hm.1, rfl, hm.2, rfl⟩, rfl, rfl⟩

end Bundler

/-! ## Burst finders -/

namespace BurstFinder

/-- Two makers of bursts with the same settings and the same activities in the buffer. -/
structure SameBuffer (m m' : BurstFinder) : Prop where
  window : m.window = m'.window
  activityThreshold : m.activityThreshold = m'.activityThreshold
  hitThreshold : m.hitThreshold = m'.hitThreshold
  buffer : m.buffer = m'.buffer

theorem SameBuffer.buffered {m m' : BurstFinder} (h : SameBuffer m m') (a : Activity) :
    m.buffered a = m'.buffered a := by
  unfold BurstFinder.buffered kept horizon
  rw [h.window, h.hitThreshold, h.buffer]

theorem SameBuffer.candidate {m m' : BurstFinder} (h : SameBuffer m m') (a : Activity)
    (burst : List Activity) : m.candidate a burst = m'.candidate a burst := by
  unfold BurstFinder.candidate horizon
  rw [h.window]

theorem SameBuffer.call (m m' : BurstFinder) (c : Call Activity) (h : SameBuffer m m') :
    Maker.Agree SameBuffer (Maker.call m c) (Maker.call m' c) := by
  cases c with
  | flush => exact .done rfl ⟨h.window, h.activityThreshold, h.hitThreshold, rfl⟩
  | process a =>
    change Maker.Agree SameBuffer (.ok (m.process a)) (.ok (m'.process a))
    unfold BurstFinder.process
    dsimp only
    rw [h.buffered a, h.candidate a, h.activityThreshold]
    split
    · exact .done rfl ⟨h.window, rfl, h.hitThreshold, rfl⟩
    · exact .done rfl ⟨h.window, rfl, h.hitThreshold, rfl⟩

/-- A flush of a burst finder is a barrier. -/
theorem flushIsBarrier_of_settings (window : Ticks) (activityThreshold hitThreshold : Nat) :
    Maker.FlushIsBarrier (fun m => m.buffer = [])
      ({ window, activityThreshold, hitThreshold } : BurstFinder) := by
  let Own (m : BurstFinder) : Prop := m.window = window ∧
    m.activityThreshold = activityThreshold ∧ m.hitThreshold = hitThreshold
  have hown : ∀ (m : BurstFinder) (c : Call Activity) step, Own m → Maker.call m c = .ok step →
      Own step.maker := by
    intro m c step hm h
    cases c with
    | process a => cases processed_of_process h <;> exact hm
    | flush =>
      obtain rfl := Except.ok.inj h
      exact hm
  refine Maker.flushIsBarrier_of_agree (P := Own) SameBuffer.call hown ?_ ⟨rfl, rfl, rfl⟩
  intro m step hm h
  obtain rfl := Except.ok.inj h
  exact ⟨⟨hm.1, hm.2.1, hm.2.2, rfl⟩, rfl, rfl⟩

end BurstFinder

/-! ## The makers -/

/-- A flush is a barrier for every windowed maker and every bundler with prescale one, and for every
    burst finder, whatever their other settings are: it leaves no element in the window, no activity
    in a bundle that is not full, and none in the buffer. -/
theorem flush_is_barrier (s : Settings) :
    Maker.FlushIsBarrier (fun m => m.window = .empty)
        ({ policy := .horizontal { s with prescale := 1 } } : Windowed Geometry Primitive) ∧
      Maker.FlushIsBarrier (fun m => m.window = .empty)
        ({ policy := .charge { s with prescale := 1 } } : Windowed Geometry Primitive) ∧
      Maker.FlushIsBarrier (fun m => m.window = .empty)
        ({ policy := { settings := { s with prescale := 1 } } } : Windowed Shape Primitive) ∧
      Maker.FlushIsBarrier (fun m => m.window = .empty)
        ({ policy := { settings := { s with prescale := 1 } } } : Windowed Grouping Activity) ∧
      Maker.FlushIsBarrier (fun m => m.pending = [])
        ({ bundleSize := s.bundleSize, prescale := 1 } : Bundler) ∧
      Maker.FlushIsBarrier (fun m => m.buffer = [])
        ({ window := s.windowLength, activityThreshold := s.activityThreshold,
           hitThreshold := s.hitThreshold } : BurstFinder) := by
  refine ⟨?_, ?_, ?_, ?_, ?_, ?_⟩
  · exact Windowed.flushIsBarrier_of_unscaled rfl
  · exact Windowed.flushIsBarrier_of_unscaled rfl
  · exact Windowed.flushIsBarrier_of_unscaled rfl
  · exact Windowed.flushIsBarrier_of_unscaled rfl
  · exact Bundler.flushIsBarrier_of_unscaled s.bundleSize
  · exact BurstFinder.flushIsBarrier_of_settings _ _ _

end TriggerChain
