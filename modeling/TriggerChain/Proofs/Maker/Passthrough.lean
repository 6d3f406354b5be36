import TriggerChain.Proofs.Maker.Moved
import TriggerChain.Proofs.Maker.Stops

/-!
# Three ways to pass activities through

A prescaler, a bundler of bundles of one activity, and a grouping with no condition on its windows
and no readout before them keep the same activities and make the same candidates of them, at the
same calls and with the same counters. Each counts on its own: the prescaler its inputs, the bundler
its complete bundles, the grouping its triggers. Between calls the three numbers are equal, nothing
is pending and the window is empty, whatever its length is. Only the end of a candidate of the
grouping is another one, since it is read off the last primitive.

Main statement: `pass_throughs_agree`.
-/

namespace TriggerChain

/-! ## Runs side by side -/

section SideBySide

variable {μ ν ι ο : Type} [Maker μ ι ο] [Maker ν ι ο] {Same : ο → ο → Prop} {S : μ → ν → Prop}

/-- A call on each of two makers: the outputs are the same, and so are the counters. -/
structure Step.Agrees (Same : ο → ο → Prop) (step : Step μ ο) (step' : Step ν ο) : Prop where
  outputs : List.Forall₂ Same step.outputs step'.outputs
  statistics : Maker.statistics step.maker = Maker.statistics step'.maker

/-- If each call keeps two makers related and agrees on them, all calls of two runs do. -/
theorem Maker.run_agrees
    (hcall : ∀ {m : μ} {k : ν} {c : Call ι} {step : Step μ ο} {step' : Step ν ο}, S m k →
      Maker.call m c = .ok step → Maker.call k c = .ok step' →
      S step.maker step'.maker ∧ step.Agrees Same step')
    {m : μ} {k : ν} (h : S m k) {cs : List (Call ι)} {steps : List (Step μ ο)}
    {steps' : List (Step ν ο)} (hrun : Maker.run m cs = .ok steps)
    (hrun' : Maker.run k cs = .ok steps') :
    List.Forall₂ (fun step step' => S step.maker step'.maker ∧ step.Agrees Same step')
      steps steps' := by
  induction cs generalizing m k steps steps' with
  | nil =>
    obtain rfl := Except.ok.inj hrun
    obtain rfl := Except.ok.inj hrun'
    exact .nil
  | cons c cs ih =>
    obtain ⟨step, rest, hstep, hrest, rfl⟩ := Maker.run_cons_eq_ok_iff.1 hrun
    obtain ⟨step', rest', hstep', hrest', rfl⟩ := Maker.run_cons_eq_ok_iff.1 hrun'
    have hfirst := hcall h hstep hstep'
    exact .cons hfirst (ih hfirst.1 hrest hrest')

end SideBySide

/-! ## Candidates of one activity -/

namespace Candidate

/-- Two candidates with the same inputs, filed alike. Where they end is left open. -/
structure FiledAlike (o o' : Candidate) : Prop where
  inputs : o.inputs = o'.inputs
  timeStart : o.timeStart = o'.timeStart
  timeCandidate : o.timeCandidate = o'.timeCandidate
  detid : o.detid = o'.detid
  regions : o.regions = o'.regions

/-- Two candidates that are filed alike and end at the same time. -/
structure SpanAlike (o o' : Candidate) : Prop extends FiledAlike o o' where
  timeEnd : o.timeEnd = o'.timeEnd

end Candidate

variable {a : Activity}

theorem Bundler.candidate_spanAlike (a : Activity) :
    (Candidate.ofActivity a).SpanAlike (candidate a []) :=
  ⟨⟨rfl, rfl, rfl, rfl, rfl⟩, rfl⟩

/-- Without a margin before it, a candidate begins with its activity. -/
theorem Grouping.record_filedAlike {g : Grouping} (hbefore : g.settings.readoutBefore = 0)
    {o : Candidate} (h : g.record? [a] = some o) : (Candidate.ofActivity a).FiledAlike o := by
  obtain ⟨htimes, hfields⟩ := times_of_record h
  have hstart : o.timeStart = a.timeStart := by
    apply Int64.toInt_inj.1
    rw [htimes.timeStart, hbefore, Int64.toInt_zero, Int.sub_zero]
  rw [hfields, hstart]
  exact ⟨rfl, rfl, rfl, rfl, rfl⟩

/-! ## Bundles of one activity -/

namespace Prescaler

variable {m : Prescaler Activity} {c : Call Activity}

/-- A bundler of bundles of one, with as many complete bundles as the prescaler has inputs. -/
structure LevelWithBundler (m : Prescaler Activity) (k : Bundler) : Prop where
  bundleSize : k.bundleSize = 1
  prescale : k.prescale = m.prescale
  pending : k.pending = []
  completed : k.completed = m.statistics.inputs
  statistics : k.statistics = m.statistics

theorem LevelWithBundler.call {k : Bundler} (h : m.LevelWithBundler k)
    {step : Step (Prescaler Activity) Candidate} {step' : Step Bundler Candidate}
    (hstep : Maker.call m c = .ok step) (hstep' : Maker.call k c = .ok step') :
    step.maker.LevelWithBundler step'.maker ∧ step.Agrees Candidate.SpanAlike step' := by
  cases c with
  | flush =>
    obtain rfl := Except.ok.inj hstep
    obtain rfl := Except.ok.inj hstep'
    exact ⟨⟨h.bundleSize, h.prescale, rfl, h.completed, h.statistics⟩, .nil, h.statistics.symm⟩
  | process a =>
    have hkeeps : m.keeps = true ↔ k.completed % k.prescale = 0 := by
      rw [h.completed, h.prescale, keeps, decide_eq_true_iff]
    -- The activity alone is a complete bundle.
    have hbundle : k.pending ++ [a] = [a] := by rw [h.pending, List.nil_append]
    have hcompleted : k.completed + 1 = m.statistics.inputs + 1 := by rw [h.completed]
    cases Bundler.processed_of_process hstep' with
    | collected hroom =>
      rw [hbundle, h.bundleSize] at hroom
      exact absurd hroom (Nat.lt_irrefl 1)
    | dropped _ hprescale =>
      have hdrop : (k.statistics.hear.fire none).drop = (m.statistics.hear.fire none).drop := by
        rw [h.statistics]
      cases processed_of_process hstep with
      | kept hkept => exact absurd (hkeeps.1 hkept) hprescale
      | dropped =>
        exact ⟨⟨h.bundleSize, h.prescale, rfl, hcompleted, hdrop⟩, .nil, hdrop.symm⟩
    | made _ hprescale hone =>
      have hemit : (k.statistics.hear.fire none).emit = (m.statistics.hear.fire none).emit := by
        rw [h.statistics]
      obtain ⟨rfl, rfl⟩ := List.cons.inj (hbundle.symm.trans hone)
      cases processed_of_process hstep with
      | dropped hdropped => exact absurd (hkeeps.2 hprescale) (Bool.eq_false_iff.1 hdropped)
      | kept _ hpromote =>
        obtain rfl := Except.ok.inj hpromote
        exact ⟨⟨h.bundleSize, h.prescale, rfl, hcompleted, hemit⟩,
          .cons (Bundler.candidate_spanAlike _) .nil, hemit.symm⟩

end Prescaler

/-! ## Groupings without conditions -/

/-- Settings under which a grouping passes every activity through, with nothing read out before
    it. The thresholds, the window length and what is read out after it are left open. -/
structure Settings.PassesThrough (s : Settings) : Prop where
  adc : s.triggerOnAdc = false
  channels : s.triggerOnChannels = false
  adjacency : s.triggerOnAdjacency = false
  before : s.readoutBefore = 0

theorem Settings.PassesThrough.passthrough {s : Settings} (h : s.PassesThrough) :
    ({ settings := s } : Grouping).passthrough = true := by
  simp [Grouping.passthrough, h.adc, h.channels, h.adjacency]

/-- What becomes of an activity that is passed through. -/
inductive Grouping.Passed (k : Windowed Grouping Activity) (a : Activity) :
    Step (Windowed Grouping Activity) Candidate → Prop
  /-- The prescale drops it. -/
  | dropped {events : Except Fault (List Event)} {notices : List Notice}
      (hprescale : ¬ k.passesNext) :
      Passed k a {
        maker := { k with window := .empty, statistics := (k.statistics.hear.fire none).drop }
        events
        notices }
  /-- It becomes a candidate. -/
  | made {o : Candidate} {events : Except Fault (List Event)} {notices : List Notice}
      (hprescale : k.passesNext) (hrecord : k.policy.record? [a] = some o) :
      Passed k a {
        maker := { k with window := .empty, statistics := (k.statistics.hear.fire none).emit }
        outputs := [o]
        events
        notices }

theorem Grouping.passed_of_process {k : Windowed Grouping Activity}
    (hpass : k.policy.settings.PassesThrough) (hempty : k.window.inputs = []) {a : Activity}
    {step : Step (Windowed Grouping Activity) Candidate} (hstep : k.process a = .ok step) :
    Passed k a step := by
  cases Windowed.processed_of_process hstep with
  | seeded _ hwindowed => cases hwindowed.symm.trans hpass.passthrough
  | admitted hinputs => exact absurd hempty hinputs
  | fired hinputs => exact absurd hempty hinputs
  | slid hinputs => exact absurd hempty hinputs
  | @passed w e _ _ hwindow hemitted =>
    obtain ⟨hsound, hinputs⟩ := Window.Sound.of_reset hwindow
    have hone : w.inputs ≠ [] := by
      rw [hinputs]
      exact List.cons_ne_nil a []
    obtain ⟨statistics, output?, events, notices⟩ := e
    cases hemitted with
    | dropped hprescale hstatistics houtput =>
      obtain rfl : statistics = _ := hstatistics
      obtain rfl : output? = none := houtput
      exact .dropped hprescale
    | void _ hconstruct =>
      -- A window with an activity in it becomes a candidate or stops the maker.
      rcases candidate_cases k.policy hsound.consistent hone with ⟨o, hmade, -⟩ | ⟨_, hstop, -, -⟩
      · cases Except.ok.inj (hconstruct.symm.trans hmade)
      · exact (Checked.false_of_ok_error hconstruct hstop).elim
    | made hprescale hconstruct hstatistics houtput =>
      obtain rfl : statistics = _ := hstatistics
      obtain rfl : output? = some _ := houtput
      rcases candidate_cases k.policy hsound.consistent hone with
        ⟨o, hmade, hrecord⟩ | ⟨_, hstop, -, -⟩
      · obtain rfl := Option.some.inj (Except.ok.inj (hconstruct.symm.trans hmade))
        exact .made hprescale (hinputs ▸ hrecord)
      · exact (Checked.false_of_ok_error hconstruct hstop).elim

namespace Prescaler

variable {m : Prescaler Activity} {c : Call Activity}

/-- A grouping with an empty window, and with as many triggers as the prescaler has inputs. -/
structure LevelWithGrouping (m : Prescaler Activity) (k : Windowed Grouping Activity) : Prop where
  passes : k.policy.settings.PassesThrough
  prescale : k.policy.settings.prescale = m.prescale
  prescale_pos : 0 < m.prescale
  window : k.window = .empty
  fired : k.statistics.fired = m.statistics.inputs
  statistics : k.statistics = m.statistics

theorem LevelWithGrouping.keeps_iff {k : Windowed Grouping Activity} (h : m.LevelWithGrouping k) :
    m.keeps = true ↔ k.passesNext := by
  -- The guard against a prescale of zero does nothing here.
  have hmax : max k.policy.settings.prescale 1 = m.prescale := by
    have hpos := h.prescale_pos
    rw [h.prescale]
    omega
  show _ ↔ k.statistics.fired % max k.policy.settings.prescale 1 = 0
  rw [hmax, h.fired, keeps, decide_eq_true_iff]

theorem LevelWithGrouping.call {k : Windowed Grouping Activity} (h : m.LevelWithGrouping k)
    {step : Step (Prescaler Activity) Candidate}
    {step' : Step (Windowed Grouping Activity) Candidate}
    (hstep : Maker.call m c = .ok step) (hstep' : Maker.call k c = .ok step') :
    step.maker.LevelWithGrouping step'.maker ∧ step.Agrees Candidate.FiledAlike step' := by
  have hempty : k.window.inputs = [] := congrArg Window.inputs h.window
  cases c with
  | flush =>
    obtain rfl := Except.ok.inj hstep
    cases Windowed.flushed_of_flush hstep' with
    | idle => exact ⟨h, .nil, h.statistics.symm⟩
    | left hinputs => exact absurd hempty hinputs
    | fired hinputs => exact absurd hempty hinputs
  | process a =>
    have hfired : k.statistics.fired + 1 = m.statistics.inputs + 1 := by rw [h.fired]
    cases Grouping.passed_of_process h.passes hempty hstep' with
    | dropped hprescale =>
      have hdrop : (k.statistics.hear.fire none).drop = (m.statistics.hear.fire none).drop := by
        rw [h.statistics]
      cases processed_of_process hstep with
      | kept hkept => exact absurd (h.keeps_iff.1 hkept) hprescale
      | dropped =>
        exact ⟨⟨h.passes, h.prescale, h.prescale_pos, rfl, hfired, hdrop⟩, .nil, hdrop.symm⟩
    | made hprescale hrecord =>
      have hemit : (k.statistics.hear.fire none).emit = (m.statistics.hear.fire none).emit := by
        rw [h.statistics]
      cases processed_of_process hstep with
      | dropped hdropped =>
        exact absurd (h.keeps_iff.2 hprescale) (Bool.eq_false_iff.1 hdropped)
      | kept _ hpromote =>
        obtain rfl := Except.ok.inj hpromote
        exact ⟨⟨h.passes, h.prescale, h.prescale_pos, rfl, hfired, hemit⟩,
          .cons (Grouping.record_filedAlike h.passes.before hrecord) .nil, hemit.symm⟩

end Prescaler

/-! ## All three -/

/-- What holds of the calls on the three makers, which are handed the same activities. -/
structure PassAlike (kept : List (Step (Prescaler Activity) Candidate))
    (bundled : List (Step Bundler Candidate))
    (grouped : List (Step (Windowed Grouping Activity) Candidate)) : Prop where
  span : List.Forall₂ (Step.Agrees Candidate.SpanAlike) kept bundled
  filed : List.Forall₂ (Step.Agrees Candidate.FiledAlike) kept grouped
  /-- Between calls the window of the grouping is empty. -/
  window : ∀ step ∈ grouped, step.maker.window = .empty

/-- Where every number of the grouping fits its word, the three makers go through, and each call
    comes to the same on all of them. -/
theorem pass_throughs_agree (s : Settings) (hs : s.validate = .ok ()) (hpass : s.PassesThrough)
    (cs : List (Call Activity))
    (hfits : ({ policy := { settings := s } } : Reference Grouping Activity).FitsAll cs) :
    ∃ (kept : List (Step (Prescaler Activity) Candidate)) (bundled : List (Step Bundler Candidate))
      (grouped : List (Step (Windowed Grouping Activity) Candidate)),
      Maker.run ({ prescale := s.prescale } : Prescaler Activity) cs = .ok kept ∧
      Maker.run ({ bundleSize := 1, prescale := s.prescale } : Bundler) cs = .ok bundled ∧
      Maker.run ({ policy := { settings := s } } : Windowed Grouping Activity) cs = .ok grouped ∧
      PassAlike kept bundled grouped := by
  have hpromote : ∀ a ∈ Call.inputs cs, ∃ o : Candidate, Promotable.promote a = .ok o :=
    fun a _ => ⟨Candidate.ofActivity a, rfl⟩
  obtain ⟨kept, hkept⟩ :=
    ({ prescale := s.prescale } : Prescaler Activity).goesThrough hpromote
  obtain ⟨bundled, hbundled⟩ :=
    ({ bundleSize := 1, prescale := s.prescale } : Bundler).goesThrough cs
  have hvalid : (Policy.settings ({ settings := s } : Grouping)).validate = .ok () := hs
  obtain ⟨grouped, hgrouped⟩ := ((refines_of_validate hvalid).goesThrough cs).2 hfits
  refine ⟨kept, bundled, grouped, hkept, hbundled, hgrouped, ?_⟩
  have hbundler : ({ prescale := s.prescale } : Prescaler Activity).LevelWithBundler
      { bundleSize := 1, prescale := s.prescale } := ⟨rfl, rfl, rfl, rfl, rfl⟩
  have hgrouping : ({ prescale := s.prescale } : Prescaler Activity).LevelWithGrouping
      { policy := { settings := s } } :=
    ⟨hpass, rfl, Nat.pos_of_ne_zero (Settings.validate_eq_ok_iff.1 hs).1, rfl, rfl, rfl⟩
  have hspan := Maker.run_agrees (fun h => h.call) hbundler hkept hbundled
  have hfiled := Maker.run_agrees (fun h => h.call) hgrouping hkept hgrouped
  refine ⟨hspan.imp fun _ _ h => h.2, hfiled.imp fun _ _ h => h.2, ?_⟩
  have hwindow : List.Forall₂ (fun step' _ => step'.maker.window = .empty ∧ True) grouped kept :=
    .flip (hfiled.imp fun _ _ h => ⟨h.1.window, trivial⟩)
  exact ((List.forall₂_and_left _ _).1 hwindow).1

/-- Of three activities that are delivered out of order, the first and the last are kept by all
    three makers. The candidates of the grouping end with a primitive. -/
theorem first_and_third_pass :
    let s : Settings := { Settings.forCandidates with prescale := 2, windowLength := 10 }
    let hit (t : Ticks) (d : DetId) : Activity :=
      { timeStart := t, timeEnd := t + 5, detid := d,
        inputs := [{ timeStart := t, timeOverThreshold := 9 }] }
    let cs : List (Call Activity) :=
      [.process (hit 30 7), .flush, .process (hit 10 3), .process (hit 20 1)]
    s.validate = .ok () ∧ s.PassesThrough ∧
      ({ policy := { settings := s } } : Reference Grouping Activity).FitsAll cs ∧
      ∃ kept bundled grouped, PassAlike kept bundled grouped ∧
        (Maker.outputs kept).map (·.timeEnd) = [35, 25] ∧
        (Maker.outputs grouped).map (·.timeEnd) = [39, 29] := by
  intro s hit cs
  have hs : s.validate = .ok () := Settings.validate_eq_ok_iff.2 (by decide)
  have hpass : s.PassesThrough := ⟨rfl, rfl, rfl, rfl⟩
  have hvalid : (Policy.settings ({ settings := s } : Grouping)).validate = .ok () := hs
  have hkeptEnds : (Maker.run (ο := Candidate) ({ prescale := s.prescale } : Prescaler Activity)
      cs).toOption.map (fun steps => (Maker.outputs steps).map (·.timeEnd)) = some [35, 25] := by
    decide
  have hgroupedEnds : (Maker.run (ο := Candidate)
      ({ policy := { settings := s } } : Windowed Grouping Activity)
      cs).toOption.map (fun steps => (Maker.outputs steps).map (·.timeEnd)) = some [39, 29] := by
    decide +kernel
  have hgoes : ∃ steps : List (Step (Windowed Grouping Activity) Candidate),
      Maker.run { policy := { settings := s } } cs = .ok steps := by
    match hrun : Maker.run (ο := Candidate)
      ({ policy := { settings := s } } : Windowed Grouping Activity) cs with
    | .ok steps => exact ⟨steps, rfl⟩
    | .error fault =>
      rw [hrun] at hgroupedEnds
      cases hgroupedEnds
  have hfits := ((refines_of_validate hvalid).goesThrough cs).1 hgoes
  obtain ⟨kept, bundled, grouped, hkept, -, hgrouped, hpassed⟩ :=
    pass_throughs_agree s hs hpass cs hfits
  rw [hkept] at hkeptEnds
  rw [hgrouped] at hgroupedEnds
  exact ⟨hs, hpass, hfits, kept, bundled, grouped, hpassed, Option.some.inj hkeptEnds,
    Option.some.inj hgroupedEnds⟩

end TriggerChain
