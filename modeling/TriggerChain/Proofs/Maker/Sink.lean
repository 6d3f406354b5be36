import Mathlib.Algebra.Ring.Int.Defs
import Mathlib.Data.List.Infix
import TriggerChain.Maker.Recorded
import TriggerChain.Proofs.Maker.Lawful
import TriggerChain.Proofs.Maker.Steps

/-!
# What an attached sink changes

A sink is told of every window that becomes an output, and the record of the window has one
number that nothing else needs: the summed time over threshold of its elements. Where this sum
fits its word, at every step of the summation, a call with a sink in memory returns what the
call without a sink returns, and leaves the same maker. Where the sum does not fit, the call with
the sink stops and the call without goes on.

Main statements: `sink_stops_only_where_sums_overflow` for every sequence of calls, and
`sink_stops_a_run`, two hits that make an activity without a sink and a fault with one.
-/

namespace TriggerChain

/-! ## Sums of times over threshold -/

/-- Every partial sum of some integers fits a tick count. -/
def Ticks.SumsFit (is : List Int) : Prop := ∀ pre, pre <+: is → Fits pre.sum

instance (is : List Int) : Decidable (Ticks.SumsFit is) :=
  decidable_of_iff (∀ pre ∈ is.inits, Ticks.Fits pre.sum)
    (forall_congr' fun pre => imp_congr_left (List.mem_inits pre is))

/-- A checked number is the exact one where it fits, and an overflow where not. -/
def Ticks.Exactly (result : Except Fault Ticks) (exact : Int) (fits : Prop) : Prop :=
  (∃ t, result = .ok t ∧ t.toInt = exact ∧ fits) ∨ (result = .error .sumOverflow ∧ ¬ fits)

/-- Checked numbers are summed up exactly if each of them and each partial sum fits. -/
theorem Ticks.exactly_foldlM {α : Type} {f : α → Except Fault Ticks} {exact : α → Int}
    {fits : α → Prop} (hf : ∀ a, Exactly (f a) (exact a) (fits a)) (start : Ticks)
    (as : List α) :
    Exactly (as.foldlM (fun sum a => do sum.plus (← f a)) start)
      (start.toInt + (as.map exact).sum)
      ((∀ a ∈ as, fits a) ∧ ∀ pre, pre <+: as → Fits (start.toInt + (pre.map exact).sum)) := by
  induction as generalizing start with
  | nil =>
    refine .inl ⟨start, rfl, (Int.add_zero _).symm, by simp, ?_⟩
    intro pre hpre
    rw [List.prefix_nil.1 hpre]
    simpa using start.fits_toInt
  | cons a as ih =>
    rw [List.foldlM_cons]
    rcases hf a with ⟨t, ht, hexact, hfits⟩ | ⟨herr, hunfit⟩
    · rcases start.plus_cases t with ⟨sum, hsum, hsum'⟩ | ⟨herr, hnone⟩
      · have htotal : sum.toInt = start.toInt + exact a := by
          rw [← hexact]
          exact Ticks.plus_eq_ok_iff.1 hsum
        -- The partial sums are those from the first sum on, and the start.
        have hpartial : (∀ pre, pre <+: a :: as → Fits (start.toInt + (pre.map exact).sum)) ↔
            ∀ pre, pre <+: as → Fits (sum.toInt + (pre.map exact).sum) := by
          constructor
          · intro h pre hpre
            have := h (a :: pre) (List.cons_prefix_cons.2 ⟨rfl, hpre⟩)
            rwa [List.map_cons, List.sum_cons, ← Int.add_assoc, ← htotal] at this
          · intro h pre hpre
            rcases List.prefix_cons_iff.1 hpre with rfl | ⟨rest, rfl, hrest⟩
            · simpa using start.fits_toInt
            · rw [List.map_cons, List.sum_cons, ← Int.add_assoc, ← htotal]
              exact h rest hrest
        have hgoal := ih sum
        rw [ht]
        show Exactly (start.plus t >>= _) _ _
        rw [hsum, hpartial, List.forall_mem_cons, List.map_cons, List.sum_cons, ← Int.add_assoc,
          ← htotal, and_iff_right hfits]
        exact hgoal
      · rw [ht]
        show Exactly (start.plus t >>= _) _ _
        rw [herr]
        refine .inr ⟨rfl, fun h => ?_⟩
        have := h.2 [a] (List.cons_prefix_cons.2 ⟨rfl, List.nil_prefix⟩)
        rw [List.map_singleton, List.sum_singleton, ← hexact] at this
        rw [Ticks.ofInt?, if_pos this] at hnone
        cases hnone
    · rw [herr]
      exact .inr ⟨rfl, fun h => hunfit (h.1 a List.mem_cons_self)⟩

theorem Ticks.sumsFit_map_iff {α : Type} {exact : α → Int} {as : List α} :
    SumsFit (as.map exact) ↔ ∀ pre, pre <+: as → Fits (pre.map exact).sum := by
  constructor
  · exact fun h pre hpre => h _ (hpre.map exact)
  · intro h is his
    obtain ⟨pre, hpre, rfl⟩ := List.prefix_map_iff.1 his
    exact h pre hpre

theorem Ticks.exactly_sum {α : Type} {f : α → Except Fault Ticks} {exact : α → Int}
    {fits : α → Prop} (hf : ∀ a, Exactly (f a) (exact a) (fits a)) (as : List α) :
    Exactly (as.foldlM (fun sum a => do sum.plus (← f a)) 0) (as.map exact).sum
      ((∀ a ∈ as, fits a) ∧ SumsFit (as.map exact)) := by
  have hsum := exactly_foldlM hf 0 as
  simp only [Int64.toInt_zero, Int.zero_add] at hsum
  rwa [sumsFit_map_iff]

theorem Ticks.exactly_total (ts : List Ticks) :
    Exactly (total ts) (ts.map Int64.toInt).sum (SumsFit (ts.map Int64.toInt)) := by
  have hone : ∀ t : Ticks, Exactly (.ok t) t.toInt True := fun t => .inl ⟨t, rfl, rfl, trivial⟩
  have htotal : total ts = ts.foldlM (fun sum t => do sum.plus (← .ok t)) 0 := rfl
  have hsum := exactly_sum hone ts
  rw [htotal]
  simpa only [implies_true, true_and] using hsum

/-- Elements whose time over threshold is a sum of exact numbers. -/
class Summed (τ : Type) [Element τ] where
  /-- The times over threshold of the primitives of an element, exactly. -/
  tots : τ → List Int
  /-- Their sum is what the element says. -/
  exactly : ∀ x, Ticks.Exactly (Element.totSum x) (tots x).sum (Ticks.SumsFit (tots x))

instance : Summed Primitive where
  tots p := [p.timeOverThreshold.toInt]
  exactly p := by
    refine .inl ⟨p.timeOverThreshold, rfl, (Int.add_zero _).symm, ?_⟩
    intro pre hpre
    rcases List.prefix_cons_iff.1 hpre with rfl | ⟨rest, rfl, hrest⟩
    · exact ⟨by decide, by decide⟩
    · rw [List.prefix_nil.1 hrest, List.sum_singleton]
      exact p.timeOverThreshold.fits_toInt

instance : Summed Activity where
  tots a := (a.inputs.map (·.timeOverThreshold)).map Int64.toInt
  exactly _ := Ticks.exactly_total _

/-- The summed time over threshold of some elements fits at every step of the summation: that of
    each element, and that of each number of first elements. -/
def TotFits {τ : Type} [Element τ] [Summed τ] (xs : List τ) : Prop :=
  (∀ x ∈ xs, Ticks.SumsFit (Summed.tots x)) ∧
    Ticks.SumsFit (xs.map fun x => (Summed.tots x).sum)

instance {τ : Type} [Element τ] [Summed τ] (xs : List τ) : Decidable (TotFits xs) :=
  inferInstanceAs (Decidable (_ ∧ _))

theorem exactly_totSumOf {τ : Type} [Element τ] [Summed τ] (xs : List τ) :
    Ticks.Exactly (totSumOf xs) (xs.map fun x => (Summed.tots x).sum).sum (TotFits xs) :=
  Ticks.exactly_sum Summed.exactly xs

/-! ## Sinks in memory -/

namespace Recorded

theorem recordAll_memory (events : Array Event) (more : List Event) :
    (Sink.memory events).recordAll more = (.memory (events ++ more), .ok ()) := by
  induction more generalizing events with
  | nil => simp [Sink.recordAll]
  | cons e more ih =>
    show (Sink.memory (events.push e)).recordAll more = _
    rw [ih]
    simp

variable {μ ι ο : Type} [Maker μ ι ο]

/-- A maker with a sink in memory that was told of some events already. -/
def watched (m : μ) (events : Array Event) : Recorded μ :=
  { maker := m, sink := some (.memory events) }

/-- What a sink is told before a call. -/
def heardAt (m : μ) : Call ι → List Event
  | .process x => Maker.heard m x
  | .flush => []

/-- A call with a sink in memory is the call on the maker, if what the sink is told of it can be
    put together. -/
theorem call_memory (m : μ) (events : Array Event) (c : Call ι) :
    Maker.call (watched m events) c =
      (Maker.call m c).bind fun step => step.events.map fun told =>
        { maker := watched step.maker (events ++ heardAt m c ++ told)
          outputs := step.outputs
          events := .ok (heardAt m c ++ told)
          notices := (heardAt m c).filterMap Event.notice? ++ step.notices } := by
  have hcall : ∀ (heard : List Event) (result : Except Fault (Step μ ο)),
      (callWith (.memory events) heard result).2 =
        result.bind fun step => step.events.map fun told =>
          { maker := watched step.maker (events ++ heard ++ told)
            outputs := step.outputs
            events := .ok (heard ++ told)
            notices := heard.filterMap Event.notice? ++ step.notices } := by
    intro heard result
    unfold callWith
    rw [recordAll_memory]
    cases result with
    | error fault => rfl
    | ok step =>
      cases htold : step.events with
      | error fault => simp [htold, Except.bind, Except.map]
      | ok told => simp [htold, recordAll_memory, watched, Except.bind, Except.map]
  cases c with
  | process x => exact hcall (Maker.heard m x) (Maker.process m x)
  | flush => exact hcall [] (Maker.flush m)

/-- How a call with a sink in memory can end. -/
inductive CallEnds (m : μ) (events : Array Event) (c : Call ι) : Prop
  /-- The call on the maker stops. -/
  | stopped {fault : Fault} (hcall : Maker.call (ο := ο) m c = .error fault)
      (hrecorded : Maker.call (ο := ο) (watched m events) c = .error fault)
  /-- The call on the maker goes through, and the sink cannot be told of it. -/
  | untold {step : Step μ ο} {fault : Fault} (hcall : Maker.call m c = .ok step)
      (hevents : step.events = .error fault)
      (hrecorded : Maker.call (ο := ο) (watched m events) c = .error fault)
  /-- The call on the maker goes through, and the sink is told of it. -/
  | told {step : Step μ ο} {told : List Event} {more : Array Event}
      {step' : Step (Recorded μ) ο} (hcall : Maker.call m c = .ok step)
      (hevents : step.events = .ok told)
      (hrecorded : Maker.call (watched m events) c = .ok step')
      (houtputs : step'.outputs = step.outputs)
      (hmaker : step'.maker = watched step.maker more)

theorem callEnds (m : μ) (events : Array Event) (c : Call ι) : CallEnds (ο := ο) m events c := by
  have hrecorded := call_memory (ο := ο) m events c
  cases hcall : Maker.call (ο := ο) m c with
  | error fault =>
    rw [hcall] at hrecorded
    exact .stopped hcall hrecorded
  | ok step =>
    rw [hcall, Except.bind] at hrecorded
    cases hevents : step.events with
    | error fault =>
      rw [hevents] at hrecorded
      exact .untold hcall hevents hrecorded
    | ok told =>
      rw [hevents] at hrecorded
      exact .told hcall hevents hrecorded rfl rfl

/-- What a sink is told of some calls can be put together. -/
def AllTold (steps : List (Step μ ο)) : Prop := ∀ step ∈ steps, ∃ told, step.events = .ok told

/-- With a sink in memory, the calls that go through are those that go through without it and
    whose events can be put together; they return the same, and leave the same maker. -/
theorem run_of_memory {m : μ} {events : Array Event} {cs : List (Call ι)}
    {steps' : List (Step (Recorded μ) ο)}
    (h : Maker.run (watched m events) cs = .ok steps') :
    ∃ steps, Maker.run m cs = .ok steps ∧ AllTold steps ∧
      steps'.map (fun s => (s.outputs, s.maker.maker)) =
        steps.map fun s => (s.outputs, s.maker) := by
  induction cs generalizing m events steps' with
  | nil =>
    obtain rfl := Except.ok.inj h
    exact ⟨[], rfl, by simp [AllTold], rfl⟩
  | cons c cs ih =>
    obtain ⟨step', rest', hstep', hrest', rfl⟩ := Maker.run_cons_eq_ok_iff.1 h
    cases callEnds (ο := ο) m events c with
    | stopped _ hrecorded => exact (Checked.false_of_ok_error hstep' hrecorded).elim
    | untold _ _ hrecorded => exact (Checked.false_of_ok_error hstep' hrecorded).elim
    | told hcall hevents hrecorded houtputs hmaker =>
      obtain rfl := Except.ok.inj (hstep'.symm.trans hrecorded)
      rw [hmaker] at hrest'
      obtain ⟨rest, hrest, htold, hagrees⟩ := ih hrest'
      refine ⟨_, Maker.run_cons_eq_ok_iff.2 ⟨_, rest, hcall, hrest, rfl⟩, ?_, ?_⟩
      · exact List.forall_mem_cons.2 ⟨⟨_, hevents⟩, htold⟩
      · rw [List.map_cons, List.map_cons, hagrees, houtputs, hmaker]
        rfl

/-- Where the calls go through without the sink and not with it, the sink cannot be told of one
    of them. -/
theorem untold_of_run {m : μ} {events : Array Event} {cs : List (Call ι)}
    {steps : List (Step μ ο)} {fault : Fault} (h : Maker.run m cs = .ok steps)
    (h' : Maker.run (ο := ο) (watched m events) cs = .error fault) :
    ∃ step ∈ steps, step.events = .error fault := by
  induction cs generalizing m events steps with
  | nil => cases h'
  | cons c cs ih =>
    obtain ⟨step, rest, hstep, hrest, rfl⟩ := Maker.run_cons_eq_ok_iff.1 h
    cases callEnds (ο := ο) m events c with
    | stopped hcall _ => exact (Checked.false_of_ok_error hstep hcall).elim
    | untold hcall hevents hrecorded =>
      obtain rfl := Except.ok.inj (hstep.symm.trans hcall)
      rcases Maker.run_cons_eq_error_iff.1 h' with herr | ⟨step', hstep', -⟩
      · obtain rfl := Except.error.inj (herr.symm.trans hrecorded)
        exact ⟨step, List.mem_cons_self, hevents⟩
      · exact (Checked.false_of_ok_error hstep' hrecorded).elim
    | told hcall hevents hrecorded houtputs hmaker =>
      obtain rfl := Except.ok.inj (hstep.symm.trans hcall)
      rcases Maker.run_cons_eq_error_iff.1 h' with herr | ⟨step', hstep', hrest'⟩
      · exact (Checked.false_of_ok_error hrecorded herr).elim
      · obtain rfl := Except.ok.inj (hstep'.symm.trans hrecorded)
        rw [hmaker] at hrest'
        obtain ⟨untold, hmem, hfault⟩ := ih hrest hrest'
        exact ⟨untold, List.mem_cons_of_mem step hmem, hfault⟩

end Recorded

/-! ## What a windowed maker tells -/

namespace Windowed

variable {π τ ο : Type} [Element τ] [Policy π τ ο] [Cluster ο τ]

/-- What a policy makes of a window has the elements of the window. -/
def KeepsElements (π : Type) {τ ο : Type} [Policy π τ ο] [Cluster ο τ] : Prop :=
  ∀ (p : π) (w : Window τ) (o : ο), Policy.construct p w = .ok (some o) →
    Cluster.elements o = w.inputs

/-- What a sink is told of a call: nothing, or the record of the window that became the only
    output. -/
inductive Tells (step : Step (Windowed π τ) ο) : Prop
  | nothing (houtputs : step.outputs = []) (hevents : step.events = .ok [])
  | window {output : ο} {m : Windowed π τ} {fired : Fired} (houtputs : step.outputs = [output])
      (helements : Cluster.elements output = m.window.inputs)
      (hevents : step.events = m.eventsOf fired)

theorem Tells.of_emitted (hkeeps : KeepsElements π) {m : Windowed π τ} {fired : Fired}
    {e : Emission ο} (h : Emitted m fired e) (m' : Windowed π τ) : Tells (e.step m') := by
  cases h with
  | dropped _ _ houtput hevents => exact .nothing (congrArg Option.toList houtput) hevents
  | void _ _ _ houtput hevents => exact .nothing (congrArg Option.toList houtput) hevents
  | made _ hconstruct _ houtput hevents =>
    exact .window (congrArg Option.toList houtput) (hkeeps _ _ _ hconstruct) hevents

theorem Tells.of_call (hkeeps : KeepsElements π) {m : Windowed π τ} {c : Call τ}
    {step : Step (Windowed π τ) ο} (h : Maker.call m c = .ok step) : Tells step := by
  cases c with
  | process x =>
    cases processed_of_process h with
    | seeded => exact .nothing rfl rfl
    | passed _ _ _ hemitted => exact .of_emitted hkeeps hemitted _
    | admitted => exact .nothing rfl rfl
    | fired _ _ _ hemitted => exact .of_emitted hkeeps hemitted _
    | slid => exact .nothing rfl rfl
  | flush =>
    cases flushed_of_flush h with
    | idle => exact .nothing rfl rfl
    | left => exact .nothing rfl rfl
    | fired _ _ hemitted => exact .of_emitted hkeeps hemitted _

variable [Summed τ]

omit [Cluster ο τ] in
/-- A sink can be told of a window exactly if the summed time over threshold fits. -/
theorem eventsOf_cases (m : Windowed π τ) (fired : Fired) :
    ((∃ told, m.eventsOf fired = .ok told) ∧ TotFits m.window.inputs) ∨
      (m.eventsOf fired = .error .sumOverflow ∧ ¬ TotFits m.window.inputs) := by
  unfold eventsOf Window.record
  rcases exactly_totSumOf m.window.inputs with ⟨t, ht, -, hfits⟩ | ⟨herr, hunfit⟩
  · rw [ht]
    exact .inl ⟨⟨_, rfl⟩, hfits⟩
  · rw [herr]
    exact .inr ⟨rfl, hunfit⟩

theorem Tells.cases {step : Step (Windowed π τ) ο} (h : Tells step) :
    ((∃ told, step.events = .ok told) ∧ ∀ o ∈ step.outputs, TotFits (Cluster.elements o)) ∨
      (step.events = .error .sumOverflow ∧
        ∃ o ∈ step.outputs, ¬ TotFits (Cluster.elements o)) := by
  cases h with
  | nothing houtputs hevents =>
    rw [houtputs]
    exact .inl ⟨⟨[], hevents⟩, by simp⟩
  | window houtputs helements hevents =>
    rename_i m fired
    rw [houtputs, hevents, List.forall_mem_singleton, helements]
    rcases m.eventsOf_cases fired with htold | ⟨herr, hunfit⟩
    · exact .inl htold
    · exact .inr ⟨herr, _, List.mem_singleton.2 rfl, helements ▸ hunfit⟩

omit [Summed τ] in
theorem tells_run (hkeeps : KeepsElements π) {m : Windowed π τ} {cs : List (Call τ)}
    {steps : List (Step (Windowed π τ) ο)} (h : Maker.run m cs = .ok steps) :
    ∀ step ∈ steps, Tells step := by
  induction cs generalizing m steps with
  | nil =>
    obtain rfl := Except.ok.inj h
    simp
  | cons c cs ih =>
    obtain ⟨step, rest, hstep, hrest, rfl⟩ := Maker.run_cons_eq_ok_iff.1 h
    exact List.forall_mem_cons.2 ⟨.of_call hkeeps hstep, ih hrest⟩

/-- A sink can be told of a run exactly if the summed time over threshold of every output fits. -/
theorem allTold_iff (hkeeps : KeepsElements π) {m : Windowed π τ} {cs : List (Call τ)}
    {steps : List (Step (Windowed π τ) ο)} (h : Maker.run m cs = .ok steps) :
    Recorded.AllTold steps ↔ ∀ o ∈ Maker.outputs steps, TotFits (Cluster.elements o) := by
  have hstep : ∀ step ∈ steps, ((∃ told, step.events = .ok told) ↔
      ∀ o ∈ step.outputs, TotFits (Cluster.elements o)) := by
    intro step hmem
    rcases (tells_run hkeeps h step hmem).cases with ⟨htold, hfits⟩ | ⟨herr, o, ho, hunfit⟩
    · exact ⟨fun _ => hfits, fun _ => htold⟩
    · refine ⟨?_, fun hfits => absurd (hfits o ho) hunfit⟩
      rintro ⟨told, hok⟩
      exact (Checked.false_of_ok_error hok herr).elim
  constructor
  · intro htold o ho
    obtain ⟨step, hmem, ho⟩ := List.mem_flatMap.1 ho
    exact (hstep step hmem).1 (htold step hmem) o ho
  · intro hfits step hmem
    exact (hstep step hmem).2 fun o ho => hfits o (List.mem_flatMap.2 ⟨step, hmem, ho⟩)

end Windowed

/-! ## The policies -/

theorem elements_of_activity {w : Window Primitive} {algorithm : ActivityAlgorithm}
    {endIncludesTot : Bool} {a : Activity}
    (h : w.activity algorithm endIncludesTot = .ok (some a)) : a.inputs = w.inputs := by
  cases hinputs : w.inputs with
  | nil =>
    rw [Window.activity, hinputs] at h
    cases h
  | cons first rest =>
    rw [activity_of_cons hinputs] at h
    -- Whatever the end of the activity is, its primitives are those of the window.
    generalize (if endIncludesTot = true then (rest.getLastD first).timeEnd
      else .ok (rest.getLastD first).timeStart) = timeEnd at h
    cases timeEnd with
    | error fault => cases h
    | ok timeEnd =>
      obtain rfl := Option.some.inj (Except.ok.inj h)
      rfl

theorem Geometry.keepsElements : Windowed.KeepsElements Geometry :=
  fun _ _ _ h => elements_of_activity h

theorem Shape.keepsElements : Windowed.KeepsElements Shape :=
  fun _ _ _ h => elements_of_activity h

theorem Grouping.keepsElements : Windowed.KeepsElements Grouping := by
  intro g w c h
  change g.construct w = _ at h
  unfold Grouping.construct at h
  split at h
  · cases h
  · obtain ⟨lastEnd, -, h⟩ := Checked.bind_eq_ok_iff.1 h
    obtain ⟨timeStart, -, h⟩ := Checked.bind_eq_ok_iff.1 h
    obtain ⟨timeEnd, -, h⟩ := Checked.bind_eq_ok_iff.1 h
    obtain rfl := Option.some.inj (Except.ok.inj h)
    rfl

/-! ## With a sink and without -/

section Attached

variable {π τ ο : Type} [Element τ] [Policy π τ ο]

/-- What a sink in memory changes for the maker of a policy: nothing, except that it stops where
    the summed time over threshold of an output does not fit. -/
structure ChangesOnlySums [Cluster ο τ] [Summed τ] (p : π) : Prop where
  /-- A sequence of calls goes through with the sink exactly if it goes through without, and the
      sum of every output fits. -/
  goesThrough : ∀ events cs,
    (∃ steps, Maker.run (Recorded.watched ({ policy := p } : Windowed π τ) events) cs =
        .ok steps) ↔
      ∃ steps, Maker.run ({ policy := p } : Windowed π τ) cs = .ok steps ∧
        ∀ o ∈ Maker.outputs steps, TotFits (Cluster.elements o)
  /-- The outputs agree call by call, and so do the counters and the window after each call. -/
  agrees : ∀ events cs steps steps',
    Maker.run (Recorded.watched ({ policy := p } : Windowed π τ) events) cs = .ok steps' →
    Maker.run ({ policy := p } : Windowed π τ) cs = .ok steps →
    steps'.map (fun s => (s.outputs, s.maker.maker.statistics, s.maker.maker.window)) =
      steps.map fun s => (s.outputs, s.maker.statistics, s.maker.window)
  /-- Where the sink stops calls that go through without it, a sum overflows. -/
  stops : ∀ events cs steps fault,
    Maker.run (Recorded.watched ({ policy := p } : Windowed π τ) events) cs = .error fault →
    Maker.run ({ policy := p } : Windowed π τ) cs = .ok steps → fault = .sumOverflow

theorem changesOnlySums_of_keepsElements [Cluster ο τ] [Summed τ]
    (hkeeps : Windowed.KeepsElements π) (p : π) : ChangesOnlySums p := by
  refine ⟨fun events cs => ⟨?_, ?_⟩, ?_, ?_⟩
  · rintro ⟨steps', hrun'⟩
    obtain ⟨steps, hrun, htold, -⟩ := Recorded.run_of_memory hrun'
    exact ⟨steps, hrun, (Windowed.allTold_iff hkeeps hrun).1 htold⟩
  · rintro ⟨steps, hrun, hfits⟩
    cases hrun' : Maker.run (Recorded.watched ({ policy := p } : Windowed π τ) events) cs with
    | ok steps' => exact ⟨steps', rfl⟩
    | error fault =>
      -- Only a call that the sink cannot be told of could have stopped.
      obtain ⟨step, hmem, hfault⟩ := Recorded.untold_of_run hrun hrun'
      obtain ⟨told, hok⟩ := (Windowed.allTold_iff hkeeps hrun).2 hfits step hmem
      exact (Checked.false_of_ok_error hok hfault).elim
  · intro events cs steps steps' hrun' hrun
    obtain ⟨steps₁, hrun₁, -, hagrees⟩ := Recorded.run_of_memory hrun'
    obtain rfl := Except.ok.inj (hrun₁.symm.trans hrun)
    have hparts := congrArg (List.map fun s : List ο × Windowed π τ =>
      (s.1, s.2.statistics, s.2.window)) hagrees
    rwa [List.map_map, List.map_map] at hparts
  · intro events cs steps fault hrun' hrun
    obtain ⟨step, hmem, hfault⟩ := Recorded.untold_of_run hrun hrun'
    rcases (Windowed.tells_run hkeeps hrun step hmem).cases with ⟨⟨told, hok⟩, -⟩ | ⟨herr, -⟩
    · exact (Checked.false_of_ok_error hok hfault).elim
    · exact Except.error.inj (hfault.symm.trans herr)

end Attached

/-- Whatever the settings are, a sink in memory changes nothing for a windowed maker, except that
    it stops where the summed time over threshold of an output does not fit. -/
theorem sink_stops_only_where_sums_overflow (s : Settings) :
    ChangesOnlySums (Geometry.horizontal s) ∧ ChangesOnlySums (Geometry.charge s) ∧
      ChangesOnlySums ({ settings := s } : Shape) ∧
      ChangesOnlySums ({ settings := s } : Grouping) :=
  ⟨changesOnlySums_of_keepsElements Geometry.keepsElements _,
    changesOnlySums_of_keepsElements Geometry.keepsElements _,
    changesOnlySums_of_keepsElements Shape.keepsElements _,
    changesOnlySums_of_keepsElements Grouping.keepsElements _⟩

/-- Two hits above the threshold together, each with the longest time over threshold there is,
    and a later one. Without a sink the two become an activity. With a sink, the same calls stop:
    the times over threshold do not add up. -/
theorem sink_stops_a_run :
    (Settings.withAdcTrigger {} 100).validate = .ok () ∧
      (Maker.run
        ({ policy := Geometry.charge (.withAdcTrigger {} 100) } : Windowed Geometry Primitive)
        [.process { Primitive.hit 1 0 60 with timeOverThreshold := Int64.maxValue },
          .process { Primitive.hit 2 10 60 with timeOverThreshold := Int64.maxValue },
          .process (.hit 3 9000 10)]).map
            (fun steps => (Maker.outputs steps).map fun a => (a.timeStart, a.timeEnd)) =
        .ok [(0, 10)] ∧
      Maker.run (Recorded.watched
        ({ policy := Geometry.charge (.withAdcTrigger {} 100) } : Windowed Geometry Primitive) #[])
        [.process { Primitive.hit 1 0 60 with timeOverThreshold := Int64.maxValue },
          .process { Primitive.hit 2 10 60 with timeOverThreshold := Int64.maxValue },
          .process (.hit 3 9000 10)] = .error .sumOverflow :=
  ⟨Settings.validate_eq_ok_iff.2 (by decide), rfl, rfl⟩

end TriggerChain
