import TriggerChain.Proofs.Maker.Residents

/-!
# Late arrivals and the span of a window

An input is let into a window by its age: it must not begin a window length or more behind the
first element. Activities may arrive late, and a late one is young at any rate, so it is let in
however far in front of the others it belongs, and nothing is ever taken out at the back. So a
window looks back from the input by less than its length, but may reach further ahead of it: it
spans less than its length after every call exactly if no activity arrives a window length or more
before one that is still there.

Main statement: `timely_arrivals_bound_span`.
-/

namespace TriggerChain

variable {π τ ο : Type} [Element τ] [Policy π τ ο]

namespace Reference

variable [ListPolicy π τ ο]

/-! ## One input -/

section Input

variable {r : Reference π τ} {x : τ}

omit [Policy π τ ο] [ListPolicy π τ ο] in
theorem mem_insert {e : τ} {xs : List τ} : e ∈ insert x xs ↔ e ∈ xs ∨ e = x := by
  rw [(insert_perm x xs).mem_iff, List.mem_append, List.mem_singleton]

/-- What is in the window behind an input was there before it, or is the input. -/
theorem mem_of_mem_process {e : τ} (he : e ∈ (r.process x).next.residents) :
    e ∈ r.residents ∨ e = x := by
  obtain ⟨kept, hkept, hperm, -⟩ := (draws_call r (.process x)).residents
  have hmem : e ∈ r.residents ++ [x] := hkept.subset (hperm.subset he)
  rwa [List.mem_append, List.mem_singleton] at hmem

/-- A window looks back from the input by less than its length. -/
theorem not_old_process (hlength : 0 < r.windowLength)
    (hchron : Window.Chronological r.residents) :
    ∀ e ∈ (r.process x).next.residents, Window.began x - Window.began e < r.windowLength := by
  have hself : Window.began x - Window.began x < r.windowLength := by omega
  intro e he
  cases r.branches x with
  | seeded _ _ hprocess =>
    rw [hprocess] at he
    obtain rfl := List.mem_singleton.1 he
    exact hself
  | passed _ _ hprocess =>
    rw [hprocess, (fire_cases _ _ _).2.2] at he
    cases he
  | admitted hresidents hfits hprocess =>
    rw [hprocess] at he
    rcases mem_insert.1 he with he | rfl
    · -- The first element is the oldest, and the input fits a window that begins with it.
      rw [hresidents] at he hchron
      have hfirst := hchron.head_le e he
      omega
    · exact hself
  | fired _ _ hprocess =>
    rw [hprocess, (fire_cases _ _ _).2.2] at he
    obtain rfl := List.mem_singleton.1 he
    exact hself
  | slid _ _ hprocess =>
    rw [hprocess] at he
    rcases mem_insert.1 he with he | rfl
    · exact young_not_old x hchron e he
    · exact hself

/-- No element of the window begins a window length or more behind an input. -/
def Timely (r : Reference π τ) (x : τ) : Prop :=
  ∀ e ∈ r.residents, Window.began e - Window.began x < r.windowLength

/-- A window that spans less than its length does so behind an input exactly if the input is
    timely. -/
theorem within_process_iff (hlength : 0 < r.windowLength)
    (hchron : Window.Chronological r.residents)
    (hwithin : Window.Within r.windowLength r.residents) :
    Window.Within r.windowLength (r.process x).next.residents ↔ r.Timely x := by
  constructor
  · intro hnext e he
    cases hresidents : r.residents with
    | nil =>
      rw [hresidents] at he
      cases he
    | cons first rest =>
      by_cases hfits : Window.began x - Window.began first < r.windowLength
      · -- The input is let in, so both are there behind it.
        rw [process_admitted hresidents hfits] at hnext
        exact hnext x (mem_insert.2 (.inr rfl)) e (mem_insert.2 (.inl he))
      · have hfirst := hwithin first (by simp [hresidents]) e he
        omega
  · intro htimely p hp q hq
    have hold := not_old_process hlength hchron p hp
    rcases mem_of_mem_process hp with hp | rfl
    · rcases mem_of_mem_process hq with hq | rfl
      · exact hwithin p hp q hq
      · exact hold
    · rcases mem_of_mem_process hq with hq | rfl
      · exact htimely q hq
      · exact hold

end Input

end Reference

/-! ## Sequences of calls -/

namespace Windowed

/-- No input of some calls begins a window length or more before an element that is in the window
    when it arrives. -/
def InTime (m : Windowed π τ) (cs : List (Call τ)) (steps : List (Step (Windowed π τ) ο)) : Prop :=
  ∀ (k : Nat) (x : τ), cs[k]? = some (.process x) →
    ∀ e ∈ (Maker.after m (steps.take k)).window.inputs,
      Window.began e - Window.began x < (Policy.settings m.policy).windowLength.toInt

/-- Before the first call and after every one, the window spans less than its length. -/
def SpansLess (m : Windowed π τ) (steps : List (Step (Windowed π τ) ο)) : Prop :=
  ∀ k : Nat, Window.Within (Policy.settings m.policy).windowLength.toInt
    (Maker.after m (steps.take k)).window.inputs

section Cons

variable {m : Windowed π τ} {c : Call τ} {cs : List (Call τ)} {step : Step (Windowed π τ) ο}
variable {rest : List (Step (Windowed π τ) ο)} (hpolicy : step.maker.policy = m.policy)

include hpolicy

theorem inTime_cons : m.InTime (c :: cs) (step :: rest) ↔
    (∀ x, c = .process x → m.forget.Timely x) ∧ step.maker.InTime cs rest := by
  unfold InTime
  rw [hpolicy]
  constructor
  · intro h
    refine ⟨fun x hx => h 0 x (congrArg some hx), fun k x hk => ?_⟩
    exact h (k + 1) x hk
  · rintro ⟨hfirst, hrest⟩ k x hk
    cases k with
    | zero => exact hfirst x (Option.some.inj hk)
    | succ k => exact hrest k x hk

theorem spansLess_cons : m.SpansLess (step :: rest) ↔
    Window.Within m.forget.windowLength m.window.inputs ∧ step.maker.SpansLess rest := by
  unfold SpansLess
  rw [hpolicy]
  constructor
  · exact fun h => ⟨h 0, fun k => h (k + 1)⟩
  · rintro ⟨hfirst, hrest⟩ k
    cases k with
    | zero => exact hfirst
    | succ k => exact hrest k

end Cons

variable [ListPolicy π τ ο] [Cluster ο τ] [LawfulPolicy π τ ο]
variable {m : Windowed π τ} (hlate : Element.inOrder τ = false) (hm : m.Valid)

include hlate hm

theorem Valid.not_old_step {x : τ} {step : Step (Windowed π τ) ο}
    (h : Maker.process m x = .ok step) : ∀ e ∈ step.maker.window.inputs,
      Window.began x - Window.began e < m.forget.windowLength := by
  have hcall : Maker.call m (.process x) = .ok step := h
  have hnext : (m.forget.process x).next.residents = step.maker.window.inputs :=
    congrArg Reference.residents (hm.follows hcall).reference.next
  rw [← hnext]
  exact Reference.not_old_process (Int64.lt_iff_toInt_lt.1 hm.windowLength)
    (hm.window.chronological hlate)

theorem Valid.within_call_iff {c : Call τ} {step : Step (Windowed π τ) ο}
    (h : Maker.call m c = .ok step)
    (hwithin : Window.Within m.forget.windowLength m.window.inputs) :
    Window.Within m.forget.windowLength step.maker.window.inputs ↔
      ∀ x, c = .process x → m.forget.Timely x := by
  have hnext : (m.forget.call c).next.residents = step.maker.window.inputs :=
    congrArg Reference.residents (hm.follows h).reference.next
  have hlength : 0 < m.forget.windowLength := Int64.lt_iff_toInt_lt.1 hm.windowLength
  rw [← hnext]
  cases c with
  | flush =>
    show Window.Within _ m.forget.flush.next.residents ↔ _
    rw [Reference.residents_flush]
    exact ⟨fun _ => nofun, fun _ => Window.within_nil _⟩
  | process y =>
    have hiff := Reference.within_process_iff (x := y) hlength
      (hm.window.chronological hlate) hwithin
    refine hiff.trans ⟨fun htimely x hx => ?_, fun h => h y rfl⟩
    obtain rfl := Call.process.inj hx
    exact htimely

/-- The window spans less than its length throughout exactly if every input is in time. -/
theorem Valid.spansLess_iff {cs : List (Call τ)} {steps : List (Step (Windowed π τ) ο)}
    (h : Maker.run m cs = .ok steps)
    (hwithin : Window.Within m.forget.windowLength m.window.inputs) :
    m.SpansLess steps ↔ m.InTime cs steps := by
  induction cs generalizing m steps with
  | nil =>
    obtain rfl := Except.ok.inj h
    refine ⟨fun _ k x hk => (nomatch hk), fun _ k => ?_⟩
    rw [List.take_nil]
    exact hwithin
  | cons c cs ih =>
    obtain ⟨step, rest, hstep, hrest, rfl⟩ := Maker.run_cons_eq_ok_iff.1 h
    have hpolicy := hm.policy_eq hstep
    have hlength : step.maker.forget.windowLength = m.forget.windowLength :=
      congrArg (fun p => (Policy.settings p).windowLength.toInt) hpolicy
    have hfirst := hm.within_call_iff hlate hstep hwithin
    rw [spansLess_cons hpolicy, inTime_cons hpolicy, ← hfirst, ← hlength]
    -- If the window does not span too much after the first call, the others decide.
    constructor
    · rintro ⟨-, hspans⟩
      have hnext : Window.Within step.maker.forget.windowLength step.maker.window.inputs :=
        hspans 0
      exact ⟨hnext, (ih (hm.follows hstep).valid hrest hnext).1 hspans⟩
    · rintro ⟨hnext, hintime⟩
      refine ⟨hlength ▸ hwithin, (ih (hm.follows hstep).valid hrest hnext).2 hintime⟩

omit hlate in
/-- The outputs span no more than the windows. -/
theorem Valid.within_outputs {cs : List (Call τ)} {steps : List (Step (Windowed π τ) ο)}
    (h : Maker.run m cs = .ok steps) (hspans : m.SpansLess steps) :
    ∀ o ∈ Maker.outputs steps,
      Window.Within m.forget.windowLength (Cluster.elements o) := by
  induction cs generalizing m steps with
  | nil =>
    obtain rfl := Except.ok.inj h
    intro o ho
    cases ho
  | cons c cs ih =>
    obtain ⟨step, rest, hstep, hrest, rfl⟩ := Maker.run_cons_eq_ok_iff.1 h
    have hpolicy := hm.policy_eq hstep
    have hlength : step.maker.forget.windowLength = m.forget.windowLength :=
      congrArg (fun p => (Policy.settings p).windowLength.toInt) hpolicy
    obtain ⟨hwithin, hlater⟩ := (spansLess_cons hpolicy).1 hspans
    intro o ho
    rcases List.mem_append.1 ho with ho | ho
    · have hemitted := ((hm.follows hstep).reference.record_of_mem ho).1
      cases Reference.origin_of_emitted hemitted with
      | fired hall =>
        rw [hall]
        exact hwithin
      | passed _ hone =>
        rw [hone]
        exact Window.within_one (Int64.lt_iff_toInt_lt.1 hm.windowLength) _
    · rw [← hlength]
      exact ih (hm.follows hstep).valid hrest hlater o ho

omit hlate in
/-- Inputs in the order of time are in time. -/
theorem Valid.inTime_of_chronological {cs : List (Call τ)}
    {steps : List (Step (Windowed π τ) ο)} (h : Maker.run m cs = .ok steps)
    (hbefore : ∀ e ∈ m.window.inputs, ∀ x ∈ Call.inputs cs, Window.began e ≤ Window.began x)
    (hchron : Window.Chronological (Call.inputs cs)) : m.InTime cs steps := by
  induction cs generalizing m steps with
  | nil =>
    intro k x hk
    cases hk
  | cons c cs ih =>
    obtain ⟨step, rest, hstep, hrest, rfl⟩ := Maker.run_cons_eq_ok_iff.1 h
    have hlength : 0 < m.forget.windowLength := Int64.lt_iff_toInt_lt.1 hm.windowLength
    have hnext : (m.forget.call c).next.residents = step.maker.window.inputs :=
      congrArg Reference.residents (hm.follows hstep).reference.next
    refine (inTime_cons (hm.policy_eq hstep)).2 ⟨?_, ih (hm.follows hstep).valid hrest ?_ ?_⟩
    · rintro x rfl e he
      have hle := hbefore e he x List.mem_cons_self
      omega
    · -- What is in the window after the call was there before, or is the input.
      intro e he x hx
      rw [← hnext] at he
      cases c with
      | flush =>
        change e ∈ m.forget.flush.next.residents at he
        rw [Reference.residents_flush] at he
        cases he
      | process y =>
        rcases Reference.mem_of_mem_process he with he | rfl
        · exact hbefore e he x (List.mem_cons_of_mem y hx)
        · exact (List.pairwise_cons.1 hchron).1 x hx
    · cases c with
      | flush => exact hchron
      | process y => exact (List.pairwise_cons.1 hchron).2

end Windowed

/-! ## Groupings -/

/-- How far the windows of a grouping reach, for activities in any order of time. -/
structure BoundsSpan (g : Grouping) : Prop where
  /-- After every call with an activity, each activity in the window began less than a window
      length before it. -/
  lookback : ∀ cs m candidates a step, Reaches (ο := Candidate) g cs m candidates →
    Maker.process m a = .ok step → ∀ e ∈ step.maker.window.inputs,
      Window.began a - Window.began e < g.settings.windowLength.toInt
  /-- The window spans less than its length after every call exactly if no activity arrives a
      window length or more before one that is still in the window. -/
  span : ∀ cs (steps : List (Step (Windowed Grouping Activity) Candidate)),
    Maker.run { policy := g } cs = .ok steps →
    (Windowed.SpansLess { policy := g } steps ↔ Windowed.InTime { policy := g } cs steps)
  /-- If none does, every candidate groups activities that fit in one window. -/
  candidates : ∀ cs (steps : List (Step (Windowed Grouping Activity) Candidate)),
    Maker.run { policy := g } cs = .ok steps → Windowed.InTime { policy := g } cs steps →
    ∀ c ∈ Maker.outputs steps, Window.Within g.settings.windowLength.toInt c.inputs
  /-- In the order of time none does. -/
  inOrder : ∀ cs (steps : List (Step (Windowed Grouping Activity) Candidate)),
    Maker.run { policy := g } cs = .ok steps → Window.Chronological (Call.inputs cs) →
    Windowed.InTime { policy := g } cs steps

/-- With settings in range, the windows of a grouping span less than their length as long as
    activities are not later than that. -/
theorem timely_arrivals_bound_span (s : Settings) (hs : s.validate = .ok ()) :
    BoundsSpan { settings := s } := by
  have hvalid := Windowed.valid_fresh (τ := Activity) (p := ({ settings := s } : Grouping)) hs
  have hlength : 0 < s.windowLength.toInt := Int64.lt_iff_toInt_lt.1 hvalid.windowLength
  have hspan : ∀ cs (steps : List (Step (Windowed Grouping Activity) Candidate)),
      Maker.run { policy := { settings := s } } cs = .ok steps →
      (Windowed.SpansLess { policy := { settings := s } } steps ↔
        Windowed.InTime { policy := { settings := s } } cs steps) :=
    fun cs steps hrun => hvalid.spansLess_iff rfl hrun (Window.within_nil _)
  refine ⟨?_, hspan, ?_, ?_⟩
  · rintro cs _ _ a step ⟨steps, hrun, rfl, rfl⟩ hstep e he
    obtain ⟨hreached, hpolicy⟩ := hvalid.after_run hrun
    have hold := hreached.not_old_step rfl hstep e he
    rwa [Windowed.forget, Reference.windowLength, hpolicy] at hold
  · intro cs steps hrun hintime
    exact hvalid.within_outputs hrun ((hspan cs steps hrun).2 hintime)
  · intro cs steps hrun hchron
    refine hvalid.inTime_of_chronological hrun ?_ hchron
    intro e he
    cases he

/-- Two activities that arrive in order, 40 ticks apart, fit in one window of 50 ticks, and so does
    the candidate that they become. -/
theorem two_timely_arrivals_in_one_window :
    (Settings.withAdcTrigger { Settings.forCandidates with windowLength := 50 } 1000).validate =
        .ok () ∧
      ∃ steps : List (Step (Windowed Grouping Activity) Candidate),
        Maker.run
            { policy := { settings :=
                .withAdcTrigger { Settings.forCandidates with windowLength := 50 } 1000 } }
            [.process { timeStart := 0, adcIntegral := 600 },
              .process { timeStart := 40, adcIntegral := 600 }, .flush] = .ok steps ∧
          (Maker.outputs steps).map (·.inputs.map (·.timeStart)) = [[0, 40]] ∧
          ∀ c ∈ Maker.outputs steps, Window.Within 50 c.inputs := by
  have hvalid : (Settings.withAdcTrigger { Settings.forCandidates with
      windowLength := 50 } 1000).validate = .ok () := Settings.validate_eq_ok_iff.2 (by decide)
  have hbounds := timely_arrivals_bound_span _ hvalid
  have hgroups : (Maker.run (ο := Candidate)
      ({ policy := { settings :=
          .withAdcTrigger { Settings.forCandidates with windowLength := 50 } 1000 } } :
        Windowed Grouping Activity)
      [.process { timeStart := 0, adcIntegral := 600 },
        .process { timeStart := 40, adcIntegral := 600 }, .flush]).toOption.map
      (fun steps => (Maker.outputs steps).map (·.inputs.map (·.timeStart))) = some [[0, 40]] := by
    decide +kernel
  obtain ⟨steps, hrun, houtputs⟩ := Checked.toOption_map_eq_some_iff.1 hgroups
  have hintime := hbounds.inOrder _ steps hrun (by unfold Window.Chronological; decide)
  exact ⟨hvalid, steps, hrun, houtputs, hbounds.candidates _ steps hrun hintime⟩

/-- An activity that arrives 100 ticks behind one that begins after it is let into a window of 50
    ticks, and the two become one candidate. -/
theorem late_arrival_widens_window :
    (Settings.withAdcTrigger { Settings.forCandidates with windowLength := 50 } 1000).validate =
        .ok () ∧
      ({ settings := .withAdcTrigger { Settings.forCandidates with windowLength := 50 } 1000 } :
        Grouping).passthrough = false ∧
      ∃ steps : List (Step (Windowed Grouping Activity) Candidate),
        Maker.run
            { policy := { settings :=
                .withAdcTrigger { Settings.forCandidates with windowLength := 50 } 1000 } }
            [.process { timeStart := 100, adcIntegral := 600 },
              .process { timeStart := 0, adcIntegral := 600 }, .flush] = .ok steps ∧
          steps.map (·.maker.window.inputs.map (·.timeStart)) = [[100], [0, 100], []] ∧
          (Maker.outputs steps).map (·.inputs.map (·.timeStart)) = [[0, 100]] ∧
          ¬ (∀ step ∈ steps, Window.Within 50 step.maker.window.inputs) ∧
          ¬ ∀ c ∈ Maker.outputs steps, Window.Within 50 c.inputs := by
  have hevaluated : (Maker.run (ο := Candidate)
      ({ policy := { settings :=
          .withAdcTrigger { Settings.forCandidates with windowLength := 50 } 1000 } } :
        Windowed Grouping Activity)
      [.process { timeStart := 100, adcIntegral := 600 },
        .process { timeStart := 0, adcIntegral := 600 }, .flush]).toOption.map
      (fun steps => (steps.map (·.maker.window.inputs.map (·.timeStart)),
        (Maker.outputs steps).map (·.inputs.map (·.timeStart)),
        decide (∀ step ∈ steps, Window.Within 50 step.maker.window.inputs),
        decide (∀ c ∈ Maker.outputs steps, Window.Within 50 c.inputs))) =
      some ([[100], [0, 100], []], [[0, 100]], false, false) := by
    decide +kernel
  obtain ⟨steps, hrun, hseen⟩ := Checked.toOption_map_eq_some_iff.1 hevaluated
  obtain ⟨hwindows, houtputs, hspan, hgroup⟩ := by simpa only [Prod.mk.injEq] using hseen
  exact ⟨Settings.validate_eq_ok_iff.2 (by decide), rfl, steps, hrun, hwindows, houtputs,
    of_decide_eq_false hspan, of_decide_eq_false hgroup⟩

end TriggerChain
