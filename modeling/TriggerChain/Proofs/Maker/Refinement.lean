import TriggerChain.Proofs.Maker.Lawful
import TriggerChain.Proofs.Maker.Steps

/-!
# Windowed makers refine the reference

A windowed maker, with the aggregates of its window forgotten, is a reference: every call that
goes through is a call on the reference, with the same records. The aggregates decide what
the list decides because the window is consistent; the saturated ages decide what exact ages
decide because the length of a window is positive. A call stops exactly where a number of the
reference does not fit its word.

Main statement: `windowed_refines_reference`, for every sequence of calls.
-/

namespace TriggerChain

/-- Some elements fit only if each one that enters them fits alone. -/
theorem Window.AggregatesFit.of_place {τ : Type} [Element τ] {x : τ} {xs : List τ}
    (h : AggregatesFit (place x xs)) : AggregatesFit [x] := by
  have hmem : x ∈ place x xs := (place_perm x xs).symm.subset List.mem_cons_self
  exact h.of_subperm (List.singleton_subperm_iff.2 hmem)

theorem Reference.insert_eq_place {τ : Type} [Element τ] (x : τ) {xs : List τ}
    (hxs : Element.inOrder τ = false → Window.Chronological xs) :
    Reference.insert x xs = Window.place x xs := by
  -- What is delivered in order goes to the end on both sides.
  by_cases horder : Element.inOrder τ = true
  · rw [insert, Window.place, if_pos horder, if_pos horder]
  · rw [insert, if_neg horder]
    have hlate : Element.inOrder τ = false := by simpa using horder
    exact Window.placeBehind_eq_place x (hxs hlate) hlate

namespace Windowed

variable {π τ ο : Type} [Element τ] [Policy π τ ο]

/-- The maker with the aggregates of its window forgotten. -/
def forget (m : Windowed π τ) : Reference π τ := ⟨m.policy, m.window.inputs, m.statistics⟩

/-- The settings in use are in range, and the window is sound. -/
structure Valid (m : Windowed π τ) : Prop where
  prescale : (Policy.settings m.policy).prescale ≠ 0
  windowLength : 0 < (Policy.settings m.policy).windowLength
  window : m.window.Sound

theorem Valid.heard {m : Windowed π τ} (hm : m.Valid) : m.heard.Valid :=
  ⟨hm.prescale, hm.windowLength, hm.window⟩

theorem Valid.withWindow {m : Windowed π τ} (hm : m.Valid) {w : Window τ} (hw : w.Sound)
    (statistics : Statistics) :
    ({ m with window := w, statistics := statistics } : Windowed π τ).Valid :=
  ⟨hm.prescale, hm.windowLength, hw⟩

/-- A maker that has heard nothing yet, with settings in range, is valid. -/
theorem valid_fresh {p : π} (hp : (Policy.settings p).validate = .ok ()) :
    ({ policy := p } : Windowed π τ).Valid := by
  obtain ⟨hprescale, -, hlength, -⟩ := Settings.validate_eq_ok_iff.1 hp
  exact ⟨hprescale, hlength, Window.sound_empty⟩

theorem passesNext_iff {m : Windowed π τ} (hm : m.Valid) :
    m.passesNext ↔ m.forget.prescale ∣ m.forget.statistics.fired := by
  -- The guard against a prescale of zero does nothing here.
  have hpos := hm.prescale
  have hmax : max (Policy.settings m.policy).prescale 1 = (Policy.settings m.policy).prescale := by
    omega
  rw [passesNext, hmax]
  exact Nat.dvd_iff_mod_eq_zero.symm

theorem Valid.admits_iff {m : Windowed π τ} (hm : m.Valid) {first : τ} {rest : List τ}
    (hinputs : m.window.inputs = first :: rest) (x : τ) :
    m.window.admits (Element.timeStart x) (Policy.settings m.policy).windowLength = true ↔
      Window.began x - Window.began first < m.forget.windowLength :=
  Window.admits_iff hm.window.consistent hinputs x hm.windowLength

theorem Valid.not_fits {m : Windowed π τ} (hm : m.Valid) {first : τ} {rest : List τ}
    (hinputs : m.window.inputs = first :: rest) {x : τ}
    (hadmits : m.window.admits (Element.timeStart x)
      (Policy.settings m.policy).windowLength = false) :
    ¬ Window.began x - Window.began first < m.forget.windowLength := by
  rw [← hm.admits_iff hinputs x, hadmits]
  decide

theorem Valid.unexpired_eq {m : Windowed π τ} (hm : m.Valid) (x : τ) :
    Window.unexpired (Element.timeStart x) (Policy.settings m.policy).windowLength
      m.window.inputs = m.forget.young x := by
  unfold Window.unexpired Reference.young
  -- Both drop what is too old; only the age is a saturated one on the left.
  congr 1
  funext e
  rw [Bool.eq_iff_iff, decide_eq_true_eq]
  exact Window.expired_iff x e hm.windowLength

theorem Valid.insert_residents {m : Windowed π τ} (hm : m.Valid) (x : τ) :
    Reference.insert x m.forget.residents = Window.place x m.window.inputs :=
  Reference.insert_eq_place x hm.window.chronological

theorem Valid.insert_young {m : Windowed π τ} (hm : m.Valid) (x : τ) :
    Reference.insert x (m.forget.young x) =
      Window.place x (Window.unexpired (Element.timeStart x)
        (Policy.settings m.policy).windowLength m.window.inputs) := by
  rw [hm.unexpired_eq]
  refine Reference.insert_eq_place x fun hlate => ?_
  -- What slides out does not disturb the order.
  exact (hm.window.chronological hlate).sublist (List.dropWhile_sublist _)

/-! ## Triggers -/

section Triggers

variable [ListPolicy π τ ο]

/-- A call on the reference comes to what a call on the maker returned. -/
structure Matches (step : Step (Windowed π τ) ο) (o : Reference.Outcome π τ) : Prop where
  next : o.next = step.maker.forget
  records : o.records = step.outputs.map some

omit [Element τ] [Policy π τ ο] in
theorem matches_quiet (m : Windowed π τ) (notices : List Notice) :
    Matches { maker := m, notices } { next := m.forget } := ⟨rfl, rfl⟩

variable [Cluster ο τ] [LawfulPolicy π τ ο]

theorem matches_of_emitted {m : Windowed π τ} (hm : m.Valid) (hinputs : m.window.inputs ≠ [])
    {fired : Fired} {e : Emission ο} (h : Emitted m fired e) (next : Window τ) :
    Matches (e.step { m with window := next }) (m.forget.fire fired next.inputs) := by
  have hprescale := passesNext_iff hm
  unfold Reference.fire
  cases h with
  | dropped hdrop hstatistics houtput =>
    rw [if_neg fun hdvd => hdrop (hprescale.2 hdvd)]
    refine ⟨?_, ?_⟩
    · show _ = forget { m with window := next, statistics := e.statistics }
      rw [hstatistics]
      rfl
    · show [] = e.output.toList.map some
      rw [houtput]
      rfl
  | void hpass hconstruct hstatistics houtput =>
    -- A window that is not empty always becomes something.
    exfalso
    rcases LawfulPolicy.construct_cases m.policy m.window hm.window.consistent hinputs with
      ⟨o, hmade, -⟩ | ⟨fault, hfault, -⟩
    · cases hconstruct.symm.trans hmade
    · exact Checked.false_of_ok_error hconstruct hfault
  | made hpass hconstruct hstatistics houtput hevents =>
    rename_i output
    -- The output that was made is the record of the list.
    rw [if_pos (hprescale.1 hpass)]
    refine ⟨?_, ?_⟩
    · show _ = forget { m with window := next, statistics := e.statistics }
      rw [hstatistics]
      rfl
    · show [ListPolicy.record? m.policy m.window.inputs] = e.output.toList.map some
      rw [houtput]
      rcases LawfulPolicy.construct_cases m.policy m.window hm.window.consistent hinputs with
        ⟨o, hmade, hrecord⟩ | ⟨fault, hfault, -⟩
      · obtain rfl : output = o := Option.some.inj (Except.ok.inj (hconstruct.symm.trans hmade))
        rw [hrecord]
        rfl
      · exact (Checked.false_of_ok_error hconstruct hfault).elim

theorem record_of_emitStops {m : Windowed π τ} (hm : m.Valid) (hinputs : m.window.inputs ≠ [])
    {fault : Fault} (h : EmitStops m fault) (fired : Fired) (next : List τ) :
    fault.IsOverflow ∧ (m.forget.fire fired next).emitted = some m.window.inputs ∧
      ListPolicy.record? m.policy m.window.inputs = none := by
  have hemitted : (m.forget.fire fired next).emitted = some m.window.inputs := by
    rw [Reference.fire, if_pos ((passesNext_iff hm).1 h.prescale)]
    rfl
  rcases LawfulPolicy.construct_cases m.policy m.window hm.window.consistent hinputs with
    ⟨o, hmade, -⟩ | ⟨fault', hfault, hoverflow, hrecord⟩
  · exact (Checked.false_of_ok_error hmade h.construct).elim
  · obtain rfl : fault = fault' := Except.error.inj (h.construct.symm.trans hfault)
    exact ⟨hoverflow, hemitted, hrecord⟩

/-- An output is the record of what the reference emits. -/
theorem Matches.record_of_mem {step : Step (Windowed π τ) ο} {o : Reference.Outcome π τ}
    (h : Matches step o) {a : ο} (ha : a ∈ step.outputs) :
    o.emitted = some (Cluster.elements a) ∧
      ListPolicy.record? step.maker.policy (Cluster.elements a) = some a := by
  have hmem : some a ∈ o.records := h.records ▸ List.mem_map_of_mem ha
  have hpolicy : o.next.policy = step.maker.policy := congrArg Reference.policy h.next
  rw [Reference.Outcome.records, Option.mem_toList, Option.map_eq_some_iff] at hmem
  obtain ⟨xs, hxs, hrecord⟩ := hmem
  rw [hpolicy] at hrecord
  obtain rfl := LawfulPolicy.elements_record _ _ _ hrecord
  exact ⟨hxs, hrecord⟩

theorem Matches.elements {step : Step (Windowed π τ) ο} {o : Reference.Outcome π τ}
    (h : Matches step o) : step.outputs.map Cluster.elements = o.emitted.toList := by
  have hrecords := h.records
  cases hemitted : o.emitted with
  | none =>
    rw [Reference.Outcome.records, hemitted] at hrecords
    have hnil : step.outputs = [] := List.map_eq_nil_iff.1 hrecords.symm
    rw [hnil]
    rfl
  | some xs =>
    rw [Reference.Outcome.records, hemitted] at hrecords
    obtain ⟨a, hone, -⟩ := List.map_eq_singleton_iff.1 hrecords.symm
    have hmem : a ∈ step.outputs := by
      rw [hone]
      exact List.mem_singleton.2 rfl
    have ha := (h.record_of_mem hmem).1
    rw [hone, ← hemitted, ha]
    rfl

end Triggers

/-! ## Calls that go through -/

section Calls

variable [ListPolicy π τ ο]

/-- A call that goes through: the maker stays valid, and the reference follows. -/
structure Follows (m : Windowed π τ) (c : Call τ) (step : Step (Windowed π τ) ο) : Prop where
  valid : step.maker.Valid
  reference : Matches step (m.forget.call c)
  input : ∀ x, c.input? = some x → Window.AggregatesFit [x]

theorem Follows.fits {m : Windowed π τ} {c : Call τ} {step : Step (Windowed π τ) ο}
    (h : Follows m c step) : m.forget.Fits c := by
  refine ⟨h.input, ?_, ?_⟩
  · rw [h.reference.next]
    exact h.valid.window.consistent.aggregates.fit
  · intro xs hxs hnone
    -- What was emitted would show among the outputs as a record that was not made.
    have hrecords := h.reference.records
    rw [Reference.Outcome.records, hxs, Reference.policy_call, Option.map_some, hnone] at hrecords
    have hmem : none ∈ step.outputs.map some := hrecords ▸ List.mem_singleton.2 rfl
    simp at hmem

omit [Policy π τ ο] [ListPolicy π τ ο] in
theorem input_process {x : τ} (h : Window.AggregatesFit [x]) :
    ∀ y, (Call.process x).input? = some y → Window.AggregatesFit [y] := by
  intro y hy
  obtain rfl := Option.some.inj hy
  exact h

variable [Cluster ο τ] [LawfulPolicy π τ ο]

theorem Valid.follows_process {m : Windowed π τ} (hm : m.Valid) {x : τ}
    {step : Step (Windowed π τ) ο} (h : Processed m x step) : Follows m (.process x) step := by
  cases h with
  | seeded hempty hwindowed hwindow =>
    rename_i w
    obtain ⟨hsound, hinputs⟩ := Window.Sound.of_reset hwindow
    rw [LawfulPolicy.passes_eq] at hwindowed
    refine ⟨hm.withWindow hsound _, ?_, input_process (hsound.fit hinputs)⟩
    show Matches _ (m.forget.process x)
    rw [Reference.process_seeded hempty hwindowed, ← hinputs]
    exact matches_quiet { m.heard with window := w } []
  | passed hempty hpass hwindow hemitted =>
    rename_i w e
    obtain ⟨hsound, hinputs⟩ := Window.Sound.of_reset hwindow
    rw [LawfulPolicy.passes_eq] at hpass
    -- The input is a window of its own, and gone when its output is made.
    have hmatches := matches_of_emitted (hm.heard.withWindow hsound m.heard.statistics)
      (by rw [hinputs]; simp) hemitted Window.empty
    refine ⟨hm.withWindow Window.sound_empty _, ?_, input_process (hsound.fit hinputs)⟩
    show Matches _ (m.forget.process x)
    rw [Reference.process_passed hempty hpass, ← hinputs]
    exact hmatches
  | admitted hinputs hadmits hwindow =>
    rename_i w
    obtain ⟨first, rest, hcons⟩ := List.exists_cons_of_ne_nil hinputs
    obtain ⟨hsound, hplace⟩ := hm.window.of_add hwindow
    have hfits := (hm.admits_iff hcons x).1 hadmits
    refine ⟨hm.withWindow hsound _, ?_, input_process (.of_place (hsound.fit hplace))⟩
    show Matches _ (m.forget.process x)
    rw [Reference.process_admitted hcons hfits, hm.insert_residents, ← hplace]
    exact matches_quiet { m.heard with window := w } []
  | fired hinputs hadmits hfires hemitted hwindow =>
    rename_i w fired e
    obtain ⟨first, rest, hcons⟩ := List.exists_cons_of_ne_nil hinputs
    obtain ⟨hsound, hone⟩ := Window.Sound.of_reset hwindow
    have hfits := hm.not_fits hcons hadmits
    rw [LawfulPolicy.fires_eq m.policy m.window x hm.window.consistent] at hfires
    -- The window fires as it was before the input, with the input on the counters.
    have hmatches := matches_of_emitted hm.heard hinputs hemitted w
    refine ⟨hm.withWindow hsound _, ?_, input_process (hsound.fit hone)⟩
    show Matches _ (m.forget.process x)
    rw [Reference.process_fired hcons hfits hfires, ← hone]
    exact hmatches
  | slid hinputs hadmits hquiet hwindow =>
    rename_i w notices
    obtain ⟨first, rest, hcons⟩ := List.exists_cons_of_ne_nil hinputs
    obtain ⟨hsound, hplace⟩ := hm.window.of_slide hwindow
    have hfits := hm.not_fits hcons hadmits
    rw [LawfulPolicy.fires_eq m.policy m.window x hm.window.consistent] at hquiet
    refine ⟨hm.withWindow hsound _, ?_, input_process (.of_place (hsound.fit hplace))⟩
    show Matches _ (m.forget.process x)
    rw [Reference.process_slid hcons hfits hquiet, hm.insert_young, ← hplace]
    exact matches_quiet { m.heard with window := w } notices

theorem Valid.follows_flush {m : Windowed π τ} (hm : m.Valid)
    {step : Step (Windowed π τ) ο} (h : Flushed m step) : Follows m .flush step := by
  have hcleared := hm.withWindow Window.sound_empty m.statistics
  have hnone : ∀ x, (Call.flush : Call τ).input? = some x → Window.AggregatesFit [x] := by
    intro x hx
    cases hx
  cases h with
  | idle hempty =>
    refine ⟨hm, ?_, hnone⟩
    show Matches _ m.forget.flush
    rw [Reference.flush_idle hempty]
    exact matches_quiet m []
  | left hinputs hquiet =>
    rw [LawfulPolicy.firesAtEnd_eq m.policy m.window hm.window.consistent] at hquiet
    refine ⟨hcleared, ?_, hnone⟩
    show Matches _ m.forget.flush
    rw [Reference.flush_left hinputs hquiet]
    exact matches_quiet { m with window := .empty } []
  | fired hinputs hfires hemitted =>
    rename_i fired e
    rw [LawfulPolicy.firesAtEnd_eq m.policy m.window hm.window.consistent] at hfires
    refine ⟨hm.withWindow Window.sound_empty _, ?_, hnone⟩
    show Matches _ m.forget.flush
    rw [Reference.flush_fired hinputs hfires]
    exact matches_of_emitted hm hinputs hemitted Window.empty

theorem Valid.follows {m : Windowed π τ} (hm : m.Valid) {c : Call τ}
    {step : Step (Windowed π τ) ο} (h : Maker.call m c = .ok step) : Follows m c step := by
  cases c with
  | process x => exact hm.follows_process (processed_of_process h)
  | flush => exact hm.follows_flush (flushed_of_flush h)

theorem Valid.policy_eq {m : Windowed π τ} (hm : m.Valid) {c : Call τ}
    {step : Step (Windowed π τ) ο} (h : Maker.call m c = .ok step) :
    step.maker.policy = m.policy := by
  have hnext := (hm.follows h).reference.next
  exact (congrArg Reference.policy hnext).symm.trans (Reference.policy_call _ c)

end Calls

/-! ## Calls that stop -/

section Stops

variable [ListPolicy π τ ο]

/-- A call that stops: a number does not fit, and it is one that the reference names. -/
structure Stops (m : Windowed π τ) (c : Call τ) (fault : Fault) : Prop where
  overflow : fault.IsOverflow
  unfit : ¬ m.forget.Fits c

/-- A change of the window stops a call where the list that the call leaves does not fit. -/
theorem stops_of_change {m : Windowed π τ} {c : Call τ} {xs : List τ} {fault : Fault}
    {change : Except Fault (Window τ)} (hchange : change = .error fault)
    (hcases : (∃ w, change = .ok w ∧ w.Consistent ∧ w.inputs = xs) ∨
      (change = .error .sumOverflow ∧ ¬ Window.AggregatesFit xs))
    (hcall : (m.forget.call c).next.residents = xs) : Stops m c fault := by
  rcases hcases with ⟨w, hok, -⟩ | ⟨herr, hunfit⟩
  · exact (Checked.false_of_ok_error hok hchange).elim
  · obtain rfl : fault = .sumOverflow := Except.error.inj (hchange.symm.trans herr)
    exact ⟨.inl rfl, fun hfits => hunfit (hcall ▸ hfits.residents)⟩

variable [Cluster ο τ] [LawfulPolicy π τ ο]

theorem stops_of_emitStops (m : Windowed π τ) (c : Call τ) {m' : Windowed π τ} (hm' : m'.Valid)
    (hpolicy : m.policy = m'.policy) (hinputs : m'.window.inputs ≠ []) {fault : Fault}
    (h : EmitStops m' fault) {fired : Fired} {next : List τ}
    (hcall : m.forget.call c = m'.forget.fire fired next) : Stops m c fault := by
  obtain ⟨hoverflow, hemitted, hrecord⟩ := record_of_emitStops hm' hinputs h fired next
  rw [← hcall] at hemitted
  refine ⟨hoverflow, fun hfits => hfits.record m'.window.inputs hemitted ?_⟩
  show ListPolicy.record? m.policy m'.window.inputs = none
  rw [hpolicy, hrecord]

theorem Valid.stops_process {m : Windowed π τ} (hm : m.Valid) {x : τ} {fault : Fault}
    (h : ProcessStops m x fault) : Stops m (.process x) fault := by
  cases h with
  | reset hwindow =>
    -- An input that does not make a window alone fits nowhere.
    rcases Window.consistent_empty.add x with ⟨w, hok, -⟩ | ⟨herr, hunfit⟩
    · exact (Checked.false_of_ok_error hok hwindow).elim
    · obtain rfl : fault = .sumOverflow := Except.error.inj (hwindow.symm.trans herr)
      have hone : Window.place x (Window.empty : Window τ).inputs = [x] := Window.place_nil x
      rw [hone] at hunfit
      exact ⟨.inl rfl, fun hfits => hunfit (hfits.input x rfl)⟩
  | passed hempty hpass hwindow hemit =>
    rename_i w
    obtain ⟨hsound, hinputs⟩ := Window.Sound.of_reset hwindow
    rw [LawfulPolicy.passes_eq] at hpass
    have hvalid := hm.heard.withWindow hsound m.heard.statistics
    have hcall := Reference.process_passed (x := x) (r := m.forget) hempty hpass
    rw [← hinputs] at hcall
    exact stops_of_emitStops m (.process x) hvalid rfl (by rw [hinputs]; simp) hemit hcall
  | admitted hinputs hadmits hwindow =>
    obtain ⟨first, rest, hcons⟩ := List.exists_cons_of_ne_nil hinputs
    have hfits := (hm.admits_iff hcons x).1 hadmits
    refine stops_of_change hwindow (hm.window.consistent.add x) ?_
    show (m.forget.process x).next.residents = _
    rw [Reference.process_admitted hcons hfits]
    exact hm.insert_residents x
  | fired hinputs hadmits hfires hemit =>
    rename_i fired
    obtain ⟨first, rest, hcons⟩ := List.exists_cons_of_ne_nil hinputs
    have hfits := hm.not_fits hcons hadmits
    rw [LawfulPolicy.fires_eq m.policy m.window x hm.window.consistent] at hfires
    have hcall := Reference.process_fired (r := m.forget) hcons hfits hfires
    exact stops_of_emitStops m (.process x) hm.heard rfl hinputs hemit hcall
  | slid hinputs hadmits hquiet hwindow =>
    obtain ⟨first, rest, hcons⟩ := List.exists_cons_of_ne_nil hinputs
    have hfits := hm.not_fits hcons hadmits
    rw [LawfulPolicy.fires_eq m.policy m.window x hm.window.consistent] at hquiet
    refine stops_of_change hwindow (hm.window.consistent.slide x _) ?_
    show (m.forget.process x).next.residents = _
    rw [Reference.process_slid hcons hfits hquiet]
    exact hm.insert_young x

theorem Valid.stops_flush {m : Windowed π τ} (hm : m.Valid) {fault : Fault}
    (h : FlushStops m fault) : Stops m .flush fault := by
  obtain ⟨fired, hfires⟩ := h.fires
  rw [LawfulPolicy.firesAtEnd_eq m.policy m.window hm.window.consistent] at hfires
  have hcall := Reference.flush_fired (r := m.forget) h.inputs hfires
  exact stops_of_emitStops m .flush hm rfl h.inputs h.emit hcall

theorem Valid.stops {m : Windowed π τ} (hm : m.Valid) {c : Call τ} {fault : Fault}
    (h : Maker.call (ο := ο) m c = .error fault) : Stops m c fault := by
  cases c with
  | process x => exact hm.stops_process (processStops_of_process h)
  | flush => exact hm.stops_flush (flushStops_of_flush h)

end Stops

/-! ## Sequences of calls -/

section Runs

variable [ListPolicy π τ ο] [Cluster ο τ] [LawfulPolicy π τ ο]

theorem Valid.follows_run {m : Windowed π τ} (hm : m.Valid) {cs : List (Call τ)}
    {steps : List (Step (Windowed π τ) ο)} (h : Maker.run m cs = .ok steps) :
    List.Forall₂ Matches steps (m.forget.run cs) ∧ m.forget.FitsAll cs := by
  -- Along the calls the maker stays valid, and the reference stays the maker forgotten.
  induction cs generalizing m steps with
  | nil =>
    obtain rfl := Except.ok.inj h
    exact ⟨.nil, trivial⟩
  | cons c cs ih =>
    obtain ⟨step, rest, hstep, hrest, rfl⟩ := Maker.run_cons_eq_ok_iff.1 h
    have hfollows := hm.follows hstep
    obtain ⟨hmatches, hfits⟩ := ih hfollows.valid hrest
    rw [← hfollows.reference.next] at hmatches hfits
    exact ⟨.cons hfollows.reference hmatches, hfollows.fits, hfits⟩

theorem Valid.stops_run {m : Windowed π τ} (hm : m.Valid) {cs : List (Call τ)} {fault : Fault}
    (h : Maker.run (ο := ο) m cs = .error fault) :
    fault.IsOverflow ∧ ¬ m.forget.FitsAll cs := by
  induction cs generalizing m with
  | nil => cases h
  | cons c cs ih =>
    rcases Maker.run_cons_eq_error_iff.1 h with herr | ⟨step, hstep, hrest⟩
    · have hstops := hm.stops herr
      exact ⟨hstops.overflow, fun hfits => hstops.unfit hfits.1⟩
    · -- The first call goes through, so the reference can be followed past it.
      have hfollows := hm.follows hstep
      obtain ⟨hoverflow, hunfit⟩ := ih hfollows.valid hrest
      rw [← hfollows.reference.next] at hunfit
      exact ⟨hoverflow, fun hfits => hunfit hfits.2⟩

end Runs

end Windowed

/-! ## The refinement -/

section Refinement

variable {π τ ο : Type} [Element τ] [Policy π τ ο] [ListPolicy π τ ο]

/-- The windowed maker of a policy does what the reference of the policy does. -/
structure Refines (p : π) : Prop where
  /-- A sequence of calls goes through exactly if every exact number fits its word. -/
  goesThrough : ∀ cs, (∃ steps, Maker.run ({ policy := p } : Windowed π τ) cs = .ok steps) ↔
    ({ policy := p } : Reference π τ).FitsAll cs
  /-- The outputs are the records of the reference, call by call; the counters agree after
      every call, and so do the elements of the window. -/
  agrees : ∀ cs steps, Maker.run ({ policy := p } : Windowed π τ) cs = .ok steps →
    steps.map (fun s => (s.outputs.map some, s.maker.statistics, s.maker.window.inputs)) =
      (({ policy := p } : Reference π τ).run cs).map fun o =>
        (o.records, o.next.statistics, o.next.residents)
  /-- Nothing but a number that does not fit its word stops a sequence of calls. -/
  stops : ∀ cs fault, Maker.run ({ policy := p } : Windowed π τ) cs = .error fault →
    fault.IsOverflow

theorem refines_of_validate [Cluster ο τ] [LawfulPolicy π τ ο] {p : π}
    (hp : (Policy.settings p).validate = .ok ()) : Refines p := by
  have hvalid := Windowed.valid_fresh hp
  refine ⟨fun cs => ⟨?_, ?_⟩, ?_, ?_⟩
  · rintro ⟨steps, hrun⟩
    exact (hvalid.follows_run hrun).2
  · intro hfits
    -- A run that stops has a number that does not fit.
    cases hrun : Maker.run ({ policy := p } : Windowed π τ) cs with
    | ok steps => exact ⟨steps, rfl⟩
    | error fault => exact absurd hfits (hvalid.stops_run hrun).2
  · intro cs steps hrun
    have hmatches := (hvalid.follows_run hrun).1
    change List.Forall₂ _ _ (({ policy := p } : Reference π τ).run cs) at hmatches
    generalize ({ policy := p } : Reference π τ).run cs = outcomes at hmatches ⊢
    clear hrun
    induction hmatches with
    | nil => rfl
    | cons hmatch _ ih =>
      rw [List.map_cons, List.map_cons, ih, hmatch.records, hmatch.next]
      rfl
  · intro cs fault hrun
    exact (hvalid.stops_run hrun).1

end Refinement

/-- The condition on the charge alone takes over every value that has a range. -/
theorem Geometry.validate_charge (s : Settings) :
    (Geometry.charge s).settings.validate = s.validate := rfl

/-- With settings in range, and for inputs in any order of time, each windowed maker does what
    the reference of its policy does: it goes through the same sequences of calls, with the
    same outputs at the same calls and the same counters. -/
theorem windowed_refines_reference (s : Settings) (hs : s.validate = .ok ()) :
    Refines (Geometry.horizontal s) ∧ Refines (Geometry.charge s) ∧
      Refines ({ settings := s } : Shape) ∧ Refines ({ settings := s } : Grouping) := by
  have hcharge := (Geometry.validate_charge s).trans hs
  exact ⟨refines_of_validate hs, refines_of_validate hcharge, refines_of_validate hs,
    refines_of_validate hs⟩

/-- Two hits above the threshold together, a later one, and the end of the stream: the window fires
    on the later one, which is alone in the next window and leaves no activity at the end. -/
theorem firing_window_refines :
    let s := Settings.withAdcTrigger {} 100
    let cs := Call.stream [Primitive.hit 1 0 60, .hit 2 10 60, .hit 3 9000 10]
    s.validate = .ok () ∧ Refines (Geometry.horizontal s) ∧ Refines (Geometry.charge s) ∧
      Refines ({ settings := s } : Shape) ∧ Refines ({ settings := s } : Grouping) ∧
      ({ policy := .charge s } : Reference Geometry Primitive).FitsAll cs ∧
      ∃ steps, Maker.run ({ policy := .charge s } : Windowed Geometry Primitive) cs = .ok steps ∧
        steps.map (fun step =>
          (step.outputs.map some, step.maker.statistics, step.maker.window.inputs)) =
          [([], { inputs := 1 }, [.hit 1 0 60]),
            ([], { inputs := 2 }, [.hit 1 0 60, .hit 2 10 60]),
            ([some (.spanning .adcSimpleWindow 0 10 120 (.hit 1 0 60) [.hit 2 10 60])],
              { inputs := 3, fired := 1, emitted := 1 }, [.hit 3 9000 10]),
            ([], { inputs := 3, fired := 1, emitted := 1 }, [])] := by
  intro s cs
  have hvalid : s.validate = .ok () := Settings.validate_eq_ok_iff.2 (by decide)
  obtain ⟨hhorizontal, hcharge, hshape, hgrouping⟩ := windowed_refines_reference s hvalid
  have hgoes : (Maker.run ({ policy := .charge s } : Windowed Geometry Primitive) cs).toOption.map
      (fun _ => ()) = some () := by
    decide +kernel
  obtain ⟨steps, hrun, -⟩ := Checked.toOption_map_eq_some_iff.1 hgoes
  refine ⟨hvalid, hhorizontal, hcharge, hshape, hgrouping,
    (hcharge.goesThrough cs).1 ⟨steps, hrun⟩, steps, hrun, ?_⟩
  -- What the maker does is worked out on the reference.
  rw [hcharge.agrees cs steps hrun]
  decide +kernel

end TriggerChain
