import TriggerChain.Proofs.Maker.Lockstep
import TriggerChain.Proofs.Maker.Windowless
import TriggerChain.Proofs.Record.Moved

/-!
# Makers that carry a relation over

Two runs of one maker are compared, on inputs that are related one by one. The maker carries the
relation over to its outputs: from related inputs it makes related outputs at the same calls, with
the same counters. It may stop on one side only, where an output that was made of the inputs of
the other side has no counterpart because a number of it would not fit.

Main statements: `Carries.of_simulation` for makers of any kind, and `Windowed.carries` for
windowed makers.
-/

namespace TriggerChain

section Carries

variable {μ ν ι ο : Type} [Maker μ ι ο] [Maker ν ι ο]

/-- A maker that has heard nothing carries the relation `R` of its inputs over to the relation `Q`
    of its outputs. `InRange` says of an output that its counterpart can be made. -/
structure Carries (R : ι → ι → Prop) (InRange : ο → Prop) (Q : ο → ο → Prop) (m : μ) : Prop where
  goesThrough : ∀ {cs cs'} {steps : List (Step μ ο)}, List.Forall₂ (Call.Related R) cs cs' →
    Maker.run m cs = .ok steps →
    ((∃ steps' : List (Step μ ο), Maker.run m cs' = .ok steps') ↔
      ∀ o ∈ Maker.outputs steps, InRange o)
  agrees : ∀ {cs cs'} {steps steps' : List (Step μ ο)}, List.Forall₂ (Call.Related R) cs cs' →
    Maker.run m cs = .ok steps → Maker.run m cs' = .ok steps' →
    Maker.statistics (Maker.after m steps) = Maker.statistics (Maker.after m steps') ∧
      List.Forall₂ Q (Maker.outputs steps) (Maker.outputs steps')

variable {R : ι → ι → Prop} {InRange : ο → Prop} {Q : ο → ο → Prop} {S : μ → μ → Prop}

/-- A call that went through, and the related call on a related maker. -/
structure CarriesCall (S : μ → μ → Prop) (InRange : ο → Prop) (Q : ο → ο → Prop)
    (step : Step μ ο) (result : Except Fault (Step μ ο)) : Prop where
  goesThrough : (∃ step', result = .ok step') ↔ ∀ o ∈ step.outputs, InRange o
  agrees : ∀ step', result = .ok step' →
    S step.maker step'.maker ∧ List.Forall₂ Q step.outputs step'.outputs

/-- Calls that always go through, whatever is to be made. -/
theorem CarriesCall.of_ok {step step' : Step μ ο} (hrange : ∀ o ∈ step.outputs, InRange o)
    (hmaker : S step.maker step'.maker) (houtputs : List.Forall₂ Q step.outputs step'.outputs) :
    CarriesCall S InRange Q step (.ok step') := by
  refine ⟨⟨fun _ => hrange, fun _ => ⟨step', rfl⟩⟩, ?_⟩
  intro step'' h
  obtain rfl := Except.ok.inj h
  exact ⟨hmaker, houtputs⟩

section Simulation

variable (hcall : ∀ {m m' : μ} {c c' : Call ι} {step : Step μ ο}, S m m' →
  Call.Related R c c' → Maker.call m c = .ok step →
  CarriesCall S InRange Q step (Maker.call m' c'))

include hcall

theorem carries_run {m m' : μ} (hm : S m m') {cs cs' : List (Call ι)}
    (hcs : List.Forall₂ (Call.Related R) cs cs') {steps : List (Step μ ο)}
    (h : Maker.run m cs = .ok steps) :
    ((∃ steps' : List (Step μ ο), Maker.run m' cs' = .ok steps') ↔
        ∀ o ∈ Maker.outputs steps, InRange o) ∧
      ∀ steps' : List (Step μ ο), Maker.run m' cs' = .ok steps' →
        S (Maker.after m steps) (Maker.after m' steps') ∧
          List.Forall₂ Q (Maker.outputs steps) (Maker.outputs steps') := by
  induction hcs generalizing m m' steps with
  | nil =>
    obtain rfl := Except.ok.inj h
    refine ⟨⟨fun _ => List.forall_mem_nil _, fun _ => ⟨[], rfl⟩⟩, ?_⟩
    intro steps' h'
    obtain rfl := Except.ok.inj h'
    exact ⟨hm, .nil⟩
  | cons hc _ ih =>
    obtain ⟨step, rest, hstep, hrest, rfl⟩ := Maker.run_cons_eq_ok_iff.1 h
    have hfirst := hcall hm hc hstep
    refine ⟨⟨?_, ?_⟩, ?_⟩
    · rintro ⟨steps', h'⟩
      obtain ⟨step', rest', hstep', hrest', rfl⟩ := Maker.run_cons_eq_ok_iff.1 h'
      have hnext := (hfirst.agrees step' hstep').1
      exact List.forall_mem_append.2 ⟨hfirst.goesThrough.1 ⟨step', hstep'⟩,
        (ih hnext hrest).1.1 ⟨rest', hrest'⟩⟩
    · intro hrange
      obtain ⟨hnow, hlater⟩ := List.forall_mem_append.1 hrange
      obtain ⟨step', hstep'⟩ := hfirst.goesThrough.2 hnow
      obtain ⟨rest', hrest'⟩ := (ih (hfirst.agrees step' hstep').1 hrest).1.2 hlater
      exact ⟨step' :: rest', Maker.run_cons_eq_ok_iff.2 ⟨step', rest', hstep', hrest', rfl⟩⟩
    · intro steps' h'
      obtain ⟨step', rest', hstep', hrest', rfl⟩ := Maker.run_cons_eq_ok_iff.1 h'
      obtain ⟨hnext, hnow⟩ := hfirst.agrees step' hstep'
      obtain ⟨hlast, hlater⟩ := (ih hnext hrest).2 rest' hrest'
      exact ⟨hlast, List.rel_append hnow hlater⟩

/-- If every call keeps the two makers related, a run carries the relation over. -/
theorem Carries.of_simulation {m : μ} (hm : S m m)
    (hstatistics : ∀ m m' : μ, S m m' → Maker.statistics m = Maker.statistics m') :
    Carries R InRange Q m := by
  refine ⟨fun hcs h => (carries_run hcall hm hcs h).1, fun hcs h h' => ?_⟩
  obtain ⟨hlast, houtputs⟩ := (carries_run hcall hm hcs h).2 _ h'
  exact ⟨hstatistics _ _ hlast, houtputs⟩

end Simulation

/-- A maker that contains another one carries over what that one does. -/
theorem Carries.embeds {f : μ → ν} (hf : Embeds f)
    (hstatistics : ∀ m, Maker.statistics (f m) = Maker.statistics m) {m : μ}
    (h : Carries R InRange Q m) : Carries R InRange Q (f m) := by
  refine ⟨fun hcs hrun => ?_, fun hcs hrun hrun' => ?_⟩
  · obtain ⟨steps, hsteps, houtputs, -⟩ := hf.run_eq_ok hrun
    rw [houtputs, ← h.goesThrough hcs hsteps]
    refine ⟨?_, hf.goesThrough⟩
    rintro ⟨steps', hsteps'⟩
    obtain ⟨inner, hinner, -⟩ := hf.run_eq_ok hsteps'
    exact ⟨inner, hinner⟩
  · obtain ⟨steps, hsteps, houtputs, hafter⟩ := hf.run_eq_ok hrun
    obtain ⟨steps', hsteps', houtputs', hafter'⟩ := hf.run_eq_ok hrun'
    rw [houtputs, houtputs', hafter, hafter', hstatistics, hstatistics]
    exact h.agrees hcs hsteps hsteps'

/-- Prescalers carry over what single inputs do. -/
theorem Prescaler.carries [Promotable ι ο]
    (hrange : ∀ {x x' : ι} {o : ο}, R x x' → Promotable.promote x = .ok o →
      ((∃ o' : ο, Promotable.promote x' = .ok o') ↔ InRange o))
    (houtputs : ∀ {x x' : ι} {o o' : ο}, R x x' → Promotable.promote x = .ok o →
      Promotable.promote x' = .ok o' → Q o o') (m : Prescaler ι) :
    Carries R InRange Q m := by
  -- The state of a prescaler holds no inputs, so it is the same on both sides.
  refine Carries.of_simulation (S := Eq) ?_ rfl fun _ _ h => by rw [h]
  rintro m _ c c' step rfl hc hstep
  cases hc with
  | flush =>
    obtain rfl := Except.ok.inj hstep
    exact .of_ok (List.forall_mem_nil _) rfl .nil
  | @process x x' hx =>
    cases processed_of_process hstep with
    | kept hkeeps hpromote =>
      rename_i o
      have hcall : ∀ {step'}, Maker.call m (.process x') = .ok step' →
          ∃ o' : ο, Promotable.promote x' = .ok o' ∧ step'.outputs = [o'] ∧
            step'.maker = { m with statistics := (m.statistics.hear.fire none).emit } := by
        intro step' hstep'
        cases processed_of_process hstep' with
        | kept _ hpromote' => exact ⟨_, hpromote', rfl, rfl⟩
        | dropped hdrops => exact absurd (hkeeps.symm.trans hdrops) (by decide)
      refine ⟨?_, ?_⟩
      · rw [List.forall_mem_singleton, ← hrange hx hpromote]
        constructor
        · rintro ⟨step', hstep'⟩
          obtain ⟨o', hpromote', -⟩ := hcall hstep'
          exact ⟨o', hpromote'⟩
        · rintro ⟨o', hpromote'⟩
          exact process_goesThrough m hpromote'
      · intro step' hstep'
        obtain ⟨o', hpromote', houtput, hmaker⟩ := hcall hstep'
        rw [houtput, hmaker]
        exact ⟨rfl, .cons (houtputs hx hpromote hpromote') .nil⟩
    | dropped hdrops =>
      have hcall : Maker.call m (.process x') =
          .ok ({ maker := { m with statistics := (m.statistics.hear.fire none).drop } } :
            Step (Prescaler ι) ο) := by
        show m.process x' = _
        unfold process
        dsimp only
        rw [hdrops]
        rfl
      rw [hcall]
      exact .of_ok (List.forall_mem_nil _) rfl .nil

end Carries

/-! ## Windowed makers -/

section Windowed

variable {π τ ο : Type} [Element τ] [Policy π τ ο] [ListPolicy π τ ο]
variable {R : τ → τ → Prop} {InRange : ο → Prop} {Q : ο → ο → Prop}

/-- A policy that decides alike on related lists, and makes related records of them. -/
structure CarriesRecords (R : τ → τ → Prop) (InRange : ο → Prop) (Q : ο → ο → Prop) (p : π) :
    Prop where
  alike : Alike R p p
  sums : KeepsSums R
  inRange : ∀ {xs xs' o}, List.Forall₂ R xs xs' → ListPolicy.record? p xs = some o →
    (ListPolicy.record? p xs' ≠ none ↔ InRange o)
  records : ∀ {xs xs' o o'}, List.Forall₂ R xs xs' → ListPolicy.record? p xs = some o →
    ListPolicy.record? p xs' = some o' → Q o o'

namespace Reference

/-- Two references with one policy and the same counters, and related lists in their windows. -/
structure Abreast (R : τ → τ → Prop) (r r' : Reference π τ) : Prop where
  level : Level R r r'
  policy : r.policy = r'.policy
  statistics : r.statistics = r'.statistics

/-- A call on both sides: they stay abreast, and both emit related lists or neither does. -/
theorem Abreast.call {r r' : Reference π τ} (h : Abreast R r r') {c c' : Call τ}
    (hc : Call.Related R c c') : Abreast R (r.call c).next (r'.call c').next ∧
      Option.Rel (List.Forall₂ R) (r.call c).emitted (r'.call c').emitted := by
  have hstep := h.level.call hc
  have hpolicy : (r.call c).next.policy = (r'.call c').next.policy := by
    rw [policy_call, policy_call, h.policy]
  have htold : r.statistics.told c = r'.statistics.told c' := by
    rw [h.statistics, Statistics.told_eq hc]
  suffices hboth : (r.call c).next.statistics = (r'.call c').next.statistics ∧
      Option.Rel (List.Forall₂ R) (r.call c).emitted (r'.call c').emitted from
    ⟨⟨hstep.level, hpolicy, hboth.1⟩, hboth.2⟩
  cases hstep with
  | quiet hcall hcall' _ hstat hstat' =>
    rw [hcall, hcall']
    exact ⟨hstat.trans (htold.trans hstat'.symm), .none⟩
  | @triggered t t' fired fired' next next' hcall hcall' hlevel _ hadjacency hsame hsame'
      hstat hstat' =>
    have hprescale : t.prescale = t'.prescale := by
      rw [prescale, prescale, hsame, hsame', h.policy]
    have hstats : t.statistics = t'.statistics := hstat.trans (htold.trans hstat'.symm)
    rw [hcall, hcall']
    unfold fire
    rw [hprescale, hstats, hadjacency]
    dsimp only
    split
    · exact ⟨rfl, .some hlevel.residents⟩
    · exact ⟨rfl, .none⟩

/-- Where the numbers of a call fit on one side, those on the other do if its record fits. -/
theorem Abreast.fits_iff {r r' : Reference π τ} (h : Abreast R r r') (hR : KeepsSums R)
    {c c' : Call τ} (hc : Call.Related R c c') (hfits : r.Fits c) :
    r'.Fits c' ↔ ∀ xs, (r'.call c').emitted = some xs →
      ListPolicy.record? r'.policy xs ≠ none := by
  refine ⟨fun h' => h'.record, fun hrecord => ⟨?_, ?_, hrecord⟩⟩
  · intro y hy
    cases hc with
    | flush => cases hy
    | process hx =>
      obtain rfl := Option.some.inj hy
      exact hR.aggregatesFit (.cons hx .nil) (hfits.input _ rfl)
  · exact hR.aggregatesFit (h.call hc).1.level.residents hfits.residents

end Reference

namespace Windowed

variable [Cluster ο τ] [LawfulPolicy π τ ο]

theorem Matches.outputs_of_none {step : Step (Windowed π τ) ο} {o : Reference.Outcome π τ}
    (h : Matches step o) (hemitted : o.emitted = none) : step.outputs = [] := by
  have helements := h.elements
  rw [hemitted] at helements
  exact List.map_eq_nil_iff.1 helements

theorem Matches.outputs_of_some {step : Step (Windowed π τ) ο} {o : Reference.Outcome π τ}
    (h : Matches step o) {xs : List τ} (hemitted : o.emitted = some xs) :
    ∃ a, step.outputs = [a] ∧ ListPolicy.record? step.maker.policy xs = some a := by
  have helements := h.elements
  rw [hemitted] at helements
  obtain ⟨a, houtputs, rfl⟩ := List.map_eq_singleton_iff.1 helements
  refine ⟨a, houtputs, (h.record_of_mem ?_).2⟩
  rw [houtputs]
  exact List.mem_singleton.2 rfl

/-- A call goes through exactly if its numbers fit. -/
theorem Valid.goesThrough_call {m : Windowed π τ} (hm : m.Valid) (c : Call τ) :
    (∃ step : Step (Windowed π τ) ο, Maker.call m c = .ok step) ↔ m.forget.Fits c := by
  constructor
  · rintro ⟨step, hstep⟩
    exact (hm.follows hstep).fits
  · intro hfits
    cases hcall : Maker.call (ο := ο) m c with
    | ok step => exact ⟨step, rfl⟩
    | error fault => exact absurd hfits (hm.stops hcall).unfit

/-- Two valid makers that are abreast when their aggregates are forgotten. -/
structure Beside (R : τ → τ → Prop) (m m' : Windowed π τ) : Prop where
  valid : m.Valid
  valid' : m'.Valid
  abreast : m.forget.Abreast R m'.forget

theorem Beside.call {m m' : Windowed π τ} (h : Beside R m m')
    (hp : CarriesRecords R InRange Q m.policy) {c c' : Call τ} (hc : Call.Related R c c')
    {step : Step (Windowed π τ) ο} (hstep : Maker.call m c = .ok step) :
    CarriesCall (Beside R) InRange Q step (Maker.call m' c') := by
  obtain ⟨hnext, hemitted⟩ := h.abreast.call hc
  have hfollows := h.valid.follows hstep
  have hsame : step.maker.policy = m.policy := h.valid.policy_eq hstep
  have hsame' : m'.forget.policy = m.policy := h.abreast.policy.symm
  refine ⟨?_, ?_⟩
  · rw [h.valid'.goesThrough_call, h.abreast.fits_iff hp.sums hc hfollows.fits, hsame']
    -- Both sides emit nothing, or both emit related lists.
    generalize hleft : (m.forget.call c).emitted = emitted at hemitted
    generalize hright : (m'.forget.call c').emitted = emitted' at hemitted
    cases hemitted with
    | none =>
      rw [hfollows.reference.outputs_of_none hleft]
      exact ⟨fun _ => List.forall_mem_nil _, fun _ xs hxs => nomatch hxs⟩
    | @some xs xs' hlists =>
      obtain ⟨o, houtputs, hrecord⟩ := hfollows.reference.outputs_of_some hleft
      rw [hsame] at hrecord
      rw [houtputs, List.forall_mem_singleton, ← hp.inRange hlists hrecord]
      refine ⟨fun hall => hall xs' rfl, fun hmade ys hys => ?_⟩
      obtain rfl := Option.some.inj hys
      exact hmade
  · intro step' hstep'
    have hfollows' := h.valid'.follows hstep'
    have hsame'' : step'.maker.policy = m.policy := (h.valid'.policy_eq hstep').trans hsame'
    rw [hfollows.reference.next, hfollows'.reference.next] at hnext
    refine ⟨⟨hfollows.valid, hfollows'.valid, hnext⟩, ?_⟩
    generalize hleft : (m.forget.call c).emitted = emitted at hemitted
    generalize hright : (m'.forget.call c').emitted = emitted' at hemitted
    cases hemitted with
    | none =>
      rw [hfollows.reference.outputs_of_none hleft, hfollows'.reference.outputs_of_none hright]
      exact .nil
    | some hlists =>
      obtain ⟨o, houtputs, hrecord⟩ := hfollows.reference.outputs_of_some hleft
      obtain ⟨o', houtputs', hrecord'⟩ := hfollows'.reference.outputs_of_some hright
      rw [hsame] at hrecord
      rw [hsame''] at hrecord'
      rw [houtputs, houtputs']
      exact .cons (hp.records hlists hrecord hrecord') .nil

/-- The maker of a policy that carries records over carries the relation over. -/
theorem carries {p : π} (hvalid : (Policy.settings p).validate = .ok ())
    (hp : CarriesRecords R InRange Q p) :
    Carries R InRange Q ({ policy := p } : Windowed π τ) := by
  have hfresh := valid_fresh (τ := τ) hvalid
  have hlevel : Reference.Level R ({ policy := p } : Reference π τ) { policy := p } :=
    ⟨hp.alike, .nil⟩
  refine Carries.of_simulation (S := fun m m' => Beside R m m' ∧ m.policy = p) ?_
    ⟨⟨hfresh, hfresh, hlevel, rfl, rfl⟩, rfl⟩ fun m m' h => h.1.abreast.statistics
  rintro m m' c c' step ⟨hbeside, rfl⟩ hc hstep
  have hcarries := hbeside.call hp hc hstep
  refine ⟨hcarries.goesThrough, fun step' hstep' => ?_⟩
  obtain ⟨hnext, houtputs⟩ := hcarries.agrees step' hstep'
  exact ⟨⟨hnext, hbeside.valid.policy_eq hstep⟩, houtputs⟩

end Windowed

end Windowed

end TriggerChain
