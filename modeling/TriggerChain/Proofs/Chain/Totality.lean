import TriggerChain.Proofs.Chain.Activities
import TriggerChain.Proofs.Chain.Passes
import TriggerChain.Proofs.Maker.Counters
import TriggerChain.Proofs.Maker.Fits
import TriggerChain.Proofs.Maker.Stops

/-!
# Chains that come to their end

A chain takes fewer than `2 ^ 32` primitives in whatever order of time, if the interval to read out
around each primitive alone fits. The sums over a window are then sums over few primitives, each
of them counted once; and the times of a record are those of one primitive, moved by the margins.
Ages are cut off at the ends of the range, so the distance between two primitives does not matter.

Main statement: `chain_goes_through`.
-/

namespace TriggerChain

/-! ## Activity makers -/

/-- A maker of any kind goes through fewer than `2 ^ 32` primitives that are below threshold again
    at times that fit. -/
theorem ActivityMaker.goesThrough {m : ActivityMaker} (hm : m.Fresh) {cs : List (Call Primitive)}
    (hfew : (Call.inputs cs).length < UInt32.size)
    (hend : ∀ p ∈ Call.inputs cs, Ticks.Fits (p.timeStart.toInt + p.timeOverThreshold.toInt)) :
    ∃ steps : List (Step ActivityMaker Activity), Maker.run m cs = .ok steps := by
  have hnone : ([] : List Primitive).length + (Call.inputs cs).length < UInt32.size := by
    simpa using hfew
  cases hm with
  | geometry hg =>
    exact embeds_geometry.goesThrough
      (((refines_of_validate hg).goesThrough cs).2 (Geometry.fitsAll hnone))
  | shape hp =>
    exact embeds_shape.goesThrough
      (((refines_of_validate hp).goesThrough cs).2 (Shape.fitsAll hnone hend))
  | prescale =>
    refine embeds_prescale.goesThrough (Prescaler.goesThrough _ ?_)
    intro p hp
    have htimeEnd : p.timeEnd = .ok (p.timeStart + p.timeOverThreshold) := if_pos (hend p hp)
    exact ⟨_, Checked.bind_eq_ok_iff.2 ⟨_, htimeEnd, rfl⟩⟩

/-! ## Aggregates of activities -/

theorem channelsOf_activities (as : List Activity) :
    Window.channelsOf as = Window.channelsOf (as.flatMap (·.inputs)) := by
  rw [channelsOf_primitives, List.map_flatMap]
  rfl

theorem chargeOf_activities {as : List Activity}
    (h : ∀ a ∈ as, ∃ endIncludesTot, a.Summary endIncludesTot) :
    Window.chargeOf as = Window.chargeOf (as.flatMap (·.inputs)) := by
  induction as with
  | nil => rfl
  | cons a as ih =>
    obtain ⟨endIncludesTot, hsummary⟩ := h a List.mem_cons_self
    have hcharge : (Element.charge a).toNat = Window.chargeOf a.inputs := hsummary.charge
    rw [Window.chargeOf_cons, List.flatMap_cons, Window.chargeOf_append, hcharge,
      ih fun b hb => h b (List.mem_cons_of_mem a hb)]

/-- Activities have the aggregates of their primitives, and every primitive is in one of them at
    most. -/
theorem Clusters.aggregatesFit {ps : List Primitive} {as : List Activity} (h : Clusters ps as)
    (hfew : ps.length < UInt32.size) : Window.AggregatesFit as := by
  have hsub : (as.flatMap (·.inputs)).Sublist ps := h.laid.flatten_sublist
  have hfit : Window.AggregatesFit (as.flatMap (·.inputs)) :=
    aggregatesFit_of_length (Nat.lt_of_le_of_lt hsub.length_le hfew)
  refine ⟨?_, ?_⟩
  · rw [chargeOf_activities h.summary]
    exact hfit.charge
  · rw [channelsOf_activities]
    exact hfit.hits

/-! ## Intervals to read out -/

/-- The interval to read out around a primitive alone fits, and so does its end. -/
structure Primitive.ReadoutFits (s : Settings) (p : Primitive) : Prop where
  start : Ticks.Fits (p.timeStart.toInt - s.readoutBefore.toInt)
  ended : Ticks.Fits (p.timeStart.toInt + p.timeOverThreshold.toInt)
  stop : Ticks.Fits (p.timeStart.toInt + p.timeOverThreshold.toInt + s.readoutAfter.toInt)

instance (s : Settings) (p : Primitive) : Decidable (p.ReadoutFits s) :=
  decidable_of_iff (Ticks.Fits _ ∧ Ticks.Fits _ ∧ Ticks.Fits _)
    ⟨fun ⟨hstart, hended, hstop⟩ => ⟨hstart, hended, hstop⟩,
      fun ⟨hstart, hended, hstop⟩ => ⟨hstart, hended, hstop⟩⟩

/-- The interval to read out around an activity fits, and so does the end of its last primitive. -/
structure Activity.ReadoutFits (s : Settings) (a : Activity) : Prop where
  start : Ticks.Fits (a.timeStart.toInt - s.readoutBefore.toInt)
  ended : Ticks.Fits (Grouping.exactEndOf a)
  stop : Ticks.Fits (Grouping.exactEndOf a + s.readoutAfter.toInt)

/-- An activity begins where its first primitive does, and is read out for as long as its last. -/
theorem Activity.Summary.readoutFits {a : Activity} {endIncludesTot : Bool}
    (h : a.Summary endIncludesTot) {s : Settings}
    (hfits : ∀ p ∈ a.inputs, p.ReadoutFits s) : a.ReadoutFits s := by
  obtain ⟨first, rest, hcons⟩ := List.exists_cons_of_ne_nil h.nonempty
  have hfirst := hfits first (hcons ▸ List.mem_cons_self)
  have hbegin : a.timeStart = first.timeStart := by
    rw [h.timeStart, hcons]
    rfl
  obtain ⟨last, hlast⟩ : ∃ last, a.inputs.getLast? = some last :=
    ⟨_, List.getLast?_eq_some_getLast h.nonempty⟩
  have hstop := hfits last (List.mem_of_getLast? hlast)
  have hend : Grouping.exactEndOf a =
      last.timeStart.toInt + last.timeOverThreshold.toInt := by
    rw [Grouping.exactEndOf, hlast]
  refine ⟨?_, ?_, ?_⟩
  · rw [hbegin]
    exact hfirst.start
  · rw [hend]
    exact hstop.ended
  · rw [hend]
    exact hstop.stop

/-- Activities become a record if the interval to read out fits around each of them. -/
theorem Grouping.record_ne_none {g : Grouping} {as : List Activity} (hne : as ≠ [])
    (hfits : ∀ a ∈ as, a.ReadoutFits g.settings) : g.record? as ≠ none := by
  obtain ⟨first, rest, rfl⟩ := List.exists_cons_of_ne_nil hne
  have hfirst := hfits first List.mem_cons_self
  have hlast := hfits (rest.getLastD first)
    (List.mem_of_getLast? (getLast?_cons_eq_getLastD first rest))
  have hlastEnd : Ticks.ofInt? _ = some _ := if_pos hlast.ended
  have htimeStart : Ticks.ofInt? _ = some _ := if_pos hfirst.start
  have hstop := hlast.stop
  rw [← Ticks.ofInt?_eq_some hlastEnd] at hstop
  have htimeEnd : Ticks.ofInt? _ = some _ := if_pos hstop
  have hrecord : g.record? (first :: rest) = some _ :=
    Option.bind_eq_some_iff.2 ⟨_, hlastEnd, Option.bind_eq_some_iff.2 ⟨_, htimeStart,
      Option.bind_eq_some_iff.2 ⟨_, htimeEnd, rfl⟩⟩⟩
  rw [hrecord]
  exact Option.some_ne_none _

/-! ## Candidate makers -/

/-- A grouping goes through activities whose aggregates fit, if the interval to read out fits
    around each of them. -/
theorem Grouping.fitsAll {r : Reference Grouping Activity} (hempty : r.residents = [])
    {cs : List (Call Activity)} (haggregates : Window.AggregatesFit (Call.inputs cs))
    (hfits : ∀ a ∈ Call.inputs cs, a.ReadoutFits r.policy.settings) : r.FitsAll cs := by
  refine Reference.fitsAll_of_pool haggregates ?_ ?_
  · intro as hne hsub
    exact Grouping.record_ne_none hne fun a ha => hfits a (hsub.subset ha)
  · rw [hempty]
    exact .refl _

/-- A maker of any kind goes through such activities. -/
theorem CandidateMaker.goesThrough {m : CandidateMaker} {s : Settings} (hm : m.Fresh s)
    {cs : List (Call Activity)} (haggregates : Window.AggregatesFit (Call.inputs cs))
    (hfits : ∀ a ∈ Call.inputs cs, a.ReadoutFits s) :
    ∃ steps : List (Step CandidateMaker Candidate), Maker.run m cs = .ok steps := by
  cases hm with
  | grouping hs =>
    have hsettings : (Policy.settings ({ settings := s } : Grouping)).validate = .ok () := hs
    exact embeds_grouping.goesThrough
      (((refines_of_validate hsettings).goesThrough cs).2 (Grouping.fitsAll rfl haggregates hfits))
  | prescale =>
    exact embeds_prescale.goesThrough
      (Prescaler.goesThrough _ fun a _ => ⟨Candidate.ofActivity a, rfl⟩)
  | bundle => exact embeds_bundle.goesThrough (Bundler.goesThrough _ cs)
  | burst => exact embeds_burst.goesThrough (BurstFinder.goesThrough _ cs)

/-! ## Chains -/

section Chains

variable {m : ActivityMaker} {k : CandidateMaker} {s : Settings} {ps : List Primitive}

/-- An activity maker goes through every beginning of the stream. -/
theorem ActivityMaker.goesThrough_prefix (hm : m.Fresh) (hfew : ps.length < UInt32.size)
    (hfits : ∀ p ∈ ps, p.ReadoutFits s) {cs : List (Call Primitive)}
    (hcs : cs <+: Call.stream ps) :
    ∃ steps : List (Step ActivityMaker Activity), Maker.run m cs = .ok steps := by
  have hinputs := Call.inputs_prefix hcs
  exact goesThrough hm (Nat.lt_of_le_of_lt hinputs.length_le hfew)
    fun p hp => (hfits p (hinputs.subset hp)).ended

/-- A candidate maker goes through every beginning of what an activity maker has made of a
    beginning of the stream. -/
theorem CandidateMaker.goesThrough_prefix (hm : m.Fresh) (hk : k.Fresh s)
    (hfew : ps.length < UInt32.size) (hfits : ∀ p ∈ ps, p.ReadoutFits s)
    {cs : List (Call Primitive)} (hcs : cs <+: Call.stream ps)
    {as : List (Step ActivityMaker Activity)} (has : Maker.run m cs = .ok as)
    {ds : List (Call Activity)} (hds : ds <+: Call.stream (Maker.outputs as)) :
    ∃ steps : List (Step CandidateMaker Candidate), Maker.run k ds = .ok steps := by
  have hinputs := Call.inputs_prefix hcs
  have hhanded := Call.inputs_prefix hds
  have hclusters := ActivityMaker.clusters_of_run hm has
  have haggregates : Window.AggregatesFit (Maker.outputs as) :=
    hclusters.aggregatesFit (Nat.lt_of_le_of_lt hinputs.length_le hfew)
  refine goesThrough hk (haggregates.of_subperm hhanded.sublist.subperm) ?_
  intro a ha
  obtain ⟨_, hsummary⟩ := hclusters.summary a (hhanded.subset ha)
  refine hsummary.readoutFits fun p hp => hfits p (hinputs.subset ?_)
  exact hclusters.mem (hhanded.subset ha) hp

/-- The counters of a candidate maker at the end of a chain are bounded by the primitives, since
    there are no more activities. -/
theorem CandidateMaker.countsUpTo_of_passes (hm : m.Fresh) (hk : k.Fresh s)
    {as : List (Step ActivityMaker Activity)} {ks : List (Step CandidateMaker Candidate)}
    {c : Chain ActivityMaker CandidateMaker} (h : Chain.Passes m k ps as ks c) :
    ∀ k' ∈ k :: ks.map (·.maker), k'.CountsUpTo (ps.length + 1) := by
  have hclusters := ActivityMaker.clusters_of_run hm h.activityRun
  rw [Call.inputs_stream] at hclusters
  have hle : (Call.stream (Maker.outputs as)).length ≤ ps.length + 1 := by
    rw [Call.length_stream]
    exact Nat.succ_le_succ hclusters.length_le
  intro k' hk'
  exact (countsUpTo_of_run hk h.candidateRun k' hk').mono hle

end Chains

/-- No chain of registered makers stops on fewer than `2 ^ 32` primitives, in any order of time and
    with any sign of the time over threshold, if the interval to read out around each primitive
    alone fits. On the way no counter of either maker goes beyond the number of primitives but for
    the flush, and no remainder is taken by zero. -/
theorem chain_goes_through (registry : Registry) (setup : ChainSetup) (built : ChainSetup.Built)
    (hbuild : setup.build registry = .ok built) (s : Settings)
    (hsettings : setup.candidateSettings registry = .ok s) (ps : List Primitive)
    (hfew : ps.length < UInt32.size) (hfits : ∀ p ∈ ps, p.ReadoutFits s) :
    ∃ c as ks, built.run ps = .ok c ∧
      Chain.Passes built.activityMaker built.candidateMaker ps as ks c ∧
      (∀ m ∈ built.activityMaker :: as.map (·.maker), m.CountsUpTo (ps.length + 1)) ∧
      (∀ m ∈ built.candidateMaker :: ks.map (·.maker), m.CountsUpTo (ps.length + 1)) := by
  obtain ⟨hactivity, s', hsettings', hcandidate⟩ := ChainSetup.makers_of_build hbuild
  obtain rfl : s = s' := Except.ok.inj (hsettings.symm.trans hsettings')
  cases hrun : built.run ps with
  | error stop =>
    -- Where the chain stops, one of the makers stops in a pass that goes through.
    exfalso
    obtain ⟨fault, left⟩ := stop
    rcases Chain.stops_of_run hrun with ⟨pre, hpre, hstop⟩ | ⟨pre, as, ds, hpre, has, hds, hstop⟩
    · obtain ⟨steps, hgoes⟩ := ActivityMaker.goesThrough_prefix hactivity hfew hfits hpre
      exact Checked.false_of_ok_error hgoes hstop
    · obtain ⟨steps, hgoes⟩ :=
        CandidateMaker.goesThrough_prefix hactivity hcandidate hfew hfits hpre has hds
      exact Checked.false_of_ok_error hgoes hstop
  | ok c =>
    obtain ⟨as, ks, hpasses⟩ := Chain.passes_of_run hrun
    refine ⟨c, as, ks, rfl, hpasses, ?_, ?_⟩
    · rw [← Call.length_stream]
      exact ActivityMaker.countsUpTo_of_run hactivity hpasses.activityRun
    · exact CandidateMaker.countsUpTo_of_passes hactivity hcandidate hpasses

/-- Two hits at the ends of the range of times, which lie further apart than the range reaches:
    each of them becomes a candidate. -/
theorem distant_hits_go_through :
    ∃ setup built s c, ChainSetup.build setup .builtin = .ok built ∧
      setup.candidateSettings .builtin = .ok s ∧ 0 < s.readoutBefore ∧ 0 < s.readoutAfter ∧
      (∀ p ∈ [Primitive.hit 1 (-9223372036854775000) 60, .hit 2 9223372036854775000 60],
        p.ReadoutFits s) ∧
      built.run [.hit 1 (-9223372036854775000) 60, .hit 2 9223372036854775000 60] = .ok c ∧
      c.candidates.size = 2 := by
  let setup : ChainSetup := {
    activityMaker := "adc_simple_window"
    activityConfig := .object [("trigger_on_adc", .bool true), ("adc_threshold", .integer 50)]
    candidateConfig := .object [("readout_window_ticks_before", .integer 500),
      ("readout_window_ticks_after", .integer 500)] }
  let s : Settings := .withReadout .forCandidates 500 500
  let built : ChainSetup.Built := {
    activityMaker := ActivityMakerKind.adcSimpleWindow.made (.withAdcTrigger {} 50)
    candidateMaker := CandidateMakerKind.horizontalMuon.made (.withReadout .forCandidates 500 500)
    notices := [] }
  have hbuild : setup.build .builtin = .ok built := rfl
  have hsettings : setup.candidateSettings .builtin = .ok s := rfl
  have hfits : ∀ p ∈ [Primitive.hit 1 (-9223372036854775000) 60, .hit 2 9223372036854775000 60],
      p.ReadoutFits s := by decide
  obtain ⟨c, as, ks, hrun, -⟩ :=
    chain_goes_through .builtin setup built hbuild s hsettings _ (by decide) hfits
  have hsize : (built.run [.hit 1 (-9223372036854775000) 60,
      .hit 2 9223372036854775000 60]).toOption.map (fun c => c.candidates.size) = some 2 := by
    decide +kernel
  rw [hrun] at hsize
  exact ⟨setup, built, s, c, hbuild, hsettings, by decide, by decide, hfits, hrun,
    Option.some.inj hsize⟩

end TriggerChain
