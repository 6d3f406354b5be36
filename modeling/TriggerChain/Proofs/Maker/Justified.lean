import TriggerChain.Proofs.Maker.Kinds
import TriggerChain.Proofs.Maker.Partition
import TriggerChain.Proofs.Maker.Summary
import TriggerChain.Proofs.Maker.Windowless

/-!
# Why an activity is made

The record of an activity is put together from the aggregates that its window kept and from the
list of its primitives, and the window fired on the aggregates. After any history both say the same
as the primitives of the activity alone. So every field can be read off them, and a condition that
is enabled holds of them, or of the primitive that arrived next.

Main statement: `activities_are_justified`.
-/

namespace TriggerChain

/-! ## Conditions on primitives -/

/-- A geometric condition that is enabled is met: by some primitives themselves, or by the one that
    arrives next. -/
inductive Settings.Met (s : Settings) (ps : List Primitive) (next : Option Primitive) : Prop
  | charge (henabled : s.triggerOnAdc = true)
      (habove : s.adcThreshold < Window.chargeOf ps) : Met s ps next
  | channels (henabled : s.triggerOnChannels = true)
      (habove : s.channelsThreshold < (ps.map (·.channel)).dedup.length) : Met s ps next
  | adjacency (henabled : s.triggerOnAdjacency = true)
      (habove : s.adjacencyThreshold <
        (s.scanner .gapWidth).longestRun (ps.map (·.channel))) : Met s ps next
  | timeOverThreshold {x : Primitive} (hnext : next = some x) (henabled : s.triggerOnTot = true)
      (habove : (s.totThreshold : Int) < x.timeOverThreshold.toInt) : Met s ps next

/-- The longest run of some primitives is above its threshold, and its charge peaks at an end. -/
structure Shape.Met (p : Shape) (ps : List Primitive) : Prop where
  enabled : p.settings.triggerOnAdjacency = true
  above : p.settings.adjacencyThreshold < p.test.scanner.longestRun (ps.map (·.channel))
  peaked : (p.test.run ps).endPeaked = true

theorem Settings.met_of_firesOnSums {s : Settings} {ps : List Primitive} {fired : Fired}
    (h : s.firesOnSums ps = some fired) (next : Option Primitive) : s.Met ps next := by
  unfold Settings.firesOnSums at h
  rw [channelsOf_primitives] at h
  split at h
  · next hcharge => exact .charge hcharge.1 hcharge.2
  · split at h
    · next hchannels => exact .channels hchannels.1 hchannels.2
    · cases h

theorem Geometry.met_of_firesOn {g : Geometry} {ps : List Primitive} {x : Primitive}
    {fired : Fired} (h : g.firesOn ps x = some fired) : g.settings.Met ps (some x) := by
  unfold Geometry.firesOn at h
  rw [channelsOf_primitives] at h
  rcases Option.or_eq_some_iff.1 h with hsums | ⟨-, h⟩
  · exact Settings.met_of_firesOnSums hsums (some x)
  · split at h
    · next hadjacency => exact .adjacency hadjacency.1 hadjacency.2
    · split at h
      · next htot => exact .timeOverThreshold rfl htot.1 htot.2
      · cases h

theorem Shape.met_of_firesOn {p : Shape} {ps : List Primitive} {fired : Fired}
    (h : p.firesOn ps = some fired) : p.Met ps := by
  unfold Shape.firesOn at h
  rw [channelsOf_primitives] at h
  dsimp only at h
  split at h
  · next hmet => exact ⟨hmet.1, hmet.2.1, hmet.2.2⟩
  · cases h

/-! ## Windows that fire -/

section Windowed

variable {π τ ο : Type} [Element τ] [Policy π τ ο] [ListPolicy π τ ο] [Cluster ο τ]
  [LawfulPolicy π τ ο]

/-- What a maker of a policy gives at a call is the record of a list that was handed over last, and
    that fires at the call. -/
structure Windowed.Given (p : π) (cs : List (Call τ)) (c : Call τ) (o : ο) : Prop where
  record : ListPolicy.record? p (Cluster.elements o) = some o
  heard : Cluster.elements o <:+ Call.inputs cs
  fires : ∃ fired, ListPolicy.firesAt p (Cluster.elements o) c = some fired

theorem Windowed.given_of_gives {p : π} (hp : (Policy.settings p).validate = .ok ())
    (horder : Element.inOrder τ = true) (hpasses : ListPolicy.passes p = false)
    {cs : List (Call τ)} {c : Call τ} {o : ο}
    (h : Maker.Gives ({ policy := p } : Windowed π τ) cs c o) : Given p cs c o := by
  obtain ⟨steps, step, hrun, hstep, ho⟩ := h
  have hvalid := valid_fresh (τ := τ) hp
  obtain ⟨hreached, hpolicy⟩ := hvalid.after_run hrun
  have hmatches := (hreached.follows hstep).reference
  obtain ⟨hemitted, hrecord⟩ := hmatches.record_of_mem ho
  rw [hreached.policy_eq hstep, hpolicy] at hrecord
  have hforgot : (Maker.after ({ policy := p } : Windowed π τ) steps).forget.policy = p := hpolicy
  cases Reference.origin_of_emitted hemitted with
  | fired hall hfires =>
    rw [hforgot] at hfires
    refine ⟨hrecord, ?_, _, hfires⟩
    -- The window is the end of the stream so far.
    obtain ⟨before, hstream, -⟩ := hvalid.laid_run horder hpasses hrun (Laid.rest [])
    rw [hall]
    exact ⟨before, hstream.symm⟩
  | passed hpass =>
    rw [hforgot, hpasses] at hpass
    cases hpass

end Windowed

/-! ## Makers of activities -/

/-- Whether the activities of a kind last until their last primitive is below threshold again. -/
def ActivityMakerKind.endIncludesTot : ActivityMakerKind → Bool
  | adcSimpleWindow | horizontalMuon => false
  | michelElectron | prescale => true

/-- Why a kind of maker gives an activity at a call behind some others: its primitives arrived
    last, and they meet a condition; a prescale makes it of the primitive that arrives. -/
def ActivityMakerKind.Justifies (s : Settings) (cs : List (Call Primitive)) (c : Call Primitive)
    (a : Activity) : ActivityMakerKind → Prop
  | adcSimpleWindow => a.inputs <:+ Call.inputs cs ∧ s.adcThreshold < Window.chargeOf a.inputs
  | horizontalMuon => a.inputs <:+ Call.inputs cs ∧ s.Met a.inputs c.input?
  | michelElectron => a.inputs <:+ Call.inputs cs ∧ ({ settings := s } : Shape).Met a.inputs
  | prescale => a.inputs = c.input?.toList

theorem Geometry.met_of_firesAt {g : Geometry} {ps : List Primitive} {c : Call Primitive}
    {fired : Fired} (h : ListPolicy.firesAt g ps c = some fired) : g.settings.Met ps c.input? := by
  cases c with
  | process x => exact met_of_firesOn h
  | flush => exact Settings.met_of_firesOnSums h none

theorem Shape.met_of_firesAt {p : Shape} {ps : List Primitive} {c : Call Primitive}
    {fired : Fired} (h : ListPolicy.firesAt p ps c = some fired) : p.Met ps := by
  cases c with
  | process x => exact met_of_firesOn h
  | flush => cases h

theorem Prescaler.promoted_of_gives {m : Prescaler Primitive} {cs : List (Call Primitive)}
    {c : Call Primitive} {a : Activity} (h : Maker.Gives m cs c a) :
    ∃ p, c = .process p ∧ Activity.ofPrimitive p .prescale = .ok a := by
  obtain ⟨steps, step, -, hstep, ha⟩ := h
  cases c with
  | flush =>
    obtain rfl := Except.ok.inj hstep
    cases ha
  | process p =>
    cases processed_of_process hstep with
    | kept _ hpromote =>
      obtain rfl := List.mem_singleton.1 ha
      exact ⟨p, rfl, hpromote⟩
    | dropped => cases ha

theorem ActivityMakerKind.justifies_of_gives {s : Settings} (hs : s.validate = .ok ())
    (kind : ActivityMakerKind) {cs : List (Call Primitive)} {c : Call Primitive} {a : Activity}
    (h : Maker.Gives (kind.made s) cs c a) :
    a.Describes kind.endIncludesTot ∧ kind.Justifies s cs c a := by
  cases kind with
  | adcSimpleWindow =>
    have hgiven := Windowed.given_of_gives (p := Geometry.charge s) hs rfl rfl
      (ActivityMaker.embeds_geometry.gives h)
    obtain ⟨fired, hfires⟩ := hgiven.fires
    refine ⟨describes_of_record hgiven.record, hgiven.heard, ?_⟩
    -- The charge is the only condition that is enabled.
    cases Geometry.met_of_firesAt hfires with
    | charge _ habove => exact habove
    | channels henabled => cases henabled
    | adjacency henabled => cases henabled
    | timeOverThreshold _ henabled => cases henabled
  | horizontalMuon =>
    have hgiven := Windowed.given_of_gives (p := Geometry.horizontal s) hs rfl rfl
      (ActivityMaker.embeds_geometry.gives h)
    obtain ⟨fired, hfires⟩ := hgiven.fires
    exact ⟨describes_of_record hgiven.record, hgiven.heard, Geometry.met_of_firesAt hfires⟩
  | michelElectron =>
    have hgiven := Windowed.given_of_gives (p := ({ settings := s } : Shape)) hs rfl rfl
      (ActivityMaker.embeds_shape.gives h)
    obtain ⟨fired, hfires⟩ := hgiven.fires
    exact ⟨describes_of_record hgiven.record, hgiven.heard, Shape.met_of_firesAt hfires⟩
  | prescale =>
    obtain ⟨p, rfl, hpromote⟩ :=
      Prescaler.promoted_of_gives (ActivityMaker.embeds_prescale.gives h)
    exact ⟨describes_of_primitive hpromote, (summary_of_primitive hpromote).1⟩

/-- With settings in range, every activity of a run, whatever the kind of the maker, is described by
    its own primitives, and the call that gives it is justified by them or by what it hands over. -/
theorem activities_are_justified (s : Settings) (hs : s.validate = .ok ())
    (kind : ActivityMakerKind) (cs : List (Call Primitive))
    (steps : List (Step ActivityMaker Activity))
    (hrun : Maker.run (kind.made s) cs = .ok steps) :
    ∀ a ∈ Maker.outputs steps, ∃ pre c post, cs = pre ++ c :: post ∧
      Maker.Gives (kind.made s) pre c a ∧ a.Describes kind.endIncludesTot ∧
      kind.Justifies s pre c a := by
  intro a ha
  obtain ⟨pre, c, post, hsplit, hgives⟩ := Maker.gives_of_run hrun ha
  exact ⟨pre, c, post, hsplit, hgives, kind.justifies_of_gives hs hgives⟩

/-- Two short hits, and a long one behind their window. -/
def twoHitsAndLong : List (Call Primitive) :=
  [.process (.hit 1 0 10), .process (.hit 2 100 20),
    .process { channel := 3, timeStart := 9000, timeOverThreshold := 40 }]

/-- The short hits become an activity when the long one arrives, and the activity says nothing of
    the long one. -/
theorem long_hit_justifies_two_before :
    ((Settings.withoutTriggers {}).withTotTrigger 30).validate = .ok () ∧
      ∃ steps,
        Maker.run (ActivityMakerKind.horizontalMuon.made
            ((Settings.withoutTriggers {}).withTotTrigger 30)) twoHitsAndLong = .ok steps ∧
          (Maker.outputs steps).map (fun a => (a.inputs, a.timeEnd)) =
            [([.hit 1 0 10, .hit 2 100 20], 100)] ∧
          ∀ a ∈ Maker.outputs steps, ∃ pre c post, twoHitsAndLong = pre ++ c :: post ∧
            Maker.Gives (ActivityMakerKind.horizontalMuon.made
              ((Settings.withoutTriggers {}).withTotTrigger 30)) pre c a ∧
            a.Describes ActivityMakerKind.horizontalMuon.endIncludesTot ∧
            ActivityMakerKind.horizontalMuon.Justifies
              ((Settings.withoutTriggers {}).withTotTrigger 30) pre c a := by
  have hvalid : ((Settings.withoutTriggers {}).withTotTrigger 30).validate = .ok () :=
    Settings.validate_eq_ok_iff.2 (by decide)
  have hruns : (Maker.run (ActivityMakerKind.horizontalMuon.made
      ((Settings.withoutTriggers {}).withTotTrigger 30)) twoHitsAndLong).map (fun steps =>
        (Maker.outputs steps).map fun a => (a.inputs, a.timeEnd)) =
      .ok [([.hit 1 0 10, .hit 2 100 20], 100)] := rfl
  obtain ⟨steps, hrun, hone⟩ := Checked.map_eq_ok_iff.1 hruns
  exact ⟨hvalid, steps, hrun, hone, activities_are_justified _ hvalid _ _ _ hrun⟩

end TriggerChain
