import TriggerChain.Proofs.Charge.ClosedRuns
import TriggerChain.Proofs.Charge.LongestTrack
import TriggerChain.Proofs.Maker.Fits
import TriggerChain.Proofs.Maker.Refinement
import TriggerChain.Proofs.Window.Slide

/-!
# Flat charge

Where all hits have one charge, all running means of a width are one number, however they round.
Whether the mean of the series comes out below this number or not, its values are all above the mean
or none is. So nothing closes a block, there are no clusters, and a shape does not fire.

Main statement: `flat_charge_never_fires`.
-/

namespace TriggerChain

/-! ## Series of one value -/

/-- Where all values are the same, none of them closes a block of the others. -/
theorem chargeClusters_of_flat {series : List Float} {value : Float}
    (h : ∀ v ∈ series, v = value) : chargeClusters series = [] := by
  refine chargeClusters_eq_nil fun i j hblock => ?_
  obtain ⟨last, hlast, hnot⟩ := hblock.closes
  have hlt : i < series.length :=
    hblock.nonempty.trans (List.getElem?_eq_some_iff.1 hlast).1
  have hfirst : series[i]? = some series[i] := List.getElem?_eq_getElem hlt
  have habove := hblock.inside i _ (Nat.le_refl i) hblock.nonempty hfirst
  rw [h _ (List.mem_of_getElem? hfirst)] at habove
  rw [h _ (List.mem_of_getElem? hlast)] at hnot
  cases hnot.symm.trans habove

theorem runningMean_of_flat {values : List UInt32} {adc : UInt32} (h : ∀ v ∈ values, v = adc)
    (width : Nat) : ∀ m ∈ runningMean values width,
      m = sumOf ((List.range width).map fun _ => Float.ofNat adc.toNat) / Float.ofNat width := by
  intro m hm
  unfold runningMean at hm
  split at hm
  · cases hm
  · obtain ⟨i, hi, rfl⟩ := List.mem_map.1 hm
    -- Wherever the circle is entered, there is the same value.
    have hcircle : ∀ k, circularAt values.toArray k = Float.ofNat adc.toNat := by
      intro k
      have hpos : 0 < values.length := Nat.zero_lt_of_lt (List.mem_range.1 hi)
      have hk : k % values.length < values.length := Nat.mod_lt k hpos
      rw [circularAt, List.size_toArray, List.getElem?_toArray, List.getElem?_eq_getElem hk,
        Option.getD_some, h _ (List.getElem_mem hk)]
    simp only [hcircle]

/-! ## Tests of flat tracks -/

namespace ProfileTest

variable {t : ProfileTest} {ps : List Primitive} {adc : UInt32}

theorem track_of_flat (h : ∀ p ∈ ps, p.adcIntegral = adc) :
    ∀ v ∈ (t.longestTrack ps).1.map (·.adc), v = adc := by
  intro v hv
  obtain ⟨hit, hhit, rfl⟩ := List.mem_map.1 hv
  obtain ⟨p, hp, rfl⟩ := List.mem_map.1 ((t.longestTrack_subperm ps).subset hhit)
  exact h p hp

theorem decidingSeries_of_flat (h : ∀ p ∈ ps, p.adcIntegral = adc) :
    ∃ value, ∀ v ∈ t.decidingSeries ps, v = value := by
  have hseries : t.decidingSeries ps =
      ((t.widths.map (runningMean ((t.longestTrack ps).1.map (·.adc))))[t.decision]?).getD [] := rfl
  rw [hseries, List.getElem?_map]
  cases t.widths[t.decision]? with
  | none => exact ⟨0.0, List.forall_mem_nil _⟩
  | some width => exact ⟨_, runningMean_of_flat (track_of_flat h) width⟩

end ProfileTest

/-! ## Shapes -/

namespace Shape

variable {m : Windowed Shape Primitive} {w : Window Primitive} {adc : UInt32}

theorem evaluate_of_flat (p : Shape) (h : ∀ e ∈ w.inputs, e.adcIntegral = adc) :
    p.evaluate w = none := by
  obtain ⟨value, hvalue⟩ := p.test.decidingSeries_of_flat h
  have hpeaked := (p.test.not_endPeaked_of_clusters (chargeClusters_of_flat hvalue)).1
  unfold evaluate
  dsimp only
  rw [hpeaked]
  split <;> rfl

/-- The maker has not fired, and all it has heard and still hears has one charge. -/
structure Unfired (adc : UInt32) (m : Windowed Shape Primitive) (cs : List (Call Primitive)) :
    Prop where
  window : ∀ e ∈ m.window.inputs, e.adcIntegral = adc
  inputs : ∀ x ∈ Call.inputs cs, x.adcIntegral = adc
  fired : m.statistics.fired = 0

theorem Unfired.call {c : Call Primitive} {cs : List (Call Primitive)}
    (h : Unfired adc m (c :: cs)) {step : Step (Windowed Shape Primitive) Activity}
    (hstep : Maker.call m c = .ok step) : Unfired adc step.maker cs ∧ step.outputs = [] := by
  cases c with
  | flush =>
    cases Windowed.flushed_of_flush (show m.flush = .ok step from hstep) with
    | idle => exact ⟨⟨h.window, h.inputs, h.fired⟩, rfl⟩
    | left => exact ⟨⟨List.forall_mem_nil _, h.inputs, h.fired⟩, rfl⟩
    | fired _ hfires => cases hfires
  | process x =>
    obtain ⟨hx, hinputs⟩ := List.forall_mem_cons.1 h.inputs
    -- What is added goes among elements that are as flat.
    have hplace : ∀ es : List Primitive, (∀ e ∈ es, e.adcIntegral = adc) →
        ∀ e ∈ Window.place x es, e.adcIntegral = adc := by
      intro es hes e he
      rcases List.mem_cons.1 ((Window.place_perm x es).subset he) with rfl | he
      · exact hx
      · exact hes e he
    cases Windowed.processed_of_process hstep with
    | seeded _ _ hwindow =>
      refine ⟨⟨?_, hinputs, h.fired⟩, rfl⟩
      show ∀ e ∈ _, _
      rw [Window.inputs_of_add hwindow]
      exact hplace [] (List.forall_mem_nil _)
    | passed _ hpass => cases hpass
    | admitted _ _ hwindow =>
      refine ⟨⟨?_, hinputs, h.fired⟩, rfl⟩
      show ∀ e ∈ _, _
      rw [Window.inputs_of_add hwindow]
      exact hplace _ h.window
    | fired _ _ hfires => cases (m.policy.evaluate_of_flat h.window).symm.trans hfires
    | slid _ _ _ hwindow =>
      refine ⟨⟨?_, hinputs, h.fired⟩, rfl⟩
      show ∀ e ∈ _, _
      rw [Window.inputs_of_slide hwindow]
      exact hplace _ fun e he => h.window e ((List.dropWhile_sublist _).subset he)

end Shape

/-- Tests of profiles find nothing where all primitives have one charge, and a shape that hears no
    others never fires, whatever its settings are. -/
theorem flat_charge_never_fires (adc : UInt32) :
    (∀ (t : ProfileTest) (ps : List Primitive), (∀ p ∈ ps, p.adcIntegral = adc) →
      (t.run ps).endPeaked = false ∧ (t.run ps).clusters = [] ∧ (t.run ps).peakCluster = none) ∧
    ∀ (p : Shape) (cs : List (Call Primitive)) (steps : List (Step _ Activity)),
      (∀ x ∈ Call.inputs cs, x.adcIntegral = adc) →
      Maker.run ({ policy := p } : Windowed Shape Primitive) cs = .ok steps →
      Maker.outputs steps = [] ∧
        (Maker.after { policy := p } steps).statistics.fired = 0 := by
  refine ⟨?_, ?_⟩
  · intro t ps hflat
    obtain ⟨value, hvalue⟩ := t.decidingSeries_of_flat hflat
    exact t.not_endPeaked_of_clusters (chargeClusters_of_flat hvalue)
  · intro p cs steps hflat hrun
    have hfresh : Shape.Unfired adc { policy := p } cs := ⟨List.forall_mem_nil _, hflat, rfl⟩
    have hcall : ∀ m c cs (step : Step (Windowed Shape Primitive) Activity),
        Shape.Unfired adc m (c :: cs) → Maker.call m c = .ok step →
        Shape.Unfired adc step.maker cs ∧ ∀ o ∈ step.outputs, False := by
      intro m c cs step h hstep
      obtain ⟨hnext, hquiet⟩ := h.call hstep
      exact ⟨hnext, hquiet ▸ List.forall_mem_nil _⟩
    obtain ⟨hlast, hnone⟩ := Maker.run_invariant (Shape.Unfired adc) hcall hfresh hrun
    exact ⟨List.eq_nil_iff_forall_not_mem.2 hnone, hlast.fired⟩

/-- A track that is long enough, all of one charge, and a hit so late that it is looked at. -/
theorem long_flat_track_is_rejected :
    let p : Shape := { settings := { adjacencyThreshold := 4, windowLength := 100 } }
    let track : List Primitive := [.hit 200 0 50, .hit 201 10 50, .hit 202 20 50, .hit 203 30 50,
      .hit 204 40 50, .hit 205 50 50]
    let cs : List (Call Primitive) := (track ++ [Primitive.hit 1 5000 50]).map .process
    (∀ x ∈ Call.inputs cs, x.adcIntegral = 50) ∧
      p.settings.adjacencyThreshold < p.test.scanner.longestRun (track.map (·.channel)) ∧
      (p.test.run track).clusters = [] ∧
      ∃ steps : List (Step (Windowed Shape Primitive) Activity),
        Maker.run { policy := p } cs = .ok steps ∧ Maker.outputs steps = [] ∧
          (Maker.after { policy := p } steps).statistics.fired = 0 := by
  intro p track cs
  have hvalid : (Policy.settings p).validate = .ok () :=
    Settings.validate_eq_ok_iff.2 (by decide)
  have hflat : ∀ x ∈ Call.inputs cs, x.adcIntegral = 50 := by decide
  obtain ⟨htest, hmaker⟩ := flat_charge_never_fires 50
  obtain ⟨-, hclusters, -⟩ := htest p.test track (by decide)
  have hfits : ({ policy := p } : Reference Shape Primitive).FitsAll cs :=
    Shape.fitsAll (by decide) (by decide)
  obtain ⟨steps, hrun⟩ := ((refines_of_validate hvalid).goesThrough cs).2 hfits
  have hsorted : (track.map (·.channel)).Pairwise fun a b => decide (a ≤ b) = true := by decide
  have hlong : p.settings.adjacencyThreshold <
      p.test.scanner.longestRun (track.map (·.channel)) := by
    rw [Scanner.longestRun, List.mergeSort_of_pairwise hsorted]
    decide
  exact ⟨hflat, hlong, hclusters, steps, hrun, hmaker p cs steps hflat hrun⟩

end TriggerChain
