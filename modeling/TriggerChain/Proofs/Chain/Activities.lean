import TriggerChain.Proofs.Maker.Kinds
import TriggerChain.Proofs.Maker.Partition
import TriggerChain.Proofs.Maker.Summary
import TriggerChain.Proofs.Maker.Windowless

/-!
# The activities of a chain

Whatever kind the activity maker of a chain is of, its activities are pieces of the stream, one
behind the other, and the fields of each activity are read off its primitives. If the stream is in
the order of time and no time over threshold is negative, every activity lasts at least until its
last primitive begins, and no primitive of an activity begins before those of earlier activities.

Main statements: `ActivityMaker.clusters_of_run`, and `Succession` of what it says of a stream
in the order of time.
-/

namespace TriggerChain

/-! ## Clusters of a stream -/

/-- Activities are clusters of a stream: they lie in it one behind the other, and their fields are
    read off their primitives. -/
structure Clusters (ps : List Primitive) (as : List Activity) : Prop where
  laid : Laid ps (as.map (·.inputs))
  summary : ∀ a ∈ as, ∃ endIncludesTot, a.Summary endIncludesTot

section

variable {ps : List Primitive} {as : List Activity}

theorem Clusters.mem (h : Clusters ps as) {a : Activity} (ha : a ∈ as) {p : Primitive}
    (hp : p ∈ a.inputs) : p ∈ ps :=
  h.laid.mem_of_mem _ (List.mem_map_of_mem ha) p hp

/-- There are no more activities than primitives. -/
theorem Clusters.length_le (h : Clusters ps as) : as.length ≤ ps.length := by
  have hle := h.laid.length_le
  rwa [List.length_map] at hle

end

section Windowed

variable {π : Type} [Policy π Primitive Activity] [ListPolicy π Primitive Activity]
variable [LawfulPolicy π Primitive Activity]

theorem clusters_of_windowed {p : π} (hp : (Policy.settings p).validate = .ok ())
    (hpasses : ListPolicy.passes p = false)
    (hsummary : ∀ ps a, ListPolicy.record? p ps = some a →
      ∃ endIncludesTot, Activity.Summary a endIncludesTot)
    {cs : List (Call Primitive)} {steps : List (Step (Windowed π Primitive) Activity)}
    (h : Maker.run ({ policy := p } : Windowed π Primitive) cs = .ok steps) :
    Clusters (Call.inputs cs) (Maker.outputs steps) := by
  have hvalid := Windowed.valid_fresh (τ := Primitive) hp
  obtain ⟨before, hinputs, hlaid⟩ := hvalid.laid_run rfl hpasses h (Laid.rest [])
  refine ⟨?_, ?_⟩
  · -- What is still in the window lies behind all activities.
    have hall : Call.inputs cs = before ++ _ := hinputs
    rw [hall]
    exact hlaid.append _
  · intro a ha
    exact hsummary _ a (hvalid.record_of_run h a ha)

end Windowed

/-- Every activity of a prescaler is one primitive. -/
theorem clusters_of_prescaler {m : Prescaler Primitive} {cs : List (Call Primitive)}
    {steps : List (Step (Prescaler Primitive) Activity)} (h : Maker.run m cs = .ok steps) :
    Clusters (Call.inputs cs) (Maker.outputs steps) := by
  suffices hlaid : ∀ before blocks, Laid before blocks →
      Laid (before ++ Call.inputs cs) (blocks ++ (Maker.outputs steps).map (·.inputs)) ∧
        ∀ a ∈ Maker.outputs steps, ∃ endIncludesTot, a.Summary endIncludesTot by
    obtain ⟨hall, hsummary⟩ := hlaid [] [] (.rest [])
    exact ⟨hall, hsummary⟩
  induction cs generalizing m steps with
  | nil =>
    intro before blocks hbefore
    obtain rfl := Except.ok.inj h
    simpa [Maker.outputs] using hbefore
  | cons c cs ih =>
    intro before blocks hbefore
    obtain ⟨step, rest, hstep, hrest, rfl⟩ := Maker.run_cons_eq_ok_iff.1 h
    -- A call puts one block behind the others, or nothing.
    have hcall : Laid (before ++ c.input?.toList) (blocks ++ step.outputs.map (·.inputs)) ∧
        ∀ a ∈ step.outputs, ∃ endIncludesTot, a.Summary endIncludesTot := by
      cases c with
      | flush =>
        obtain rfl := Except.ok.inj hstep
        simpa using hbefore
      | process p =>
        cases Prescaler.processed_of_process hstep with
        | kept _ hpromote =>
          obtain ⟨hinputs, hsummary⟩ := summary_of_primitive hpromote
          refine ⟨?_, fun a ha => ?_⟩
          · rw [List.map_singleton, hinputs]
            exact hbefore.snoc (List.cons_ne_nil p [])
          · obtain rfl := List.mem_singleton.1 ha
            exact ⟨true, hsummary⟩
        | dropped => exact ⟨by simpa using hbefore.append [p], by simp⟩
    obtain ⟨hlaid, hsummary⟩ := ih hrest _ _ hcall.1
    rw [Maker.outputs_cons, List.map_append, Call.inputs_cons, ← List.append_assoc,
      ← List.append_assoc]
    exact ⟨hlaid, List.forall_mem_append.2 ⟨hcall.2, hsummary⟩⟩

/-- The activities of a maker of any kind are clusters of what it was handed. -/
theorem ActivityMaker.clusters_of_run {m : ActivityMaker} (hm : m.Fresh)
    {cs : List (Call Primitive)} {steps : List (Step ActivityMaker Activity)}
    (h : Maker.run m cs = .ok steps) : Clusters (Call.inputs cs) (Maker.outputs steps) := by
  cases hm with
  | geometry hg =>
    obtain ⟨steps', hrun, houtputs, -⟩ := embeds_geometry.run_eq_ok h
    rw [houtputs]
    exact clusters_of_windowed hg rfl (fun _ _ hrecord => ⟨false, summary_of_record hrecord⟩) hrun
  | shape hp =>
    obtain ⟨steps', hrun, houtputs, -⟩ := embeds_shape.run_eq_ok h
    rw [houtputs]
    exact clusters_of_windowed hp rfl (fun _ _ hrecord => ⟨true, summary_of_record hrecord⟩) hrun
  | prescale =>
    obtain ⟨steps', hrun, houtputs, -⟩ := embeds_prescale.run_eq_ok h
    rw [houtputs]
    exact clusters_of_prescaler hrun

/-! ## Streams in the order of time -/

/-- An activity of primitives in the order of time, which lasts at least until the last of them
    begins. -/
structure Activity.WellTimed (a : Activity) : Prop where
  nonempty : a.inputs ≠ []
  timeStart : a.timeStart = Window.startOf a.inputs
  timeEnd : ∀ last ∈ a.inputs.getLast?, Window.began last ≤ a.timeEnd.toInt
  chronological : Window.Chronological a.inputs
  tot : ∀ p ∈ a.inputs, 0 ≤ p.timeOverThreshold.toInt

theorem Activity.WellTimed.start_le {a : Activity} (h : a.WellTimed) :
    ∀ p ∈ a.inputs, a.timeStart.toInt ≤ Window.began p := by
  obtain ⟨first, rest, hcons⟩ := List.exists_cons_of_ne_nil h.nonempty
  have hchron := h.chronological
  rw [h.timeStart, hcons]
  rw [hcons] at hchron
  exact hchron.head_le

theorem Activity.WellTimed.le_end {a : Activity} (h : a.WellTimed) :
    ∀ p ∈ a.inputs, Window.began p ≤ a.timeEnd.toInt := by
  intro p hp
  have hlast := List.getLast?_eq_some_getLast h.nonempty
  have hle := h.chronological.le_last hlast p hp
  have hend := h.timeEnd _ hlast
  omega

/-- Activities that follow one another in time. -/
structure Succession (as : List Activity) : Prop where
  activity : ∀ a ∈ as, a.WellTimed
  order : as.Pairwise fun a b => ∀ p ∈ a.inputs, ∀ q ∈ b.inputs, Window.began p ≤ Window.began q

theorem Succession.sublist {as bs : List Activity} (h : Succession bs) (hsub : as.Sublist bs) :
    Succession as :=
  ⟨fun a ha => h.activity a (hsub.subset ha), h.order.sublist hsub⟩

/-- The activities of a stream in the order of time follow one another in time. -/
theorem Clusters.succession {ps : List Primitive} {as : List Activity} (h : Clusters ps as)
    (hchron : Window.Chronological ps)
    (htot : ∀ p ∈ ps, 0 ≤ p.timeOverThreshold) : Succession as := by
  have horder := h.laid.pairwise hchron
  rw [List.pairwise_map] at horder
  have htot' : ∀ p ∈ ps, 0 ≤ p.timeOverThreshold.toInt :=
    fun p hp => Int64.le_iff_toInt_le.1 (htot p hp)
  refine ⟨fun a ha => ?_, horder⟩
  obtain ⟨endIncludesTot, hsummary⟩ := h.summary a ha
  refine ⟨hsummary.nonempty, hsummary.timeStart, ?_, ?_, fun p hp => htot' p (h.mem ha hp)⟩
  · intro last hlast
    have hpos := htot' last (h.mem ha (List.mem_of_getLast? hlast))
    rw [hsummary.timeEnd last hlast]
    -- The end is the start of the last primitive, or that and its time over threshold.
    unfold exactTimeEnd
    show last.timeStart.toInt ≤ _
    split
    · omega
    · exact Int.le_refl _
  · exact hchron.sublist (h.laid.sublist _ (List.mem_map_of_mem ha))

/-- In a succession, every primitive lies between the start of the first activity and the last
    primitive of the last one. -/
theorem Succession.between {first : Activity} {rest : List Activity}
    (h : Succession (first :: rest)) {last : Primitive}
    (hlast : last ∈ (rest.getLastD first).inputs.getLast?) : ∀ a ∈ first :: rest,
      ∀ p ∈ a.inputs, first.timeStart.toInt ≤ Window.began p ∧
        Window.began p ≤ Window.began last := by
  intro a ha p hp
  have hfirst := h.activity first List.mem_cons_self
  refine ⟨?_, ?_⟩
  · rcases List.mem_cons.1 ha with rfl | hrest
    · exact hfirst.start_le p hp
    · -- An earlier activity begins with a primitive that is no later than `p`.
      obtain ⟨q, hq⟩ := List.exists_mem_of_ne_nil _ hfirst.nonempty
      have hle := hfirst.start_le q hq
      have horder := (List.pairwise_cons.1 h.order).1 a hrest q hq p hp
      omega
  · obtain ⟨front, hfront⟩ := List.getLast?_eq_some_iff.1 (getLast?_cons_eq_getLastD first rest)
    have horder := h.order
    rw [hfront] at ha horder
    have hmem := List.mem_of_getLast? hlast
    rcases List.mem_append.1 ha with ha | ha
    · exact (List.pairwise_append.1 horder).2.2 a ha _ (List.mem_singleton.2 rfl) p hp last hmem
    · obtain rfl := List.mem_singleton.1 ha
      have hwell := h.activity (rest.getLastD first) (by rw [hfront]; simp)
      exact hwell.chronological.le_last hlast p hp

end TriggerChain
