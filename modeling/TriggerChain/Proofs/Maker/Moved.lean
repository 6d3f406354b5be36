import TriggerChain.Proofs.Charge.Moved
import TriggerChain.Proofs.Maker.Carried
import TriggerChain.Proofs.Maker.Kinds

/-!
# Makers of inputs that move in time

Every maker looks at differences of times only, so what it makes of inputs that are moved is moved
as well. It needs the times to stay in range: an end that is worked out and checked stops the run
where it does not fit, and the start of a burst is cut off there.

Main statements: `ActivityMaker.carries_moved` and `CandidateMaker.carries_moved`.
-/

namespace TriggerChain

variable {d : Int}

/-! ## Policies on primitives -/

theorem Primitive.keepsAges (d : Int) : KeepsAges (Primitive.MovedBy d) := by
  intro a a' b b' ha hb
  have ha' : a'.timeStart.toInt = a.timeStart.toInt + d := ha.timeStart
  have hb' : b'.timeStart.toInt = b.timeStart.toInt + d := hb.timeStart
  show a.timeStart.toInt - b.timeStart.toInt = a'.timeStart.toInt - b'.timeStart.toInt
  omega

/-- The end of an activity stays in range when the activity is moved. -/
def Activity.EndFits (d : Int) (a : Activity) : Prop := Ticks.Fits (a.timeEnd.toInt + d)

theorem Geometry.carries_moved (g : Geometry) :
    CarriesRecords (Primitive.MovedBy d) (Activity.EndFits d) (Activity.MovedBy d) g where
  alike := by
    refine ⟨Primitive.keepsAges d, rfl, rfl, ?_, ?_⟩
    · intro ps qs p q h hpq
      show (g.firesOn ps p).map _ = (g.firesOn qs q).map _
      rw [firesOn, firesOn, (Primitive.keepsSums d).firesOnSums_eq g.settings h,
        (Primitive.keepsSums d).channelsOf_eq h, hpq.timeOverThreshold]
    · intro ps qs h
      exact congrArg _ ((Primitive.keepsSums d).firesOnSums_eq g.settings h)
  sums := Primitive.keepsSums d
  inRange h hrecord := ofPrimitives?_moved_iff (fun hpq => hpq.exactTimeEnd false) h hrecord
  records h ha hb := by
    refine Activity.movedBy_of_record ?_ (fun hpq => hpq.exactTimeEnd false) h ha hb
    unfold algorithm
    split <;> decide

theorem Shape.carries_moved (p : Shape) :
    CarriesRecords (Primitive.MovedBy d) (Activity.EndFits d) (Activity.MovedBy d) p where
  alike := by
    refine ⟨Primitive.keepsAges d, rfl, rfl, ?_, fun _ => rfl⟩
    intro ps qs _ _ h _
    show (p.firesOn ps).map _ = (p.firesOn qs).map _
    -- The tracks of the two triggers are moved, what was measured is not.
    rw [firesOn, firesOn, (Primitive.keepsSums d).channelsOf_eq h, p.test.endPeaked_moved h]
    split
    · rw [Option.map_some, Option.map_some]
    · rfl
  sums := Primitive.keepsSums d
  inRange h hrecord := ofPrimitives?_moved_iff (fun hpq => hpq.exactTimeEnd true) h hrecord
  records h ha hb :=
    Activity.movedBy_of_record (by decide) (fun hpq => hpq.exactTimeEnd true) h ha hb

/-- The activities of a maker of any kind move with the primitives. -/
theorem ActivityMaker.carries_moved {m : ActivityMaker} (hm : m.Fresh) :
    Carries (Primitive.MovedBy d) (Activity.EndFits d) (Activity.MovedBy d) m := by
  cases hm with
  | geometry hg =>
    exact Carries.embeds embeds_geometry (fun _ => rfl)
      (Windowed.carries hg (Geometry.carries_moved _))
  | shape hp =>
    exact Carries.embeds embeds_shape (fun _ => rfl)
      (Windowed.carries hp (Shape.carries_moved _))
  | prescale =>
    refine Carries.embeds embeds_prescale (fun _ => rfl) (Prescaler.carries ?_ ?_ _)
    · exact fun h ha => (Activity.ofPrimitive_moved h ha).1
    · exact fun h ha hb => (Activity.ofPrimitive_moved h ha).2 _ hb

/-! ## The times of candidates -/

namespace CandidateMaker

/-- The times that a maker works out for a candidate and that stop it where they do not fit,
    exactly. Only groupings work any out. -/
def checkedTimes : CandidateMaker → Candidate → List Int
  | grouping _, k =>
    k.timeStart.toInt :: k.timeEnd.toInt :: (k.inputs.getLast?.map Grouping.exactEndOf).toList
  | _, _ => []

/-- Where the interval to read out begins, exactly. That of a burst is cut off at the end of the
    range. -/
def exactStart : CandidateMaker → Candidate → Int
  | burst m, k => k.timeCandidate.toInt - m.window.toInt
  | _, k => k.timeStart.toInt

/-- The checked times of a candidate stay in range when it is moved. -/
def TimesFit (m : CandidateMaker) (d : Int) (k : Candidate) : Prop :=
  ∀ t ∈ m.checkedTimes k, Ticks.Fits (t + d)

/-- Of two candidates whose intervals begin in range, the second is the first one, moved. -/
def MovesCandidate (m : CandidateMaker) (d : Int) (k k' : Candidate) : Prop :=
  Ticks.Fits (m.exactStart k) → Ticks.Fits (m.exactStart k') → k.MovedBy d k'

end CandidateMaker

/-! ## Groupings -/

theorem Activity.keepsAges (d : Int) : KeepsAges (Activity.MovedBy d) := by
  intro a a' b b' ha hb
  have ha' : a'.timeStart.toInt = a.timeStart.toInt + d := ha.timeStart
  have hb' : b'.timeStart.toInt = b.timeStart.toInt + d := hb.timeStart
  show a.timeStart.toInt - b.timeStart.toInt = a'.timeStart.toInt - b'.timeStart.toInt
  omega

theorem Grouping.exactEndOf_moved {a b : Activity} (h : a.MovedBy d b) :
    exactEndOf b = exactEndOf a + d := by
  have hinputs := h.inputs
  unfold exactEndOf
  generalize a.inputs = ps at hinputs
  generalize b.inputs = qs at hinputs
  cases hinputs with
  | nil => exact h.timeEnd
  | cons hpq hrest =>
    rw [getLast?_cons_eq_getLastD, getLast?_cons_eq_getLastD]
    exact (forall₂_getLastD hpq hrest).exactTimeEnd true

/-- What a record of a grouping says of its times. -/
structure Grouping.Times (g : Grouping) (first last : Activity) (k : Candidate) : Prop where
  timeStart : k.timeStart.toInt = first.timeStart.toInt - g.settings.readoutBefore.toInt
  timeEnd : k.timeEnd.toInt = exactEndOf last + g.settings.readoutAfter.toInt

namespace Grouping

variable {g : Grouping} {first : Activity} {rest : List Activity} {k : Candidate}

theorem times_of_record (h : g.record? (first :: rest) = some k) :
    g.Times first (rest.getLastD first) k ∧ k = {
      timeStart := k.timeStart
      timeEnd := k.timeEnd
      timeCandidate := first.timeStart
      detid := (rest.getLastD first).detid
      kind := .horizontalMuon
      algorithm := .horizontalMuon
      inputs := first :: rest
      regions := regionsOf ((first :: rest).map (·.detid)) } := by
  obtain ⟨lastEnd, hlast, h⟩ := Option.bind_eq_some_iff.1 h
  obtain ⟨timeStart, hstart, h⟩ := Option.bind_eq_some_iff.1 h
  obtain ⟨timeEnd, hend, h⟩ := Option.bind_eq_some_iff.1 h
  obtain rfl := Option.some.inj h
  refine ⟨⟨Ticks.ofInt?_eq_some hstart, ?_⟩, rfl⟩
  show timeEnd.toInt = _
  rw [Ticks.ofInt?_eq_some hend, Ticks.ofInt?_eq_some hlast]

theorem record?_ne_none_iff : g.record? (first :: rest) ≠ none ↔
    Ticks.Fits (exactEndOf (rest.getLastD first)) ∧
      Ticks.Fits (first.timeStart.toInt - g.settings.readoutBefore.toInt) ∧
      Ticks.Fits (exactEndOf (rest.getLastD first) + g.settings.readoutAfter.toInt) := by
  constructor
  · intro h
    obtain ⟨k, hk⟩ := Option.ne_none_iff_exists'.1 h
    have htimes := (times_of_record hk).1
    obtain ⟨lastEnd, hlast, -⟩ := Option.bind_eq_some_iff.1 hk
    rw [← htimes.timeStart, ← htimes.timeEnd, ← Ticks.ofInt?_eq_some hlast]
    exact ⟨Ticks.fits_toInt _, Ticks.fits_toInt _, Ticks.fits_toInt _⟩
  · rintro ⟨hlast, hstart, hend⟩
    have hlastEnd : Ticks.ofInt? _ = some _ := if_pos hlast
    have htimeStart : Ticks.ofInt? _ = some _ := if_pos hstart
    rw [← Ticks.ofInt?_eq_some hlastEnd] at hend
    have htimeEnd : Ticks.ofInt? _ = some _ := if_pos hend
    have hrecord : g.record? (first :: rest) = some _ :=
      Option.bind_eq_some_iff.2 ⟨_, hlastEnd, Option.bind_eq_some_iff.2 ⟨_, htimeStart,
        Option.bind_eq_some_iff.2 ⟨_, htimeEnd, rfl⟩⟩⟩
    rw [hrecord]
    exact Option.some_ne_none _

end Grouping

theorem regionsOf_moved {as bs : List Activity} (h : List.Forall₂ (Activity.MovedBy d) as bs) :
    regionsOf (as.map (·.detid)) = regionsOf (bs.map (·.detid)) :=
  congrArg regionsOf (forall₂_map_eq (fun _ _ hab => hab.detid) h)

theorem Grouping.carries_moved (m : Windowed Grouping Activity) (g : Grouping) :
    CarriesRecords (Activity.MovedBy d) (CandidateMaker.TimesFit (.grouping m) d)
      (CandidateMaker.MovesCandidate (.grouping m) d) g where
  alike := by
    have hsums : ∀ {as bs : List Activity}, List.Forall₂ (Activity.MovedBy d) as bs →
        g.settings.firesOnSums as = g.settings.firesOnSums bs :=
      fun h => (Activity.keepsSums d).firesOnSums_eq g.settings h
    refine ⟨Activity.keepsAges d, rfl, rfl, ?_, ?_⟩
    · intro as bs _ _ h _
      show (Option.or (g.settings.firesOnSums as) _).map _ =
        (Option.or (g.settings.firesOnSums bs) _).map _
      rw [hsums h]
    · intro as bs h
      exact congrArg _ (hsums h)
  sums := Activity.keepsSums d
  inRange {as bs k} h hrecord := by
    cases h with
    | nil => cases hrecord
    | @cons a b as bs hab hrest =>
      obtain ⟨htimes, hfields⟩ := times_of_record hrecord
      have hinputs : k.inputs = a :: as := congrArg Candidate.inputs hfields
      have hstart : b.timeStart.toInt = a.timeStart.toInt + d := hab.timeStart
      have hlast := exactEndOf_moved (forall₂_getLastD hab hrest)
      have htimeStart : b.timeStart.toInt - g.settings.readoutBefore.toInt =
          k.timeStart.toInt + d := by
        rw [hstart, htimes.timeStart]
        omega
      have htimeEnd : exactEndOf (bs.getLastD b) + g.settings.readoutAfter.toInt =
          k.timeEnd.toInt + d := by
        rw [hlast, htimes.timeEnd]
        omega
      show g.record? (b :: bs) ≠ none ↔ _
      rw [record?_ne_none_iff, htimeStart, htimeEnd, hlast, CandidateMaker.TimesFit,
        CandidateMaker.checkedTimes, hinputs, getLast?_cons_eq_getLastD]
      simp only [Option.map_some, Option.toList_some, List.forall_mem_cons]
      exact ⟨fun ⟨hend, hbegin, hstop⟩ => ⟨hbegin, hstop, hend, List.forall_mem_nil _⟩,
        fun ⟨hbegin, hstop, hend, _⟩ => ⟨hend, hbegin, hstop⟩⟩
  records {as bs k k'} h hrecord hrecord' _ _ := by
    cases h with
    | nil => cases hrecord
    | @cons a b as bs hab hrest =>
      obtain ⟨htimes, hfields⟩ := times_of_record hrecord
      obtain ⟨htimes', hfields'⟩ := times_of_record hrecord'
      have hall : List.Forall₂ (Activity.MovedBy d) (a :: as) (b :: bs) := .cons hab hrest
      have hlast := forall₂_getLastD hab hrest
      have hstart : b.timeStart.toInt = a.timeStart.toInt + d := hab.timeStart
      have htimeStart : Ticks.MovedBy d k.timeStart k'.timeStart := by
        rw [Ticks.MovedBy, htimes.timeStart, htimes'.timeStart, hstart]
        omega
      have htimeEnd : Ticks.MovedBy d k.timeEnd k'.timeEnd := by
        rw [Ticks.MovedBy, htimes.timeEnd, htimes'.timeEnd, exactEndOf_moved hlast]
        omega
      rw [hfields, hfields']
      exact ⟨htimeStart, htimeEnd, hab.timeStart, hlast.detid, rfl, rfl, rfl, hall,
        regionsOf_moved hall⟩

/-! ## Makers of candidates without a window -/

theorem Prescaler.carries_moved (m m' : Prescaler Activity) :
    Carries (Activity.MovedBy d) (CandidateMaker.TimesFit (.prescale m) d)
      (CandidateMaker.MovesCandidate (.prescale m) d) m' := by
  refine Prescaler.carries ?_ ?_ m'
  · intro a b k _ _
    exact ⟨fun _ => List.forall_mem_nil _, fun _ => ⟨_, rfl⟩⟩
  · intro a b k k' hab hk hk' _ _
    obtain rfl := Except.ok.inj hk
    obtain rfl := Except.ok.inj hk'
    have hone : List.Forall₂ (Activity.MovedBy d) [a] [b] := .cons hab .nil
    exact ⟨hab.timeStart, hab.timeEnd, hab.timeStart, hab.detid, rfl, rfl, rfl, hone,
      regionsOf_moved hone⟩

/-- Two bundlers with the same counters, whose bundles so far are moved. -/
structure Bundler.MovedBy (d : Int) (m m' : Bundler) : Prop where
  bundleSize : m.bundleSize = m'.bundleSize
  prescale : m.prescale = m'.prescale
  completed : m.completed = m'.completed
  pending : List.Forall₂ (Activity.MovedBy d) m.pending m'.pending
  statistics : m.statistics = m'.statistics

theorem Bundler.candidate_moved {a b : Activity} {as bs : List Activity} (hab : a.MovedBy d b)
    (h : List.Forall₂ (Activity.MovedBy d) as bs) :
    (candidate a as).MovedBy d (candidate b bs) := by
  have hall : List.Forall₂ (Activity.MovedBy d) (a :: as) (b :: bs) := .cons hab h
  exact ⟨hab.timeStart, (forall₂_getLastD hab h).timeEnd, hab.timeStart, hab.detid, rfl, rfl, rfl,
    hall, regionsOf_moved hall⟩

theorem Bundler.process_moved {m m' : Bundler} (h : m.MovedBy d m') {a b : Activity}
    (hab : a.MovedBy d b) : (m.process a).maker.MovedBy d (m'.process b).maker ∧
      List.Forall₂ (Candidate.MovedBy d) (m.process a).outputs (m'.process b).outputs := by
  have hbundle : List.Forall₂ (Activity.MovedBy d) (m.pending ++ [a]) (m'.pending ++ [b]) :=
    List.rel_append h.pending (.cons hab .nil)
  have houtput : (candidate ((m.pending ++ [a]).headD a) (m.pending ++ [a]).tail).MovedBy d
      (candidate ((m'.pending ++ [b]).headD b) (m'.pending ++ [b]).tail) := by
    generalize m.pending ++ [a] = as at hbundle
    generalize m'.pending ++ [b] = bs at hbundle
    cases hbundle with
    | nil => exact candidate_moved hab .nil
    | cons hfirst hrest => exact candidate_moved hfirst hrest
  unfold process
  dsimp only
  rw [hbundle.length_eq, h.bundleSize, h.completed, h.prescale, h.statistics]
  split
  · exact ⟨⟨rfl, rfl, rfl, hbundle, rfl⟩, .nil⟩
  · split
    · exact ⟨⟨rfl, rfl, rfl, .nil, rfl⟩, .nil⟩
    · exact ⟨⟨rfl, rfl, rfl, .nil, rfl⟩, .cons houtput .nil⟩

theorem Bundler.carries_moved {m m' : Bundler} (hempty : m'.pending = []) :
    Carries (Activity.MovedBy d) (CandidateMaker.TimesFit (.bundle m) d)
      (CandidateMaker.MovesCandidate (.bundle m) d) m' := by
  have hself : m'.MovedBy d m' := ⟨rfl, rfl, rfl, by rw [hempty]; exact .nil, rfl⟩
  refine Carries.of_simulation (S := Bundler.MovedBy d) ?_ hself fun _ _ h => h.statistics
  intro m m' c c' step h hc hstep
  have hrange : ∀ k ∈ step.outputs, CandidateMaker.TimesFit (.bundle m) d k :=
    fun k _ => List.forall_mem_nil _
  cases hc with
  | flush =>
    obtain rfl := Except.ok.inj hstep
    exact .of_ok hrange ⟨h.bundleSize, h.prescale, h.completed, .nil, h.statistics⟩ .nil
  | process hab =>
    obtain rfl := Except.ok.inj hstep
    obtain ⟨hnext, houtputs⟩ := process_moved h hab
    exact .of_ok hrange hnext (houtputs.imp fun _ _ hmoved _ _ => hmoved)

/-! ## Bursts -/

/-- Two burst finders with the same counters, whose buffers are moved. -/
structure BurstFinder.MovedBy (d : Int) (m m' : BurstFinder) : Prop where
  window : m.window = m'.window
  activityThreshold : m.activityThreshold = m'.activityThreshold
  hitThreshold : m.hitThreshold = m'.hitThreshold
  buffer : List.Forall₂ (Activity.MovedBy d) m.buffer m'.buffer
  statistics : m.statistics = m'.statistics

namespace BurstFinder

variable {m m' : BurstFinder} {a b : Activity}

theorem horizon_of_fits {now : Ticks} (h : Ticks.Fits (now.toInt - m.window.toInt)) :
    (m.horizon now).toInt = now.toInt - m.window.toInt := by
  obtain ⟨hlow, hhigh⟩ := h
  rw [horizon, Ticks.toInt_since]
  omega

theorem buffered_moved (hwindow : 0 ≤ m.window.toInt) (h : m.MovedBy d m') (hab : a.MovedBy d b) :
    List.Forall₂ (Activity.MovedBy d) (m.buffered a) (m'.buffered b) := by
  have hnow : b.timeStart.toInt = a.timeStart.toInt + d := hab.timeStart
  have hkept : List.Forall₂ (Activity.MovedBy d) (m.kept a.timeStart) (m'.kept b.timeStart) := by
    refine List.rel_filter ?_ h.buffer
    intro e e' he
    have hstart : e'.timeStart.toInt = e.timeStart.toInt + d := he.timeStart
    show decide (m.horizon a.timeStart ≤ e.timeStart) = true ↔
      decide (m'.horizon b.timeStart ≤ e'.timeStart) = true
    rw [decide_eq_true_eq, decide_eq_true_eq, horizon_le_iff hwindow,
      horizon_le_iff (h.window ▸ hwindow), ← h.window, hnow, hstart]
    omega
  unfold buffered
  refine List.rel_append hkept ?_
  rw [h.hitThreshold, hab.inputs.length_eq]
  split
  · exact .cons hab .nil
  · exact .nil

theorem candidate_moved (h : m.MovedBy d m') (hab : a.MovedBy d b) {as bs : List Activity}
    (hburst : List.Forall₂ (Activity.MovedBy d) as bs)
    (hfits : Ticks.Fits (a.timeStart.toInt - m.window.toInt))
    (hfits' : Ticks.Fits (b.timeStart.toInt - m.window.toInt)) :
    (m.candidate a as).MovedBy d (m'.candidate b bs) := by
  have hnow : b.timeStart.toInt = a.timeStart.toInt + d := hab.timeStart
  have hstart : Ticks.MovedBy d (m.horizon a.timeStart) (m'.horizon b.timeStart) := by
    rw [h.window] at hfits'
    rw [Ticks.MovedBy, horizon_of_fits hfits, horizon_of_fits hfits', ← h.window, hnow]
    omega
  exact ⟨hstart, hab.timeEnd, hab.timeStart, rfl, rfl, rfl, rfl, hburst, regionsOf_moved hburst⟩

theorem process_moved (hwindow : 0 ≤ m.window.toInt) (h : m.MovedBy d m') (hab : a.MovedBy d b) :
    (m.process a).maker.MovedBy d (m'.process b).maker ∧
      List.Forall₂ (CandidateMaker.MovesCandidate (.burst m) d) (m.process a).outputs
        (m'.process b).outputs := by
  have hbuffered := buffered_moved hwindow h hab
  unfold process
  dsimp only
  rw [hbuffered.length_eq, h.activityThreshold, h.statistics]
  split
  · refine ⟨⟨h.window, rfl, h.hitThreshold, .nil, rfl⟩, .cons ?_ .nil⟩
    exact fun hfits hfits' => candidate_moved h hab hbuffered hfits hfits'
  · exact ⟨⟨h.window, rfl, h.hitThreshold, hbuffered, rfl⟩, .nil⟩

theorem carries_moved (hwindow : 0 ≤ m.window.toInt) (hempty : m.buffer = []) :
    Carries (Activity.MovedBy d) (CandidateMaker.TimesFit (.burst m) d)
      (CandidateMaker.MovesCandidate (.burst m) d) m := by
  have hself : m.MovedBy d m := ⟨rfl, rfl, rfl, by rw [hempty]; exact .nil, rfl⟩
  refine Carries.of_simulation (S := fun k k' => k.window = m.window ∧ k.MovedBy d k') ?_
    ⟨rfl, hself⟩ fun _ _ h => h.2.statistics
  rintro k k' c c' step ⟨hsame, h⟩ hc hstep
  have hrange : ∀ o ∈ step.outputs, CandidateMaker.TimesFit (.burst m) d o :=
    fun o _ => List.forall_mem_nil _
  cases hc with
  | flush =>
    obtain rfl := Except.ok.inj hstep
    exact .of_ok hrange
      ⟨hsame, h.window, h.activityThreshold, h.hitThreshold, .nil, h.statistics⟩ .nil
  | @process a b hab =>
    obtain rfl := Except.ok.inj hstep
    obtain ⟨hnext, houtputs⟩ := process_moved (hsame ▸ hwindow) h hab
    have hkept : (k.process a).maker.window = k.window := by
      unfold process
      dsimp only
      split <;> rfl
    refine .of_ok hrange ⟨hkept.trans hsame, hnext⟩ ?_
    -- The start of a burst depends on the window only, which no call changes.
    refine houtputs.imp fun o o' hmoves => ?_
    simp only [CandidateMaker.MovesCandidate, CandidateMaker.exactStart] at hmoves ⊢
    rwa [hsame] at hmoves

end BurstFinder

/-! ## Makers of candidates -/

/-- The candidates of a maker of any kind move with the activities. -/
theorem CandidateMaker.carries_moved {m : CandidateMaker} {s : Settings} (hm : m.Fresh s) :
    Carries (Activity.MovedBy d) (m.TimesFit d) (m.MovesCandidate d) m := by
  cases hm with
  | grouping hs =>
    exact Carries.embeds embeds_grouping (fun _ => rfl)
      (Windowed.carries hs (Grouping.carries_moved _ _))
  | prescale =>
    exact Carries.embeds embeds_prescale (fun _ => rfl) (Prescaler.carries_moved _ _)
  | bundle => exact Carries.embeds embeds_bundle (fun _ => rfl) (Bundler.carries_moved rfl)
  | burst hwindow =>
    exact Carries.embeds embeds_burst (fun _ => rfl) (BurstFinder.carries_moved hwindow rfl)

end TriggerChain
