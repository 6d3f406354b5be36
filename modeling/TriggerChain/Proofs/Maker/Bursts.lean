import TriggerChain.Proofs.Maker.Stops

/-!
# What makes a burst

A burst finder drops an activity for good as soon as another one arrives that began more than the
time window later, be it busy or quiet, and it drops everything with a candidate and with a flush.
So it never holds more activities than the threshold allows, a candidate has exactly one activity
more, and nothing is in two candidates.

If the activities arrive in the order of time, what is too old for one arrival is too old for all
later ones. Then what the finder holds is what counts of all that was heard since it last started
over, and it fires exactly when that is too much.

Main statement: `bursts_are_counted`.
-/

namespace TriggerChain

namespace BurstFinder

variable {m k : BurstFinder} {heard : List Activity} {a : Activity}

/-! ## What counts towards a burst -/

/-- An activity has enough primitives to count. -/
def Busy (m : BurstFinder) (a : Activity) : Prop := m.hitThreshold < a.inputs.length

/-- An activity began at most a window before a time, in exact numbers. -/
def Recent (m : BurstFinder) (now : Ticks) (a : Activity) : Prop :=
  now.toInt - m.window.toInt ≤ a.timeStart.toInt

instance (m : BurstFinder) : DecidablePred m.Busy :=
  fun a => inferInstanceAs (Decidable (m.hitThreshold < a.inputs.length))

instance (m : BurstFinder) (now : Ticks) : DecidablePred (m.Recent now) :=
  fun a => inferInstanceAs (Decidable (now.toInt - m.window.toInt ≤ a.timeStart.toInt))

/-- What counts at a time, of some activities. -/
def counted (m : BurstFinder) (now : Ticks) (as : List Activity) : List Activity :=
  as.filter fun a => m.Busy a ∧ m.Recent now a

theorem filter_of_busy (h : m.Busy a) : ([a].filter fun b => m.Busy b) = [a] :=
  List.filter_cons_of_pos (p := fun b => decide (m.Busy b)) (decide_eq_true h)

theorem filter_of_quiet (h : ¬ m.Busy a) : ([a].filter fun b => m.Busy b) = [] :=
  List.filter_cons_of_neg (p := fun b => decide (m.Busy b)) (by simpa using h)

/-- What was heard since the finder last started over, with a candidate or with a flush, once
    another call is over. -/
def heardAfter (heard : List Activity) : Call Activity → Step BurstFinder Candidate → List Activity
  | .process a, step => if step.outputs = [] then heard ++ [a] else []
  | .flush, _ => []

/-- What was heard since the finder last started over, after some calls. -/
def heardSince (heard : List Activity) :
    List (Call Activity) → List (Step BurstFinder Candidate) → List Activity
  | c :: cs, step :: steps => heardSince (heardAfter heard c step) cs steps
  | _, _ => heard

theorem heardAfter_sublist (heard : List Activity) (c : Call Activity)
    (step : Step BurstFinder Candidate) :
    (heardAfter heard c step).Sublist (heard ++ c.input?.toList) := by
  cases c with
  | flush => exact List.nil_sublist _
  | process a =>
    rw [heardAfter]
    split
    · exact .refl _
    · exact List.nil_sublist _

theorem heardSince_sublist (heard : List Activity) (cs : List (Call Activity))
    (steps : List (Step BurstFinder Candidate)) :
    (heardSince heard cs steps).Sublist (heard ++ Call.inputs cs) := by
  induction cs generalizing heard steps with
  | nil => simp [heardSince]
  | cons c cs ih =>
    cases steps with
    | nil => exact List.sublist_append_left _ _
    | cons step steps =>
      have hcall := (heardAfter_sublist heard c step).append_right (Call.inputs cs)
      rw [List.append_assoc, ← Call.inputs_cons] at hcall
      exact (ih _ steps).trans hcall

/-! ## What a finder remembers -/

/-- What a finder that was set up as `m` holds, of what was heard since it last started over. -/
structure Remembers (m : BurstFinder) (heard : List Activity) (k : BurstFinder) : Prop where
  window : k.window = m.window
  activityThreshold : k.activityThreshold = m.activityThreshold
  hitThreshold : k.hitThreshold = m.hitThreshold
  few : k.buffer.length ≤ m.activityThreshold
  busy : ∀ b ∈ k.buffer, m.Busy b
  arrival : k.buffer.Sublist heard
  /-- In the order of time nothing is missing that could still count. -/
  recent : Window.Chronological heard → ∀ now : Ticks,
    (∀ b ∈ heard, b.timeStart.toInt ≤ now.toInt) →
      k.buffer.filter (fun b => m.Recent now b) = m.counted now heard

/-- A finder that has started over remembers nothing. -/
theorem Remembers.of_empty (hwindow : k.window = m.window)
    (hactivities : k.activityThreshold = m.activityThreshold)
    (hhits : k.hitThreshold = m.hitThreshold) (hempty : k.buffer = []) : Remembers m [] k := by
  refine ⟨hwindow, hactivities, hhits, ?_, ?_, ?_, ?_⟩
  · simp [hempty]
  · simp [hempty]
  · simp [hempty]
  · intro _ now _
    simp [hempty, BurstFinder.counted]

section Arrival

variable (hwindow : 0 ≤ m.window.toInt) (h : m.Remembers heard k)

include hwindow h

theorem Remembers.buffered_eq (a : Activity) :
    k.buffered a =
      k.buffer.filter (fun b => m.Recent a.timeStart b) ++ [a].filter (fun b => m.Busy b) := by
  have hkept : k.kept a.timeStart = k.buffer.filter fun b => m.Recent a.timeStart b := by
    refine List.filter_congr fun b _ => ?_
    have hiff := horizon_le_iff (h.window ▸ hwindow) a.timeStart b.timeStart
    rw [h.window] at hiff
    exact decide_eq_decide.2 hiff
  have hnew : (if k.hitThreshold < a.inputs.length then [a] else []) =
      [a].filter fun b => m.Busy b := by
    rw [h.hitThreshold]
    split
    · next hbusy => exact (filter_of_busy hbusy).symm
    · next hquiet => exact (filter_of_quiet hquiet).symm
  rw [buffered, hkept, hnew]

theorem Remembers.busy_of_buffered {b : Activity} (hb : b ∈ k.buffered a) : m.Busy b := by
  rw [h.buffered_eq hwindow] at hb
  rcases List.mem_append.1 hb with hkept | hnew
  · exact h.busy b (List.mem_filter.1 hkept).1
  · exact of_decide_eq_true (List.mem_filter.1 hnew).2

theorem Remembers.recent_of_buffered {b : Activity} (hb : b ∈ k.buffered a) :
    m.Recent a.timeStart b := by
  have hown : 0 ≤ k.window.toInt := h.window ▸ hwindow
  have hyoung := Int64.le_iff_toInt_le.2 (horizon_le_of_mem hown hb)
  rw [horizon_le_iff hown, h.window] at hyoung
  exact hyoung

/-- Only a busy activity brings the buffer above the threshold, and it does so by one. -/
theorem Remembers.buffered_of_many (hmany : m.activityThreshold < (k.buffered a).length) :
    m.Busy a ∧ ∃ earlier, k.buffered a = earlier ++ [a] ∧
      earlier.length = m.activityThreshold := by
  have hfew : (k.buffer.filter fun b => m.Recent a.timeStart b).length ≤ m.activityThreshold :=
    (List.length_filter_le _ _).trans h.few
  rw [h.buffered_eq hwindow] at hmany ⊢
  by_cases hbusy : m.Busy a
  · rw [filter_of_busy hbusy] at hmany ⊢
    rw [List.length_append, List.length_singleton] at hmany
    exact ⟨hbusy, _, rfl, by omega⟩
  · rw [filter_of_quiet hbusy, List.append_nil] at hmany
    omega

/-- In the order of time, what is buffered when an activity arrives is what still counts, then and
    at any later time. -/
theorem Remembers.recent_buffered (hchron : Window.Chronological (heard ++ [a])) {now : Ticks}
    (hnow : a.timeStart.toInt ≤ now.toInt) :
    (k.buffered a).filter (fun b => m.Recent now b) = m.counted now (heard ++ [a]) := by
  obtain ⟨hheard, -, hlast⟩ := List.pairwise_append.1 hchron
  have hbefore : ∀ b ∈ heard, b.timeStart.toInt ≤ now.toInt := fun b hb =>
    Int.le_trans (hlast b hb a (List.mem_singleton.2 rfl)) hnow
  have hkept : (k.buffer.filter fun b => m.Recent a.timeStart b).filter (fun b => m.Recent now b) =
      m.counted now heard := by
    rw [← h.recent hheard now hbefore, List.filter_filter]
    refine List.filter_congr fun b _ => ?_
    -- The horizon moves on only, so what is recent at the later time was recent on arrival.
    rw [← Bool.decide_and, decide_eq_decide]
    refine ⟨And.left, fun hrecent => ⟨hrecent, ?_⟩⟩
    change now.toInt - m.window.toInt ≤ b.timeStart.toInt at hrecent
    show a.timeStart.toInt - m.window.toInt ≤ b.timeStart.toInt
    omega
  have hnew : ([a].filter fun b => m.Busy b).filter (fun b => m.Recent now b) =
      m.counted now [a] := by
    rw [List.filter_filter, counted]
    refine List.filter_congr fun b _ => ?_
    rw [← Bool.decide_and, decide_eq_decide]
    exact and_comm
  rw [h.buffered_eq hwindow, List.filter_append, hkept, hnew, counted, counted, counted,
    List.filter_append]

theorem Remembers.buffered_eq_counted (hchron : Window.Chronological (heard ++ [a])) :
    k.buffered a = m.counted a.timeStart (heard ++ [a]) := by
  rw [← h.recent_buffered hwindow hchron (Int.le_refl _)]
  refine (List.filter_eq_self.2 fun b hb => ?_).symm
  exact decide_eq_true (h.recent_of_buffered hwindow hb)

/-! ## Calls -/

theorem Remembers.call {c : Call Activity} {step : Step BurstFinder Candidate}
    (hstep : Maker.call k c = .ok step) : m.Remembers (heardAfter heard c step) step.maker := by
  cases c with
  | flush =>
    obtain rfl := Except.ok.inj hstep
    exact .of_empty h.window h.activityThreshold h.hitThreshold rfl
  | process a =>
    cases processed_of_process hstep with
    | burst => exact .of_empty h.window h.activityThreshold h.hitThreshold rfl
    | quiet hfew =>
      -- Nothing came of it, so the activity is heard on top of the others.
      refine ⟨h.window, h.activityThreshold, h.hitThreshold, ?_, ?_, ?_, ?_⟩
      · exact h.activityThreshold ▸ hfew
      · exact fun b hb => h.busy_of_buffered hwindow hb
      · exact (k.buffered_sublist a).trans (h.arrival.append_right [a])
      · intro hchron now hnow
        exact h.recent_buffered hwindow hchron (hnow a (by simp [heardAfter]))

theorem Remembers.run {cs : List (Call Activity)} {steps : List (Step BurstFinder Candidate)}
    (hrun : Maker.run k cs = .ok steps) :
    m.Remembers (heardSince heard cs steps) (Maker.after k steps) := by
  -- What was heard grows and starts over along with the maker.
  induction cs generalizing k heard steps with
  | nil =>
    obtain rfl := Except.ok.inj hrun
    exact h
  | cons c cs ih =>
    obtain ⟨step, rest, hstep, hrest, rfl⟩ := Maker.run_cons_eq_ok_iff.1 hrun
    exact ih (h.call hwindow hstep) hrest

end Arrival

/-! ## Candidates -/

/-- What a candidate is that an activity completes, made of what was heard since the finder last
    started over. -/
structure Burst (m : BurstFinder) (heard : List Activity) (a : Activity) (o : Candidate) :
    Prop where
  /-- It has one activity more than the threshold, the last of them the one that arrived. -/
  length : o.inputs.length = m.activityThreshold + 1
  last : o.inputs.getLast? = some a
  /-- They stand in the order of arrival. -/
  arrival : o.inputs.Sublist (heard ++ [a])
  busy : ∀ b ∈ o.inputs, m.Busy b
  recent : ∀ b ∈ o.inputs, m.Recent a.timeStart b
  /-- Its regions are the detector elements of the activities, each once, in ascending order. -/
  regions : ∀ d, d ∈ o.regions ↔ ∃ b ∈ o.inputs, b.detid = d
  regions_sorted : o.regions.Pairwise (· < ·)

theorem Remembers.burst (hwindow : 0 ≤ m.window.toInt) (h : m.Remembers heard k)
    (hmany : m.activityThreshold < (k.buffered a).length) :
    m.Burst heard a (k.candidate a (k.buffered a)) := by
  obtain ⟨-, earlier, hburst, hlength⟩ := h.buffered_of_many hwindow hmany
  refine ⟨?_, ?_, ?_, ?_, ?_, ?_, sorted_regionsOf _⟩
  · show (k.buffered a).length = _
    rw [hburst, List.length_append, hlength, List.length_singleton]
  · show (k.buffered a).getLast? = _
    rw [hburst, List.getLast?_append_of_ne_nil _ (List.cons_ne_nil a []), List.getLast?_singleton]
  · exact (k.buffered_sublist a).trans (h.arrival.append_right [a])
  · exact fun b hb => h.busy_of_buffered hwindow hb
  · exact fun b hb => h.recent_of_buffered hwindow hb
  · intro d
    exact mem_regionsOf.trans List.mem_map

/-- What a call gives out and what it leaves in the buffer was there or has just arrived, in this
    order. -/
theorem sublist_of_call {c : Call Activity} {step : Step BurstFinder Candidate}
    (hstep : Maker.call k c = .ok step) :
    (step.outputs.flatMap (·.inputs) ++ step.maker.buffer).Sublist
      (k.buffer ++ c.input?.toList) := by
  cases c with
  | flush =>
    obtain rfl := Except.ok.inj hstep
    exact List.nil_sublist _
  | process a =>
    cases processed_of_process hstep with
    | quiet => exact k.buffered_sublist a
    | burst =>
      show ([k.candidate a (k.buffered a)].flatMap Candidate.inputs ++ []).Sublist (k.buffer ++ [a])
      rw [List.append_nil, List.flatMap_singleton]
      exact k.buffered_sublist a

theorem sublist_of_run {cs : List (Call Activity)} {steps : List (Step BurstFinder Candidate)}
    (hrun : Maker.run k cs = .ok steps) :
    ((Maker.outputs steps).flatMap (·.inputs) ++ (Maker.after k steps).buffer).Sublist
      (k.buffer ++ Call.inputs cs) := by
  induction cs generalizing k steps with
  | nil =>
    obtain rfl := Except.ok.inj hrun
    exact List.sublist_append_left _ _
  | cons c cs ih =>
    obtain ⟨step, rest, hstep, hrest, rfl⟩ := Maker.run_cons_eq_ok_iff.1 hrun
    have hcall := (sublist_of_call hstep).append_right (Call.inputs cs)
    have hrun := (ih hrest).append_left (step.outputs.flatMap Candidate.inputs)
    rw [List.append_assoc, List.append_assoc, ← Call.inputs_cons] at hcall
    rw [Maker.outputs_cons, List.flatMap_append, List.append_assoc]
    exact hrun.trans hcall

/-! ## Runs -/

/-- What holds of a burst finder after some calls, and of the call that comes next. -/
structure CountsBursts (m : BurstFinder) (cs : List (Call Activity))
    (steps : List (Step BurstFinder Candidate)) : Prop where
  /-- No more is held than the threshold allows. -/
  few : (Maker.after m steps).buffer.length ≤ m.activityThreshold
  /-- The activities of the candidates, one candidate after the other, and those that are held are
      some of those that arrived, in the order of arrival: none is in two candidates. -/
  once : ((Maker.outputs steps).flatMap (·.inputs) ++ (Maker.after m steps).buffer).Sublist
    (Call.inputs cs)
  /-- A candidate is completed by an activity that arrives. -/
  burst : ∀ c step, Maker.call (Maker.after m steps) c = .ok step → ∀ o ∈ step.outputs,
    ∃ a, c = .process a ∧ m.Burst (heardSince [] cs steps) a o
  /-- In the order of time, an activity completes a candidate if and only if it is busy and, with
      it, too many count of what was heard since the finder last started over. -/
  fires : ∀ a step, Maker.call (Maker.after m steps) (.process a) = .ok step →
    Window.Chronological (Call.inputs cs ++ [a]) →
      (step.outputs ≠ [] ↔ m.Busy a ∧
        m.activityThreshold < (m.counted a.timeStart (heardSince [] cs steps ++ [a])).length)

/-- Activities in any order of arrival go through a burst finder with a positive window, and it
    gives out bursts as they are counted. -/
theorem bursts_are_counted (m : BurstFinder) (hwindow : 0 < m.window) (hempty : m.buffer = [])
    (cs : List (Call Activity)) :
    ∃ steps : List (Step BurstFinder Candidate), Maker.run m cs = .ok steps ∧
      m.CountsBursts cs steps := by
  have hpositive : 0 ≤ m.window.toInt := Int.le_of_lt (Int64.lt_iff_toInt_lt.1 hwindow)
  obtain ⟨steps, hrun⟩ := m.goesThrough cs
  have hfresh : m.Remembers [] m := .of_empty rfl rfl rfl hempty
  have h := hfresh.run hpositive hrun
  refine ⟨steps, hrun, h.few, ?_, ?_, ?_⟩
  · have hsub := sublist_of_run hrun
    rwa [hempty] at hsub
  · intro c step hstep o ho
    cases c with
    | flush =>
      obtain rfl := Except.ok.inj hstep
      cases ho
    | process a =>
      cases processed_of_process hstep with
      | quiet => cases ho
      | burst hmany =>
        obtain rfl := List.mem_singleton.1 ho
        exact ⟨a, rfl, h.burst hpositive (h.activityThreshold ▸ hmany)⟩
  · intro a step hstep hchron
    have hchron : Window.Chronological (heardSince [] cs steps ++ [a]) :=
      hchron.sublist ((heardSince_sublist [] cs steps).append_right [a])
    -- In this order the buffer is what counts, and its length alone decides.
    rw [← h.buffered_eq_counted hpositive hchron]
    cases processed_of_process hstep with
    | quiet hfew =>
      rw [h.activityThreshold] at hfew
      simp only [ne_eq, not_true_eq_false, false_iff, not_and, Nat.not_lt]
      exact fun _ => hfew
    | burst hmany =>
      rw [h.activityThreshold] at hmany
      simp only [ne_eq, List.cons_ne_self, not_false_eq_true, true_iff]
      exact ⟨(h.buffered_of_many hpositive hmany).1, hmany⟩

/-- Two activities that are too old do not count; one that began exactly a window before does. -/
theorem burst_reaches_back_one_window :
    let m : BurstFinder := { window := 1000, activityThreshold := 2, hitThreshold := 0 }
    let hit (t : Ticks) (d : DetId) : Activity := { timeStart := t, detid := d, inputs := [{}] }
    let cs : List (Call Activity) :=
      [.process (hit 0 7), .process (hit 10 7), .process (hit 2000 4), .process (hit 2500 1)]
    0 < m.window ∧ m.buffer = [] ∧
      ∃ steps : List (Step BurstFinder Candidate), Maker.run m cs = .ok steps ∧
        m.CountsBursts cs steps ∧
        ∃ step : Step BurstFinder Candidate,
          Maker.call (Maker.after m steps) (.process (hit 3000 4)) = .ok step ∧
          step.outputs.map (fun o => (o.inputs.map (·.timeStart), o.regions)) =
            [([2000, 2500, 3000], [1, 4])] := by
  intro m hit cs
  have hwindow : 0 < m.window := by decide
  obtain ⟨steps, hrun, hcounts⟩ := bursts_are_counted m hwindow rfl cs
  refine ⟨hwindow, rfl, steps, hrun, hcounts, ?_⟩
  obtain rfl := Except.ok.inj hrun
  exact ⟨_, rfl, by decide⟩

end BurstFinder

end TriggerChain
