import TriggerChain.Proofs.Maker.Stops
import TriggerChain.Proofs.Maker.Thinning

/-!
# What makes a bundle

The ends of a stream cut it into pieces, and every piece is cut into groups of the bundle size. What
is left of a piece is too little for a group and is dropped at its end. The groups are numbered over
the whole run: the end of a stream takes pending activities away and leaves the number alone, so
that the prescale goes on behind it where it was.

Main statement: `bundles_are_complete_groups`.
-/

namespace TriggerChain

/-! ## Groups of one size -/

section Groups

variable {α : Type} {size : Nat} {xs : List α}

/-- The groups of a size that follow one another from the front of a list on, as far as they are
    complete. -/
def completeGroups (size : Nat) (xs : List α) : List (List α) :=
  (List.range (xs.length / size)).map fun i => (xs.drop (i * size)).take size

/-- What is left behind the last complete group. -/
def incompleteGroup (size : Nat) (xs : List α) : List α := xs.drop (xs.length / size * size)

@[simp] theorem completeGroups_nil : completeGroups size ([] : List α) = [] := by
  simp [completeGroups]

@[simp] theorem incompleteGroup_nil : incompleteGroup size ([] : List α) = [] := by
  simp [incompleteGroup]

theorem length_incompleteGroup : (incompleteGroup size xs).length = xs.length % size := by
  have hsplit := Nat.div_add_mod' xs.length size
  rw [incompleteGroup, List.length_drop]
  omega

/-- A complete group stays what it is, whatever follows it. -/
theorem completeGroups_append_left (ys : List α) :
    ((List.range (xs.length / size)).map fun i => ((xs ++ ys).drop (i * size)).take size) =
      completeGroups size xs := by
  refine List.map_congr_left fun i hi => ?_
  have hend : (i + 1) * size ≤ xs.length :=
    (Nat.mul_le_mul_right size (List.mem_range.1 hi)).trans (Nat.div_mul_le_self _ _)
  rw [Nat.succ_mul] at hend
  rw [List.drop_append_of_le_length (by omega),
    List.take_append_of_le_length (by rw [List.length_drop]; omega)]

theorem incompleteGroup_append_left (ys : List α) :
    (xs ++ ys).drop (xs.length / size * size) = incompleteGroup size xs ++ ys :=
  List.drop_append_of_le_length (Nat.div_mul_le_self _ _)

section Snoc

variable {x : α}

/-- One more element, and still no group is complete. -/
theorem snoc_of_incomplete (h : (incompleteGroup size xs ++ [x]).length < size) :
    completeGroups size (xs ++ [x]) = completeGroups size xs ∧
      incompleteGroup size (xs ++ [x]) = incompleteGroup size xs ++ [x] := by
  rw [List.length_append, length_incompleteGroup, List.length_singleton] at h
  have hsplit := Nat.div_add_mod' xs.length size
  have hcount : (xs ++ [x]).length / size = xs.length / size := by
    rw [List.length_append, List.length_singleton]
    refine Nat.div_eq_of_lt_le (by omega) ?_
    rw [Nat.succ_mul]
    omega
  refine ⟨?_, ?_⟩
  · rw [completeGroups, hcount, completeGroups_append_left]
  · rw [incompleteGroup, hcount, incompleteGroup_append_left]

/-- The element that completes a group. -/
theorem snoc_of_complete (hsize : size ≠ 0) (h : size ≤ (incompleteGroup size xs ++ [x]).length) :
    completeGroups size (xs ++ [x]) = completeGroups size xs ++ [incompleteGroup size xs ++ [x]] ∧
      incompleteGroup size (xs ++ [x]) = [] := by
  rw [List.length_append, length_incompleteGroup, List.length_singleton] at h
  have hlt : xs.length % size < size := Nat.mod_lt _ (Nat.pos_of_ne_zero hsize)
  have hsplit := Nat.div_add_mod' xs.length size
  -- The element is the last one of a group, and the list is cut up without a rest.
  have hfull : (xs ++ [x]).length = (xs.length / size + 1) * size := by
    rw [List.length_append, List.length_singleton, Nat.succ_mul]
    omega
  have hcount : (xs ++ [x]).length / size = xs.length / size + 1 := by
    rw [hfull, Nat.mul_div_cancel _ (Nat.pos_of_ne_zero hsize)]
  refine ⟨?_, ?_⟩
  · have hlast : (incompleteGroup size xs ++ [x]).take size = incompleteGroup size xs ++ [x] := by
      refine List.take_of_length_le ?_
      rw [List.length_append, length_incompleteGroup, List.length_singleton]
      omega
    rw [completeGroups, hcount, List.range_succ, List.map_append, completeGroups_append_left,
      List.map_singleton, incompleteGroup_append_left, hlast]
  · rw [incompleteGroup, hcount, ← hfull, List.drop_length]

end Snoc

end Groups

/-! ## Pieces of a stream -/

section Pieces

variable {α : Type} {p : α → Bool}

/-- An element that does not cut goes to the end of the last part. -/
theorem splitOnP_snoc {x : α} (h : p x = false) (xs : List α) :
    ∃ closed last, xs.splitOnP p = closed ++ [last] ∧
      (xs ++ [x]).splitOnP p = closed ++ [last ++ [x]] := by
  induction xs with
  | nil => exact ⟨[], [], rfl, by simp [List.splitOnP_cons_eq_if_modifyHead, h]⟩
  | cons y ys ih =>
    obtain ⟨closed, last, hys, hsnoc⟩ := ih
    rw [List.cons_append, List.splitOnP_cons_eq_if_modifyHead,
      List.splitOnP_cons_eq_if_modifyHead, hys, hsnoc]
    split
    · exact ⟨[] :: closed, last, rfl, rfl⟩
    · -- The element goes to the front of the first part, which may be the last one too.
      cases closed with
      | nil => exact ⟨[], y :: last, rfl, rfl⟩
      | cons first closed => exact ⟨(y :: first) :: closed, last, rfl, rfl⟩

end Pieces

namespace Call

variable {ι : Type} {size : Nat} {cs : List (Call ι)} {x : ι}

/-- The inputs of some calls, cut at the flushes. -/
def pieces (cs : List (Call ι)) : List (List ι) :=
  (cs.splitOnP fun c => c.input?.isNone).map inputs

/-- The inputs behind the last flush. -/
def currentPiece (cs : List (Call ι)) : List ι := (pieces cs).getLastD []

/-- The complete groups of every piece, one piece after the other. -/
def groups (size : Nat) (cs : List (Call ι)) : List (List ι) :=
  (pieces cs).flatMap (completeGroups size)

@[simp] theorem currentPiece_nil : currentPiece ([] : List (Call ι)) = [] := rfl

@[simp] theorem groups_nil : groups size ([] : List (Call ι)) = [] := by
  simp [groups, pieces, inputs]

theorem pieces_flush (cs : List (Call ι)) : pieces (cs ++ [.flush]) = pieces cs ++ [[]] := by
  rw [pieces, List.splitOnP_append_cons cs [] (by rfl), List.map_append]
  rfl

theorem pieces_process (cs : List (Call ι)) (x : ι) : ∃ closed,
    pieces cs = closed ++ [currentPiece cs] ∧
      pieces (cs ++ [.process x]) = closed ++ [currentPiece cs ++ [x]] := by
  obtain ⟨closed, last, hcs, hsnoc⟩ :=
    splitOnP_snoc (p := fun c : Call ι => c.input?.isNone) (x := .process x) rfl cs
  have hpieces : pieces cs = closed.map inputs ++ [inputs last] := by
    rw [pieces, hcs, List.map_append]
    rfl
  have hcurrent : currentPiece cs = inputs last := by
    rw [currentPiece, hpieces]
    simp
  refine ⟨closed.map inputs, hcurrent ▸ hpieces, ?_⟩
  rw [pieces, hsnoc, hcurrent, List.map_append]
  simp [inputs]

theorem currentPiece_flush (cs : List (Call ι)) : currentPiece (cs ++ [.flush]) = [] := by
  rw [currentPiece, pieces_flush]
  simp

theorem groups_flush (size : Nat) (cs : List (Call ι)) :
    groups size (cs ++ [.flush]) = groups size cs := by
  rw [groups, pieces_flush]
  simp [groups]

theorem currentPiece_process (cs : List (Call ι)) (x : ι) :
    currentPiece (cs ++ [.process x]) = currentPiece cs ++ [x] := by
  obtain ⟨closed, -, hsnoc⟩ := pieces_process cs x
  rw [currentPiece, hsnoc]
  simp

/-- A call with an input adds to the groups what it adds to those of the current piece. -/
theorem groups_process {new : List (List ι)}
    (h : completeGroups size (currentPiece cs ++ [x]) =
      completeGroups size (currentPiece cs) ++ new) :
    groups size (cs ++ [.process x]) = groups size cs ++ new := by
  obtain ⟨closed, hcs, hsnoc⟩ := pieces_process cs x
  rw [groups, groups, hcs, hsnoc]
  simp [h]

end Call

/-! ## Bundlers -/

namespace Bundler

variable {m k : Bundler} {heard : List (Call Activity)}

/-- The candidate that a group of activities becomes. -/
structure Bundles (group : List Activity) (o : Candidate) : Prop where
  inputs : o.inputs = group
  /-- It begins with the first activity, and is filed under its time and its detector element. -/
  first : ∃ first, group.head? = some first ∧ o.timeStart = first.timeStart ∧
    o.timeCandidate = first.timeStart ∧ o.detid = first.detid
  /-- It ends with the last activity. -/
  last : ∃ last, group.getLast? = some last ∧ o.timeEnd = last.timeEnd
  /-- Its regions are the detector elements of the activities, each once, in ascending order. -/
  regions : ∀ d, d ∈ o.regions ↔ ∃ a ∈ group, a.detid = d
  regions_sorted : o.regions.Pairwise (· < ·)

theorem bundles_candidate (first : Activity) (rest : List Activity) :
    Bundles (first :: rest) (candidate first rest) := by
  refine ⟨rfl, ⟨first, rfl, rfl, rfl, rfl⟩, ⟨rest.getLastD first, ?_, rfl⟩, ?_, sorted_regionsOf _⟩
  · rw [getLast?_cons_eq_getLastD]
  · intro d
    exact mem_regionsOf.trans List.mem_map

/-- What a bundler that was set up as `m` holds behind some calls. -/
structure Collects (m : Bundler) (heard : List (Call Activity)) (k : Bundler) : Prop where
  bundleSize : k.bundleSize = m.bundleSize
  prescale : k.prescale = m.prescale
  completed : k.completed = (Call.groups m.bundleSize heard).length
  pending : k.pending = incompleteGroup m.bundleSize (Call.currentPiece heard)

/-- Behind some calls, further ones complete groups, and of these the ones with a number that the
    prescale divides are given out, in order. -/
def GivesCompleted (m : Bundler) (heard cs : List (Call Activity)) (outputs : List Candidate) :
    Prop :=
  ∃ new, Call.groups m.bundleSize (heard ++ cs) = Call.groups m.bundleSize heard ++ new ∧
    List.Forall₂ Bundles (thin m.prescale (Call.groups m.bundleSize heard).length new) outputs

theorem GivesCompleted.append {cs ds : List (Call Activity)} {outputs outputs' : List Candidate}
    (h : m.GivesCompleted heard cs outputs) (h' : m.GivesCompleted (heard ++ cs) ds outputs') :
    m.GivesCompleted heard (cs ++ ds) (outputs ++ outputs') := by
  obtain ⟨new, hnew, houtputs⟩ := h
  obtain ⟨new', hnew', houtputs'⟩ := h'
  rw [hnew, List.length_append] at houtputs'
  refine ⟨new ++ new', ?_, ?_⟩
  · rw [← List.append_assoc, hnew', hnew, List.append_assoc]
  · rw [thin_append]
    exact List.rel_append houtputs houtputs'

/-! ### Calls -/

/-- An activity that leaves the bundle incomplete. -/
theorem Collects.collect (h : m.Collects heard k) {a : Activity}
    (hroom : (k.pending ++ [a]).length < m.bundleSize) (statistics : Statistics) :
    m.Collects (heard ++ [.process a])
        { k with pending := k.pending ++ [a], statistics := statistics } ∧
      Call.groups m.bundleSize (heard ++ [.process a]) = Call.groups m.bundleSize heard ++ [] := by
  rw [h.pending] at hroom ⊢
  obtain ⟨hgroups, hleft⟩ := snoc_of_incomplete hroom
  have hnone : Call.groups m.bundleSize (heard ++ [.process a]) =
      Call.groups m.bundleSize heard ++ [] :=
    Call.groups_process (hgroups.trans (List.append_nil _).symm)
  refine ⟨⟨h.bundleSize, h.prescale, ?_, ?_⟩, hnone⟩
  · rw [hnone, List.append_nil]
    exact h.completed
  · rw [Call.currentPiece_process, hleft]

/-- An activity that completes the bundle, which is the next group. -/
theorem Collects.complete (hsize : m.bundleSize ≠ 0) (h : m.Collects heard k) {a : Activity}
    (hfull : m.bundleSize ≤ (k.pending ++ [a]).length) (statistics : Statistics) :
    m.Collects (heard ++ [.process a])
        { k with completed := k.completed + 1, pending := [], statistics := statistics } ∧
      Call.groups m.bundleSize (heard ++ [.process a]) =
        Call.groups m.bundleSize heard ++ [k.pending ++ [a]] := by
  rw [h.pending] at hfull ⊢
  obtain ⟨hgroups, hleft⟩ := snoc_of_complete hsize hfull
  have hone := Call.groups_process hgroups
  refine ⟨⟨h.bundleSize, h.prescale, ?_, ?_⟩, hone⟩
  · rw [hone, List.length_append, ← h.completed]
    rfl
  · rw [Call.currentPiece_process, hleft]

theorem Collects.call (hsize : m.bundleSize ≠ 0) (h : m.Collects heard k) {c : Call Activity}
    {step : Step Bundler Candidate} (hstep : Maker.call k c = .ok step) :
    m.Collects (heard ++ [c]) step.maker ∧ m.GivesCompleted heard [c] step.outputs := by
  cases c with
  | flush =>
    obtain rfl := Except.ok.inj hstep
    have hgroups := Call.groups_flush m.bundleSize heard
    refine ⟨⟨h.bundleSize, h.prescale, ?_, ?_⟩, [], ?_, .nil⟩
    · rw [hgroups]
      exact h.completed
    · rw [Call.currentPiece_flush, incompleteGroup_nil]
      rfl
    · rw [hgroups, List.append_nil]
  | process a =>
    cases processed_of_process hstep with
    | collected hroom =>
      rw [h.bundleSize] at hroom
      obtain ⟨hnext, hnone⟩ := h.collect hroom k.statistics.hear
      exact ⟨hnext, [], hnone, .nil⟩
    | dropped hfull hprescale =>
      rw [h.bundleSize] at hfull
      rw [h.prescale, h.completed] at hprescale
      obtain ⟨hnext, hone⟩ := h.complete hsize hfull (k.statistics.hear.fire none).drop
      refine ⟨hnext, _, hone, ?_⟩
      rw [thin, if_neg fun hdvd => hprescale (Nat.mod_eq_zero_of_dvd hdvd)]
      exact .nil
    | @made first rest _ hfull hprescale hfirst =>
      rw [h.bundleSize] at hfull
      rw [h.prescale, h.completed] at hprescale
      obtain ⟨hnext, hone⟩ := h.complete hsize hfull (k.statistics.hear.fire none).emit
      refine ⟨hnext, _, hone, ?_⟩
      rw [thin, if_pos (Nat.dvd_of_mod_eq_zero hprescale), hfirst]
      exact .cons (bundles_candidate first rest) .nil

theorem Collects.run (hsize : m.bundleSize ≠ 0) (h : m.Collects heard k)
    {cs : List (Call Activity)} {steps : List (Step Bundler Candidate)}
    (hrun : Maker.run k cs = .ok steps) :
    m.Collects (heard ++ cs) (Maker.after k steps) ∧
      m.GivesCompleted heard cs (Maker.outputs steps) := by
  induction cs generalizing k heard steps with
  | nil =>
    obtain rfl := Except.ok.inj hrun
    rw [List.append_nil]
    exact ⟨h, [], by rw [List.append_nil, List.append_nil], .nil⟩
  | cons c cs ih =>
    obtain ⟨step, rest, hstep, hrest, rfl⟩ := Maker.run_cons_eq_ok_iff.1 hrun
    obtain ⟨hnext, hgiven⟩ := h.call hsize hstep
    obtain ⟨hlast, hlater⟩ := ih hnext hrest
    rw [List.append_assoc] at hlast
    exact ⟨hlast, hgiven.append hlater⟩

/-! ### Runs -/

/-- What holds of a bundler after some calls, and of the call that comes next. -/
structure MakesBundles (m : Bundler) (cs : List (Call Activity))
    (steps : List (Step Bundler Candidate)) : Prop where
  /-- The candidates are the complete groups with a number that the prescale divides, in order. -/
  outputs : List.Forall₂ Bundles (thin m.prescale 0 (Call.groups m.bundleSize cs))
    (Maker.outputs steps)
  /-- What is pending is what is left of the current piece. -/
  pending : (Maker.after m steps).pending =
    incompleteGroup m.bundleSize (Call.currentPiece cs)
  /-- A candidate is given out by the call that completes its group. -/
  completes : ∀ c step, Maker.call (Maker.after m steps) c = .ok step →
    m.GivesCompleted cs [c] step.outputs

/-- Whatever its bundle size, which is not zero, and its prescale, a bundler makes candidates of the
    complete groups of the pieces into which the ends of the stream cut the activities. -/
theorem bundles_are_complete_groups (b p : Nat) (hb : b ≠ 0) (cs : List (Call Activity)) :
    ∃ steps : List (Step Bundler Candidate),
      Maker.run ({ bundleSize := b, prescale := p } : Bundler) cs = .ok steps ∧
        MakesBundles { bundleSize := b, prescale := p } cs steps := by
  obtain ⟨steps, hrun⟩ := ({ bundleSize := b, prescale := p } : Bundler).goesThrough cs
  have hfresh : Collects { bundleSize := b, prescale := p } []
      { bundleSize := b, prescale := p } :=
    ⟨rfl, rfl, by rw [Call.groups_nil]; rfl, incompleteGroup_nil.symm⟩
  obtain ⟨hlast, new, hgroups, houtputs⟩ := hfresh.run hb hrun
  refine ⟨steps, hrun, ?_, hlast.pending, fun c step hstep => (hlast.call hb hstep).2⟩
  -- Nothing was heard before, and every group is one of the run.
  rw [Call.groups_nil, List.nil_append] at hgroups
  rw [Call.groups_nil] at houtputs
  rw [hgroups]
  exact houtputs

/-- The end of the stream takes one activity away, and the groups behind it are numbered as if it
    had not come. -/
theorem dropped_rest_keeps_the_number :
    let m : Bundler := { bundleSize := 2, prescale := 2 }
    let hit (t : Ticks) (d : DetId) : Activity := { timeStart := t, timeEnd := t + 5, detid := d }
    let cs : List (Call Activity) :=
      [.process (hit 30 7), .process (hit 10 3), .process (hit 20 1), .flush, .process (hit 50 2),
        .process (hit 40 2), .process (hit 60 9), .process (hit 70 8), .process (hit 80 8)]
    m.bundleSize ≠ 0 ∧
      ∃ steps : List (Step Bundler Candidate), Maker.run m cs = .ok steps ∧
        MakesBundles m cs steps ∧
        (Maker.outputs steps).map (fun o => (o.inputs.map (·.timeStart), o.regions)) =
          [([30, 10], [3, 7]), ([60, 70], [8, 9])] ∧
        (Maker.after m steps).pending.map (·.timeStart) = [80] := by
  intro m hit cs
  have hsize : m.bundleSize ≠ 0 := by decide
  obtain ⟨steps, hrun, hmakes⟩ := bundles_are_complete_groups m.bundleSize m.prescale hsize cs
  refine ⟨hsize, steps, hrun, hmakes, ?_⟩
  obtain rfl := Except.ok.inj hrun
  exact ⟨by decide, by decide⟩

end Bundler

end TriggerChain
