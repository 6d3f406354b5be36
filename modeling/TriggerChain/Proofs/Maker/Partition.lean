import TriggerChain.Proofs.Maker.Refinement

/-!
# Activities partition the stream

The window of a maker of activities is always the end of the stream that was processed: what
arrives goes to the end, and what leaves, leaves from the front. A window that fires leaves
as a whole, so the activities are pieces of the stream, one behind the other, and nothing is
in two of them. If the stream is in the order of time, a window spans less than its length.

Main statement: `activities_partition_stream`, for the three makers of activities.
-/

namespace TriggerChain

/-! ## Blocks of a list -/

/-- Blocks lie in a list: none is empty, each is a contiguous piece of the list, and they lie
    one behind the other. -/
inductive Laid {α : Type} : List α → List (List α) → Prop where
  /-- There are no blocks. -/
  | rest (xs : List α) : Laid xs []
  /-- A block behind a gap, and the other blocks behind it. -/
  | block (gap : List α) {b xs : List α} {bs : List (List α)} (hb : b ≠ [])
      (hrest : Laid xs bs) : Laid (gap ++ (b ++ xs)) (b :: bs)

namespace Laid

variable {α : Type} {xs : List α} {bs : List (List α)}

theorem append (h : Laid xs bs) (ys : List α) : Laid (xs ++ ys) bs := by
  induction h with
  | rest xs => exact .rest (xs ++ ys)
  | block gap hb _ ih =>
    rw [List.append_assoc, List.append_assoc]
    exact .block gap hb ih

theorem snoc (h : Laid xs bs) {b : List α} (hb : b ≠ []) : Laid (xs ++ b) (bs ++ [b]) := by
  induction h with
  | rest xs =>
    -- All of the list so far is the gap in front of the block.
    have hlast := Laid.block xs hb (.rest [])
    rwa [List.append_nil] at hlast
  | block gap hb' _ ih =>
    rw [List.append_assoc, List.append_assoc]
    exact .block gap hb' ih

theorem flatten_sublist (h : Laid xs bs) : bs.flatten.Sublist xs := by
  induction h with
  | rest xs => exact List.nil_sublist xs
  | block gap hb _ ih => exact (ih.append_left _).trans (List.sublist_append_right _ _)

theorem sublist (h : Laid xs bs) : ∀ b ∈ bs, b.Sublist xs :=
  fun _ hb => (List.sublist_flatten_of_mem hb).trans h.flatten_sublist

theorem mem_of_mem (h : Laid xs bs) : ∀ b ∈ bs, ∀ x ∈ b, x ∈ xs :=
  fun b hb _ hx => (h.sublist b hb).subset hx

theorem ne_nil (h : Laid xs bs) : ∀ b ∈ bs, b ≠ [] := by
  induction h with
  | rest xs => simp
  | block gap hb _ ih =>
    intro c hc
    rcases List.mem_cons.1 hc with rfl | hc
    · exact hb
    · exact ih c hc

theorem length_le (h : Laid xs bs) : bs.length ≤ xs.length := by
  induction h with
  | rest xs => exact Nat.zero_le _
  | block gap hb _ ih =>
    have hpos := List.length_pos_of_ne_nil hb
    simp only [List.length_cons, List.length_append]
    omega

/-- Blocks stand in every order in which the list stands. -/
theorem pairwise {r : α → α → Prop} (h : Laid xs bs) (hxs : xs.Pairwise r) :
    bs.Pairwise fun b c => ∀ x ∈ b, ∀ y ∈ c, r x y := by
  induction h with
  | rest xs => exact .nil
  | block gap hb hrest ih =>
    have htail := (List.pairwise_append.1 hxs).2.1
    -- Whatever is in a later block lies behind the first one.
    obtain ⟨-, hxs', hacross⟩ := List.pairwise_append.1 htail
    refine List.pairwise_cons.2 ⟨?_, ih hxs'⟩
    intro c hc x hx y hy
    have hmem := hrest.mem_of_mem c hc y hy
    exact hacross x hx y hmem

end Laid

/-! ## What a call does to the list -/

namespace Reference

variable {π τ ο : Type} [Element τ] [Policy π τ ο] [ListPolicy π τ ο]

/-- A call holds the list, but for some elements that leave from the front; or the list fires
    as a whole, and the next one starts with the input. -/
inductive Advance (r : Reference π τ) (c : Call τ) : Prop
  | held (old : List τ) (hemitted : (r.call c).emitted = none)
      (hfired : (r.call c).next.statistics.fired = r.statistics.fired)
      (hsplit : r.residents ++ c.input?.toList = old ++ (r.call c).next.residents)
  | fired (hemitted : (r.call c).emitted = none ∨ (r.call c).emitted = some r.residents)
      (hfired : (r.call c).next.statistics.fired = r.statistics.fired + 1)
      (hfull : r.residents ≠ []) (hnext : (r.call c).next.residents = c.input?.toList)

omit [Element τ] [ListPolicy π τ ο] in
theorem fire_cases (r : Reference π τ) (fired : Fired) (next : List τ) :
    ((r.fire fired next).emitted = none ∨ (r.fire fired next).emitted = some r.residents) ∧
      (r.fire fired next).next.statistics.fired = r.statistics.fired + 1 ∧
      (r.fire fired next).next.residents = next := by
  unfold fire
  dsimp only
  split
  · exact ⟨.inr rfl, rfl, rfl⟩
  · exact ⟨.inl rfl, rfl, rfl⟩

omit [Element τ] [ListPolicy π τ ο] in
theorem eq_residents_of_fire {r : Reference π τ} {fired : Fired} {next xs : List τ}
    (h : (r.fire fired next).emitted = some xs) : xs = r.residents := by
  rcases (fire_cases r fired next).1 with hnone | hall
  · cases h.symm.trans hnone
  · exact Option.some.inj (h.symm.trans hall)

/-- Where what a call emits comes from. -/
inductive Origin (r : Reference π τ) (c : Call τ) (xs : List τ) : Prop
  /-- It was all of the list, and the list fired. -/
  | fired {fired : Fired} (hall : xs = r.residents)
      (hfires : ListPolicy.firesAt r.policy xs c = some fired)
  /-- It is an input that is passed through. -/
  | passed {x : τ} (hpass : ListPolicy.passes r.policy = true) (hone : xs = [x])

theorem origin_of_emitted {r : Reference π τ} {c : Call τ} {xs : List τ}
    (h : (r.call c).emitted = some xs) : Origin r c xs := by
  cases c with
  | process x =>
    change (r.process x).emitted = some xs at h
    cases r.branches x with
    | seeded _ _ hprocess | admitted _ _ hprocess | slid _ _ hprocess =>
      rw [hprocess] at h
      cases h
    | passed _ hpass hprocess =>
      rw [hprocess] at h
      exact .passed hpass (eq_residents_of_fire h)
    | fired _ hfires hprocess =>
      rw [hprocess] at h
      obtain rfl := eq_residents_of_fire h
      exact .fired rfl hfires
  | flush =>
    change r.flush.emitted = some xs at h
    by_cases hresidents : r.residents = []
    · rw [flush_idle hresidents] at h
      cases h
    · cases hfires : ListPolicy.firesAtEnd r.policy r.residents with
      | none =>
        rw [flush_left hresidents hfires] at h
        cases h
      | some fired =>
        rw [flush_fired hresidents hfires] at h
        obtain rfl := eq_residents_of_fire h
        exact .fired rfl hfires

theorem Advance.of_quiet {r next : Reference π τ} {c : Call τ} (old : List τ)
    (hcall : r.call c = { next }) (hfired : next.statistics.fired = r.statistics.fired)
    (hsplit : r.residents ++ c.input?.toList = old ++ next.residents) : Advance r c := by
  refine .held old ?_ ?_ ?_
  · rw [hcall]
  · rw [hcall, hfired]
  · rw [hcall, hsplit]

theorem Advance.of_fire {r r' : Reference π τ} {c : Call τ} {fired : Fired}
    (hcall : r.call c = r'.fire fired c.input?.toList) (hresidents : r'.residents = r.residents)
    (hfired : r'.statistics.fired = r.statistics.fired) (hfull : r.residents ≠ []) :
    Advance r c := by
  have hcases := fire_cases r' fired c.input?.toList
  rw [← hcall, hresidents, hfired] at hcases
  obtain ⟨hemitted, hcount, hnext⟩ := hcases
  exact .fired hemitted hcount hfull hnext

theorem advance_process (r : Reference π τ) (x : τ) (horder : Element.inOrder τ = true)
    (hpasses : ListPolicy.passes r.policy = false) : Advance r (.process x) := by
  have hinsert : ∀ xs : List τ, insert x xs = xs ++ [x] := fun xs => if_pos horder
  cases r.branches x with
  | seeded hempty _ hprocess =>
    refine Advance.of_quiet (c := .process x) [] hprocess rfl ?_
    rw [hempty]
    rfl
  | passed _ hpass _ =>
    -- Primitives are never passed through.
    rw [hpasses] at hpass
    cases hpass
  | admitted _ _ hprocess =>
    refine Advance.of_quiet (c := .process x) [] hprocess rfl ?_
    exact (hinsert r.residents).symm
  | fired hfull _ hprocess => exact Advance.of_fire hprocess rfl rfl hfull
  | slid _ _ hprocess =>
    -- What stays is an end of the list, so what leaves is a beginning.
    obtain ⟨old, hold⟩ : r.young x <:+ r.residents := List.dropWhile_suffix _
    refine Advance.of_quiet (c := .process x) old hprocess rfl ?_
    show _ = old ++ insert x (r.young x)
    rw [hinsert, ← List.append_assoc, hold]
    rfl

theorem advance_flush (r : Reference π τ) : Advance r .flush := by
  by_cases hresidents : r.residents = []
  · refine Advance.of_quiet (c := .flush) [] (flush_idle hresidents) rfl ?_
    exact List.append_nil _
  · cases hfires : ListPolicy.firesAtEnd r.policy r.residents with
    | some fired => exact Advance.of_fire (flush_fired hresidents hfires) rfl rfl hresidents
    | none => exact Advance.of_quiet r.residents (flush_left hresidents hfires) rfl rfl

omit [Element τ] in
theorem residents_flush (r : Reference π τ) : r.flush.next.residents = [] := by
  by_cases hresidents : r.residents = []
  · rw [flush_idle hresidents, hresidents]
  · cases hfires : ListPolicy.firesAtEnd r.policy r.residents with
    | some fired =>
      rw [flush_fired hresidents hfires]
      exact (fire_cases r fired []).2.2
    | none => rw [flush_left hresidents hfires]

theorem advance_call (r : Reference π τ) (c : Call τ) (horder : Element.inOrder τ = true)
    (hpasses : ListPolicy.passes r.policy = false) : Advance r c := by
  cases c with
  | process x => exact advance_process r x horder hpasses
  | flush => exact advance_flush r

/-- In either case what leaves, leaves from the front. -/
theorem Advance.split {r : Reference π τ} {c : Call τ} (h : Advance r c) :
    ∃ old, r.residents ++ c.input?.toList = old ++ (r.call c).next.residents := by
  cases h with
  | held old _ _ hsplit => exact ⟨old, hsplit⟩
  | fired _ _ _ hnext => exact ⟨r.residents, by rw [hnext]⟩

end Reference

/-! ## The span of a window -/

namespace Window

variable {τ : Type} [Element τ]

/-- Any two of some elements began less than a length apart. -/
def Within (length : Int) (xs : List τ) : Prop :=
  ∀ p ∈ xs, ∀ q ∈ xs, began q - began p < length

instance (length : Int) (xs : List τ) : Decidable (Within length xs) :=
  inferInstanceAs (Decidable (∀ p ∈ xs, ∀ q ∈ xs, _))

theorem within_nil (length : Int) : Within length ([] : List τ) := by
  intro p hp
  cases hp

theorem within_one {length : Int} (hlength : 0 < length) (x : τ) : Within length [x] := by
  intro p hp q hq
  obtain rfl := List.mem_singleton.1 hp
  obtain rfl := List.mem_singleton.1 hq
  omega

theorem within_snoc {length : Int} (hlength : 0 < length) {xs : List τ} {x : τ}
    (hxs : Chronological (xs ++ [x])) (hx : ∀ e ∈ xs, began x - began e < length) :
    Within length (xs ++ [x]) := by
  intro p hp q hq
  have hlast := (List.pairwise_append.1 hxs).2.2
  have hqx : began q ≤ began x := by
    rcases List.mem_append.1 hq with hq | hq
    · exact hlast q hq x (List.mem_singleton.2 rfl)
    · obtain rfl := List.mem_singleton.1 hq
      exact Int.le_refl _
  rcases List.mem_append.1 hp with hp | hp
  · have hpx := hx p hp
    omega
  · rw [List.mem_singleton.1 hp]
    omega

end Window

namespace Reference

variable {π τ ο : Type} [Element τ] [Policy π τ ο]

/-- Of elements in order, those that stay are not too old. -/
theorem young_not_old {r : Reference π τ} (x : τ) (hr : Window.Chronological r.residents) :
    ∀ e ∈ r.young x, Window.began x - Window.began e < r.windowLength := by
  intro e he
  have hno := Window.not_of_mem_dropWhile ?_ hr e he
  · simpa using hno
  · intro a b hab hb
    rw [decide_eq_true_eq] at hb ⊢
    omega

variable [ListPolicy π τ ο]

theorem within_call {r : Reference π τ} (hlength : 0 < r.windowLength) (c : Call τ)
    (horder : Element.inOrder τ = true) (hpasses : ListPolicy.passes r.policy = false)
    (hchron : Window.Chronological (r.residents ++ c.input?.toList)) :
    Window.Within r.windowLength (r.call c).next.residents := by
  cases c with
  | flush =>
    show Window.Within _ r.flush.next.residents
    rw [residents_flush]
    exact Window.within_nil _
  | process x =>
    show Window.Within _ (r.process x).next.residents
    have hinsert : ∀ xs : List τ, insert x xs = xs ++ [x] := fun xs => if_pos horder
    have hres : Window.Chronological r.residents := (List.pairwise_append.1 hchron).1
    cases r.branches x with
    | seeded _ _ hprocess =>
      rw [hprocess]
      exact Window.within_one hlength x
    | passed _ hpass _ =>
      rw [hpasses] at hpass
      cases hpass
    | admitted hresidents hfits hprocess =>
      rw [hprocess]
      show Window.Within _ (insert x r.residents)
      rw [hinsert]
      refine Window.within_snoc hlength hchron ?_
      -- The first element is the oldest, and the input is young enough for it.
      intro e he
      rw [hresidents] at he hres
      have hfirst := hres.head_le e he
      omega
    | fired _ _ hprocess =>
      rw [hprocess, (fire_cases r.heard _ [x]).2.2]
      exact Window.within_one hlength x
    | slid _ _ hprocess =>
      rw [hprocess]
      show Window.Within _ (insert x (r.young x))
      rw [hinsert]
      refine Window.within_snoc hlength ?_ (young_not_old x hres)
      exact hchron.sublist ((List.dropWhile_sublist _).append_right _)

end Reference

/-! ## Runs -/

namespace Windowed

variable {π τ ο : Type} [Element τ] [Policy π τ ο] [ListPolicy π τ ο] [Cluster ο τ]
variable [LawfulPolicy π τ ο]

variable {m : Windowed π τ}

theorem Valid.after_run (hm : m.Valid) {cs : List (Call τ)}
    {steps : List (Step (Windowed π τ) ο)} (h : Maker.run m cs = .ok steps) :
    (Maker.after m steps).Valid ∧ (Maker.after m steps).policy = m.policy := by
  induction cs generalizing m steps with
  | nil =>
    obtain rfl := Except.ok.inj h
    exact ⟨hm, rfl⟩
  | cons c cs ih =>
    obtain ⟨step, rest, hstep, hrest, rfl⟩ := Maker.run_cons_eq_ok_iff.1 h
    obtain ⟨hvalid, hpolicy⟩ := ih (hm.follows hstep).valid hrest
    exact ⟨hvalid, hpolicy.trans (hm.policy_eq hstep)⟩

theorem Valid.record_of_run (hm : m.Valid) {cs : List (Call τ)}
    {steps : List (Step (Windowed π τ) ο)} (h : Maker.run m cs = .ok steps) :
    ∀ a ∈ Maker.outputs steps, ListPolicy.record? m.policy (Cluster.elements a) = some a := by
  induction cs generalizing m steps with
  | nil =>
    obtain rfl := Except.ok.inj h
    simp [Maker.outputs]
  | cons c cs ih =>
    obtain ⟨step, rest, hstep, hrest, rfl⟩ := Maker.run_cons_eq_ok_iff.1 h
    have hfollows := hm.follows hstep
    have hpolicy := hm.policy_eq hstep
    intro a ha
    rcases List.mem_append.1 ha with ha | ha
    · rw [← hpolicy]
      exact (hfollows.reference.record_of_mem ha).2
    · rw [← hpolicy]
      exact ih hfollows.valid hrest a ha

/-- A call moves `old` out of the front of the window, and if it gives an output, this is `old`
    and was all of the window. -/
structure Moves (m : Windowed π τ) (c : Call τ) (step : Step (Windowed π τ) ο) (old : List τ) :
    Prop where
  split : m.window.inputs ++ c.input?.toList = old ++ step.maker.window.inputs
  outputs : step.outputs = [] ∨
    (old = m.window.inputs ∧ old ≠ [] ∧ step.outputs.map Cluster.elements = [old])

section Moves

variable {c : Call τ} {step : Step (Windowed π τ) ο} {old : List τ}

omit [Element τ] [Policy π τ ο] [ListPolicy π τ ο] [LawfulPolicy π τ ο] in
theorem Moves.laid (h : Moves m c step old) {before : List τ} {blocks : List (List τ)}
    (hlaid : Laid before blocks) :
    Laid (before ++ old) (blocks ++ step.outputs.map Cluster.elements) := by
  rcases h.outputs with hnone | ⟨-, hold, hone⟩
  · rw [hnone, List.map_nil, List.append_nil]
    exact hlaid.append old
  · rw [hone]
    exact hlaid.snoc hold

omit [Element τ] [Policy π τ ο] [ListPolicy π τ ο] [LawfulPolicy π τ ο] in
theorem Moves.elements_eq (h : Moves m c step old) :
    ∀ a ∈ step.outputs, Cluster.elements a = m.window.inputs := by
  intro a ha
  rcases h.outputs with hnone | ⟨hall, -, hone⟩
  · rw [hnone] at ha
    cases ha
  · have hmem := List.mem_map_of_mem (f := Cluster.elements) ha
    rw [hone, hall] at hmem
    exact List.mem_singleton.1 hmem

end Moves

section InOrder

variable (horder : Element.inOrder τ = true) (hm : m.Valid)
variable (hpasses : ListPolicy.passes m.policy = false)

include horder hm hpasses

theorem Valid.moves {c : Call τ} {step : Step (Windowed π τ) ο}
    (h : Maker.call m c = .ok step) : ∃ old, Moves m c step old := by
  have hmatches := (hm.follows h).reference
  have hnext : (m.forget.call c).next.residents = step.maker.window.inputs :=
    congrArg Reference.residents hmatches.next
  have helements := hmatches.elements
  cases Reference.advance_call m.forget c horder hpasses with
  | held old hemitted _ hsplit =>
    rw [hemitted] at helements
    rw [hnext] at hsplit
    exact ⟨old, hsplit, .inl (List.map_eq_nil_iff.1 helements)⟩
  | fired hemitted _ hfull hinput =>
    refine ⟨m.window.inputs, ?_, ?_⟩
    · rw [← hnext, hinput]
    · -- The prescale drops the list or lets it through.
      rcases hemitted with hnone | hsome
      · rw [hnone] at helements
        exact .inl (List.map_eq_nil_iff.1 helements)
      · rw [hsome] at helements
        exact .inr ⟨rfl, hfull, helements⟩

/-- An input that makes the window fire starts the next one alone. -/
theorem Valid.firing_process {x : τ} {step : Step (Windowed π τ) ο}
    (h : Maker.process m x = .ok step)
    (hfires : step.maker.statistics.fired ≠ m.statistics.fired ∨ step.outputs ≠ []) :
    step.maker.window.inputs = [x] ∧
      ∀ a ∈ step.outputs, Cluster.elements a = m.window.inputs := by
  have hcall : Maker.call m (.process x) = .ok step := h
  have hmatches := (hm.follows hcall).reference
  obtain ⟨old, hmoves⟩ := hm.moves horder hpasses hcall
  refine ⟨?_, hmoves.elements_eq⟩
  have hnext : (m.forget.call (.process x)).next.residents = step.maker.window.inputs :=
    congrArg Reference.residents hmatches.next
  have hstatistics : (m.forget.call (.process x)).next.statistics = step.maker.statistics :=
    congrArg Reference.statistics hmatches.next
  cases Reference.advance_call m.forget (.process x) horder hpasses with
  | held _ hemitted hfired =>
    -- Nothing fired, so neither the counter nor an output can show it.
    exfalso
    rw [hstatistics] at hfired
    have helements := hmatches.elements
    rw [hemitted] at helements
    have hnil : step.outputs = [] := List.map_eq_nil_iff.1 helements
    rcases hfires with hcounter | houtputs
    · exact hcounter hfired
    · exact houtputs hnil
  | fired _ _ _ hinput => exact hnext.symm.trans hinput

theorem Valid.within_step {c : Call τ} {step : Step (Windowed π τ) ο}
    (h : Maker.call m c = .ok step)
    (hchron : Window.Chronological (m.window.inputs ++ c.input?.toList)) :
    Window.Within m.forget.windowLength step.maker.window.inputs := by
  have hnext : (m.forget.call c).next.residents = step.maker.window.inputs :=
    congrArg Reference.residents (hm.follows h).reference.next
  have hpos : 0 < m.forget.windowLength := Int64.lt_iff_toInt_lt.1 hm.windowLength
  rw [← hnext]
  exact Reference.within_call hpos c horder hpasses hchron

/-- The window stays the end of what was heard, and every output is a block behind those
    before it. -/
theorem Valid.laid_run {cs : List (Call τ)} {steps : List (Step (Windowed π τ) ο)}
    (h : Maker.run m cs = .ok steps) {before : List τ} {blocks : List (List τ)}
    (hlaid : Laid before blocks) :
    ∃ before', before ++ m.window.inputs ++ Call.inputs cs =
        before' ++ (Maker.after m steps).window.inputs ∧
      Laid before' (blocks ++ (Maker.outputs steps).map Cluster.elements) := by
  induction cs generalizing m steps before blocks with
  | nil =>
    obtain rfl := Except.ok.inj h
    refine ⟨before, ?_, ?_⟩
    · rw [Call.inputs_nil, List.append_nil]
      rfl
    · simpa [Maker.outputs] using hlaid
  | cons c cs ih =>
    obtain ⟨step, rest, hstep, hrest, rfl⟩ := Maker.run_cons_eq_ok_iff.1 h
    obtain ⟨old, hmoves⟩ := hm.moves horder hpasses hstep
    have hpasses' : ListPolicy.passes step.maker.policy = false := by
      rw [hm.policy_eq hstep, hpasses]
    -- What is before the window grows by what the call moves out of it.
    obtain ⟨before', hstream, hblocks⟩ :=
      ih (hm.follows hstep).valid hpasses' hrest (hmoves.laid hlaid)
    refine ⟨before', ?_, ?_⟩
    · calc before ++ m.window.inputs ++ Call.inputs (c :: cs)
          = before ++ (m.window.inputs ++ c.input?.toList) ++ Call.inputs cs := by
            rw [Call.inputs_cons]
            simp only [List.append_assoc]
        _ = before ++ old ++ step.maker.window.inputs ++ Call.inputs cs := by
            rw [hmoves.split]
            simp only [List.append_assoc]
        _ = before' ++ (Maker.after step.maker rest).window.inputs := hstream
    · rw [List.append_assoc, ← List.map_append] at hblocks
      exact hblocks

/-- Of a stream in order, the window and the outputs stay within the length of a window. -/
theorem Valid.within_run {cs : List (Call τ)} {steps : List (Step (Windowed π τ) ο)}
    (h : Maker.run m cs = .ok steps)
    (hchron : Window.Chronological (m.window.inputs ++ Call.inputs cs))
    (hwithin : Window.Within m.forget.windowLength m.window.inputs) :
    Window.Within m.forget.windowLength (Maker.after m steps).window.inputs ∧
      ∀ a ∈ Maker.outputs steps, Window.Within m.forget.windowLength (Cluster.elements a) := by
  induction cs generalizing m steps with
  | nil =>
    obtain rfl := Except.ok.inj h
    exact ⟨hwithin, by simp [Maker.outputs]⟩
  | cons c cs ih =>
    obtain ⟨step, rest, hstep, hrest, rfl⟩ := Maker.run_cons_eq_ok_iff.1 h
    have hpolicy := hm.policy_eq hstep
    have hlength : step.maker.forget.windowLength = m.forget.windowLength :=
      congrArg (fun p => (Policy.settings p).windowLength.toInt) hpolicy
    obtain ⟨old, hmoves⟩ := hm.moves horder hpasses hstep
    rw [Call.inputs_cons, ← List.append_assoc] at hchron
    have hwithin' := hm.within_step horder hpasses hstep (List.pairwise_append.1 hchron).1
    have hchron' : Window.Chronological (step.maker.window.inputs ++ Call.inputs cs) := by
      rw [hmoves.split, List.append_assoc] at hchron
      exact (List.pairwise_append.1 hchron).2.1
    rw [← hlength] at hwithin' ⊢
    obtain ⟨hlast, houtputs⟩ :=
      ih (hm.follows hstep).valid (by rw [hpolicy, hpasses]) hrest hchron' hwithin'
    refine ⟨hlast, ?_⟩
    intro a ha
    rcases List.mem_append.1 ha with ha | ha
    · -- What is emitted was the window before the call.
      rw [hmoves.elements_eq a ha, hlength]
      exact hwithin
    · exact houtputs a ha

end InOrder

end Windowed

/-! ## The partition -/

/-- The maker `m` that the calls `cs` on the maker of a policy lead to, with the outputs on
    the way. -/
def Reaches {π τ ο : Type} [Element τ] [Policy π τ ο] (p : π) (cs : List (Call τ))
    (m : Windowed π τ) (outputs : List ο) : Prop :=
  ∃ steps, Maker.run ({ policy := p } : Windowed π τ) cs = .ok steps ∧
    Maker.after { policy := p } steps = m ∧ Maker.outputs steps = outputs

/-- A maker that can be reached is followed by those that it becomes. -/
theorem Reaches.process {π τ ο : Type} [Element τ] [Policy π τ ο] {p : π} {cs : List (Call τ)}
    {m : Windowed π τ} {outputs : List ο} (h : Reaches p cs m outputs) {x : τ}
    {step : Step (Windowed π τ) ο} (hstep : Maker.process m x = .ok step) :
    Reaches p (cs ++ [.process x]) step.maker (outputs ++ step.outputs) := by
  obtain ⟨steps, hrun, rfl, rfl⟩ := h
  have hone : Maker.run (Maker.after { policy := p } steps) [.process x] = .ok [step] :=
    Maker.run_cons_eq_ok_iff.2 ⟨step, [], hstep, rfl, rfl⟩
  refine ⟨steps ++ [step], Maker.run_append hrun hone, ?_, ?_⟩
  · rw [Maker.after_append]
    rfl
  · rw [Maker.outputs_append, Maker.outputs_cons]
    exact congrArg _ (List.append_nil _)

/-- The activities of a maker partition the stream: what holds after every sequence of calls
    on the maker of a policy that goes through. -/
structure Partitions {π : Type} [Policy π Primitive Activity] (p : π) : Prop where
  /-- The window is the end of the stream so far, and the activities lie in what is before
      it. -/
  layout : ∀ cs m activities, Reaches p cs m activities →
    ∃ before, Call.inputs cs = before ++ m.window.inputs ∧
      Laid before (activities.map (·.inputs))
  /-- A primitive whose arrival fires the window starts the next window alone; the activity,
      if there is one, has what was in the window before it. -/
  firing : ∀ cs m activities x step, Reaches p cs m activities →
    Maker.process m x = .ok step →
    (step.maker.statistics.fired ≠ m.statistics.fired ∨ step.outputs ≠ []) →
    step.maker.window.inputs = [x] ∧ ∀ a ∈ step.outputs, a.inputs = m.window.inputs
  /-- Of a stream in the order of time, no window and no activity spans the length of a
      window. -/
  span : ∀ cs m activities, Reaches p cs m activities →
    Window.Chronological (Call.inputs cs) →
    Window.Within (Policy.settings p).windowLength.toInt m.window.inputs ∧
      ∀ a ∈ activities, Window.Within (Policy.settings p).windowLength.toInt a.inputs
  /-- Of a stream in the order of time, the activities come in the order of time. -/
  ordered : ∀ cs m activities, Reaches p cs m activities →
    Window.Chronological (Call.inputs cs) →
    activities.Pairwise fun a b => a.timeStart ≤ b.timeStart

theorem partitions_of_validate {π : Type} [Policy π Primitive Activity]
    [ListPolicy π Primitive Activity] [LawfulPolicy π Primitive Activity] {p : π}
    (hp : (Policy.settings p).validate = .ok ()) (hpasses : ListPolicy.passes p = false)
    (hstart : ∀ xs a, ListPolicy.record? p xs = some a → a.timeStart = Window.startOf xs) :
    Partitions p := by
  have hvalid := Windowed.valid_fresh hp
  have horder : Element.inOrder Primitive = true := rfl
  have hlayout : ∀ cs m activities, Reaches p cs m activities →
      ∃ before, Call.inputs cs = before ++ m.window.inputs ∧
        Laid before (activities.map (·.inputs)) := by
    rintro cs _ _ ⟨steps, hrun, rfl, rfl⟩
    exact hvalid.laid_run horder hpasses hrun (Laid.rest [])
  refine ⟨hlayout, ?_, ?_, ?_⟩
  · rintro cs _ _ x step ⟨steps, hrun, rfl, rfl⟩ hstep hfires
    obtain ⟨hreached, hpolicy⟩ := hvalid.after_run hrun
    have hpasses' : ListPolicy.passes
        (Maker.after ({ policy := p } : Windowed π Primitive) steps).policy = false := by
      rw [hpolicy, hpasses]
    exact hreached.firing_process horder hpasses' hstep hfires
  · rintro cs _ _ ⟨steps, hrun, rfl, rfl⟩ hchron
    exact hvalid.within_run horder hpasses hrun hchron (Window.within_nil _)
  · intro cs m activities hreaches hchron
    obtain ⟨before, hinputs, hlaid⟩ := hlayout cs m activities hreaches
    rw [hinputs] at hchron
    have hblocks := hlaid.pairwise (List.pairwise_append.1 hchron).1
    rw [List.pairwise_map] at hblocks
    obtain ⟨steps, hrun, -, rfl⟩ := hreaches
    have hbegin : ∀ a ∈ Maker.outputs steps, ∃ first ∈ a.inputs,
        a.timeStart = first.timeStart := by
      intro a ha
      have hne := hlaid.ne_nil a.inputs (List.mem_map_of_mem ha)
      obtain ⟨first, rest, hcons⟩ := List.exists_cons_of_ne_nil hne
      have hrecord := hvalid.record_of_run hrun a ha
      refine ⟨first, by rw [hcons]; simp, ?_⟩
      rw [hstart _ _ hrecord]
      show Window.startOf a.inputs = _
      rw [hcons]
      rfl
    -- The blocks are in order, and an activity begins with the first of its block.
    refine hblocks.imp_of_mem ?_
    intro a b ha hb hab
    obtain ⟨first, hfirst, htime⟩ := hbegin a ha
    obtain ⟨first', hfirst', htime'⟩ := hbegin b hb
    rw [htime, htime', Int64.le_iff_toInt_le]
    exact hab first hfirst first' hfirst'

/-- With settings in range, whatever the times of the primitives are, the activities of each of
    the three makers partition the stream. -/
theorem activities_partition_stream (s : Settings) (hs : s.validate = .ok ()) :
    Partitions (Geometry.horizontal s) ∧ Partitions (Geometry.charge s) ∧
      Partitions ({ settings := s } : Shape) := by
  have hcharge := (Geometry.validate_charge s).trans hs
  have hstart : ∀ (algorithm : ActivityAlgorithm) (timeEnd : Primitive → Int) xs a,
      Activity.ofPrimitives? algorithm timeEnd xs = some a → a.timeStart = Window.startOf xs :=
    fun _ _ _ _ h => (inputs_ofPrimitives? h).2
  refine ⟨?_, ?_, ?_⟩
  · exact partitions_of_validate hs rfl (hstart _ _)
  · exact partitions_of_validate hcharge rfl (hstart _ _)
  · exact partitions_of_validate hs rfl (hstart _ _)

/-- Two hits above the threshold together and a later one: the arrival of the later one fires the
    window, so the two are the activity and the later one is alone in the next window. -/
theorem firing_window_partitions :
    let s := Settings.withAdcTrigger {} 100
    let p := Geometry.charge s
    let together : List (Call Primitive) := [.process (.hit 1 0 60), .process (.hit 2 10 60)]
    let late := Primitive.hit 3 9000 10
    s.validate = .ok () ∧ Partitions (Geometry.horizontal s) ∧ Partitions p ∧
      Partitions ({ settings := s } : Shape) ∧
      ∃ m step activity, Reaches p together m [] ∧ Maker.process m late = .ok step ∧
        step.outputs = [activity] ∧
        step.maker.statistics.fired = m.statistics.fired + 1 ∧
        activity.inputs = [.hit 1 0 60, .hit 2 10 60] ∧ step.maker.window.inputs = [late] ∧
        (∃ before, Call.inputs (together ++ [.process late]) =
          before ++ step.maker.window.inputs ∧ Laid before [activity.inputs]) ∧
        Window.Within 8000 activity.inputs := by
  intro s p together late
  have hvalid : s.validate = .ok () := Settings.validate_eq_ok_iff.2 (by decide)
  obtain ⟨hhorizontal, hcharge, hshape⟩ := activities_partition_stream s hvalid
  let fresh : Windowed Geometry Primitive := { policy := p }
  have hseen : (do
      let steps ← Maker.run fresh together
      let step ← Maker.process (Maker.after fresh steps) late
      return (steps, step) :
      Except Fault (List (Step (Windowed Geometry Primitive) Activity) × _)).toOption.map
        (fun (steps, step) => (Maker.outputs steps, (Maker.after fresh steps).window.inputs,
          (Maker.after fresh steps).statistics.fired, step.outputs.length,
          step.maker.statistics.fired)) =
      some ([], [.hit 1 0 60, .hit 2 10 60], 0, 1, 1) := by
    decide +kernel
  obtain ⟨⟨steps, step⟩, hboth, hlook⟩ := Checked.toOption_map_eq_some_iff.1 hseen
  obtain ⟨steps, hrun, h⟩ := Checked.bind_eq_ok_iff.1 hboth
  obtain ⟨step, hstep, h⟩ := Checked.bind_eq_ok_iff.1 h
  obtain ⟨rfl, rfl⟩ := Prod.mk.inj (Except.ok.inj h)
  simp only [Prod.mk.injEq] at hlook
  obtain ⟨hnone, hwindow, hquiet, hone, hfired⟩ := hlook
  obtain ⟨activity, houtputs⟩ := List.length_eq_one_iff.1 hone
  have hreaches : Reaches p together (Maker.after fresh steps) [] := ⟨steps, hrun, rfl, hnone⟩
  have hreaches' := hreaches.process hstep
  rw [houtputs] at hreaches'
  have hfires : step.maker.statistics.fired ≠ (Maker.after fresh steps).statistics.fired := by
    rw [hquiet, hfired]
    decide
  obtain ⟨hnext, hactivity⟩ := hcharge.firing _ _ _ late step hreaches hstep (.inl hfires)
  have hmem : activity ∈ step.outputs := houtputs ▸ List.mem_singleton_self activity
  have hchron : Window.Chronological (Call.inputs (together ++ [.process late])) := by
    unfold Window.Chronological
    decide
  refine ⟨hvalid, hhorizontal, hcharge, hshape, _, step, activity, hreaches, hstep, houtputs, ?_,
    (hactivity activity hmem).trans hwindow, hnext, hcharge.layout _ _ _ hreaches', ?_⟩
  · rw [hquiet, hfired]
  · exact (hcharge.span _ _ _ hreaches' hchron).2 activity (List.mem_singleton_self activity)

end TriggerChain
