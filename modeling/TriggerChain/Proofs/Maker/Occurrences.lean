import TriggerChain.Proofs.Maker.Simultaneous

/-!
# Nothing is grouped twice

What is handed over is numbered in the order of arrival, so that equal elements can be told apart.
In whatever order of time the inputs arrive, the window holds numbered elements in the order of
their start times, those that begin at once in the order of arrival, and what it holds or has given
out is among what was handed over, each number once. A group of elements is given out as it stands
in the window.

Main statement: `candidates_group_occurrences`.
-/

namespace TriggerChain

/-! ## Numbered elements -/

section Numbered

variable {τ : Type} [Element τ]

/-- Of two numbered elements, the first began earlier, or at the same time and arrived earlier. -/
def Precedes (a b : τ × Nat) : Prop :=
  Window.began a.1 < Window.began b.1 ∨ (Window.began a.1 = Window.began b.1 ∧ a.2 < b.2)

theorem Precedes.began_le {a b : τ × Nat} (h : Precedes a b) :
    Window.began a.1 ≤ Window.began b.1 := by
  rcases h with hlt | ⟨heq, -⟩ <;> omega

/-- Numbered elements in order stand in the order of time. -/
theorem chronological_of_precedes {as : List (τ × Nat)} (h : as.Pairwise Precedes) :
    Window.Chronological (as.map Prod.fst) :=
  List.pairwise_map.2 (h.imp Precedes.began_le)

/-- What a window holds, numbered: its elements are in order, and arrived before the number `n`. -/
structure Holds (n : Nat) (xs : List τ) (held : List (τ × Nat)) : Prop where
  elements : xs = held.map Prod.fst
  sorted : held.Pairwise Precedes
  earlier : ∀ a ∈ held, a.2 < n

theorem holds_nil (n : Nat) : Holds n ([] : List τ) [] := ⟨rfl, .nil, by simp⟩

theorem holds_one (n : Nat) (x : τ) : Holds (n + 1) [x] [(x, n)] :=
  ⟨rfl, List.pairwise_singleton _ _, by simp⟩

theorem Holds.dropWhile {n : Nat} {xs : List τ} {held : List (τ × Nat)} (h : Holds n xs held)
    (p : τ → Bool) : ∃ kept, kept.Sublist held ∧ Holds n (xs.dropWhile p) kept := by
  refine ⟨held.dropWhile (p ∘ Prod.fst), List.dropWhile_sublist _, ?_, ?_, ?_⟩
  · rw [h.elements, List.dropWhile_map]
  · exact h.sorted.sublist (List.dropWhile_sublist _)
  · exact fun a ha => h.earlier a ((List.dropWhile_sublist _).subset ha)

/-- A late element that arrives next is put behind those that it does not precede. -/
theorem Holds.insert {n : Nat} {xs : List τ} {held : List (τ × Nat)} (h : Holds n xs held)
    (hlate : Element.inOrder τ = false) (x : τ) :
    ∃ next, next.Perm (held ++ [(x, n)]) ∧ Holds (n + 1) (Reference.insert x xs) next := by
  have hchron : Window.Chronological xs := h.elements ▸ chronological_of_precedes h.sorted
  obtain ⟨front, back, hxs, hplace, hfront, hback⟩ := Window.place_split x hchron hlate
  -- The numbers are split where the elements are.
  obtain ⟨held₁, held₂, rfl, rfl, rfl⟩ := List.map_eq_append_iff.1 (h.elements.symm.trans hxs)
  obtain ⟨hsorted₁, hsorted₂, hacross⟩ := List.pairwise_append.1 h.sorted
  refine ⟨held₁ ++ (x, n) :: held₂, ?_, ?_, ?_, ?_⟩
  · exact List.perm_middle.trans (List.perm_append_singleton _ _).symm
  · rw [Reference.insert_eq_place x fun _ => hchron, hplace, List.map_append, List.map_cons]
  · refine List.pairwise_append.2 ⟨hsorted₁, List.pairwise_cons.2 ⟨?_, hsorted₂⟩, ?_⟩
    · exact fun b hb => .inl (hback b.1 (List.mem_map_of_mem hb))
    · intro a ha b hb
      rcases List.mem_cons.1 hb with rfl | hb
      · -- What began at the same time arrived before.
        rcases Int.lt_or_eq_of_le (hfront a.1 (List.mem_map_of_mem ha)) with hlt | heq
        · exact .inl hlt
        · exact .inr ⟨heq, h.earlier a (List.mem_append_left _ ha)⟩
      · exact hacross a ha b hb
  · intro a ha
    rcases List.mem_append.1 ha with ha | ha
    · exact Nat.lt_succ_of_lt (h.earlier a (List.mem_append_left _ ha))
    · rcases List.mem_cons.1 ha with rfl | ha
      · exact Nat.lt_succ_self n
      · exact Nat.lt_succ_of_lt (h.earlier a (List.mem_append_right _ ha))

end Numbered

/-- Groups of numbered elements: none is empty, and each is in order. -/
def Groups {τ : Type} [Element τ] (groups : List (List (τ × Nat))) : Prop :=
  ∀ g ∈ groups, g ≠ [] ∧ g.Pairwise Precedes

/-! ## Calls on the reference -/

namespace Reference

variable {π τ ο : Type} [Element τ] [Policy π τ ο] [ListPolicy π τ ο]

/-- The number of the next input behind a call. -/
def countOn (n : Nat) (c : Call τ) : Nat := n + c.input?.toList.length

/-- What a call gives out and what it leaves in the window is drawn from what was there and the
    input, each number once. -/
structure Deals (n : Nat) (held : List (τ × Nat)) (r : Reference π τ) (c : Call τ)
    (next : List (τ × Nat)) (groups : List (List (τ × Nat))) : Prop where
  holds : Holds (countOn n c) (r.call c).next.residents next
  ordered : Groups groups
  emitted : (r.call c).emitted.toList = groups.map (List.map Prod.fst)
  drawn : (groups.flatten ++ next).Subperm (held ++ c.input?.toList.map (·, n))

variable {n : Nat} {held : List (τ × Nat)} {r : Reference π τ}

theorem Deals.of_quiet {c : Call τ} {t : Reference π τ} (hcall : r.call c = { next := t })
    {next : List (τ × Nat)} (hnext : Holds (countOn n c) t.residents next)
    (hdrawn : next.Subperm (held ++ c.input?.toList.map (·, n))) : Deals n held r c next [] := by
  refine ⟨?_, by simp [Groups], ?_, hdrawn⟩
  · rw [hcall]
    exact hnext
  · rw [hcall]
    rfl

/-- A trigger: what fired is given out as a whole, or dropped as a whole. -/
theorem Deals.of_fire {c : Call τ} {t : Reference π τ} {fired : Fired} {xs : List τ}
    (hcall : r.call c = t.fire fired xs) {group next : List (τ × Nat)} {k : Nat}
    (hgroup : Holds k t.residents group) (hfull : t.residents ≠ [])
    (hnext : Holds (countOn n c) xs next)
    (hdrawn : (group ++ next).Subperm (held ++ c.input?.toList.map (·, n))) :
    ∃ groups, Deals n held r c next groups := by
  obtain ⟨hemitted, -, hresidents⟩ := fire_cases t fired xs
  rw [← hcall] at hemitted hresidents
  have hholds : Holds (countOn n c) (r.call c).next.residents next := hresidents ▸ hnext
  rcases hemitted with hnone | hsome
  · refine ⟨[], hholds, by simp [Groups], by rw [hnone]; rfl, ?_⟩
    exact (List.sublist_append_right group next).subperm.trans hdrawn
  · refine ⟨[group], hholds, ?_, ?_, ?_⟩
    · intro g hg
      obtain rfl := List.mem_singleton.1 hg
      refine ⟨?_, hgroup.sorted⟩
      rintro rfl
      exact hfull hgroup.elements
    · rw [hsome, hgroup.elements]
      rfl
    · rwa [List.flatten_singleton]

theorem deals_call (hlate : Element.inOrder τ = false) (hheld : Holds n r.residents held)
    (c : Call τ) : ∃ next groups, Deals n held r c next groups := by
  cases c with
  | flush =>
    by_cases hresidents : r.residents = []
    · have hnil : held = [] := List.map_eq_nil_iff.1 (hheld.elements.symm.trans hresidents)
      exact ⟨held, [], .of_quiet (c := .flush) (flush_idle hresidents) hheld
        (List.sublist_append_left _ _).subperm⟩
    · cases hfires : ListPolicy.firesAtEnd r.policy r.residents with
      | some fired =>
        exact ⟨[], Deals.of_fire (c := .flush) (flush_fired hresidents hfires) hheld hresidents
          (holds_nil _) (.refl _)⟩
      | none =>
        exact ⟨[], [], .of_quiet (c := .flush) (flush_left hresidents hfires) (holds_nil _)
          (List.nil_subperm)⟩
  | process x =>
    have hinput : [(x, n)].Subperm (held ++ [(x, n)]) := (List.sublist_append_right _ _).subperm
    cases r.branches x with
    | seeded _ _ hprocess =>
      exact ⟨[(x, n)], [], .of_quiet (c := .process x) hprocess (holds_one n x) hinput⟩
    | passed _ _ hprocess =>
      refine ⟨[], Deals.of_fire (c := .process x) hprocess (holds_one n x) (by simp)
        (holds_nil _) ?_⟩
      rwa [List.append_nil]
    | admitted _ _ hprocess =>
      obtain ⟨next, hperm, hnext⟩ := hheld.insert hlate x
      exact ⟨next, [], .of_quiet (c := .process x) hprocess hnext hperm.subperm⟩
    | fired hfull _ hprocess =>
      exact ⟨[(x, n)], Deals.of_fire (t := r.heard) (c := .process x) hprocess hheld hfull
        (holds_one n x) (.refl _)⟩
    | slid _ _ hprocess =>
      -- What slides out is not given out.
      obtain ⟨kept, hkept, hyoung⟩ := hheld.dropWhile
        fun e => decide (r.windowLength ≤ Window.began x - Window.began e)
      obtain ⟨next, hperm, hnext⟩ := hyoung.insert hlate x
      exact ⟨next, [], .of_quiet (c := .process x) hprocess hnext
        (hperm.subperm.trans (hkept.append_right _).subperm)⟩

/-- What some calls emit is dealt out of what the window holds and of the inputs. -/
theorem deals_run (hlate : Element.inOrder τ = false) (hheld : Holds n r.residents held)
    (cs : List (Call τ)) : ∃ groups : List (List (τ × Nat)), Groups groups ∧
      r.emissions cs = groups.map (List.map Prod.fst) ∧
      groups.flatten.Subperm (held ++ (Call.inputs cs).zipIdx n) := by
  induction cs generalizing n held r with
  | nil => exact ⟨[], by simp [Groups], rfl, List.nil_subperm⟩
  | cons c cs ih =>
    obtain ⟨next, groups, hdeals⟩ := deals_call hlate hheld c
    obtain ⟨later, hlater, hemitted, hdrawn⟩ := ih hdeals.holds
    refine ⟨groups ++ later, ?_, ?_, ?_⟩
    · exact fun g hg => (List.mem_append.1 hg).elim (hdeals.ordered g) (hlater g)
    · rw [emissions_cons, hdeals.emitted, hemitted, List.map_append]
    · have hnumbers : (Call.inputs (c :: cs)).zipIdx n =
          c.input?.toList.map (·, n) ++ (Call.inputs cs).zipIdx (countOn n c) := by
        cases c <;> rfl
      -- What later calls give out comes from what this one leaves and from later inputs.
      have hrest : (groups.flatten ++ later.flatten).Subperm
          (groups.flatten ++ (next ++ (Call.inputs cs).zipIdx (countOn n c))) :=
        (List.subperm_append_left _).2 hdrawn
      have hall : (groups.flatten ++ next ++ (Call.inputs cs).zipIdx (countOn n c)).Subperm
          (held ++ c.input?.toList.map (·, n) ++ (Call.inputs cs).zipIdx (countOn n c)) :=
        (List.subperm_append_right _).2 hdeals.drawn
      rw [List.flatten_append, hnumbers, ← List.append_assoc]
      rw [← List.append_assoc] at hrest
      exact hrest.trans hall

end Reference

/-! ## Candidates -/

/-- The fields of a candidate that groups activities. -/
structure Candidate.Describes (c : Candidate) : Prop where
  /-- There are activities. -/
  nonempty : c.inputs ≠ []
  /-- It is filed under the smallest of their start times. -/
  timeCandidate_mem : ∃ a ∈ c.inputs, a.timeStart = c.timeCandidate
  timeCandidate_le : ∀ a ∈ c.inputs, c.timeCandidate ≤ a.timeStart
  /-- Its regions are the detector elements of the activities, each once, in ascending order. -/
  regions : ∀ d, d ∈ c.regions ↔ ∃ a ∈ c.inputs, a.detid = d
  regions_sorted : c.regions.Pairwise (· < ·)
  /-- It is filed under the detector element of the last of them. -/
  detid : ∀ last ∈ c.inputs.getLast?, c.detid = last.detid

theorem Grouping.describes_of_record {g : Grouping} {as : List Activity} {c : Candidate}
    (h : g.record? as = some c) (hchron : Window.Chronological as) : c.Describes := by
  cases as with
  | nil => cases h
  | cons first rest =>
    obtain ⟨lastEnd, -, h⟩ := Option.bind_eq_some_iff.1 h
    obtain ⟨timeStart, -, h⟩ := Option.bind_eq_some_iff.1 h
    obtain ⟨timeEnd, -, h⟩ := Option.bind_eq_some_iff.1 h
    obtain rfl := Option.some.inj h
    refine ⟨List.cons_ne_nil first rest, ⟨first, List.mem_cons_self, rfl⟩, ?_, ?_,
      sorted_regionsOf _, ?_⟩
    · intro a ha
      exact Int64.le_iff_toInt_le.2 (hchron.head_le a ha)
    · intro d
      rw [mem_regionsOf, List.mem_map]
    · intro last hlast
      have hlast' : (first :: rest).getLast? = some last := hlast
      rw [getLast?_cons_eq_getLastD] at hlast'
      exact congrArg Activity.detid (Option.some.inj hlast')

/-- What the candidates of a grouping are made of, for activities in any order of time. -/
structure GroupsOccurrences (g : Grouping) : Prop where
  /-- Calls go through exactly if every exact number fits its word. -/
  goesThrough : ∀ cs,
    (∃ steps : List (Step (Windowed Grouping Activity) Candidate),
      Maker.run { policy := g } cs = .ok steps) ↔
      ({ policy := g } : Reference Grouping Activity).FitsAll cs
  /-- With the activities numbered in the order of arrival, the candidates are groups of them:
      every number is in one group at most, and in each group the activities stand in the order
      of their start times, those that begin at once in the order of arrival. -/
  groups : ∀ cs (steps : List (Step (Windowed Grouping Activity) Candidate)),
    Maker.run { policy := g } cs = .ok steps →
    ∃ groups : List (List (Activity × Nat)),
      (Maker.outputs steps).map (·.inputs) = groups.map (List.map Prod.fst) ∧
      groups.flatten.Subperm (Call.inputs cs).zipIdx ∧ Groups groups
  /-- The fields of a candidate are read off its activities. -/
  describes : ∀ cs (steps : List (Step (Windowed Grouping Activity) Candidate)),
    Maker.run { policy := g } cs = .ok steps → ∀ c ∈ Maker.outputs steps, c.Describes

/-- With settings in range, and for activities in any order of time, no activity is in two
    candidates, and the activities of each candidate stand in order. -/
theorem candidates_group_occurrences (s : Settings) (hs : s.validate = .ok ()) :
    GroupsOccurrences { settings := s } := by
  have hvalid := Windowed.valid_fresh (τ := Activity) (p := ({ settings := s } : Grouping)) hs
  have hgroups : ∀ cs (steps : List (Step (Windowed Grouping Activity) Candidate)),
      Maker.run { policy := { settings := s } } cs = .ok steps →
      ∃ groups : List (List (Activity × Nat)),
        (Maker.outputs steps).map (·.inputs) = groups.map (List.map Prod.fst) ∧
        groups.flatten.Subperm (Call.inputs cs).zipIdx ∧ Groups groups := by
    intro cs steps hrun
    obtain ⟨groups, hordered, hemitted, hdrawn⟩ :=
      Reference.deals_run (r := ({ policy := { settings := s } } : Reference Grouping Activity))
        rfl (holds_nil 0) cs
    exact ⟨groups, (hvalid.reference_run hrun).2.trans hemitted, hdrawn, hordered⟩
  have hrefines := refines_of_validate (τ := Activity) (p := ({ settings := s } : Grouping)) hs
  refine ⟨hrefines.goesThrough, hgroups, ?_⟩
  intro cs steps hrun c hc
  obtain ⟨groups, hinputs, -, hordered⟩ := hgroups cs steps hrun
  have hmem : c.inputs ∈ groups.map (List.map Prod.fst) := hinputs ▸ List.mem_map_of_mem hc
  obtain ⟨group, hgroup, hfst⟩ := List.mem_map.1 hmem
  refine Grouping.describes_of_record (hvalid.record_of_run hrun c hc) ?_
  show Window.Chronological c.inputs
  rw [← hfst]
  exact chronological_of_precedes (hordered group hgroup).2

/-- Two late activities that begin at once stand in front of an earlier arrival, in the order in
    which they arrived. -/
theorem late_activities_stand_in_front :
    (Settings.withAdcTrigger .forCandidates 1000).validate = .ok () ∧
      ∃ steps : List (Step (Windowed Grouping Activity) Candidate),
        Maker.run { policy := { settings := .withAdcTrigger .forCandidates 1000 } }
            [.process { timeStart := 100, adcIntegral := 600, detid := 1 },
              .process { timeStart := 0, adcIntegral := 600, detid := 3 },
              .process { timeStart := 0, adcIntegral := 600, detid := 2 }, .flush] = .ok steps ∧
          (Maker.outputs steps).map (·.inputs.map (·.detid)) = [[3, 2, 1]] ∧
          (Maker.outputs steps).map (·.regions) = [[1, 2, 3]] ∧
          ∀ c ∈ Maker.outputs steps, c.Describes := by
  have hvalid : (Settings.withAdcTrigger .forCandidates 1000).validate = .ok () :=
    Settings.validate_eq_ok_iff.2 (by decide)
  have hgroups : (Maker.run (ο := Candidate)
      ({ policy := { settings := .withAdcTrigger .forCandidates 1000 } } :
        Windowed Grouping Activity)
      [.process { timeStart := 100, adcIntegral := 600, detid := 1 },
        .process { timeStart := 0, adcIntegral := 600, detid := 3 },
        .process { timeStart := 0, adcIntegral := 600, detid := 2 }, .flush]).toOption.map
      (fun steps => ((Maker.outputs steps).map (·.inputs.map (·.detid)),
        (Maker.outputs steps).map (·.regions))) = some ([[3, 2, 1]], [[1, 2, 3]]) := by
    decide +kernel
  obtain ⟨steps, hrun, hseen⟩ := Checked.toOption_map_eq_some_iff.1 hgroups
  obtain ⟨hinputs, hregions⟩ := Prod.mk.inj hseen
  exact ⟨hvalid, steps, hrun, hinputs, hregions,
    (candidates_group_occurrences _ hvalid).describes _ steps hrun⟩

end TriggerChain
