import TriggerChain.Proofs.Maker.Partition

/-!
# What is in the window was handed over

A call takes the elements of the window and its input, keeps some of them, and may emit some. In
whatever order the inputs arrive nothing else ever comes to stand in the window, and nothing is
there more often than it was handed over; if the inputs arrive in the order of time, what is
kept and what is emitted stand in the order of arrival.

So the numbers of a whole run fit, if the aggregates of all that is handed over do and every
record that could be made of some of it fits.

Main statements: `draws_call` for one call, `fitsAll_of_pool` for a run.
-/

namespace TriggerChain

namespace Reference

variable {π τ ο : Type} [Element τ] [Policy π τ ο]

omit [Policy π τ ο] in
theorem insert_perm (x : τ) (xs : List τ) : (insert x xs).Perm (xs ++ [x]) := by
  have hone : (x :: xs).Perm (xs ++ [x]) := (List.perm_append_singleton x xs).symm
  unfold insert
  split
  · exact .refl _
  · -- Whatever the place is, the other elements stay in front of it and behind it.
    have hsplit : ∀ p : τ → Bool, xs.rdropWhile p ++ xs.rtakeWhile p = xs := by
      intro p
      rw [List.rdropWhile, List.rtakeWhile, ← List.reverse_append,
        List.takeWhile_append_dropWhile, List.reverse_reverse]
    refine List.perm_middle.trans ?_
    rw [hsplit]
    exact hone

theorem insert_eq_append {x : τ} {xs : List τ} (h : Window.Chronological (xs ++ [x])) :
    insert x xs = xs ++ [x] := by
  obtain ⟨hxs, -, hlast⟩ := List.pairwise_append.1 h
  rw [insert_eq_place x fun _ => hxs]
  exact Window.place_eq_append fun e he => hlast e he x (List.mem_singleton.2 rfl)

variable [ListPolicy π τ ο]

/-- What a call leaves in the window and what it emits comes from the window and the input. -/
structure Draws (r : Reference π τ) (c : Call τ) : Prop where
  residents : ∃ kept, kept.Sublist (r.residents ++ c.input?.toList) ∧
    (r.call c).next.residents.Perm kept ∧
    (Window.Chronological (r.residents ++ c.input?.toList) → (r.call c).next.residents = kept)
  emitted : ∀ xs, (r.call c).emitted = some xs →
    xs ≠ [] ∧ xs.Sublist (r.residents ++ c.input?.toList)

theorem Draws.of_quiet {r next : Reference π τ} {c : Call τ} (hcall : r.call c = { next })
    {kept : List τ} (hkept : kept.Sublist (r.residents ++ c.input?.toList))
    (hperm : next.residents.Perm kept)
    (hchron : Window.Chronological (r.residents ++ c.input?.toList) → next.residents = kept) :
    Draws r c := by
  refine ⟨⟨kept, hkept, ?_, ?_⟩, ?_⟩
  · rw [hcall]
    exact hperm
  · rw [hcall]
    exact hchron
  · intro xs hxs
    rw [hcall] at hxs
    cases hxs

theorem Draws.of_fire {r r' : Reference π τ} {c : Call τ} {fired : Fired} {next : List τ}
    (hcall : r.call c = r'.fire fired next) (hne : r'.residents ≠ [])
    (hresidents : r'.residents.Sublist (r.residents ++ c.input?.toList))
    (hnext : next.Sublist (r.residents ++ c.input?.toList)) : Draws r c := by
  obtain ⟨hemitted, -, hkept⟩ := fire_cases r' fired next
  rw [← hcall] at hemitted hkept
  refine ⟨⟨next, hnext, ?_, fun _ => hkept⟩, ?_⟩
  · rw [hkept]
  · intro xs hxs
    rcases hemitted with hnone | hsome
    · cases hxs.symm.trans hnone
    · obtain rfl := Option.some.inj (hxs.symm.trans hsome)
      exact ⟨hne, hresidents⟩

theorem draws_call (r : Reference π τ) (c : Call τ) : Draws r c := by
  cases c with
  | flush =>
    have hall : (r.residents ++ (Call.flush : Call τ).input?.toList) = r.residents :=
      List.append_nil _
    by_cases hresidents : r.residents = []
    · refine Draws.of_quiet (c := .flush) (flush_idle hresidents) (List.sublist_append_left _ _)
        (.refl _) fun _ => rfl
    · cases hfires : ListPolicy.firesAtEnd r.policy r.residents with
      | some fired =>
        exact Draws.of_fire (c := .flush) (flush_fired hresidents hfires) hresidents
          (List.sublist_append_left _ _) (List.nil_sublist _)
      | none =>
        exact Draws.of_quiet (c := .flush) (flush_left hresidents hfires) (List.nil_sublist _)
          (.refl _) fun _ => rfl
  | process x =>
    have hinput : ([x] : List τ).Sublist (r.residents ++ (Call.process x).input?.toList) :=
      List.sublist_append_right _ _
    cases r.branches x with
    | seeded _ _ hprocess =>
      exact Draws.of_quiet (c := .process x) hprocess hinput (.refl _) fun _ => rfl
    | passed _ _ hprocess =>
      exact Draws.of_fire (c := .process x) hprocess (by simp) hinput (List.nil_sublist _)
    | admitted _ _ hprocess =>
      exact Draws.of_quiet (c := .process x) hprocess (.refl _) (insert_perm x _)
        insert_eq_append
    | fired hfull _ hprocess =>
      exact Draws.of_fire (c := .process x) hprocess hfull (List.sublist_append_left _ _) hinput
    | slid _ _ hprocess =>
      -- What slides out leaves the others in their order.
      have hyoung : (r.young x ++ [x]).Sublist (r.residents ++ [x]) :=
        (List.dropWhile_sublist _).append_right _
      exact Draws.of_quiet (c := .process x) hprocess hyoung (insert_perm x _)
        fun hchron => insert_eq_append (hchron.sublist hyoung)

/-! ## Numbers that fit -/

/-- The numbers of a run fit, if the aggregates of all that is handed over fit and so does every
    record that can be made of some of it. -/
theorem fitsAll_of_pool {pool : List τ} (haggregates : Window.AggregatesFit pool)
    {r : Reference π τ} (hrecord : ∀ xs, xs ≠ [] → xs.Subperm pool →
      ListPolicy.record? r.policy xs ≠ none) {cs : List (Call τ)}
    (hpool : (r.residents ++ Call.inputs cs).Subperm pool) : r.FitsAll cs := by
  induction cs generalizing r with
  | nil => trivial
  | cons c cs ih =>
    rw [Call.inputs_cons, ← List.append_assoc] at hpool
    have hheard : (r.residents ++ c.input?.toList).Subperm pool :=
      (List.sublist_append_left _ _).subperm.trans hpool
    obtain ⟨⟨kept, hkept, hperm, -⟩, hemitted⟩ := draws_call r c
    refine ⟨⟨?_, ?_, ?_⟩, ?_⟩
    · intro x hx
      refine haggregates.of_subperm (List.singleton_subperm_iff.2 (hheard.subset ?_))
      simp [hx]
    · exact haggregates.of_subperm ((hperm.subperm.trans hkept.subperm).trans hheard)
    · intro xs hxs
      obtain ⟨hne, hsub⟩ := hemitted xs hxs
      exact hrecord xs hne (hsub.subperm.trans hheard)
    · apply ih
      · rw [policy_call]
        exact hrecord
      · have hnext : (r.call c).next.residents.Subperm (r.residents ++ c.input?.toList) :=
          hperm.subperm.trans hkept.subperm
        exact ((List.subperm_append_right _).2 hnext).trans hpool

end Reference

end TriggerChain
