import TriggerChain.Proofs.Command.Actions
import TriggerChain.Proofs.Command.Desk

/-!
# Tables on a desk

Of the desk behind an action two things are told: which files the action may have touched, by their
names, and what some tables hold. A table holds what was written into it last. So a loop leaves the
tables of one of its rounds as they are if no later round touches files of the same names.

Main statements: `wrote_of_writeTables`, and `kept_of_mapM` for loops.
-/

namespace TriggerChain.Command

/-! ## What an action touches -/

/-- No folder comes or goes, and no file changes but those that have one of some names. -/
structure Touches (names : List String) (d d' : Desk) : Prop extends Desk.SameFolders d d' where
  contents : ∀ path, String.ofList (lastPart path) ∉ names → d'.contents? path = d.contents? path

theorem Touches.refl (d : Desk) : Touches [] d d := ⟨.refl d, fun _ _ => rfl⟩

theorem Touches.mono {names others : List String} {d d' : Desk} (h : Touches names d d')
    (hsub : names ⊆ others) : Touches others d d' :=
  ⟨h.toSameFolders, fun path hpath => h.contents path fun hmem => hpath (hsub hmem)⟩

theorem Touches.trans {names others : List String} {d d₁ d' : Desk} (h : Touches names d d₁)
    (h' : Touches others d₁ d') : Touches (names ++ others) d d' := by
  refine ⟨h.toSameFolders.trans h'.toSameFolders, fun path hpath => ?_⟩
  obtain ⟨hnames, hothers⟩ := not_or.1 (mt List.mem_append.2 hpath)
  exact (h'.contents path hothers).trans (h.contents path hnames)

/-- Two actions that touch files of the same names. -/
theorem Touches.again {names : List String} {d d₁ d' : Desk} (h : Touches names d d₁)
    (h' : Touches names d₁ d') : Touches names d d' :=
  (h.trans h').mono (List.append_subset.2 ⟨List.Subset.refl _, List.Subset.refl _⟩)

/-- No folder comes or goes, and no file changes. -/
structure Quiet (d d' : Desk) : Prop extends Desk.SameFolders d d' where
  files : d'.files = d.files

theorem Quiet.touches {d d' : Desk} (h : Quiet d d') : Touches [] d d' :=
  ⟨h.toSameFolders, fun path _ => Desk.contents?_congr h.toSameFolders h.files path⟩

theorem Quiet.refl (d : Desk) : Quiet d d := ⟨.refl d, rfl⟩

theorem Quiet.trans {d d₁ d' : Desk} (h : Quiet d d₁) (h' : Quiet d₁ d') : Quiet d d' :=
  ⟨h.toSameFolders.trans h'.toSameFolders, h'.files.trans h.files⟩

/-! ## What tables hold -/

/-- The tables with the names that are given stand in a folder, and hold the texts that are
    given. -/
def Written (folder : String) (tables : List (String × String)) (d : Desk) : Prop :=
  ∀ table ∈ tables, d.contents? (inFolder folder table.1) = some table.2.toUTF8.toList

/-- The names of tables. -/
def namesOf (tables : List (String × String)) : List String := tables.map Prod.fst

theorem mem_namesOf {tables : List (String × String)} {table : String × String}
    (h : table ∈ tables) : table.1 ∈ namesOf tables := List.mem_map_of_mem h

/-- Tables are left as they are if none of their names is touched. -/
theorem Written.of_touches {folder : String} {tables : List (String × String)}
    {others : List String} {d d' : Desk} (h : Written folder tables d) (ht : Touches others d d')
    (hnames : ∀ table ∈ tables, IsTableName table.1.toList)
    (hothers : ∀ name ∈ namesOf tables, name ∉ others) : Written folder tables d' := by
  intro table htable
  rw [ht.contents]
  · exact h table htable
  · rw [lastPart_inFolder folder (hnames table htable).noSlash, String.ofList_toList]
    exact hothers _ (mem_namesOf htable)

/-- A table that is written. -/
theorem wrote_of_table {folder name text : String} (hname : IsTableName name.toList) {d d' : Desk}
    {failure : Failure}
    (h : Does (do
      if !(← (Host.writeFile (inFolder folder name) text : StateM Desk Bool)) then
        throw failure : Action (StateM Desk) Unit) d () d') :
    Touches [name] d d' ∧ d'.contents? (inFolder folder name) = some text.toUTF8.toList := by
  have hlast := lastPart_inFolder folder hname.noSlash
  obtain ⟨written, d₁, hwrite, h⟩ := does_bind_iff.1 h
  rw [does_host_iff] at hwrite
  change d.settle (d.writeFile (inFolder folder name) text) = (written, d₁) at hwrite
  cases hfile : d.writeFile (inFolder folder name) text with
  | none =>
    rw [hfile] at hwrite
    obtain ⟨rfl, -⟩ := Prod.mk.inj hwrite
    exact absurd h not_does_throw
  | some next =>
    rw [hfile] at hwrite
    obtain ⟨rfl, rfl⟩ := Prod.mk.inj hwrite
    obtain ⟨-, rfl⟩ := does_pure_iff.1 h
    obtain ⟨hsame, hcontents, hothers⟩ :=
      Desk.wrote_of_writeFile (hlast.symm ▸ hname) hfile
    refine ⟨⟨hsame, fun path hpath => hothers path fun hpart => hpath ?_⟩, hcontents⟩
    rw [hpart, hlast, String.ofList_toList]
    exact List.mem_singleton_self name

/-- Tables that are written are there, if no two have the same name. -/
theorem wrote_of_writeTables {folder : String} {tables : List (String × String)} {d d' : Desk}
    (hnames : ∀ table ∈ tables, IsTableName table.1.toList) (hnodup : (namesOf tables).Nodup)
    (h : Does (writeTables folder tables) d () d') :
    Touches (namesOf tables) d d' ∧ Written folder tables d' := by
  induction tables generalizing d with
  | nil =>
    obtain ⟨-, rfl⟩ := does_pure_iff.1 h
    exact ⟨.refl d, fun _ hmem => absurd hmem List.not_mem_nil⟩
  | cons table tables ih =>
    obtain ⟨_, d₁, hfirst, hrest⟩ := does_bind_iff.1 h
    obtain ⟨hname, hnames⟩ := List.forall_mem_cons.1 hnames
    obtain ⟨hfresh, hnodup⟩ := List.nodup_cons.1 hnodup
    obtain ⟨htouches, hcontents⟩ := wrote_of_table hname hfirst
    obtain ⟨htouches', hwritten⟩ := ih hnames hnodup hrest
    refine ⟨htouches.trans htouches', List.forall_mem_cons.2 ⟨?_, hwritten⟩⟩
    -- The tables that follow have other names.
    rw [htouches'.contents]
    · exact hcontents
    · rwa [lastPart_inFolder folder hname.noSlash, String.ofList_toList]

/-! ## Loops -/

section Loops

variable {α β : Type} {f : α → Action (StateM Desk) β} {xs : List α} {ys : List β} {d d' : Desk}

/-- What a loop preserves, and what holds of each of its rounds. -/
theorem rounds_of_mapM {I : Desk → Prop} {R : α → β → Prop}
    (hstep : ∀ x ∈ xs, ∀ y d d', I d → Does (f x) d y d' → I d' ∧ R x y) (hd : I d)
    (h : Does (xs.mapM f) d ys d') :
    I d' ∧ ∀ (i : Nat) x, xs[i]? = some x → ∃ y, ys[i]? = some y ∧ R x y := by
  induction xs generalizing d ys with
  | nil =>
    obtain ⟨rfl, rfl⟩ := does_pure_iff.1 h
    exact ⟨hd, fun i x hx => by cases hx⟩
  | cons x xs ih =>
    obtain ⟨y, rest, d₁, hx, hxs, rfl⟩ := does_mapM_cons_iff.1 h
    obtain ⟨hd₁, hxy⟩ := hstep x List.mem_cons_self y d d₁ hd hx
    obtain ⟨hd', hrest⟩ := ih (fun x' hx' => hstep x' (List.mem_cons_of_mem x hx')) hd₁ hxs
    refine ⟨hd', fun i x₁ hx₁ => ?_⟩
    cases i with
    | zero =>
      obtain rfl := Option.some.inj hx₁
      exact ⟨y, rfl, hxy⟩
    | succ i => exact hrest i x₁ hx₁

/-- What a round of a loop leaves is left by the loop, if no later round touches files of the same
    names. -/
theorem kept_of_mapM {N : α → List String} {K : α → β → Desk → Prop}
    (hkeep : ∀ x ∈ xs, ∀ y others d d', Touches others d d' → (∀ n ∈ N x, n ∉ others) →
      K x y d → K x y d')
    (hstep : ∀ x ∈ xs, ∀ y d d', Does (f x) d y d' → Touches (N x) d d' ∧ K x y d')
    (h : Does (xs.mapM f) d ys d') :
    Touches (xs.flatMap N) d d' ∧ ∀ (i : Nat) x y, xs[i]? = some x → ys[i]? = some y →
      (∀ (k : Nat) x', i < k → xs[k]? = some x' → ∀ n ∈ N x, n ∉ N x') → K x y d' := by
  induction xs generalizing d ys with
  | nil =>
    obtain ⟨rfl, rfl⟩ := does_pure_iff.1 h
    exact ⟨.refl d, fun i x y hx => by cases hx⟩
  | cons x xs ih =>
    obtain ⟨y, rest, d₁, hx, hxs, rfl⟩ := does_mapM_cons_iff.1 h
    obtain ⟨htouches, hy⟩ := hstep x List.mem_cons_self y d d₁ hx
    obtain ⟨htouches', hkept⟩ := ih (fun x' hx' => hkeep x' (List.mem_cons_of_mem x hx'))
      (fun x' hx' => hstep x' (List.mem_cons_of_mem x hx')) hxs
    refine ⟨htouches.trans htouches', ?_⟩
    intro i x₁ y₁ hx₁ hy₁ hlater
    cases i with
    | zero =>
      obtain rfl := Option.some.inj hx₁
      obtain rfl := Option.some.inj hy₁
      refine hkeep x List.mem_cons_self y _ d₁ d' htouches' ?_ hy
      intro n hn hmem
      obtain ⟨x', hx', hn'⟩ := List.mem_flatMap.1 hmem
      obtain ⟨k, hk⟩ := List.mem_iff_getElem?.1 hx'
      exact hlater (k + 1) x' (Nat.succ_pos k) hk n hn hn'
    | succ i =>
      apply hkept i x₁ y₁ hx₁ hy₁
      intro k x' hik hk
      exact hlater (k + 1) x' (Nat.succ_lt_succ hik) hk

/-- A loop is quiet if its rounds are. -/
theorem quiet_of_forM {g : α → Action (StateM Desk) Unit}
    (hstep : ∀ x d d', Does (g x) d () d' → Quiet d d') (h : Does (xs.forM g) d () d') :
    Quiet d d' :=
  (rounds_of_mapM (I := fun d' => Quiet d d') (R := fun _ _ => True)
    (fun x _ _ d₁ d₂ hquiet hx => ⟨hquiet.trans (hstep x d₁ d₂ hx), trivial⟩) (.refl d)
    (does_mapM_of_forM h)).1

end Loops

end TriggerChain.Command
