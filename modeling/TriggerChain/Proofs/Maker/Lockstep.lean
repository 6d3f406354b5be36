import TriggerChain.Proofs.Maker.Coverage

/-!
# Two references in step

Two references are handed inputs that are related one by one, and their policies decide alike on
lists that are. Then the lists in their windows stay related, whatever the calls are, and where
one triggers the other does. What becomes of a trigger is left open here: each side lets through
what its own prescale lets through.

Main statement: `Level.call`.
-/

namespace TriggerChain

/-! ## Related lists -/

section Lists

variable {α β : Type} {R : α → β → Prop} {xs : List α} {ys : List β} {p : α → Bool} {q : β → Bool}

theorem forall₂_dropWhile (hpq : ∀ a b, R a b → p a = q b) (h : List.Forall₂ R xs ys) :
    List.Forall₂ R (xs.dropWhile p) (ys.dropWhile q) := by
  induction h with
  | nil => exact .nil
  | @cons a b xs ys hab h ih =>
    rw [List.dropWhile_cons, List.dropWhile_cons, hpq a b hab]
    split
    · exact ih
    · exact .cons hab h

theorem forall₂_takeWhile (hpq : ∀ a b, R a b → p a = q b) (h : List.Forall₂ R xs ys) :
    List.Forall₂ R (xs.takeWhile p) (ys.takeWhile q) := by
  induction h with
  | nil => exact .nil
  | @cons a b xs ys hab h ih =>
    rw [List.takeWhile_cons, List.takeWhile_cons, hpq a b hab]
    split
    · exact .cons hab ih
    · exact .nil

end Lists

/-- Two calls of one kind; what they hand over is related. -/
inductive Call.Related {ι : Type} (R : ι → ι → Prop) : Call ι → Call ι → Prop
  | process {x y : ι} (h : R x y) : Related R (.process x) (.process y)
  | flush : Related R .flush .flush

/-- The counters once a call has been heard: one input more, if it hands one over. -/
def Statistics.told {ι : Type} (s : Statistics) : Call ι → Statistics
  | .process _ => s.hear
  | .flush => s

@[simp] theorem Statistics.told_fired {ι : Type} (s : Statistics) (c : Call ι) :
    (s.told c).fired = s.fired := by
  cases c <;> rfl

@[simp] theorem Statistics.told_maxAdjacency {ι : Type} (s : Statistics) (c : Call ι) :
    (s.told c).maxAdjacency = s.maxAdjacency := by
  cases c <;> rfl

theorem Statistics.told_eq {ι : Type} {R : ι → ι → Prop} {c c' : Call ι}
    (h : Call.Related R c c') (s : Statistics) : s.told c = s.told c' := by
  cases h <;> rfl

variable {π τ ο : Type} [Element τ]

/-- A relation of elements that leaves the time between two of them as it is. -/
def KeepsAges (R : τ → τ → Prop) : Prop :=
  ∀ {a a' b b'}, R a a' → R b b' →
    Window.began a - Window.began b = Window.began a' - Window.began b'

/-- Elements that are put where they belong stay related. -/
theorem Reference.forall₂_insert {R : τ → τ → Prop} (hages : KeepsAges R) {x x' : τ}
    (hx : R x x') {xs xs' : List τ} (h : List.Forall₂ R xs xs') :
    List.Forall₂ R (insert x xs) (insert x' xs') := by
  have hlater : ∀ e e', R e e' →
      decide (Window.began x < Window.began e) = decide (Window.began x' < Window.began e') := by
    intro e e' he
    have hage := hages hx he
    rw [decide_eq_decide]
    omega
  have hreverse := List.rel_reverse h
  unfold insert
  split
  · exact List.rel_append h (.cons hx .nil)
  · -- Both searches from the back stop at the same place.
    refine List.rel_append ?_ (.cons hx ?_)
    · exact List.rel_reverse (forall₂_dropWhile hlater hreverse)
    · exact List.rel_reverse (forall₂_takeWhile hlater hreverse)

variable [Policy π τ ο] [ListPolicy π τ ο]

/-- Two policies that decide alike on related lists: they trigger on the same ones, having
    measured the same adjacency. -/
structure Alike (R : τ → τ → Prop) (p p' : π) : Prop where
  ages : KeepsAges R
  windowLength : (Policy.settings p).windowLength = (Policy.settings p').windowLength
  passes : ListPolicy.passes p = ListPolicy.passes p'
  fires : ∀ {xs xs' x x'}, List.Forall₂ R xs xs' → R x x' →
    (ListPolicy.fires p xs x).map Fired.adjacency =
      (ListPolicy.fires p' xs' x').map Fired.adjacency
  firesAtEnd : ∀ {xs xs'}, List.Forall₂ R xs xs' →
    (ListPolicy.firesAtEnd p xs).map Fired.adjacency =
      (ListPolicy.firesAtEnd p' xs').map Fired.adjacency

omit [Element τ] [Policy π τ ο] [ListPolicy π τ ο] in
/-- Triggers with the same adjacency are both there, or neither is. -/
theorem fired_cases {f f' : Option Fired} (h : f.map Fired.adjacency = f'.map Fired.adjacency) :
    (f = none ∧ f' = none) ∨
      ∃ t t', f = some t ∧ f' = some t' ∧ t.adjacency = t'.adjacency := by
  cases f with
  | none => exact .inl ⟨rfl, Option.map_eq_none_iff.1 h.symm⟩
  | some t =>
    obtain ⟨t', rfl, hadjacency⟩ := Option.map_eq_some_iff.1 h.symm
    exact .inr ⟨t, t', rfl, rfl, hadjacency.symm⟩

namespace Reference

/-- Two references with related lists in their windows, and policies that decide alike. -/
structure Level (R : τ → τ → Prop) (r r' : Reference π τ) : Prop where
  policies : Alike R r.policy r'.policy
  residents : List.Forall₂ R r.residents r'.residents

variable {R : τ → τ → Prop} {r r' : Reference π τ}

theorem Level.windowLength (h : Level R r r') : r.windowLength = r'.windowLength :=
  congrArg Int64.toInt h.policies.windowLength

/-- A call on each of two references: both are quiet, or both trigger. -/
inductive InStep (R : τ → τ → Prop) (r r' : Reference π τ) (c c' : Call τ) : Prop
  | quiet {next next' : Reference π τ} (hcall : r.call c = { next })
      (hcall' : r'.call c' = { next := next' }) (hnext : Level R next next')
      (htold : next.statistics = r.statistics.told c)
      (htold' : next'.statistics = r'.statistics.told c')
  | triggered {t t' : Reference π τ} {fired fired' : Fired} {next next' : List τ}
      (hcall : r.call c = t.fire fired next) (hcall' : r'.call c' = t'.fire fired' next')
      (hlevel : Level R t t') (hnext : List.Forall₂ R next next')
      (hadjacency : fired.adjacency = fired'.adjacency)
      (hpolicy : t.policy = r.policy) (hpolicy' : t'.policy = r'.policy)
      (htold : t.statistics = r.statistics.told c)
      (htold' : t'.statistics = r'.statistics.told c')

theorem Level.process (h : Level R r r') {x x' : τ} (hx : R x x') :
    InStep R r r' (.process x) (.process x') := by
  cases hres : r.residents with
  | nil =>
    have hres' : r'.residents = [] := List.forall₂_nil_left_iff.1 (hres ▸ h.residents)
    have hone : List.Forall₂ R [x] [x'] := .cons hx .nil
    cases hpasses : ListPolicy.passes r.policy with
    | false =>
      have hpasses' : ListPolicy.passes r'.policy = false := h.policies.passes ▸ hpasses
      exact .quiet (process_seeded hres hpasses) (process_seeded hres' hpasses')
        ⟨h.policies, hone⟩ rfl rfl
    | true =>
      have hpasses' : ListPolicy.passes r'.policy = true := h.policies.passes ▸ hpasses
      exact .triggered (process_passed hres hpasses) (process_passed hres' hpasses')
        ⟨h.policies, hone⟩ .nil rfl rfl rfl rfl rfl
  | cons first rest =>
    obtain ⟨first', rest', hfirst, -, hres'⟩ :=
      List.forall₂_cons_left_iff.1 (hres ▸ h.residents)
    have hage := h.policies.ages hx hfirst
    have hlength := h.windowLength
    by_cases hfits : Window.began x - Window.began first < r.windowLength
    · have hfits' : Window.began x' - Window.began first' < r'.windowLength := by omega
      exact .quiet (process_admitted hres hfits) (process_admitted hres' hfits')
        ⟨h.policies, forall₂_insert h.policies.ages hx h.residents⟩ rfl rfl
    · have hfits' : ¬ Window.began x' - Window.began first' < r'.windowLength := by omega
      rcases fired_cases (h.policies.fires h.residents hx) with
        ⟨hquiet, hquiet'⟩ | ⟨t, t', hfires, hfires', hadjacency⟩
      · -- What is too old on one side is on the other.
        have hyoung : List.Forall₂ R (r.young x) (r'.young x') := by
          refine forall₂_dropWhile ?_ h.residents
          intro e e' he
          have hage := h.policies.ages hx he
          rw [decide_eq_decide]
          omega
        exact .quiet (process_slid hres hfits hquiet) (process_slid hres' hfits' hquiet')
          ⟨h.policies, forall₂_insert h.policies.ages hx hyoung⟩ rfl rfl
      · exact .triggered (process_fired hres hfits hfires) (process_fired hres' hfits' hfires')
          ⟨h.policies, h.residents⟩ (.cons hx .nil) hadjacency rfl rfl rfl rfl

theorem Level.flush (h : Level R r r') : InStep R r r' .flush .flush := by
  by_cases hres : r.residents = []
  · have hres' : r'.residents = [] := List.forall₂_nil_left_iff.1 (hres ▸ h.residents)
    exact .quiet (flush_idle hres) (flush_idle hres') h rfl rfl
  · have hres' : r'.residents ≠ [] :=
      fun hnil => hres (List.forall₂_nil_right_iff.1 (hnil ▸ h.residents))
    rcases fired_cases (h.policies.firesAtEnd h.residents) with
      ⟨hquiet, hquiet'⟩ | ⟨t, t', hfires, hfires', hadjacency⟩
    · exact .quiet (flush_left hres hquiet)
        (flush_left hres' hquiet') ⟨h.policies, .nil⟩ rfl rfl
    · exact .triggered (flush_fired hres hfires)
        (flush_fired hres' hfires') h .nil hadjacency rfl rfl rfl rfl

/-- Related calls on two references in step. -/
theorem Level.call (h : Level R r r') {c c' : Call τ} (hc : Call.Related R c c') :
    InStep R r r' c c' := by
  cases hc with
  | process hx => exact h.process hx
  | flush => exact h.flush

/-- After a call the two references are in step again. -/
theorem InStep.level {c c' : Call τ} (h : InStep R r r' c c') :
    Level R (r.call c).next (r'.call c').next := by
  cases h with
  | quiet hcall hcall' hnext =>
    rw [hcall, hcall']
    exact hnext
  | triggered hcall hcall' hlevel hnext =>
    rw [hcall, hcall']
    refine ⟨?_, ?_⟩
    · rw [policy_fire, policy_fire]
      exact hlevel.policies
    · rw [(fire_cases _ _ _).2.2, (fire_cases _ _ _).2.2]
      exact hnext

end Reference

end TriggerChain
