import TriggerChain.Command.Run
import Mathlib.Data.List.Basic

/-!
# Actions on a desk

An action may fail. One that goes through leads from one desk to another, and its steps go through
one after the other.

Main statement: `does_bind_iff`, and a lemma for each kind of step.
-/

namespace TriggerChain.Command

variable {α β : Type}

/-! ## Actions that go through -/

/-- An action goes through on the desk `d`, gives `a` and leaves `d'`. -/
def Does (x : Action (StateM Desk) α) (d : Desk) (a : α) (d' : Desk) : Prop :=
  x.run d = (.ok a, d')

/-- An action fails on the desk `d` and leaves `d'`. -/
def Fails (x : Action (StateM Desk) α) (d : Desk) (failure : Failure) (d' : Desk) : Prop :=
  x.run d = (.error failure, d')

theorem run_bind (x : Action (StateM Desk) α) (f : α → Action (StateM Desk) β) (d : Desk) :
    (x >>= f).run d =
      match x.run d with
      | (.ok a, d₁) => (f a).run d₁
      | (.error failure, d₁) => (.error failure, d₁) := by
  change (ExceptT.bindCont f (x.run d).1) (x.run d).2 = _
  rcases x.run d with ⟨failure | a, d₁⟩
  · rfl
  · rfl

/-- Where a first action and what follows on it end: the first one fails, or the second one goes on
    with what the first one gives. -/
theorem run_bind_cases {x : Action (StateM Desk) α} {f : α → Action (StateM Desk) β} {d d' : Desk}
    {result : Except Failure β} (h : (x >>= f).run d = (result, d')) :
    (∃ failure, result = .error failure ∧ Fails x d failure d') ∨
      ∃ a d₁, Does x d a d₁ ∧ (f a).run d₁ = (result, d') := by
  rw [run_bind] at h
  rcases hx : x.run d with ⟨failure | a, d₁⟩
  · rw [hx] at h
    obtain ⟨rfl, rfl⟩ := Prod.mk.inj h
    exact .inl ⟨failure, rfl, hx⟩
  · rw [hx] at h
    exact .inr ⟨a, d₁, hx, h⟩

theorem does_bind_iff {x : Action (StateM Desk) α} {f : α → Action (StateM Desk) β} {d d' : Desk}
    {b : β} : Does (x >>= f) d b d' ↔ ∃ a d₁, Does x d a d₁ ∧ Does (f a) d₁ b d' := by
  constructor
  · intro h
    rcases run_bind_cases h with ⟨failure, herror, -⟩ | h
    · cases herror
    · exact h
  · rintro ⟨a, d₁, h, hf⟩
    unfold Does at h ⊢
    rw [run_bind, h]
    exact hf

theorem does_pure_iff {a b : α} {d d' : Desk} :
    Does (pure a : Action (StateM Desk) α) d b d' ↔ a = b ∧ d = d' := by
  constructor
  · intro h
    obtain ⟨hok, hdesk⟩ := Prod.mk.inj h
    exact ⟨Except.ok.inj hok, hdesk⟩
  · rintro ⟨rfl, rfl⟩
    rfl

theorem run_host (x : StateM Desk α) (d : Desk) :
    (liftM x : Action (StateM Desk) α).run d = (.ok (x d).1, (x d).2) := rfl

theorem run_checked (x : Except Failure α) (d : Desk) :
    (liftM x : Action (StateM Desk) α).run d = (x, d) := rfl

/-- What the host does always goes through. -/
theorem does_host_iff {x : StateM Desk α} {a : α} {d d' : Desk} :
    Does (liftM x : Action (StateM Desk) α) d a d' ↔ x d = (a, d') := by
  unfold Does
  rw [run_host]
  rcases x d with ⟨b, d₁⟩
  constructor
  · intro h
    obtain ⟨hok, hdesk⟩ := Prod.mk.inj h
    exact Prod.ext (Except.ok.inj hok) hdesk
  · intro h
    obtain ⟨rfl, rfl⟩ := Prod.mk.inj h
    rfl

/-- What is checked changes nothing. -/
theorem does_checked_iff {x : Except Failure α} {a : α} {d d' : Desk} :
    Does (liftM x : Action (StateM Desk) α) d a d' ↔ x = .ok a ∧ d = d' := by
  constructor
  · intro h
    exact Prod.mk.inj h
  · rintro ⟨rfl, rfl⟩
    rfl

/-- What the host does never fails. -/
theorem not_fails_host {x : StateM Desk α} {failure : Failure} {d d' : Desk} :
    ¬ Fails (liftM x : Action (StateM Desk) α) d failure d' := by
  intro h
  cases congrArg Prod.fst h

theorem not_fails_pure {a : α} {failure : Failure} {d d' : Desk} :
    ¬ Fails (pure a : Action (StateM Desk) α) d failure d' := by
  intro h
  cases congrArg Prod.fst h

theorem not_does_throw {failure : Failure} {a : α} {d d' : Desk} :
    ¬ Does (throw failure : Action (StateM Desk) α) d a d' := by
  intro h
  cases congrArg Prod.fst h

/-- What an action comes to that has a remedy for its failures. -/
theorem does_tryCatch {x : Action (StateM Desk) α} {remedy : Failure → Action (StateM Desk) α}
    {a : α} {d d' : Desk} (h : Does (tryCatch x remedy) d a d') :
    Does x d a d' ∨ ∃ failure d₁, Does (remedy failure) d₁ a d' := by
  have hrun : (tryCatch x remedy).run d =
      match x.run d with
      | (.ok a, d₁) => (.ok a, d₁)
      | (.error failure, d₁) => (remedy failure).run d₁ := by
    simp only [ExceptT.run, tryCatch, tryCatchThe, MonadExceptOf.tryCatch, ExceptT.tryCatch,
      ExceptT.mk, bind, StateT.bind]
    rcases x d with ⟨failure | a, d₁⟩
    · rfl
    · rfl
  unfold Does at h ⊢
  rw [hrun] at h
  rcases hx : x.run d with ⟨failure | a', d₁⟩
  · rw [hx] at h
    exact .inr ⟨failure, d₁, h⟩
  · rw [hx] at h
    exact .inl h

theorem does_mapM_cons_iff {f : α → Action (StateM Desk) β} {x : α} {xs : List α} {ys : List β}
    {d d' : Desk} :
    Does ((x :: xs).mapM f) d ys d' ↔
      ∃ y rest d₁, Does (f x) d y d₁ ∧ Does (xs.mapM f) d₁ rest d' ∧ ys = y :: rest := by
  rw [List.mapM_cons]
  simp only [does_bind_iff, does_pure_iff]
  constructor
  · rintro ⟨y, d₁, hy, rest, d₂, hrest, rfl, rfl⟩
    exact ⟨y, rest, d₁, hy, hrest, rfl⟩
  · rintro ⟨y, rest, d₁, hy, hrest, rfl⟩
    exact ⟨y, d₁, hy, rest, d', hrest, rfl, rfl⟩

/-- A loop over what leaves the desk as it is. -/
theorem run_mapM {f : α → Action (StateM Desk) β} {g : α → Except Failure β} {d : Desk}
    (h : ∀ x, (f x).run d = (g x, d)) (xs : List α) : (xs.mapM f).run d = (xs.mapM g, d) := by
  induction xs with
  | nil => rfl
  | cons x xs ih =>
    rw [List.mapM_cons, List.mapM_cons, run_bind, h]
    cases g x with
    | error failure => rfl
    | ok y =>
      dsimp only
      rw [run_bind, ih]
      cases xs.mapM g with
      | error failure => rfl
      | ok ys => rfl

/-- A loop over what never fails never fails. -/
theorem not_fails_forM {f : α → Action (StateM Desk) Unit}
    (h : ∀ x d failure d', ¬ Fails (f x) d failure d') {xs : List α} {d d' : Desk}
    {failure : Failure} : ¬ Fails (xs.forM f) d failure d' := by
  induction xs generalizing d with
  | nil => exact not_fails_pure
  | cons x xs ih =>
    intro hfails
    rcases run_bind_cases hfails with ⟨_, -, hx⟩ | ⟨_, d₁, -, hxs⟩
    · exact h x _ _ _ hx
    · exact ih hxs

/-- A loop that gives nothing is one that gives nothing for each of its elements. -/
theorem does_mapM_of_forM {f : α → Action (StateM Desk) Unit} {xs : List α} {d d' : Desk}
    (h : Does (xs.forM f) d () d') : Does (xs.mapM f) d (xs.map fun _ => ()) d' := by
  induction xs generalizing d with
  | nil =>
    obtain ⟨-, rfl⟩ := does_pure_iff.1 h
    exact does_pure_iff.2 ⟨rfl, rfl⟩
  | cons x xs ih =>
    obtain ⟨_, d₁, hx, hxs⟩ := does_bind_iff.1 h
    exact does_mapM_cons_iff.2 ⟨(), _, d₁, hx, ih hxs, rfl⟩

end TriggerChain.Command
