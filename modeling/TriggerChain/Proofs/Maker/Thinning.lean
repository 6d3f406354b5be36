import TriggerChain.Proofs.Maker.Lockstep
import TriggerChain.Proofs.Maker.Simultaneous

/-!
# Prescaling thins the outputs

A trigger that the prescale drops is counted, and the window starts over behind it like behind any
other. So a maker with a prescale and the same maker with prescale one keep the same windows and
count the same triggers, and of the outputs of the second one the first one has the first and then
every `prescale`-th, at the same calls.

Main statement: `prescale_only_thins_outputs`.
-/

namespace TriggerChain

/-! ## Thinned lists -/

section Thin

variable {α : Type}

/-- What is left of a list behind `n` others, if of them all the first and then every `p`-th
    stay. -/
def thin (p : Nat) : Nat → List α → List α
  | _, [] => []
  | n, x :: xs => if p ∣ n then x :: thin p (n + 1) xs else thin p (n + 1) xs

@[simp] theorem thin_nil (p n : Nat) : thin p n ([] : List α) = [] := rfl

theorem thin_append (p n : Nat) (xs ys : List α) :
    thin p n (xs ++ ys) = thin p n xs ++ thin p (n + xs.length) ys := by
  induction xs generalizing n with
  | nil => rfl
  | cons x xs ih =>
    have hlength : n + (x :: xs).length = n + 1 + xs.length := by
      rw [List.length_cons]
      omega
    rw [List.cons_append, thin, thin, ih, hlength]
    split <;> rfl

theorem thin_map {β : Type} (f : α → β) (p n : Nat) (xs : List α) :
    thin p n (xs.map f) = (thin p n xs).map f := by
  induction xs generalizing n with
  | nil => rfl
  | cons x xs ih =>
    rw [List.map_cons, thin, thin, ih]
    split <;> rfl

theorem thin_sublist (p n : Nat) (xs : List α) : (thin p n xs).Sublist xs := by
  induction xs generalizing n with
  | nil => exact .slnil
  | cons x xs ih =>
    rw [thin]
    split
    · exact (ih _).cons_cons x
    · exact (ih _).cons x

/-- Behind `n` others, what stays are the elements whose number is a multiple: if `i` is the
    position of the first one, these are at `i`, `i + p` and so on. -/
theorem getElem?_thin_of_dvd {p n i : Nat} (hi : p ∣ n + i) (hlt : i < p) (xs : List α)
    (j : Nat) : (thin p n xs)[j]? = xs[i + p * j]? := by
  induction xs generalizing n i j with
  | nil => rfl
  | cons x xs ih =>
    rw [thin]
    by_cases hdvd : p ∣ n
    · obtain rfl : i = 0 := Nat.eq_zero_of_dvd_of_lt ((Nat.dvd_add_right hdvd).1 hi) hlt
      rw [if_pos hdvd]
      cases j with
      | zero => rfl
      | succ j =>
        -- The next one to stay is `p` further on.
        have hnext : p ∣ n + 1 + (p - 1) := by
          rw [show n + 1 + (p - 1) = n + p by omega]
          exact Nat.dvd_add hdvd (Nat.dvd_refl p)
        have hpos : 0 + p * (j + 1) = (p - 1 + p * j) + 1 := by
          rw [Nat.mul_add]
          omega
        rw [List.getElem?_cons_succ, ih hnext (by omega), hpos, List.getElem?_cons_succ]
    · rw [if_neg hdvd]
      obtain ⟨i, rfl⟩ : ∃ k, i = k + 1 := by
        refine Nat.exists_eq_succ_of_ne_zero fun hzero => hdvd ?_
        rwa [hzero, Nat.add_zero] at hi
      have hnext : p ∣ n + 1 + i := by rwa [Nat.add_assoc, Nat.add_comm 1 i]
      rw [ih hnext (by omega), show i + 1 + p * j = (i + p * j) + 1 by omega,
        List.getElem?_cons_succ]

theorem getElem?_thin {p : Nat} (hp : p ≠ 0) (xs : List α) (j : Nat) :
    (thin p 0 xs)[j]? = xs[p * j]? := by
  have hfirst := getElem?_thin_of_dvd (Nat.dvd_zero p) (Nat.pos_of_ne_zero hp) xs j
  rwa [Nat.zero_add] at hfirst

end Thin

/-! ## Two prescales side by side -/

variable {π τ ο : Type} [Element τ] [Policy π τ ο] [ListPolicy π τ ο]

/-- Two policies that differ in the prescale at most; that of the second is one. -/
structure Unscaled (p p₁ : π) : Prop where
  alike : Alike Eq p p₁
  record : ∀ xs, ListPolicy.record? p xs = ListPolicy.record? p₁ xs
  prescale : (Policy.settings p₁).prescale = 1

namespace Reference

/-- Two references that differ in what became of their triggers only. -/
structure Thinned (r r₁ : Reference π τ) : Prop where
  policies : Unscaled r.policy r₁.policy
  residents : r.residents = r₁.residents
  fired : r.statistics.fired = r₁.statistics.fired
  maxAdjacency : r.statistics.maxAdjacency = r₁.statistics.maxAdjacency

variable {r r₁ : Reference π τ}

theorem Thinned.level (h : Thinned r r₁) : Level Eq r r₁ :=
  ⟨h.policies.alike, h.residents ▸ List.forall₂_refl r.residents⟩

omit [Element τ] [ListPolicy π τ ο] in
theorem emitted_fire_eq (r : Reference π τ) (fired : Fired) (next : List τ) :
    (r.fire fired next).emitted =
      if r.prescale ∣ r.statistics.fired then some r.residents else none := by
  unfold fire
  dsimp only
  split <;> rfl

omit [Element τ] [ListPolicy π τ ο] in
theorem maxAdjacency_fire (r : Reference π τ) (fired : Fired) (next : List τ) :
    (r.fire fired next).next.statistics.maxAdjacency =
      max r.statistics.maxAdjacency (fired.adjacency.getD 0) := by
  unfold fire
  dsimp only
  split <;> rfl

/-- What a call comes to on both: they stay alike, and the triggers are thinned. -/
structure ThinnedCall (r r₁ : Reference π τ) (c : Call τ) : Prop where
  next : Thinned (r.call c).next (r₁.call c).next
  emitted : (r.call c).emitted.toList =
    thin r.prescale r.statistics.fired (r₁.call c).emitted.toList
  fired : (r.call c).next.statistics.fired =
    r.statistics.fired + (r₁.call c).emitted.toList.length

theorem Thinned.call (h : Thinned r r₁) (c : Call τ) : ThinnedCall r r₁ c := by
  have hc : Call.Related Eq c c := by
    cases c with
    | process x => exact .process rfl
    | flush => exact .flush
  have hstep := h.level.call hc
  have hpolicies : Unscaled (r.call c).next.policy (r₁.call c).next.policy := by
    rw [policy_call, policy_call]
    exact h.policies
  have hresidents : (r.call c).next.residents = (r₁.call c).next.residents :=
    List.forall₂_eq_eq_eq ▸ hstep.level.residents
  cases hstep with
  | quiet hcall hcall₁ _ htold htold₁ =>
    rw [hcall, hcall₁] at hpolicies hresidents
    refine ⟨?_, ?_, ?_⟩
    · rw [hcall, hcall₁]
      refine ⟨hpolicies, hresidents, ?_, ?_⟩
      · rw [htold, htold₁, Statistics.told_fired, Statistics.told_fired, h.fired]
      · rw [htold, htold₁, Statistics.told_maxAdjacency, Statistics.told_maxAdjacency,
          h.maxAdjacency]
    · rw [hcall, hcall₁]
      rfl
    · rw [hcall, hcall₁, htold, Statistics.told_fired]
      rfl
  | @triggered t t₁ fired fired₁ next next₁ hcall hcall₁ hlevel _ hadjacency hpolicy hpolicy₁
      htold htold₁ =>
    have hprescale : t.prescale = r.prescale := by rw [prescale, prescale, hpolicy]
    have hprescale₁ : t₁.prescale = 1 := by rw [prescale, hpolicy₁, h.policies.prescale]
    have hfired : t.statistics.fired = r.statistics.fired := by rw [htold, Statistics.told_fired]
    have hfired₁ : t₁.statistics.fired = r.statistics.fired := by
      rw [htold₁, Statistics.told_fired, h.fired]
    have hmax : t.statistics.maxAdjacency = t₁.statistics.maxAdjacency := by
      rw [htold, htold₁, Statistics.told_maxAdjacency, Statistics.told_maxAdjacency,
        h.maxAdjacency]
    have hlists : t.residents = t₁.residents := List.forall₂_eq_eq_eq ▸ hlevel.residents
    -- With prescale one every trigger is let through.
    have hemitted₁ : (t₁.fire fired₁ next₁).emitted = some t.residents := by
      rw [emitted_fire_eq, hprescale₁, if_pos (Nat.one_dvd _), hlists]
    refine ⟨⟨hpolicies, hresidents, ?_, ?_⟩, ?_, ?_⟩
    · rw [hcall, hcall₁, (fire_cases _ _ _).2.1, (fire_cases _ _ _).2.1, hfired, hfired₁]
    · rw [hcall, hcall₁, maxAdjacency_fire, maxAdjacency_fire, hmax, hadjacency]
    · rw [hcall, hcall₁, hemitted₁, emitted_fire_eq, hprescale, hfired, Option.toList_some, thin,
        thin_nil]
      split <;> rfl
    · rw [hcall, hcall₁, hemitted₁, (fire_cases _ _ _).2.1, hfired]
      rfl

theorem Thinned.emissions (h : Thinned r r₁) (cs : List (Call τ)) :
    r.emissions cs = thin r.prescale r.statistics.fired (r₁.emissions cs) := by
  induction cs generalizing r r₁ with
  | nil => rfl
  | cons c cs ih =>
    obtain ⟨hnext, hemitted, hfired⟩ := h.call c
    have hprescale : (r.call c).next.prescale = r.prescale := by
      rw [prescale, prescale, policy_call]
    rw [emissions_cons, emissions_cons, thin_append, ih hnext, hemitted, hprescale, hfired]

/-- The reference with prescale one has every record to make that the other has. -/
theorem Thinned.fitsAll (h : Thinned r r₁) {cs : List (Call τ)} (hfits : r₁.FitsAll cs) :
    r.FitsAll cs := by
  induction cs generalizing r r₁ with
  | nil => trivial
  | cons c cs ih =>
    obtain ⟨hnext, hemitted, -⟩ := h.call c
    refine ⟨⟨hfits.1.input, ?_, ?_⟩, ih hnext hfits.2⟩
    · rw [hnext.residents]
      exact hfits.1.residents
    · intro xs hxs
      have hmem : xs ∈ (r₁.call c).emitted.toList := by
        refine (thin_sublist r.prescale r.statistics.fired _).subset ?_
        rw [← hemitted, hxs]
        exact List.mem_singleton.2 rfl
      rw [h.policies.record]
      exact hfits.1.record xs (Option.mem_toList.1 hmem)

end Reference

/-! ## The makers -/

namespace Windowed

variable [Cluster ο τ] [LawfulPolicy π τ ο]

/-- The outputs of a run are the records of what the reference emits. -/
theorem Valid.outputs_run {m : Windowed π τ} (hm : m.Valid) {cs : List (Call τ)}
    {steps : List (Step (Windowed π τ) ο)} (h : Maker.run m cs = .ok steps) :
    (Maker.outputs steps).map some =
      (m.forget.emissions cs).map (ListPolicy.record? m.policy) := by
  rw [← (hm.reference_run h).2, List.map_map]
  refine List.map_congr_left fun a ha => ?_
  exact (hm.record_of_run h a ha).symm

/-- The windows are the same after every call, and so are the numbers of triggers. -/
theorem Valid.thinned_run {m m₁ : Windowed π τ} (hm : m.Valid) (hm₁ : m₁.Valid)
    (h : Reference.Thinned m.forget m₁.forget) {cs : List (Call τ)}
    {steps steps₁ : List (Step (Windowed π τ) ο)} (hrun : Maker.run m cs = .ok steps)
    (hrun₁ : Maker.run m₁ cs = .ok steps₁) :
    steps.map (fun s => (s.maker.window, s.maker.statistics.fired,
        s.maker.statistics.maxAdjacency)) =
      steps₁.map fun s => (s.maker.window, s.maker.statistics.fired,
        s.maker.statistics.maxAdjacency) := by
  induction cs generalizing m m₁ steps steps₁ with
  | nil =>
    obtain rfl := Except.ok.inj hrun
    obtain rfl := Except.ok.inj hrun₁
    rfl
  | cons c cs ih =>
    obtain ⟨step, rest, hstep, hrest, rfl⟩ := Maker.run_cons_eq_ok_iff.1 hrun
    obtain ⟨step₁, rest₁, hstep₁, hrest₁, rfl⟩ := Maker.run_cons_eq_ok_iff.1 hrun₁
    have hfollows := hm.follows hstep
    have hfollows₁ := hm₁.follows hstep₁
    have hnext := (h.call c).next
    rw [hfollows.reference.next, hfollows₁.reference.next] at hnext
    -- Consistent windows of the same elements have the same aggregates.
    have hwindow : step.maker.window = step₁.maker.window :=
      hfollows.valid.window.consistent.ext hfollows₁.valid.window.consistent hnext.residents
    have hfired : step.maker.statistics.fired = step₁.maker.statistics.fired := hnext.fired
    have hmax : step.maker.statistics.maxAdjacency = step₁.maker.statistics.maxAdjacency :=
      hnext.maxAdjacency
    rw [List.map_cons, List.map_cons, hwindow, hfired, hmax,
      ih hfollows.valid hfollows₁.valid hnext hrest hrest₁]

end Windowed

/-- The maker of the policy `p` does what the maker of `p₁` does, but for the outputs that its
    prescale drops. -/
structure Thins (p p₁ : π) : Prop where
  /-- Calls that go through on the maker of `p₁` go through on that of `p`. -/
  goesThrough : ∀ cs,
    (∃ steps₁, Maker.run ({ policy := p₁ } : Windowed π τ) cs = .ok steps₁) →
    ∃ steps, Maker.run ({ policy := p } : Windowed π τ) cs = .ok steps
  /-- After every call the windows are the same, as many triggers have fired, and the longest run
      that they measured is as long. -/
  agrees : ∀ cs steps steps₁, Maker.run ({ policy := p } : Windowed π τ) cs = .ok steps →
    Maker.run ({ policy := p₁ } : Windowed π τ) cs = .ok steps₁ →
    steps.map (fun s => (s.maker.window, s.maker.statistics.fired,
        s.maker.statistics.maxAdjacency)) =
      steps₁.map fun s => (s.maker.window, s.maker.statistics.fired,
        s.maker.statistics.maxAdjacency)
  /-- Up to every call, the outputs for `p` are the outputs for `p₁` at the multiples of the
      prescale. -/
  outputs : ∀ cs steps steps₁, Maker.run ({ policy := p } : Windowed π τ) cs = .ok steps →
    Maker.run ({ policy := p₁ } : Windowed π τ) cs = .ok steps₁ →
    ∀ k j : Nat, (Maker.outputs (steps.take k))[j]? =
      (Maker.outputs (steps₁.take k))[(Policy.settings p).prescale * j]?

theorem thins_of_unscaled [Cluster ο τ] [LawfulPolicy π τ ο] {p p₁ : π}
    (hp : (Policy.settings p).validate = .ok ()) (hp₁ : (Policy.settings p₁).validate = .ok ())
    (h : Unscaled p p₁) : Thins p p₁ := by
  have hvalid := Windowed.valid_fresh (τ := τ) hp
  have hvalid₁ := Windowed.valid_fresh (τ := τ) hp₁
  have hthinned : Reference.Thinned ({ policy := p } : Reference π τ) { policy := p₁ } :=
    ⟨h, rfl, rfl, rfl⟩
  refine ⟨?_, ?_, ?_⟩
  · intro cs hgoes
    have hfits := ((refines_of_validate hp₁).goesThrough cs).1 hgoes
    exact ((refines_of_validate hp).goesThrough cs).2 (hthinned.fitsAll hfits)
  · intro cs steps steps₁ hrun hrun₁
    exact hvalid.thinned_run hvalid₁ hthinned hrun hrun₁
  · intro cs steps steps₁ hrun hrun₁ k j
    have houtputs := hvalid.outputs_run (Maker.run_take hrun k)
    have houtputs₁ := hvalid₁.outputs_run (Maker.run_take hrun₁ k)
    have hemissions := hthinned.emissions (cs.take k)
    have hrecord : (ListPolicy.record? p : List τ → Option ο) = ListPolicy.record? p₁ :=
      funext h.record
    have hthin : (Maker.outputs (steps.take k)).map some =
        (thin (Policy.settings p).prescale 0 (Maker.outputs (steps₁.take k))).map some := by
      calc (Maker.outputs (steps.take k)).map some
          = (({ policy := p } : Reference π τ).emissions (cs.take k)).map
              (ListPolicy.record? p) := houtputs
        _ = (thin (Policy.settings p).prescale 0
              (({ policy := p₁ } : Reference π τ).emissions (cs.take k))).map
                (ListPolicy.record? p₁) := by rw [hemissions, hrecord]; rfl
        _ = thin (Policy.settings p).prescale 0 ((Maker.outputs (steps₁.take k)).map some) := by
            rw [← thin_map]
            exact congrArg (thin _ 0) houtputs₁.symm
        _ = _ := thin_map some _ 0 _
    rw [List.map_injective_iff.2 (fun _ _ => Option.some.inj) hthin]
    exact getElem?_thin hvalid.prescale _ j

/-- Settings in range stay so with prescale one. -/
theorem Settings.validate_unscaled {s : Settings} (hs : s.validate = .ok ()) :
    ({ s with prescale := 1 } : Settings).validate = .ok () := by
  obtain ⟨-, hrest⟩ := validate_eq_ok_iff.1 hs
  exact validate_eq_ok_iff.2 ⟨Nat.one_ne_zero, hrest⟩

theorem keepsAges_eq : KeepsAges (Eq : τ → τ → Prop) := by
  rintro a _ b _ rfl rfl
  rfl

/-- Policies that decide the same of every list, record the same, and read the same length. -/
theorem unscaled_of_eq {p p₁ : π}
    (hlength : (Policy.settings p).windowLength = (Policy.settings p₁).windowLength)
    (hpasses : ListPolicy.passes p = ListPolicy.passes p₁)
    (hfires : ListPolicy.fires p = ListPolicy.fires p₁)
    (hend : ListPolicy.firesAtEnd p = ListPolicy.firesAtEnd p₁)
    (hrecord : (ListPolicy.record? p : List τ → Option ο) = ListPolicy.record? p₁)
    (hone : (Policy.settings p₁).prescale = 1) : Unscaled p p₁ := by
  refine ⟨⟨keepsAges_eq, hlength, hpasses, ?_, ?_⟩, fun xs => by rw [hrecord], hone⟩
  · intro xs xs' x x' hxs hx
    obtain rfl : xs = xs' := List.forall₂_eq_eq_eq ▸ hxs
    rw [hfires, hx]
  · intro xs xs' hxs
    obtain rfl : xs = xs' := List.forall₂_eq_eq_eq ▸ hxs
    rw [hend]

/-- With settings in range, and for inputs in any order of time, the prescale of a windowed maker
    does nothing but thin the outputs. -/
theorem prescale_only_thins_outputs (s : Settings) (hs : s.validate = .ok ()) :
    Thins (Geometry.horizontal s) (.horizontal { s with prescale := 1 }) ∧
      Thins (Geometry.charge s) (.charge { s with prescale := 1 }) ∧
      Thins ({ settings := s } : Shape) { settings := { s with prescale := 1 } } ∧
      Thins ({ settings := s } : Grouping) { settings := { s with prescale := 1 } } := by
  have hs₁ := Settings.validate_unscaled hs
  refine ⟨?_, ?_, ?_, ?_⟩
  · exact thins_of_unscaled hs hs₁ (unscaled_of_eq rfl rfl rfl rfl rfl rfl)
  · exact thins_of_unscaled ((Geometry.validate_charge s).trans hs)
      ((Geometry.validate_charge _).trans hs₁) (unscaled_of_eq rfl rfl rfl rfl rfl rfl)
  · exact thins_of_unscaled hs hs₁ (unscaled_of_eq rfl rfl rfl rfl rfl rfl)
  · exact thins_of_unscaled hs hs₁ (unscaled_of_eq rfl rfl rfl rfl rfl rfl)

/-- With one trigger in two emitted, of three windows that fire the first and the third become
    activities. -/
theorem one_trigger_in_two_emitted :
    (Settings.withAdcTrigger { prescale := 2 } 100).validate = .ok () ∧
      ∃ steps steps₁,
        Maker.run
            ({ policy := Geometry.charge (.withAdcTrigger { prescale := 2 } 100) } :
              Windowed Geometry Primitive)
            (Call.stream [.hit 1 0 110, .hit 2 9000 120, .hit 3 18000 130]) = .ok steps ∧
          Maker.run
            ({ policy := Geometry.charge (.withAdcTrigger { prescale := 1 } 100) } :
              Windowed Geometry Primitive)
            (Call.stream [.hit 1 0 110, .hit 2 9000 120, .hit 3 18000 130]) = .ok steps₁ ∧
          (Maker.outputs steps).map (·.inputs) = [[.hit 1 0 110], [.hit 3 18000 130]] ∧
          ∀ k j : Nat, (Maker.outputs (steps.take k))[j]? =
            (Maker.outputs (steps₁.take k))[2 * j]? := by
  have hvalid : (Settings.withAdcTrigger { prescale := 2 } 100).validate = .ok () :=
    Settings.validate_eq_ok_iff.2 (by decide)
  have hthins := (prescale_only_thins_outputs _ hvalid).2.1
  have houtputs : (Maker.run
      ({ policy := Geometry.charge (.withAdcTrigger { prescale := 2 } 100) } :
        Windowed Geometry Primitive)
      (Call.stream [.hit 1 0 110, .hit 2 9000 120, .hit 3 18000 130])).map
        (fun steps => (Maker.outputs steps).map (·.inputs)) =
      .ok [[.hit 1 0 110], [.hit 3 18000 130]] := rfl
  have hrun₁ : ∃ steps₁, Maker.run
      ({ policy := Geometry.charge (.withAdcTrigger { prescale := 1 } 100) } :
        Windowed Geometry Primitive)
      (Call.stream [.hit 1 0 110, .hit 2 9000 120, .hit 3 18000 130]) = .ok steps₁ := ⟨_, rfl⟩
  obtain ⟨steps₁, hrun₁⟩ := hrun₁
  obtain ⟨steps, hrun⟩ := hthins.goesThrough _ ⟨steps₁, hrun₁⟩
  rw [hrun] at houtputs
  exact ⟨hvalid, steps, steps₁, hrun, hrun₁, Except.ok.inj houtputs,
    hthins.outputs _ steps steps₁ hrun hrun₁⟩

end TriggerChain
