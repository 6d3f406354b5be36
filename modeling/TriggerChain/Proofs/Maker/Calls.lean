import TriggerChain.Maker.Basic
import TriggerChain.Proofs.Checked

/-!
# Sequences of calls on a maker

A maker is driven by calls: it is handed an input, or told that the stream is over. A
sequence of calls is followed until a call faults; what each call returned is kept, so that
outputs can be compared call by call.
-/

namespace TriggerChain

/-- A call on a maker of inputs `ι`. -/
inductive Call (ι : Type) where
  /-- The maker is handed an input. -/
  | process (x : ι)
  /-- The maker is told that the stream is over. -/
  | flush

namespace Call

variable {ι : Type}

/-- The input that a call hands over. -/
def input? : Call ι → Option ι
  | process x => some x
  | flush => none

@[simp] theorem input?_process (x : ι) : input? (process x) = some x := rfl

@[simp] theorem input?_flush : input? (flush : Call ι) = none := rfl

/-- The inputs that some calls hand over, in order. -/
def inputs (cs : List (Call ι)) : List ι := cs.filterMap input?

@[simp] theorem inputs_nil : inputs ([] : List (Call ι)) = [] := rfl

@[simp] theorem inputs_process (x : ι) (cs : List (Call ι)) :
    inputs (.process x :: cs) = x :: inputs cs := rfl

@[simp] theorem inputs_flush (cs : List (Call ι)) : inputs (.flush :: cs) = inputs cs := rfl

theorem inputs_cons (c : Call ι) (cs : List (Call ι)) :
    inputs (c :: cs) = c.input?.toList ++ inputs cs := by
  cases c <;> rfl

/-- The calls that hand over a stream and then end it. -/
def stream (xs : List ι) : List (Call ι) := xs.map process ++ [flush]

theorem length_stream (xs : List ι) : (stream xs).length = xs.length + 1 := by simp [stream]

theorem inputs_take_stream (xs : List ι) (k : Nat) :
    inputs ((stream xs).take k) = xs.take k := by
  induction xs generalizing k with
  | nil => cases k <;> simp [stream]
  | cons x xs ih =>
    cases k with
    | zero => rfl
    | succ k =>
      show inputs (.process x :: (stream xs).take k) = x :: xs.take k
      rw [inputs_process, ih]

theorem inputs_stream (xs : List ι) : inputs (stream xs) = xs := by
  have htake := inputs_take_stream xs (xs.length + 1)
  rwa [List.take_of_length_le (by simp [stream]), List.take_of_length_le (by simp)] at htake

/-- What is handed over in a beginning of a stream is a beginning of what is streamed. -/
theorem inputs_prefix {cs : List (Call ι)} {xs : List ι} (h : cs <+: stream xs) :
    inputs cs <+: xs := by
  have hinputs : inputs cs <+: inputs (stream xs) := h.filterMap _
  rwa [inputs_stream] at hinputs

end Call

namespace Maker

variable {μ ι ο : Type} [Maker μ ι ο]

/-- A call on a maker. -/
def call (m : μ) : Call ι → Except Fault (Step μ ο)
  | .process x => Maker.process m x
  | .flush => Maker.flush m

/-- What each of some calls returns, one call after the other; or the fault that stops
    them. -/
def run (m : μ) : List (Call ι) → Except Fault (List (Step μ ο))
  | [] => .ok []
  | c :: cs => do
    let step ← call m c
    let rest ← run step.maker cs
    return step :: rest

/-- The maker after some calls. -/
def after (m : μ) : List (Step μ ο) → μ
  | [] => m
  | step :: rest => after step.maker rest

/-- The outputs of some calls, in order. -/
def outputs (steps : List (Step μ ο)) : List ο := steps.flatMap Step.outputs

theorem run_cons_eq_ok_iff {m : μ} {c : Call ι} {cs : List (Call ι)}
    {steps : List (Step μ ο)} :
    run m (c :: cs) = .ok steps ↔
      ∃ step rest, call m c = .ok step ∧ run step.maker cs = .ok rest ∧
        steps = step :: rest := by
  simp only [run, Checked.bind_eq_ok_iff, pure, Except.pure, Except.ok.injEq]
  constructor
  · rintro ⟨step, hstep, rest, hrest, rfl⟩
    exact ⟨step, rest, hstep, hrest, rfl⟩
  · rintro ⟨step, rest, hstep, hrest, rfl⟩
    exact ⟨step, hstep, rest, hrest, rfl⟩

theorem run_cons_eq_error_iff {m : μ} {c : Call ι} {cs : List (Call ι)} {fault : Fault} :
    run (ο := ο) m (c :: cs) = .error fault ↔
      call (ο := ο) m c = .error fault ∨
      ∃ step, call (ο := ο) m c = .ok step ∧ run step.maker cs = .error fault := by
  simp only [run, Checked.bind_eq_error_iff, pure, Except.pure]
  simp

/-! ## Longer sequences -/

omit [Maker μ ι ο] in
@[simp] theorem after_append (m : μ) (steps steps' : List (Step μ ο)) :
    after m (steps ++ steps') = after (after m steps) steps' := by
  induction steps generalizing m with
  | nil => rfl
  | cons step rest ih => exact ih step.maker

omit [Maker μ ι ο] in
@[simp] theorem outputs_append (steps steps' : List (Step μ ο)) :
    outputs (steps ++ steps') = outputs steps ++ outputs steps' := List.flatMap_append

omit [Maker μ ι ο] in
@[simp] theorem outputs_cons (step : Step μ ο) (steps : List (Step μ ο)) :
    outputs (step :: steps) = step.outputs ++ outputs steps := rfl

theorem run_append {m : μ} {cs ds : List (Call ι)} {steps steps' : List (Step μ ο)}
    (h : run m cs = .ok steps) (h' : run (after m steps) ds = .ok steps') :
    run m (cs ++ ds) = .ok (steps ++ steps') := by
  induction cs generalizing m steps with
  | nil =>
    obtain rfl := Except.ok.inj h
    exact h'
  | cons c cs ih =>
    obtain ⟨step, rest, hstep, hrest, rfl⟩ := run_cons_eq_ok_iff.1 h
    exact run_cons_eq_ok_iff.2 ⟨step, rest ++ steps', hstep, ih hrest h', rfl⟩

theorem run_append_error {m : μ} {cs ds : List (Call ι)} {steps : List (Step μ ο)}
    {fault : Fault} (h : run m cs = .ok steps)
    (h' : run (ο := ο) (after m steps) ds = .error fault) :
    run (ο := ο) m (cs ++ ds) = .error fault := by
  induction cs generalizing m steps with
  | nil =>
    obtain rfl := Except.ok.inj h
    exact h'
  | cons c cs ih =>
    obtain ⟨step, rest, hstep, hrest, rfl⟩ := run_cons_eq_ok_iff.1 h
    exact run_cons_eq_error_iff.2 (.inr ⟨step, hstep, ih hrest h'⟩)

/-- The first calls of a run. -/
theorem run_take {m : μ} {cs : List (Call ι)} {steps : List (Step μ ο)}
    (h : run m cs = .ok steps) (k : Nat) : run m (cs.take k) = .ok (steps.take k) := by
  induction cs generalizing m steps k with
  | nil =>
    obtain rfl := Except.ok.inj h
    rw [List.take_nil, List.take_nil]
    rfl
  | cons c cs ih =>
    obtain ⟨step, rest, hstep, hrest, rfl⟩ := run_cons_eq_ok_iff.1 h
    cases k with
    | zero => rfl
    | succ k => exact run_cons_eq_ok_iff.2 ⟨step, rest.take k, hstep, ih hrest k, rfl⟩

/-- A beginning of a run. -/
theorem run_of_prefix {m : μ} {cs pre : List (Call ι)} {steps : List (Step μ ο)}
    (h : run m cs = .ok steps) (hpre : pre <+: cs) :
    run m pre = .ok (steps.take pre.length) := by
  have htake := run_take h pre.length
  rwa [← List.prefix_iff_eq_take.1 hpre] at htake

omit [Maker μ ι ο] in
theorem outputs_take_prefix (steps : List (Step μ ο)) (k : Nat) :
    outputs (steps.take k) <+: outputs steps := by
  refine ⟨outputs (steps.drop k), ?_⟩
  rw [← outputs_append, List.take_append_drop]

/-! ## Invariants -/

/-- What every call preserves, and what it says of the outputs of a call, holds of a run. The
    invariant may speak of the calls that are still to come. -/
theorem run_invariant (Inv : μ → List (Call ι) → Prop) {Q : ο → Prop}
    (hcall : ∀ m c cs step, Inv m (c :: cs) → call m c = .ok step →
      Inv step.maker cs ∧ ∀ o ∈ step.outputs, Q o)
    {m : μ} {cs : List (Call ι)} {steps : List (Step μ ο)} (hm : Inv m cs)
    (h : run m cs = .ok steps) : Inv (after m steps) [] ∧ ∀ o ∈ outputs steps, Q o := by
  induction cs generalizing m steps with
  | nil =>
    obtain rfl := Except.ok.inj h
    exact ⟨hm, by simp [outputs]⟩
  | cons c cs ih =>
    obtain ⟨step, rest, hstep, hrest, rfl⟩ := run_cons_eq_ok_iff.1 h
    obtain ⟨hnext, houtputs⟩ := hcall m c cs step hm hstep
    obtain ⟨hlast, hothers⟩ := ih hnext hrest
    exact ⟨hlast, List.forall_mem_append.2 ⟨houtputs, hothers⟩⟩

/-- What every call preserves, with a number that goes up with every call, holds of the maker
    before the first call and after each one, with a number up to that of the calls. -/
theorem run_counting {Inv : Nat → μ → Prop} (hcall : ∀ n m (c : Call ι) (step : Step μ ο),
      Inv n m → call m c = .ok step → Inv (n + 1) step.maker)
    {n : Nat} {m : μ} {cs : List (Call ι)} {steps : List (Step μ ο)} (hm : Inv n m)
    (h : run m cs = .ok steps) :
    ∀ m' ∈ m :: steps.map (·.maker), ∃ k ≤ n + cs.length, Inv k m' := by
  induction cs generalizing n m steps with
  | nil =>
    obtain rfl := Except.ok.inj h
    intro m' hm'
    obtain rfl := List.mem_singleton.1 hm'
    exact ⟨n, Nat.le_refl n, hm⟩
  | cons c cs ih =>
    obtain ⟨step, rest, hstep, hrest, rfl⟩ := run_cons_eq_ok_iff.1 h
    intro m' hm'
    rcases List.mem_cons.1 hm' with rfl | hm'
    · exact ⟨n, Nat.le_add_right _ _, hm⟩
    · obtain ⟨k, hk, hinv⟩ := ih (hcall n m c step hm hstep) hrest m' hm'
      refine ⟨k, ?_, hinv⟩
      rw [List.length_cons]
      omega

/-- Some calls go through, and the call behind them gives an output. -/
def Gives (m : μ) (cs : List (Call ι)) (c : Call ι) (o : ο) : Prop :=
  ∃ steps step, run m cs = .ok steps ∧ call (after m steps) c = .ok step ∧ o ∈ step.outputs

/-- An output of a run is one of some call in it. -/
theorem gives_of_run {m : μ} {cs : List (Call ι)} {steps : List (Step μ ο)}
    (h : run m cs = .ok steps) {o : ο} (ho : o ∈ outputs steps) :
    ∃ pre c post, cs = pre ++ c :: post ∧ Gives m pre c o := by
  induction cs generalizing m steps with
  | nil =>
    obtain rfl := Except.ok.inj h
    cases ho
  | cons c cs ih =>
    obtain ⟨step, rest, hstep, hrest, rfl⟩ := run_cons_eq_ok_iff.1 h
    rcases List.mem_append.1 ho with ho | ho
    · exact ⟨[], c, cs, rfl, [], step, rfl, hstep, ho⟩
    · obtain ⟨pre, c', post, rfl, before, last, hbefore, hlast, ho⟩ := ih hrest ho
      exact ⟨c :: pre, c', post, rfl, step :: before, last,
        run_cons_eq_ok_iff.2 ⟨step, before, hstep, hbefore, rfl⟩, hlast, ho⟩

/-- Calls go through if every one does where the invariant holds, and preserves it. -/
theorem run_goesThrough (Inv : μ → List (Call ι) → Prop)
    (hcall : ∀ m c cs, Inv m (c :: cs) → ∃ step : Step μ ο, call m c = .ok step ∧
      Inv step.maker cs) {m : μ} {cs : List (Call ι)} (hm : Inv m cs) :
    ∃ steps : List (Step μ ο), run m cs = .ok steps := by
  induction cs generalizing m with
  | nil => exact ⟨[], rfl⟩
  | cons c cs ih =>
    obtain ⟨step, hstep, hnext⟩ := hcall m c cs hm
    obtain ⟨rest, hrest⟩ := ih hnext
    exact ⟨step :: rest, run_cons_eq_ok_iff.2 ⟨step, rest, hstep, hrest, rfl⟩⟩

/-- What stops a run stops one of its calls. -/
theorem call_of_run_error {m : μ} {cs : List (Call ι)} {fault : Fault}
    (h : run (ο := ο) m cs = .error fault) :
    ∃ (m' : μ) (c : Call ι), call (ο := ο) m' c = .error fault := by
  induction cs generalizing m with
  | nil => cases h
  | cons c cs ih =>
    rcases run_cons_eq_error_iff.1 h with herr | ⟨step, -, hrest⟩
    · exact ⟨m, c, herr⟩
    · exact ih hrest

end Maker

/-! ## Makers within makers -/

section Embedding

variable {μ ν ι ο : Type} [Maker μ ι ο] [Maker ν ι ο]

/-- A maker is contained in another one, which does what it does. -/
structure Embeds (f : μ → ν) : Prop where
  process : ∀ m (x : ι), Maker.process (f m) x = (Maker.process m x).map (Step.mapMaker f)
  flush : ∀ m, Maker.flush (f m) = (Maker.flush m).map (Step.mapMaker f)

theorem Embeds.call {f : μ → ν} (h : Embeds f) (m : μ) (c : Call ι) :
    Maker.call (f m) c = (Maker.call m c).map (Step.mapMaker f) := by
  cases c with
  | process x => exact h.process m x
  | flush => exact h.flush m

theorem Embeds.call_eq_ok {f : μ → ν} (h : Embeds f) {m : μ} {c : Call ι} {step' : Step ν ο}
    (h' : Maker.call (f m) c = .ok step') :
    ∃ step, Maker.call m c = .ok step ∧ step.mapMaker f = step' := by
  rw [h.call] at h'
  cases hcall : Maker.call m c with
  | error fault =>
    rw [hcall] at h'
    cases h'
  | ok step =>
    rw [hcall] at h'
    exact ⟨step, rfl, Except.ok.inj h'⟩

/-- The calls on the containing maker are those on the contained one. -/
theorem Embeds.run {f : μ → ν} (h : Embeds f) (m : μ) (cs : List (Call ι)) :
    Maker.run (f m) cs = (Maker.run m cs).map (List.map (Step.mapMaker f)) := by
  induction cs generalizing m with
  | nil => rfl
  | cons c cs ih =>
    rw [Maker.run, Maker.run, h.call]
    cases Maker.call m c with
    | error fault => rfl
    | ok step =>
      show Except.bind (Maker.run (f step.maker) cs) _ =
        Except.map _ (Except.bind (Maker.run step.maker cs) _)
      rw [ih]
      cases Maker.run step.maker cs <;> rfl

theorem Embeds.run_eq_ok {f : μ → ν} (h : Embeds f) {m : μ} {cs : List (Call ι)}
    {steps' : List (Step ν ο)} (h' : Maker.run (f m) cs = .ok steps') :
    ∃ steps, Maker.run m cs = .ok steps ∧ Maker.outputs steps' = Maker.outputs steps ∧
      Maker.after (f m) steps' = f (Maker.after m steps) := by
  rw [h.run] at h'
  cases hrun : Maker.run m cs with
  | error fault =>
    rw [hrun] at h'
    cases h'
  | ok steps =>
    rw [hrun] at h'
    obtain rfl := Except.ok.inj h'
    refine ⟨steps, rfl, ?_, ?_⟩
    · exact List.flatMap_map _ _ _
    · clear hrun h'
      induction steps generalizing m with
      | nil => rfl
      | cons step rest ih => exact ih

theorem Embeds.gives {f : μ → ν} (h : Embeds f) {m : μ} {cs : List (Call ι)} {c : Call ι} {o : ο}
    (h' : Maker.Gives (f m) cs c o) : Maker.Gives m cs c o := by
  obtain ⟨steps, step, hrun, hstep, ho⟩ := h'
  obtain ⟨steps, hrun, -, hafter⟩ := h.run_eq_ok hrun
  rw [hafter] at hstep
  obtain ⟨step, hcall, rfl⟩ := h.call_eq_ok hstep
  exact ⟨steps, step, hrun, hcall, ho⟩

theorem Embeds.run_eq_error {f : μ → ν} (h : Embeds f) {m : μ} {cs : List (Call ι)}
    {fault : Fault} (h' : Maker.run (ο := ο) (f m) cs = .error fault) :
    Maker.run (ο := ο) m cs = .error fault := by
  rw [h.run] at h'
  cases hrun : Maker.run (ο := ο) m cs with
  | error fault' =>
    rw [hrun] at h'
    exact congrArg _ (Except.error.inj h')
  | ok steps =>
    rw [hrun] at h'
    cases h'

theorem Embeds.goesThrough {f : μ → ν} (h : Embeds f) {m : μ} {cs : List (Call ι)}
    (h' : ∃ steps : List (Step μ ο), Maker.run m cs = .ok steps) :
    ∃ steps : List (Step ν ο), Maker.run (f m) cs = .ok steps := by
  obtain ⟨steps, hrun⟩ := h'
  refine ⟨steps.map (Step.mapMaker f), ?_⟩
  rw [h.run, hrun]
  rfl

end Embedding

end TriggerChain
