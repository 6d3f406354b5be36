import TriggerChain.Maker.Bundle
import TriggerChain.Maker.Burst
import TriggerChain.Maker.Prescale
import TriggerChain.Proofs.Checked

/-!
# The steps of the makers without a window

What a call on a prescaler, on a bundler or on a burst finder returns, one case for each way.
Later proofs take a call apart by these cases only. Of the three, only a prescaler can stop, where
an input does not become an output.
-/

namespace TriggerChain

/-! ## Prescalers -/

namespace Prescaler

variable {ι ο : Type} [Promotable ι ο]

/-- How a call on a prescaler can go through. -/
inductive Processed (m : Prescaler ι) (x : ι) : Step (Prescaler ι) ο → Prop
  /-- The input becomes an output. -/
  | kept {output : ο} (hkeeps : m.keeps = true)
      (hpromote : Promotable.promote x = .ok output) :
      Processed m x {
        maker := { m with statistics := (m.statistics.hear.fire none).emit }
        outputs := [output]
        notices := [Promotable.keptNotice name x] }
  /-- The input is dropped. -/
  | dropped (hkeeps : m.keeps = false) :
      Processed m x { maker := { m with statistics := (m.statistics.hear.fire none).drop } }

theorem processed_of_process {m : Prescaler ι} {x : ι} {step : Step (Prescaler ι) ο}
    (h : m.process x = .ok step) : Processed m x step := by
  unfold process at h
  dsimp only at h
  split at h
  · next hkeeps =>
    obtain ⟨output, hpromote, h⟩ := Checked.bind_eq_ok_iff.1 h
    obtain rfl := Except.ok.inj h
    exact .kept hkeeps hpromote
  · next hkeeps =>
    obtain rfl := Except.ok.inj h
    exact .dropped (Bool.not_eq_true _ ▸ hkeeps)

theorem promote_of_process_error {m : Prescaler ι} {x : ι} {fault : Fault}
    (h : m.process (ο := ο) x = .error fault) : Promotable.promote x = .error (α := ο) fault := by
  unfold process at h
  dsimp only at h
  split at h
  · rcases Checked.bind_eq_error_iff.1 h with herr | ⟨output, -, h⟩
    · exact herr
    · cases h
  · cases h

/-- Inputs that can become outputs stop no prescaler. -/
theorem process_goesThrough (m : Prescaler ι) {x : ι} {output : ο}
    (h : Promotable.promote x = .ok output) : ∃ step, m.process (ο := ο) x = .ok step := by
  cases hprocess : m.process (ο := ο) x with
  | ok step => exact ⟨step, rfl⟩
  | error fault => exact (Checked.false_of_ok_error h (promote_of_process_error hprocess)).elim

end Prescaler

/-! ## Bundlers -/

namespace Bundler

/-- What a call on a bundler returns. -/
inductive Processed (m : Bundler) (a : Activity) : Step Bundler Candidate → Prop
  /-- The bundle is not full yet. -/
  | collected (hroom : (m.pending ++ [a]).length < m.bundleSize) :
      Processed m a {
        maker := { m with pending := m.pending ++ [a], statistics := m.statistics.hear } }
  /-- The bundle is full, and the prescale drops it. -/
  | dropped (hfull : m.bundleSize ≤ (m.pending ++ [a]).length)
      (hprescale : m.completed % m.prescale ≠ 0) :
      Processed m a {
        maker := { m with completed := m.completed + 1, pending := [],
                          statistics := (m.statistics.hear.fire none).drop } }
  /-- The bundle is full and becomes a candidate. -/
  | made {first : Activity} {rest : List Activity} {notices : List Notice}
      (hfull : m.bundleSize ≤ (m.pending ++ [a]).length)
      (hprescale : m.completed % m.prescale = 0) (hbundle : m.pending ++ [a] = first :: rest) :
      Processed m a {
        maker := { m with completed := m.completed + 1, pending := [],
                          statistics := (m.statistics.hear.fire none).emit }
        outputs := [candidate first rest]
        notices }

theorem processed_of_process {m : Bundler} {a : Activity} {step : Step Bundler Candidate}
    (h : Maker.process m a = .ok step) : Processed m a step := by
  obtain rfl := Except.ok.inj h
  obtain ⟨first, rest, hbundle⟩ := List.exists_cons_of_ne_nil
    (List.append_ne_nil_of_right_ne_nil m.pending (List.cons_ne_nil a []))
  unfold process
  dsimp only
  split
  · next hroom => exact .collected hroom
  · next hfull =>
    split
    · next hprescale => exact .dropped (Nat.le_of_not_lt hfull) hprescale
    · next hprescale =>
      rw [hbundle]
      exact .made (Nat.le_of_not_lt hfull) (Decidable.not_not.1 hprescale) hbundle

end Bundler

/-! ## Burst finders -/

namespace BurstFinder

/-- What is cut off at the end of the range lies before every activity, so the cut does not
    matter to what is kept. -/
theorem horizon_le_iff {m : BurstFinder} (hwindow : 0 ≤ m.window.toInt) (now t : Ticks) :
    m.horizon now ≤ t ↔ now.toInt - m.window.toInt ≤ t.toInt := by
  have hnow := now.toInt_lt
  have ht := t.le_toInt
  rw [Int64.le_iff_toInt_le, horizon, Ticks.toInt_since]
  omega

theorem horizon_le {m : BurstFinder} (hwindow : 0 ≤ m.window.toInt) (now : Ticks) :
    (m.horizon now).toInt ≤ now.toInt := by
  rw [← Int64.le_iff_toInt_le, horizon_le_iff hwindow]
  omega

/-- What is buffered when an activity arrives follows one another, with the activity at the end
    whether it is buffered or not. -/
theorem buffered_sublist (m : BurstFinder) (a : Activity) :
    (m.buffered a).Sublist (m.buffer ++ [a]) := by
  unfold buffered
  refine List.Sublist.append List.filter_sublist ?_
  split
  · exact .refl _
  · exact List.nil_sublist _

/-- Whatever is buffered when an activity arrives began within the time window before it. -/
theorem horizon_le_of_mem {m : BurstFinder} (hwindow : 0 ≤ m.window.toInt) {a b : Activity}
    (hb : b ∈ m.buffered a) : (m.horizon a.timeStart).toInt ≤ b.timeStart.toInt := by
  unfold buffered at hb
  rcases List.mem_append.1 hb with hkept | hnew
  · have hyoung := (List.mem_filter.1 hkept).2
    exact Int64.le_iff_toInt_le.1 (of_decide_eq_true hyoung)
  · split at hnew
    · obtain rfl := List.mem_singleton.1 hnew
      exact horizon_le hwindow b.timeStart
    · cases hnew

/-- What a call on a burst finder returns. -/
inductive Processed (m : BurstFinder) (a : Activity) : Step BurstFinder Candidate → Prop
  /-- There are not enough activities for a burst. -/
  | quiet {notices : List Notice} (hfew : (m.buffered a).length ≤ m.activityThreshold) :
      Processed m a {
        maker := { m with buffer := m.buffered a, statistics := m.statistics.hear }
        notices }
  /-- What is buffered becomes a burst. -/
  | burst {notices : List Notice} (hmany : m.activityThreshold < (m.buffered a).length) :
      Processed m a {
        maker := { m with buffer := [], statistics := (m.statistics.hear.fire none).emit }
        outputs := [m.candidate a (m.buffered a)]
        notices }

theorem processed_of_process {m : BurstFinder} {a : Activity}
    {step : Step BurstFinder Candidate} (h : Maker.process m a = .ok step) :
    Processed m a step := by
  obtain rfl := Except.ok.inj h
  unfold process
  dsimp only
  split
  · next hmany => exact .burst hmany
  · next hfew => exact .quiet (Nat.le_of_not_lt hfew)

end BurstFinder

end TriggerChain
