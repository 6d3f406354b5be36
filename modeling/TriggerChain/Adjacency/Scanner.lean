import TriggerChain.Adjacency.Tolerance
import TriggerChain.Record.Primitive

/-!
# Runs of adjacent channels

How contiguous is a set of channels? The channels are put in ascending order and closed
up to a circle, and the circle is walked step by step. A step to the next channel
lengthens the current run, a repeated channel changes nothing, and a small gap lengthens
the run while its tolerance budget lasts. Any other step ends the run and refills the
budget. The step from the last channel back to the first always leads down (or stays, if
there is only one channel), so the last run is closed like any other.

The budget is looked at before the price of a gap is paid, so the last bridged gap of a
run may overdraw it.
-/

namespace TriggerChain

/-! ## Steps around a list -/

/-- The steps from each element of a list to the next, and from the last to the first. -/
def cyclicSteps {α : Type} (xs : List α) : List (α × α) :=
  xs.zip (xs.tail ++ xs.head?.toList)

/-- A circle has as many steps as elements. -/
@[simp] theorem length_cyclicSteps {α : Type} (xs : List α) :
    (cyclicSteps xs).length = xs.length := by
  cases xs <;> simp [cyclicSteps]

/-! ## The scanner -/

/-- What a step from one channel to the next means for the current run. -/
inductive Link where
  /-- The same channel again. -/
  | same
  /-- The neighbouring channel. -/
  | adjacent
  /-- A gap, bridged out of the budget. -/
  | bridged (gap : Nat)
  /-- The end of a run of `run` channels, and whether it is the longest so far. -/
  | ends (run : Nat) (longest : Bool)
  deriving DecidableEq, Repr, Inhabited

/-- How runs are measured. -/
structure Scanner where
  /-- The tolerance budget of each run. -/
  tolerance : Nat := 3
  /-- What a bridged gap costs. -/
  rule : ToleranceRule := .gapWidth
  /-- The widest gap that can be bridged. -/
  maxGap : Nat := 5
  deriving DecidableEq, Repr, Inhabited

/-- The state of a walk around the channels. -/
structure Walk where
  /-- The length of the current run. -/
  run : Nat := 1
  /-- What the current run has spent. -/
  spent : Nat := 0
  /-- The length of the longest run that has ended. -/
  longest : Nat := 0
  deriving DecidableEq, Repr, Inhabited

/-- Run lengths are counted up to this one. -/
def maxRunLength : Nat := 65535

/-- The length of a run that is one channel longer. -/
def lengthen (run : Nat) : Nat := min (run + 1) maxRunLength

namespace Scanner

/-- What the step from channel `a` to channel `b` means in the state `w`. -/
def link (s : Scanner) (w : Walk) (a b : Channel) : Link :=
  let gap := b.toNat - a.toNat
  -- A step down closes the circle.
  if b < a then .ends w.run (w.longest < w.run)
  else if gap = 0 then .same
  else if gap = 1 then .adjacent
  else if gap ≤ s.maxGap ∧ w.spent < s.tolerance then .bridged gap
  else .ends w.run (w.longest < w.run)

/-- The state after a step of the given meaning. -/
def follow (s : Scanner) (w : Walk) : Link → Walk
  | .same => w
  | .adjacent => { w with run := lengthen w.run }
  | .bridged gap => { w with run := lengthen w.run, spent := w.spent + s.rule.cost gap }
  | .ends run _ => { run := 1, spent := 0, longest := max w.longest run }

/-- The state after one step. -/
def advance (s : Scanner) (w : Walk) (step : Channel × Channel) : Walk :=
  s.follow w (s.link w step.1 step.2)

/-- The meaning of each step of a sequence, from the state `w` on. -/
def links (s : Scanner) : Walk → List (Channel × Channel) → List Link
  | _, [] => []
  | w, step :: rest => s.link w step.1 step.2 :: s.links (s.advance w step) rest

/-- The meaning of each step around a list of channels. -/
def walk (s : Scanner) (channels : List Channel) : List Link :=
  s.links {} (cyclicSteps channels)

/-- The longest run met on the way around a list of channels. -/
def longestOnWalk (s : Scanner) (channels : List Channel) : Nat :=
  ((cyclicSteps channels).foldl s.advance {}).longest

/-- The longest run of a set of channels, given in any order. -/
def longestRun (s : Scanner) (channels : List Channel) : Nat :=
  s.longestOnWalk (channels.mergeSort (fun a b => decide (a ≤ b)))

/-- A walk has one link per step. -/
@[simp] theorem length_links (s : Scanner) (w : Walk) (steps : List (Channel × Channel)) :
    (s.links w steps).length = steps.length := by
  induction steps generalizing w with
  | nil => rfl
  | cons step rest ih => simp [links, ih]

/-- No run is longer than the count allows. -/
theorem longest_advance_le (s : Scanner) {w : Walk} (step : Channel × Channel)
    (hrun : w.run ≤ maxRunLength) (hlongest : w.longest ≤ maxRunLength) :
    (s.advance w step).run ≤ maxRunLength ∧ (s.advance w step).longest ≤ maxRunLength := by
  unfold advance link
  have hcap : ∀ n, lengthen n ≤ maxRunLength := fun n => Nat.min_le_right _ _
  have hone : 1 ≤ maxRunLength := by decide
  dsimp only
  repeat' split
  all_goals simp only [follow]
  all_goals first
    | exact ⟨hone, Nat.max_le.2 ⟨hlongest, hrun⟩⟩
    | exact ⟨hcap _, hlongest⟩
    | exact ⟨hrun, hlongest⟩

end Scanner

end TriggerChain
