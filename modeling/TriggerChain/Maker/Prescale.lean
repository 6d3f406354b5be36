import TriggerChain.Maker.Basic

/-!
# Prescaling

Of the inputs that arrive, the first and then every `prescale`-th become outputs of their
own, and the others are dropped.

Main statement: `Prescaler.keeps_iff` says which inputs are kept.
-/

namespace TriggerChain

/-- Inputs that can become outputs on their own. -/
class Promotable (ι : Type) (ο : outParam Type) where
  /-- The output that an input becomes. -/
  promote : ι → Except Fault ο
  /-- What a maker says of an input that it keeps. -/
  keptNotice : String → ι → Notice

instance : Promotable Primitive Activity where
  promote p := Activity.ofPrimitive p .prescale
  keptNotice maker p := .keptPrimitive maker p.channel.toNat p.timeStart.toInt

/-- The candidate that holds one activity and nothing else, with the times of the
    activity. -/
def Candidate.ofActivity (a : Activity) : Candidate :=
  { Candidate.ofActivities [a] .prescale .prescale with
    timeStart := a.timeStart
    timeEnd := a.timeEnd
    timeCandidate := a.timeStart }

instance : Promotable Activity Candidate where
  promote a := .ok (.ofActivity a)
  keptNotice maker a := .keptActivity maker a.timeStart.toInt

/-- A maker that keeps one input in `prescale`. -/
structure Prescaler (ι : Type) where
  /-- How many inputs there are for each output. -/
  prescale : Nat := 1
  /-- The counters. -/
  statistics : Statistics := {}
  deriving DecidableEq, Repr, Inhabited

namespace Prescaler

variable {ι ο : Type}

/-- The name of the makers. -/
def name : String := "prescale"

/-- A maker with a prescale, which is at least one. -/
def ofPrescale (prescale : Nat) : Prescaler ι := { prescale := max prescale 1 }

/-- Whether the next input is kept. -/
def keeps (m : Prescaler ι) : Bool := m.statistics.inputs % m.prescale = 0

/-- The next input is kept exactly if a multiple of the prescale has been heard. -/
theorem keeps_iff (m : Prescaler ι) : m.keeps = true ↔ m.prescale ∣ m.statistics.inputs := by
  simp [keeps, Nat.dvd_iff_mod_eq_zero]

/-- Takes one input. -/
def process [Promotable ι ο] (m : Prescaler ι) (x : ι) :
    Except Fault (Step (Prescaler ι) ο) := do
  let statistics := m.statistics.hear.fire none
  if m.keeps then
    let output ← Promotable.promote x
    return {
      maker := { m with statistics := statistics.emit }
      outputs := [output]
      notices := [Promotable.keptNotice name x] }
  else
    return { maker := { m with statistics := statistics.drop } }

instance [Promotable ι ο] : Maker (Prescaler ι) ι ο where
  name _ := name
  statistics m := m.statistics
  configure m s := do
    s.acceptFor name m.statistics
    return ({ m with prescale := s.prescale }, [])
  process := process
  flush m := .ok { maker := m }

end Prescaler

end TriggerChain
