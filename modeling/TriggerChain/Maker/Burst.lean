import TriggerChain.Maker.Basic

/-!
# Bursts

Activities with enough primitives are buffered for as long as a time window lasts. When
more of them are buffered than the threshold allows, they become one candidate for the
whole detector, and the buffer starts over.
-/

namespace TriggerChain

/-- A maker of bursts. -/
structure BurstFinder where
  /-- How long an activity stays buffered. -/
  window : Ticks := 500000000
  /-- A burst needs more activities than this. -/
  activityThreshold : Nat := 6
  /-- An activity is buffered if it has more primitives than this. -/
  hitThreshold : Nat := 3
  /-- The activities that are buffered, in order. -/
  buffer : List Activity := []
  /-- The counters. -/
  statistics : Statistics := {}
  deriving DecidableEq, Repr, Inhabited

namespace BurstFinder

/-- The name of the maker is that of its algorithm. -/
def name : String := CandidateAlgorithm.supernova.name

/-- When an activity must have begun to be buffered at a time. -/
def horizon (m : BurstFinder) (now : Ticks) : Ticks := now.since m.window

/-- The activities that are still buffered at a time. -/
def kept (m : BurstFinder) (now : Ticks) : List Activity :=
  m.buffer.filter fun a => decide (m.horizon now ≤ a.timeStart)

/-- The buffer once an activity has arrived: what is too old is gone, and the activity is
    there if it has enough primitives. -/
def buffered (m : BurstFinder) (a : Activity) : List Activity :=
  m.kept a.timeStart ++ if m.hitThreshold < a.inputs.length then [a] else []

/-- The candidate that a burst becomes when an activity completes it. -/
def candidate (m : BurstFinder) (a : Activity) (burst : List Activity) : Candidate :=
  { Candidate.ofActivities burst .supernova .supernova with
    timeStart := m.horizon a.timeStart
    timeEnd := a.timeEnd
    timeCandidate := a.timeStart
    detid := Candidate.wholeDetector }

/-- What is said of activities that became too old. -/
def expiredNotices (m : BurstFinder) (now : Ticks) : List Notice :=
  let count := m.buffer.length - (m.kept now).length
  if count = 0 then [] else [.expired name count (m.horizon now).toInt]

/-- Takes one activity. -/
def process (m : BurstFinder) (a : Activity) : Step BurstFinder Candidate :=
  let statistics := m.statistics.hear
  let expired := m.expiredNotices a.timeStart
  let buffer := m.buffered a
  if m.activityThreshold < buffer.length then
    let output := m.candidate a buffer
    { maker := { m with buffer := [], statistics := (statistics.fire none).emit }
      outputs := [output]
      notices := expired ++
        [.burst name buffer.length output.regions.length a.timeStart.toInt] }
  else
    { maker := { m with buffer, statistics }, notices := expired }

/-- Ends the stream. -/
def flush (m : BurstFinder) : Step BurstFinder Candidate where
  maker := { m with buffer := [] }
  notices := if m.buffer.isEmpty then [] else [.leftOver name m.buffer.length]

instance : Maker BurstFinder Activity Candidate where
  name _ := name
  statistics m := m.statistics
  configure m s := do
    s.acceptFor name m.statistics
    return ({ window := s.windowLength, activityThreshold := s.activityThreshold,
              hitThreshold := s.hitThreshold }, [])
  process m a := .ok (m.process a)
  flush m := .ok m.flush

end BurstFinder

end TriggerChain
