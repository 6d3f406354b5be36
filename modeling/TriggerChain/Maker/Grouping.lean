import TriggerChain.Maker.Windowed

/-!
# Grouping activities in time

Activities that begin within one window length are grouped into one candidate, if the
window fires on its summed charge or its number of channels, or on every full window where
adjacency is enabled. With none of these enabled each activity becomes a candidate on its
own. The interval to read out reaches from before the first activity to after the end of
the last primitive of the last activity.
-/

namespace TriggerChain

/-- The conditions on a window of activities. -/
structure Grouping where
  /-- The settings in use. -/
  settings : Settings := Settings.forCandidates
  deriving DecidableEq, Repr, Inhabited

namespace Grouping

/-- The name of the maker is that of its algorithm. -/
def name : String := CandidateAlgorithm.horizontalMuon.name

/-- Whether no condition on windows is enabled. -/
def passthrough (g : Grouping) : Bool :=
  !(g.settings.triggerOnAdc || g.settings.triggerOnChannels || g.settings.triggerOnAdjacency)

/-- Looks at the aggregates of a full window; with adjacency enabled every full window
    fires. -/
def evaluate (g : Grouping) (w : Window Activity) : Option Fired :=
  (g.settings.aggregates w).or
    (if g.settings.triggerOnAdjacency then some { reason := .windowFull } else none)

/-- When the last primitive of an activity is below threshold again; of an activity
    without primitives, when it ended. -/
def endOf (a : Activity) : Except Fault Ticks :=
  match a.inputs.getLast? with
  | none => .ok a.timeEnd
  | some p => p.timeEnd

/-- The candidate that a window becomes. -/
def construct (g : Grouping) (w : Window Activity) : Except Fault (Option Candidate) :=
  match w.inputs.getLast? with
  | none => .ok none
  | some last => do
    let lastEnd ← endOf last
    let timeStart ← w.timeStart.minus g.settings.readoutBefore
    let timeEnd ← lastEnd.plus g.settings.readoutAfter
    return some {
      Candidate.ofActivities w.inputs .horizontalMuon .horizontalMuon with
      timeStart
      timeEnd
      timeCandidate := w.timeStart }

instance : Policy Grouping Activity Candidate where
  name _ := name
  settings g := g.settings
  adopt _ s := ⟨s⟩
  warnings _ s := s.severalTriggers name
  passthrough := passthrough
  evaluate g w _ := g.evaluate w
  evaluateFlush g w := g.settings.aggregates w
  construct := construct

end Grouping

end TriggerChain
