import TriggerChain.Adjacency.Tolerance
import TriggerChain.Ticks

/-!
# Settings

The options of all makers in one record; each maker reads the part that it understands.
The defaults are those of the activity level, `Settings.forCandidates` gives those of the
candidate level.
-/

namespace TriggerChain

/-- The options of a maker. -/
structure Settings where
  /-- Fire when the summed charge of a window exceeds `adcThreshold`. -/
  triggerOnAdc : Bool := false
  /-- Fire when the number of distinct channels exceeds `channelsThreshold`. -/
  triggerOnChannels : Bool := false
  /-- Fire when the longest adjacent run exceeds `adjacencyThreshold`. -/
  triggerOnAdjacency : Bool := true
  /-- Fire when the time over threshold of the incoming primitive exceeds
      `totThreshold`. -/
  triggerOnTot : Bool := false
  /-- The threshold on the summed charge. -/
  adcThreshold : Nat := 3000000
  /-- The threshold on the number of distinct channels. -/
  channelsThreshold : Nat := 400
  /-- The threshold on the longest adjacent run. -/
  adjacencyThreshold : Nat := 15
  /-- The tolerance budget of an adjacent run. -/
  adjacencyTolerance : Nat := 3
  /-- What a bridged gap costs; each maker has a rule of its own where none is set. -/
  toleranceRule : Option ToleranceRule := none
  /-- The threshold on the time over threshold, in ticks. -/
  totThreshold : Nat := 5000
  /-- The length of a window. -/
  windowLength : Ticks := 8000
  /-- One trigger in `prescale` is emitted. -/
  prescale : Nat := 1
  /-- The number of activities in a bundle. -/
  bundleSize : Nat := 1
  /-- A burst needs more activities than this. -/
  activityThreshold : Nat := 6
  /-- An activity counts towards a burst if it has more primitives than this. -/
  hitThreshold : Nat := 3
  /-- How far the interval to read out reaches back. -/
  readoutBefore : Ticks := 0
  /-- How far the interval to read out reaches on. -/
  readoutAfter : Ticks := 0
  /-- Report every incoming primitive. -/
  reportInputs : Bool := false
  deriving DecidableEq, Repr, Inhabited

namespace Settings

/-- The defaults of the candidate level: no condition is enabled, so every activity
    becomes a candidate; the window is wider and the thresholds differ. -/
def forCandidates : Settings where
  triggerOnAdjacency := false
  adcThreshold := 1200000
  channelsThreshold := 600
  windowLength := 80000

/-! ## Changes -/

/-- Disables every condition. -/
def withoutTriggers (s : Settings) : Settings :=
  { s with
    triggerOnAdc := false
    triggerOnChannels := false
    triggerOnAdjacency := false
    triggerOnTot := false }

/-- Enables the condition on the summed charge. -/
def withAdcTrigger (s : Settings) (threshold : Nat) : Settings :=
  { s with triggerOnAdc := true, adcThreshold := threshold }

/-- Enables the condition on the number of channels. -/
def withChannelsTrigger (s : Settings) (threshold : Nat) : Settings :=
  { s with triggerOnChannels := true, channelsThreshold := threshold }

/-- Enables the condition on the longest adjacent run. -/
def withAdjacencyTrigger (s : Settings) (threshold tolerance : Nat) : Settings :=
  { s with
    triggerOnAdjacency := true
    adjacencyThreshold := threshold
    adjacencyTolerance := tolerance }

/-- Enables the condition on the time over threshold. -/
def withTotTrigger (s : Settings) (threshold : Nat) : Settings :=
  { s with triggerOnTot := true, totThreshold := threshold }

/-- Sets what a burst needs. -/
def withBurst (s : Settings) (activities hits : Nat) : Settings :=
  { s with activityThreshold := activities, hitThreshold := hits }

/-- Sets how far the interval to read out reaches. -/
def withReadout (s : Settings) (before after : Ticks) : Settings :=
  { s with readoutBefore := before, readoutAfter := after }

/-! ## Views -/

/-- The names of the enabled conditions, in the order in which they are looked at. -/
def enabledTriggers (s : Settings) : List String :=
  [(s.triggerOnAdc, "trigger_on_adc"), (s.triggerOnChannels, "trigger_on_n_channels"),
    (s.triggerOnAdjacency, "trigger_on_adjacency"), (s.triggerOnTot, "trigger_on_tot")]
    |>.filterMap fun (enabled, name) => if enabled then some name else none

end Settings

end TriggerChain
