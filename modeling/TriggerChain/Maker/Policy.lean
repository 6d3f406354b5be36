import TriggerChain.Maker.Basic

/-!
# Trigger policies

A windowed maker keeps the window; its policy decides when the window fires and what is
made of it.
-/

namespace TriggerChain

/-- The condition that fired. -/
inductive TriggerReason where
  /-- The summed charge is above its threshold. -/
  | adcSum
  /-- The number of distinct channels is above its threshold. -/
  | multiplicity
  /-- The longest adjacent run is above its threshold. -/
  | adjacency
  /-- The time over threshold of the incoming primitive is above its threshold. -/
  | timeOverThreshold
  /-- The longest run is above its threshold, and its charge peaks at an end. -/
  | endPeak
  /-- The window is full. -/
  | windowFull
  /-- The input is passed through. -/
  | passthrough
  deriving DecidableEq, Repr, Inhabited

/-- The name of a condition in notices. -/
def TriggerReason.name : TriggerReason → String
  | .adcSum => "adc"
  | .multiplicity => "n_channels"
  | .adjacency => "adjacency"
  | .timeOverThreshold => "tot"
  | .endPeak => "bragg_peak"
  | .windowFull => "window_full"
  | .passthrough => "passthrough"

/-- A trigger, and what was measured on the way. -/
structure Fired where
  /-- The condition that fired. -/
  reason : TriggerReason
  /-- The longest adjacent run, if it was measured. -/
  adjacency : Option Nat := none
  /-- The track that was examined, if one was. -/
  track : Option TrackRecord := none

/-- The decisions of a windowed maker over windows of `τ` that gives outputs `ο`. -/
class Policy (π : Type) (τ ο : outParam Type) where
  /-- The name of the maker. -/
  name : π → String
  /-- The settings in use. -/
  settings : π → Settings
  /-- The policy with other settings. -/
  adopt : π → Settings → π
  /-- What is said of settings that have been taken. -/
  warnings : π → Settings → List Notice
  /-- Whether every input is passed through on arrival. -/
  passthrough : π → Bool := fun _ => false
  /-- Looks at a full window before an input that does not fit it. -/
  evaluate : π → Window τ → τ → Option Fired
  /-- What is said of a full window that does not fire. -/
  remarks : π → Window τ → List Notice := fun _ _ => []
  /-- Looks at the window that is left when the stream ends. -/
  evaluateFlush : π → Window τ → Option Fired
  /-- What is made of a window; nothing of an empty one. -/
  construct : π → Window τ → Except Fault (Option ο)
  /-- What a sink is told of an arriving input. -/
  heard : π → τ → List Event := fun _ _ => []

/-! ## Shared conditions -/

/-- The conditions on the aggregates of a window: first the charge, then the channels. -/
def Settings.aggregates (s : Settings) {τ : Type} (w : Window τ) : Option Fired :=
  if s.triggerOnAdc ∧ s.adcThreshold < w.adcIntegral.toNat then some { reason := .adcSum }
  else if s.triggerOnChannels ∧ s.channelsThreshold < w.channelsHit then
    some { reason := .multiplicity }
  else none

/-- The scanner that the settings ask for. -/
def Settings.scanner (s : Settings) (standard : ToleranceRule) : Scanner where
  tolerance := s.adjacencyTolerance
  rule := s.toleranceRule.getD standard

/-- A warning where more than one condition is enabled. -/
def Settings.severalTriggers (s : Settings) (maker : String) : List Notice :=
  if 1 < s.enabledTriggers.length then [.severalTriggers maker s.enabledTriggers] else []

/-- What a sink is told of an arriving primitive, if inputs are to be reported. -/
def Settings.heardPrimitive (s : Settings) (maker : String) (p : Primitive) : List Event :=
  if s.reportInputs then [.primitive maker p] else []

/-! ## Activities from windows -/

/-- The highest of some primitives after a first one; of equally high ones the first. -/
def highestFrom (first : Primitive) (rest : List Primitive) : Primitive :=
  rest.foldl (fun best p => if best.adcPeak < p.adcPeak then p else best) first

/-- The activity that a window of primitives becomes. With `endIncludesTot` it lasts until
    the last primitive is below threshold again, otherwise until that primitive begins. -/
def Window.activity (w : Window Primitive) (algorithm : ActivityAlgorithm)
    (endIncludesTot : Bool) : Except Fault (Option Activity) :=
  match w.inputs with
  | [] => .ok none
  | first :: rest => do
    let last := rest.getLastD first
    let peak := highestFrom first rest
    let timeEnd ← if endIncludesTot then last.timeEnd else .ok last.timeStart
    return some {
      timeStart := w.timeStart
      timeEnd
      timePeak := peak.timePeak
      timeActivity := peak.timePeak
      channelStart := first.channel
      channelEnd := last.channel
      channelPeak := peak.channel
      adcIntegral := w.adcIntegral
      adcPeak := peak.adcPeak
      detid := last.detid
      kind := .tpc
      algorithm
      inputs := w.inputs }

end TriggerChain
