import TriggerChain.Record.Primitive

/-!
# Activities

An activity is a cluster of primitives, with the bounds, the peak and the charge of the
cluster beside the primitives themselves.
-/

namespace TriggerChain

/-- The part of the detector that an activity belongs to. -/
inductive ActivityKind where
  | unknown
  | tpc
  | pds
  deriving DecidableEq, Repr, Inhabited

/-- The algorithm that made an activity. -/
inductive ActivityAlgorithm where
  | unknown
  | prescale
  | adcSimpleWindow
  | horizontalMuon
  | michelElectron
  deriving DecidableEq, Repr, Inhabited

/-- The name of an algorithm in tables and messages. -/
def ActivityAlgorithm.name : ActivityAlgorithm → String
  | .unknown => "unknown"
  | .prescale => "prescale"
  | .adcSimpleWindow => "adc_simple_window"
  | .horizontalMuon => "horizontal_muon"
  | .michelElectron => "michel_electron"

/-- A cluster of primitives. -/
structure Activity where
  /-- When the cluster began. -/
  timeStart : Ticks := 0
  /-- When the cluster ended. -/
  timeEnd : Ticks := 0
  /-- When its highest primitive peaked. -/
  timePeak : Ticks := 0
  /-- The time under which the cluster is filed. -/
  timeActivity : Ticks := 0
  /-- The channel of the first primitive. -/
  channelStart : Channel := 0
  /-- The channel of the last primitive. -/
  channelEnd : Channel := 0
  /-- The channel of the highest primitive. -/
  channelPeak : Channel := 0
  /-- The summed charge. -/
  adcIntegral : Charge := 0
  /-- The largest charge sample. -/
  adcPeak : UInt32 := 0
  /-- The detector element of the cluster. -/
  detid : DetId := 0
  /-- The part of the detector. -/
  kind : ActivityKind := .unknown
  /-- The algorithm that made the cluster. -/
  algorithm : ActivityAlgorithm := .unknown
  /-- The version of the record. -/
  version : UInt16 := 0
  /-- The primitives of the cluster, in order. -/
  inputs : List Primitive := []
  deriving DecidableEq, Repr, Inhabited

namespace Activity

/-- The activity that holds one primitive and nothing else. -/
def ofPrimitive (p : Primitive) (algorithm : ActivityAlgorithm) : Except Fault Activity := do
  let timeEnd ← p.timeEnd
  return {
    timeStart := p.timeStart
    timeEnd
    timePeak := p.timePeak
    channelStart := p.channel
    channelEnd := p.channel
    channelPeak := p.channel
    adcIntegral := p.adcIntegral.toUInt64
    adcPeak := p.adcPeak
    detid := p.detid
    kind := .tpc
    algorithm
    inputs := [p] }

/-- The channels of the primitives, one entry per hit. -/
def channels (a : Activity) : List Channel :=
  a.inputs.map (·.channel)

end Activity

end TriggerChain
