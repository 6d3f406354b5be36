import TriggerChain.Ticks

/-!
# Primitives

A primitive is one hit on one detector channel: when it began, how long it stayed over
threshold, when and how high it peaked, and the charge it left.
-/

namespace TriggerChain

/-- A detector channel. -/
abbrev Channel := UInt32

/-- A detector element. -/
abbrev DetId := UInt16

/-- One hit on one channel. -/
structure Primitive where
  /-- When the hit began. -/
  timeStart : Ticks := 0
  /-- How long the hit stayed over threshold. -/
  timeOverThreshold : Ticks := 0
  /-- When the hit peaked. -/
  timePeak : Ticks := 0
  /-- The channel that was hit. -/
  channel : Channel := 0
  /-- The summed charge of the hit. -/
  adcIntegral : UInt32 := 0
  /-- The largest charge sample of the hit. -/
  adcPeak : UInt32 := 0
  /-- The detector element that holds the channel. -/
  detid : DetId := 0
  /-- A type code, carried along and never looked at. -/
  kind : UInt32 := 0
  deriving DecidableEq, Repr, Inhabited

namespace Primitive

/-- A hit on a channel at a time, with a charge; it peaks where it begins, and all other
    fields are zero. -/
def hit (channel : Channel) (timeStart : Ticks) (adcIntegral : UInt32) : Primitive where
  channel
  timeStart
  timePeak := timeStart
  adcIntegral

/-- When the hit fell below threshold again. -/
def timeEnd (p : Primitive) : Except Fault Ticks :=
  p.timeStart.plus p.timeOverThreshold

end Primitive

end TriggerChain
