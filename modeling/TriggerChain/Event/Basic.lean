import TriggerChain.Charge.Track
import TriggerChain.Window.Basic

/-!
# Events

What a maker tells an attached sink: the inputs it was asked to report, the windows that
became outputs, and the tracks that were examined on the way.
-/

namespace TriggerChain

/-- A window that became an output. -/
structure WindowRecord where
  /-- The name of the maker. -/
  maker : String
  /-- When the first element began. -/
  timeStart : Ticks
  /-- When the last element began. -/
  timeEnd : Ticks
  /-- The summed charge. -/
  adcIntegral : Charge
  /-- The number of distinct channels. -/
  channelsHit : Nat
  /-- The number of elements. -/
  size : Nat
  /-- The channel of the first element. -/
  firstChannel : Channel
  /-- The channel of the last element. -/
  lastChannel : Channel
  /-- The longest adjacent run, if it was measured. -/
  adjacency : Option Nat
  /-- The summed time over threshold. -/
  totSum : Ticks
  deriving DecidableEq, Repr, Inhabited

/-- How long the window lasted. -/
def WindowRecord.length (r : WindowRecord) : Except Fault Ticks :=
  r.timeEnd.minus r.timeStart

/-- One hit of a recorded track. -/
structure TrackHitRecord where
  /-- The hit. -/
  hit : TrackHit
  /-- The running means at the hit, one per width. -/
  means : List Float

/-- A track that was examined. -/
structure TrackRecord where
  /-- The name of the maker. -/
  maker : String
  /-- The channel of the first hit. -/
  startChannel : Channel
  /-- The channel of the last hit. -/
  endChannel : Channel
  /-- When the first hit began. -/
  startTime : Ticks
  /-- When the last hit began. -/
  endTime : Ticks
  /-- The widths of the running means. -/
  widths : List Nat
  /-- The hits. -/
  hits : List TrackHitRecord

/-- What a sink is told. -/
inductive Event where
  /-- An input arrived. -/
  | primitive (maker : String) (p : Primitive)
  /-- A window became an output. -/
  | window (record : WindowRecord)
  /-- A track was examined. -/
  | track (record : TrackRecord)

/-! ## Making records -/

/-- The summed time over threshold of some elements, from left to right. -/
def totSumOf {τ : Type} [Element τ] (xs : List τ) : Except Fault Ticks :=
  xs.foldlM (fun sum x => do sum.plus (← Element.totSum x)) 0

/-- The record of a window. -/
def Window.record {τ : Type} [Element τ] (w : Window τ) (maker : String)
    (adjacency : Option Nat) : Except Fault WindowRecord := do
  let totSum ← totSumOf w.inputs
  let leadOf := fun (x : Option τ) => (x.map Element.leadChannel).getD 0
  return {
    maker
    timeStart := w.timeStart
    timeEnd := (w.inputs.getLast?.map Element.timeStart).getD w.timeStart
    adcIntegral := w.adcIntegral
    channelsHit := w.channelsHit
    size := w.size
    firstChannel := leadOf w.inputs.head?
    lastChannel := leadOf w.inputs.getLast?
    adjacency
    totSum }

/-- The means at a position, of the series that reach as far. -/
def meansAt (series : List (Array Float)) (i : Nat) : List Float :=
  series.filterMap fun means => means[i]?

/-- The record of the track of a profile. -/
def ChargeProfile.record (profile : ChargeProfile) (maker : String) (widths : List Nat) :
    TrackRecord :=
  let series := profile.means.map List.toArray
  { maker
    startChannel := (profile.track.head?.map (·.channel)).getD 0
    endChannel := (profile.track.getLast?.map (·.channel)).getD 0
    startTime := (profile.track.head?.map (·.timeStart)).getD 0
    endTime := (profile.track.getLast?.map (·.timeStart)).getD 0
    widths
    hits := profile.track.zipIdx.map fun (hit, i) => ⟨hit, meansAt series i⟩ }

end TriggerChain
