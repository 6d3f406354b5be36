import TriggerChain.Adjacency.Scanner
import TriggerChain.Charge.Profile

/-!
# The longest track and its charge

A stopping particle leaves most of its charge at one end of its track. The hits of a
window are put in channel order, the hits of the longest run of adjacent channels form the
track, and the smoothed charge of the track is cut into clusters above its mean. The test
passes if the largest cluster is the first or the last.
-/

namespace TriggerChain

/-! ## Tracks -/

/-- One hit of a track. -/
structure TrackHit where
  /-- The channel. -/
  channel : Channel
  /-- When the hit began. -/
  timeStart : Ticks
  /-- The summed charge of the hit. -/
  adc : UInt32
  deriving DecidableEq, Repr, Inhabited

/-- The hit that a primitive leaves on a track. -/
def TrackHit.ofPrimitive (p : Primitive) : TrackHit :=
  ⟨p.channel, p.timeStart, p.adcIntegral⟩

/-- The state of the search for the longest track. -/
structure TrackSearch where
  /-- The walk over the channels. -/
  walk : Walk := {}
  /-- The hits of the current run, latest first. -/
  current : List TrackHit := []
  /-- The hits of the longest run that has ended, latest first. -/
  longest : List TrackHit := []

/-! ## The test -/

/-- How a charge profile is tested. -/
structure ProfileTest where
  /-- How the longest track is found. -/
  scanner : Scanner := { rule := .missingWires }
  /-- The widths of the running means, in the order of the records. -/
  widths : List Nat := [4, 6, 8, 10, 15]
  /-- The position of the width whose running mean decides. -/
  decision : Nat := 2
  /-- Two hits on one channel that begin fewer ticks apart belong to one track. -/
  sameChannelWindow : Nat := 200
  deriving Repr

/-- What a test of a charge profile found. -/
structure ChargeProfile where
  /-- Whether the largest cluster lies at an end of the track. -/
  endPeaked : Bool
  /-- The number of channels of the longest run. -/
  adjacency : Nat
  /-- The hits of the longest run, in channel order. -/
  track : List TrackHit
  /-- The running means of the charge, one series per width. -/
  means : List (List Float)
  /-- The mean of the deciding series. -/
  baseline : Float
  /-- The charge of each closed run above the baseline. -/
  clusters : List Float
  /-- The position of the largest cluster. -/
  peakCluster : Option Nat

namespace ProfileTest

/-- A test with widths of its own. Zero widths are dropped, and the deciding width is
    added where it is missing. -/
def withWidths (t : ProfileTest) (widths : List Nat) (decision : Nat) : ProfileTest :=
  let kept := widths.filter (0 < ·)
  let kept := if kept.contains decision then kept else kept ++ [decision]
  { t with widths := kept, decision := kept.idxOf decision }

/-- One step of the search. A run begins with the hit that the step leaves. A hit on the
    same channel joins the run if it begins close enough, a hit further on always does. -/
def follow (t : ProfileTest) (search : TrackSearch) (step : TrackHit × TrackHit) :
    TrackSearch :=
  let link := t.scanner.link search.walk step.1.channel step.2.channel
  let walk := t.scanner.follow search.walk link
  -- The step behind the end of a run leaves the first hit of the next one.
  let current := if search.current.isEmpty then [step.1] else search.current
  match link with
  | .same =>
    if step.2.timeStart.distance step.1.timeStart < t.sameChannelWindow
    then { search with walk, current := step.2 :: current }
    else { search with walk, current }
  | .adjacent | .bridged _ => { search with walk, current := step.2 :: current }
  | .ends _ true => { walk, current := [], longest := current }
  | .ends _ false => { search with walk, current := [] }

/-- The hits of some primitives in channel order; hits on one channel keep their order. -/
def hitsInOrder (primitives : List Primitive) : List TrackHit :=
  (primitives.map TrackHit.ofPrimitive).mergeSort
    (fun a b => decide (a.channel ≤ b.channel))

/-- The hits of the longest run, and the number of its channels. -/
def longestTrack (t : ProfileTest) (primitives : List Primitive) : List TrackHit × Nat :=
  let search := (cyclicSteps (hitsInOrder primitives)).foldl t.follow {}
  (search.longest.reverse, search.walk.longest)

/-- Tests the charge profile of the longest track among some primitives. -/
def run (t : ProfileTest) (primitives : List Primitive) : ChargeProfile :=
  let (track, adjacency) := t.longestTrack primitives
  let means := t.widths.map (runningMean (track.map (·.adc)))
  let series := means[t.decision]?.getD []
  let clusters := chargeClusters series
  { endPeaked := peakAtEnd clusters
    adjacency
    track
    means
    baseline := meanOf series
    clusters
    peakCluster := peakOf clusters }

end ProfileTest

end TriggerChain
