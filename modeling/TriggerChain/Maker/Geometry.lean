import TriggerChain.Maker.Windowed

/-!
# The geometry of a window of primitives

A window of primitives fires on its summed charge, on the number of its channels, on its
longest adjacent run, or on the time over threshold of the primitive that did not fit it,
in this order. A variant of the policy looks at the charge alone, whatever its settings
enable.
-/

namespace TriggerChain

/-- The geometric conditions on a window of primitives. -/
structure Geometry where
  /-- The settings in use. -/
  settings : Settings := {}
  /-- Whether only the summed charge is looked at. -/
  chargeOnly : Bool := false
  deriving DecidableEq, Repr, Inhabited

namespace Geometry

/-- The same conditions with other settings. -/
def adopt (g : Geometry) (s : Settings) : Geometry :=
  let settings := if g.chargeOnly then { s.withoutTriggers with triggerOnAdc := true } else s
  { g with settings }

/-- The conditions of horizontal tracks. -/
def horizontal (s : Settings) : Geometry := adopt {} s

/-- The condition on the charge alone. -/
def charge (s : Settings) : Geometry := adopt { chargeOnly := true } s

/-- The algorithm of the activities. -/
def algorithm (g : Geometry) : ActivityAlgorithm :=
  if g.chargeOnly then .adcSimpleWindow else .horizontalMuon

/-- The name of the maker is that of its algorithm. -/
def name (g : Geometry) : String := g.algorithm.name

/-- The longest adjacent run in a window. -/
def adjacency (g : Geometry) (w : Window Primitive) : Nat :=
  (g.settings.scanner .gapWidth).longestRun (w.inputs.map (·.channel))

/-- Looks at the longest adjacent run. -/
def evaluateAdjacency (g : Geometry) (w : Window Primitive) : Option Fired :=
  if g.settings.triggerOnAdjacency ∧ g.settings.adjacencyThreshold < g.adjacency w then
    some { reason := .adjacency, adjacency := some (g.adjacency w) }
  else none

/-- Looks at the time over threshold of an incoming primitive. -/
def evaluateTot (g : Geometry) (incoming : Primitive) : Option Fired :=
  if g.settings.triggerOnTot ∧
      (g.settings.totThreshold : Int) < incoming.timeOverThreshold.toInt then
    some { reason := .timeOverThreshold }
  else none

/-- Looks at a full window, condition after condition. -/
def evaluate (g : Geometry) (w : Window Primitive) (incoming : Primitive) : Option Fired :=
  (g.settings.aggregates w).or ((g.evaluateAdjacency w).or (g.evaluateTot incoming))

instance : Policy Geometry Primitive Activity where
  name := name
  settings g := g.settings
  adopt := adopt
  warnings g s := (g.adopt s).settings.severalTriggers g.name
  evaluate := evaluate
  evaluateFlush g w := g.settings.aggregates w
  construct g w := w.activity g.algorithm false
  heard g p := g.settings.heardPrimitive g.name p

end Geometry

end TriggerChain
