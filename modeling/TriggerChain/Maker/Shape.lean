import TriggerChain.Maker.Windowed

/-!
# The shape of stopping tracks

A window of primitives fires if its longest adjacent run is above the threshold and the
charge along the run peaks at an end, as it does where a particle stops. The activity
lasts until its last primitive is below threshold again.
-/

namespace TriggerChain

/-- The condition on the charge along the longest run. -/
structure Shape where
  /-- The settings in use. -/
  settings : Settings := {}
  deriving DecidableEq, Repr, Inhabited

namespace Shape

/-- The name of the maker is that of its algorithm. -/
def name : String := ActivityAlgorithm.michelElectron.name

/-- The test of the charge, with the scanner that the settings ask for. -/
def test (p : Shape) : ProfileTest := { scanner := p.settings.scanner .missingWires }

/-- The longest adjacent run in a window. -/
def adjacency (p : Shape) (w : Window Primitive) : Nat :=
  p.test.scanner.longestRun (w.inputs.map (·.channel))

/-- Whether the longest run of a window is above the threshold. -/
def isLong (p : Shape) (w : Window Primitive) : Bool :=
  p.settings.triggerOnAdjacency && decide (p.settings.adjacencyThreshold < p.adjacency w)

/-- Looks at the length of the longest run, then at its charge. -/
def evaluate (p : Shape) (w : Window Primitive) : Option Fired :=
  if p.isLong w then
    let profile := p.test.run w.inputs
    if profile.endPeaked then
      some {
        reason := .endPeak
        adjacency := some (p.adjacency w)
        track := some (profile.record name p.test.widths) }
    else none
  else none

/-- A run that is long enough and does not fire is remarked on. -/
def remarks (p : Shape) (w : Window Primitive) : List Notice :=
  if p.isLong w ∧ (p.evaluate w).isNone then [.noEndPeak name (p.adjacency w)] else []

/-- Settings that disable the only condition, or enable several, are warned of. -/
def warnings (s : Settings) : List Notice :=
  (if s.triggerOnAdjacency then [] else [.adjacencyDisabled name]) ++ s.severalTriggers name

instance : Policy Shape Primitive Activity where
  name _ := name
  settings p := p.settings
  adopt _ s := ⟨s⟩
  warnings _ s := warnings s
  evaluate p w _ := p.evaluate w
  remarks := remarks
  evaluateFlush _ _ := none
  construct _ w := w.activity .michelElectron true
  heard p x := p.settings.heardPrimitive name x

end Shape

end TriggerChain
