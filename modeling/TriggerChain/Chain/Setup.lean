import TriggerChain.Chain.Basic
import TriggerChain.Maker.Registry

/-!
# Setting up chains

A chain is set up from the names of two registered makers and the JSON objects that
configure them. Where several partitions are run, each has makers of its own.
-/

namespace TriggerChain

/-- The makers of a chain and what configures them. -/
structure ChainSetup where
  /-- The name of the activity maker. -/
  activityMaker : String := ActivityMakerKind.horizontalMuon.name
  /-- The settings of the activity maker. -/
  activityConfig : Json := .object []
  /-- The name of the candidate maker. -/
  candidateMaker : String := CandidateMakerKind.horizontalMuon.name
  /-- The settings of the candidate maker. -/
  candidateConfig : Json := .object []
  deriving Repr, Inhabited

namespace ChainSetup

/-- Two makers that have just been built, and what they said. -/
structure Built where
  /-- The activity maker. -/
  activityMaker : ActivityMaker
  /-- The candidate maker. -/
  candidateMaker : CandidateMaker
  /-- What was said while they were built. -/
  notices : List Notice

/-- Builds the makers of a chain, the activity maker first. -/
def build (setup : ChainSetup) (registry : Registry) : Except SettingsError Built := do
  let (activityMaker, said) ← registry.buildActivity setup.activityMaker setup.activityConfig
  let (candidateMaker, also) ←
    registry.buildCandidate setup.candidateMaker setup.candidateConfig
  return { activityMaker, candidateMaker, notices := said ++ also }

/-- Runs the chain over some primitives, without sinks. -/
def Built.run (built : Built) (primitives : List Primitive) :
    ChainRun ActivityMaker CandidateMaker (Chain ActivityMaker CandidateMaker) :=
  Chain.run built.activityMaker built.candidateMaker primitives

end ChainSetup

end TriggerChain
