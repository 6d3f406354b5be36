import TriggerChain.Maker.Bundle
import TriggerChain.Maker.Burst
import TriggerChain.Maker.Geometry
import TriggerChain.Maker.Grouping
import TriggerChain.Maker.Prescale
import TriggerChain.Maker.Shape
import TriggerChain.Settings.Overlay

/-!
# The makers of a chain

The activity makers and the candidate makers, each as one type, and how a maker is built
from the JSON object that configures it: the object is laid over the settings that are
standard for the maker, and the maker takes the outcome.
-/

namespace TriggerChain

/-! ## Activity makers -/

/-- A maker of activities. -/
inductive ActivityMaker where
  | geometry (m : Windowed Geometry Primitive)
  | shape (m : Windowed Shape Primitive)
  | prescale (m : Prescaler Primitive)

namespace ActivityMaker

instance : Maker ActivityMaker Primitive Activity where
  name
    | geometry m => Maker.name m
    | shape m => Maker.name m
    | prescale m => Maker.name m
  statistics
    | geometry m => m.statistics
    | shape m => m.statistics
    | prescale m => m.statistics
  configure
    | geometry m, s => (Maker.configure m s).map fun (m, said) => (geometry m, said)
    | shape m, s => (Maker.configure m s).map fun (m, said) => (shape m, said)
    | prescale m, s => (Maker.configure m s).map fun (m, said) => (prescale m, said)
  heard
    | geometry m, x => Maker.heard m x
    | shape m, x => Maker.heard m x
    | prescale m, x => Maker.heard m x
  process
    | geometry m, x => (Maker.process m x).map (Step.mapMaker geometry)
    | shape m, x => (Maker.process m x).map (Step.mapMaker shape)
    | prescale m, x => (Maker.process m x).map (Step.mapMaker prescale)
  flush
    | geometry m => (Maker.flush m).map (Step.mapMaker geometry)
    | shape m => (Maker.flush m).map (Step.mapMaker shape)
    | prescale m => (Maker.flush m).map (Step.mapMaker prescale)

end ActivityMaker

/-- The kinds of activity makers. -/
inductive ActivityMakerKind where
  | adcSimpleWindow
  | horizontalMuon
  | michelElectron
  | prescale
  deriving DecidableEq, Repr, Inhabited

namespace ActivityMakerKind

/-- Every kind. -/
def all : List ActivityMakerKind := [adcSimpleWindow, horizontalMuon, michelElectron, prescale]

/-- The name of a kind. -/
def name : ActivityMakerKind → String
  | adcSimpleWindow => ActivityAlgorithm.adcSimpleWindow.name
  | horizontalMuon => ActivityAlgorithm.horizontalMuon.name
  | michelElectron => ActivityAlgorithm.michelElectron.name
  | prescale => ActivityAlgorithm.prescale.name

/-- A maker of a kind with its standard settings. -/
def fresh : ActivityMakerKind → ActivityMaker
  | adcSimpleWindow => .geometry { policy := .charge {} }
  | horizontalMuon => .geometry { policy := .horizontal {} }
  | michelElectron => .shape { policy := {} }
  | prescale => .prescale {}

/-- Builds a maker from its JSON settings. -/
def build (kind : ActivityMakerKind) (config : Json) :
    Except SettingsError (ActivityMaker × List Notice) := do
  Maker.configure kind.fresh (← Settings.overlay {} config)

end ActivityMakerKind

/-! ## Candidate makers -/

/-- A maker of candidates. -/
inductive CandidateMaker where
  | grouping (m : Windowed Grouping Activity)
  | prescale (m : Prescaler Activity)
  | bundle (m : Bundler)
  | burst (m : BurstFinder)

namespace CandidateMaker

instance : Maker CandidateMaker Activity Candidate where
  name
    | grouping m => Maker.name m
    | prescale m => Maker.name m
    | bundle m => Maker.name m
    | burst m => Maker.name m
  statistics
    | grouping m => m.statistics
    | prescale m => m.statistics
    | bundle m => m.statistics
    | burst m => m.statistics
  configure
    | grouping m, s => (Maker.configure m s).map fun (m, said) => (grouping m, said)
    | prescale m, s => (Maker.configure m s).map fun (m, said) => (prescale m, said)
    | bundle m, s => (Maker.configure m s).map fun (m, said) => (bundle m, said)
    | burst m, s => (Maker.configure m s).map fun (m, said) => (burst m, said)
  heard
    | grouping m, x => Maker.heard m x
    | prescale m, x => Maker.heard m x
    | bundle m, x => Maker.heard m x
    | burst m, x => Maker.heard m x
  process
    | grouping m, x => (Maker.process m x).map (Step.mapMaker grouping)
    | prescale m, x => (Maker.process m x).map (Step.mapMaker prescale)
    | bundle m, x => (Maker.process m x).map (Step.mapMaker bundle)
    | burst m, x => (Maker.process m x).map (Step.mapMaker burst)
  flush
    | grouping m => (Maker.flush m).map (Step.mapMaker grouping)
    | prescale m => (Maker.flush m).map (Step.mapMaker prescale)
    | bundle m => (Maker.flush m).map (Step.mapMaker bundle)
    | burst m => (Maker.flush m).map (Step.mapMaker burst)

/-- The bytes of memory that a maker asks for when it is made. Only bundlers ask for any. -/
def bytesAsked : CandidateMaker → Nat
  | bundle m => Bundler.bundleBytes m.bundleSize
  | _ => 0

end CandidateMaker

/-- The kinds of candidate makers. -/
inductive CandidateMakerKind where
  | bundle
  | horizontalMuon
  | prescale
  | supernova
  deriving DecidableEq, Repr, Inhabited

namespace CandidateMakerKind

/-- Every kind. -/
def all : List CandidateMakerKind := [bundle, horizontalMuon, prescale, supernova]

/-- The name of a kind. -/
def name : CandidateMakerKind → String
  | bundle => Bundler.name
  | horizontalMuon => Grouping.name
  | prescale => Prescaler.name
  | supernova => BurstFinder.name

/-- A maker of a kind with its standard settings. -/
def fresh : CandidateMakerKind → CandidateMaker
  | bundle => .bundle {}
  | horizontalMuon => .grouping { policy := {} }
  | prescale => .prescale {}
  | supernova => .burst {}

/-- The settings that are standard for a kind; bursts have a window of their own. -/
def standard : CandidateMakerKind → Settings
  | supernova =>
    { Settings.forCandidates with windowLength := ({} : BurstFinder).window }
  | _ => Settings.forCandidates

/-- Builds a maker from its JSON settings. -/
def build (kind : CandidateMakerKind) (config : Json) :
    Except SettingsError (CandidateMaker × List Notice) := do
  Maker.configure kind.fresh (← kind.standard.overlay config)

end CandidateMakerKind

end TriggerChain
