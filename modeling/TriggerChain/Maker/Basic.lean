import TriggerChain.Event.Basic
import TriggerChain.Event.Notice
import TriggerChain.Record.Candidate
import TriggerChain.Settings.Rejection

/-!
# Makers

A maker is a state machine that takes inputs one at a time and now and then gives an
output: an activity maker takes primitives and gives activities, a candidate maker takes
activities and gives candidates. At the end of a stream it is flushed.

A call returns the next state with the outputs of the call, what it says, and what a sink
would be told; or a fault, if the arithmetic of the call does not fit its words.
-/

namespace TriggerChain

/-! ## Statistics -/

/-- The counters of a maker. -/
structure Statistics where
  /-- The inputs processed. -/
  inputs : Nat := 0
  /-- The triggers that fired, those dropped by the prescale included. -/
  fired : Nat := 0
  /-- The outputs emitted. -/
  emitted : Nat := 0
  /-- The triggers dropped by the prescale. -/
  prescaled : Nat := 0
  /-- The longest adjacent run that a trigger measured. -/
  maxAdjacency : Nat := 0
  deriving DecidableEq, Repr, Inhabited

namespace Statistics

/-- One input more. -/
def hear (s : Statistics) : Statistics := { s with inputs := s.inputs + 1 }

/-- One trigger more, with the adjacency that it measured. -/
def fire (s : Statistics) (adjacency : Option Nat) : Statistics :=
  { s with fired := s.fired + 1, maxAdjacency := max s.maxAdjacency (adjacency.getD 0) }

/-- One output more. -/
def emit (s : Statistics) : Statistics := { s with emitted := s.emitted + 1 }

/-- One trigger dropped. -/
def drop (s : Statistics) : Statistics := { s with prescaled := s.prescaled + 1 }

end Statistics

/-! ## Calls -/

/-- What a call on a maker returns. -/
structure Step (μ ο : Type) where
  /-- The maker after the call. -/
  maker : μ
  /-- The outputs of the call, in order. -/
  outputs : List ο := []
  /-- What a sink is told of the call, or the fault met while it is put together. -/
  events : Except Fault (List Event) := .ok []
  /-- What the maker says. -/
  notices : List Notice := []

/-- The same call, seen as one on a maker that contains the maker. -/
def Step.mapMaker {μ ν ο : Type} (f : μ → ν) (s : Step μ ο) : Step ν ο :=
  { maker := f s.maker, outputs := s.outputs, events := s.events, notices := s.notices }

/-- A maker of outputs `ο` from inputs `ι`. -/
class Maker (μ : Type) (ι ο : outParam Type) where
  /-- The name of the maker. -/
  name : μ → String
  /-- The counters. -/
  statistics : μ → Statistics
  /-- The maker with other settings, unless they are out of range or inputs were already
      processed; with it, what the maker says. -/
  configure : μ → Settings → Except SettingsError (μ × List Notice)
  /-- What a sink is told of an arriving input, before it is processed. -/
  heard : μ → ι → List Event := fun _ _ => []
  /-- Takes one input. -/
  process : μ → ι → Except Fault (Step μ ο)
  /-- Ends the stream. -/
  flush : μ → Except Fault (Step μ ο)
  /-- The maker as a faulting call on an input leaves it. -/
  leftBy : μ → ι → μ := fun m _ => m

/-- Settings are taken only before the first input, and only if they are in range. -/
def Settings.acceptFor (s : Settings) (maker : String) (stats : Statistics) :
    Except SettingsError Unit :=
  if 0 < stats.inputs then .error (.locked maker stats.inputs) else s.validate

end TriggerChain
