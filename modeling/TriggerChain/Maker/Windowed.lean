import TriggerChain.Maker.Policy

/-!
# Windowed makers

An empty window is seeded with the input. An input that fits the window is added. An
input that does not fit lets the policy look at the window: if it fires, the output is
made and the window starts over with the input; if not, the window slides on. Of the
triggers that fire, the first and then every `prescale`-th become outputs.
-/

namespace TriggerChain

/-- A maker that keeps a window. -/
structure Windowed (π τ : Type) where
  /-- The decisions. -/
  policy : π
  /-- The window. -/
  window : Window τ := {}
  /-- The counters. -/
  statistics : Statistics := {}

namespace Windowed

variable {π τ ο : Type} [Element τ] [Policy π τ ο]

/-- What becomes of a trigger. -/
structure Emission (ο : Type) where
  /-- The counters after the trigger. -/
  statistics : Statistics
  /-- The output, unless the trigger was dropped. -/
  output : Option ο := none
  /-- What a sink is told. -/
  events : Except Fault (List Event) := .ok []
  /-- What is said. -/
  notices : List Notice := []

/-- The call that leaves the maker `m`, apart from its counters, and the emission. -/
def Emission.step (e : Emission ο) (m : Windowed π τ) : Step (Windowed π τ) ο where
  maker := { m with statistics := e.statistics }
  outputs := e.output.toList
  events := e.events
  notices := e.notices

/-- What a sink is told of a window that became an output. -/
def eventsOf (m : Windowed π τ) (fired : Fired) : Except Fault (List Event) := do
  let record ← m.window.record (Policy.name m.policy) fired.adjacency
  return .window record :: (fired.track.map Event.track).toList

/-- What is said of a window that became an output. -/
def noticeOf (m : Windowed π τ) (fired : Fired) : Notice :=
  .fired (Policy.name m.policy) fired.reason.name m.window.timeStart.toInt
    m.window.adcIntegral.toNat m.window.channelsHit m.window.size

/-- Counts a trigger and, unless the prescale drops it, makes its output. -/
def emit (m : Windowed π τ) (fired : Fired) : Except Fault (Emission ο) := do
  let statistics := m.statistics.fire fired.adjacency
  -- The triggers before this one are counted, so the first one always passes.
  if m.statistics.fired % max (Policy.settings m.policy).prescale 1 ≠ 0 then
    let notice := .prescaledAway (Policy.name m.policy) fired.reason.name
    return { statistics := statistics.drop, notices := [notice] }
  match ← Policy.construct m.policy m.window with
  | none => return { statistics }
  | some output =>
    return {
      statistics := statistics.emit
      output := some output
      events := m.eventsOf fired
      notices := [m.noticeOf fired] }

/-- Takes one input. -/
def process (m : Windowed π τ) (x : τ) : Except Fault (Step (Windowed π τ) ο) := do
  let m := { m with statistics := m.statistics.hear }
  let length := (Policy.settings m.policy).windowLength
  if m.window.isEmpty then
    -- A passed input is a window of its own, gone once its output is made.
    let m := { m with window := ← Window.reset x }
    if Policy.passthrough m.policy then
      let emission ← m.emit { reason := .passthrough }
      return emission.step { m with window := .empty }
    else
      return { maker := m }
  else if m.window.admits (Element.timeStart x) length then
    return { maker := { m with window := ← m.window.add x } }
  else
    -- The window is looked at as it was before the input.
    match Policy.evaluate m.policy m.window x with
    | some fired =>
      -- A trigger that the prescale drops starts the window over like any other.
      let emission ← m.emit fired
      return emission.step { m with window := ← Window.reset x }
    | none =>
      return {
        maker := { m with window := ← m.window.slide x length }
        notices := Policy.remarks m.policy m.window }

/-- Ends the stream: the window that is left may fire once more, and is gone. -/
def flush (m : Windowed π τ) : Except Fault (Step (Windowed π τ) ο) := do
  let cleared := { m with window := .empty }
  if m.window.isEmpty then return { maker := m }
  match Policy.evaluateFlush m.policy m.window with
  | none => return { maker := cleared }
  | some fired =>
    let emission ← m.emit fired
    return emission.step cleared

instance : Maker (Windowed π τ) τ ο where
  name m := Policy.name m.policy
  statistics m := m.statistics
  configure m s := do
    s.acceptFor (Policy.name m.policy) m.statistics
    return ({ m with policy := Policy.adopt m.policy s }, Policy.warnings m.policy s)
  heard m x := Policy.heard m.policy x
  process := process
  flush := flush

end Windowed

end TriggerChain
