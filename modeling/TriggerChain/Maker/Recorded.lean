import TriggerChain.Event.Tables
import TriggerChain.Maker.Basic

/-!
# Makers with a sink

A sink may be attached to a maker. It is told of every input that is to be reported before
the input is processed, and of what the call brought afterwards. A fault ends the call,
but what the sink was told before stays there.

Main statement: `Recorded.call_none` says that without a sink a call is the call on the
maker and nothing else.
-/

namespace TriggerChain

/-- Hands events to a sink until one of them faults. -/
def Sink.recordAll (s : Sink) : List Event → Sink × Except Fault Unit
  | [] => (s, .ok ())
  | e :: rest =>
    match s.record e with
    | .ok s => s.recordAll rest
    | .error fault => (s, .error fault)

/-- What a maker says when its sink is told of an event before a call. -/
def Event.notice? : Event → Option Notice
  | .primitive maker p =>
    some (.input maker p.channel.toNat p.timeStart.toInt p.timeOverThreshold.toInt
      p.adcIntegral.toNat)
  | _ => none

/-- A maker with a sink, if one is attached. -/
structure Recorded (μ : Type) where
  /-- The maker. -/
  maker : μ
  /-- The sink. -/
  sink : Option Sink := none

namespace Recorded

variable {μ ι ο : Type}

/-- A call with a sink that is told of some events first: the sink afterwards, and what the
    call returns. -/
def callWith (sink : Sink) (heard : List Event) (result : Except Fault (Step μ ο)) :
    Sink × Except Fault (Step (Recorded μ) ο) :=
  let (sink, told) := sink.recordAll heard
  match told, result with
  | .error fault, _ => (sink, .error fault)
  | .ok (), .error fault => (sink, .error fault)
  | .ok (), .ok step =>
    match step.events with
    | .error fault => (sink, .error fault)
    | .ok events =>
      let (sink, told) := sink.recordAll events
      (sink, told.map fun _ =>
        { maker := { maker := step.maker, sink := some sink }
          outputs := step.outputs
          events := .ok (heard ++ events)
          notices := heard.filterMap Event.notice? ++ step.notices })

/-- A call with or without a sink. -/
def call (r : Recorded μ) (heard : List Event) (result : Except Fault (Step μ ο)) :
    Option Sink × Except Fault (Step (Recorded μ) ο) :=
  match r.sink with
  | none => (none, result.map (Step.mapMaker fun maker => { maker }))
  | some sink =>
    let (sink, result) := callWith sink heard result
    (some sink, result)

/-- Without a sink a call is the call on the maker. -/
theorem call_none (m : μ) (heard : List Event) (result : Except Fault (Step μ ο)) :
    (call { maker := m } heard result).2
      = result.map (Step.mapMaker fun maker => { maker }) := rfl

variable [Maker μ ι ο]

/-- Takes one input; also gives the sink afterwards. -/
def process (r : Recorded μ) (x : ι) : Option Sink × Except Fault (Step (Recorded μ) ο) :=
  r.call (Maker.heard r.maker x) (Maker.process r.maker x)

/-- Ends the stream; also gives the sink afterwards. -/
def flush (r : Recorded μ) : Option Sink × Except Fault (Step (Recorded μ) ο) :=
  r.call [] (Maker.flush r.maker)

instance : Maker (Recorded μ) ι ο where
  name r := Maker.name r.maker
  statistics r := Maker.statistics r.maker
  configure r s := do
    let (maker, notices) ← Maker.configure r.maker s
    return ({ r with maker }, notices)
  heard r x := Maker.heard r.maker x
  process r x := (r.process x).2
  flush r := r.flush.2
  leftBy r x := { r with sink := (r.process x).1 }

end Recorded

end TriggerChain
