import TriggerChain.Maker.Basic

/-!
# Chains

A chain hands every primitive to an activity maker, and every activity that comes out of
it to a candidate maker at once. When the primitives are over the activity maker is
flushed, its last activities are handed on, and the candidate maker is flushed.
-/

namespace TriggerChain

/-- A chain in the middle of a stream. -/
structure Chain (α κ : Type) where
  /-- The activity maker. -/
  activityMaker : α
  /-- The candidate maker. -/
  candidateMaker : κ
  /-- The activities so far. -/
  activities : Array Activity := #[]
  /-- The candidates so far. -/
  candidates : Array Candidate := #[]
  /-- What was said so far. -/
  notices : Array Notice := #[]

/-- Calls on a chain: each gives a value, or a fault with the chain as the fault left it. -/
abbrev ChainRun (α κ : Type) := Except (Fault × Chain α κ)

namespace Chain

variable {α κ : Type}

/-- The chain after a call on its candidate maker. -/
def addCandidates (c : Chain α κ) (step : Step κ Candidate) : Chain α κ :=
  { c with
    candidateMaker := step.maker
    candidates := c.candidates ++ step.outputs
    notices := c.notices ++ step.notices }

/-- The chain after a call on its activity maker. -/
def addActivities (c : Chain α κ) (step : Step α Activity) : Chain α κ :=
  { c with
    activityMaker := step.maker
    activities := c.activities ++ step.outputs
    notices := c.notices ++ step.notices }

variable [Maker α Primitive Activity] [Maker κ Activity Candidate]

/-- Hands an activity to the candidate maker. -/
def feed (c : Chain α κ) (a : Activity) : ChainRun α κ (Chain α κ) :=
  match Maker.process c.candidateMaker a with
  | .ok step => .ok (c.addCandidates step)
  | .error fault => .error (fault, { c with candidateMaker := Maker.leftBy c.candidateMaker a })

/-- Hands the activities of a call on the activity maker to the candidate maker. -/
def handOn (c : Chain α κ) (step : Step α Activity) : ChainRun α κ (Chain α κ) :=
  step.outputs.foldlM feed (c.addActivities step)

/-- Takes a primitive. -/
def take (c : Chain α κ) (p : Primitive) : ChainRun α κ (Chain α κ) :=
  match Maker.process c.activityMaker p with
  | .ok step => c.handOn step
  | .error fault => .error (fault, { c with activityMaker := Maker.leftBy c.activityMaker p })

/-- Flushes the activity maker. -/
def flushActivities (c : Chain α κ) : ChainRun α κ (Chain α κ) :=
  match Maker.flush c.activityMaker with
  | .ok step => c.handOn step
  | .error fault => .error (fault, c)

/-- Flushes the candidate maker. -/
def flushCandidates (c : Chain α κ) : ChainRun α κ (Chain α κ) :=
  match Maker.flush c.candidateMaker with
  | .ok step => .ok (c.addCandidates step)
  | .error fault => .error (fault, c)

/-- What is said of a chain that has run over a number of primitives. -/
def summary (c : Chain α κ) (primitives : Nat) : Notice :=
  .chain (Maker.name c.activityMaker) (Maker.name c.candidateMaker) primitives
    c.activities.size c.candidates.size

/-- Runs a chain of two makers over primitives. -/
def run (activityMaker : α) (candidateMaker : κ) (primitives : List Primitive) :
    ChainRun α κ (Chain α κ) := do
  let c ← primitives.foldlM take { activityMaker, candidateMaker }
  -- The last activities reach the candidate maker before it is flushed itself.
  let c ← c.flushActivities
  let c ← c.flushCandidates
  return { c with notices := c.notices.push (c.summary primitives.length) }

end Chain

end TriggerChain
