import TriggerChain.Maker.Basic

/-!
# Bundles

Activities are collected until there are enough of them for a bundle. Of the bundles, the
first and then every `prescale`-th become candidates. A bundle that is not full when the
stream ends is dropped.

A maker asks for room for a whole bundle. Whether there is as much memory is not up to the
maker but to the machine that a command runs on.
-/

namespace TriggerChain

/-- A maker of bundles. -/
structure Bundler where
  /-- The number of activities in a bundle. -/
  bundleSize : Nat := 1
  /-- How many bundles there are for each output. -/
  prescale : Nat := 1
  /-- The bundles completed. -/
  completed : Nat := 0
  /-- The activities of the bundle that is not full yet, in order. -/
  pending : List Activity := []
  /-- The counters. -/
  statistics : Statistics := {}
  deriving DecidableEq, Repr, Inhabited

namespace Bundler

/-- The name of the maker. -/
def name : String := "bundle_n"

/-- The bytes that an activity takes in a bundle, its primitives not counted. -/
def activityBytes : Nat := 88

/-- The bytes that the activities of a full bundle take. -/
def bundleBytes (bundleSize : Nat) : Nat := bundleSize * activityBytes

/-- The most bytes that a size can count; sizes are words with a sign. -/
def largestSize : Nat := 0x7FFFFFFFFFFFFFFF

/-- A maker of bundles of a size, with a prescale; both are at least one. Room for a bundle
    is asked for when the maker is made, so its bytes have to be counted. -/
def ofSize (bundleSize prescale : Nat) : Except Fault Bundler :=
  if bundleBytes bundleSize ≤ largestSize then
    .ok { bundleSize := max bundleSize 1, prescale := max prescale 1 }
  else .error .bundleTooLarge

/-- A maker is made exactly if the bytes of its bundles can be counted. -/
theorem ofSize_eq_ok_iff {bundleSize prescale : Nat} {m : Bundler} :
    ofSize bundleSize prescale = .ok m ↔ bundleBytes bundleSize ≤ largestSize ∧
      m = { bundleSize := max bundleSize 1, prescale := max prescale 1 } := by
  unfold ofSize
  split
  · next h => simp [h, eq_comm]
  · next h => simp [h]

/-- The candidate that a bundle becomes. It begins with its first activity, ends with its
    last, and is filed under the detector element of the first. -/
def candidate (first : Activity) (rest : List Activity) : Candidate :=
  { Candidate.ofActivities (first :: rest) .bundle .bundle with
    timeStart := first.timeStart
    timeEnd := (rest.getLastD first).timeEnd
    timeCandidate := first.timeStart
    detid := first.detid }

/-- What is said of a bundle that became a candidate. -/
def noticeOf (m : Bundler) (c : Candidate) : Notice :=
  .bundled name m.completed c.inputs.length c.timeStart.toInt c.timeEnd.toInt

/-- Takes one activity. -/
def process (m : Bundler) (a : Activity) : Step Bundler Candidate :=
  let statistics := m.statistics.hear
  let bundle := m.pending ++ [a]
  if bundle.length < m.bundleSize then
    { maker := { m with pending := bundle, statistics } }
  else
    let next := { m with completed := m.completed + 1, pending := [] }
    let statistics := statistics.fire none
    if m.completed % m.prescale ≠ 0 then
      { maker := { next with statistics := statistics.drop } }
    else
      let output := candidate (bundle.headD a) bundle.tail
      { maker := { next with statistics := statistics.emit }
        outputs := [output]
        notices := [m.noticeOf output] }

/-- Ends the stream. -/
def flush (m : Bundler) : Step Bundler Candidate where
  maker := { m with pending := [] }
  notices := if m.pending.isEmpty then [] else [.partialBundle name m.pending.length]

instance : Maker Bundler Activity Candidate where
  name _ := name
  statistics m := m.statistics
  configure m s := do
    s.acceptFor name m.statistics
    let maker ← (ofSize s.bundleSize s.prescale).mapError .stopped
    return (maker, [])
  process m a := .ok (m.process a)
  flush m := .ok m.flush

end Bundler

end TriggerChain
