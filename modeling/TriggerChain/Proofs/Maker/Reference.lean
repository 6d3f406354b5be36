import TriggerChain.Maker.Geometry
import TriggerChain.Maker.Grouping
import TriggerChain.Maker.Shape
import TriggerChain.Proofs.Maker.Calls
import TriggerChain.Proofs.Window.Order

/-!
# A reference for the windowed makers

The reference keeps the list of the elements in its window, in order, and the counters, and
nothing else. Whatever it needs to know it works out from that list when it needs it, in
exact integers. What it emits is a list of elements; a record is made of it at the very end,
and only if the exact numbers of the record fit their words.

The conditions are looked at in the order charge, number of channels, longest run, time over
threshold.
-/

namespace TriggerChain

/-! ## Decisions on lists -/

/-- Outputs that are made of elements. -/
class Cluster (ο : Type) (τ : outParam Type) where
  /-- The elements of an output, in order. -/
  elements : ο → List τ

instance : Cluster Activity Primitive := ⟨Activity.inputs⟩

instance : Cluster Candidate Activity := ⟨Candidate.inputs⟩

/-- The decisions of a policy on plain lists of elements, in exact numbers. -/
class ListPolicy (π : Type) (τ ο : outParam Type) where
  /-- Whether every input is passed through on arrival. -/
  passes : π → Bool := fun _ => false
  /-- Whether a full list fires before an input that does not fit it. -/
  fires : π → List τ → τ → Option Fired
  /-- Whether the list that is left at the end of a stream fires. -/
  firesAtEnd : π → List τ → Option Fired
  /-- The record of a list; none of an empty one, or where a number does not fit. -/
  record? : π → List τ → Option ο

/-- What fires on a list at a call, before an input that does not fit it or at the end of a
    stream. -/
def ListPolicy.firesAt {π τ ο : Type} [ListPolicy π τ ο] (p : π) (xs : List τ) :
    Call τ → Option Fired
  | .process x => ListPolicy.fires p xs x
  | .flush => ListPolicy.firesAtEnd p xs

/-! ## The machine -/

/-- The reference: a list of elements, and counters. -/
structure Reference (π τ : Type) where
  /-- The decisions. -/
  policy : π
  /-- The elements in the window, in order. -/
  residents : List τ := []
  /-- The counters. -/
  statistics : Statistics := {}

namespace Reference

/-- What a call on the reference comes to. -/
structure Outcome (π τ : Type) where
  /-- The reference after the call. -/
  next : Reference π τ
  /-- The elements that became an output, if any did. -/
  emitted : Option (List τ) := none

variable {π τ ο : Type} [Element τ]

/-- Puts an element behind the last one that began no later. Elements that are delivered in
    order go to the end. -/
def insert (x : τ) (xs : List τ) : List τ :=
  if Element.inOrder τ then xs ++ [x] else Window.placeBehind x xs

variable [Policy π τ ο]

/-- The length of the window. -/
def windowLength (r : Reference π τ) : Int := (Policy.settings r.policy).windowLength.toInt

/-- How many triggers there are for each output. -/
def prescale (r : Reference π τ) : Nat := (Policy.settings r.policy).prescale

/-- A trigger: of the triggers, the first and then every `prescale`-th become outputs. What is
    left of the window is `next` in either case. -/
def fire (r : Reference π τ) (fired : Fired) (next : List τ) : Outcome π τ :=
  let statistics := r.statistics.fire fired.adjacency
  if r.prescale ∣ r.statistics.fired then
    { next := { r with residents := next, statistics := statistics.emit }
      emitted := some r.residents }
  else { next := { r with residents := next, statistics := statistics.drop } }

variable [ListPolicy π τ ο]

/-- The reference with one input more on its counters. -/
def heard (r : Reference π τ) : Reference π τ := { r with statistics := r.statistics.hear }

/-- What is left of the list when it slides on to an input. -/
def young (r : Reference π τ) (x : τ) : List τ :=
  r.residents.dropWhile fun e => decide (r.windowLength ≤ Window.began x - Window.began e)

/-- Takes an input. -/
def process (r : Reference π τ) (x : τ) : Outcome π τ :=
  match r.residents with
  | [] =>
    let seeded := { r.heard with residents := [x] }
    if ListPolicy.passes r.policy then seeded.fire { reason := .passthrough } []
    else { next := seeded }
  | first :: _ =>
    if Window.began x - Window.began first < r.windowLength then
      { next := { r.heard with residents := insert x r.residents } }
    else match ListPolicy.fires r.policy r.residents x with
      | some fired => r.heard.fire fired [x]
      | none => { next := { r.heard with residents := insert x (r.young x) } }

/-- Ends the stream. -/
def flush (r : Reference π τ) : Outcome π τ :=
  if r.residents.isEmpty then { next := r }
  else match ListPolicy.firesAtEnd r.policy r.residents with
    | some fired => r.fire fired []
    | none => { next := { r with residents := [] } }

/-- A call on the reference. -/
def call (r : Reference π τ) : Call τ → Outcome π τ
  | .process x => r.process x
  | .flush => r.flush

/-- What each of some calls comes to, one call after the other. -/
def run (r : Reference π τ) : List (Call τ) → List (Outcome π τ)
  | [] => []
  | c :: cs => r.call c :: run (r.call c).next cs

/-- The records of a call: one if something was emitted. -/
def Outcome.records (o : Outcome π τ) : List (Option ο) :=
  (o.emitted.map (ListPolicy.record? o.next.policy)).toList

/-! ### The branches of a call -/

section Branches

variable {r : Reference π τ} {x first : τ} {rest : List τ}

theorem process_seeded (hempty : r.residents = [])
    (hwindowed : ListPolicy.passes r.policy = false) :
    r.process x = { next := { r.heard with residents := [x] } } := by
  rw [process, hempty]
  exact if_neg (by rw [hwindowed]; decide)

theorem process_passed (hempty : r.residents = [])
    (hpass : ListPolicy.passes r.policy = true) :
    r.process x = { r.heard with residents := [x] }.fire { reason := .passthrough } [] := by
  rw [process, hempty]
  exact if_pos hpass

theorem process_admitted (hresidents : r.residents = first :: rest)
    (hfits : Window.began x - Window.began first < r.windowLength) :
    r.process x = { next := { r.heard with residents := insert x r.residents } } := by
  rw [process, hresidents]
  exact if_pos hfits

theorem process_fired {fired : Fired} (hresidents : r.residents = first :: rest)
    (hfits : ¬ Window.began x - Window.began first < r.windowLength)
    (hfires : ListPolicy.fires r.policy r.residents x = some fired) :
    r.process x = r.heard.fire fired [x] := by
  rw [hresidents] at hfires
  rw [process, hresidents]
  dsimp only
  rw [if_neg hfits, hfires]

theorem process_slid (hresidents : r.residents = first :: rest)
    (hfits : ¬ Window.began x - Window.began first < r.windowLength)
    (hquiet : ListPolicy.fires r.policy r.residents x = none) :
    r.process x = { next := { r.heard with residents := insert x (r.young x) } } := by
  rw [hresidents] at hquiet
  rw [process, hresidents]
  dsimp only
  rw [if_neg hfits, hquiet]

/-- The branches of a call with an input, each with what it takes. -/
inductive Branch (r : Reference π τ) (x : τ) : Prop
  | seeded (hempty : r.residents = []) (hwindowed : ListPolicy.passes r.policy = false)
      (hprocess : r.process x = { next := { r.heard with residents := [x] } })
  | passed (hempty : r.residents = []) (hpass : ListPolicy.passes r.policy = true)
      (hprocess : r.process x =
        { r.heard with residents := [x] }.fire { reason := .passthrough } [])
  | admitted {first : τ} {rest : List τ} (hresidents : r.residents = first :: rest)
      (hfits : Window.began x - Window.began first < r.windowLength)
      (hprocess : r.process x =
        { next := { r.heard with residents := insert x r.residents } })
  | fired {fired : Fired} (hfull : r.residents ≠ [])
      (hfires : ListPolicy.fires r.policy r.residents x = some fired)
      (hprocess : r.process x = r.heard.fire fired [x])
  | slid (hfull : r.residents ≠ [])
      (hquiet : ListPolicy.fires r.policy r.residents x = none)
      (hprocess : r.process x =
        { next := { r.heard with residents := insert x (r.young x) } })

theorem branches (r : Reference π τ) (x : τ) : Branch r x := by
  -- The cases follow the conditions of `process`, from the outside in.
  cases hresidents : r.residents with
  | nil =>
    cases hpasses : ListPolicy.passes r.policy with
    | false => exact .seeded hresidents hpasses (process_seeded hresidents hpasses)
    | true => exact .passed hresidents hpasses (process_passed hresidents hpasses)
  | cons first rest =>
    have hfull : r.residents ≠ [] := by
      rw [hresidents]
      exact List.cons_ne_nil first rest
    by_cases hfits : Window.began x - Window.began first < r.windowLength
    · exact .admitted hresidents hfits (process_admitted hresidents hfits)
    · cases hfires : ListPolicy.fires r.policy r.residents x with
      | some fired => exact .fired hfull hfires (process_fired hresidents hfits hfires)
      | none => exact .slid hfull hfires (process_slid hresidents hfits hfires)

omit [Element τ] in
theorem flush_idle (hempty : r.residents = []) : r.flush = { next := r } := by
  rw [flush, hempty]
  rfl

omit [Element τ] in
theorem flush_left (hresidents : r.residents ≠ [])
    (hquiet : ListPolicy.firesAtEnd r.policy r.residents = none) :
    r.flush = { next := { r with residents := [] } } := by
  rw [flush, if_neg (by simpa using hresidents), hquiet]

omit [Element τ] in
theorem flush_fired {fired : Fired} (hresidents : r.residents ≠ [])
    (hfires : ListPolicy.firesAtEnd r.policy r.residents = some fired) :
    r.flush = r.fire fired [] := by
  rw [flush, if_neg (by simpa using hresidents), hfires]

end Branches

omit [Element τ] [ListPolicy π τ ο] in
@[simp] theorem policy_fire (r : Reference π τ) (fired : Fired) (next : List τ) :
    (r.fire fired next).next.policy = r.policy := by
  unfold fire
  dsimp only
  split <;> rfl

/-- A call leaves the policy as it is. -/
@[simp] theorem policy_call (r : Reference π τ) (c : Call τ) :
    (r.call c).next.policy = r.policy := by
  cases c with
  | process x =>
    show (r.process x).next.policy = r.policy
    unfold process
    split
    · dsimp only
      split
      · rw [policy_fire]
        rfl
      · rfl
    · split
      · rfl
      · split
        · rw [policy_fire]
          rfl
        · rfl
  | flush =>
    show r.flush.next.policy = r.policy
    unfold flush
    split
    · rfl
    · split
      · rw [policy_fire]
      · rfl

/-! ### Numbers that fit -/

/-- Every number of a call fits its word. -/
structure Fits (r : Reference π τ) (c : Call τ) : Prop where
  /-- The aggregates of the input alone, which an empty window is seeded with. -/
  input : ∀ x, c.input? = some x → Window.AggregatesFit [x]
  /-- The aggregates of the list that the call leaves. -/
  residents : Window.AggregatesFit (r.call c).next.residents
  /-- The numbers of the record, where one is made. -/
  record : ∀ xs, (r.call c).emitted = some xs → ListPolicy.record? r.policy xs ≠ none

/-- Every number of some calls fits its word. -/
def FitsAll (r : Reference π τ) : List (Call τ) → Prop
  | [] => True
  | c :: cs => r.Fits c ∧ (r.call c).next.FitsAll cs

end Reference

/-! ## Conditions on lists -/

/-- The charge of a list, then its number of distinct channels. -/
def Settings.firesOnSums (s : Settings) {τ : Type} [Element τ] (xs : List τ) : Option Fired :=
  if s.triggerOnAdc ∧ s.adcThreshold < Window.chargeOf xs then some { reason := .adcSum }
  else if s.triggerOnChannels ∧
      s.channelsThreshold < (Window.channelsOf xs).dedup.length then
    some { reason := .multiplicity }
  else none

/-- The word of an exact charge, if it fits. -/
def Charge.ofNat? (n : Nat) : Option Charge :=
  if n < UInt64.size then some (UInt64.ofNat n) else none

/-- The activity of a first primitive and the rest, with its times and its charge given. -/
def Activity.spanning (algorithm : ActivityAlgorithm) (timeStart timeEnd : Ticks)
    (adcIntegral : Charge) (first : Primitive) (rest : List Primitive) : Activity :=
  let last := rest.getLastD first
  let peak := highestFrom first rest
  { timeStart
    timeEnd
    timePeak := peak.timePeak
    timeActivity := peak.timePeak
    channelStart := first.channel
    channelEnd := last.channel
    channelPeak := peak.channel
    adcIntegral
    adcPeak := peak.adcPeak
    detid := last.detid
    kind := .tpc
    algorithm
    inputs := first :: rest }

/-- The activity that a list of primitives becomes. It lasts until `timeEnd` of the last. -/
def Activity.ofPrimitives? (algorithm : ActivityAlgorithm) (timeEnd : Primitive → Int) :
    List Primitive → Option Activity
  | [] => none
  | first :: rest => do
    let timeEnd ← Ticks.ofInt? (timeEnd (rest.getLastD first))
    let adcIntegral ← Charge.ofNat? (Window.chargeOf (first :: rest))
    return spanning algorithm first.timeStart timeEnd adcIntegral first rest

/-! ### Geometry -/

/-- The conditions of a geometry, one after the other, on a list. -/
def Geometry.firesOn (g : Geometry) (xs : List Primitive) (incoming : Primitive) :
    Option Fired :=
  let longest := (g.settings.scanner .gapWidth).longestRun (Window.channelsOf xs)
  (g.settings.firesOnSums xs).or
    (if g.settings.triggerOnAdjacency ∧ g.settings.adjacencyThreshold < longest then
      some { reason := .adjacency, adjacency := some longest }
    else if g.settings.triggerOnTot ∧
        (g.settings.totThreshold : Int) < incoming.timeOverThreshold.toInt then
      some { reason := .timeOverThreshold }
    else none)

instance : ListPolicy Geometry Primitive Activity where
  fires := Geometry.firesOn
  firesAtEnd g xs := g.settings.firesOnSums xs
  record? g := Activity.ofPrimitives? g.algorithm fun last => last.timeStart.toInt

/-! ### Shapes -/

/-- The length of the longest run of a list, then its charge profile. -/
def Shape.firesOn (p : Shape) (xs : List Primitive) : Option Fired :=
  let longest := p.test.scanner.longestRun (Window.channelsOf xs)
  if p.settings.triggerOnAdjacency ∧ p.settings.adjacencyThreshold < longest ∧
      (p.test.run xs).endPeaked then
    some {
      reason := .endPeak
      adjacency := some longest
      track := some ((p.test.run xs).record Shape.name p.test.widths) }
  else none

instance : ListPolicy Shape Primitive Activity where
  fires p xs _ := p.firesOn xs
  firesAtEnd _ _ := none
  record? _ := Activity.ofPrimitives? .michelElectron fun last =>
    last.timeStart.toInt + last.timeOverThreshold.toInt

/-! ### Groupings -/

/-- When the last primitive of an activity is below threshold again, exactly; of an activity
    without primitives, when it ended. -/
def Grouping.exactEndOf (a : Activity) : Int :=
  match a.inputs.getLast? with
  | none => a.timeEnd.toInt
  | some p => p.timeStart.toInt + p.timeOverThreshold.toInt

/-- The candidate that a list of activities becomes. -/
def Grouping.record? (g : Grouping) : List Activity → Option Candidate
  | [] => none
  | first :: rest => do
    let last := rest.getLastD first
    let lastEnd ← Ticks.ofInt? (exactEndOf last)
    let timeStart ← Ticks.ofInt? (first.timeStart.toInt - g.settings.readoutBefore.toInt)
    let timeEnd ← Ticks.ofInt? (lastEnd.toInt + g.settings.readoutAfter.toInt)
    return {
      timeStart
      timeEnd
      timeCandidate := first.timeStart
      detid := last.detid
      kind := .horizontalMuon
      algorithm := .horizontalMuon
      inputs := first :: rest
      regions := regionsOf ((first :: rest).map (·.detid)) }

instance : ListPolicy Grouping Activity Candidate where
  passes g :=
    !g.settings.triggerOnAdc && !g.settings.triggerOnChannels && !g.settings.triggerOnAdjacency
  fires g xs _ := (g.settings.firesOnSums xs).or
    (if g.settings.triggerOnAdjacency then some { reason := .windowFull } else none)
  firesAtEnd g xs := g.settings.firesOnSums xs
  record? := Grouping.record?

end TriggerChain
