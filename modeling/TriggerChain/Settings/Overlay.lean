import TriggerChain.Settings.Rejection

/-!
# Settings from JSON

A JSON object is laid over settings that are already there. Every key is looked at on its
own: it either changes its own field or is rejected with a reason. The settings change
only if no key is rejected and every value is in range afterwards.
-/

namespace TriggerChain

/-! ## Keys -/

/-- The keys that take a boolean. -/
inductive FlagKey where
  | onAdc
  | onChannels
  | onAdjacency
  | onTot
  | reportInputs
  deriving DecidableEq, Repr

/-- The keys that take a count. -/
inductive CountKey where
  | adcThreshold
  | channelsThreshold
  | adjacencyThreshold
  | adjacencyTolerance
  | totThreshold
  | prescale
  | bundleSize
  | activityThreshold
  | hitThreshold
  deriving DecidableEq, Repr

/-- The keys that take ticks. -/
inductive TicksKey where
  | windowLength
  | readoutBefore
  | readoutAfter
  deriving DecidableEq, Repr

/-- The keys of settings. -/
inductive SettingsKey where
  | flag (key : FlagKey)
  | count (key : CountKey)
  | ticks (key : TicksKey)
  | rule
  deriving DecidableEq, Repr

namespace SettingsKey

/-- Every key. -/
def all : List SettingsKey :=
  [.flag .onAdc, .flag .onChannels, .flag .onAdjacency, .flag .onTot, .flag .reportInputs,
    .count .adcThreshold, .count .channelsThreshold, .count .adjacencyThreshold,
    .count .adjacencyTolerance, .count .totThreshold, .count .prescale,
    .count .bundleSize, .count .activityThreshold, .count .hitThreshold,
    .ticks .windowLength, .ticks .readoutBefore, .ticks .readoutAfter, .rule]

/-- The name of a key in JSON objects. -/
def name : SettingsKey → String
  | .flag .onAdc => "trigger_on_adc"
  | .flag .onChannels => "trigger_on_n_channels"
  | .flag .onAdjacency => "trigger_on_adjacency"
  | .flag .onTot => "trigger_on_tot"
  | .flag .reportInputs => "print_tp_info"
  | .count .adcThreshold => "adc_threshold"
  | .count .channelsThreshold => "n_channels_threshold"
  | .count .adjacencyThreshold => "adjacency_threshold"
  | .count .adjacencyTolerance => "adj_tolerance"
  | .count .totThreshold => "tot_threshold"
  | .count .prescale => "prescale"
  | .count .bundleSize => "bundle_size"
  | .count .activityThreshold => "activity_threshold"
  | .count .hitThreshold => "hit_threshold"
  | .ticks .windowLength => "window_length"
  | .ticks .readoutBefore => "readout_window_ticks_before"
  | .ticks .readoutAfter => "readout_window_ticks_after"
  | .rule => "adj_tolerance_rule"

/-- The key of a name. -/
def ofName? (text : String) : Option SettingsKey :=
  all.find? (fun key => key.name = text)

end SettingsKey

/-- The first count that is too large for a key. -/
def CountKey.limit : CountKey → Nat
  | .adjacencyThreshold | .adjacencyTolerance => UInt16.size
  | .channelsThreshold | .totThreshold => UInt32.size
  | .adcThreshold | .prescale | .bundleSize | .activityThreshold | .hitThreshold => UInt64.size

/-! ## One key -/

namespace Settings

/-- The value of a key, as JSON. A tolerance rule that is not set is null. -/
def value (s : Settings) : SettingsKey → Json
  | .flag .onAdc => .bool s.triggerOnAdc
  | .flag .onChannels => .bool s.triggerOnChannels
  | .flag .onAdjacency => .bool s.triggerOnAdjacency
  | .flag .onTot => .bool s.triggerOnTot
  | .flag .reportInputs => .bool s.reportInputs
  | .count .adcThreshold => .integer s.adcThreshold
  | .count .channelsThreshold => .integer s.channelsThreshold
  | .count .adjacencyThreshold => .integer s.adjacencyThreshold
  | .count .adjacencyTolerance => .integer s.adjacencyTolerance
  | .count .totThreshold => .integer s.totThreshold
  | .count .prescale => .integer s.prescale
  | .count .bundleSize => .integer s.bundleSize
  | .count .activityThreshold => .integer s.activityThreshold
  | .count .hitThreshold => .integer s.hitThreshold
  | .ticks .windowLength => .integer s.windowLength.toInt
  | .ticks .readoutBefore => .integer s.readoutBefore.toInt
  | .ticks .readoutAfter => .integer s.readoutAfter.toInt
  | .rule => (s.toleranceRule.map fun rule => Json.text rule.name).getD .null

/-- Every key with its value. -/
def members (s : Settings) : List (String × Json) :=
  SettingsKey.all.map fun key => (key.name, s.value key)

/-- Sets a boolean. -/
def setFlag (s : Settings) (b : Bool) : FlagKey → Settings
  | .onAdc => { s with triggerOnAdc := b }
  | .onChannels => { s with triggerOnChannels := b }
  | .onAdjacency => { s with triggerOnAdjacency := b }
  | .onTot => { s with triggerOnTot := b }
  | .reportInputs => { s with reportInputs := b }

/-- Sets a count. -/
def setCount (s : Settings) (n : Nat) : CountKey → Settings
  | .adcThreshold => { s with adcThreshold := n }
  | .channelsThreshold => { s with channelsThreshold := n }
  | .adjacencyThreshold => { s with adjacencyThreshold := n }
  | .adjacencyTolerance => { s with adjacencyTolerance := n }
  | .totThreshold => { s with totThreshold := n }
  | .prescale => { s with prescale := n }
  | .bundleSize => { s with bundleSize := n }
  | .activityThreshold => { s with activityThreshold := n }
  | .hitThreshold => { s with hitThreshold := n }

/-- Sets a tick count. -/
def setTicks (s : Settings) (t : Ticks) : TicksKey → Settings
  | .windowLength => { s with windowLength := t }
  | .readoutBefore => { s with readoutBefore := t }
  | .readoutAfter => { s with readoutAfter := t }

end Settings

namespace Json

/-- The boolean that a value is. -/
def flag? : Json → Except Reason Bool
  | .bool b => .ok b
  | j => .error (.notBoolean j.kind)

/-- The count below a limit that a value is. -/
def count? (limit : Nat) : Json → Except Reason Nat
  | .integer (.ofNat n) => if n < limit then .ok n else .error (.outOfRange n)
  | j => .error (.notCount j.kind)

/-- The tick count that a value is. -/
def ticks? : Json → Except Reason Ticks
  | .integer i =>
    match Ticks.ofInt? i with
    | some t => .ok t
    | none => .error (.notTicks .number)
  | j => .error (.notTicks j.kind)

/-- The tolerance rule that a value names. -/
def rule? : Json → Except Reason ToleranceRule
  | .text s =>
    match ToleranceRule.ofName? s with
    | some rule => .ok rule
    | none => .error (.unknownRule s)
  | j => .error (.notText j.kind)

end Json

namespace Settings

/-- The change that a member of an object asks for. -/
def change (key : String) (value : Json) : Except Reason (Settings → Settings) :=
  match SettingsKey.ofName? key with
  | none => .error .unknownKey
  | some (.flag k) => value.flag?.map fun b s => s.setFlag b k
  | some (.count k) => (value.count? k.limit).map fun n s => s.setCount n k
  | some (.ticks k) => value.ticks?.map fun t s => s.setTicks t k
  | some .rule => value.rule?.map fun rule s => { s with toleranceRule := some rule }

/-- The settings after a member, or as they were if the member is rejected. -/
def applyMember (s : Settings) (member : String × Json) : Settings :=
  match change member.1 member.2 with
  | .ok f => f s
  | .error _ => s

/-- The rejection of a member, if it is rejected. -/
def rejectionOf? (member : String × Json) : Option Rejection :=
  match change member.1 member.2 with
  | .ok _ => none
  | .error reason => some ⟨member.1, reason⟩

/-! ## The whole object -/

/-- Lays the members of an object over settings. -/
def overlayMembers (base : Settings) (members : List (String × Json)) :
    Except SettingsError Settings :=
  -- Members that pass are staged beside those that do not, so that a value out of range is
  -- reported together with the others.
  let staged := members.foldl applyMember base
  let rejections := members.filterMap rejectionOf? ++ staged.rangeRejections
  if rejections.isEmpty then .ok staged
  else .error (.rejected (sortRejections rejections))

/-- Lays a JSON object over settings. -/
def overlay (base : Settings) : Json → Except SettingsError Settings
  | .object members => base.overlayMembers members
  | j => .error (.notAnObject j.kind)

end Settings

end TriggerChain
