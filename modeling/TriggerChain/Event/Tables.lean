import TriggerChain.Event.Basic
import TriggerChain.Text.Fixed

/-!
# Event tables

Events are kept in memory, or written as rows of three tables of comma-separated values:
one for windows, one for tracks with a row per hit, and one for inputs.
-/

namespace TriggerChain

/-! ## Rows -/

/-- A row of comma-separated values. -/
def row (fields : List String) : String := ",".intercalate fields ++ "\n"

/-- The head of the table of windows. -/
def windowHeader : String :=
  row ["maker", "time_start", "time_end", "length", "adc_integral", "n_channels_hit",
    "n_inputs", "first_channel", "last_channel", "adjacency", "tot_sum"]

/-- The head of the table of tracks. -/
def trackHeader : String :=
  row ["maker", "track", "start_channel", "end_channel", "start_time", "end_time",
    "channel", "time_start", "adc", "running_means"]

/-- The head of the table of inputs. -/
def primitiveHeader : String :=
  row ["maker", "time_start", "time_over_threshold", "time_peak", "channel",
    "adc_integral", "adc_peak", "detid"]

/-- The row of a window. The length of the window must fit its word. -/
def WindowRecord.row (r : WindowRecord) : Except Fault String := do
  let length ← r.length
  return TriggerChain.row
    [r.maker, Text.ofInt r.timeStart.toInt, Text.ofInt r.timeEnd.toInt,
      Text.ofInt length.toInt, Text.ofNat r.adcIntegral.toNat, Text.ofNat r.channelsHit,
      Text.ofNat r.size, Text.ofNat r.firstChannel.toNat, Text.ofNat r.lastChannel.toNat,
      (r.adjacency.map Text.ofNat).getD "", Text.ofInt r.totSum.toInt]

/-- The rows of a track, one per hit; `index` counts the tracks of the table. -/
def TrackRecord.rows (r : TrackRecord) (index : Nat) : String :=
  String.join <| r.hits.map fun h =>
    row [r.maker, Text.ofNat index, Text.ofNat r.startChannel.toNat,
      Text.ofNat r.endChannel.toNat, Text.ofInt r.startTime.toInt,
      Text.ofInt r.endTime.toInt, Text.ofNat h.hit.channel.toNat,
      Text.ofInt h.hit.timeStart.toInt, Text.ofNat h.hit.adc.toNat,
      ";".intercalate (h.means.map (Text.fixed 3))]

/-- The row of an input. -/
def primitiveRow (maker : String) (p : Primitive) : String :=
  row [maker, Text.ofInt p.timeStart.toInt, Text.ofInt p.timeOverThreshold.toInt,
    Text.ofInt p.timePeak.toInt, Text.ofNat p.channel.toNat,
    Text.ofNat p.adcIntegral.toNat, Text.ofNat p.adcPeak.toNat, Text.ofNat p.detid.toNat]

/-! ## Sinks -/

/-- The texts of the three tables. -/
structure EventTables where
  /-- The table of windows. -/
  windows : String := windowHeader
  /-- The table of tracks. -/
  tracks : String := trackHeader
  /-- The table of inputs. -/
  primitives : String := primitiveHeader
  /-- The number of tracks recorded. -/
  trackCount : Nat := 0
  deriving DecidableEq, Repr, Inhabited

/-- Adds the rows of an event. -/
def EventTables.record (t : EventTables) : Event → Except Fault EventTables
  | .primitive maker p =>
    .ok { t with primitives := t.primitives ++ primitiveRow maker p }
  | .window r => do return { t with windows := t.windows ++ (← r.row) }
  | .track r =>
    .ok { t with tracks := t.tracks ++ r.rows t.trackCount, trackCount := t.trackCount + 1 }

/-- Where the events of a maker go. -/
inductive Sink where
  /-- Into memory, in order. -/
  | memory (events : Array Event)
  /-- Into tables. -/
  | tables (tables : EventTables)

/-- Hands an event to a sink. -/
def Sink.record (s : Sink) (e : Event) : Except Fault Sink :=
  match s with
  | .memory events => .ok (.memory (events.push e))
  | .tables t => (t.record e).map .tables

end TriggerChain
