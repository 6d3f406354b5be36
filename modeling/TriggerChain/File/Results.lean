import TriggerChain.Record.Candidate
import TriggerChain.Event.Tables

/-!
# Tables of results

Activities and candidates are written as tables of comma-separated values, a header and
then one row each.
-/

namespace TriggerChain

/-- The head of the table of activities. -/
def activityHeader : String :=
  row ["time_start", "time_end", "time_peak", "time_activity", "channel_start",
    "channel_end", "channel_peak", "adc_integral", "adc_peak", "detid", "algorithm",
    "n_primitives"]

/-- The head of the table of candidates. -/
def candidateHeader : String :=
  row ["time_start", "time_end", "time_candidate", "detid", "type", "algorithm",
    "n_activities", "regions"]

/-- The row of an activity. -/
def Activity.row (a : Activity) : String :=
  TriggerChain.row
    [Text.ofInt a.timeStart.toInt, Text.ofInt a.timeEnd.toInt, Text.ofInt a.timePeak.toInt,
      Text.ofInt a.timeActivity.toInt, Text.ofNat a.channelStart.toNat,
      Text.ofNat a.channelEnd.toNat, Text.ofNat a.channelPeak.toNat,
      Text.ofNat a.adcIntegral.toNat, Text.ofNat a.adcPeak.toNat, Text.ofNat a.detid.toNat,
      a.algorithm.name, Text.ofNat a.inputs.length]

/-- The row of a candidate. Its detector elements stand between semicolons. -/
def Candidate.row (c : Candidate) : String :=
  TriggerChain.row
    [Text.ofInt c.timeStart.toInt, Text.ofInt c.timeEnd.toInt,
      Text.ofInt c.timeCandidate.toInt, Text.ofNat c.detid.toNat, c.kind.name,
      c.algorithm.name, Text.ofNat c.inputs.length,
      ";".intercalate (c.regions.map fun d => Text.ofNat d.toNat)]

/-- The table of some activities. -/
def activityTable (activities : List Activity) : String :=
  activityHeader ++ String.join (activities.map Activity.row)

/-- The table of some candidates. -/
def candidateTable (candidates : List Candidate) : String :=
  candidateHeader ++ String.join (candidates.map Candidate.row)

end TriggerChain
