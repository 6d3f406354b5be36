import TriggerChain.Command.Host
import TriggerChain.File.Primitives
import TriggerChain.Maker.Registry
import TriggerChain.Text.Fixed

/-!
# Reports

The lines that commands show: the counters of makers, the figures of files, and the names
of the makers that there are.
-/

namespace TriggerChain.Command

/-! ## Columns -/

/-- A text with blanks in front up to a width. -/
def padLeft (width : Nat) (text : String) : String :=
  "".pushn ' ' (width - text.length) ++ text

/-- A text with blanks behind it up to a width. -/
def padRight (width : Nat) (text : String) : String :=
  text.pushn ' ' (width - text.length)

/-! ## Lines -/

/-- A line with the time that the command took, in seconds. -/
def Line.render (elapsed : Float) : Line → String
  | .text line => line
  | .processed files =>
    "Processed " ++ Text.ofNat files ++ " files in " ++ Text.fixed 2 elapsed ++ "s"

/-- The line with the counters of a maker. -/
def statisticsLine (label : String) (s : Statistics) : String :=
  "  " ++ padRight 10 label ++ " in " ++ padLeft 8 (Text.ofNat s.inputs) ++ "  fired "
    ++ padLeft 6 (Text.ofNat s.fired) ++ "  prescaled "
    ++ padLeft 6 (Text.ofNat s.prescaled) ++ "  out " ++ padLeft 6 (Text.ofNat s.emitted)
    ++ "  max adjacency " ++ Text.ofNat s.maxAdjacency

/-- The first lines on a file of a size. -/
def sizeLines (path : String) (bytes primitives : Nat) : List String :=
  ["File: " ++ path,
    "Size: " ++ Text.ofNat bytes ++ " bytes ("
      ++ Text.fixed 2 (Float.ofNat bytes / 1000000.0) ++ " MB)",
    "Primitives: " ++ Text.ofNat primitives]

/-- The lines with the figures of a file that has primitives. -/
def figureLines (s : Summary) (duration : Ticks) : List String :=
  ["Time range: " ++ Text.ofInt s.firstTime.toInt ++ " - " ++ Text.ofInt s.lastTime.toInt
      ++ " (" ++ Text.ofInt duration.toInt ++ " ticks)",
    "Channels: " ++ Text.ofNat s.channelCount ++ " distinct, "
      ++ Text.ofNat s.minChannel.toNat ++ " - " ++ Text.ofNat s.maxChannel.toNat,
    "ADC total: " ++ Text.ofNat s.adcTotal,
    "Detector ids: [" ++ ", ".intercalate (s.detids.map fun d => Text.ofNat d.toNat) ++ "]"]

/-- The lines with the names of the makers of a registry. -/
def makerLines (r : Registry) : List String :=
  "Activity makers:" :: r.activityNames.map ("  " ++ ·)
    ++ "Candidate makers:" :: r.candidateNames.map ("  " ++ ·)

end TriggerChain.Command
