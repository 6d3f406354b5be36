import TriggerChain.Record.Primitive
import TriggerChain.Text.Lines
import TriggerChain.Text.Utf8

/-!
# Files of primitives

A file of primitives is a text with one primitive on a line: eight columns of decimal
integers between blanks. Lines without a word and lines that begin with a number sign say
nothing, and further columns are not looked at. The first line that is broken is reported
with its number.
-/

namespace TriggerChain

/-! ## Errors -/

/-- The columns of a primitive. -/
inductive Column where
  | timeStart
  | timeOverThreshold
  | timePeak
  | channel
  | adcIntegral
  | adcPeak
  | detid
  | kind
  deriving DecidableEq, Repr, Inhabited

/-- The name of a column. -/
def Column.name : Column → String
  | .timeStart => "time_start"
  | .timeOverThreshold => "time_over_threshold"
  | .timePeak => "time_peak"
  | .channel => "channel"
  | .adcIntegral => "adc_integral"
  | .adcPeak => "adc_peak"
  | .detid => "detid"
  | .kind => "type"

/-- The number of columns. -/
def columnCount : Nat := 8

/-- What is wrong with a line. -/
inductive LineError where
  /-- It has too few columns. -/
  | columns (found : Nat)
  /-- A column holds no integer, or one that does not fit. -/
  | column (column : Column) (word : String)
  deriving DecidableEq, Repr, Inhabited

/-- The text of an error in a line. -/
def LineError.message : LineError → String
  | .columns found =>
    "expected " ++ Text.ofNat columnCount ++ " columns, found " ++ Text.ofNat found
  | .column c word => "invalid " ++ c.name ++ " `" ++ word ++ "`"

/-- Why a file of primitives cannot be read. -/
inductive FileError where
  /-- There is no such file. -/
  | missing
  /-- Its bytes are no text. -/
  | notText (error : Text.Utf8Error)
  /-- A line is broken; lines are counted from one. -/
  | badLine (line : Nat) (reason : LineError)
  deriving DecidableEq, Repr, Inhabited

/-- What is said of a file whose bytes are no text. -/
def notTextMessage (path : String) (error : Text.Utf8Error) : String :=
  path ++ " is not valid UTF-8: " ++ error.message

/-- What is said of a file of primitives that cannot be read. -/
def FileError.message (path : String) : FileError → String
  | .missing => "I/O error: " ++ path ++ " cannot be read"
  | .notText error => "invalid file format: " ++ notTextMessage path error
  | .badLine line reason => path ++ ":" ++ Text.ofNat line ++ ": " ++ reason.message

/-! ## Lines -/

/-- The value of a column. -/
def readColumn {α : Type} (column : Column) (read? : List Char → Option α)
    (word : List Char) : Except LineError α :=
  match read? word with
  | some value => .ok value
  | none => .error (.column column (String.ofList word))

/-- The primitive that some columns hold. -/
def Primitive.ofWords : List (List Char) → Except LineError Primitive
  | start :: tot :: peak :: channel :: integral :: adcPeak :: detid :: kind :: _ => do
    let timeStart ← readColumn .timeStart Text.signed? start
    let timeOverThreshold ← readColumn .timeOverThreshold Text.signed? tot
    let timePeak ← readColumn .timePeak Text.signed? peak
    let channel ← readColumn .channel (Text.unsigned? UInt32.size) channel
    let adcIntegral ← readColumn .adcIntegral (Text.unsigned? UInt32.size) integral
    let adcPeak ← readColumn .adcPeak (Text.unsigned? UInt32.size) adcPeak
    let detid ← readColumn .detid (Text.unsigned? UInt16.size) detid
    let kind ← readColumn .kind (Text.unsigned? UInt32.size) kind
    return {
      timeStart, timeOverThreshold, timePeak
      channel := .ofNat channel
      adcIntegral := .ofNat adcIntegral
      adcPeak := .ofNat adcPeak
      detid := .ofNat detid
      kind := .ofNat kind }
  | words => .error (.columns words.length)

/-- Whether a line says nothing. -/
def isSilent (words : List (List Char)) : Bool :=
  match words with
  | [] => true
  | word :: _ => word.head? = some '#'

/-- The primitive on a line, if the line says something. -/
def Primitive.ofLine (line : List Char) : Except LineError (Option Primitive) :=
  let words := Text.words line
  if isSilent words then .ok none else (Primitive.ofWords words).map some

/-! ## Files -/

/-- The primitives on some lines, the first of which has the number `line`. Those before
    them are given, latest first. -/
def primitivesFrom (line : Nat) (before : List Primitive) :
    List (List Char) → Except FileError (List Primitive)
  | [] => .ok before.reverse
  | l :: rest =>
    match Primitive.ofLine l with
    | .error reason => .error (.badLine line reason)
    | .ok none => primitivesFrom (line + 1) before rest
    | .ok (some p) => primitivesFrom (line + 1) (p :: before) rest

/-- The primitives of a text, in the order of the text. -/
def readPrimitives (text : List Char) : Except FileError (List Primitive) :=
  primitivesFrom 1 [] (Text.lines text)

/-- The primitives of a file. -/
def primitivesOfBytes (bytes : List UInt8) : Except FileError (List Primitive) :=
  match Text.decode bytes with
  | .error error => .error (.notText error)
  | .ok text => readPrimitives text

/-- Whether no primitive begins after the one behind it. -/
def isTimeOrdered (primitives : List Primitive) : Bool :=
  (primitives.zip primitives.tail).all fun pair => decide (pair.1.timeStart ≤ pair.2.timeStart)

/-- Puts primitives in the order of their start times. They are sorted only if they are out of
    order. -/
def timeOrderedBy (sort : List Primitive → List Primitive) (primitives : List Primitive) :
    List Primitive :=
  if isTimeOrdered primitives then primitives else sort primitives

/-- Puts primitives in the order of their start times; primitives that begin together keep
    their order. -/
def timeOrdered (primitives : List Primitive) : List Primitive :=
  timeOrderedBy (fun ps => ps.mergeSort fun a b => decide (a.timeStart ≤ b.timeStart)) primitives

/-! ## Writing -/

/-- The line of a primitive. -/
def Primitive.line (p : Primitive) : List Char :=
  [' '].intercalate
    [Text.integer p.timeStart.toInt, Text.integer p.timeOverThreshold.toInt,
      Text.integer p.timePeak.toInt, Text.natural p.channel.toNat,
      Text.natural p.adcIntegral.toNat, Text.natural p.adcPeak.toNat,
      Text.natural p.detid.toNat, Text.natural p.kind.toNat] ++ ['\n']

/-- The text of some primitives, one on a line. -/
def writePrimitives (primitives : List Primitive) : List Char :=
  primitives.flatMap Primitive.line

/-! ## Summaries -/

/-- The figures of some primitives. -/
structure Summary where
  /-- The number of primitives. -/
  count : Nat := 0
  /-- When the first one began. -/
  firstTime : Ticks := 0
  /-- When the last one began. -/
  lastTime : Ticks := 0
  /-- The number of distinct channels. -/
  channelCount : Nat := 0
  /-- The lowest channel. -/
  minChannel : Channel := 0
  /-- The highest channel. -/
  maxChannel : Channel := 0
  /-- The summed charge. -/
  adcTotal : Nat := 0
  /-- The detector elements, ascending and without repetition. -/
  detids : List DetId := []
  deriving DecidableEq, Repr, Inhabited

namespace Summary

/-- The distinct elements of a list, ascending. -/
def distinct {α : Type} [BEq α] [LE α] [DecidableLE α] (xs : List α) : List α :=
  (xs.mergeSort (fun a b => decide (a ≤ b))).eraseReps

/-- The figures of primitives in the order of their start times. -/
def ofPrimitives (primitives : List Primitive) : Summary :=
  let channels := distinct (primitives.map (·.channel))
  { count := primitives.length
    firstTime := (primitives.head?.map (·.timeStart)).getD 0
    lastTime := (primitives.getLast?.map (·.timeStart)).getD 0
    channelCount := channels.length
    minChannel := channels.head?.getD 0
    maxChannel := channels.getLast?.getD 0
    adcTotal := primitives.foldl (fun total p => total + p.adcIntegral.toNat) 0
    detids := distinct (primitives.map (·.detid)) }

/-- The time from the first start to the last. -/
def duration (s : Summary) : Except Fault Ticks := s.lastTime.minus s.firstTime

end Summary

end TriggerChain
