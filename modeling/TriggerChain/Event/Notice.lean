import TriggerChain.Text.Numeral

/-!
# Notices

What the makers say about their work while they run. Each notice has a level and a text.
-/

namespace TriggerChain

/-- How much a notice matters. -/
inductive Level where
  | warn
  | info
  | debug
  | trace
  deriving DecidableEq, Repr, Inhabited

/-- The name of a level. -/
def Level.name : Level → String
  | .warn => "WARN"
  | .info => "INFO"
  | .debug => "DEBUG"
  | .trace => "TRACE"

/-- Whether notices of a level are shown at a verbosity: warnings always, and one level more
    with each step. -/
def Level.isShownAt (verbosity : Nat) : Level → Bool
  | .warn => true
  | .info => decide (1 ≤ verbosity)
  | .debug => decide (2 ≤ verbosity)
  | .trace => decide (3 ≤ verbosity)

/-- Something that a maker or a chain says. -/
inductive Notice where
  /-- Several conditions are enabled. -/
  | severalTriggers (maker : String) (enabled : List String)
  /-- The only condition of the maker is disabled. -/
  | adjacencyDisabled (maker : String)
  /-- An input arrived that is to be reported. -/
  | input (maker : String) (channel : Nat) (start tot : Int) (adc : Nat)
  /-- A run was long enough, but its charge has no peak at an end. -/
  | noEndPeak (maker : String) (adjacency : Nat)
  /-- A trigger was dropped by the prescale. -/
  | prescaledAway (maker reason : String)
  /-- A window became an output. -/
  | fired (maker reason : String) (start : Int) (adc channels inputs : Nat)
  /-- A primitive became an activity. -/
  | keptPrimitive (maker : String) (channel : Nat) (start : Int)
  /-- An activity became a candidate. -/
  | keptActivity (maker : String) (start : Int)
  /-- A bundle became a candidate. -/
  | bundled (maker : String) (index size : Nat) (start stop : Int)
  /-- A bundle that was not full was dropped. -/
  | partialBundle (maker : String) (size : Nat)
  /-- Activities became too old for a burst. -/
  | expired (maker : String) (count : Nat) (horizon : Int)
  /-- A burst became a candidate. -/
  | burst (maker : String) (size regions : Nat) (now : Int)
  /-- Activities were left over when the stream ended. -/
  | leftOver (maker : String) (count : Nat)
  /-- A chain has run. -/
  | chain (activityMaker candidateMaker : String) (primitives activities candidates : Nat)
  deriving DecidableEq, Repr, Inhabited

namespace Notice

/-- The level of a notice. -/
def level : Notice → Level
  | .severalTriggers .. | .adjacencyDisabled .. => .warn
  | .chain .. => .info
  | .noEndPeak .. | .prescaledAway .. | .expired .. => .trace
  | .input .. | .fired .. | .keptPrimitive .. | .keptActivity .. | .bundled ..
  | .partialBundle .. | .burst .. | .leftOver .. => .debug

/-- The text of a notice. -/
def text : Notice → String
  | .severalTriggers maker enabled =>
    maker ++ ": several triggers enabled (" ++ ", ".intercalate enabled
      ++ "); they are evaluated in that order"
  | .adjacencyDisabled maker =>
    maker ++ ": adjacency disabled, no activity will be produced"
  | .input maker channel start tot adc =>
    maker ++ ": primitive channel " ++ Text.ofNat channel ++ " start " ++ Text.ofInt start
      ++ " tot " ++ Text.ofInt tot ++ " adc " ++ Text.ofNat adc
  | .noEndPeak maker adjacency =>
    maker ++ ": adjacency " ++ Text.ofNat adjacency
      ++ " without an end-peaked charge profile"
  | .prescaledAway maker reason => maker ++ ": " ++ reason ++ " trigger prescaled away"
  | .fired maker reason start adc channels inputs =>
    maker ++ ": " ++ reason ++ " trigger at " ++ Text.ofInt start ++ ", adc "
      ++ Text.ofNat adc ++ ", " ++ Text.ofNat channels ++ " channels, "
      ++ Text.ofNat inputs ++ " inputs"
  | .keptPrimitive maker channel start =>
    maker ++ ": emitting activity for channel " ++ Text.ofNat channel ++ " at "
      ++ Text.ofInt start
  | .keptActivity maker start => maker ++ ": emitting candidate at " ++ Text.ofInt start
  | .bundled maker index size start stop =>
    maker ++ ": bundle " ++ Text.ofNat index ++ " of " ++ Text.ofNat size
      ++ " activities from " ++ Text.ofInt start ++ " to " ++ Text.ofInt stop
  | .partialBundle maker size =>
    maker ++ ": discarding partial bundle of " ++ Text.ofNat size ++ " activities"
  | .expired maker count horizon =>
    maker ++ ": expired " ++ Text.ofNat count ++ " activities before " ++ Text.ofInt horizon
  | .burst maker size regions now =>
    maker ++ ": burst of " ++ Text.ofNat size ++ " activities over " ++ Text.ofNat regions
      ++ " regions at " ++ Text.ofInt now
  | .leftOver maker count =>
    maker ++ ": " ++ Text.ofNat count
      ++ " buffered activities below threshold at end of stream"
  | .chain activityMaker candidateMaker primitives activities candidates =>
    activityMaker ++ " -> " ++ candidateMaker ++ ": " ++ Text.ofNat primitives
      ++ " primitives, " ++ Text.ofNat activities ++ " activities, "
      ++ Text.ofNat candidates ++ " candidates"

/-- A notice as one line: its level and its text. -/
def line (n : Notice) : String := n.level.name ++ " " ++ n.text

end Notice

end TriggerChain
