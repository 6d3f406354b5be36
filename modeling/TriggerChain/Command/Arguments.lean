/-!
# Arguments

The words of a command line are a subcommand with its options and inputs. Options with a
value may have it behind an equals sign or as the next word, and short options may be put
together. A lone `--` says that only inputs follow.

`readArguments` stands for the reader of command lines that the program is linked with. It
is one of the `Readers` that commands get, and nothing is proved of it: what is proved of
commands holds for any reader.
-/

namespace TriggerChain.Command

/-! ## Commands -/

/-- What is to be processed, and how. -/
structure Job where
  /-- The files of primitives, one partition each. -/
  inputs : List String
  /-- The folder for the tables of results. -/
  output : String
  /-- The file that sets the chain up. -/
  chain : Option String := none
  /-- The name of the activity maker, in place of that in the file. -/
  activityMaker : Option String := none
  /-- The name of the candidate maker, in place of that in the file. -/
  candidateMaker : Option String := none
  /-- The folder for the tables of events. -/
  debugFolder : Option String := none
  deriving DecidableEq, Repr, Inhabited

/-- What is asked for. -/
inductive Request where
  /-- Run a chain over files of primitives. -/
  | process (job : Job)
  /-- Show the figures of files of primitives. -/
  | info (inputs : List String)
  /-- List the makers. -/
  | makers
  deriving DecidableEq, Repr, Inhabited

/-- Why the words of a command line ask for nothing. -/
inductive Stop where
  /-- They are no command line. -/
  | usage
  /-- They ask how to use the program. -/
  | help
  /-- They ask for the version of the program. -/
  | version
  deriving DecidableEq, Repr, Inhabited

/-! ## Options -/

/-- The options that have a value. -/
inductive Slot where
  | output
  | chain
  | activityMaker
  | candidateMaker
  | debugFolder
  deriving DecidableEq, Repr, Inhabited

namespace Slot

/-- Every option. -/
def all : List Slot := [output, chain, activityMaker, candidateMaker, debugFolder]

/-- The long name of an option. -/
def long : Slot → String
  | output => "output"
  | chain => "chain"
  | activityMaker => "activity-maker"
  | candidateMaker => "candidate-maker"
  | debugFolder => "debug-dir"

/-- The short name of an option, if it has one. -/
def short? : Slot → Option Char
  | output => some 'o'
  | chain => some 'c'
  | _ => none

/-- Whether the value of an option is a path, which is never empty. -/
def isPath : Slot → Bool
  | output | chain | debugFolder => true
  | activityMaker | candidateMaker => false

end Slot

/-- The options and inputs of a subcommand. -/
structure Form where
  /-- The options that have a value. -/
  slots : List Slot := []
  /-- Whether there are inputs. -/
  takesInputs : Bool := false

/-- The words of a subcommand that have been read. -/
structure Given where
  /-- The inputs, latest first. -/
  inputs : List String := []
  /-- The values of options. -/
  values : List (Slot × String) := []
  /-- The option whose value comes next. -/
  pending : Option Slot := none
  /-- Whether only inputs follow. -/
  onlyInputs : Bool := false
  /-- How often more notices were asked for. -/
  verbosity : Nat := 0

namespace Given

/-- The value of an option. -/
def value? (g : Given) (slot : Slot) : Option String := g.values.lookup slot

/-- Sets the value of an option, once. -/
def setValue (g : Given) (slot : Slot) (value : String) : Except Stop Given :=
  if (g.value? slot).isSome || (slot.isPath && value.isEmpty) then .error .usage
  else .ok { g with values := (slot, value) :: g.values, pending := none }

/-- Adds an input. Inputs are paths, so they are not empty. -/
def addInput (g : Given) (form : Form) (word : String) : Except Stop Given :=
  if form.takesInputs && !word.isEmpty then .ok { g with inputs := word :: g.inputs }
  else .error .usage

/-- One more notice level. -/
def louder (g : Given) : Given := { g with verbosity := g.verbosity + 1 }

/-- Reads a long option, without its hyphens. -/
def takeLong (g : Given) (form : Form) (word : List Char) : Except Stop Given :=
  let name := String.ofList (word.takeWhile (· ≠ '='))
  let attached? := match word.dropWhile (· ≠ '=') with
    | [] => none
    | _ :: value => some (String.ofList value)
  match form.slots.find? (fun slot => slot.long = name), attached? with
  | some slot, some value => g.setValue slot value
  | some slot, none => .ok { g with pending := some slot }
  | none, some _ => .error .usage
  | none, none =>
    if name = "verbose" then .ok g.louder
    else if name = "help" then .error .help
    else .error .usage

/-- Reads short options, without their hyphen. The first one that has a value takes what
    is left of the word, unless nothing is. -/
def takeShort (g : Given) (form : Form) : List Char → Except Stop Given
  | [] => .ok g
  | c :: rest =>
    match form.slots.find? (fun slot => slot.short? = some c) with
    | some slot =>
      match rest with
      | [] => .ok { g with pending := some slot }
      | '=' :: value => g.setValue slot (String.ofList value)
      | value => g.setValue slot (String.ofList value)
    | none =>
      if c = 'v' then g.louder.takeShort form rest
      else if c = 'h' then .error .help
      else .error .usage

/-- Reads a word. An option that waits for its value takes no other option for it. -/
def take (form : Form) (g : Given) (word : String) : Except Stop Given :=
  let plain : Except Stop Given :=
    match g.pending with
    | some slot => g.setValue slot word
    | none => g.addInput form word
  let option (read : Given → Except Stop Given) : Except Stop Given :=
    if g.pending.isSome then .error .usage else read g
  if g.onlyInputs then g.addInput form word
  else match word.toList with
    | ['-', '-'] => option fun g => .ok { g with onlyInputs := true }
    | '-' :: '-' :: name => option fun g => g.takeLong form name
    -- A lone hyphen is no option.
    | ['-'] => plain
    | '-' :: flags => option fun g => g.takeShort form flags
    | _ => plain

end Given

/-- Reads the words of a subcommand. -/
def Form.read (form : Form) (verbosity : Nat) (words : List String) : Except Stop Given := do
  let g ← words.foldlM (Given.take form) { verbosity }
  if g.pending.isSome || (form.takesInputs && g.inputs.isEmpty) then throw .usage
  return { g with inputs := g.inputs.reverse }

/-! ## Subcommands -/

/-- A request, and how often more notices were asked for. -/
abbrev Asked := Request × Nat

/-- The request for processing that some words make. -/
def readProcess (verbosity : Nat) (words : List String) : Except Stop Asked := do
  let g ← { slots := Slot.all, takesInputs := true : Form }.read verbosity words
  match g.value? .output with
  | none => throw .usage
  | some output =>
    let job : Job :=
      { inputs := g.inputs
        output
        chain := g.value? .chain
        activityMaker := g.value? .activityMaker
        candidateMaker := g.value? .candidateMaker
        debugFolder := g.value? .debugFolder }
    return (.process job, g.verbosity)

/-- The request for figures that some words make. -/
def readInfo (verbosity : Nat) (words : List String) : Except Stop Asked := do
  let g ← { takesInputs := true : Form }.read verbosity words
  return (.info g.inputs, g.verbosity)

/-- The request for the makers that some words make. -/
def readMakers (verbosity : Nat) (words : List String) : Except Stop Asked := do
  let g ← ({} : Form).read verbosity words
  return (.makers, g.verbosity)

/-- What is said to a request for help: on the whole program or on one subcommand. -/
def readHelp : List String → Stop
  | [] => .help
  | [word] => if word ∈ ["process", "info", "makers", "help"] then .help else .usage
  | _ => .usage

/-- Reads short options in front of the subcommand. -/
def leadingShort (verbosity : Nat) : List Char → Except Stop Nat
  | [] => .ok verbosity
  | c :: rest =>
    if c = 'v' then leadingShort (verbosity + 1) rest
    else if c = 'h' then .error .help
    else if c = 'V' then .error .version
    else .error .usage

/-- Reads the words of a command line. -/
def readArguments (verbosity : Nat) : List String → Except Stop Asked
  | [] => .error .usage
  | word :: rest =>
    if word = "process" then readProcess verbosity rest
    else if word = "info" then readInfo verbosity rest
    else if word = "makers" then readMakers verbosity rest
    else if word = "help" then .error (readHelp rest)
    else if word = "--verbose" then readArguments (verbosity + 1) rest
    else if word = "--help" then .error .help
    else if word = "--version" then .error .version
    else match word.toList with
      | '-' :: c :: flags =>
        match leadingShort verbosity (c :: flags) with
        | .ok verbosity => readArguments verbosity rest
        | .error stop => .error stop
      | _ => .error .usage

end TriggerChain.Command
