import TriggerChain.Chain.Setup
import TriggerChain.Command.Arguments
import TriggerChain.Command.Failure
import TriggerChain.Command.Report
import TriggerChain.File.Results
import TriggerChain.Json.Reader
import TriggerChain.Maker.Recorded

/-!
# Commands

Processing runs a chain over files of primitives, one partition for each file. The chain
is set up and built, and every file is read, before anything is run. The tables are named
after the files: those of events are begun before their partition runs, those of results
are written when every partition has run. The other commands show the figures of files,
and the makers that there are.

The words of a command line and the JSON of a chain file are read by linked libraries. A
command gets their readers as an argument, and what is proved of commands holds for any
readers. `readArguments` and `Json.read?` stand for them where a command is run.
-/

namespace TriggerChain.Command

/-! ## Readers -/

/-- The readers that a command does not have of itself. -/
structure Readers where
  /-- Reads the words of a command line. -/
  words : List String → Except Stop Asked := readArguments 0
  /-- Reads a text that holds one JSON value and nothing else. -/
  json : String → Option Json := Json.read?

/-! ## The chain file -/

/-- The setup after a member of a chain file. -/
def setMember (setup : ChainSetup) (member : String × Json) :
    Except ChainFileError ChainSetup :=
  match member with
  | ("activity_maker", .text name) => .ok { setup with activityMaker := name }
  | ("candidate_maker", .text name) => .ok { setup with candidateMaker := name }
  | ("activity", config) => .ok { setup with activityConfig := config }
  | ("candidate", config) => .ok { setup with candidateConfig := config }
  | ("activity_maker", _) => .error (.notText "activity_maker")
  | ("candidate_maker", _) => .error (.notText "candidate_maker")
  | (key, _) => .error (.unknownKey key)

/-- The setup that a chain file holds. -/
def setupOf : Json → Except ChainFileError ChainSetup
  | .object members => members.foldlM setMember {}
  | _ => .error .notAnObject

/-- The setup that the bytes of a chain file hold. -/
def Readers.setup (readers : Readers) (bytes : List UInt8) : Except Failure ChainSetup :=
  match Text.decode bytes with
  | .error _ => .error .noChainFile
  | .ok text =>
    match readers.json (String.ofList text) with
    | none => .error .notJson
    | some json => (setupOf json).mapError .chainFile

/-- A setup with the makers that a job names. -/
def Job.override (job : Job) (setup : ChainSetup) : ChainSetup :=
  { setup with
    activityMaker := job.activityMaker.getD setup.activityMaker
    candidateMaker := job.candidateMaker.getD setup.candidateMaker }

/-! ## Names of files -/

/-- The name of a path without its folders and without its last extension; a name that
    begins with its only point is kept. A path without a name gets one from its index. -/
def stemOf (path : String) (index : Nat) : String :=
  let named := (parts path).filter fun part => !(part.isEmpty || part = ['.'])
  match named.getLast? with
  | none => "partition" ++ Text.ofNat index
  | some name =>
    if name = ['.', '.'] then "partition" ++ Text.ofNat index
    else
      let extension := name.reverse.takeWhile (· ≠ '.')
      let stem := name.take (name.length - extension.length - 1)
      if stem.isEmpty then String.ofList name else String.ofList stem

/-- A file in a folder, whose path may end with a slash already. -/
def inFolder (folder name : String) : String :=
  if folder.toList.getLast? = some '/' then folder ++ name else folder ++ "/" ++ name

/-! ## Tables -/

/-- A chain that records what its makers tell. -/
abbrev RecordedChain := Chain (Recorded ActivityMaker) (Recorded CandidateMaker)

/-- The tables of events of a maker, with the names of their files. -/
def eventFiles (base : String) (sink : Option Sink) : List (String × String) :=
  match sink with
  | some (.tables t) =>
    [(base ++ "_windows.csv", t.windows), (base ++ "_tracks.csv", t.tracks),
      (base ++ "_primitives.csv", t.primitives)]
  | _ => []

/-- What the names of the files with the events of the activity maker begin with. -/
def activityBase (stem : String) : String := stem ++ "_activity"

/-- What the names of the files with the events of the candidate maker begin with. -/
def candidateBase (stem : String) : String := stem ++ "_candidate"

/-- The tables of events of a chain, with the names of their files. -/
def debugFiles (stem : String) (c : RecordedChain) : List (String × String) :=
  eventFiles (activityBase stem) c.activityMaker.sink
    ++ eventFiles (candidateBase stem) c.candidateMaker.sink

/-- The tables of results of a chain, with the names of their files. -/
def resultFiles (stem : String) (c : RecordedChain) : List (String × String) :=
  [(stem ++ "_activities.csv", activityTable c.activities.toList),
    (stem ++ "_candidates.csv", candidateTable c.candidates.toList)]

/-! ## Actions -/

/-- What a command does on a host: it may fail. -/
abbrev Action (m : Type → Type) := ExceptT Failure m

variable {m : Type → Type} [Monad m] [Host m]

/-- Shows lines as they are. -/
def showLines (lines : List String) : Action m Unit :=
  lines.forM fun line => (Host.display (.text line) : m Unit)

/-- Adds to the log what is loud enough. -/
def logNotices (verbosity : Nat) (notices : List Notice) : Action m Unit :=
  (notices.filter fun n => n.level.isShownAt verbosity).forM fun n => (Host.log n : m Unit)

/-- Makes a folder. -/
def makeFolder (path : String) : Action m Unit := do
  if !(← (Host.makeFolder path : m Bool)) then throw .noFolder

/-- Writes tables into a folder. -/
def writeTables (folder : String) (tables : List (String × String)) : Action m Unit :=
  tables.forM fun (name, text) => do
    if !(← (Host.writeFile (inFolder folder name) text : m Bool)) then throw .noTable

/-- Makes the files of tables, with nothing in them yet. -/
def openTables (folder : String) (tables : List (String × String)) : Action m Unit :=
  writeTables folder (tables.map fun (name, _) => (name, ""))

/-- Makes the files for the events of a chain, with nothing in them yet. If those of the
    candidate maker cannot be made, those of the activity maker keep their heads. -/
def openEvents (folder stem : String) : Action m Unit := do
  let empty : Option Sink := some (.tables {})
  let tables := eventFiles (activityBase stem) empty
  openTables folder tables
  try
    openTables folder (eventFiles (candidateBase stem) empty)
  catch failure =>
    writeTables folder tables
    throw failure

/-- The bytes of a file of primitives. -/
def readBytes (path : String) : Action m (List UInt8) := do
  match ← (Host.readFile path : m (Option (List UInt8))) with
  | none => throw (.input path .missing)
  | some bytes => return bytes

/-- The primitives of some bytes, in the order of their start times. -/
def orderedPrimitives (path : String) (bytes : List UInt8) :
    Except Failure (List Primitive) :=
  ((primitivesOfBytes bytes).map timeOrdered).mapError (.input path)

/-! ## Processing -/

/-- The setup of the chain of a job. -/
def loadSetup (readers : Readers) (job : Job) : Action m ChainSetup :=
  match job.chain with
  | none => return job.override {}
  | some path => do
    match ← (Host.readFile path : m (Option (List UInt8))) with
    | none => throw .noChainFile
    | some bytes => return job.override (← readers.setup bytes)

/-- The makers of a chain, where some bytes of memory can be set aside for them. -/
def buildMakers (memory : Nat) (setup : ChainSetup) : Except Failure ChainSetup.Built := do
  let built ← (setup.build .builtin).mapError .ofSettings
  let asked := built.candidateMaker.bytesAsked
  if memory < asked then throw (.stopped (.noMemory asked))
  return built

/-- Builds the makers of a chain on a host. -/
def setUp (setup : ChainSetup) : Action m ChainSetup.Built := do
  let memory ← (Host.memory : m Nat)
  buildMakers memory setup

/-- Runs the chain over one partition. The files for the events are made before it runs, and
    hold what was told even if a fault ends the run. -/
def runPartition (verbosity : Nat) (job : Job) (setup : ChainSetup)
    (stem : String) (primitives : List Primitive) :
    Action m (Except Fault RecordedChain) := do
  let built ← setUp setup
  logNotices verbosity built.notices
  job.debugFolder.forM fun folder => openEvents folder stem
  let sink := job.debugFolder.map fun _ => Sink.tables {}
  let result := Chain.run { maker := built.activityMaker, sink : Recorded ActivityMaker }
    { maker := built.candidateMaker, sink : Recorded CandidateMaker } primitives
  let chain := match result with
    | .ok c => c
    | .error (_, c) => c
  logNotices verbosity chain.notices.toList
  job.debugFolder.forM fun folder => writeTables folder (debugFiles stem chain)
  return result.mapError (·.1)

/-- Writes the tables of results of a partition and shows its counters. -/
def finishPartition (job : Job) (setup : ChainSetup) (path stem : String)
    (c : RecordedChain) : Action m Unit := do
  writeTables job.output (resultFiles stem c)
  showLines
    [path ++ ":",
      statisticsLine setup.activityMaker (Maker.statistics c.activityMaker),
      statisticsLine setup.candidateMaker (Maker.statistics c.candidateMaker)]

/-- Processes files of primitives. -/
def process (readers : Readers) (verbosity : Nat) (job : Job) : Action m Unit := do
  let setup ← loadSetup readers job
  let built ← setUp setup
  logNotices verbosity built.notices
  -- A chain that cannot be built leaves no folder behind.
  makeFolder job.output
  job.debugFolder.forM makeFolder
  let partitions ← job.inputs.mapM fun path => do
    let bytes ← readBytes path
    orderedPrimitives path bytes
  -- Every file has been read before the first partition runs.
  let stems := job.inputs.zipIdx.map fun (path, i) => stemOf path i
  let results ← (stems.zip partitions).mapM fun (stem, primitives) =>
    runPartition verbosity job setup stem primitives
  -- A fault in one partition does not keep the others from running.
  let chains ← results.mapM fun result =>
    (result.mapError .stopped : Except Failure RecordedChain)
  (job.inputs.zip (stems.zip chains)).forM fun (path, stem, c) =>
    finishPartition job setup path stem c
  let total {α : Type} (count : α → Nat) (xs : List α) : String :=
    Text.ofNat (xs.foldl (fun total x => total + count x) 0)
  (Host.display (.processed job.inputs.length) : m Unit)
  showLines
    ["Total primitives: " ++ total List.length partitions,
      "Total activities: " ++ total (·.activities.size) chains,
      "Total candidates: " ++ total (·.candidates.size) chains]

/-! ## The other commands -/

/-- Shows the figures of a file. -/
def infoOn (path : String) : Action m Unit := do
  let bytes ← readBytes path
  let summary := Summary.ofPrimitives (← orderedPrimitives path bytes)
  showLines (sizeLines path bytes.length summary.count)
  if 0 < summary.count then
    let duration ← (summary.duration.mapError .stopped : Except Failure Ticks)
    showLines (figureLines summary duration)

/-- Does what is asked for. -/
def perform (readers : Readers) (verbosity : Nat) : Request → Action m Unit
  | .process job => process readers verbosity job
  | .info inputs => inputs.forM infoOn
  | .makers => showLines (makerLines .builtin)

/-! ## Command lines -/

/-- How a command line ends. -/
inductive Ending where
  /-- The command was done. -/
  | done
  /-- The words of the command line are wrong. -/
  | usage
  /-- The command failed. -/
  | failed (failure : Failure)
  deriving DecidableEq, Repr, Inhabited

/-- The exit code of an ending, unless the program is killed. -/
def Ending.exitCode? : Ending → Option Nat
  | .done => some 0
  | .usage => some 2
  | .failed failure => failure.exitCode?

/-- The name of the program. -/
def programName : String := "rustrig"

/-- The version of the program. -/
def programVersion : String := "0.3.0"

/-- How the program is used. -/
def usageLines : List String :=
  ["Usage: " ++ programName ++ " [-v...] <COMMAND>",
    "  process <INPUT>... -o <OUTPUT> [-c <CHAIN>] [--activity-maker <NAME>]",
    "          [--candidate-maker <NAME>] [--debug-dir <DIR>]",
    "  info <INPUT>...",
    "  makers"]

/-- Runs a command line. -/
def run (words : List String) (readers : Readers := {}) : m Ending :=
  let said (lines : List String) : m Ending := do
    lines.forM fun line => Host.display (.text line)
    return .done
  match readers.words words with
  | .error .usage => return .usage
  | .error .help => said usageLines
  | .error .version => said [programName ++ " " ++ programVersion]
  | .ok (request, verbosity) => do
    match ← (perform readers verbosity request : Action m Unit).run with
    | .ok () => return .done
    | .error failure => return .failed failure

end TriggerChain.Command
