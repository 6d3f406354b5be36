import TriggerChain.Command.Place
import TriggerChain.Event.Notice
import TriggerChain.Text.Lines
import TriggerChain.Text.Numeral

/-!
# Hosts

A command runs on a host, which holds files in folders, shows lines and keeps a log. A
desk is a host that is a value: what a command does on it can be looked at afterwards.
-/

namespace TriggerChain.Command

/-- A line that a command shows. -/
inductive Line where
  /-- A line as it is. -/
  | text (line : String)
  /-- How many files were processed; shown with the time that it took. -/
  | processed (files : Nat)
  deriving DecidableEq, Repr, Inhabited

/-- A line without the time that is shown with it. -/
def Line.plain : Line → String
  | .text line => line
  | .processed files => "Processed " ++ Text.ofNat files ++ " files"

/-- What a command may do. -/
class Host (m : Type → Type) where
  /-- The bytes of memory that can be set aside. -/
  memory : m Nat
  /-- Reads a file, if there is one. -/
  readFile : String → m (Option (List UInt8))
  /-- Makes a folder and those above it, and says whether they are there. -/
  makeFolder : String → m Bool
  /-- Writes a file, over one that is there, and says whether it could. -/
  writeFile : String → String → m Bool
  /-- Shows a line. -/
  display : Line → m Unit
  /-- Adds to the log. -/
  log : Notice → m Unit

/-! ## Desks -/

/-- A host as a value. -/
structure Desk where
  /-- The machine on which it stands. -/
  machine : Machine := .usual
  /-- The files by the names of their places. -/
  files : KeyTable (List UInt8) := []
  /-- The names of the places of the folders. -/
  folders : List String := []
  /-- The lines shown, latest first. -/
  shown : List Line := []
  /-- The log, latest first. -/
  logged : List Notice := []

namespace Desk

/-- Whether a place is a folder. The folder that a command runs in is one, and so are those
    above it. -/
def isFolder (d : Desk) (place : Place) : Bool :=
  place.isOutside || d.machine.folders.contains place.name || d.folders.contains place.name

/-- Whether a place is a file. -/
def isFile (d : Desk) (place : Place) : Bool :=
  d.machine.hasFile place.name || (d.files.get? place.name).isSome

/-- Goes from a folder to one of its parts or to the folder above it. -/
def enter? (d : Desk) (place : Place) (part : List Char) : Option Place :=
  if staysThere part then some place
  else if leadsUp part then some (d.machine.above place)
  else
    let inner : Place := String.ofList part :: place
    if d.isFolder inner then some inner else none

/-- The place that a path names in a folder that is there. -/
def placeOf? (d : Desk) (path : String) : Option Place :=
  let last := lastPart path
  if d.machine.isUsable path && d.machine.isName last then
    ((parts path).dropLast.foldlM d.enter? (Place.startOf path)).map (String.ofList last :: ·)
  else none

/-- What is in a file. -/
def contents? (d : Desk) (path : String) : Option (List UInt8) :=
  (d.placeOf? path).bind fun place =>
    if d.machine.hasFile place.name then some [] else d.files.get? place.name

/-- Writes a file. -/
def writeFile (d : Desk) (path text : String) : Option Desk :=
  (d.placeOf? path).bind fun place =>
    if d.isFolder place || d.machine.isSealed place then none
    else match d.machine.devices.get? place.name with
      | some .sink => some d
      | some .full => if text.isEmpty then some d else none
      | none => some { d with files := d.files.set place.name text.toUTF8.toList }

/-- Goes into a part of a folder, which is made if it is not there. -/
def makePart? (state : Desk × Place) (part : List Char) : Option (Desk × Place) :=
  let (d, place) := state
  if let some inner := d.enter? place part then some (d, inner)
  else
    let inner : Place := String.ofList part :: place
    if d.machine.isName part && !d.isFile inner && !d.machine.isSealed inner then
      some ({ d with folders := inner.name :: d.folders }, inner)
    else none

/-- Makes a folder and those above it. A path may end with slashes; where it ends with a
    part `.`, the folder itself must be there already, and only those above it are made. -/
def makeFolder (d : Desk) (path : String) : Option Desk :=
  let parts := parts path
  let named := parts.reverse.dropWhile staysThere
  let ending := parts.reverse.takeWhile staysThere
  match d.machine.isUsable path, named with
  | false, _ => none
  | true, [] => some d
  | true, last :: outer => do
    let (d, place) ← outer.reverse.foldlM makePart? (d, Place.startOf path)
    if ending.contains ['.'] then (d.enter? place last).map fun _ => d
    else (makePart? (d, place) last).map (·.1)

/-- A desk with a file more, in folders that are made for it. -/
def putFile (d : Desk) (path : String) (bytes : List UInt8) : Desk :=
  match (parts path).dropLast.foldlM makePart? (d, Place.startOf path) with
  | none => d
  | some (d, place) =>
    let inner : Place := String.ofList (lastPart path) :: place
    { d with files := d.files.set inner.name bytes }

/-- The files in the folder of the desk that were not on another desk, whatever was in
    them there. -/
def madeSince (d before : Desk) : KeyTable (List UInt8) :=
  d.files.filter fun (name, _) => (before.files.get? name).isNone && !Place.leadsOut name

/-- What is to be seen of the lines shown, in order. A line that has newlines in it is to
    be seen as several lines. -/
def screen (d : Desk) : List String :=
  let text := d.shown.reverse.map fun line => line.plain.toList ++ ['\n']
  (Text.lines text.flatten).map String.ofList

/-- Goes on with the desk that an action leaves, and says whether it could be done. -/
def settle (d : Desk) : Option Desk → Bool × Desk
  | some next => (true, next)
  | none => (false, d)

instance : Host (StateM Desk) where
  memory := fun d => (d.machine.memory, d)
  readFile path := fun d => (d.contents? path, d)
  makeFolder path := fun d => d.settle (d.makeFolder path)
  writeFile path text := fun d => d.settle (d.writeFile path text)
  display line := fun d => ((), { d with shown := line :: d.shown })
  log notice := fun d => ((), { d with logged := notice :: d.logged })

end Desk

end TriggerChain.Command
