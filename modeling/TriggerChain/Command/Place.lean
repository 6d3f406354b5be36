import TriggerChain.KeyTable

/-!
# Places

A path is cut at its slashes into parts. What it leads to is a place: seen from the root if
the path begins with a slash, and else from the folder that a command runs in. How deep that
folder is, how long names may be and what else there is depends on the machine.
-/

namespace TriggerChain.Command

/-! ## Paths -/

/-- Cuts a text at its slashes. -/
def cutAtSlashes : List Char → List (List Char)
  | [] => [[]]
  | c :: rest =>
    if c = '/' then [] :: cutAtSlashes rest
    else match cutAtSlashes rest with
      | [] => [[c]]
      | part :: more => (c :: part) :: more

/-- The parts of a path between its slashes. -/
def parts (path : String) : List (List Char) := cutAtSlashes path.toList

/-- Whether a part of a path stays in the folder that the parts before it lead to. -/
def staysThere (part : List Char) : Bool := part.isEmpty || part = ['.']

/-- Whether a part of a path leads to the folder above. -/
def leadsUp (part : List Char) : Bool := part = ['.', '.']

/-- The last part of a path: the name of the file that it leads to. -/
def lastPart (path : String) : List Char := (parts path).getLastD []

/-! ## Places -/

/-- A place: its parts, innermost first. The outermost part of a place seen from the root is
    empty. The outermost parts of other places may be `..`, which lead out of the folder
    that a command runs in. -/
abbrev Place := List String

namespace Place

/-- The folder that a command runs in. -/
def here : Place := []

/-- The root. -/
def root : Place := [""]

/-- The name of a place. -/
def name (place : Place) : String := "/".intercalate place.reverse

/-- Whether a place is the folder that a command runs in or one above it. -/
def isOutside (place : Place) : Bool := place = root || place.all (· = "..")

/-- Where a path starts. -/
def startOf (path : String) : Place := if path.toList.head? = some '/' then root else here

/-- Whether the place with a name is not in the folder that a command runs in. -/
def leadsOut (name : String) : Bool :=
  (parts name).head?.any fun part => part.isEmpty || leadsUp part

end Place

/-! ## Machines -/

/-- What becomes of what is written to a device. -/
inductive Device where
  /-- It is lost. -/
  | sink
  /-- It is refused. -/
  | full
  deriving DecidableEq, Repr, Inhabited

/-- What a command finds on the machine that it runs on, apart from the files that it is
    about. -/
structure Machine where
  /-- How many folders below the root a command runs. -/
  depth : Nat
  /-- The most bytes that the name of a file or folder may have. -/
  longestName : Nat
  /-- The most bytes that a path may have. -/
  longestPath : Nat
  /-- The names of the folders outside of the folder that a command runs in. -/
  folders : List String
  /-- The folders that show what the machine does; nothing can be made in them. -/
  sealedFolders : List Place
  /-- The devices. They have the size zero, so nothing is read from them. -/
  devices : KeyTable Device
  /-- Files that show what the machine does. They have the size zero, as devices have. -/
  files : List String
  /-- The bytes of memory that can be set aside. -/
  memory : Nat
  /-- None of the devices and files is named as a table is. -/
  noTables : ∀ name ∈ devices.keys ++ files, ¬ ".csv".toList <:+ lastPart name

namespace Machine

/-- Whether a part of a path can be the name of a file or folder. -/
def isName (machine : Machine) (part : List Char) : Bool :=
  !(staysThere part || leadsUp part || part.contains '\x00')
    && (String.ofList part).utf8ByteSize ≤ machine.longestName

/-- Whether a path is not too long. -/
def isUsable (machine : Machine) (path : String) : Bool :=
  path.utf8ByteSize ≤ machine.longestPath

/-- The place of the folder above; above the root is the root. -/
def above (machine : Machine) (place : Place) : Place :=
  if place = .root then .root
  else if place.isOutside then
    if place.length + 1 < machine.depth then ".." :: place else .root
  else place.tail

/-- Whether a place is in a folder in which nothing can be made, or is one. -/
def isSealed (machine : Machine) (place : Place) : Bool :=
  machine.sealedFolders.any (·.isSuffixOf place)

/-- Whether there is a file with a name, from which nothing is read. -/
def hasFile (machine : Machine) (name : String) : Bool :=
  (machine.devices.get? name).isSome || machine.files.contains name

/-- A machine of the usual kind. A desk stands on it unless something else is said; what is proved
    of commands is proved for any machine. -/
def usual : Machine where
  depth := 2
  longestName := 255
  longestPath := 4095
  folders :=
    ["/dev", "/etc", "/home", "/opt", "/proc", "/proc/self", "/root", "/sys", "/tmp", "/usr",
      "/usr/bin", "/usr/lib", "/usr/local", "/var", "/var/tmp"]
  sealedFolders := [["proc", ""], ["sys", ""]]
  devices :=
    [("/dev/full", .full), ("/dev/null", .sink), ("/dev/random", .sink),
      ("/dev/stderr", .sink), ("/dev/stdin", .sink), ("/dev/stdout", .sink),
      ("/dev/urandom", .sink), ("/dev/zero", .sink)]
  files :=
    ["/proc/cpuinfo", "/proc/filesystems", "/proc/loadavg", "/proc/meminfo", "/proc/mounts",
      "/proc/self/cmdline", "/proc/self/environ", "/proc/self/maps", "/proc/self/stat",
      "/proc/self/status", "/proc/stat", "/proc/uptime", "/proc/version"]
  memory := 0x800000000
  noTables := by decide +kernel

end Machine

end TriggerChain.Command
