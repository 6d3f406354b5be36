import TriggerChain.Command.Run

/-!
# The program

Commands on the machine itself.
-/

namespace TriggerChain

/-- What a command does on the machine, from a starting time in milliseconds. -/
abbrev OnMachine := ReaderT Nat IO

/-- An action, and whether it could be done. -/
def attempt (action : IO Unit) : IO Bool :=
  tryCatch (action *> pure true) fun _ => pure false

/-- Memory is set aside when it is used first, so any size that can be counted is granted. -/
instance : Command.Host OnMachine where
  memory := pure Bundler.largestSize
  readFile path :=
    tryCatch ((fun bytes => some bytes.toList) <$> IO.FS.readBinFile path) fun _ => pure none
  makeFolder path := attempt (IO.FS.createDirAll path)
  writeFile path text := attempt (IO.FS.writeFile path text)
  display line := do
    let elapsed := (← IO.monoMsNow) - (← read)
    IO.println (line.render (Float.ofNat elapsed / 1000.0))
  log notice := IO.eprintln notice.line

/-- The exit code in place of that of a program that is killed. -/
def killedCode : Nat := 134

/-- Runs a command line on the machine. -/
def runProgram (words : List String) : IO UInt32 := do
  let ending ← (Command.run words : OnMachine Command.Ending).run (← IO.monoMsNow)
  match ending with
  | .done => pure ()
  | .usage => Command.usageLines.forM fun line => IO.eprintln line
  | .failed failure => IO.eprintln ("Error: " ++ failure.text)
  return (ending.exitCode?.getD killedCode).toUInt32

end TriggerChain

/-- The program. -/
def main (words : List String) : IO UInt32 := TriggerChain.runProgram words
