import TriggerChain.File.Primitives
import TriggerChain.Settings.Rejection
import TriggerChain.Text.Quoted

/-!
# Failures

Why a command fails, and what is said of it: the cause, with what is known of it between
parentheses or braces, texts between quotes.
-/

namespace TriggerChain.Command

/-- Why a file that sets a chain up is refused. -/
inductive ChainFileError where
  /-- It holds no JSON object. -/
  | notAnObject
  /-- A key means nothing. -/
  | unknownKey (key : String)
  /-- The name of a maker is no text. -/
  | notText (key : String)
  deriving DecidableEq, Repr, Inhabited

/-- The text of a refusal. -/
def ChainFileError.message : ChainFileError → String
  | .notAnObject => "expected a JSON object"
  | .unknownKey key => "unknown key `" ++ key ++ "`"
  | .notText key => "`" ++ key ++ "` must be a string"

/-- Why a command fails. -/
inductive Failure where
  /-- The file that sets the chain up cannot be read. -/
  | noChainFile
  /-- The file that sets the chain up is no JSON. -/
  | notJson
  /-- The file that sets the chain up is refused. -/
  | chainFile (error : ChainFileError)
  /-- A maker is not made. -/
  | maker (error : SettingsError)
  /-- A folder cannot be made. -/
  | noFolder
  /-- A file of primitives cannot be read. -/
  | input (path : String) (error : FileError)
  /-- A table cannot be written. -/
  | noTable
  /-- The arithmetic does not fit its words. -/
  | stopped (fault : Fault)
  deriving DecidableEq, Repr, Inhabited

/-- A record as text: its name, and its fields between braces. -/
def record (name : String) (fields : List (String × String)) : String :=
  name ++ " \x7b " ++ ", ".intercalate (fields.map fun (field, value) => field ++ ": " ++ value)
    ++ " \x7d"

/-- A cause as text: its name, and its argument between parentheses. -/
def cause (name argument : String) : String := name ++ "(" ++ argument ++ ")"

/-- A rejected key as text. -/
def rejectionText (r : Rejection) : String :=
  record "RejectedKey" [("key", Text.quoted r.key), ("reason", Text.quoted r.reason.message)]

/-- Why settings are not taken, as text. -/
def settingsErrorText : SettingsError → String
  | .rejected rejections =>
    cause "InvalidConfig"
      (cause "RejectedKeys" ("[" ++ ", ".intercalate (rejections.map rejectionText) ++ "]"))
  | .notAnObject got => cause "ConfigNotObject" (Text.quoted got.phrase)
  | .locked maker processed =>
    record "ConfigLocked" [("maker", Text.quoted maker), ("processed", Text.ofNat processed)]
  | .unknownMaker name => cause "UnknownMaker" (Text.quoted name)
  | .stopped fault => fault.message

/-- The failure of a command whose makers are not made. A fault stops it like any other. -/
def Failure.ofSettings : SettingsError → Failure
  | .stopped fault => .stopped fault
  | error => .maker error

/-- Why a file of primitives cannot be read, as text. -/
def fileErrorText (path : String) : FileError → String
  | .missing => "Io"
  | .notText error => cause "InvalidFormat" (Text.quoted (notTextMessage path error))
  | .badLine line reason =>
    record "Parse"
      [("path", Text.quoted path), ("line", Text.ofNat line),
        ("reason", Text.quoted reason.message)]

/-- What is said of a failure. -/
def Failure.text : Failure → String
  | .noChainFile | .noFolder => "Io"
  | .notJson => "Json"
  | .chainFile error => cause "ChainFile" (Text.quoted error.message)
  | .maker error => cause "Core" (settingsErrorText error)
  | .input path error => cause "RustrigIo" (fileErrorText path error)
  | .noTable => cause "RustrigIo" "Io"
  | .stopped fault => fault.message

/-- The exit code of a failure: a fault is told apart from what was expected to fail. A
    program without memory is killed and has no exit code. -/
def Failure.exitCode? : Failure → Option Nat
  | .stopped (.noMemory _) => none
  | .stopped _ => some 101
  | _ => some 1

end TriggerChain.Command
