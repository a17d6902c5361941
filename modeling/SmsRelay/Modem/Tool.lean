-- SUMMARY: Runs of the modem tool, and how their output is read or reported.
import SmsRelay.Config
import SmsRelay.Modem.SearchPath
import SmsRelay.Text.Utf8

/-!
# The modem tool

The command-line program that talks to the device: how it is found, what its
runs leave behind, and how their output is read. It is run once for each
command and answers with JSON.
-/

namespace SmsRelay.Modem

/-- What a run of a program leaves behind. The status of a program that was killed is the negative
number of the signal. -/
structure Run where
  output : List UInt8 := []
  errors : List UInt8 := []
  status : Int := 0

/-- What is found at a place in the file system. -/
inductive Installed where
  | directory
  /-- A file that may not be run. -/
  | locked
  /-- A file that may be run but does not start. -/
  | broken (code : Nat) (problem : String)
  /-- A program, and what its runs leave behind. -/
  | program (run : List String → Run)

/-- The file system, by absolute paths. -/
abbrev Files := String → Option Installed

/-- Whether the file at a path may be run. -/
def isRunnable (files : Files) (directory path : String) : Bool :=
  match files (Path.absolute directory path) with
  | some (.broken ..) => true
  | some (.program _) => true
  | _ => false

/-- The path of a program. A name with a slash is a path itself; any other is looked for in the
directories of the search path, in order. -/
def find? (files : Files) (directory searchPath name : String) : Option String :=
  if name.contains '/' then if isRunnable files directory name then some name else none
  else if searchPath = "" then none
  else ((searchPath.splitOn ":").map fun d => Path.join d name).find? (isRunnable files directory)

/-- The modem tool, as it is configured. -/
structure Tool where
  name : Value
  searchPath : String

namespace Tool

/-- The tool that a gateway is configured with. `path` is the search path of the surroundings. -/
def ofConfig (directory : String) (path : Value) (c : Config) : Except Fault Tool := do
  return ⟨c.executable, (← Modem.searchPath directory c.home path).plain⟩

/-- Start the program at a path: what runs, or why nothing does. -/
def startAt (files : Files) (directory path command : String) (arguments : List String) :
    Except Fault (List String → Run) :=
  if (command :: arguments).any (·.contains '\x00') then .error .nullByte
  else match files (Path.absolute directory path) with
    | some (.program run) => .ok run
    | some (.broken code problem) =>
      .error (.tool { command, problem := "failed to start: " ++ (Fault.system code problem path).message })
    | _ => .error (.tool { command, problem := "failed to start" })

/-- Start the tool. -/
def start (files : Files) (directory : String) (t : Tool) (command : String) (arguments : List String) :
    Except Fault (List String → Run) :=
  match t.name with
  | .text name =>
    match find? files directory t.searchPath name with
    | some path => startAt files directory path command arguments
    | none =>
      .error (.tool { command, problem := "executable " ++ Text.quote name ++ " not found on PATH" })
  | v => .error (.notPath v.kind)

/-- The value that a run of the tool has printed. -/
def read (command : String) (run : Run) : Except Fault Value :=
  let said := Text.Utf8.decodeLenient run.errors
  let unusable (f : Fault) : Fault :=
    .tool { command, problem := "produced invalid/incomplete JSON: " ++ f.message
            exitCode := some run.status, errorText := said }
  if run.status ≠ 0 then
    .error (.tool { command, problem := "exited with non-zero status " ++ toString run.status
                    exitCode := some run.status, errorText := said })
  else match Text.Utf8.decode run.output with
    | .error f => .error (unusable (.badUtf8 f))
    | .ok text =>
      match Json.parse text with
      | .ok v => .ok v
      | .error (.longInteger digits) => .error (.longInteger digits)
      | .error f => .error (unusable (.badJson f))

end Tool

end SmsRelay.Modem
