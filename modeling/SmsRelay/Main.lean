-- SUMMARY: The relay as a program between standard input and standard output.
import SmsRelay.Program
import Std.Time.DateTime.Timestamp

/-!
# Command line

The relay as a program. It does not start the modem tool itself: each call of
the tool goes to standard error as one line, and the next line of standard
input is taken for what the tool has printed. When there is no more input the
tool counts as missing. The store lasts as long as the program.
-/

open SmsRelay

/-- The present time, as the store enters it. -/
def presentTime : IO String := do
  let now ← Std.Time.Timestamp.now
  return ((Timestamp.ofEpoch? (now.toNanosecondsSinceUnixEpoch.val.toNat / 1000)).map Timestamp.iso).getD ""

/-- Hand a call of the modem tool over, and take what it has printed. -/
def callTool (tool : Modem.Tool) (command : String) (arguments : List String) : IO (Except Fault Value) := do
  IO.eprintln (Value.list (.text command :: arguments.map .text)).shown
  let line ← (← IO.getStdin).getLine
  let files : Modem.Files := fun _ =>
    if line.isEmpty then none else some (.program fun _ => { output := line.toUTF8.toList })
  match tool.start files "/" command arguments with
  | .error f => return .error f
  | .ok run => return Modem.Tool.read command (run (command :: arguments))

/-- Write an entry to the console, or add it to the log file. -/
def writeEntry (setup : Log.Setup) (e : Log.Entry) : IO Unit := do
  if setup.shows e then
    let line := setup.line (← presentTime) e
    for d in setup.destinations do
      match d with
      | .console => IO.eprintln line
      | .file path _ _ =>
        let h ← IO.FS.Handle.mk path .append
        h.putStrLn line

/-- The longest sleep without a break, in milliseconds. -/
def sleepSpan : Nat := 3600000

/-- Sleep for so many milliseconds. -/
def sleep (millis : Nat) : IO Unit := do
  for _ in [0:millis / sleepSpan] do IO.sleep (UInt32.ofNat sleepSpan)
  IO.sleep (UInt32.ofNat (millis % sleepSpan))

/-- How many cycles polling goes on for, and how many hours an interval without end lasts. -/
def cycleLimit : Nat := 1000000000

def surroundings (directory : String) (path : Value) : Program.Surroundings IO where
  run := callTool
  now := presentTime
  print s := do
    IO.print s
    (← IO.getStdout).flush
  note := writeEntry
  wait config := sleep (config.intervalMillis.getD (cycleLimit * sleepSpan))
  directory
  path

/-- The settings in the configuration file that the surroundings name; the standard ones if they name
none. -/
def readSettings (root : String) : IO (Except Fault Settings) := do
  match ← IO.getEnv "SMSRELAY_CONFIG" with
  | none => return Settings.ofValue root Settings.standard
  | some path =>
    try
      let text ← IO.FS.readFile path
      return Settings.ofText root text
    catch _ => return .error (.noConfigFile path)

def main (arguments : List String) : IO UInt32 := do
  let root := (← IO.currentDir).toString
  let path := match ← IO.getEnv "PATH" with
    | some p => Value.text p
    | none => .null
  match ← readSettings root with
  | .error f =>
    IO.eprintln f.message
    return 1
  | .ok settings =>
    let act := Program.run (surroundings root path) root settings cycleLimit arguments
    match (← act.run { store := {} }).1 with
    | .done => return 0
    | .refused r =>
      if let some line := r.line? then IO.eprintln line
      return UInt32.ofNat r.exitCode
    | .failed f =>
      IO.eprintln f.message
      return 1
