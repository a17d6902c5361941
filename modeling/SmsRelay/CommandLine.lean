-- SUMMARY: The commands of the relay, with their options and the texts of their help.
import SmsRelay.CommandLine.Grammar
import SmsRelay.Number.Integer
import SmsRelay.Value

/-!
# The command line

`smsrelay` polls the modem, `smsrelay send` sends one message, and
`smsrelay inbox` lists what has been received.
-/

namespace SmsRelay

/-- What is to be done. The arguments of a command are texts, but one that consists of two hyphens
alone may be lost. -/
inductive Command where
  | run
  | send (destination text : Value)
  | inbox (limit : Int)

/-- Why a command line leads to no command. -/
inductive CommandLine.Refusal where
  /-- Help is asked for. -/
  | help (program : String)
  | misuse (program : String) (problem : CommandLine.Problem)

namespace CommandLine

/-- The last line of what is printed about a refusal. -/
def Refusal.line? : Refusal → Option String
  | help _ => none
  | misuse program problem => some (program ++ ": error: " ++ problem.message)

/-- The exit code of a program that was refused its command line. -/
def Refusal.exitCode : Refusal → Nat
  | help _ => 0
  | misuse .. => 2

def helpOption : Opt := ⟨["-h", "--help"], false⟩

def limitOption : Opt := ⟨["--limit"], true⟩

def commands : List String := ["run", "send", "inbox"]

def mainGrammar : Grammar := ⟨"smsrelay", [helpOption], ["command"], true⟩

def runGrammar : Grammar := ⟨"smsrelay run", [helpOption], [], false⟩

def sendGrammar : Grammar := ⟨"smsrelay send", [helpOption], ["destination", "text"], false⟩

def inboxGrammar : Grammar := ⟨"smsrelay inbox", [helpOption, limitOption], [], false⟩

/-- What the orders of a command line have come to. -/
structure Collected where
  values : List (String × Value) := []
  limit : Int := 20

/-- A positional argument as a value. -/
def valueOf : List String → Value
  | [s] => .text s
  | ss => .list (ss.map .text)

/-- Carry one order out. -/
def collect (g : Grammar) (c : Collected) : Order → Except Refusal Collected
  | .positional name words => .ok { c with values := c.values ++ [(name, valueOf words)] }
  | .option o argument =>
    match argument with
    | none => .error (.help g.program)
    | some a =>
      match Number.readInteger a with
      | .ok n => .ok { c with limit := n }
      | .error _ => .error (.misuse g.program (.invalidInteger o a))

/-- What the words after a command come to, and those that it does not take. -/
def readRest (g : Grammar) (words : List String) : Except Refusal (Collected × List String) := do
  let r := g.read words
  let c ← r.orders.foldlM (collect g) {}
  let extras ← r.ending.mapError (.misuse g.program)
  return (c, extras)

/-- The command that words spell, and the words that it does not take. -/
def readCommand : List String → Except Refusal (Command × List String)
  | [] => .ok (.run, [])
  | "run" :: rest => do
    let (_, extras) ← readRest runGrammar rest
    return (.run, extras)
  | "send" :: rest => do
    let (c, extras) ← readRest sendGrammar rest
    return (.send ((c.values.lookup "destination").getD .null) ((c.values.lookup "text").getD .null), extras)
  | "inbox" :: rest => do
    let (c, extras) ← readRest inboxGrammar rest
    return (.inbox c.limit, extras)
  | name :: _ => .error (.misuse mainGrammar.program (.invalidChoice "command" name commands))

/-- Carry one order of the main command line out; the command so far, and what it does not take. -/
def followMain (_ : Command × List String) : Order → Except Refusal (Command × List String)
  | .positional _ words => readCommand words
  | .option .. => .error (.help mainGrammar.program)

/-- The command that a command line spells. -/
def read (arguments : List String) : Except Refusal Command := do
  let r := mainGrammar.read arguments
  let (command, inner) ← r.orders.foldlM followMain (.run, [])
  let outer ← r.ending.mapError (.misuse mainGrammar.program)
  match outer ++ inner with
  | [] => return command
  | extras => throw (.misuse mainGrammar.program (.unrecognized extras))

end CommandLine

end SmsRelay
