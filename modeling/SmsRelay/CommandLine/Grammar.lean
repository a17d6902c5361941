-- SUMMARY: Command lines with options and positional arguments: reading them, and the reports of what is wrong with them.
import SmsRelay.Text.Digit
import SmsRelay.Text.Quoted

/-!
# Grammars of command lines

Command lines with options and positional arguments, freely mixed. An option
may be shortened as long as it stays the only one that it can mean, and its
argument may follow it after an equals sign. Two hyphens alone end the options.
What looks like a negative number, or has a blank in it, is an argument. The
last positional argument may take everything that follows it.
-/

namespace SmsRelay.CommandLine

/-- An option, by all its names; the last is the one that stands for it. -/
structure Opt where
  names : List String
  takesArgument : Bool
  deriving DecidableEq, Repr

/-- The name of an option in reports. -/
def Opt.title (o : Opt) : String := "/".intercalate o.names

structure Grammar where
  /-- The name of the program in reports. -/
  program : String
  options : List Opt
  /-- The names of the positional arguments. -/
  positionals : List String
  /-- Whether positional arguments may be left out; the one there is then takes all that follows. -/
  opens : Bool := false

/-- What can be wrong with a command line. -/
inductive Problem where
  | unrecognized (arguments : List String)
  | required (names : List String)
  | invalidChoice (name choice : String) (choices : List String)
  | expectedArgument (o : Opt)
  | ignoredArgument (o : Opt) (argument : String)
  | invalidInteger (o : Opt) (argument : String)
  | ambiguous (argument : String) (names : List String)
  deriving DecidableEq, Repr

def Problem.message : Problem → String
  | unrecognized arguments => "unrecognized arguments: " ++ " ".intercalate arguments
  | required names => "the following arguments are required: " ++ ", ".intercalate names
  | invalidChoice name choice choices =>
    "argument " ++ name ++ ": invalid choice: " ++ Text.quote choice ++ " (choose from " ++
      ", ".intercalate (choices.map Text.quote) ++ ")"
  | expectedArgument o => "argument " ++ o.title ++ ": expected one argument"
  | ignoredArgument o argument =>
    "argument " ++ o.title ++ ": ignored explicit argument " ++ Text.quote argument
  | invalidInteger o argument => "argument " ++ o.title ++ ": invalid int value: " ++ Text.quote argument
  | ambiguous argument names =>
    "ambiguous option: " ++ argument ++ " could match " ++ ", ".intercalate names

-- ---------------------------------------------------------------------------
-- Words
-- ---------------------------------------------------------------------------

/-- What may be attached to the name of an option. -/
inductive Attachment where
  | none
  | afterEquals (s : String)
  /-- What follows a single letter at once. -/
  | letters (cs : List Char)
  deriving DecidableEq, Repr

/-- An option as it stands on the command line: under which name, and with what attached to it. -/
structure Use where
  option : Opt
  name : String
  attached : Attachment := .none
  deriving DecidableEq, Repr

/-- What a word of the command line is. -/
inductive Word where
  | argument (s : String)
  /-- Two hyphens, after which no option stands. -/
  | separator
  | option (s : String) (u : Use)
  | unknownOption (s : String)
  deriving DecidableEq, Repr

def Word.text : Word → String
  | argument s => s
  | separator => "--"
  | option s _ => s
  | unknownOption s => s

def Word.isOption : Word → Bool
  | option .. => true
  | unknownOption _ => true
  | _ => false

namespace Grammar

/-- All names of options, with their options. -/
def names (g : Grammar) : List (String × Opt) :=
  g.options.flatMap fun o => o.names.map fun n => (n, o)

/-- A text up to its first equals sign, and what comes after it. -/
def splitEquals (s : String) : String × Attachment :=
  let cs := s.toList
  match cs.dropWhile (· ≠ '=') with
  | [] => (s, .none)
  | _ :: rest => (String.ofList (cs.takeWhile (· ≠ '=')), .afterEquals (String.ofList rest))

/-- The options that a word with one or two hyphens may be short for. After one hyphen an argument
may follow the letter at once. -/
def candidates (g : Grammar) (s : String) : List Use :=
  if s.startsWith "--" then
    let (start, attached) := splitEquals s
    (g.names.filter (·.1.startsWith start)).map fun n => ⟨n.2, n.1, attached⟩
  else g.names.filterMap fun n =>
    if n.1 = String.ofList (s.toList.take 2) then some ⟨n.2, n.1, .letters (s.toList.drop 2)⟩
    else if n.1.startsWith s then some ⟨n.2, n.1, .none⟩
    else none

/-- Digits, with one line end after them at most. -/
def isDigitRow (cs : List Char) : Bool :=
  match cs.reverse with
  | '\n' :: ds => !ds.isEmpty && ds.all Text.isDigit
  | ds => !ds.isEmpty && ds.all Text.isDigit

/-- Whether a word looks like a negative number. -/
def isNegativeNumber (s : String) : Bool :=
  match s.toList with
  | '-' :: cs =>
    isDigitRow cs ||
      match cs.dropWhile Text.isDigit with
      | '.' :: fraction => isDigitRow fraction
      | _ => false
  | _ => false

/-- What a word before the separator is. -/
def readWord (g : Grammar) (s : String) : Except Problem Word :=
  if !s.startsWith "-" then .ok (.argument s)
  else match g.names.lookup s with
    | some o => .ok (.option s ⟨o, s, .none⟩)
    | none =>
      if s = "-" then .ok (.argument s)
      else
        let (start, attached) := splitEquals s
        match g.names.lookup start with
        | some o => .ok (.option s ⟨o, start, attached⟩)
        | none =>
          match g.candidates s with
          | [u] => .ok (.option s u)
          | [] =>
            if isNegativeNumber s ∨ s.contains ' ' then .ok (.argument s) else .ok (.unknownOption s)
          | us => .error (.ambiguous s (us.map (·.name)))

/-- The words of a command line. -/
def readWords (g : Grammar) : List String → Except Problem (List Word)
  | [] => .ok []
  | s :: rest =>
    if s = "--" then .ok (.separator :: rest.map .argument)
    else do
      let w ← g.readWord s
      return w :: (← readWords g rest)

end Grammar

-- ---------------------------------------------------------------------------
-- Reading
-- ---------------------------------------------------------------------------

/-- Something that a command line asks for, in the order in which it does. -/
inductive Order where
  | option (o : Opt) (argument : Option String)
  /-- The words for a positional argument. -/
  | positional (name : String) (words : List String)
  deriving DecidableEq, Repr

/-- What a command line comes to: orders, and then words that nothing takes, or a problem. -/
structure Reading where
  orders : List Order
  ending : Except Problem (List String)

/-- Where the reading of a command line stands. -/
structure Position where
  words : List Word
  /-- The positional arguments that are still to come. -/
  positionals : List String
  extras : List String := []

namespace Grammar

/-- The words at the front that make up one positional argument: a word, with the separator where it
stands beside it. -/
def takePositional (g : Grammar) (ws : List Word) : Option (List Word × List Word) :=
  let lead := ws.takeWhile (· = .separator)
  match ws.drop lead.length with
  | .argument s :: rest =>
    if g.opens then some (ws, [])
    else
      let trail := rest.takeWhile (· = .separator)
      some (lead ++ .argument s :: trail, rest.drop trail.length)
  | _ => none

/-- The words of a positional argument without the first separator; where it takes all that
follows, it keeps it. -/
def positionalWords (g : Grammar) (ws : List Word) : List String :=
  if g.opens then ws.map Word.text else (ws.map Word.text).erase "--"

/-- Take as many positional arguments as there are words for. -/
def takePositionals (g : Grammar) : List String → List Word → List Order × List String × List Word
  | [], ws => ([], [], ws)
  | name :: names, ws =>
    match g.takePositional ws with
    | none => ([], name :: names, ws)
    | some (own, rest) =>
      let (orders, names, rest) := g.takePositionals names rest
      (.positional name (g.positionalWords own) :: orders, names, rest)

/-- What stands after the letter of an option without an argument: more letters, each an option.
From a letter that is none on, the rest is left over. -/
def unfoldLetters (g : Grammar) (o : Opt) : List Char → Except Problem (List Order × List String)
  | [] => .ok ([.option o none], [])
  | '-' :: cs => .error (.ignoredArgument o (String.ofList ('-' :: cs)))
  | c :: cs =>
    match g.names.lookup (String.ofList ['-', c]), cs with
    | none, _ => .ok ([.option o none], [String.ofList ('-' :: c :: cs)])
    | some o', '=' :: argument => .error (.ignoredArgument o' (String.ofList argument))
    | some o', cs => do
      let (orders, left) ← g.unfoldLetters o' cs
      return (.option o none :: orders, left)

/-- Take an option and its argument: what is ordered, what is left over, and the words after them. -/
def takeOption (g : Grammar) (u : Use) (rest : List Word) :
    Except Problem (List Order × List String × List Word) :=
  match u.option.takesArgument, u.attached with
  | true, .none =>
    match rest with
    | .argument a :: rest => .ok ([.option u.option (some a)], [], rest)
    | _ => .error (.expectedArgument u.option)
  | true, .afterEquals a => .ok ([.option u.option (some a)], [], rest)
  | true, .letters cs => .ok ([.option u.option (some (String.ofList cs))], [], rest)
  | false, .none => .ok ([.option u.option none], [], rest)
  | false, .afterEquals a => .error (.ignoredArgument u.option a)
  | false, .letters cs => (g.unfoldLetters u.option cs).map fun (orders, left) => (orders, left, rest)

/-- The reading after the last option: positional arguments, and what is left. -/
def readEnd (g : Grammar) (p : Position) : Reading :=
  let (orders, missing, rest) := g.takePositionals p.positionals p.words
  if missing.isEmpty ∨ g.opens then ⟨orders, .ok (p.extras ++ rest.map Word.text)⟩
  else ⟨orders, .error (.required missing)⟩

/-- Read on from a position. Every round takes at least one word. -/
def readFrom (g : Grammar) : (rounds : Nat) → Position → Reading
  | 0, p => g.readEnd p
  | rounds + 1, p =>
    if !p.words.any Word.isOption then g.readEnd p
    else
      let before := p.words.takeWhile (!Word.isOption ·)
      let (orders, positionals, rest) :=
        if before.isEmpty then ([], p.positionals, p.words) else g.takePositionals p.positionals p.words
      if rest.length < p.words.length then
        let r := g.readFrom rounds { p with words := rest, positionals }
        ⟨orders ++ r.orders, r.ending⟩
      else
        let extras := p.extras ++ before.map Word.text
        match p.words.drop before.length with
        | .option _ u :: rest =>
          match g.takeOption u rest with
          | .error problem => ⟨[], .error problem⟩
          | .ok (orders, left, rest) =>
            let r := g.readFrom rounds { words := rest, positionals := p.positionals, extras := extras ++ left }
            ⟨orders ++ r.orders, r.ending⟩
        | w :: rest =>
          g.readFrom rounds { words := rest, positionals := p.positionals, extras := extras ++ [w.text] }
        | [] => g.readEnd p

/-- Read a command line. -/
def read (g : Grammar) (arguments : List String) : Reading :=
  match g.readWords arguments with
  | .error problem => ⟨[], .error problem⟩
  | .ok words => g.readFrom words.length { words, positionals := g.positionals }

end Grammar

end SmsRelay.CommandLine
