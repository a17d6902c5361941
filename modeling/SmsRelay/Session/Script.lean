-- SUMMARY: Scripts of handlers, functions and coroutines alike: acts, arguments, and things that can be awaited.
import SmsRelay.Gateway.Phase

/-!
# Scripted applications

Handlers whose every move is laid down beforehand. A script says what a call
does: acts in a row, by how often the script has been called before and by what
it is called with. A plain function does them when it is called, and cannot
wait. A coroutine does nothing when it is called: its acts are those of an
awaitable, which whoever called may wait for, or leave to run on its own.
-/

namespace SmsRelay.Session

/-- How a handler is defined. -/
inductive Mode where
  /-- A function, which runs when it is called. -/
  | plain
  | coroutine
  deriving DecidableEq, Repr

/-- What a script is told of an argument. It cannot tell one callable from another, and is told of no callbacks. -/
inductive Told where
  | item (i : Item)
  | outbound (destination text : String) (context : Supplied Unit)
  | result (r : TransmitResult)
  | candidate (c : Candidate)
  | fault (f : Fault)

mutual

/-- One thing that a handler does in a call. -/
inductive Act where
  /-- Return what the event asks for: keep a part, return the kept parts, or nothing. -/
  | comply
  | fail (f : Fault)
  | give (r : Returned) (settled : r.isAwaitable = false)
  /-- Return something that does the acts when somebody awaits it. -/
  | defer (acts : List Act)
  /-- Send a message through the gateway. -/
  | send (destination text : Value) (context callback : Offer)
  /-- Register handlers. -/
  | register (handlers : List (String × Offer))
  /-- Stop polling. -/
  | stop
  /-- Let time pass, or with no time at all let others go first. Whatever else is waited for takes some time as well; a
  wait that outlasts the session stands for one without end. -/
  | wait (milliseconds : Nat)

/-- What comes of a call: its acts, up to the first that fails or returns something. -/
inductive Script where
  | mk (mode : Mode) (acts : Nat → List Told → List Act) (label : Option Value)

/-- What is offered as a handler. -/
inductive Offer where
  | value (v : Value)
  | script (s : Script)

end

instance : Inhabited Act := ⟨.comply⟩

instance : Inhabited Offer := ⟨.value .null⟩

namespace Script

def mode : Script → Mode
  | mk m _ _ => m

def label : Script → Option Value
  | mk _ _ l => l

/-- The acts of the `n`-th call, from zero. -/
def acts (n : Nat) (told : List Told) : Script → List Act
  | mk _ a _ => a n told

end Script

/-- What runs when a callable is called. -/
inductive Body where
  | script (s : Script)
  /-- The application that keeps its messages in the store. -/
  | application
  /-- Nothing: what was supplied cannot be called. -/
  | nothing
  deriving Inhabited

/-- A callable: a handler or a callback, told apart from others by its number. -/
structure Callable where
  id : Nat
  /-- The name under which it was supplied. -/
  name : String
  body : Body
  deriving Inhabited

/-- What a handler is called with. -/
inductive Argument where
  | item (i : Item)
  | outbound (m : Outbound Callable)
  | result (r : TransmitResult)
  | candidate (c : Candidate)
  | fault (f : Fault)

/-- What a script is told of a context. -/
def toldContext {κ : Type} : Supplied κ → Supplied Unit
  | .value v => .value v
  | .callable _ => .callable ()

def Argument.told : Argument → Told
  | item i => .item i
  | outbound m => .outbound m.destination m.text (toldContext m.context)
  | result r => .result r
  | candidate c => .candidate c
  | fault f => .fault f

open Gateway

def requestArguments : Request Callable → List Argument
  | .transmit m r => [.outbound m, .result r]
  | .receive m => [.item (.message m)]
  | .receiveSegment m => [.item (.message m)]
  | .returnSegments key => [.item (.other (.text key))]

def noticeArguments : Notice Callable → List Argument
  | .deleted c => [.candidate c]
  | .receiveError about f => [.item about, .fault f]
  | .transmitError m f => [.outbound m, .fault f]

/-- What calls a handler: the gateway, for one of its reasons, or somebody with arguments of their
own. -/
inductive Call where
  | request (r : Request Callable)
  | notice (n : Notice Callable)
  | plain (arguments : List Argument)

def Call.arguments : Call → List Argument
  | request r => requestArguments r
  | notice n => noticeArguments n
  | plain arguments => arguments

/-- Something that can be awaited. -/
inductive Pending where
  /-- A coroutine that has not begun. -/
  | coroutine (c : Callable) (script : Script) (arguments : List Argument)
  /-- Acts that a call has left for later. -/
  | deferred (name : String) (arguments : List Argument) (acts : List Act)
  /-- The application's answer to a request. -/
  | application (r : Request Callable)

/-- What a call hands back, or what comes of awaiting that. -/
inductive Given where
  | value (r : Returned)
  | awaitable (p : Pending)

/-- Nobody awaits anything a second time. -/
def Given.returned : Given → Returned
  | value r => r
  | awaitable _ => .awaitable

/-- What the modem tool does in one call, after messages have been sent and time has passed. -/
inductive Outcome where
  | fault (f : Fault)
  | value (v : Value)
  /-- Do what was asked. -/
  | comply

/-- A message to be sent, with what is to be attached to it. -/
structure Sending where
  destination : Value
  text : Value
  context : Offer := .value .null
  callback : Offer := .value .null

structure Reply where
  /-- Messages that the application sends while the tool runs. -/
  sending : List Sending := []
  /-- How long the tool takes, in milliseconds. -/
  delay : Option Nat := none
  outcome : Outcome := .comply

end SmsRelay.Session
