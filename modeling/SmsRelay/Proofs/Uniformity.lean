-- SUMMARY: Every handler that is waited for as a coroutine: the form that handlers of either kind have in common.
import SmsRelay.Proofs.Bystanders
import SmsRelay.Proofs.Naturality

/-!
# Handlers of one kind

A handler that is waited for may be a function or a coroutine. A function has
done all its acts when it is called, and what it returns is awaited if it can
be; a coroutine does nothing before it is awaited, and what it returns is not
awaited again. Here every handler of the kind that is waited for is made a
coroutine, wherever it stands: on the stage, in a script that registers it, in a
reply of the modem tool, or in a step of a session. Whatever is done to a stage
is done alike to the stage with handlers of one kind.
-/

namespace SmsRelay.Session

open Gateway

/-! ## Scripts -/

/-- What comes of a function that does the acts, and of waiting for what it returns. It cannot wait itself; what it
leaves for later is done then. -/
def settled : List Act → List Act
  | [] => []
  | .wait _ :: acts => settled acts
  | .defer later :: _ => later
  | act :: acts => act :: settled acts

mutual

def Act.uniform : Act → Act
  | .comply => .comply
  | .fail f => .fail f
  | .give r settled => .give r settled
  | .defer acts => .defer (Act.uniformAll acts)
  | .send destination text context callback =>
    .send destination text (context.uniform false) (callback.uniform false)
  | .register handlers => .register (Offer.uniformAll handlers)
  | .stop => .stop
  | .wait ms => .wait ms

def Act.uniformAll : List Act → List Act
  | [] => []
  | act :: acts => act.uniform :: Act.uniformAll acts

/-- The script, with all that it registers of one kind; and a coroutine itself, if it is waited for. -/
def Script.uniform (awaited : Bool) : Script → Script
  | .mk .plain acts label =>
    if awaited then .mk .coroutine (fun n told => settled (Act.uniformAll (acts n told))) label
    else .mk .plain (fun n told => Act.uniformAll (acts n told)) label
  | .mk .coroutine acts label => .mk .coroutine (fun n told => Act.uniformAll (acts n told)) label

def Offer.uniform (awaited : Bool) : Offer → Offer
  | .value v => .value v
  | .script s => .script (s.uniform awaited)

/-- The offers, each by the event that it is for. -/
def Offer.uniformAll : List (String × Offer) → List (String × Offer)
  | [] => []
  | (name, offer) :: offers => (name, offer.uniform (isAwaited name)) :: Offer.uniformAll offers

end

/-- The act neither takes time nor leaves anything for later. -/
def Act.isPrompt : Act → Bool
  | .wait _ | .defer _ => false
  | _ => true

section

variable {awaited : Bool} {script : Script}

theorem settled_cons {act : Act} (h : act.isPrompt = true) (acts : List Act) :
    settled (act :: acts) = act :: settled acts := by
  cases act with
  | wait ms => cases h
  | defer later => cases h
  | _ => rfl

@[simp] theorem Script.label_uniform : (script.uniform awaited).label = script.label := by
  obtain ⟨mode, acts, label⟩ := script
  cases mode <;> cases awaited <;> rfl

theorem Script.mode_uniform_false : (script.uniform false).mode = script.mode := by
  obtain ⟨mode, acts, label⟩ := script
  cases mode <;> rfl

theorem Script.mode_uniform_true : (script.uniform true).mode = .coroutine := by
  obtain ⟨mode, acts, label⟩ := script
  cases mode <;> rfl

/-- Only what somebody waits for is settled, if it is not a coroutine. -/
theorem Script.acts_uniform (n : Nat) (told : List Told) : (script.uniform awaited).acts n told =
    if awaited = true ∧ script.mode = .plain then settled (Act.uniformAll (script.acts n told))
    else Act.uniformAll (script.acts n told) := by
  obtain ⟨mode, acts, label⟩ := script
  cases mode <;> cases awaited <;> rfl

end

/-! ## Callables and calls -/

def Body.uniform (awaited : Bool) : Body → Body
  | script s => .script (s.uniform awaited)
  | application => .application
  | nothing => .nothing

def Callable.uniform (awaited : Bool) (c : Callable) : Callable := { c with body := c.body.uniform awaited }

/-- What is attached to a message is not waited for. -/
def uniformOutbound (m : Outbound Callable) : Outbound Callable := m.map (Callable.uniform false)

def Argument.uniform : Argument → Argument
  | item i => .item i
  | outbound m => .outbound (uniformOutbound m)
  | result r => .result r
  | candidate c => .candidate c
  | fault f => .fault f

/-- Scripts are not told of what kind a handler is. -/
theorem Argument.told_comp_uniform : Argument.told ∘ Argument.uniform = Argument.told := by
  have hcontext : ∀ x : Supplied Callable, toldContext (x.map (Callable.uniform false)) = toldContext x := fun x => by
    cases x <;> rfl
  funext a
  cases a with
  | outbound m => exact congrArg (Told.outbound m.destination m.text) (hcontext m.context)
  | _ => rfl

def Call.uniform : Call → Call
  | request r => .request (r.map (Callable.uniform false))
  | notice n => .notice (n.map (Callable.uniform false))
  | plain arguments => .plain (arguments.map Argument.uniform)

theorem Call.arguments_uniform (call : Call) : call.uniform.arguments = call.arguments.map Argument.uniform := by
  cases call with
  | request r => cases r <;> rfl
  | notice n => cases n <;> rfl
  | plain arguments => rfl

/-! ## Handlers -/

/-- The handlers, each by the event that it hears. -/
def uniformListeners (ls : Listeners Callable) : Listeners Callable := fun e =>
  (ls e).map (Callable.uniform e.isRequest)

def uniformOffers (handlers : List (String × Supplied Callable)) : List (String × Supplied Callable) :=
  handlers.map fun h => (h.1, h.2.map (Callable.uniform (isAwaited h.1)))

section

variable (ls : Listeners Callable)

theorem uniformListeners_set (e : EventName) (c : Callable) :
    uniformListeners (ls.set e c) = (uniformListeners ls).set e (c.uniform e.isRequest) := by
  funext e'
  unfold uniformListeners Listeners.set
  split
  · subst e'
    rfl
  · rfl

theorem register_uniform (event : Value) (x : Supplied Callable) :
    (uniformListeners ls).register event (x.map (Callable.uniform (isAwaited event.plain))) =
      (ls.register event x).map uniformListeners := by
  unfold Listeners.register
  cases he : EventName.ofValue event with
  | error f => rfl
  | ok e =>
    have hawaited : isAwaited event.plain = e.isRequest := by
      unfold EventName.ofValue at he
      split at he
      · cases he
      · cases he
      · split at he
        · rename_i hname
          cases he
          simp [isAwaited, Value.plain, hname]
        · cases he
      · cases he
    cases x with
    | value v => rfl
    | callable c =>
      rw [hawaited]
      exact congrArg Except.ok (uniformListeners_set ls e c).symm

theorem registerAll_uniform (handlers : List (String × Supplied Callable)) :
    (uniformListeners ls).registerAll (uniformOffers handlers) =
      (uniformListeners (ls.registerAll handlers).1, (ls.registerAll handlers).2) := by
  induction handlers generalizing ls with
  | nil => rfl
  | cons h handlers ih =>
    obtain ⟨name, x⟩ := h
    have hregister := register_uniform ls (.text name) x
    rw [Value.plain] at hregister
    rw [uniformOffers, List.map_cons, Listeners.registerAll, Listeners.registerAll, hregister]
    cases ls.register (.text name) x with
    | error f => rfl
    | ok ls' => exact ih ls'

end

/-! ## Stages -/

def Incident.uniform : Incident → Incident
  | called name arguments label => .called name (arguments.map Argument.uniform) label
  | resumed name => .resumed name
  | modem command arguments time => .modem command arguments time
  | logged e => .logged e
  | cycleBegun time => .cycleBegun time
  | cycleEnded time => .cycleEnded time

/-- What is awaited later, after the call of somebody whom nobody waits for. -/
def Pending.uniform : Pending → Pending
  | coroutine c script arguments =>
    .coroutine (c.uniform false) (script.uniform false) (arguments.map Argument.uniform)
  | deferred name arguments acts => .deferred name (arguments.map Argument.uniform) (Act.uniformAll acts)
  | application r => .application (r.map (Callable.uniform false))

def Given.uniform : Given → Given
  | value r => .value r
  | awaitable p => .awaitable p.uniform

theorem Given.returned_uniform (g : Given) : g.uniform.returned = g.returned := by cases g <;> rfl

/-- Only handlers that nobody waits for are spawned. -/
def Spawned.uniform : Spawned → Spawned
  | handler event p => .handler event p.uniform
  | loop => .loop
  | wake => .wake

def Sending.uniform (m : Sending) : Sending :=
  { m with context := m.context.uniform false, callback := m.callback.uniform false }

def Reply.uniform (r : Reply) : Reply := { r with sending := r.sending.map Sending.uniform }

def uniformReplies (replies : List (String × List Reply)) : List (String × List Reply) :=
  replies.map fun x => (x.1, x.2.map Reply.uniform)

namespace Stage

def uniform (s : Stage) : Stage :=
  { s with
    queues := s.queues.map (Callable.uniform false)
    listeners := uniformListeners s.listeners
    replies := uniformReplies s.replies
    trace := s.trace.map Incident.uniform
    spawned := s.spawned.map Spawned.uniform }

variable (s : Stage)

theorem record_uniform (i : Incident) : s.uniform.record i.uniform = (s.record i).uniform := rfl

theorem log_uniform (e : Log.Entry) : s.uniform.log e = (s.log e).uniform := rfl

theorem logAll_uniform (es : List Log.Entry) : s.uniform.logAll es = (s.logAll es).uniform := by
  induction es generalizing s with
  | nil => rfl
  | cons e es ih => exact ih (s.log e)

theorem spawn_uniform (x : Spawned) : s.uniform.spawn x.uniform = (s.spawn x).uniform := rfl

theorem accept_uniform (name : String) (offer : Offer) (awaited : Bool) :
    s.uniform.accept name (offer.uniform awaited) =
      ((s.accept name offer).1.map (Callable.uniform awaited), (s.accept name offer).2.uniform) := by
  cases offer <;> rfl

theorem acceptAll_uniform (offers : List (String × Offer)) : s.uniform.acceptAll (Offer.uniformAll offers) =
    (uniformOffers (s.acceptAll offers).1, (s.acceptAll offers).2.uniform) := by
  induction offers generalizing s with
  | nil => rfl
  | cons x offers ih =>
    obtain ⟨name, offer⟩ := x
    rw [Offer.uniformAll, acceptAll, acceptAll, accept_uniform]
    dsimp only
    rw [ih]
    rfl

theorem registerAll_uniform (handlers : List (String × Supplied Callable)) :
    s.uniform.on (.several (uniformOffers handlers)) =
      ((s.on (.several handlers)).1, (s.on (.several handlers)).2.uniform) := by
  have hlisteners : s.uniform.listeners = uniformListeners s.listeners := rfl
  rw [on, on, Listeners.on, Listeners.on, hlisteners, Session.registerAll_uniform]
  rfl

theorem register_uniform (offers : List (String × Offer)) :
    s.uniform.register (Offer.uniformAll offers) = ((s.register offers).1, (s.register offers).2.uniform) := by
  rw [register, register, acceptAll_uniform]
  exact registerAll_uniform _ _

theorem takeActs_uniform (c : Callable) {script : Script} {awaited : Bool} (arguments : List Argument)
    {f : List Act → List Act} (hf : ∀ n told, (script.uniform awaited).acts n told = f (script.acts n told)) :
    s.uniform.takeActs (c.uniform awaited) (script.uniform awaited) (arguments.map Argument.uniform) =
      (f (s.takeActs c script arguments).1, (s.takeActs c script arguments).2.uniform) := by
  have hn := hf ((s.calls.lookup c.id).getD 0) (arguments.map Argument.told)
  have htold : (arguments.map Argument.uniform).map Argument.told = arguments.map Argument.told := by
    rw [List.map_map, Argument.told_comp_uniform]
  unfold takeActs
  rw [htold]
  exact congrArg (·, (s.takeActs c script arguments).2.uniform) hn

theorem send_uniform (destination text : Value) (context callback : Supplied Callable) :
    s.uniform.send destination text (context.map (Callable.uniform false)) (callback.map (Callable.uniform false)) =
      ((s.send destination text context callback).1.map uniformOutbound,
        (s.send destination text context callback).2.uniform) := by
  unfold send
  rw [Outbound.ofArguments_map]
  cases Outbound.ofArguments destination text context callback with
  | error f => rfl
  | ok m =>
    exact congrArg (fun q => (Except.ok (uniformOutbound m), { s.uniform with queues := q }))
      (enqueueOutbound_map m s.queues)

theorem stop_uniform : s.uniform.stop = s.stop.uniform := by
  have hpolling : s.uniform.polling = s.polling := rfl
  unfold stop
  rw [hpolling]
  dsimp only
  split <;> rfl

theorem sendOffered_uniform (destination text : Value) (context callback : Offer) :
    s.uniform.sendOffered destination text (context.uniform false) (callback.uniform false) =
      ((s.sendOffered destination text context callback).1.map uniformOutbound,
        (s.sendOffered destination text context callback).2.uniform) := by
  unfold sendOffered
  rw [accept_uniform]
  dsimp only
  rw [accept_uniform]
  exact send_uniform _ destination text _ _

end Stage

end SmsRelay.Session
