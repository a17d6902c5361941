-- SUMMARY: Handlers that nobody waits for: what their calls may leave on the stage, and how whoever calls them goes on.
import SmsRelay.Session

/-!
# Bystanders

Handlers that nobody waits for: those that are only given notice, and the
callbacks of messages. As long as they do no more than wait, return or fail, all
that they leave on the stage are their own counts of calls, entries of the log,
and tasks of their own kind. Whoever calls one of them goes on at once.
-/

namespace SmsRelay.Session

open Gateway

/-! ## What is seen of a session -/

/-- Whether the gateway waits for the handlers of that name. -/
def isAwaited (name : String) : Bool := (EventName.ofText? name).any (·.isRequest)

/-- Whether handlers of that name are only given notice. -/
def isNotice (name : String) : Bool := (EventName.ofText? name).any (!·.isRequest)

theorem isNotice_text (e : EventName) : isNotice e.text = !e.isRequest := by cases e <;> rfl

/-- A context. A callable is told by what it does. -/
def bareContext : Supplied Callable → Supplied Body
  | .value v => .value v
  | .callable c => .callable c.body

/-- A message without its callback. -/
def bare (m : Outbound Callable) : Outbound Body where
  destination := m.destination
  text := m.text
  context := bareContext m.context

/-- An argument, as far as it does not tell callables apart. -/
inductive Argument.Bare where
  | item (i : Item)
  | outbound (m : Outbound Body)
  | result (r : TransmitResult)
  | candidate (c : Candidate)
  | fault (f : Fault)

def Argument.bare : Argument → Argument.Bare
  | item i => .item i
  | outbound m => .outbound (Session.bare m)
  | result r => .result r
  | candidate c => .candidate c
  | fault f => .fault f

/-- What a script is told of an argument. -/
def Argument.Bare.told : Argument.Bare → Told
  | item i => .item i
  | outbound m => .outbound m.destination m.text (toldContext m.context)
  | result r => .result r
  | candidate c => .candidate c
  | fault f => .fault f

theorem Argument.told_eq (a : Argument) : a.told = a.bare.told := by
  have hcontext : ∀ x : Supplied Callable, toldContext x = toldContext (bareContext x) := fun x => by cases x <;> rfl
  cases a with
  | outbound m => exact congrArg (Told.outbound m.destination m.text) (hcontext m.context)
  | _ => rfl

/-- Scripts are not told which callable is which. -/
theorem Argument.map_told_congr {as bs : List Argument} (h : as.map Argument.bare = bs.map Argument.bare) :
    as.map Argument.told = bs.map Argument.told := by
  have htold : Argument.told = Argument.Bare.told ∘ Argument.bare := funext Argument.told_eq
  rw [htold, ← List.map_map, ← List.map_map, h]

/-- A call of the modem tool, or of a handler that the gateway waits for. -/
inductive Sight where
  | called (name : String) (arguments : List Argument.Bare) (label : Option Value)
  | modem (command : String) (arguments : List String) (time : Nat)

/-- What is seen of an incident. -/
def Incident.sight? : Incident → Option Sight
  | called name arguments label =>
    if isAwaited name then some (.called name (arguments.map Argument.bare) label) else none
  | modem command arguments time => some (.modem command arguments time)
  | resumed _ | logged _ | cycleBegun _ | cycleEnded _ => none

/-! ## Scripts that only answer -/

/-- The act is no more than an answer, now or later: what was asked for, something else, or a failure that is no
cancellation. -/
inductive Act.Mute : Act → Prop
  | comply : Mute .comply
  | fail {f : Fault} : f.isCancellation = false → Mute (.fail f)
  | give (r : Returned) (settled : r.isAwaitable = false) : Mute (.give r settled)
  | defer {acts : List Act} : (∀ act ∈ acts, act.Mute) → Mute (.defer acts)
  | wait (milliseconds : Nat) : Mute (.wait milliseconds)

/-- All acts of the script are answers. -/
def Script.Mute (script : Script) : Prop := ∀ n told, ∀ act ∈ script.acts n told, act.Mute

/-- Nothing but answers comes of a call. -/
def Body.Mute : Body → Prop
  | script s => s.Mute
  | nothing => True
  | application => False

/-- The callables that a session has made: how many, and which of them somebody waits for. -/
structure Roster where
  next : Nat
  awaited : List Nat

namespace Roster

variable {r r' r'' : Roster} {c : Callable}

/-- Nobody waits for the callable, and it only answers. -/
structure Bystander (r : Roster) (c : Callable) : Prop where
  known : c.id < r.next
  unawaited : c.id ∉ r.awaited
  name : isAwaited c.name = false
  mute : c.body.Mute

/-- More callables have been made. -/
structure Grows (r r' : Roster) : Prop where
  next : r.next ≤ r'.next
  awaited : ∀ i ∈ r'.awaited, i ∈ r.awaited ∨ r.next ≤ i

theorem Grows.refl (r : Roster) : r.Grows r := ⟨Nat.le_refl _, fun _ => .inl⟩

theorem Grows.trans (h : r.Grows r') (h' : r'.Grows r'') : r.Grows r'' where
  next := Nat.le_trans h.next h'.next
  awaited i hi := (h'.awaited i hi).elim (h.awaited i) fun hle => .inr (Nat.le_trans h.next hle)

/-- A bystander stays one. -/
theorem Bystander.mono (hc : r.Bystander c) (h : r.Grows r') : r'.Bystander c where
  known := Nat.lt_of_lt_of_le hc.known h.next
  unawaited hi := (h.awaited _ hi).elim hc.unawaited fun hle => absurd hc.known (Nat.not_lt.mpr hle)
  name := hc.name
  mute := hc.mute

/-! ## What bystanders leave on the stage -/

/-- What a bystander has handed back, or left for later. -/
inductive Chore (r : Roster) : Pending → Prop
  | coroutine {c : Callable} {script : Script} (arguments : List Argument) : r.Bystander c → script.Mute →
      Chore r (.coroutine c script arguments)
  | deferred {name : String} {acts : List Act} (arguments : List Argument) : isAwaited name = false →
      (∀ act ∈ acts, act.Mute) → Chore r (.deferred name arguments acts)

theorem Chore.mono {p : Pending} (hp : r.Chore p) (h : r.Grows r') : r'.Chore p := by
  cases hp with
  | coroutine arguments hc hscript => exact .coroutine arguments (hc.mono h) hscript
  | deferred arguments hname hacts => exact .deferred arguments hname hacts

/-- The stage changes as bystanders change it. -/
structure Drifts (r : Roster) (s s' : Stage) : Prop where
  rest : s' = { s with calls := s'.calls, trace := s'.trace, spawned := s'.spawned }
  calls : ∀ i ∈ r.awaited, s'.calls.lookup i = s.calls.lookup i
  known : ∀ x ∈ s'.calls, x ∈ s.calls ∨ x.1 < r.next
  trace : s'.trace.filterMap Incident.sight? = s.trace.filterMap Incident.sight?
  spawned : ∃ tasks, s'.spawned = tasks ++ s.spawned ∧
    ∀ x ∈ tasks, ∃ event p, x = .handler event p ∧ r.Chore p

variable {s s' s'' : Stage}

theorem Drifts.refl (r : Roster) (s : Stage) : r.Drifts s s where
  rest := rfl
  calls _ _ := rfl
  known _ := .inl
  trace := rfl
  spawned := ⟨[], rfl, List.forall_mem_nil _⟩

theorem Drifts.trans (h : r.Drifts s s') (h' : r.Drifts s' s'') : r.Drifts s s'' where
  rest := by
    rw [h'.rest, h.rest]
  calls i hi := (h'.calls i hi).trans (h.calls i hi)
  known x hx := (h'.known x hx).elim (h.known x) .inr
  trace := h'.trace.trans h.trace
  spawned := by
    obtain ⟨tasks, hspawned, htasks⟩ := h.spawned
    obtain ⟨tasks', hspawned', htasks'⟩ := h'.spawned
    refine ⟨tasks' ++ tasks, ?_, List.forall_mem_append.mpr ⟨htasks', htasks⟩⟩
    rw [hspawned', hspawned, List.append_assoc]

theorem drifts_record {i : Incident} (hi : i.sight? = none) (r : Roster) (s : Stage) : r.Drifts s (s.record i) where
  rest := rfl
  calls _ _ := rfl
  known _ := .inl
  trace := List.filterMap_cons_none hi
  spawned := ⟨[], rfl, List.forall_mem_nil _⟩

theorem drifts_log (e : Log.Entry) (r : Roster) (s : Stage) : r.Drifts s (s.log e) := drifts_record rfl r s

theorem drifts_logAll (es : List Log.Entry) (r : Roster) (s : Stage) : r.Drifts s (s.logAll es) := by
  induction es generalizing s with
  | nil => exact .refl r s
  | cons e es ih => exact (drifts_log e r s).trans (ih (s.log e))

theorem drifts_spawn {p : Pending} (hp : r.Chore p) (event : String) (s : Stage) :
    r.Drifts s (s.spawn (.handler event p)) where
  rest := rfl
  calls _ _ := rfl
  known _ := .inl
  trace := rfl
  spawned := ⟨[.handler event p], rfl, List.forall_mem_singleton.mpr ⟨event, p, rfl, hp⟩⟩

end Roster

/-- A call of one callable leaves the counts of the others. -/
theorem Stage.lookup_takeActs {c : Callable} {i : Nat} (hi : i ≠ c.id) (script : Script) (arguments : List Argument)
    (s : Stage) : (s.takeActs c script arguments).2.calls.lookup i = s.calls.lookup i := by
  have hfilter : ∀ calls : List (Nat × Nat), (calls.filter (·.1 ≠ c.id)).lookup i = calls.lookup i := by
    intro calls
    induction calls with
    | nil => rfl
    | cons x calls ih =>
      by_cases hx : x.1 = c.id
      · rw [List.filter_cons_of_neg (by simpa using hx), ih, List.lookup_cons, beq_false_of_ne (hx ▸ hi)]
      · rw [List.filter_cons_of_pos (by simpa using hx), List.lookup_cons, List.lookup_cons, ih]
  change List.lookup i ((c.id, _) :: s.calls.filter (·.1 ≠ c.id)) = s.calls.lookup i
  rw [List.lookup_cons, beq_false_of_ne hi]
  exact hfilter s.calls

theorem Roster.drifts_takeActs {r : Roster} {c : Callable} (hc : r.Bystander c) (script : Script)
    (arguments : List Argument) (s : Stage) : r.Drifts s (s.takeActs c script arguments).2 where
  rest := rfl
  calls i hi := Stage.lookup_takeActs (fun heq => hc.unawaited (heq ▸ hi)) script arguments s
  known x hx := by
    rcases List.mem_cons.mp hx with rfl | hx
    · exact .inr hc.known
    · exact .inl ((List.mem_filter.mp hx).1)
  trace := rfl
  spawned := ⟨[], rfl, List.forall_mem_nil _⟩

/-! ## Calls -/

theorem advance_bind {α β : Type} (p : Work α) (f : α → Work β) (s : Stage) :
    advance (p.bind f) s = match advance p s with
      | (.done a, s') => advance (f a) s'
      | (.paused rest, s') => (.paused (rest.bind f), s')
      | (.asleep ms rest, s') => (.asleep ms (rest.bind f), s')
      | (.joining rest, s') => (.joining fun outcome => (rest outcome).bind f, s') := by
  induction p generalizing s with
  | done a => rfl
  | ask q next ih =>
    cases q with
    | get => exact ih s s
    | put s' => exact ih () s'
    | pause => rfl
    | sleep ms => rfl
    | join => rfl

section

variable {α β : Type} {p : Work α} {s s' : Stage}

theorem advance_bind_done {a : α} (h : advance p s = (.done a, s')) (f : α → Work β) :
    advance (p >>= f) s = advance (f a) s' := by
  rw [Flow.bind_eq, advance_bind, h]

theorem advance_bind_paused {rest : Work α} (h : advance p s = (.paused rest, s')) (f : α → Work β) :
    advance (p >>= f) s = (.paused (rest >>= f), s') := by
  rw [Flow.bind_eq, advance_bind, h]
  rfl

theorem advance_bind_asleep {ms : Nat} {rest : Work α} (h : advance p s = (.asleep ms rest, s')) (f : α → Work β) :
    advance (p >>= f) s = (.asleep ms (rest >>= f), s') := by
  rw [Flow.bind_eq, advance_bind, h]
  rfl

theorem advance_bind_joining {rest : Except Fault Unit → Work α} (h : advance p s = (.joining rest, s'))
    (f : α → Work β) : advance (p >>= f) s = (.joining fun outcome => rest outcome >>= f, s') := by
  rw [Flow.bind_eq, advance_bind, h]
  rfl

end

namespace Roster

variable {r : Roster} {c : Callable} {s : Stage}

/-- What comes of a call of a bystander is no cancellation, and if somebody can await it, it stays a bystander's. -/
def Answers (r : Roster) : Except Fault Given → Prop
  | .ok (.value _) => True
  | .ok (.awaitable p) => r.Chore p
  | .error f => f.isCancellation = false

/-- What no event that somebody waits for asks for is nothing. -/
theorem comply_of_unawaited {name : String} (hname : isAwaited name = false) (arguments : List Argument) :
    Work.comply name arguments = pure .nothing := by
  unfold Work.comply
  split
  · cases hname
  · cases hname
  · cases hname
  · rfl

/-- Mute acts that nobody awaits come to their answer at once. -/
theorem perform_of_mute {name : String} {acts : List Act} (hname : isAwaited name = false)
    (hacts : ∀ act ∈ acts, act.Mute) (arguments : List Argument) :
    ∃ x, Work.perform false name arguments acts = .done x ∧ r.Answers x := by
  induction acts with
  | nil => exact ⟨_, rfl, trivial⟩
  | cons act acts ih =>
    obtain ⟨hact, hrest⟩ := List.forall_mem_cons.mp hacts
    cases hact with
    | comply =>
      refine ⟨.ok (.value .nothing), ?_, trivial⟩
      rw [Work.perform, comply_of_unawaited hname]
      rfl
    | fail hf => exact ⟨_, rfl, hf⟩
    | give a settled => exact ⟨_, rfl, trivial⟩
    | defer hlater => exact ⟨_, rfl, .deferred arguments hname hlater⟩
    | wait ms => exact ih hrest

/-- A call of a bystander comes to something at once. -/
theorem Bystander.advance_call (hc : r.Bystander c) (call : Call) (s : Stage) :
    ∃ s' x, r.Drifts s s' ∧ advance (Work.call c call) s = (.done x, s') ∧ r.Answers x := by
  obtain ⟨id, name, body⟩ := c
  cases body with
  | application => exact hc.mute.elim
  | nothing => exact ⟨s, _, .refl r s, rfl, rfl⟩
  | script script =>
    cases hmode : script.mode with
    | coroutine =>
      have hcall : Work.call ⟨id, name, .script script⟩ call =
          .done (.ok (.awaitable (.coroutine ⟨id, name, .script script⟩ script call.arguments))) := by
        simp only [Work.call, hmode]
        rfl
      refine ⟨s, _, .refl r s, by rw [hcall, advance_done], ?_⟩
      exact Chore.coroutine call.arguments hc hc.mute
    | plain =>
      have hname : isAwaited name = false := hc.name
      have hcalled : (Incident.called name call.arguments script.label).sight? = none := if_neg (by simp [hname])
      let called := s.record (.called name call.arguments script.label)
      have hmute : ∀ act ∈ (called.takeActs ⟨id, name, .script script⟩ script call.arguments).1, act.Mute := hc.mute _ _
      obtain ⟨x, hx, hanswers⟩ := perform_of_mute (r := r) hname hmute call.arguments
      refine ⟨_, x, (drifts_record hcalled r s).trans (drifts_takeActs hc script call.arguments called), ?_, hanswers⟩
      have hcall : Work.call ⟨id, name, .script script⟩ call =
          Work.runScript false ⟨id, name, .script script⟩ script call.arguments := by
        simp only [Work.call, hmode]
      have hperform : advance (Work.runScript false ⟨id, name, .script script⟩ script call.arguments) s =
          advance (Work.perform false name call.arguments
            (called.takeActs ⟨id, name, .script script⟩ script call.arguments).1)
            (called.takeActs ⟨id, name, .script script⟩ script call.arguments).2 := rfl
      rw [hcall, hperform, hx]
      rfl

/-- Whoever only notifies a bystander goes on at once. -/
theorem Bystander.advance_fire (hc : r.Bystander c) (event : String) (call : Call) (s : Stage) :
    ∃ s', r.Drifts s s' ∧ advance (Work.fire event c call) s = (.done (.ok ()), s') := by
  obtain ⟨s', x, hs', hx, hanswers⟩ := hc.advance_call call s
  unfold Work.fire
  rw [advance_bind_done hx]
  match x, hanswers with
  | .ok (.value a), _ => exact ⟨s', hs', rfl⟩
  | .ok (.awaitable p), hp => exact ⟨_, hs'.trans (drifts_spawn hp event s'), rfl⟩
  | .error f, hf =>
    refine ⟨_, hs'.trans (drifts_log ⟨.error, "core.events", "Handler for '" ++ event ++ "' raised"⟩ r s'), ?_⟩
    split
    · rename_i heq
      cases heq
    · rename_i heq
      cases heq
    · rename_i heq
      cases heq
      cases hf
    · rfl

/-- Somebody who hears of an event and, if it is an erasure, keeps nothing by it. -/
inductive Aside (r : Roster) (e : EventName) : Callable → Prop
  | bystander {c : Callable} (hc : r.Bystander c) : Aside r e c
  | application (he : e ≠ .delete) : Aside r e ⟨0, e.text, .application⟩

end Roster

/-- The call tells of the event. -/
def Call.TellsOf (e : EventName) : Call → Prop
  | request _ => False
  | notice n => n.event = e
  | plain _ => True

namespace Roster

variable {r r' : Roster} {c : Callable} {e : EventName}

theorem Aside.mono (hc : r.Aside e c) (h : r.Grows r') : r'.Aside e c := by
  cases hc with
  | bystander hc => exact .bystander (hc.mono h)
  | application he => exact .application he

theorem Aside.advance_fire (hc : r.Aside e c) {call : Call} (hcall : call.TellsOf e) (event : String) (s : Stage) :
    ∃ s', r.Drifts s s' ∧ advance (Work.fire event c call) s = (.done (.ok ()), s') := by
  cases hc with
  | bystander hc => exact hc.advance_fire event call s
  | application he =>
    cases call with
    | request q => exact hcall.elim
    | plain arguments => exact ⟨s, .refl r s, rfl⟩
    | notice n =>
      cases n with
      | deleted c => exact absurd hcall.symm he
      | receiveError about f => exact ⟨_, drifts_logAll [_] r s, rfl⟩
      | transmitError m f => exact ⟨_, drifts_logAll [_] r s, rfl⟩

end Roster

end SmsRelay.Session
