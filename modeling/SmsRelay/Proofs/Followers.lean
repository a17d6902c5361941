-- SUMMARY: Whatever a part of a session does, it does alike when all handlers that are waited for are coroutines.
import SmsRelay.Proofs.Accord
import SmsRelay.Proofs.Uniformity

/-!
# Work with handlers of one kind

What a part of a session does on a stage, its counterpart does on the stage on
which all handlers that are waited for are coroutines. A function has done its
acts when it is called, and a coroutine when it is awaited; as whoever calls
them awaits them at once, nothing comes in between. Handlers that are only given
notice keep their kind.
-/

namespace SmsRelay.Session

open Gateway

variable {α β γ δ : Type}

/-! ## The same questions -/

/-- The second piece of work does with coroutines what the first one does; at the end `g` leads from the result of the
first to that of the second. -/
inductive Follows (g : α → β) : Work α → Work β → Prop
  | done (a : α) : Follows g (.done a) (.done (g a))
  | get {next : Stage → Work α} {next' : Stage → Work β} : (∀ s, Follows g (next s) (next' s.uniform)) →
      Follows g (.ask .get next) (.ask .get next')
  | put (s : Stage) {next : Unit → Work α} {next' : Unit → Work β} : Follows g (next ()) (next' ()) →
      Follows g (.ask (.put s) next) (.ask (.put s.uniform) next')
  | pause {next : Unit → Work α} {next' : Unit → Work β} : Follows g (next ()) (next' ()) →
      Follows g (.ask .pause next) (.ask .pause next')
  | sleep (ms : Nat) {next : Unit → Work α} {next' : Unit → Work β} : Follows g (next ()) (next' ()) →
      Follows g (.ask (.sleep ms) next) (.ask (.sleep ms) next')
  | join {next : Except Fault Unit → Work α} {next' : Except Fault Unit → Work β} :
      (∀ outcome, Follows g (next outcome) (next' outcome)) → Follows g (.ask .join next) (.ask .join next')

section

variable {g : α → β} {k : γ → δ}

theorem Follows.bind {w : Work α} {w' : Work β} {f : α → Work γ} {f' : β → Work δ} (h : Follows g w w')
    (hf : ∀ a, Follows k (f a) (f' (g a))) : Follows k (w >>= f) (w' >>= f') := by
  induction h with
  | done a => exact hf a
  | get _ ih => exact .get ih
  | put s _ ih => exact .put s ih
  | pause _ ih => exact .pause ih
  | sleep ms _ ih => exact .sleep ms ih
  | join _ ih => exact .join ih

theorem follows_pure (a : α) : Follows id (pure a : Work α) (pure a) := .done a

theorem follows_get {f : Stage → Work γ} {f' : Stage → Work δ} (hf : ∀ s, Follows k (f s) (f' s.uniform)) :
    Follows k (Work.query .get >>= f) (Work.query .get >>= f') := .get hf

theorem follows_onStage {f : Stage → α × Stage} {f' : Stage → β × Stage}
    (h : ∀ s, f' s.uniform = (g (f s).1, (f s).2.uniform)) : Follows g (Work.onStage f) (Work.onStage f') := by
  refine follows_get fun s => ?_
  rw [h s]
  exact .put (f s).2 (.done (f s).1)

theorem follows_change {f f' : Stage → Stage} (h : ∀ s, f' s.uniform = (f s).uniform) :
    Follows id (Work.change f) (Work.change f') :=
  follows_onStage fun s => congrArg (Prod.mk ()) (h s)

theorem follows_read {f : Stage → α} (h : ∀ s, f s.uniform = f s) : Follows id (Work.read f) (Work.read f) := by
  refine .get fun s => ?_
  change Follows id (.done (f s)) (.done (f s.uniform))
  rw [h s]
  exact .done (f s)

theorem follows_record (i : Incident) : Follows id (Work.record i) (Work.record i.uniform) :=
  follows_change fun s => s.record_uniform i

theorem follows_log (e : Log.Entry) : Follows id (Work.log e) (Work.log e) := follows_change fun s => s.log_uniform e

theorem follows_pause : Follows id Work.pause Work.pause := .pause (.done ())

theorem follows_sleep (ms : Nat) : Follows id (Work.sleep ms) (Work.sleep ms) := by
  obtain hpause | hsleep := Work.sleep_eq_or ms
  · rw [hpause]
    exact follows_pause
  · rw [hsleep]
    exact .sleep ms (.done ())

end

/-! ## Handlers -/

/-- What an event asks for depends on no callables. -/
theorem comply_uniform (name : String) (arguments : List Argument) :
    Work.comply name (arguments.map Argument.uniform) = Work.comply name arguments := by
  by_cases hother : name = "receive_segment" ∨ name = "return_segments"
  · match arguments with
    | [] => rfl
    | .item i :: _ => rcases hother with rfl | rfl <;> cases i <;> rfl
    | .outbound _ :: _ | .result _ :: _ | .candidate _ :: _ | .fault _ :: _ => rcases hother with rfl | rfl <;> rfl
  · have hnothing : ∀ arguments, Work.comply name arguments = pure .nothing := by
      intro arguments
      unfold Work.comply
      split
      · exact absurd (.inl rfl) hother
      · exact absurd (.inr rfl) hother
      · exact absurd (.inr rfl) hother
      · rfl
    rw [hnothing, hnothing]

theorem follows_comply (name : String) (arguments : List Argument) :
    Follows id (Work.comply name arguments) (Work.comply name arguments) := by
  unfold Work.comply
  split
  · rename_i m _
    have hremember : Follows id (Work.change (·.remember m)) (Work.change (·.remember m)) := follows_change fun _ => rfl
    exact hremember.bind fun _ => follows_pure _
  · exact (follows_read fun _ => rfl).bind fun _ => follows_pure _
  · exact follows_pure _
  · exact follows_pure _

theorem follows_sendOffered (destination text : Value) (context callback : Offer) :
    Follows (Except.map uniformOutbound) (Work.onStage (·.sendOffered destination text context callback))
      (Work.onStage (·.sendOffered destination text (context.uniform false) (callback.uniform false))) :=
  follows_onStage fun s => s.sendOffered_uniform destination text context callback

theorem follows_register (handlers : List (String × Offer)) :
    Follows id (Work.onStage (·.register handlers)) (Work.onStage (·.register (Offer.uniformAll handlers))) :=
  follows_onStage fun s => s.register_uniform handlers

/-- What calls hand back is made of one kind. -/
theorem follows_given (x : Except Fault Given) :
    Follows (Except.map Given.uniform) (pure x : Work (Except Fault Given)) (pure (x.map Given.uniform)) := .done x

theorem follows_perform (awaited : Bool) (name : String) (arguments : List Argument) (acts : List Act) :
    Follows (Except.map Given.uniform) (Work.perform awaited name arguments acts)
      (Work.perform awaited name (arguments.map Argument.uniform) (Act.uniformAll acts)) := by
  induction acts with
  | nil => exact follows_given (.ok (.value .nothing))
  | cons act acts ih =>
    cases act with
    | comply =>
      rw [Act.uniformAll, Act.uniform, Work.perform, Work.perform, comply_uniform]
      exact (follows_comply name arguments).bind fun r => follows_given (.ok (.value r))
    | fail f => exact follows_given (.error f)
    | give r settled => exact follows_given (.ok (.value r))
    | defer later => exact follows_given (.ok (.awaitable (.deferred name arguments later)))
    | send destination text context callback =>
      refine (follows_sendOffered destination text context callback).bind fun sent => ?_
      cases sent with
      | ok m => exact ih
      | error f => exact follows_given (.error f)
    | register handlers =>
      refine (follows_register handlers).bind fun registered => ?_
      cases registered with
      | ok u => exact ih
      | error f => exact follows_given (.error f)
    | stop => exact (follows_change Stage.stop_uniform).bind fun _ => ih
    | wait ms =>
      cases awaited with
      | false => exact (ih :)
      | true => exact (follows_sleep ms).bind fun _ => (follows_record (.resumed name)).bind fun _ => ih

/-- What comes of waiting, for whoever has called. -/
def returnedOf (x : Except Fault Given) : Work (Except Fault Returned) := pure (x.map Given.returned)

theorem follows_returnedOf (x : Except Fault Given) : Follows id (returnedOf x) (returnedOf (x.map Given.uniform)) := by
  have hsame : (x.map Given.uniform).map Given.returned = x.map Given.returned := by
    cases x with
    | error f => rfl
    | ok g => exact congrArg Except.ok g.returned_uniform
  unfold returnedOf
  rw [hsame]
  exact follows_pure _

/-- To call a function and wait for what it returns is to wait for a coroutine that does what is settled. -/
theorem follows_settled (name : String) (arguments : List Argument) (acts : List Act) :
    Follows id (Work.perform false name arguments acts >>= Work.attend)
      (Work.perform true name (arguments.map Argument.uniform) (settled (Act.uniformAll acts)) >>= returnedOf) := by
  induction acts with
  | nil => exact follows_pure (α := Except Fault Returned) (.ok .nothing)
  | cons act acts ih =>
    rw [Act.uniformAll]
    cases act with
    | comply =>
      rw [Act.uniform, settled_cons rfl, Work.perform, Work.perform, comply_uniform, bind_assoc, bind_assoc]
      exact (follows_comply name arguments).bind fun r => follows_pure (α := Except Fault Returned) (.ok r)
    | fail f => exact follows_pure (α := Except Fault Returned) (.error f)
    | give r settled => exact follows_pure (α := Except Fault Returned) (.ok r)
    | defer later => exact (follows_perform true name arguments later).bind follows_returnedOf
    | send destination text context callback =>
      rw [Act.uniform, settled_cons rfl, Work.perform, Work.perform, bind_assoc, bind_assoc]
      refine (follows_sendOffered destination text context callback).bind fun sent => ?_
      cases sent with
      | ok m => exact ih
      | error f => exact follows_pure (α := Except Fault Returned) (.error f)
    | register handlers =>
      rw [Act.uniform, settled_cons rfl, Work.perform, Work.perform, bind_assoc, bind_assoc]
      refine (follows_register handlers).bind fun registered => ?_
      cases registered with
      | ok u => exact ih
      | error f => exact follows_pure (α := Except Fault Returned) (.error f)
    | stop =>
      rw [Act.uniform, settled_cons rfl, Work.perform, Work.perform, bind_assoc, bind_assoc]
      exact (follows_change Stage.stop_uniform).bind fun _ => ih
    | wait ms => exact (ih :)

/-- A script does what it does, whether or not somebody waits for it, unless its acts are settled beforehand. -/
theorem follows_runScript (now : Bool) (c : Callable) {script : Script} (arguments : List Argument) {awaited : Bool}
    (hacts : ∀ n told, (script.uniform awaited).acts n told = Act.uniformAll (script.acts n told)) :
    Follows (Except.map Given.uniform) (Work.runScript now c script arguments)
      (Work.runScript now (c.uniform awaited) (script.uniform awaited) (arguments.map Argument.uniform)) := by
  unfold Work.runScript
  rw [Script.label_uniform]
  refine (follows_record (.called c.name arguments script.label)).bind fun _ => ?_
  refine (follows_onStage fun s => s.takeActs_uniform c arguments hacts).bind fun acts => ?_
  exact follows_perform now c.name arguments acts

/-- A function that is called, and a coroutine that is awaited. -/
theorem follows_runScript_settled (c : Callable) {script : Script} (arguments : List Argument)
    (hmode : script.mode = .plain) :
    Follows id (Work.runScript false c script arguments >>= Work.attend)
      (Work.runScript true (c.uniform true) (script.uniform true) (arguments.map Argument.uniform) >>= returnedOf) := by
  have hacts : ∀ n told, (script.uniform true).acts n told = settled (Act.uniformAll (script.acts n told)) :=
    fun n told => (script.acts_uniform n told).trans (if_pos ⟨rfl, hmode⟩)
  unfold Work.runScript
  simp only [bind_assoc, Script.label_uniform]
  refine (follows_record (.called c.name arguments script.label)).bind fun _ => ?_
  refine Follows.bind (g := settled ∘ Act.uniformAll) (follows_onStage fun s => ?_) (follows_settled c.name arguments)
  exact s.takeActs_uniform c arguments hacts

theorem follows_finish (result : Except Fault (Application.Done α)) :
    Follows id (Work.finish result) (Work.finish result) := by
  cases result with
  | error f => exact follows_pure _
  | ok d =>
    refine (follows_change fun s => ?_).bind fun _ => follows_pure _
    exact Stage.logAll_uniform { s with store := d.store } d.log

theorem follows_runApplication (r : Request Callable) :
    Follows (Except.map Given.uniform) (Work.runApplication r)
      (Work.runApplication (r.map (Callable.uniform false))) := by
  refine follows_get fun s => ?_
  have hhandle : Application.handle s.uniform.now s.uniform.store (r.map (Callable.uniform false)) =
      Application.handle s.now s.store r := by cases r <;> rfl
  rw [hhandle]
  refine (follows_finish _).bind fun answer => ?_
  cases answer with
  | ok a => exact follows_given (.ok (.value a))
  | error f => exact follows_given (.error f)

theorem follows_tellApplication (n : Notice Callable) :
    Follows (Except.map Given.uniform) (Work.tellApplication n)
      (Work.tellApplication (n.map (Callable.uniform false))) := by
  refine follows_get fun s => ?_
  have hobserve : Application.observe s.uniform.store (n.map (Callable.uniform false)) =
      Application.observe s.store n := by cases n <;> rfl
  rw [hobserve]
  refine (follows_finish _).bind fun told => ?_
  cases told with
  | ok u => exact follows_given (.ok (.value .nothing))
  | error f => exact follows_given (.error f)

/-! ## Calls -/

/-- Whoever is not waited for is called alike. -/
theorem follows_call (c : Callable) (call : Call) :
    Follows (Except.map Given.uniform) (Work.call c call) (Work.call (c.uniform false) call.uniform) := by
  obtain ⟨id, name, body⟩ := c
  cases body with
  | nothing => exact follows_given (.error (.notCallable name))
  | application =>
    cases call with
    | request r => exact follows_given (.ok (.awaitable (.application r)))
    | notice n => exact follows_tellApplication n
    | plain arguments => exact follows_given (.ok (.value .nothing))
  | script script =>
    have hacts : ∀ n told, (script.uniform false).acts n told = Act.uniformAll (script.acts n told) :=
      fun n told => (script.acts_uniform n told).trans (if_neg fun h => Bool.false_ne_true h.1)
    have hmode : (script.uniform false).mode = script.mode := Script.mode_uniform_false
    have hcall : ∀ mode, script.mode = mode → Follows (Except.map Given.uniform)
        (Work.call ⟨id, name, .script script⟩ call)
        (Work.call ⟨id, name, .script (script.uniform false)⟩ call.uniform) := by
      intro mode hscript
      simp only [Work.call, hmode, hscript, Call.arguments_uniform]
      cases mode with
      | plain => exact follows_runScript false ⟨id, name, .script script⟩ call.arguments hacts
      | coroutine =>
        exact follows_given (.ok (.awaitable (.coroutine ⟨id, name, .script script⟩ script call.arguments)))
    exact hcall _ rfl

theorem follows_await (p : Pending) :
    Follows (Except.map Given.uniform) (Work.await p) (Work.await p.uniform) := by
  cases p with
  | coroutine c script arguments =>
    exact follows_runScript true c arguments
      fun n told => (script.acts_uniform n told).trans (if_neg fun h => Bool.false_ne_true h.1)
  | deferred name arguments acts => exact follows_perform true name arguments acts
  | application r => exact follows_runApplication r

theorem follows_attend (x : Except Fault Given) : Follows id (Work.attend x) (Work.attend (x.map Given.uniform)) := by
  match x with
  | .error f => exact follows_pure (α := Except Fault Returned) (.error f)
  | .ok (.value r) => exact follows_pure (α := Except Fault Returned) (.ok r)
  | .ok (.awaitable p) => exact (follows_await p).bind follows_returnedOf

/-- Whoever is waited for is called and awaited alike, be it a function or a coroutine. -/
theorem follows_call_attend (c : Callable) (call : Call) :
    Follows id (Work.call c call >>= Work.attend) (Work.call (c.uniform true) call.uniform >>= Work.attend) := by
  obtain ⟨id, name, body⟩ := c
  cases body with
  | nothing => exact (follows_call ⟨id, name, .nothing⟩ call).bind follows_attend
  | application => exact (follows_call ⟨id, name, .application⟩ call).bind follows_attend
  | script script =>
    have hmode : (script.uniform true).mode = .coroutine := Script.mode_uniform_true
    have hright : Work.call (Callable.uniform true ⟨id, name, .script script⟩) call.uniform >>= Work.attend =
        Work.runScript true (Callable.uniform true ⟨id, name, .script script⟩) (script.uniform true)
          (call.arguments.map Argument.uniform) >>= returnedOf := by
      simp only [Callable.uniform, Body.uniform, Work.call, hmode, Call.arguments_uniform]
      rfl
    rw [hright]
    cases hscript : script.mode with
    | plain =>
      have hleft : Work.call ⟨id, name, .script script⟩ call =
          Work.runScript false ⟨id, name, .script script⟩ script call.arguments := by
        simp only [Work.call, hscript]
      rw [hleft]
      exact follows_runScript_settled ⟨id, name, .script script⟩ call.arguments hscript
    | coroutine =>
      have hleft : Work.call ⟨id, name, .script script⟩ call >>= Work.attend =
          Work.runScript true ⟨id, name, .script script⟩ script call.arguments >>= returnedOf := by
        simp only [Work.call, hscript]
        rfl
      have hacts : ∀ n told, (script.uniform true).acts n told = Act.uniformAll (script.acts n told) :=
        fun n told => (script.acts_uniform n told).trans (if_neg fun h => by cases hscript.symm.trans h.2)
      rw [hleft]
      exact (follows_runScript true ⟨id, name, .script script⟩ call.arguments hacts).bind follows_returnedOf

/-- A callable that is only given notice keeps its kind. -/
theorem follows_fire (event : String) (c : Callable) (call : Call) :
    Follows id (Work.fire event c call) (Work.fire event (c.uniform false) call.uniform) := by
  refine (follows_call c call).bind fun x => ?_
  cases x with
  | ok given =>
    cases given with
    | value r => exact follows_pure _
    | awaitable p =>
      refine (follows_change fun s => ?_).bind fun _ => follows_pure _
      exact s.spawn_uniform (.handler event p)
  | error f =>
    cases f with
    | cancelled text => exact follows_pure _
    | _ => exact (follows_log _).bind fun _ => follows_pure _

theorem follows_request (e : EventName) (call : Call) :
    Follows id (Work.request e call) (Work.request e call.uniform) := by
  refine follows_get fun s => ?_
  have hlisteners : s.uniform.listeners e = (s.listeners e).map (Callable.uniform e.isRequest) := rfl
  rw [hlisteners]
  cases s.listeners e with
  | none => exact follows_pure _
  | some c =>
    cases e.isRequest with
    | true => exact follows_call_attend c call
    | false => exact (follows_call c call).bind follows_attend

theorem follows_notify {e : EventName} (he : e.isRequest = false) (call : Call) :
    Follows id (Work.notify e call) (Work.notify e call.uniform) := by
  refine follows_get fun s => ?_
  have hlisteners : s.uniform.listeners e = (s.listeners e).map (Callable.uniform false) := he ▸ rfl
  rw [hlisteners]
  cases s.listeners e with
  | none => exact follows_pure _
  | some c => exact follows_fire e.text c call

/-! ## The modem tool -/

/-- The step, with all that it offers of one kind. -/
def Step.uniform : Step → Step
  | register event offer => .register event (offer.uniform (isAwaited event.plain))
  | on event offer => .on event (offer.uniform (isAwaited event.plain))
  | onAll offers => .onAll (Offer.uniformAll offers)
  | announce destination text context callback r =>
    .announce destination text (context.uniform false) (callback.uniform false) r
  | send destination text context callback => .send destination text (context.uniform false) (callback.uniform false)
  | step => step

def Result.uniform : Result → Result
  | outbound m => .outbound (uniformOutbound m)
  | r => r

def Report.uniform (r : Report) : Report where
  result := r.result.map Result.uniform
  trace := r.trace.map Incident.uniform
  stage := r.stage.uniform

end SmsRelay.Session
