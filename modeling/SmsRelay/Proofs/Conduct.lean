-- SUMMARY: All work of a session starts and stops polling and does nothing else to it; runs of sessions are runs of moves.
import SmsRelay.Proofs.Interleaving
import SmsRelay.Session

/-!
# Conduct

Nothing that takes part in a session meddles with polling: handlers, the modem
tool, the phases of the gateway and the steps of the session start and stop it,
and that is all. So each turn of a session shows something, unless a cycle is
cancelled, and the moves of interleavings lead wherever a session does.
-/

namespace SmsRelay.Session

open Polling (Event)

/-! ## Changes of the stage -/

namespace Stage

theorem aside_of_eq {s s' : Stage} (hpolling : s'.polling = s.polling) (hspawned : s'.spawned = s.spawned) :
    s.Aside s' :=
  ⟨hpolling, [], hspawned, List.forall_mem_nil _⟩

theorem Aside.trans {s s' s'' : Stage} (h : s.Aside s') (h' : s'.Aside s'') : s.Aside s'' := by
  obtain ⟨hpolling, handlers, hspawned, hall⟩ := h
  obtain ⟨hpolling', handlers', hspawned', hall'⟩ := h'
  refine ⟨hpolling'.trans hpolling, handlers' ++ handlers, ?_, List.forall_mem_append.mpr ⟨hall', hall⟩⟩
  rw [hspawned', hspawned, List.append_assoc]

theorem aside_refl (s : Stage) : s.Aside s := aside_of_eq rfl rfl

theorem aside_logAll (es : List Log.Entry) (s : Stage) : s.Aside (s.logAll es) := by
  induction es generalizing s with
  | nil => exact aside_refl s
  | cons e es ih => exact (aside_of_eq rfl rfl).trans (ih (s.log e))

theorem aside_accept (name : String) (offer : Offer) (s : Stage) : s.Aside (s.accept name offer).2 := by
  cases offer with
  | value v => exact aside_refl s
  | script script => exact aside_of_eq rfl rfl

theorem aside_acceptCallback (offer : Offer) (s : Stage) : s.Aside (s.acceptCallback offer).2 := by
  unfold acceptCallback
  split
  · exact aside_refl s
  · exact aside_of_eq rfl rfl
  · exact aside_of_eq rfl rfl

theorem aside_acceptAll (offers : List (String × Offer)) (s : Stage) : s.Aside (s.acceptAll offers).2 := by
  induction offers generalizing s with
  | nil => exact aside_refl s
  | cons x offers ih => exact (aside_accept x.1 x.2 s).trans (ih _)

theorem aside_on (r : Listeners.Registration Callable) (s : Stage) : s.Aside (s.on r).2 := aside_of_eq rfl rfl

theorem aside_register (offers : List (String × Offer)) (s : Stage) : s.Aside (s.register offers).2 :=
  (aside_acceptAll offers s).trans (aside_on _ _)

theorem aside_send (destination text : Value) (context callback : Supplied Callable) (s : Stage) :
    s.Aside (s.send destination text context callback).2 := by
  unfold send
  split
  · exact aside_of_eq rfl rfl
  · exact aside_refl s

theorem aside_sendOffered (destination text : Value) (context callback : Offer) (s : Stage) :
    s.Aside (s.sendOffered destination text context callback).2 :=
  ((aside_accept _ context s).trans (aside_accept _ callback _)).trans (aside_send _ _ _ _ _)

theorem aside_takeReply (command : String) (s : Stage) : s.Aside (s.takeReply command).2 := by
  unfold takeReply
  split
  · exact aside_of_eq rfl rfl
  · exact aside_refl s

theorem aside_spawn (event : String) (p : Pending) (s : Stage) : s.Aside (s.spawn (.handler event p)) :=
  ⟨rfl, [.handler event p], rfl, List.forall_mem_singleton.mpr ⟨event, p, rfl⟩⟩

/-! ## Calls of start and stop -/

theorem Changes.trans {s s' s'' : Stage} {es es' : List Event} (h : s.Changes es s') (h' : s'.Changes es' s'') :
    s.Changes (es ++ es') s'' := by
  induction h' with
  | refl =>
    rw [List.append_nil]
    exact h
  | aside _ haside ih => exact .aside ih haside
  | start _ ih =>
    rw [← List.append_assoc]
    exact .start ih
  | stop _ ih =>
    rw [← List.append_assoc]
    exact .stop ih

/-- Several calls of start and stop, one after the other. -/
theorem changes_startOrStop (starts : List Bool) (s : Stage) :
    ∃ es, s.Changes es (starts.foldl (fun s b => Step.startOrStop b s) s) := by
  induction starts generalizing s with
  | nil => exact ⟨[], .refl⟩
  | cons b starts ih =>
    have hfirst : ∃ es, s.Changes es (Step.startOrStop b s) := by
      cases b with
      | false => exact ⟨_, .stop .refl⟩
      | true => exact ⟨_, .start .refl⟩
    obtain ⟨es, hes⟩ := hfirst
    obtain ⟨es', hes'⟩ := ih (Step.startOrStop b s)
    exact ⟨es ++ es', hes.trans hes'⟩

end Stage

/-! ## Pieces of work -/

namespace Work

variable {β : Type}

/-- Until its end the work does nothing to polling but start and stop it, whatever others do meanwhile. -/
def Conducts : Work β → Stage → Prop
  | .done _, _ => True
  | .ask .get next, s => Conducts (next s) s
  | .ask (.put s') next, s => (∃ es, s.Changes es s') ∧ Conducts (next ()) s'
  | .ask .pause next, _ => ∀ s, Conducts (next ()) s
  | .ask (.sleep _) next, _ => ∀ s, Conducts (next ()) s
  | .ask .join next, _ => ∀ outcome s, Conducts (next outcome) s

/-- The work does so wherever it begins. -/
def Conducted (w : Work β) : Prop := ∀ s, w.Conducts s

variable {α : Type}

theorem Conducts.bind {p : Work α} {f : α → Work β} {s : Stage} (hp : p.Conducts s) (hf : ∀ a, (f a).Conducted) :
    Conducts (Flow.bind p f) s := by
  induction p generalizing s with
  | done a => exact hf a s
  | ask q next ih =>
    cases q with
    | get => exact ih s hp
    | put s' => exact ⟨hp.1, ih () hp.2⟩
    | pause => exact fun s => ih () (hp s)
    | sleep ms => exact fun s => ih () (hp s)
    | join => exact fun outcome s => ih outcome (hp outcome s)

theorem Conducted.bind {p : Work α} {f : α → Work β} (hp : p.Conducted) (hf : ∀ a, (f a).Conducted) :
    Conducted (p >>= f) :=
  fun s => (hp s).bind hf

theorem conducted_pure (a : α) : Conducted (pure a) := fun _ => trivial

theorem conducted_get {f : Stage → Work β} (hf : ∀ s, (f s).Conducted) : Conducted (query .get >>= f) :=
  fun s => hf s s

theorem conducted_onStage {f : Stage → α × Stage} (hf : ∀ s : Stage, s.Aside (f s).2) : (onStage f).Conducted :=
  fun s => ⟨⟨[], .aside .refl (hf s)⟩, trivial⟩

theorem conducted_read (f : Stage → α) : (read f).Conducted := fun _ => trivial

theorem conducted_change {f : Stage → Stage} (hf : ∀ s : Stage, s.Aside (f s)) : (change f).Conducted :=
  conducted_onStage hf

/-- Calls of start and stop. -/
theorem conducted_calls {f : Stage → Stage} (hf : ∀ s : Stage, ∃ es, s.Changes es (f s)) : (change f).Conducted :=
  fun s => ⟨hf s, trivial⟩

theorem conducted_pause : pause.Conducted := fun _ _ => trivial

theorem conducted_sleep (ms : Nat) : (sleep ms).Conducted := by
  obtain hpause | hsleep := sleep_eq_or ms
  · rw [hpause]
    exact conducted_pause
  · rw [hsleep]
    exact fun _ _ => trivial

theorem conducted_join : (query .join).Conducted := fun _ _ _ => trivial

theorem conducted_record (i : Incident) : (record i).Conducted :=
  conducted_change fun _ => Stage.aside_of_eq rfl rfl

theorem conducted_log (e : Log.Entry) : (log e).Conducted :=
  conducted_change fun _ => Stage.aside_of_eq rfl rfl

/-- To answer each question in a way that conducts itself is to conduct oneself. -/
theorem conducted_interpret {S : Signature} {answer : (q : S.Ask) → Work (S.Answer q)}
    (h : ∀ q, (answer q).Conducted) (p : Flow S α) : Conducted (Flow.interpret answer p) := by
  induction p with
  | done a => exact conducted_pure a
  | ask q next ih => exact (h q).bind ih

/-! ## Handlers -/

theorem conducted_comply (name : String) (arguments : List Argument) : (comply name arguments).Conducted := by
  unfold comply
  split
  · refine (conducted_change ?_).bind fun _ => conducted_pure _
    exact fun _ => Stage.aside_of_eq rfl rfl
  · exact (conducted_read _).bind fun _ => conducted_pure _
  · exact conducted_pure _
  · exact conducted_pure _

theorem conducted_perform (awaited : Bool) (name : String) (arguments : List Argument) (acts : List Act) :
    (perform awaited name arguments acts).Conducted := by
  induction acts with
  | nil => exact conducted_pure _
  | cons act acts ih =>
    cases act with
    | comply => exact (conducted_comply name arguments).bind fun _ => conducted_pure _
    | fail f => exact conducted_pure _
    | give r settled => exact conducted_pure _
    | defer later => exact conducted_pure _
    | send destination text context callback =>
      refine (conducted_onStage (Stage.aside_sendOffered _ _ _ _)).bind fun sent => ?_
      cases sent with
      | ok m => exact ih
      | error f => exact conducted_pure _
    | register handlers =>
      refine (conducted_onStage (Stage.aside_register _)).bind fun registered => ?_
      cases registered with
      | ok u => exact ih
      | error f => exact conducted_pure _
    | stop => exact (conducted_calls fun _ => ⟨_, .stop .refl⟩).bind fun _ => ih
    | wait ms =>
      cases awaited with
      | false => exact ih
      | true => exact (conducted_sleep ms).bind fun _ => (conducted_record _).bind fun _ => ih

theorem conducted_runScript (awaited : Bool) (c : Callable) (script : Script) (arguments : List Argument) :
    (runScript awaited c script arguments).Conducted := by
  refine (conducted_record _).bind fun _ => ?_
  refine (conducted_onStage fun _ => Stage.aside_of_eq rfl rfl).bind fun acts => ?_
  exact conducted_perform awaited c.name arguments acts

theorem conducted_finish (result : Except Fault (Application.Done α)) : (finish result).Conducted := by
  cases result with
  | ok d =>
    refine (conducted_change fun s => ?_).bind fun _ => conducted_pure _
    have hstore : s.Aside { s with store := d.store } := Stage.aside_of_eq rfl rfl
    exact hstore.trans (Stage.aside_logAll _ _)
  | error f => exact conducted_pure _

theorem conducted_call (c : Callable) (call : Call) : (Work.call c call).Conducted := by
  unfold Work.call
  split
  · split
    · exact conducted_runScript _ _ _ _
    · exact conducted_pure _
  · split
    · exact conducted_pure _
    · exact conducted_get fun s => (conducted_finish _).bind fun _ => conducted_pure _
    · exact conducted_pure _
  · exact conducted_pure _

theorem conducted_await (p : Pending) : (await p).Conducted := by
  cases p with
  | coroutine c script arguments => exact conducted_runScript _ _ _ _
  | deferred name arguments acts => exact conducted_perform _ _ _ _
  | application r => exact conducted_get fun s => (conducted_finish _).bind fun _ => conducted_pure _

theorem conducted_attend (x : Except Fault Given) : (attend x).Conducted := by
  unfold attend
  split
  · exact conducted_pure _
  · exact conducted_pure _
  · exact (conducted_await _).bind fun _ => conducted_pure _

theorem conducted_fire (event : String) (c : Callable) (call : Call) : (fire event c call).Conducted := by
  refine (conducted_call c call).bind fun x => ?_
  split
  · exact conducted_pure _
  · exact (conducted_change (Stage.aside_spawn event _)).bind fun _ => conducted_pure _
  · exact conducted_pure _
  · exact (conducted_log _).bind fun _ => conducted_pure _

theorem conducted_request (event : EventName) (call : Call) : (request event call).Conducted := by
  refine conducted_get fun s => ?_
  split
  · exact (conducted_call _ call).bind conducted_attend
  · exact conducted_pure _

theorem conducted_notify (event : EventName) (call : Call) : (notify event call).Conducted := by
  refine conducted_get fun s => ?_
  split
  · exact conducted_fire _ _ call
  · exact conducted_pure _

/-! ## The gateway -/

theorem conducted_sendAll (messages : List Sending) : (sendAll messages).Conducted := by
  induction messages with
  | nil => exact conducted_pure _
  | cons m messages ih =>
    refine (conducted_onStage (Stage.aside_sendOffered _ _ _ _)).bind fun r => ?_
    split
    · exact ih
    · exact conducted_pure _

theorem conducted_runModem (command : String) (arguments : List String) : (runModem command arguments).Conducted := by
  refine (conducted_read _).bind fun clock => ?_
  refine (conducted_record _).bind fun _ => ?_
  refine (conducted_onStage (Stage.aside_takeReply command)).bind fun reply => ?_
  refine (conducted_sendAll _).bind fun r => ?_
  cases r with
  | error f => exact conducted_pure _
  | ok u =>
    dsimp -zeta only
    extract_lets rest
    have hrest : ∀ u, (rest u).Conducted := by
      intro _
      dsimp only [rest]
      split <;> exact conducted_pure _
    split
    · exact (conducted_sleep _).bind hrest
    · exact hrest ()

theorem conducted_answer (q : Gateway.Ask Callable) : (answer q).Conducted := by
  cases q with
  | queues => exact conducted_read _
  | update f => exact conducted_change fun _ => Stage.aside_of_eq rfl rfl
  | modem command arguments => exact conducted_runModem command arguments
  | request r => exact conducted_request _ _
  | notify n => exact conducted_notify _ _
  | callback c m r => exact conducted_fire _ c _
  | log e => exact conducted_log e

theorem conducted_phase (p : Gateway.Phase Callable α) : (phase p).Conducted :=
  conducted_interpret conducted_answer p.run

/-! ## Sessions -/

theorem conducted_announceWork (m : Outbound Callable) (r : TransmitResult) : (Step.announceWork m r).Conducted := by
  unfold Step.announceWork
  extract_lets arguments rest
  have hrest : ∀ fired, (rest fired).Conducted := by
    intro fired
    cases fired with
    | error c => exact conducted_pure _
    | ok u => exact (conducted_request _ _).bind fun _ => conducted_pure _
  split
  · exact (conducted_fire _ _ _).bind hrest
  · exact (conducted_pure _).bind hrest

/-- The steps of a session start and stop polling, and do nothing else to it. -/
theorem conducted_step (step : Step) : step.work.Conducted := by
  cases step with
  | register event offer =>
    refine (conducted_onStage fun s => ?_).bind fun r => conducted_pure _
    dsimp only
    split
    · exact (Stage.aside_accept _ _ _).trans (Stage.aside_of_eq rfl rfl)
    · exact Stage.aside_accept _ _ _
  | on event offer =>
    refine (conducted_onStage fun s => ?_).bind fun r => conducted_pure _
    exact (Stage.aside_accept _ _ _).trans (Stage.aside_on _ _)
  | onAll offers =>
    exact (conducted_onStage (Stage.aside_register _)).bind fun r => conducted_pure _
  | hasListener event => exact conducted_get fun s => conducted_pure _
  | request event arguments =>
    dsimp only [Step.work]
    split
    · exact conducted_pure _
    · exact conducted_pure _
    · exact (conducted_request _ _).bind fun r => conducted_pure _
  | notify event arguments =>
    dsimp only [Step.work]
    split
    · exact conducted_pure _
    · exact conducted_pure _
    · refine (conducted_notify _ _).bind fun r => ?_
      split
      · exact conducted_pure _
      · exact conducted_pure _
  | announce destination text context callback r =>
    refine (conducted_onStage (Stage.aside_accept _ _)).bind fun context => ?_
    refine (conducted_onStage (Stage.aside_acceptCallback _)).bind fun callback => ?_
    exact conducted_announceWork _ r
  | send destination text context callback =>
    exact (conducted_onStage (Stage.aside_sendOffered _ _ _ _)).bind fun r => conducted_pure _
  | runCycle => exact conducted_get fun s => (conducted_phase _).bind fun r => conducted_pure _
  | runPhase p => exact conducted_get fun s => (conducted_phase _).bind fun r => conducted_pure _
  | enqueueDeletion m =>
    refine (conducted_change ?_).bind fun _ => conducted_pure _
    exact fun _ => Stage.aside_of_eq rfl rfl
  | lengths => exact conducted_get fun s => conducted_pure _
  | start => exact (conducted_calls fun _ => ⟨_, .start .refl⟩).bind fun _ => conducted_pure _
  | stop => exact (conducted_calls fun _ => ⟨_, .stop .refl⟩).bind fun _ => conducted_pure _
  | batch starts => exact (conducted_calls (Stage.changes_startOrStop starts)).bind fun _ => conducted_pure _
  | join => exact conducted_join.bind fun r => conducted_pure _
  | sleep ms => exact (conducted_sleep ms).bind fun _ => conducted_pure _
  | listReceived limit => exact conducted_get fun s => conducted_pure _
  | loadSegments key => exact conducted_get fun s => conducted_pure _
  | memory => exact conducted_get fun s => conducted_pure _

theorem conducted_settle (times : Nat) : (settle times).Conducted := by
  induction times with
  | zero => exact conducted_pure _
  | succ times ih => exact conducted_pause.bind fun _ => ih

theorem conducted_takeSteps (settles : Step → Bool) (steps : List Step) : (takeSteps settles steps).Conducted := by
  induction steps with
  | nil => exact conducted_pure _
  | cons step steps ih =>
    refine (conducted_step step).bind fun result => ?_
    extract_lets rest
    have hrest : ∀ u, (rest u).Conducted := by
      intro _
      refine (conducted_onStage fun _ => Stage.aside_of_eq rfl rfl).bind fun r => ?_
      exact ih.bind fun reports => conducted_pure _
    split
    · exact (conducted_settle 6).bind hrest
    · exact hrest ()

theorem conducted_gateway (config : Config) : (gatewaySetting config).cycle.Conducted :=
  (conducted_phase _).bind fun _ => conducted_pure _

theorem conducted_scriptedCycle (cycles : List CycleScript) : (scriptedCycle cycles).Conducted := by
  unfold scriptedCycle
  refine (conducted_onStage fun _ => Stage.aside_of_eq rfl rfl).bind fun script => ?_
  extract_lets rest
  have hrest : ∀ u, (rest u).Conducted := by
    intro _
    refine (conducted_calls (Stage.changes_startOrStop _)).bind fun _ => ?_
    refine (conducted_change ?_).bind fun _ => ?_
    · exact fun _ => Stage.aside_of_eq rfl rfl
    · split <;> exact conducted_pure _
  split
  · exact (conducted_sleep _).bind hrest
  · exact hrest ()

/-! ## The loop -/

/-- A cycle is cancelled when it goes on. -/
def Cancelled (w : Cycle) (s : Stage) : Prop := ∃ f, (advance w s).1 = .done (.error f) ∧ f.isCancellation = true

/-- Work that goes on shows what it does, and what is left of it conducts itself as well. -/
theorem Conducts.advance {w : Work β} {s : Stage} (h : w.Conducts s) :
    (∃ es, s.Changes es (Session.advance w s).2) ∧
      ∀ outcome w', (Session.advance w s).1.rest? outcome = some w' → w'.Conducted := by
  induction w generalizing s with
  | done a => exact ⟨⟨[], .refl⟩, fun _ _ h => nomatch h⟩
  | ask q next ih =>
    cases q with
    | get => exact ih s h
    | put s' =>
      obtain ⟨⟨es, hes⟩, hnext⟩ := h
      obtain ⟨⟨es', hes'⟩, hrest⟩ := ih () hnext
      exact ⟨⟨es ++ es', hes.trans hes'⟩, hrest⟩
    | pause =>
      refine ⟨⟨[], .refl⟩, fun outcome w' hw' => ?_⟩
      obtain rfl := Option.some.inj hw'
      exact h
    | sleep ms =>
      refine ⟨⟨[], .refl⟩, fun outcome w' hw' => ?_⟩
      obtain rfl := Option.some.inj hw'
      exact h
    | join =>
      refine ⟨⟨[], .refl⟩, fun outcome w' hw' => ?_⟩
      obtain rfl := Option.some.inj hw'
      exact h outcome

/-- A cycle that is not cancelled shows what it does. -/
theorem Conducted.shows {w : Cycle} (h : w.Conducted) {s : Stage} (hcancelled : ¬w.Cancelled s) :
    ∃ es, w.Shows s es := by
  obtain ⟨⟨es, hes⟩, -⟩ := (h s).advance
  unfold Work.Shows
  split
  · rename_i r hr
    refine ⟨es ++ [.ends], fun f hf => ?_, es, hes, rfl⟩
    cases hcancellation : f.isCancellation with
    | false => rfl
    | true => exact absurd ⟨f, by rw [hr, hf], hcancellation⟩ hcancelled
  · exact ⟨es, hes⟩

end Work

variable {α : Type}

namespace Turn

/-- What goes on in this turn conducts itself. -/
def Conducted : Turn α → Prop
  | .main w => w.Conducted
  | .cycle w => w.Conducted
  | .handler _ w => w.Conducted
  | .awake t => t.Conducted
  | .failed _ | .proceed | .look | .ending _ | .expire => True

/-- A cycle is cancelled in this turn. -/
def Cancels (setting : Setting) (t : Turn α) (s : Stage) : Prop :=
  match t with
  | .cycle w => w.Cancelled s
  | .proceed | .ending 0 =>
    s.polling.active = true ∧ setting.cycle.Cancelled { s with polling := s.polling.proceed }
  | _ => False

theorem Conducted.shows {setting : Setting} {t : Turn α} {s : Stage} (h : t.Conducted)
    (hcycle : setting.cycle.Conducted) (hcancels : ¬t.Cancels setting s) : ∃ es, t.Shows setting s es := by
  have hproceed : ¬(s.polling.active = true ∧ setting.cycle.Cancelled { s with polling := s.polling.proceed }) →
      ∃ es, (.proceed : Turn α).Shows setting s es := by
    intro hcancelled
    unfold Shows
    cases hon : s.polling.active with
    | false => exact ⟨[], by simp⟩
    | true =>
      obtain ⟨es, hes⟩ := hcycle.shows fun h => hcancelled ⟨hon, h⟩
      exact ⟨.begins :: es, by simpa using hes⟩
  cases t with
  | main w => exact (h s).advance.1
  | cycle w => exact Work.Conducted.shows h hcancels
  | handler event w => exact (h s).advance.1
  | proceed => exact hproceed hcancels
  | ending turns =>
    cases turns with
    | zero => exact hproceed hcancels
    | succ turns => exact ⟨[], rfl⟩
  | failed event => exact ⟨[], rfl⟩
  | look => exact ⟨[], rfl⟩
  | expire => exact ⟨[], rfl⟩
  | awake t => exact ⟨[], rfl⟩

end Turn

namespace Loop

/-- All that waits for its turn conducts itself. -/
structure Conducted (l : Loop α) : Prop where
  ready : ∀ t ∈ l.ready, t.Conducted
  timers : ∀ x ∈ l.timers, x.2.Conducted
  joiner : ∀ rest, l.joiner = some rest → ∀ outcome, (rest outcome).Conducted

namespace Conducted

variable {l l' : Loop α} {setting : Setting}

theorem push (h : l.Conducted) {t : Turn α} (ht : t.Conducted) : (l.push t).Conducted :=
  ⟨List.forall_mem_append.mpr ⟨h.ready, List.forall_mem_singleton.mpr ht⟩, h.timers, h.joiner⟩

theorem schedule (h : l.Conducted) (delay : Nat) {t : Turn α} (ht : t.Conducted) : (l.schedule delay t).Conducted := by
  refine ⟨h.ready, fun x hx => ?_, h.joiner⟩
  rcases List.mem_cons.mp ((insertTimer_perm _ _ _).mem_iff.mp hx) with rfl | hx
  · exact ht
  · exact h.timers x hx

/-- Nothing but handlers, the polling loop and the end of its wait is spawned. -/
theorem absorb (h : l.Conducted) (s : Stage) : (Loop.absorb { l with stage := s }).Conducted := by
  refine ⟨List.forall_mem_append.mpr ⟨h.ready, List.forall_mem_map.mpr fun x _ => ?_⟩, h.timers, h.joiner⟩
  cases x with
  | handler event p => exact Work.conducted_await p
  | loop => trivial
  | wake => trivial

theorem setPolling (h : l.Conducted) (p : Polling) : (l.setPolling p).Conducted := ⟨h.ready, h.timers, h.joiner⟩

theorem log (h : l.Conducted) (e : Log.Entry) : (l.log e).Conducted := ⟨h.ready, h.timers, h.joiner⟩

theorem finish (h : l.Conducted) (outcome : Except Fault Unit) : (l.finish outcome).Conducted := by
  unfold Loop.finish
  split
  · exact ⟨h.ready, h.timers, h.joiner⟩
  · rename_i rest hrest
    exact push (l := { l with outcome, joiner := none }) ⟨h.ready, h.timers, nofun⟩ (h.joiner rest hrest outcome)

theorem conclude (h : l.Conducted) : l.conclude.Conducted := (h.log _).finish _

theorem afterCycle (h : l.Conducted) (setting : Setting) : (l.afterCycle setting).Conducted := by
  unfold Loop.afterCycle
  dsimp only
  split
  · exact (h.setPolling _).conclude
  · split
    · exact ((h.setPolling _).schedule _ (t := .expire) trivial).push (t := .look) trivial
    · exact (h.setPolling _).push trivial

theorem goOnCycle (h : l.Conducted) (setting : Setting) {w : Cycle} (hw : w.Conducted) :
    (l.goOnCycle setting w).Conducted := by
  have hrest := (hw l.stage).advance.2
  unfold Loop.goOnCycle
  generalize advance w l.stage = advanced at *
  obtain ⟨halt, s⟩ := advanced
  cases halt with
  | done r =>
    cases r with
    | ok u => exact (h.absorb s).afterCycle setting
    | error f =>
      dsimp only
      split
      · exact ((h.absorb s).setPolling _).finish _
      · exact ((h.absorb s).log _).afterCycle setting
  | paused rest => exact (h.absorb s).push (hrest (.ok ()) rest rfl)
  | asleep ms rest => exact (h.absorb s).schedule ms (hrest (.ok ()) rest rfl)
  | joining rest => exact (h.absorb s).push (hrest _ _ rfl)

theorem proceed (h : l.Conducted) (hcycle : setting.cycle.Conducted) : (l.proceed setting).Conducted := by
  unfold Loop.proceed
  dsimp only
  split
  · exact (h.setPolling _).conclude
  · exact (h.setPolling _).goOnCycle setting hcycle

theorem goOnHandler (h : l.Conducted) {event : String} {w : Work (Except Fault Given)} (hw : w.Conducted) :
    (l.goOnHandler event w).Conducted := by
  have hrest := (hw l.stage).advance.2
  unfold Loop.goOnHandler
  generalize advance w l.stage = advanced at *
  obtain ⟨halt, s⟩ := advanced
  cases halt with
  | done r =>
    cases r with
    | ok a => exact h.absorb s
    | error f =>
      dsimp only
      split
      · exact h.absorb s
      · exact (h.absorb s).push trivial
  | paused rest => exact (h.absorb s).push (hrest (.ok ()) rest rfl)
  | asleep ms rest => exact (h.absorb s).schedule ms (hrest (.ok ()) rest rfl)
  | joining rest => exact (h.absorb s).push (hrest _ _ rfl)

theorem goOnMain (h : l.Conducted) {w : Work α} (hw : w.Conducted) (hgo : l.goOnMain w = .inr l') : l'.Conducted := by
  have hrest := (hw l.stage).advance.2
  unfold Loop.goOnMain at hgo
  generalize advance w l.stage = advanced at *
  obtain ⟨halt, s⟩ := advanced
  have hl := h.absorb s
  cases halt with
  | done a => cases hgo
  | paused rest =>
    cases hgo
    exact hl.push (hrest (.ok ()) rest rfl)
  | asleep ms rest =>
    cases hgo
    exact hl.schedule ms (hrest (.ok ()) rest rfl)
  | joining rest =>
    dsimp only at hgo
    split at hgo
    · cases hgo
      exact ⟨List.forall_mem_cons.mpr ⟨hrest _ _ rfl, hl.ready⟩, hl.timers, hl.joiner⟩
    · cases hgo
      refine ⟨hl.ready, hl.timers, fun rest' heq outcome => ?_⟩
      obtain rfl := Option.some.inj heq
      exact hrest outcome _ rfl

theorem take (h : l.Conducted) (hcycle : setting.cycle.Conducted) {t : Turn α} (ht : t.Conducted)
    (htake : take setting t l = .inr l') : l'.Conducted := by
  cases t with
  | main w => exact h.goOnMain ht htake
  | cycle w =>
    cases htake
    exact h.goOnCycle setting ht
  | handler event w =>
    cases htake
    exact h.goOnHandler ht
  | failed event =>
    cases htake
    exact h.log _
  | proceed =>
    cases htake
    exact h.proceed hcycle
  | look =>
    cases htake
    split
    · exact (h.setPolling _).push trivial
    · exact h.setPolling _
  | ending turns =>
    cases turns with
    | zero =>
      cases htake
      refine proceed (l := { l with
        ready := l.ready.filter (!Turn.isExpiry ·), timers := l.timers.filter (!Turn.isExpiry ·.2) }) ?_ hcycle
      exact ⟨fun t ht => h.ready t (List.mem_filter.mp ht).1,
        fun x hx => h.timers x (List.mem_filter.mp hx).1, h.joiner⟩
    | succ turns =>
      cases htake
      exact h.push trivial
  | expire =>
    simp only [Loop.take] at htake
    split at htake
    · cases htake
      exact (h.setPolling _).push trivial
    · cases htake
      exact h
  | awake t =>
    cases htake
    exact h.push ht

theorem move {es : List Event} (h : l.Conducted) (hcycle : setting.cycle.Conducted) (hmove : Move setting l es l') :
    l'.Conducted := by
  cases hmove with
  | start => exact h.absorb _
  | stop => exact h.absorb _
  | turn hready _ htake =>
    have hall := h.ready
    rw [hready, List.forall_mem_append, List.forall_mem_cons] at hall
    have hrest := List.forall_mem_append.mpr ⟨hall.1, hall.2.2⟩
    exact take (l := { l with ready := _ }) ⟨hrest, h.timers, h.joiner⟩ hcycle hall.2.1 htake
  | @due before after _ _ htimers _ =>
    have hall := h.timers
    rw [htimers, List.forall_mem_append, List.forall_mem_cons] at hall
    have hrest := List.forall_mem_append.mpr ⟨hall.1, hall.2.2⟩
    exact push (l := { l with timers := before ++ after }) ⟨h.ready, hrest, h.joiner⟩ hall.2.1
  | later _ => exact ⟨h.ready, h.timers, h.joiner⟩

theorem reaches {es : List Event} (h : l.Conducted) (hcycle : setting.cycle.Conducted) (hr : Reaches setting l es l') :
    l'.Conducted := by
  induction hr with
  | refl => exact h
  | next _ hmove ih => exact ih.move hcycle hmove

end Conducted

end Loop

/-! ## Sessions -/

/-- Moves lead wherever a session of a gateway does, as long as no cycle of the polling loop is cancelled: to
the turn that gives its result. -/
theorem Loop.reaches_run {turns : Nat} {setting : Setting} (hcycle : setting.cycle.Conducted) {settles : Step → Bool}
    {stage : Stage} {steps : List Step} {reports : List Report}
    (hcancels : ∀ es m t rest, Reaches setting { stage, ready := [.main (takeSteps settles steps)] } es m →
      m.ready = t :: rest → ¬t.Cancels setting m.stage)
    (hrun : Session.run turns setting settles stage steps = some reports) :
    ∃ es m t rest, Reaches setting { stage, ready := [.main (takeSteps settles steps)] } es m ∧
      m.ready = t :: rest ∧ take setting t { m with ready := rest } = .inl reports := by
  have hl : Conducted { stage, ready := [.main (takeSteps settles steps)] } :=
    ⟨List.forall_mem_singleton.mpr (Work.conducted_takeSteps settles steps), nofun, nofun⟩
  refine Reaches.of_run .refl (fun es m t rest hr hready => ?_) hrun
  have ht : t.Conducted := (hl.reaches hcycle hr).ready t (by rw [hready]; exact List.mem_cons_self)
  exact ht.shows hcycle (hcancels es m t rest hr hready)

end SmsRelay.Session
