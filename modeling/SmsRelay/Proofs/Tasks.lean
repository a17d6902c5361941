-- SUMMARY: Tasks of bystanders, turn by turn: what a turn leaves on the stage, and what is left of the task after it.
import SmsRelay.Proofs.Bystanders
import SmsRelay.Proofs.Interleaving
import Mathlib.Logic.Hydra

/-!
# Tasks of bystanders

Handlers that nobody waits for may be tasks and take turns of their own, now or
after some time. Such a turn changes nothing that the other turns find, and what
is left of the task after it is less: at some point the task is done.
-/

namespace SmsRelay.Session

open Gateway

/-! ## Errands -/

/-- The work leaves on the stage what bystanders leave, and sets nothing going, whatever others do while it waits. -/
def Work.Drifts {β : Type} : Work β → Roster → Stage → Prop
  | .done _, _, _ => True
  | .ask .get next, r, s => Drifts (next s) r s
  | .ask (.put s') next, r, s => (r.Drifts s s' ∧ s'.spawned = s.spawned) ∧ Drifts (next ()) r s'
  | .ask .pause next, r, _ => ∀ r' s, r.Grows r' → Drifts (next ()) r' s
  | .ask (.sleep _) next, r, _ => ∀ r' s, r.Grows r' → Drifts (next ()) r' s
  | .ask .join _, _, _ => False

namespace Roster

variable {α β : Type} {r r' : Roster}

/-- Work of a bystander that may be taken up at any time. -/
def Errand (r : Roster) (w : Work β) : Prop := ∀ r' s, r.Grows r' → w.Drifts r' s

/-- What is left of the work is an errand. -/
def IdleHalt (r : Roster) : Halt β → Prop
  | .done _ => True
  | .paused rest => r.Errand rest
  | .asleep _ rest => r.Errand rest
  | .joining _ => False

theorem Errand.mono {w : Work β} (hw : r.Errand w) (h : r.Grows r') : r'.Errand w :=
  fun r'' s h' => hw r'' s (h.trans h')

theorem errand_pure (r : Roster) (a : β) : r.Errand (pure a) := fun _ _ _ => trivial

theorem Errand.bind {p : Work α} {f : α → Work β} (hp : r.Errand p) (hf : ∀ a, r.Errand (f a)) :
    r.Errand (p >>= f) := by
  have hbind : ∀ r' s, r.Grows r' → Work.Drifts p r' s → Work.Drifts (Flow.bind p f) r' s := by
    clear hp
    induction p with
    | done a => exact fun r' s hr _ => hf a r' s hr
    | ask q next ih =>
      intro r' s hr hp
      cases q with
      | get => exact ih s r' s hr hp
      | put s' => exact ⟨hp.1, ih () r' s' hr hp.2⟩
      | pause => exact fun r'' s hr' => ih () r'' s (hr.trans hr') (hp r'' s hr')
      | sleep ms => exact fun r'' s hr' => ih () r'' s (hr.trans hr') (hp r'' s hr')
      | join => exact hp
  exact fun r' s hr => hbind r' s hr (hp r' s hr)

theorem errand_onStage {f : Stage → β × Stage}
    (hf : ∀ r', r.Grows r' → ∀ s, r'.Drifts s (f s).2 ∧ (f s).2.spawned = s.spawned) : r.Errand (Work.onStage f) :=
  fun r' s hr => ⟨hf r' hr s, trivial⟩

theorem errand_record {i : Incident} (hi : i.sight? = none) : r.Errand (Work.record i) :=
  errand_onStage (f := fun s => ((), s.record i)) fun r' _ s => ⟨drifts_record hi r' s, rfl⟩

theorem errand_sleep (ms : Nat) : r.Errand (Work.sleep ms) := by
  obtain hpause | hsleep := Work.sleep_eq_or ms
  · rw [hpause]
    exact fun _ _ _ _ _ _ => trivial
  · rw [hsleep]
    exact fun _ _ _ _ _ _ => trivial

theorem errand_perform {name : String} {acts : List Act} (awaited : Bool) (hname : isAwaited name = false)
    (hacts : ∀ act ∈ acts, act.Mute) (arguments : List Argument) :
    r.Errand (Work.perform awaited name arguments acts) := by
  induction acts with
  | nil => exact errand_pure r _
  | cons act acts ih =>
    obtain ⟨hact, hrest⟩ := List.forall_mem_cons.mp hacts
    cases hact with
    | comply =>
      rw [Work.perform, comply_of_unawaited hname]
      exact (errand_pure r _).bind fun _ => errand_pure r _
    | fail hf => exact errand_pure r _
    | give a settled => exact errand_pure r _
    | defer hlater => exact errand_pure r _
    | wait ms =>
      cases awaited with
      | false => exact (ih hrest :)
      | true => exact (errand_sleep ms).bind fun _ => (errand_record rfl).bind fun _ => ih hrest

/-- To await a bystander's chore is an errand. -/
theorem Chore.errand {p : Pending} (hp : r.Chore p) : r.Errand (Work.await p) := by
  cases hp with
  | deferred arguments hname hacts => exact errand_perform true hname hacts arguments
  | @coroutine c script arguments hc hscript =>
    have hcalled : (Incident.called c.name arguments script.label).sight? = none := if_neg (by simp [hc.name])
    have htakes : Work.await (.coroutine c script arguments) =
        Work.record (.called c.name arguments script.label) >>= fun _ =>
          Work.query .get >>= fun s => Work.query (.put (s.takeActs c script arguments).2) >>= fun _ =>
            Work.perform true c.name arguments (s.takeActs c script arguments).1 := rfl
    rw [htakes]
    refine (errand_record hcalled).bind fun _ r' s hr => ?_
    refine ⟨⟨drifts_takeActs (hc.mono hr) script arguments s, rfl⟩, ?_⟩
    exact errand_perform true hc.name (hscript _ _) arguments r' _ hr

/-- An errand goes on until it halts. -/
theorem Errand.advance {w : Work β} (hw : r.Errand w) (s : Stage) :
    r.Drifts s (Session.advance w s).2 ∧ (Session.advance w s).2.spawned = s.spawned ∧
      r.IdleHalt (Session.advance w s).1 := by
  have hadvance : ∀ s, w.Drifts r s → r.Drifts s (Session.advance w s).2 ∧
      (Session.advance w s).2.spawned = s.spawned ∧ r.IdleHalt (Session.advance w s).1 := by
    clear hw
    induction w with
    | done a => exact fun s _ => ⟨.refl r s, rfl, trivial⟩
    | ask q next ih =>
      intro s hw
      cases q with
      | get => exact ih s s hw
      | put s' =>
        obtain ⟨⟨hs', hspawned⟩, hnext⟩ := hw
        obtain ⟨hdrifts, hsame, hrest⟩ := ih () s' hnext
        exact ⟨hs'.trans hdrifts, hsame.trans hspawned, hrest⟩
      | pause => exact ⟨.refl r s, rfl, hw⟩
      | sleep ms => exact ⟨.refl r s, rfl, hw⟩
      | join => exact hw.elim
  exact hadvance s (hw r s (.refl r))

end Roster

/-! ## Turns -/

variable {α : Type} {r r' : Roster}

/-- The turn of a task that nobody waits for. -/
def Turn.isTask : Turn α → Bool
  | handler .. | failed _ => true
  | awake t => t.isTask
  | _ => false

/-- A task of a bystander, or its failure. -/
inductive Roster.Task (r : Roster) : Turn α → Prop
  | failed (event : String) : Task r (.failed event)
  | handler (event : String) {w : Work (Except Fault Given)} : r.Errand w → Task r (.handler event w)
  | awake {t : Turn α} : Task r t → Task r (.awake t)

theorem Roster.Task.isTask {t : Turn α} (h : r.Task t) : t.isTask = true := by
  induction h with
  | failed event => rfl
  | handler event hw => rfl
  | awake _ ih => exact ih

theorem Roster.Task.mono {t : Turn α} (h : r.Task t) (hr : r.Grows r') : r'.Task t := by
  induction h with
  | failed event => exact .failed event
  | handler event hw => exact .handler event (hw.mono hr)
  | awake _ ih => exact .awake ih

/-- The first is what is left of the second after its turn. -/
inductive Turn.LeftOf : Turn α → Turn α → Prop
  | failed (event : String) (w : Work (Except Fault Given)) : LeftOf (.failed event) (.handler event w)
  | paused (event : String) {w' w : Work (Except Fault Given)} : w'.LeftOf w →
      LeftOf (.handler event w') (.handler event w)
  | asleep (event : String) {w' w : Work (Except Fault Given)} : w'.LeftOf w →
      LeftOf (.awake (.handler event w')) (.handler event w)
  | awake (t : Turn α) : LeftOf t (.awake t)

theorem Turn.acc_leftOf (t : Turn α) : Acc LeftOf t := by
  have hawake : ∀ {t : Turn α}, Acc LeftOf t → Acc LeftOf (.awake t) := by
    intro t ht
    refine ⟨_, fun t' h => ?_⟩
    cases h
    exact ht
  induction t with
  | awake t ih => exact hawake ih
  | handler event w =>
    induction Work.acc_leftOf w with
    | intro w _ ih =>
      refine ⟨_, fun t' h => ?_⟩
      cases h with
      | failed => exact ⟨_, fun t' h => nomatch h⟩
      | paused _ hw => exact ih _ hw
      | asleep _ hw => exact hawake (ih _ hw)
  | _ => exact ⟨_, fun t' h => nomatch h⟩

/-- Tasks go on only so often. -/
theorem Turn.wellFounded_leftOf : WellFounded (LeftOf (α := α)) := ⟨acc_leftOf⟩

/-! ### A turn -/

/-- What may have become of a loop in the turn of a bystander: the task is done, or what is left of it goes on, at once
or after some time. -/
inductive Roster.Leaves (r : Roster) (t : Turn α) (l : Loop α) : Loop α → Prop
  | done {s : Stage} : r.Drifts l.stage s → s.spawned = [] → Leaves r t l { l with stage := s }
  | pushed {s : Stage} {t' : Turn α} : r.Drifts l.stage s → s.spawned = [] → r.Task t' → t'.LeftOf t →
      Leaves r t l (Loop.push t' { l with stage := s })
  | scheduled {s : Stage} {t' : Turn α} (ms : Nat) : r.Drifts l.stage s → s.spawned = [] → r.Task t' → t'.LeftOf t →
      Leaves r t l (Loop.schedule ms t' { l with stage := s })

theorem Loop.absorb_eq {l : Loop α} (hspawned : l.stage.spawned = []) : Loop.absorb l = l := by
  obtain ⟨stage, ready, timers, joiner, outcome⟩ := l
  obtain ⟨config, queues, listeners, polling, store, memory, replies, nextId, calls, cycles, clock, now, trace,
    spawned⟩ := stage
  obtain rfl : spawned = [] := hspawned
  simp [Loop.absorb]

/-- A handler that nobody waits for goes on. -/
theorem Roster.Errand.goOnHandler {w : Work (Except Fault Given)} {l : Loop α} (hw : r.Errand w) (event : String)
    (hspawned : l.stage.spawned = []) : r.Leaves (.handler event w) l (Loop.goOnHandler event w l) := by
  obtain ⟨hs', hspawned', hhalt⟩ := hw.advance l.stage
  have hleft : ∀ w', (Session.advance w l.stage).1.rest? l.outcome = some w' → Work.LeftOf w' w := fun w' h =>
    ⟨l.stage, l.outcome, h⟩
  unfold Loop.goOnHandler
  generalize Session.advance w l.stage = advanced at *
  obtain ⟨halt, s'⟩ := advanced
  have hempty : s'.spawned = [] := hspawned'.trans hspawned
  have habsorb : Loop.absorb { l with stage := s' } = { l with stage := s' } := Loop.absorb_eq hempty
  cases halt with
  | done x =>
    simp only [habsorb]
    cases x with
    | ok a => exact .done hs' hempty
    | error f =>
      dsimp only
      split
      · exact .done hs' hempty
      · exact .pushed hs' hempty (.failed event) (.failed event w)
  | paused rest =>
    simp only [habsorb]
    exact .pushed hs' hempty (.handler event hhalt) (.paused event (hleft rest rfl))
  | asleep ms rest =>
    simp only [habsorb]
    exact .scheduled ms hs' hempty (.awake (.handler event hhalt)) (.asleep event (hleft rest rfl))
  | joining rest => exact hhalt.elim

/-- A turn of a bystander. -/
theorem Roster.Task.take {t : Turn α} {l : Loop α} (ht : r.Task t) (setting : Setting)
    (hspawned : l.stage.spawned = []) : ∃ l', Loop.take setting t l = .inr l' ∧ r.Leaves t l l' := by
  cases ht with
  | failed event => exact ⟨_, rfl, .done (drifts_log _ r l.stage) hspawned⟩
  | handler event hw => exact ⟨_, rfl, hw.goOnHandler event hspawned⟩
  | @awake t ht => exact ⟨_, rfl, .pushed (.refl r l.stage) hspawned ht (.awake t)⟩

end SmsRelay.Session
