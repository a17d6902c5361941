-- SUMMARY: What each turn does to polling and to the cycles underway.
import SmsRelay.Proofs.Duties

/-!
# Turns

What each turn does to polling and to the cycles underway, and so each move. A
turn that is to go on with the polling loop finds nothing else that is, and
leaves what the new phase calls for. All other turns only call start and stop.
-/

namespace SmsRelay

open Polling (Event)

/-! ## What is seen of polling -/

namespace Polling

namespace Event

def isCall : Event → Bool
  | start | stop => true
  | begins | ends => false

/-- Whether polling is on after the event, if it was `on` before. -/
def switch (on : Bool) : Event → Bool
  | start => true
  | stop => false
  | begins | ends => on

theorem count_of_isCall {es : List Event} (h : ∀ e ∈ es, e.isCall = true) :
    es.count .begins = 0 ∧ es.count .ends = 0 := by
  refine ⟨List.count_eq_zero.mpr fun hmem => ?_, List.count_eq_zero.mpr fun hmem => ?_⟩
  · exact absurd (h _ hmem) Bool.false_ne_true
  · exact absurd (h _ hmem) Bool.false_ne_true

end Event

/-- Polling is switched as the calls have left it, and it has counted the cycles that have ended. -/
structure After (p : Polling) (es : List Event) (p' : Polling) : Prop where
  active : p'.active = es.foldl Event.switch p.active
  cycles : p'.cycles = p.cycles + es.count .ends

theorem After.refl (p : Polling) : p.After [] p := ⟨rfl, rfl⟩

theorem After.trans {p p' p'' : Polling} {es es' : List Event} (h : p.After es p') (h' : p'.After es' p'') :
    p.After (es ++ es') p'' where
  active := by rw [h'.active, h.active, List.foldl_append]
  cycles := by rw [h'.cycles, h.cycles, List.count_append, Nat.add_assoc]

theorem after_start (p : Polling) : p.After [.start] p.start.2 where
  active := active_start p
  cycles := by
    simp only [start]
    split
    · rfl
    · split <;> rfl

theorem after_stop (p : Polling) : p.After [.stop] p.stop := ⟨rfl, rfl⟩

theorem after_finishCycle (p : Polling) : p.After [.ends] p.finishCycle := ⟨rfl, rfl⟩

end Polling

namespace Session

namespace Stage.Changes

variable {s s' : Stage} {es : List Event}

theorem isCall (h : s.Changes es s') : ∀ e ∈ es, e.isCall = true := by
  induction h with
  | refl => exact nofun
  | aside _ _ ih => exact ih
  | start _ ih => exact List.forall_mem_append.mpr ⟨ih, List.forall_mem_singleton.mpr rfl⟩
  | stop _ ih => exact List.forall_mem_append.mpr ⟨ih, List.forall_mem_singleton.mpr rfl⟩

theorem after (h : s.Changes es s') : s.polling.After es s'.polling := by
  induction h with
  | refl => exact .refl _
  | aside _ haside ih =>
    rw [haside.1]
    exact ih
  | @start _ s' _ ih =>
    rw [polling_start]
    exact ih.trans s'.polling.after_start
  | @stop _ s' _ ih => exact ih.trans s'.polling.after_stop

end Stage.Changes

/-! ## What becomes of cycles -/

/-- What becomes of a cycle that goes on, and what is seen meanwhile. -/
inductive Work.Goes (w : Cycle) : List Event → Multiset Cycle → Prop where
  | halts {es : List Event} {w' : Cycle} : (∀ e ∈ es, e.isCall = true) → w'.LeftOf w → Goes w es {w'}
  | ends {es : List Event} : (∀ e ∈ es, e.isCall = true) → Goes w (es ++ [.ends]) 0

/-- What becomes of the cycles underway. A cycle begins only if none is, and if polling is `on`. -/
inductive Course (cycle : Cycle) (on : Bool) : Multiset Cycle → List Event → Multiset Cycle → Prop where
  | others {ws : Multiset Cycle} {es : List Event} : (∀ e ∈ es, e.isCall = true) → Course cycle on ws es ws
  | begins {es : List Event} {ws : Multiset Cycle} : on = true → cycle.Goes es ws →
      Course cycle on 0 (.begins :: es) ws
  | goesOn {w : Cycle} {es : List Event} {ws : Multiset Cycle} : w.Goes es ws → Course cycle on {w} es ws

section

variable {cycle w : Cycle} {on : Bool} {ws ws' : Multiset Cycle} {es : List Event}

theorem Work.Goes.count (h : w.Goes es ws) : es.count .begins = 0 ∧ es.count .ends + ws.card = 1 := by
  cases h with
  | halts hcalls _ =>
    obtain ⟨hbegins, hends⟩ := Event.count_of_isCall hcalls
    exact ⟨hbegins, by rw [hends]; rfl⟩
  | ends hcalls =>
    obtain ⟨hbegins, hends⟩ := Event.count_of_isCall hcalls
    rw [List.count_append, List.count_append, hbegins, hends]
    exact ⟨rfl, rfl⟩

/-- A cycle that was underway or has begun is underway or has ended. -/
theorem Course.count (h : Course cycle on ws es ws') :
    es.count .begins + ws.card = es.count .ends + ws'.card := by
  cases h with
  | others hcalls =>
    obtain ⟨hbegins, hends⟩ := Event.count_of_isCall hcalls
    rw [hbegins, hends]
  | begins _ hgoes =>
    obtain ⟨hbegins, hends⟩ := hgoes.count
    rw [List.count_cons_self, hbegins, List.count_cons_of_ne (by decide), hends]
    rfl
  | goesOn hgoes =>
    obtain ⟨hbegins, hends⟩ := hgoes.count
    rw [hbegins, hends]
    rfl

/-- A cycle begins first of all, when none is underway and polling is on. -/
theorem Course.of_begins {before after : List Event} (h : Course cycle on ws es ws')
    (heq : es = before ++ .begins :: after) : before = [] ∧ ws = 0 ∧ on = true := by
  have hmem : Event.begins ∈ es := by
    rw [heq]
    exact List.mem_append_right _ List.mem_cons_self
  cases h with
  | others hcalls => exact absurd hmem (List.count_eq_zero.mp (Event.count_of_isCall hcalls).1)
  | goesOn hgoes => exact absurd hmem (List.count_eq_zero.mp hgoes.count.1)
  | begins hon hgoes =>
    refine ⟨?_, rfl, hon⟩
    cases before with
    | nil => rfl
    | cons e before =>
      obtain ⟨-, rfl⟩ := List.cons.inj heq
      exact absurd (List.mem_append_right _ List.mem_cons_self) (List.count_eq_zero.mp hgoes.count.1)

theorem Work.Goes.of_ends {before after : List Event} (h : w.Goes es ws) (heq : es = before ++ .ends :: after) :
    after = [] := by
  cases h with
  | halts hcalls _ =>
    have hmem : Event.ends ∈ es := heq ▸ List.mem_append_right _ List.mem_cons_self
    exact absurd (hcalls _ hmem) Bool.false_ne_true
  | ends hcalls =>
    obtain rfl | ⟨init, e, rfl⟩ := List.eq_nil_or_concat after
    · rfl
    · -- another end would be among the calls
      rw [List.concat_eq_append, ← List.cons_append, ← List.append_assoc] at heq
      obtain ⟨rfl, -⟩ := List.append_inj' heq rfl
      exact absurd (hcalls _ (List.mem_append_right _ List.mem_cons_self)) Bool.false_ne_true

/-- A cycle ends last of all. -/
theorem Course.of_ends {before after : List Event} (h : Course cycle on ws es ws')
    (heq : es = before ++ .ends :: after) : after = [] := by
  cases h with
  | others hcalls =>
    have hmem : Event.ends ∈ es := heq ▸ List.mem_append_right _ List.mem_cons_self
    exact absurd (hcalls _ hmem) Bool.false_ne_true
  | begins _ hgoes =>
    cases before with
    | nil => cases heq
    | cons e before => exact hgoes.of_ends (List.cons.inj heq).2
  | goesOn hgoes => exact hgoes.of_ends heq

/-- A cycle that is underway stays as it is, ends, or goes on. -/
theorem Course.of_underway (h : Course cycle on {w} es ws') :
    ws' = {w} ∨ .ends ∈ es ∨ ∃ w', ws' = {w'} ∧ w'.LeftOf w := by
  generalize hws : ({w} : Multiset Cycle) = ws at h
  cases h with
  | others _ => exact .inl rfl
  | begins _ _ => exact absurd hws (Multiset.singleton_ne_zero w)
  | goesOn hgoes =>
    obtain rfl := Multiset.singleton_inj.mp hws
    cases hgoes with
    | halts _ hleft => exact .inr (.inr ⟨_, rfl, hleft⟩)
    | ends _ => exact .inr (.inl (List.mem_append_right _ List.mem_cons_self))

end

namespace Loop

variable {α : Type} {l : Loop α} {setting : Setting} {D : Multiset Duty} {p p' : Polling} {es : List Event}
  {ws : Multiset Cycle} {w : Cycle}

/-! ## Polling on its own -/

/-- So much waits, nothing has been spawned, and polling is in this state. -/
structure Holds (D : Multiset Duty) (p : Polling) (l : Loop α) : Prop where
  waiting : l.waiting = D
  spawned : l.stage.duties = 0
  polling : l.stage.polling = p

/-- Polling is as it should be after such events, and these cycles are underway. -/
structure Keeps (p : Polling) (es : List Event) (ws : Multiset Cycle) (l : Loop α) : Prop where
  sound : l.Sound
  after : p.After es l.stage.polling
  underway : l.underway = ws

namespace Holds

theorem push (h : Holds D p l) (t : Turn α) : Holds (t.duty.toList + D) p (l.push t) where
  waiting := by rw [waiting_push, h.waiting]
  spawned := h.spawned
  polling := h.polling

theorem schedule (h : Holds D p l) (delay : Nat) (t : Turn α) : Holds (t.duty.toList + D) p (l.schedule delay t) where
  waiting := by rw [waiting_schedule, h.waiting]
  spawned := h.spawned
  polling := h.polling

theorem setPolling (h : Holds D p l) (p' : Polling) : Holds D p' (l.setPolling p') :=
  ⟨h.waiting, h.spawned, rfl⟩

theorem schedulerLog (h : Holds D p l) (level : Log.Level) (text : String) :
    Holds D p (l.schedulerLog level text) :=
  ⟨h.waiting, h.spawned, h.polling⟩

theorem finish (h : Holds D p l) (outcome : Except Fault Unit) : Holds D p (l.finish outcome) := by
  unfold Loop.finish
  split
  · exact ⟨h.waiting, h.spawned, h.polling⟩
  · rename_i rest _
    have hpush := push (l := { l with outcome, joiner := none }) ⟨h.waiting, h.spawned, h.polling⟩
      (.main (rest outcome))
    rwa [show ((Turn.main (rest outcome)).duty.toList : Multiset Duty) + D = D from zero_add D] at hpush

theorem conclude (h : Holds D p l) : Holds D p l.conclude := (h.schedulerLog _ _).finish _

/-- When a cycle has ended the wait is to begin, or there is no loop any more. -/
theorem afterCycle (h : Holds 0 p l) (setting : Setting) :
    Holds (if p.active then {.enter} else 0) p.finishCycle (l.afterCycle setting) := by
  have hset := h.setPolling p.finishCycle
  cases hon : p.active with
  | false =>
    have heq : l.afterCycle setting = (l.setPolling p.finishCycle).conclude := by
      simp [Loop.afterCycle, Loop.setPolling, h.polling, Polling.finishCycle, hon]
    rw [heq]
    exact hset.conclude
  | true =>
    have hphase : (l.setPolling p.finishCycle).stage.polling.phase ≠ .idle := by
      simp [Loop.setPolling, Polling.finishCycle, hon]
    unfold Loop.afterCycle
    simp only [h.polling]
    rw [if_neg hphase]
    cases setting.interval with
    | none => exact hset.push .look
    | some ms => exact (hset.schedule ms .expire).push .look

theorem keeps (h : Holds D p' l) (hduties : D.map Duty.phase = p'.phase.pending)
    (halive : p'.active = true → p'.phase ≠ .idle) (hafter : p.After es p') :
    Keeps p es (D.filterMap Duty.cycle?) l where
  sound := by
    refine ⟨?_, ?_⟩
    · rw [h.waiting, h.spawned, h.polling, add_zero]
      exact hduties
    · rw [h.polling]
      exact halive
  after := by
    rw [h.polling]
    exact hafter
  underway := by rw [Loop.underway, h.waiting]

/-- All that waits is what the phase calls for. -/
theorem keeps_duty {d : Duty} (h : Holds {d} p' l) (hphase : p'.phase = d.phase) (hafter : p.After es p') :
    Keeps p es (Multiset.filterMap Duty.cycle? {d}) l := by
  refine h.keeps ?_ ?_ hafter
  · rw [hphase, Duty.pending_phase, Multiset.map_singleton]
  · rw [hphase]
    exact fun _ => d.phase_ne_idle

/-- Nothing waits, and the phase calls for nothing. -/
theorem keeps_none (h : Holds 0 p' l) (hphase : p'.phase.pending = 0) (halive : p'.active = true → p'.phase ≠ .idle)
    (hafter : p.After es p') : Keeps p es 0 l :=
  h.keeps hphase.symm halive hafter

/-- The cycle has ended. -/
theorem keeps_afterCycle (h : Holds 0 p' l) (setting : Setting) (hafter : p.After es p') :
    Keeps p (es ++ [.ends]) 0 (l.afterCycle setting) := by
  have hended := h.afterCycle setting
  have hfinish := hafter.trans p'.after_finishCycle
  cases hon : p'.active with
  | false =>
    rw [hon, if_neg Bool.false_ne_true] at hended
    refine hended.keeps_none ?_ ?_ hfinish
    · simp [Polling.finishCycle, hon, Polling.Phase.pending]
    · simp [Polling.finishCycle, hon]
  | true =>
    rw [hon, if_pos rfl] at hended
    refine hended.keeps_duty (d := .enter) ?_ hfinish
    simp [Polling.finishCycle, hon, Duty.phase]

end Holds

/-! ## Turns of the polling loop -/

/-- A cycle that goes on leaves something of itself to go on, or it ends. -/
theorem keeps_goOnCycle (setting : Setting) (hfits : l.stage.Fits ({.cycle w} + l.waiting))
    (hshows : w.Shows l.stage es) :
    ∃ ws, w.Goes es ws ∧ Keeps l.stage.polling es ws (l.goOnCycle setting w) := by
  have hleft : ∀ w', (advance w l.stage).1.rest? l.outcome = some w' → w'.LeftOf w := fun w' h => ⟨_, _, h⟩
  unfold Work.Shows at hshows
  unfold goOnCycle
  generalize advance w l.stage = advanced at *
  obtain ⟨halt, s⟩ := advanced
  -- whatever the calls, the phase is still that of a cycle underway, and nothing has been spawned
  have hheld : ∀ {calls}, l.stage.Changes calls s → s.polling.phase = .cycling ∧
      Holds 0 s.polling (absorb { l with stage := s }) := by
    intro calls hs
    obtain ⟨hphase, hwaiting, hspawned⟩ := (hfits.changes hs).alone
    refine ⟨hphase, ?_, rfl, rfl⟩
    rw [waiting_absorb]
    exact congrArg₂ _ hwaiting hspawned
  have hrest : ∀ {rest l'}, l.stage.Changes es s → Work.LeftOf rest w → Holds {.cycle rest} s.polling l' →
      ∃ ws, w.Goes es ws ∧ Keeps (α := α) l.stage.polling es ws l' := fun hs hrest hl' =>
    ⟨_, .halts hs.isCall hrest, hl'.keeps_duty (hheld hs).1 hs.after⟩
  cases halt with
  | done r =>
    obtain ⟨hr, calls, hs, rfl⟩ := hshows
    refine ⟨0, .ends hs.isCall, ?_⟩
    cases r with
    | ok u => exact (hheld hs).2.keeps_afterCycle setting hs.after
    | error f =>
      dsimp only
      rw [if_neg (by rw [hr f rfl]; exact Bool.false_ne_true)]
      exact ((hheld hs).2.schedulerLog _ _).keeps_afterCycle setting hs.after
  | paused rest => exact hrest hshows (hleft _ rfl) ((hheld hshows).2.push (.cycle rest))
  | asleep ms rest => exact hrest hshows (hleft _ rfl) ((hheld hshows).2.schedule ms (.awake (.cycle rest)))
  | joining rest => exact hrest hshows (hleft _ rfl) ((hheld hshows).2.push (.cycle (rest l.outcome)))

/-- A cycle that begins now is all that is to go on with the polling loop. -/
theorem fits_proceed {d : Duty} (hfits : l.stage.Fits ({d} + l.waiting)) (hon : l.stage.polling.active = true) :
    Stage.Fits ({.cycle w} + (l.setPolling l.stage.polling.proceed).waiting)
      (l.setPolling l.stage.polling.proceed).stage := by
  obtain ⟨-, hwaiting, hspawned⟩ := hfits.alone
  have hset : Holds 0 l.stage.polling.proceed (l.setPolling l.stage.polling.proceed) := ⟨hwaiting, hspawned, rfl⟩
  have hcycling : l.stage.polling.proceed.phase = .cycling := Polling.phase_proceed_of_active hon
  refine ⟨?_, ?_⟩
  · rw [hset.waiting, hset.spawned, hset.polling, hcycling]
    rfl
  · rw [hset.polling, hcycling]
    exact nofun

/-- The loop goes on from its start or from a wait: a cycle begins if polling is on. -/
theorem keeps_proceed {d : Duty} (hfits : l.stage.Fits ({d} + l.waiting))
    (hshows : Turn.Shows setting (.proceed : Turn α) l.stage es) :
    ∃ ws, Course setting.cycle l.stage.polling.active 0 es ws ∧
      Keeps l.stage.polling es ws (l.proceed setting) := by
  obtain ⟨-, hwaiting, hspawned⟩ := hfits.alone
  have hset : Holds 0 l.stage.polling.proceed (l.setPolling l.stage.polling.proceed) := ⟨hwaiting, hspawned, rfl⟩
  unfold Turn.Shows at hshows
  unfold proceed
  cases hon : l.stage.polling.active with
  | false =>
    have hidle : l.stage.polling.proceed.phase = .idle := Polling.phase_proceed_of_not_active hon
    simp only [hon, Bool.false_eq_true, if_false] at hshows
    subst hshows
    dsimp only
    rw [if_pos (by rw [hset.polling, hidle])]
    refine ⟨0, .others (List.forall_mem_nil _), hset.conclude.keeps_none ?_ ?_ ⟨rfl, rfl⟩⟩
    · rw [hidle]
      rfl
    · exact fun h => absurd (hon.symm.trans h) Bool.false_ne_true
  | true =>
    have hcycling : l.stage.polling.proceed.phase = .cycling := Polling.phase_proceed_of_active hon
    simp only [hon, if_true] at hshows
    obtain ⟨es', rfl, hshows⟩ := hshows
    dsimp only
    rw [if_neg (by rw [hset.polling, hcycling]; exact nofun)]
    obtain ⟨ws, hgoes, hkeeps⟩ := keeps_goOnCycle setting (fits_proceed hfits hon) hshows
    exact ⟨ws, .begins rfl hgoes, hkeeps.sound, ⟨hkeeps.after.active, hkeeps.after.cycles⟩, hkeeps.underway⟩

/-- The wait is called off, or the loop is parked. -/
theorem keeps_look {l' : Loop α} (hfits : l.stage.Fits ({.enter} + l.waiting))
    (htake : take setting .look l = .inr l') : Keeps l.stage.polling [] 0 l' := by
  obtain ⟨-, hwaiting, hspawned⟩ := hfits.alone
  have hset : Holds 0 l.stage.polling.look (l.setPolling l.stage.polling.look) := ⟨hwaiting, hspawned, rfl⟩
  cases htake
  cases hroused : l.stage.polling.roused with
  | false =>
    have hparked : l.stage.polling.look.phase = .parked := by simp [Polling.look, hroused]
    rw [if_neg (by rw [hset.polling, hparked]; exact nofun)]
    refine hset.keeps_none ?_ ?_ ⟨rfl, rfl⟩
    · rw [hparked]
      rfl
    · rw [hparked]
      exact nofun
  | true =>
    have hwaking : l.stage.polling.look.phase = .waking := by simp [Polling.look, hroused]
    rw [if_pos (by rw [hset.polling, hwaking])]
    exact (hset.push (.ending 1)).keeps_duty hwaking ⟨rfl, rfl⟩

/-- After a wait the loop goes on, some turns later. -/
theorem keeps_ending {turns : Nat} {l' : Loop α} (hfits : l.stage.Fits ({.wake} + l.waiting))
    (hshows : Turn.Shows setting (.ending turns : Turn α) l.stage es)
    (htake : take setting (.ending turns) l = .inr l') :
    ∃ ws, Course setting.cycle l.stage.polling.active 0 es ws ∧ Keeps l.stage.polling es ws l' := by
  obtain ⟨hphase, hwaiting, hspawned⟩ := hfits.alone
  cases turns with
  | zero =>
    cases htake
    refine keeps_proceed (l := { l with
      ready := l.ready.filter (!Turn.isExpiry ·), timers := l.timers.filter (!Turn.isExpiry ·.2) })
      (d := .wake) ?_ hshows
    rw [waiting_without_expiry]
    exact hfits
  | succ turns =>
    subst hshows
    cases htake
    have hheld : Holds 0 l.stage.polling l := ⟨hwaiting, hspawned, rfl⟩
    exact ⟨0, .others (List.forall_mem_nil _), (hheld.push (.ending turns)).keeps_duty hphase (.refl _)⟩

/-! ## Turns of others -/

theorem Sound.keeps (h : l.Sound) : Keeps l.stage.polling [] l.underway l := ⟨h, .refl _, rfl⟩

theorem Keeps.of_waiting {l' : Loop α} (h : Keeps p es ws l) (hwaiting : l'.waiting = l.waiting)
    (hspawned : l'.stage.spawned = l.stage.spawned) (hpolling : l'.stage.polling = l.stage.polling) :
    Keeps p es ws l' := by
  refine ⟨⟨?_, ?_⟩, ?_, ?_⟩
  · rw [hwaiting, hpolling, Stage.duties, hspawned]
    exact h.sound.duties
  · rw [hpolling]
    exact h.sound.alive
  · rw [hpolling]
    exact h.after
  · rw [Loop.underway, hwaiting]
    exact h.underway

theorem Keeps.push (h : Keeps p es ws l) {t : Turn α} (ht : t.duty = none) : Keeps p es ws (l.push t) := by
  refine h.of_waiting ?_ rfl rfl
  rw [waiting_push, ht]
  exact zero_add _

theorem Keeps.schedule (h : Keeps p es ws l) (delay : Nat) {t : Turn α} (ht : t.duty = none) :
    Keeps p es ws (l.schedule delay t) := by
  refine h.of_waiting ?_ rfl rfl
  rw [waiting_schedule, ht]
  exact zero_add _

/-- Calls from outside of the polling loop leave the cycles underway alone. -/
theorem Sound.keeps_changes (h : l.Sound) {s : Stage} (hs : l.stage.Changes es s) :
    Keeps l.stage.polling es l.underway (Loop.absorb { l with stage := s }) := by
  have hchanged : Sound { l with stage := s } := h.changes hs
  refine ⟨hchanged.absorb, hs.after, ?_⟩
  rw [underway, waiting_absorb, Multiset.filterMap_add, Stage.cycles_duties, add_zero]
  rfl

theorem Sound.keeps_goOnMain (h : l.Sound) {w : Work α} {l' : Loop α} (hs : l.stage.Changes es (advance w l.stage).2)
    (hgo : l.goOnMain w = .inr l') : Keeps l.stage.polling es l.underway l' := by
  have hkeeps := h.keeps_changes hs
  unfold goOnMain at hgo
  generalize advance w l.stage = advanced at *
  obtain ⟨halt, s⟩ := advanced
  cases halt with
  | done a => cases hgo
  | paused rest =>
    cases hgo
    exact hkeeps.push rfl
  | asleep ms rest =>
    cases hgo
    exact hkeeps.schedule ms rfl
  | joining rest =>
    dsimp only at hgo
    split at hgo
    · cases hgo
      exact hkeeps.of_waiting rfl rfl rfl
    · cases hgo
      exact hkeeps.of_waiting rfl rfl rfl

theorem Sound.keeps_goOnHandler (h : l.Sound) {event : String} {w : Work (Except Fault Given)}
    (hs : l.stage.Changes es (advance w l.stage).2) :
    Keeps l.stage.polling es l.underway (l.goOnHandler event w) := by
  have hkeeps := h.keeps_changes hs
  unfold goOnHandler
  generalize advance w l.stage = advanced at *
  obtain ⟨halt, s⟩ := advanced
  cases halt with
  | done r =>
    cases r with
    | ok a => exact hkeeps
    | error f =>
      dsimp only
      split
      · exact hkeeps
      · exact hkeeps.push rfl
  | paused rest => exact hkeeps.push rfl
  | asleep ms rest => exact hkeeps.schedule ms rfl
  | joining rest => exact hkeeps.push rfl

/-- The timer of a wait wakes a loop that is parked. -/
theorem Sound.keeps_expire (h : l.Sound) {l' : Loop α} (htake : take setting .expire l = .inr l') :
    Keeps l.stage.polling [] l.underway l' := by
  simp only [take] at htake
  split at htake
  · rename_i hparked
    cases htake
    have hnone := h.duties
    rw [hparked, Polling.Phase.pending, Multiset.map_eq_zero,
      add_eq_zero_iff_of_nonneg (Multiset.zero_le _) (Multiset.zero_le _)] at hnone
    have hset : Holds 0 l.stage.polling.expire (l.setPolling l.stage.polling.expire) := ⟨hnone.1, hnone.2, rfl⟩
    have hexpire : l.stage.polling.expire = { l.stage.polling with phase := .waking } := if_pos hparked
    rw [underway, hnone.1]
    refine (hset.push (.ending 3)).keeps_duty (d := .wake) ?_ ?_
    · rw [hexpire]
      rfl
    · rw [hexpire]
      exact ⟨rfl, rfl⟩
  · cases htake
    exact h.keeps

/-! ## Moves -/

/-- A turn does to polling what the phase allows. -/
theorem keeps_take {t : Turn α} {l' : Loop α} (hfits : l.stage.Fits (t.duty.toList + l.waiting))
    (hshows : t.Shows setting l.stage es) (htake : take setting t l = .inr l') :
    ∃ ws, Course setting.cycle l.stage.polling.active
      (Multiset.filterMap Duty.cycle? (t.duty.toList + l.waiting)) es ws ∧ Keeps l.stage.polling es ws l' := by
  have hnone : t.duty = none →
      l.Sound ∧ Multiset.filterMap Duty.cycle? (t.duty.toList + l.waiting) = l.underway := by
    intro ht
    rw [ht] at hfits ⊢
    simpa [Sound, underway] using hfits
  cases t with
  | main w =>
    obtain ⟨hsound, hws⟩ := hnone rfl
    rw [hws]
    exact ⟨_, .others (Stage.Changes.isCall hshows), hsound.keeps_goOnMain hshows htake⟩
  | cycle w =>
    obtain ⟨-, hwaiting, -⟩ := Stage.Fits.alone (d := .cycle w) hfits
    obtain ⟨ws, hgoes, hkeeps⟩ := keeps_goOnCycle setting hfits hshows
    cases htake
    rw [hwaiting]
    exact ⟨ws, .goesOn hgoes, hkeeps⟩
  | handler event w =>
    obtain ⟨hsound, hws⟩ := hnone rfl
    cases htake
    rw [hws]
    exact ⟨_, .others (Stage.Changes.isCall hshows), hsound.keeps_goOnHandler hshows⟩
  | failed event =>
    obtain ⟨hsound, hws⟩ := hnone rfl
    subst hshows
    cases htake
    rw [hws]
    exact ⟨_, .others (List.forall_mem_nil _), hsound.keeps.of_waiting rfl rfl rfl⟩
  | proceed =>
    obtain ⟨-, hwaiting, -⟩ := Stage.Fits.alone (d := .launch) hfits
    cases htake
    rw [hwaiting]
    exact keeps_proceed (d := .launch) hfits hshows
  | look =>
    obtain ⟨-, hwaiting, -⟩ := Stage.Fits.alone (d := .enter) hfits
    subst hshows
    rw [hwaiting]
    exact ⟨0, .others (List.forall_mem_nil _), keeps_look hfits htake⟩
  | ending turns =>
    obtain ⟨-, hwaiting, -⟩ := Stage.Fits.alone (d := .wake) hfits
    rw [hwaiting]
    exact keeps_ending hfits hshows htake
  | expire =>
    obtain ⟨hsound, hws⟩ := hnone rfl
    subst hshows
    rw [hws]
    exact ⟨_, .others (List.forall_mem_nil _), hsound.keeps_expire htake⟩
  | awake t =>
    subst hshows
    cases htake
    refine ⟨_, .others (List.forall_mem_nil _), ?_, .refl _, ?_⟩
    · unfold Sound
      rw [waiting_push]
      exact hfits
    · rw [underway, waiting_push]
      rfl

theorem keeps_move {l' : Loop α} (h : l.Sound) (hmove : Move setting l es l') :
    ∃ ws, Course setting.cycle l.stage.polling.active l.underway es ws ∧ Keeps l.stage.polling es ws l' := by
  cases hmove with
  | start => exact ⟨_, .others (List.forall_mem_singleton.mpr rfl), h.keeps_changes Stage.Changes.refl.start⟩
  | stop => exact ⟨_, .others (List.forall_mem_singleton.mpr rfl), h.keeps_changes Stage.Changes.refl.stop⟩
  | @turn before after t _ _ hready hshows htake =>
    have hwaiting : l.waiting = t.duty.toList + waiting { l with ready := before ++ after } := by
      simp only [waiting, hready, coe_filterMap_middle, add_assoc]
    rw [underway, hwaiting]
    exact keeps_take (l := { l with ready := before ++ after }) (by rw [← hwaiting]; exact h) hshows htake
  | @due before after time t htimers _ =>
    have hwaiting : (Loop.push t { l with timers := before ++ after }).waiting = l.waiting := by
      rw [waiting_push]
      simp only [waiting, htimers, coe_filterMap_middle]
      exact add_left_comm _ _ _
    exact ⟨_, .others (List.forall_mem_nil _), h.keeps.of_waiting hwaiting rfl rfl⟩
  | later _ => exact ⟨_, .others (List.forall_mem_nil _), h.keeps.of_waiting rfl rfl rfl⟩

end Loop

end Session

end SmsRelay
