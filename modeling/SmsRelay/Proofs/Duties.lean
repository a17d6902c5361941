-- SUMMARY: Turns that are to go on with a polling loop: at most one, as the phase of polling says.
import Mathlib.Algebra.Order.Group.Multiset
import SmsRelay.Proofs.Interleaving

/-!
# Duties

Which turns are to go on with a polling loop. The phase of polling says which
turn that is, and that there is no other: a loop that is idle or parked waits for
none. Starting and stopping keep this, for they spawn a turn only if none waits.
-/

namespace SmsRelay

open Polling (Event)

/-! ## Phases -/

namespace Polling.Phase

/-- The phase of the turn that is to go on with the polling loop, if there is one. -/
def pending : Phase → Multiset Phase
  | .idle | .parked => 0
  | p => {p}

/-- A phase calls for at most one turn. -/
theorem eq_of_cons_eq_pending {p q : Phase} {ps : Multiset Phase} (h : p ::ₘ ps = q.pending) : q = p ∧ ps = 0 := by
  cases q with
  | idle => exact absurd h Multiset.cons_ne_zero
  | parked => exact absurd h Multiset.cons_ne_zero
  | _ => exact (Multiset.singleton_eq_cons_iff ps).mp h.symm

end Polling.Phase

namespace Session

/-- What waits for its turn to go on with a polling loop. -/
inductive Duty where
  /-- The loop itself, at its start. -/
  | launch
  /-- A cycle. -/
  | cycle (w : Cycle)
  /-- The wait after a cycle, at its start. -/
  | enter
  /-- The loop itself, after the wait. -/
  | wake

namespace Duty

def phase : Duty → Polling.Phase
  | launch => .launched
  | cycle _ => .cycling
  | enter => .entering
  | wake => .waking

def cycle? : Duty → Option Cycle
  | cycle w => some w
  | _ => none

@[simp] theorem pending_phase (d : Duty) : d.phase.pending = {d.phase} := by
  cases d <;> rfl

theorem phase_ne_idle (d : Duty) : d.phase ≠ .idle := by
  cases d <;> exact nofun

end Duty

def Spawned.duty : Spawned → Option Duty
  | .handler .. => none
  | .loop => some .launch
  | .wake => some .wake

variable {α : Type}

def Turn.duty : Turn α → Option Duty
  | .proceed => some .launch
  | .cycle w => some (.cycle w)
  | .look => some .enter
  | .ending _ => some .wake
  | .awake t => t.duty
  | .main _ | .handler .. | .failed _ | .expire => none

@[simp] theorem Loop.duty_turnOf (x : Spawned) : (turnOf x : Turn α).duty = x.duty := by
  cases x <;> rfl

theorem Loop.duty_of_isExpiry {t : Turn α} (h : Turn.isExpiry t = true) : t.duty = none := by
  cases t with
  | expire => rfl
  | _ => cases h

/-! ## Starting and stopping -/

namespace Stage

/-- What has been spawned to go on with a polling loop. -/
def duties (s : Stage) : Multiset Duty := s.spawned.filterMap Spawned.duty

/-- No cycle is spawned. -/
theorem cycles_duties (s : Stage) : s.duties.filterMap Duty.cycle? = 0 := by
  rw [duties, Multiset.filterMap_coe, List.filterMap_filterMap, Multiset.coe_eq_zero, List.filterMap_eq_nil_iff]
  intro x _
  cases x <;> rfl

theorem polling_start (s : Stage) : s.start.polling = s.polling.start.2 := by
  by_cases hidle : s.polling.phase = .idle
  · simp [start, Polling.start, hidle, schedulerLog, log, record, spawn]
  · cases hon : s.polling.active <;> simp [start, Polling.start, hidle, hon, schedulerLog, log, record]

theorem duties_start (s : Stage) :
    s.start.duties = (if s.polling.phase = .idle then {Duty.launch} else 0) + s.duties := by
  by_cases hidle : s.polling.phase = .idle
  · simp only [start, Polling.start, hidle, if_true]
    rfl
  · cases hon : s.polling.active <;> simp [start, Polling.start, hidle, hon, schedulerLog, log, record, duties]

theorem polling_stop (s : Stage) : s.stop.polling = s.polling.stop := rfl

theorem duties_stop (s : Stage) :
    s.stop.duties = (if s.polling.phase = .parked then {Duty.wake} else 0) + s.duties := by
  simp only [stop, Polling.endsWait, decide_eq_true_eq]
  split
  · rfl
  · exact (zero_add _).symm

theorem duties_aside {s s' : Stage} (h : s.Aside s') : s'.duties = s.duties := by
  obtain ⟨-, handlers, heq, hall⟩ := h
  have hnone : handlers.filterMap Spawned.duty = [] := by
    rw [List.filterMap_eq_nil_iff]
    intro x hx
    obtain ⟨event, c, call, rfl⟩ := hall x hx
    rfl
  rw [duties, heq, List.filterMap_append, hnone]
  rfl

/-- What waits elsewhere and what has been spawned is what the phase of polling calls for, and while polling
is on there is a loop. -/
structure Fits (waiting : Multiset Duty) (s : Stage) : Prop where
  duties : (waiting + s.duties).map Duty.phase = s.polling.phase.pending
  alive : s.polling.active = true → s.polling.phase ≠ .idle

variable {D : Multiset Duty} {s s' : Stage}

/-- A new loop is spawned only if there is none. -/
theorem Fits.start (h : Fits D s) : Fits D s.start where
  duties := by
    have hduties := h.duties
    rw [duties_start, polling_start]
    by_cases hidle : s.polling.phase = .idle
    · rw [hidle] at hduties
      rw [if_pos hidle, Polling.start, if_pos hidle, add_left_comm, Multiset.map_add, hduties]
      rfl
    · have hphase : s.polling.start.2.phase = s.polling.phase := by
        rw [Polling.start, if_neg hidle]
        split <;> rfl
      rw [if_neg hidle, zero_add, hphase]
      exact hduties
  alive _ := by
    rw [polling_start]
    exact Polling.phase_start_ne_idle _

/-- The end of a wait is spawned only if the loop is parked. -/
theorem Fits.stop (h : Fits D s) : Fits D s.stop where
  duties := by
    have hduties := h.duties
    rw [duties_stop, polling_stop]
    by_cases hparked : s.polling.phase = .parked
    · rw [hparked] at hduties
      rw [if_pos hparked, Polling.stop, if_pos hparked, add_left_comm, Multiset.map_add, hduties]
      rfl
    · rw [if_neg hparked, zero_add, Polling.stop, if_neg hparked]
      exact hduties
  alive hon := by
    rw [polling_stop] at hon
    cases hon

theorem Fits.aside (h : Fits D s) (haside : s.Aside s') : Fits D s' where
  duties := by
    rw [duties_aside haside, haside.1]
    exact h.duties
  alive := by
    rw [haside.1]
    exact h.alive

theorem Fits.changes (h : Fits D s) {es : List Event} (hs : s.Changes es s') : Fits D s' := by
  induction hs with
  | refl => exact h
  | aside _ haside ih => exact ih.aside haside
  | start _ ih => exact ih.start
  | stop _ ih => exact ih.stop

/-- What goes on with a polling loop is in its phase, and nothing else is to go on with one. -/
theorem Fits.alone {d : Duty} (h : Fits ({d} + D) s) : s.polling.phase = d.phase ∧ D = 0 ∧ s.duties = 0 := by
  have hduties := h.duties
  rw [add_assoc, Multiset.map_add, Multiset.map_singleton, Multiset.singleton_add] at hduties
  obtain ⟨hphase, hnone⟩ := Polling.Phase.eq_of_cons_eq_pending hduties
  rw [Multiset.map_eq_zero, add_eq_zero_iff_of_nonneg (Multiset.zero_le _) (Multiset.zero_le _)] at hnone
  exact ⟨hphase, hnone⟩

end Stage

/-! ## What waits -/

namespace Loop

/-- What waits in the queue and among the timers to go on with a polling loop. -/
def waiting (l : Loop α) : Multiset Duty :=
  (l.ready.filterMap Turn.duty : Multiset Duty) + l.timers.filterMap (·.2.duty)

/-- How many polling loops have not ended. -/
def tasks (l : Loop α) : Nat :=
  (l.waiting + l.stage.duties).card + if l.stage.polling.phase = .parked then 1 else 0

/-- What is left of the cycles that have begun and not ended. -/
def underway (l : Loop α) : Multiset Cycle := l.waiting.filterMap Duty.cycle?

/-- The turns that wait are those that the phase of polling calls for, and while polling is on there is a loop. -/
def Sound (l : Loop α) : Prop := l.stage.Fits l.waiting

theorem coe_filterMap_middle {β γ : Type} (f : β → Option γ) (before after : List β) (x : β) :
    ((before ++ x :: after).filterMap f : Multiset γ) = (f x).toList + (before ++ after).filterMap f := by
  rw [Multiset.coe_eq_coe.mpr (List.perm_middle.filterMap f)]
  cases h : f x <;> simp [h]

theorem waiting_push (t : Turn α) (l : Loop α) : (l.push t).waiting = t.duty.toList + l.waiting := by
  simp only [waiting, push, coe_filterMap_middle, List.append_nil, add_assoc]

theorem waiting_schedule (delay : Nat) (t : Turn α) (l : Loop α) :
    (l.schedule delay t).waiting = t.duty.toList + l.waiting := by
  have hperm := (insertTimer_perm (l.stage.clock + delay) t l.timers).filterMap (·.2.duty)
  have hfirst := coe_filterMap_middle (·.2.duty) [] l.timers (l.stage.clock + delay, t)
  simp only [waiting, schedule, Multiset.coe_eq_coe.mpr hperm]
  rw [List.nil_append, List.nil_append] at hfirst
  rw [hfirst]
  exact add_left_comm _ _ _

theorem waiting_absorb (l : Loop α) : l.absorb.waiting = l.waiting + l.stage.duties := by
  have hspawned : (l.stage.spawned.reverse.map (turnOf (α := α))).filterMap Turn.duty =
      (l.stage.spawned.filterMap Spawned.duty).reverse := by
    rw [List.filterMap_map, ← List.filterMap_reverse]
    congr 1
    funext x
    exact duty_turnOf x
  simp only [waiting, absorb, List.filterMap_append, hspawned, ← Multiset.coe_add, Multiset.coe_reverse, Stage.duties]
  exact add_right_comm _ _ _

/-- The timer of a wait is nobody's duty. -/
theorem waiting_without_expiry (l : Loop α) :
    waiting { l with ready := l.ready.filter (!Turn.isExpiry ·), timers := l.timers.filter (!Turn.isExpiry ·.2) } =
      l.waiting := by
  have hduty : ∀ t : Turn α, (if (!Turn.isExpiry t) = true then t.duty else none) = t.duty := by
    intro t
    cases h : Turn.isExpiry t with
    | false => rfl
    | true => exact (duty_of_isExpiry h).symm
  simp only [waiting, List.filterMap_filter, hduty]

/-! ## One loop -/

variable {l : Loop α}

theorem Sound.absorb (h : l.Sound) : l.absorb.Sound where
  duties := by
    rw [waiting_absorb]
    simpa [Loop.absorb, Stage.duties] using h.duties
  alive := h.alive

/-- There is one polling loop, or none. -/
theorem Sound.tasks_eq (h : l.Sound) : l.tasks = if l.stage.polling.phase = .idle then 0 else 1 := by
  have hcard := congrArg Multiset.card h.duties
  rw [Multiset.card_map] at hcard
  rw [tasks, hcard]
  cases l.stage.polling.phase <;> rfl

theorem Sound.tasks_of_active (h : l.Sound) (hon : l.stage.polling.active = true) : l.tasks = 1 := by
  rw [h.tasks_eq, if_neg (h.alive hon)]

/-- No more than one cycle is underway. -/
theorem Sound.underway_eq (h : l.Sound) {w : Cycle} (hw : w ∈ l.underway) : l.underway = {w} := by
  obtain ⟨d, hd, hdw⟩ := (Multiset.mem_filterMap _ _).mp hw
  obtain ⟨others, hwaiting⟩ := Multiset.exists_cons_of_mem hd
  have hfits : l.stage.Fits ({d} + others) := by
    rw [Multiset.singleton_add, ← hwaiting]
    exact h
  obtain ⟨-, rfl, -⟩ := hfits.alone
  rw [underway, hwaiting, Multiset.filterMap_cons_some _ _ _ hdw]
  rfl

end Loop

end Session

end SmsRelay
