-- SUMMARY: The time between the cycles of a polling loop.
import SmsRelay.Proofs.Schedule

/-!
# Cadence

When the next cycle begins. Each event of a run has a time, and the clock does
not go back. Between two cycles lies the whole interval, unless somebody stops
polling meanwhile; a stop that came before the wait does not shorten it. What
carries this is that nobody waits for the end of an interval but in a wait, and
that while polling is on no wait is called off.
-/

namespace SmsRelay

open Polling (Event)

/-! ## Calling waits off -/

namespace Polling

/-- While polling is on no wait is called off. -/
def Calm (p : Polling) : Prop := p.active = true → p.roused = false

/-- The phases of a wait between two cycles. -/
def Phase.waits : Phase → Bool
  | entering | parked | waking => true
  | idle | launched | cycling => false

variable {p : Polling}

theorem calm_start (p : Polling) (h : p.Calm) : p.start.2.Calm := by
  intro hon
  unfold start at hon ⊢
  split
  · rfl
  · rename_i hidle
    rw [if_neg hidle] at hon
    split
    · rename_i hactive
      exact h hactive
    · rfl

theorem calm_stop (p : Polling) : p.stop.Calm := fun hon => nomatch hon

theorem Calm.proceed (h : p.Calm) : p.proceed.Calm := h

theorem Calm.finishCycle (h : p.Calm) : p.finishCycle.Calm := h

theorem Calm.look (h : p.Calm) : p.look.Calm := h

theorem Calm.expire (h : p.Calm) : p.expire.Calm := by
  unfold Polling.expire
  split
  · exact h
  · exact h

theorem waits_start (p : Polling) : p.start.2.phase.waits = p.phase.waits := by
  unfold start
  split
  · rename_i hidle
    rw [hidle]
    rfl
  · split <;> rfl

theorem waits_stop (p : Polling) : p.stop.phase.waits = p.phase.waits := by
  unfold stop
  dsimp only
  split
  · rename_i hparked
    rw [hparked]
    rfl
  · rfl

/-- Starting once more changes nothing. -/
theorem start_of_active (hon : p.active = true) (hphase : p.phase ≠ .idle) : p.start.2 = p := by
  rw [start, if_neg hphase, if_pos hon]

end Polling

namespace Session

namespace Stage.Changes

variable {s s' : Stage} {es : List Event}

theorem calm (h : s.Changes es s') (hs : s.polling.Calm) : s'.polling.Calm := by
  induction h with
  | refl => exact hs
  | aside _ haside ih =>
    rw [haside.1]
    exact ih
  | start _ ih =>
    rw [polling_start]
    exact Polling.calm_start _ ih
  | stop _ _ => exact Polling.calm_stop _

theorem waits (h : s.Changes es s') : s'.polling.phase.waits = s.polling.phase.waits := by
  induction h with
  | refl => rfl
  | aside _ haside ih => rw [haside.1, ih]
  | start _ ih => rw [polling_start, Polling.waits_start, ih]
  | stop _ ih => rw [polling_stop, Polling.waits_stop, ih]

/-- Who does not stop polling while it is on does nothing to it. -/
theorem polling_of_no_stop (h : s.Changes es s') (hstop : .stop ∉ es) (hon : s.polling.active = true)
    (hphase : s.polling.phase ≠ .idle) : s'.polling = s.polling := by
  induction h with
  | refl => rfl
  | aside _ haside ih => rw [haside.1, ih hstop]
  | start _ ih =>
    rw [List.mem_append, not_or] at hstop
    rw [polling_start, ih hstop.1, Polling.start_of_active hon hphase]
  | stop _ _ => exact absurd (List.mem_append_right _ (List.mem_singleton.mpr rfl)) hstop

end Stage.Changes

/-! ## The end of an interval -/

variable {α : Type}

/-- The turn is the end of an interval only if `P` holds. Nobody sleeps until such a turn is ready. -/
def Turn.Obeys (P : Prop) : Turn α → Prop
  | .expire => P
  | .awake t => t.Obeys False
  | _ => True

theorem Turn.Obeys.mono {P Q : Prop} {t : Turn α} (h : t.Obeys P) (hPQ : P → Q) : t.Obeys Q := by
  cases t with
  | expire => exact hPQ h
  | awake t => exact h
  | _ => trivial

namespace Loop

theorem obeys_turnOf (P : Prop) (x : Spawned) : (turnOf x : Turn α).Obeys P := by
  cases x <;> trivial

theorem obeys_of_not_isExpiry {P Q : Prop} {t : Turn α} (h : t.Obeys P) (ht : Turn.isExpiry t = false) :
    t.Obeys Q := by
  cases t with
  | expire => cases ht
  | awake t => exact h
  | _ => trivial

/-- Intervals end only at times for which `P` holds. -/
structure Alarms (P : Nat → Prop) (l : Loop α) : Prop where
  ready : ∀ t ∈ l.ready, t.Obeys (P l.stage.clock)
  timers : ∀ x ∈ l.timers, x.2.Obeys (P x.1)

variable {P Q : Nat → Prop} {l l' : Loop α} {setting : Setting} {es : List Event}

namespace Alarms

theorem mono (h : l.Alarms P) (hPQ : ∀ n, P n → Q n) : l.Alarms Q where
  ready t ht := (h.ready t ht).mono (hPQ _)
  timers x hx := (h.timers x hx).mono (hPQ _)

theorem push (h : l.Alarms P) {t : Turn α} (ht : t.Obeys (P l.stage.clock)) : (l.push t).Alarms P where
  ready := List.forall_mem_append.mpr ⟨h.ready, List.forall_mem_singleton.mpr ht⟩
  timers := h.timers

theorem schedule (h : l.Alarms P) {delay : Nat} {t : Turn α} (ht : t.Obeys (P (l.stage.clock + delay))) :
    (l.schedule delay t).Alarms P where
  ready := h.ready
  timers x hx := by
    rcases List.mem_cons.mp ((insertTimer_perm _ _ _).mem_iff.mp hx) with rfl | hx
    · exact ht
    · exact h.timers x hx

theorem setPolling (h : l.Alarms P) (p : Polling) : (l.setPolling p).Alarms P := ⟨h.ready, h.timers⟩

theorem log (h : l.Alarms P) (e : Log.Entry) : (l.log e).Alarms P := ⟨h.ready, h.timers⟩

/-- As time passes more alarms may be due; nothing that is spawned is one. -/
theorem absorb (h : l.Alarms P) (hP : Monotone P) {s : Stage} (hclock : l.stage.clock ≤ s.clock) :
    (Loop.absorb { l with stage := s }).Alarms P where
  ready := by
    refine List.forall_mem_append.mpr ⟨fun t ht => (h.ready t ht).mono (hP hclock), ?_⟩
    exact List.forall_mem_map.mpr fun x _ => obeys_turnOf _ x
  timers := h.timers

theorem finish (h : l.Alarms P) (outcome : Except Fault Unit) : (l.finish outcome).Alarms P := by
  unfold Loop.finish
  split
  · exact ⟨h.ready, h.timers⟩
  · exact push (l := { l with outcome, joiner := none }) ⟨h.ready, h.timers⟩ trivial

theorem conclude (h : l.Alarms P) : l.conclude.Alarms P := (h.log _).finish _

/-- When a wait is over its timer is dropped. -/
theorem dropped (h : l.Alarms P) : Alarms Q { l with
    ready := l.ready.filter (!Turn.isExpiry ·), timers := l.timers.filter (!Turn.isExpiry ·.2) } where
  ready t ht := by
    obtain ⟨ht, hexpiry⟩ := List.mem_filter.mp ht
    exact obeys_of_not_isExpiry (h.ready t ht) (by simpa using hexpiry)
  timers x hx := by
    obtain ⟨hx, hexpiry⟩ := List.mem_filter.mp hx
    exact obeys_of_not_isExpiry (h.timers x hx) (by simpa using hexpiry)

end Alarms

theorem stage_finish (outcome : Except Fault Unit) (l : Loop α) : (l.finish outcome).stage = l.stage := by
  unfold finish
  split <;> rfl

theorem polling_conclude (l : Loop α) : l.conclude.stage.polling = l.stage.polling := by
  rw [conclude, stage_finish]
  rfl

theorem clock_conclude (l : Loop α) : l.conclude.stage.clock = l.stage.clock := by
  rw [conclude, stage_finish]
  rfl

/-! ## Turns of the polling loop -/

/-- The interval that began at a time is over. -/
def Due (setting : Setting) (since now : Nat) : Prop := ∃ ms, setting.interval = some ms ∧ since + ms ≤ now

theorem monotone_due (setting : Setting) (since : Nat) : Monotone (Due setting since) :=
  fun _ _ hle ⟨ms, hms, hdue⟩ => ⟨ms, hms, hdue.trans hle⟩

theorem monotone_never : Monotone fun _ : Nat => False := fun _ _ _ h => h

/-- What comes of a cycle that goes on: no wait has begun and no interval is to end, or the cycle has just ended
and the wait is on. -/
inductive Resumed (setting : Setting) (es : List Event) (l : Loop α) : Prop where
  | quiet (calm : l.stage.polling.Calm) (phase : l.stage.polling.phase.waits = false)
      (alarms : l.Alarms fun _ => False) (ends : l.stage.polling.active = true → .ends ∉ es)
  | rests (calm : l.stage.polling.Calm) (active : l.stage.polling.active = true)
      (phase : l.stage.polling.phase = .entering) (alarms : ∀ since ≤ l.stage.clock, l.Alarms (Due setting since))

theorem resumed_afterCycle (setting : Setting) (es : List Event) (hcalm : l.stage.polling.Calm)
    (h : l.Alarms fun _ => False) : Resumed setting es (l.afterCycle setting) := by
  have hset : (l.setPolling l.stage.polling.finishCycle).Alarms fun _ => False := h.setPolling _
  unfold afterCycle
  dsimp only
  cases hon : l.stage.polling.active with
  | false =>
    have hidle : (l.setPolling l.stage.polling.finishCycle).stage.polling.phase = .idle := by
      simp [setPolling, Polling.finishCycle, hon]
    rw [if_pos hidle]
    refine .quiet ?_ ?_ hset.conclude fun hactive => ?_
    · rw [polling_conclude]
      exact hcalm.finishCycle
    · rw [polling_conclude, hidle]
      rfl
    · rw [polling_conclude] at hactive
      exact absurd (hon.symm.trans hactive) Bool.false_ne_true
  | true =>
    have hentering : (l.setPolling l.stage.polling.finishCycle).stage.polling.phase = .entering := by
      simp [setPolling, Polling.finishCycle, hon]
    rw [if_neg (by rw [hentering]; simp)]
    cases hinterval : setting.interval with
    | none => exact .rests hcalm.finishCycle hon hentering fun since _ => (hset.mono fun _ h => h.elim).push trivial
    | some ms =>
      refine .rests hcalm.finishCycle hon hentering fun since hsince => ?_
      have hdue : (Turn.expire : Turn α).Obeys (Due setting since (l.stage.clock + ms)) :=
        ⟨ms, hinterval, Nat.add_le_add_right hsince ms⟩
      exact ((hset.mono fun _ h => h.elim).schedule hdue).push trivial

theorem clock_afterCycle (setting : Setting) (l : Loop α) : (l.afterCycle setting).stage.clock = l.stage.clock := by
  unfold afterCycle
  dsimp only
  split
  · rw [clock_conclude]
    rfl
  · split <;> rfl

/-- A cycle goes on. -/
theorem resumed_goOnCycle {w : Cycle} (hfits : l.stage.Fits ({.cycle w} + l.waiting)) (hcalm : l.stage.polling.Calm)
    (h : l.Alarms fun _ => False) (hshows : w.Shows l.stage es)
    (hclock : l.stage.clock ≤ (l.goOnCycle setting w).stage.clock) :
    Resumed setting es (l.goOnCycle setting w) := by
  unfold Work.Shows at hshows
  unfold goOnCycle at hclock ⊢
  generalize advance w l.stage = advanced at *
  obtain ⟨halt, s⟩ := advanced
  have habsorbed : l.stage.clock ≤ s.clock → (Loop.absorb { l with stage := s }).Alarms fun _ => False :=
    h.absorb monotone_never
  -- while the cycle is underway its phase is that of a cycle, whatever the calls
  have hunderway : ∀ {l'}, l.stage.Changes es s → l'.Alarms (fun _ => False) → l'.stage.polling = s.polling →
      Resumed setting es (α := α) l' := by
    intro l' hs halarms hpolling
    obtain ⟨hphase, -, -⟩ := (hfits.changes hs).alone
    refine .quiet ?_ ?_ halarms fun _ hends => absurd (hs.isCall _ hends) Bool.false_ne_true
    · rw [hpolling]
      exact hs.calm hcalm
    · rw [hpolling, hphase]
      rfl
  cases halt with
  | done r =>
    obtain ⟨hr, calls, hs, -⟩ := hshows
    cases r with
    | ok u =>
      rw [clock_afterCycle] at hclock
      exact resumed_afterCycle setting es (hs.calm hcalm) (habsorbed hclock)
    | error f =>
      dsimp only at hclock ⊢
      rw [if_neg (by rw [hr f rfl]; exact Bool.false_ne_true)] at hclock ⊢
      rw [clock_afterCycle] at hclock
      exact resumed_afterCycle setting es (hs.calm hcalm) ((habsorbed hclock).log _)
  | paused rest => exact hunderway hshows ((habsorbed hclock).push trivial) rfl
  | asleep ms rest => exact hunderway hshows ((habsorbed hclock).schedule trivial) rfl
  | joining rest => exact hunderway hshows ((habsorbed hclock).push trivial) rfl

theorem Resumed.begins (h : Resumed setting es l) : Resumed setting (.begins :: es) l := by
  cases h with
  | quiet hcalm hphase halarms hends =>
    exact .quiet hcalm hphase halarms fun hon hmem => (List.mem_cons.mp hmem).elim nofun (hends hon)
  | rests hcalm hon hphase halarms => exact .rests hcalm hon hphase halarms

/-- The loop goes on from its start or from a wait. -/
theorem resumed_proceed {d : Duty} (hfits : l.stage.Fits ({d} + l.waiting)) (hcalm : l.stage.polling.Calm)
    (h : l.Alarms fun _ => False) (hshows : Turn.Shows setting (.proceed : Turn α) l.stage es)
    (hclock : l.stage.clock ≤ (l.proceed setting).stage.clock) : Resumed setting es (l.proceed setting) := by
  unfold Turn.Shows at hshows
  unfold proceed at hclock ⊢
  dsimp only at hclock ⊢
  cases hon : l.stage.polling.active with
  | false =>
    have hidle : (l.setPolling l.stage.polling.proceed).stage.polling.phase = .idle :=
      Polling.phase_proceed_of_not_active hon
    simp only [hon, Bool.false_eq_true, if_false] at hshows
    rw [if_pos hidle]
    refine .quiet ?_ ?_ (h.setPolling _).conclude fun _ hends => ?_
    · rw [polling_conclude]
      exact hcalm.proceed
    · rw [polling_conclude, hidle]
      rfl
    · rw [hshows] at hends
      cases hends
  | true =>
    have hcycling : (l.setPolling l.stage.polling.proceed).stage.polling.phase = .cycling :=
      Polling.phase_proceed_of_active hon
    simp only [hon, if_true] at hshows
    obtain ⟨es', rfl, hshows⟩ := hshows
    rw [if_neg (by rw [hcycling]; exact nofun)] at hclock ⊢
    exact (resumed_goOnCycle (fits_proceed hfits hon) hcalm.proceed (h.setPolling _) hshows hclock).begins

/-! ## Moves -/

/-- Whatever is known of the ends of intervals stays known. -/
def Carries (l l' : Loop α) : Prop := ∀ P, Monotone P → l.Alarms P → l'.Alarms P

/-- What a move does to polling and to the ends of intervals. -/
inductive Passage (setting : Setting) (l : Loop α) : List Event → Loop α → Prop where
  | others {es : List Event} {l' : Loop α} {s : Stage} (changes : l.stage.Changes es s)
      (polling : l'.stage.polling = s.polling) (carries : l.Carries l') : Passage setting l es l'
  | looks {l' : Loop α} (phase : l.stage.polling.phase = .entering)
      (polling : l'.stage.polling = l.stage.polling.look) (carries : l.Carries l') : Passage setting l [] l'
  | expires {l' : Loop α} (phase : l.stage.polling.phase = .parked)
      (polling : l'.stage.polling = l.stage.polling.expire) (carries : l.Carries l')
      (due : ∀ P, Monotone P → l.Alarms P → P l'.stage.clock) : Passage setting l [] l'
  | resumes {es : List Event} {l' : Loop α}
      (phase : (l.stage.polling.phase = .waking ∧ (l.stage.polling.active = true → .begins ∈ es)) ∨
        l.stage.polling.phase.waits = false)
      (resumed : Resumed setting es l') : Passage setting l es l'

/-- Calls from outside of the polling loop. -/
theorem carries_absorb {s : Stage} (hclock : l.stage.clock ≤ s.clock) : l.Carries (absorb { l with stage := s }) :=
  fun _ hP h => h.absorb hP hclock

theorem Carries.push (h : l.Carries l') (t : Turn α) (ht : ∀ P, t.Obeys P) : l.Carries (l'.push t) :=
  fun P hP halarms => (h P hP halarms).push (ht _)

theorem Carries.schedule (h : l.Carries l') (delay : Nat) (t : Turn α) (ht : ∀ P, t.Obeys P) :
    l.Carries (l'.schedule delay t) :=
  fun P hP halarms => (h P hP halarms).schedule (ht _)

theorem passage_goOnMain {w : Work α} (hs : l.stage.Changes es (advance w l.stage).2)
    (hgo : l.goOnMain w = .inr l') (hclock : l.stage.clock ≤ l'.stage.clock) : Passage setting l es l' := by
  unfold goOnMain at hgo
  generalize advance w l.stage = advanced at *
  obtain ⟨halt, s⟩ := advanced
  have hcarries : l.stage.clock ≤ s.clock → l.Carries (absorb { l with stage := s }) := carries_absorb
  cases halt with
  | done a => cases hgo
  | paused rest =>
    cases hgo
    exact .others hs rfl ((hcarries hclock).push (.main rest) fun _ => trivial)
  | asleep ms rest =>
    cases hgo
    exact .others hs rfl ((hcarries hclock).schedule ms (.awake (.main rest)) fun _ => trivial)
  | joining rest =>
    dsimp only at hgo
    split at hgo
    · cases hgo
      refine .others hs rfl fun P hP h => ?_
      have habsorbed := h.absorb (s := s) hP hclock
      exact ⟨List.forall_mem_cons.mpr ⟨trivial, habsorbed.ready⟩, habsorbed.timers⟩
    · cases hgo
      refine .others hs rfl fun P hP h => ?_
      have habsorbed := h.absorb (s := s) hP hclock
      exact ⟨habsorbed.ready, habsorbed.timers⟩

theorem passage_goOnHandler {event : String} {w : Work (Except Fault Given)}
    (hs : l.stage.Changes es (advance w l.stage).2)
    (hclock : l.stage.clock ≤ (l.goOnHandler event w).stage.clock) :
    Passage setting l es (l.goOnHandler event w) := by
  unfold goOnHandler at hclock ⊢
  generalize advance w l.stage = advanced at *
  obtain ⟨halt, s⟩ := advanced
  have hcarries : l.stage.clock ≤ s.clock → l.Carries (absorb { l with stage := s }) := carries_absorb
  cases halt with
  | done r =>
    cases r with
    | ok a => exact .others hs rfl (hcarries hclock)
    | error f =>
      dsimp only at hclock ⊢
      split at hclock
      · rename_i hcancelled
        rw [if_pos hcancelled]
        exact .others hs rfl (hcarries hclock)
      · rename_i hcancelled
        rw [if_neg hcancelled]
        exact .others hs rfl ((hcarries hclock).push (.failed event) fun _ => trivial)
  | paused rest => exact .others hs rfl ((hcarries hclock).push (.handler event rest) fun _ => trivial)
  | asleep ms rest => exact .others hs rfl ((hcarries hclock).schedule ms (.awake (.handler event rest)) fun _ => trivial)
  | joining rest =>
    exact .others hs rfl ((hcarries hclock).push (.handler event (rest l.outcome)) fun _ => trivial)

/-- A turn was known not to be the end of an interval before its time. -/
theorem Passage.of_carries {m : Loop α} (h : Passage setting m es l') (hcarries : l.Carries m)
    (hstage : m.stage = l.stage) : Passage setting l es l' := by
  cases h with
  | others changes polling carries =>
    exact .others (hstage ▸ changes) polling fun P hP halarms => carries P hP (hcarries P hP halarms)
  | looks phase polling carries =>
    rw [hstage] at phase polling
    exact .looks phase polling fun P hP halarms => carries P hP (hcarries P hP halarms)
  | expires phase polling carries due =>
    rw [hstage] at phase polling
    exact .expires phase polling (fun P hP halarms => carries P hP (hcarries P hP halarms))
      fun P hP halarms => due P hP (hcarries P hP halarms)
  | resumes phase resumed =>
    rw [hstage] at phase
    exact .resumes phase resumed

/-- Intervals end only in waits, and no wait is called off while polling is on. -/
structure Rested (l : Loop α) : Prop where
  sound : l.Sound
  calm : l.stage.polling.Calm
  alarms : l.Alarms fun _ => l.stage.polling.phase.waits = true

/-- Outside of waits no interval is to end. -/
theorem Rested.no_alarms (h : l.Rested) (hphase : l.stage.polling.phase.waits = false) : l.Alarms fun _ => False :=
  h.alarms.mono fun _ hwaits => Bool.false_ne_true (hphase.symm.trans hwaits)

theorem Rested.passage_turn (h : l.Rested) {before after : List (Turn α)} {t : Turn α}
    (hready : l.ready = before ++ t :: after) (hshows : t.Shows setting l.stage es)
    (htake : take setting t { l with ready := before ++ after } = .inr l')
    (hclock : l.stage.clock ≤ l'.stage.clock) : Passage setting l es l' := by
  have hwaiting : l.waiting = t.duty.toList + waiting { l with ready := before ++ after } := by
    simp only [waiting, hready, coe_filterMap_middle, add_assoc]
  have hfits : l.stage.Fits (t.duty.toList + waiting { l with ready := before ++ after }) := hwaiting ▸ h.sound
  have hsplit : ∀ {P}, l.Alarms P → t.Obeys (P l.stage.clock) ∧ Alarms P { l with ready := before ++ after } := by
    intro P halarms
    obtain ⟨hall, htimers⟩ := halarms
    rw [hready, List.forall_mem_append, List.forall_mem_cons] at hall
    exact ⟨hall.2.1, List.forall_mem_append.mpr ⟨hall.1, hall.2.2⟩, htimers⟩
  have hcarries : l.Carries { l with ready := before ++ after } := fun P _ halarms => (hsplit halarms).2
  cases t with
  | main w =>
    have hpassage : Passage setting { l with ready := before ++ after } es l' := passage_goOnMain hshows htake hclock
    exact hpassage.of_carries hcarries rfl
  | handler event w =>
    cases htake
    have hpassage : Passage setting { l with ready := before ++ after } es
        (goOnHandler event w { l with ready := before ++ after }) := passage_goOnHandler hshows hclock
    exact hpassage.of_carries hcarries rfl
  | cycle w =>
    cases htake
    have hphase : l.stage.polling.phase = .cycling := (Stage.Fits.alone (d := .cycle w) hfits).1
    have hquiet : l.stage.polling.phase.waits = false := by rw [hphase]; rfl
    exact .resumes (.inr hquiet) (resumed_goOnCycle hfits h.calm (hsplit (h.no_alarms hquiet)).2 hshows hclock)
  | failed event =>
    cases htake
    subst hshows
    exact .others .refl rfl fun P hP halarms => ((hcarries P hP halarms).log _)
  | proceed =>
    cases htake
    have hphase : l.stage.polling.phase = .launched := (Stage.Fits.alone (d := .launch) hfits).1
    have hquiet : l.stage.polling.phase.waits = false := by rw [hphase]; rfl
    exact .resumes (.inr hquiet)
      (resumed_proceed (d := .launch) hfits h.calm (hsplit (h.no_alarms hquiet)).2 hshows hclock)
  | look =>
    subst hshows
    have hphase : l.stage.polling.phase = .entering := (Stage.Fits.alone (d := .enter) hfits).1
    cases htake
    refine .looks hphase ?_ fun P hP halarms => ?_
    · split <;> rfl
    · split
      · exact ((hcarries P hP halarms).setPolling _).push trivial
      · exact (hcarries P hP halarms).setPolling _
  | ending turns =>
    have hphase : l.stage.polling.phase = .waking := (Stage.Fits.alone (d := .wake) hfits).1
    cases turns with
    | zero =>
      cases htake
      have hbegins : l.stage.polling.active = true → .begins ∈ es := by
        intro hon
        unfold Turn.Shows at hshows
        simp only [hon, if_true] at hshows
        obtain ⟨es', rfl, -⟩ := hshows
        exact List.mem_cons_self
      refine .resumes (.inl ⟨hphase, hbegins⟩) (resumed_proceed (l := { l with
        ready := (before ++ after).filter (!Turn.isExpiry ·), timers := l.timers.filter (!Turn.isExpiry ·.2) })
        (d := .wake) ?_ h.calm (hsplit h.alarms).2.dropped hshows hclock)
      rw [waiting_without_expiry { l with ready := before ++ after }]
      exact hfits
    | succ turns =>
      subst hshows
      cases htake
      exact .others .refl rfl (hcarries.push (.ending turns) fun _ => trivial)
  | expire =>
    subst hshows
    simp only [take] at htake
    split at htake
    · rename_i hparked
      cases htake
      refine .expires hparked rfl (fun P hP halarms => ?_) fun P _ halarms => (hsplit halarms).1
      exact ((hcarries P hP halarms).setPolling _).push trivial
    · cases htake
      exact .others .refl rfl hcarries
  | awake t =>
    subst hshows
    cases htake
    refine .others .refl rfl fun P hP halarms => (hcarries P hP halarms).push ?_
    exact Turn.Obeys.mono (P := False) (hsplit halarms).1 False.elim

theorem Rested.passage (h : l.Rested) (hmove : Move setting l es l') (hclock : l.stage.clock ≤ l'.stage.clock) :
    Passage setting l es l' := by
  cases hmove with
  | start => exact .others Stage.Changes.refl.start rfl (carries_absorb hclock)
  | stop => exact .others Stage.Changes.refl.stop rfl (carries_absorb hclock)
  | turn hready hshows htake => exact h.passage_turn hready hshows htake hclock
  | @due before after time t htimers hdue =>
    refine .others .refl rfl fun P hP halarms => ?_
    obtain ⟨hready, hall⟩ := halarms
    rw [htimers, List.forall_mem_append, List.forall_mem_cons] at hall
    exact Alarms.push (l := { l with timers := before ++ after })
      ⟨hready, List.forall_mem_append.mpr ⟨hall.1, hall.2.2⟩⟩ (hall.2.1.mono (hP hdue))
  | later _ =>
    refine .others .refl rfl fun P hP halarms => ?_
    exact ⟨fun t ht => (halarms.ready t ht).mono (hP hclock), halarms.timers⟩

theorem Rested.move (h : l.Rested) (hmove : Move setting l es l') (hclock : l.stage.clock ≤ l'.stage.clock) :
    l'.Rested := by
  refine ⟨h.sound.move hmove, ?_, ?_⟩
  · cases h.passage hmove hclock with
    | others changes polling _ =>
      rw [polling]
      exact changes.calm h.calm
    | looks _ polling _ =>
      rw [polling]
      exact h.calm.look
    | expires _ polling _ _ =>
      rw [polling]
      exact h.calm.expire
    | resumes _ resumed =>
      cases resumed with
      | quiet calm _ _ _ => exact calm
      | rests calm _ _ _ => exact calm
  · cases h.passage hmove hclock with
    | others changes polling carries =>
      rw [polling, changes.waits]
      exact carries _ monotone_const h.alarms
    | looks phase polling carries =>
      refine (carries _ monotone_const h.alarms).mono fun _ _ => ?_
      rw [polling, Polling.look]
      dsimp only
      split <;> rfl
    | expires phase polling carries _ =>
      refine (carries _ monotone_const h.alarms).mono fun _ _ => ?_
      rw [polling, Polling.expire, if_pos phase]
      rfl
    | resumes _ resumed =>
      cases resumed with
      | quiet _ _ alarms _ => exact alarms.mono fun _ => False.elim
      | rests _ _ phase alarms =>
        refine (alarms _ (Nat.le_refl _)).mono fun _ _ => ?_
        rw [phase]
        rfl

/-- The loop waits since a time. -/
structure Awaits (setting : Setting) (since : Nat) (l : Loop α) : Prop where
  active : l.stage.polling.active = true
  waits : l.stage.polling.phase.waits = true
  alarms : l.Alarms (Due setting since)
  due : l.stage.polling.phase = .waking → Due setting since l.stage.clock

/-- When a cycle ends and polling is on, the loop waits from then on. -/
theorem Rested.awaits (h : l.Rested) (hmove : Move setting l es l') (hclock : l.stage.clock ≤ l'.stage.clock)
    (hends : .ends ∈ es) (hon : l'.stage.polling.active = true) {since : Nat} (hsince : since ≤ l'.stage.clock) :
    Awaits setting since l' := by
  cases h.passage hmove hclock with
  | others changes _ _ => exact absurd (changes.isCall _ hends) Bool.false_ne_true
  | looks _ _ _ => cases hends
  | expires _ _ _ _ => cases hends
  | resumes _ resumed =>
    cases resumed with
    | quiet _ _ _ ends => exact absurd hends (ends hon)
    | rests _ _ phase alarms =>
      refine ⟨hon, by rw [phase]; rfl, alarms since hsince, fun hwaking => ?_⟩
      rw [phase] at hwaking
      cases hwaking

/-- A cycle begins only after the interval. -/
theorem Awaits.due_of_begins {since : Nat} (ha : Awaits setting since l) (h : l.Rested)
    (hmove : Move setting l es l') (hclock : l.stage.clock ≤ l'.stage.clock) (hbegins : .begins ∈ es) :
    Due setting since l.stage.clock := by
  cases h.passage hmove hclock with
  | others changes _ _ => exact absurd (changes.isCall _ hbegins) Bool.false_ne_true
  | looks _ _ _ => cases hbegins
  | expires _ _ _ _ => cases hbegins
  | resumes phase _ =>
    obtain ⟨hwaking, -⟩ | hquiet := phase
    · exact ha.due hwaking
    · exact absurd (hquiet.symm.trans ha.waits) Bool.false_ne_true

/-- The wait goes on until a cycle begins, if nobody stops polling. -/
theorem Awaits.move {since : Nat} (ha : Awaits setting since l) (h : l.Rested) (hmove : Move setting l es l')
    (hclock : l.stage.clock ≤ l'.stage.clock) (hstop : .stop ∉ es) (hbegins : .begins ∉ es) :
    Awaits setting since l' := by
  have hdue := monotone_due setting since
  cases h.passage hmove hclock with
  | others changes polling carries =>
    have hphase : l.stage.polling.phase ≠ .idle := by
      intro hidle
      have hwaits := ha.waits
      rw [hidle] at hwaits
      cases hwaits
    have hsame : l'.stage.polling = l.stage.polling := polling.trans (changes.polling_of_no_stop hstop ha.active hphase)
    refine ⟨?_, ?_, carries _ hdue ha.alarms, ?_⟩
    · rw [hsame]
      exact ha.active
    · rw [hsame]
      exact ha.waits
    · rw [hsame]
      exact fun hwaking => hdue hclock (ha.due hwaking)
  | looks _ polling carries =>
    have hparked : l.stage.polling.look.phase = .parked := by simp [Polling.look, h.calm ha.active]
    refine ⟨?_, ?_, carries _ hdue ha.alarms, ?_⟩
    · rw [polling]
      exact ha.active
    · rw [polling, hparked]
      rfl
    · rw [polling, hparked]
      rintro ⟨⟩
  | expires phase polling carries due =>
    have hexpire : l.stage.polling.expire = { l.stage.polling with phase := .waking } := if_pos phase
    refine ⟨?_, ?_, carries _ hdue ha.alarms, fun _ => due _ hdue ha.alarms⟩
    · rw [polling, hexpire]
      exact ha.active
    · rw [polling, hexpire]
      rfl
  | resumes phase _ =>
    obtain ⟨-, hbegin⟩ | hquiet := phase
    · exact absurd (hbegin ha.active) hbegins
    · exact absurd (hquiet.symm.trans ha.waits) Bool.false_ne_true

/-! ## Runs on the clock -/

/-- Where moves may lead while time passes, and what is seen when. -/
inductive Passes (setting : Setting) (l : Loop α) : List (Nat × Event) → Loop α → Prop where
  | refl : Passes setting l [] l
  | next {log now : List (Nat × Event)} {m l' : Loop α} : Passes setting l log m →
      Move setting m (now.map (·.2)) l' → m.stage.clock ≤ l'.stage.clock →
      (∀ x ∈ now, m.stage.clock ≤ x.1 ∧ x.1 ≤ l'.stage.clock) → Passes setting l (log ++ now) l'

/-- While the clock stands still, all that is seen in a move is seen at its time. -/
theorem Passes.still {log : List (Nat × Event)} {m : Loop α} (h : Passes setting l log m) (hmove : Move setting m es l')
    (hclock : l'.stage.clock = m.stage.clock) : Passes setting l (log ++ es.map fun e => (m.stage.clock, e)) l' := by
  have hes : (es.map fun e => (m.stage.clock, e)).map (·.2) = es := by
    rw [List.map_map]
    exact List.map_id es
  refine h.next (hes.symm ▸ hmove) (Nat.le_of_eq hclock.symm) (List.forall_mem_map.mpr fun e _ => ?_)
  exact ⟨Nat.le_refl _, Nat.le_of_eq hclock.symm⟩

/-- Time passes. -/
theorem Passes.later {log : List (Nat × Event)} {m : Loop α} (h : Passes setting l log m) {clock : Nat}
    (hclock : m.stage.clock ≤ clock) : Passes setting l (log ++ []) { m with stage := { m.stage with clock } } :=
  h.next (.later hclock) hclock (List.forall_mem_nil _)

/-- What has been seen so far accounts for the wait that is on, and between two cycles lay the interval. -/
structure OnTime (setting : Setting) (log : List (Nat × Event)) (l : Loop α) : Prop where
  rested : l.Rested
  after : Polling.After {} (log.map (·.2)) l.stage.polling
  awaits : ∀ before since between, log = before ++ (since, .ends) :: between →
    (before.map (·.2)).foldl Event.switch false = true → (∀ x ∈ between, x.2 ≠ .stop ∧ x.2 ≠ .begins) →
    Awaits setting since l
  due : ∀ before since between now after,
    log = before ++ (since, .ends) :: (between ++ (now, .begins) :: after) →
    (before.map (·.2)).foldl Event.switch false = true → (∀ x ∈ between, x.2 ≠ .stop ∧ x.2 ≠ .begins) →
    Due setting since now

theorem onTime_new (hpolling : l.stage.polling = {}) (htasks : l.tasks = 0) (halarms : l.Alarms fun _ => False) :
    OnTime setting [] l := by
  refine ⟨⟨(accounts_new hpolling htasks).sound, ?_, halarms.mono fun _ => False.elim⟩,
    (accounts_new hpolling htasks).after, ?_, ?_⟩
  · rw [hpolling]
    exact nofun
  · intro before since between heq
    cases before <;> cases heq
  · intro before since between now after heq
    cases before <;> cases heq

theorem OnTime.next {log now : List (Nat × Event)} (h : OnTime setting log l)
    (hmove : Move setting l (now.map (·.2)) l') (hclock : l.stage.clock ≤ l'.stage.clock)
    (htimes : ∀ x ∈ now, l.stage.clock ≤ x.1 ∧ x.1 ≤ l'.stage.clock) : OnTime setting (log ++ now) l' := by
  obtain ⟨ws, hcourse, hkeeps⟩ := keeps_move h.rested.sound hmove
  have hafter : Polling.After {} ((log ++ now).map (·.2)) l'.stage.polling := by
    rw [List.map_append]
    exact h.after.trans hkeeps.after
  refine ⟨h.rested.move hmove hclock, hafter, ?_, ?_⟩
  · intro before since between heq hon hbetween
    -- a cycle that ends in this move ends last of all
    have hlast : ∀ first, now = first ++ (since, .ends) :: between → Awaits setting since l' := by
      intro first hnow
      have hes : now.map (·.2) = first.map (·.2) ++ .ends :: between.map (·.2) := by
        rw [hnow, List.map_append, List.map_cons]
      have hnil : between = [] := List.map_eq_nil_iff.mp (hcourse.of_ends hes)
      have hmem : Event.ends ∈ now.map (·.2) := hes ▸ List.mem_append_right _ List.mem_cons_self
      have hsince := htimes (since, .ends) (hnow ▸ List.mem_append_right _ List.mem_cons_self)
      refine h.rested.awaits hmove hclock hmem ?_ hsince.2
      rw [hafter.active, heq, hnil, List.map_append, List.foldl_append]
      exact hon
    rcases List.append_eq_append_iff.mp heq with ⟨first, -, hnow⟩ | ⟨rest, hlog, hrest⟩
    · exact hlast first hnow
    · cases rest with
      | nil => exact hlast [] hrest.symm
      | cons x rest =>
        obtain ⟨rfl, rfl⟩ := List.cons.inj hrest
        obtain ⟨hrest, hnow⟩ := List.forall_mem_append.mp hbetween
        have hnone : ∀ e ∈ now.map (·.2), e ≠ .stop ∧ e ≠ .begins := List.forall_mem_map.mpr hnow
        exact (h.awaits before since rest hlog hon hrest).move h.rested hmove hclock
          (fun hmem => (hnone _ hmem).1 rfl) fun hmem => (hnone _ hmem).2 rfl
  · intro before since between time after heq hon hbetween
    rw [← List.cons_append, ← List.append_assoc] at heq
    -- a cycle that begins in this move begins first of all
    have hfirst : ∀ first, now = first ++ (time, .begins) :: after →
        before ++ (since, .ends) :: between = log ++ first → Due setting since time := by
      intro first hnow hlog
      have hes : now.map (·.2) = first.map (·.2) ++ .begins :: after.map (·.2) := by
        rw [hnow, List.map_append, List.map_cons]
      have hnil : first = [] := List.map_eq_nil_iff.mp (hcourse.of_begins hes).1
      rw [hnil, List.append_nil] at hlog
      have hmem : Event.begins ∈ now.map (·.2) := hes ▸ List.mem_append_right _ List.mem_cons_self
      have htime := htimes (time, .begins) (hnow ▸ List.mem_append_right _ List.mem_cons_self)
      have hdue := (h.awaits before since between hlog.symm hon hbetween).due_of_begins h.rested hmove hclock hmem
      exact monotone_due setting since htime.1 hdue
    rcases List.append_eq_append_iff.mp heq with ⟨first, hlog, hnow⟩ | ⟨rest, hlog, hrest⟩
    · exact hfirst first hnow hlog
    · cases rest with
      | nil => exact hfirst [] hrest.symm (by rw [List.append_nil, hlog, List.append_nil])
      | cons x rest =>
        obtain ⟨rfl, -⟩ := List.cons.inj hrest
        rw [List.append_assoc, List.cons_append] at hlog
        exact h.due before since between time rest hlog hon hbetween

theorem OnTime.passes {log : List (Nat × Event)} (h : OnTime setting [] l) (hp : Passes setting l log l') :
    OnTime setting log l' := by
  induction hp with
  | refl => exact h
  | next _ hmove hclock htimes ih => exact ih.next hmove hclock htimes

/-- In all runs since a gateway was made, at any times: polling is what the calls have made of it, and while it is
on no wait is called off, in the middle of a turn either, whether or not a cycle has begun in it. If polling is on
when a cycle ends, and nobody stops it before the next cycle begins, that cycle begins no sooner than an interval
after the end. -/
theorem interval_between_cycles {l₀ : Loop α} {log : List (Nat × Event)} (hnew : l₀.stage.polling = {})
    (hnone : l₀.tasks = 0) (halarms : l₀.Alarms fun _ => False) (hp : Passes setting l₀ log l) :
    l.stage.polling.active = (log.map (·.2)).foldl Event.switch false ∧
    (∀ p calls s, p = l.stage.polling ∨ p = l.stage.polling.proceed →
      Stage.Changes { l.stage with polling := p } calls s → s.polling.active = true → s.polling.roused = false) ∧
    ∀ before since between now after,
      log = before ++ (since, .ends) :: (between ++ (now, .begins) :: after) →
      (before.map (·.2)).foldl Event.switch false = true → (∀ x ∈ between, x.2 ≠ .stop ∧ x.2 ≠ .begins) →
      ∃ ms, setting.interval = some ms ∧ since + ms ≤ now := by
  have h : OnTime setting log l := (onTime_new hnew hnone halarms).passes hp
  refine ⟨h.after.active, fun p calls s hp hs => hs.calm ?_, h.due⟩
  obtain rfl | rfl := hp
  · exact h.rested.calm
  · exact h.rested.calm.proceed

/-- Polling is stopped and started within a cycle, and started once more in the wait that follows. -/
theorem interval_between_cycles_restarting :
    (∃ l : Loop Unit, Passes restarting { stage := {} }
      [(0, .start), (0, .begins), (0, .stop), (0, .start), (0, .ends), (4, .start), (10, .begins), (10, .stop)] l) ∧
    ∃ ms, restarting.interval = some ms ∧ 0 + ms ≤ 10 := by
  have h₀ : Passes restarting ({ stage := {} } : Loop Unit) [] { stage := {} } := .refl
  have h₁ := h₀.still .start rfl
  have h₂ := h₁.still (.front (t := .proceed) rfl (Exists.intro [.stop] ⟨rfl, Stage.Changes.refl.stop⟩) rfl) rfl
  have h₃ := h₂.still (.front (t := .cycle _) rfl
    (And.intro nofun (Exists.intro [.start] ⟨Stage.Changes.refl.start, rfl⟩)) rfl) rfl
  have h₄ := h₃.still (.front (t := .look) rfl rfl rfl) rfl
  have h₅ := (h₄.later (show 0 ≤ 4 by decide)).still .start rfl
  -- the timer of the wait
  have h₆ := (h₅.later (show 4 ≤ 10 by decide)).still (@Move.due _ _ _ [] [] 10 .expire rfl (Nat.le_refl 10)) rfl
  have h₇ := h₆.still (.front (t := .expire) rfl rfl rfl) rfl
  have h₈ := h₇.still (.front (t := .ending 3) rfl rfl rfl) rfl
  have h₉ := h₈.still (.front (t := .ending 2) rfl rfl rfl) rfl
  have h₁₀ := h₉.still (.front (t := .ending 1) rfl rfl rfl) rfl
  have h₁₁ := h₁₀.still (.front (t := .ending 0) rfl (Exists.intro [.stop] ⟨rfl, Stage.Changes.refl.stop⟩) rfl) rfl
  have halarms : Alarms (fun _ => False) ({ stage := {} } : Loop Unit) :=
    ⟨List.forall_mem_nil _, List.forall_mem_nil _⟩
  obtain ⟨-, -, hdue⟩ := interval_between_cycles rfl rfl halarms h₁₁
  refine ⟨⟨_, h₁₁⟩, ?_⟩
  exact hdue [(0, .start), (0, .begins), (0, .stop), (0, .start)] 0 [(4, .start)] 10 [(10, .stop)] rfl rfl
    (List.forall_mem_singleton.mpr ⟨nofun, nofun⟩)

end Loop

end Session

end SmsRelay
