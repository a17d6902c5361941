-- SUMMARY: The same is seen of sessions that differ in bystanders, turn by turn and in whole runs.
import SmsRelay.Proofs.Accord
import SmsRelay.Proofs.Idling
import Mathlib.Data.Sum.Basic

/-!
# Noninterference

Two sessions with the same handlers for requests and the same modem tool, which
take steps that agree, and differ in who is notified and called back: the same
is seen of both. Bystanders take turns of their own in either session; all
other turns come in the same order in both, and are taken side by side.
-/

namespace SmsRelay.Session

open Gateway

variable {α : Type} {application : Bool} {Q : Pairing → α → α → Prop} {P P' : Pairing} {setting : Setting}

/-! ## Turns side by side -/

/-- Turns that do the same, each in its session. -/
inductive Turn.Matches (application : Bool) (Q : Pairing → α → α → Prop) (P : Pairing) : Turn α → Turn α → Prop
  | main {w₁ w₂ : Work α} : Parallel application P Q w₁ w₂ → Matches application Q P (.main w₁) (.main w₂)
  | cycle {w₁ w₂ : Work (Except Fault Unit)} : Parallel application P Equal w₁ w₂ →
      Matches application Q P (.cycle w₁) (.cycle w₂)
  | proceed : Matches application Q P .proceed .proceed
  | look : Matches application Q P .look .look
  | ending (turns : Nat) : Matches application Q P (.ending turns) (.ending turns)
  | expire : Matches application Q P .expire .expire
  | awake {t₁ t₂ : Turn α} : Matches application Q P t₁ t₂ → Matches application Q P (.awake t₁) (.awake t₂)

namespace Turn.Matches

variable {t₁ t₂ : Turn α}

theorem mono (h : Matches application Q P t₁ t₂) (hP : P.Grows P') : Matches application Q P' t₁ t₂ := by
  induction h with
  | main hw => exact .main (hw.mono hP)
  | cycle hw => exact .cycle (hw.mono hP)
  | proceed => exact .proceed
  | look => exact .look
  | ending turns => exact .ending turns
  | expire => exact .expire
  | awake _ ih => exact .awake ih

theorem isTask (h : Matches application Q P t₁ t₂) : t₁.isTask = false ∧ t₂.isTask = false := by
  induction h with
  | awake _ ih => exact ih
  | _ => exact ⟨rfl, rfl⟩

theorem isExpiry (h : Matches application Q P t₁ t₂) : Loop.Turn.isExpiry t₁ = Loop.Turn.isExpiry t₂ := by
  cases h <;> rfl

end Turn.Matches

/-- What is ready, in order: but for the tasks of bystanders it is the same. -/
def InLine (application : Bool) (Q : Pairing → α → α → Prop) (P : Pairing) (ts₁ ts₂ : List (Turn α)) : Prop :=
  List.Forall₂ (Turn.Matches application Q P) (ts₁.filter (!·.isTask)) (ts₂.filter (!·.isTask))

namespace InLine

variable {t₁ t₂ : Turn α} {ts₁ ts₂ us₁ us₂ : List (Turn α)}

theorem mono (h : InLine application Q P ts₁ ts₂) (hP : P.Grows P') : InLine application Q P' ts₁ ts₂ :=
  List.Forall₂.imp (fun _ _ ht => ht.mono hP) h

theorem append (h : InLine application Q P ts₁ ts₂) (h' : InLine application Q P us₁ us₂) :
    InLine application Q P (ts₁ ++ us₁) (ts₂ ++ us₂) := by
  unfold InLine
  rw [List.filter_append, List.filter_append]
  exact List.rel_append h h'

theorem singleton (h : Turn.Matches application Q P t₁ t₂) : InLine application Q P [t₁] [t₂] := by
  obtain ⟨h₁, h₂⟩ := h.isTask
  unfold InLine
  rw [List.filter_cons_of_pos (by simpa using h₁), List.filter_cons_of_pos (by simpa using h₂)]
  exact .cons h .nil

theorem cons (h : Turn.Matches application Q P t₁ t₂) (hts : InLine application Q P ts₁ ts₂) :
    InLine application Q P (t₁ :: ts₁) (t₂ :: ts₂) := (singleton h).append hts

theorem tail (h : InLine application Q P (t₁ :: ts₁) (t₂ :: ts₂)) (h₁ : t₁.isTask = false) (h₂ : t₂.isTask = false) :
    Turn.Matches application Q P t₁ t₂ ∧ InLine application Q P ts₁ ts₂ := by
  unfold InLine at h
  rw [List.filter_cons_of_pos (by simpa using h₁), List.filter_cons_of_pos (by simpa using h₂)] at h
  exact List.forall₂_cons.mp h

/-- The end of an interval is taken off both lines. -/
theorem unexpired (h : InLine application Q P ts₁ ts₂) :
    InLine application Q P (ts₁.filter (!Loop.Turn.isExpiry ·)) (ts₂.filter (!Loop.Turn.isExpiry ·)) := by
  have hcomm : ∀ ts : List (Turn α), (ts.filter (!Loop.Turn.isExpiry ·)).filter (!·.isTask) =
      (ts.filter (!·.isTask)).filter (!Loop.Turn.isExpiry ·) := fun ts => List.filter_comm ..
  unfold InLine
  rw [hcomm, hcomm]
  refine List.rel_filter ?_ h
  exact fun t₁ t₂ ht => iff_of_eq (congrArg (fun b => (!b) = true) ht.isExpiry)

/-- What has been spawned, as it comes into line. -/
theorem spawned {s₁ s₂ : Stage} (h : Alike application P s₁ s₂) :
    InLine application Q P (s₁.spawned.reverse.map Loop.turnOf) (s₂.spawned.reverse.map Loop.turnOf) := by
  have hturns : ∀ s : Stage, (s.spawned.reverse.map Loop.turnOf).filter (!·.isTask) =
      (s.spawned.filter (!·.isTask)).reverse.map (Loop.turnOf (α := α)) := by
    intro s
    have hisTask : ((!·.isTask) : Turn α → Bool) ∘ Loop.turnOf = (!·.isTask) := by
      funext x
      cases x <;> rfl
    rw [List.filter_map, hisTask, List.filter_reverse]
  unfold InLine
  rw [hturns, hturns, h.spawned]
  refine List.forall₂_map_left_iff.mpr (List.forall₂_map_right_iff.mpr (List.forall₂_same.mpr fun x hx => ?_))
  cases x with
  | handler event p => simp [Spawned.isTask] at hx
  | loop => exact .proceed
  | wake => exact .ending 2

end InLine

/-! ## Loops side by side -/

/-- Turns that are due at the same time. -/
def DueTogether (application : Bool) (Q : Pairing → α → α → Prop) (P : Pairing) (x y : Nat × Turn α) : Prop :=
  x.1 = y.1 ∧ Turn.Matches application Q P x.2 y.2

/-- What is due later, in order: but for the tasks of bystanders it is the same. -/
def InTime (application : Bool) (Q : Pairing → α → α → Prop) (P : Pairing) (xs ys : List (Nat × Turn α)) : Prop :=
  List.Forall₂ (DueTogether application Q P) (xs.filter (!·.2.isTask)) (ys.filter (!·.2.isTask))

namespace InTime

variable {t₁ t₂ : Turn α} {xs ys : List (Nat × Turn α)}

theorem mono (h : InTime application Q P xs ys) (hP : P.Grows P') : InTime application Q P' xs ys :=
  List.Forall₂.imp (fun _ _ hdue => ⟨hdue.1, hdue.2.mono hP⟩) h

/-- Some of what is due is left, by the time or by the kind of turn. -/
theorem filter {p : Nat × Turn α → Bool} (h : InTime application Q P xs ys)
    (hp : ∀ x y, DueTogether application Q P x y → p x = p y) :
    InTime application Q P (xs.filter p) (ys.filter p) := by
  unfold InTime
  rw [List.filter_comm, List.filter_comm (p := (!·.2.isTask)) (l := ys)]
  exact List.rel_filter (fun x y hdue => iff_of_eq (congrArg (· = true) (hp x y hdue))) h

theorem inLine (h : InTime application Q P xs ys) : InLine application Q P (xs.map (·.2)) (ys.map (·.2)) := by
  unfold InLine
  rw [List.filter_map, List.filter_map]
  exact List.forall₂_map_left_iff.mpr (List.forall₂_map_right_iff.mpr (List.Forall₂.imp (fun _ _ hdue => hdue.2) h))

theorem insertTimer (h : InTime application Q P xs ys) (time : Nat) (ht : Turn.Matches application Q P t₁ t₂)
    (hxs : xs.Pairwise fun x y => x.1 ≤ y.1) (hys : ys.Pairwise fun x y => x.1 ≤ y.1) :
    InTime application Q P (Loop.insertTimer time t₁ xs) (Loop.insertTimer time t₂ ys) := by
  obtain ⟨h₁, h₂⟩ := ht.isTask
  unfold InTime at h ⊢
  rw [Loop.filter_insertTimer h₁ hxs, Loop.filter_insertTimer h₂ hys]
  generalize xs.filter (!·.2.isTask) = us at h ⊢
  generalize ys.filter (!·.2.isTask) = vs at h ⊢
  induction h with
  | nil => exact .cons ⟨rfl, ht⟩ .nil
  | @cons x y xs ys hxy hrest ih =>
    unfold Loop.insertTimer
    rw [hxy.1]
    split
    · exact .cons ⟨rfl, ht⟩ (.cons hxy hrest)
    · exact .cons hxy ih

end InTime

/-- What bystanders have spawned comes into line. -/
theorem Roster.Tends.absorb {r : Roster} {l : Loop α} {s : Stage} (h : r.Tends l) (hs : s.Knows r) :
    r.Tends (Loop.absorb { l with stage := s }) := by
  refine ⟨rfl, List.forall_mem_append.mpr ⟨h.ready, fun t ht htask => ?_⟩, h.timers, h.sorted⟩
  obtain ⟨x, hx, rfl⟩ := List.mem_map.mp ht
  cases x with
  | handler event p => exact .handler event (hs.tasks event p (List.mem_reverse.mp hx)).errand
  | loop => cases htask
  | wake => cases htask

/-- The same happens in both loops next, but for turns of bystanders. -/
structure Loop.Matches (application : Bool) (Q : Pairing → α → α → Prop) (P : Pairing) (l₁ l₂ : Loop α) : Prop where
  stage : Alike application P l₁.stage l₂.stage
  first : P.first.Tends l₁
  second : P.second.Tends l₂
  ready : InLine application Q P l₁.ready l₂.ready
  timers : InTime application Q P l₁.timers l₂.timers
  joiner : Option.Rel (fun rest₁ rest₂ => ∀ outcome, Parallel application P Q (rest₁ outcome) (rest₂ outcome))
    l₁.joiner l₂.joiner
  outcome : l₁.outcome = l₂.outcome

namespace Loop.Matches

variable {l₁ l₂ l₁' l₂' : Loop α} {t₁ t₂ : Turn α}

/-! ### What is done to both -/

theorem push (h : Matches application Q P l₁ l₂) (ht : Turn.Matches application Q P t₁ t₂) :
    Matches application Q P (l₁.push t₁) (l₂.push t₂) := by
  obtain ⟨h₁, h₂⟩ := ht.isTask
  exact { h with
    first := h.first.push fun htask => absurd (h₁.symm.trans htask) Bool.false_ne_true
    second := h.second.push fun htask => absurd (h₂.symm.trans htask) Bool.false_ne_true
    ready := h.ready.append (.singleton ht) }

/-- Turns that are put in front. -/
theorem front (h : Matches application Q P l₁ l₂) (ht : Turn.Matches application Q P t₁ t₂) :
    Matches application Q P { l₁ with ready := t₁ :: l₁.ready } { l₂ with ready := t₂ :: l₂.ready } := by
  obtain ⟨h₁, h₂⟩ := ht.isTask
  exact { h with
    first := h.first.front fun htask => absurd (h₁.symm.trans htask) Bool.false_ne_true
    second := h.second.front fun htask => absurd (h₂.symm.trans htask) Bool.false_ne_true
    ready := h.ready.cons ht }

theorem schedule (h : Matches application Q P l₁ l₂) (delay : Nat) (ht : Turn.Matches application Q P t₁ t₂) :
    Matches application Q P (l₁.schedule delay t₁) (l₂.schedule delay t₂) := by
  have hclock : l₁.stage.clock = l₂.stage.clock := h.stage.same fun _ => rfl
  obtain ⟨h₁, h₂⟩ := ht.isTask
  have htimers := h.timers.insertTimer (l₁.stage.clock + delay) ht h.first.sorted h.second.sorted
  exact { h with
    first := h.first.schedule delay fun htask => absurd (h₁.symm.trans htask) Bool.false_ne_true
    second := h.second.schedule delay fun htask => absurd (h₂.symm.trans htask) Bool.false_ne_true
    timers := by
      unfold Loop.schedule
      rw [← hclock]
      exact htimers }

theorem restage {s₁ s₂ : Stage} (h : Matches application Q P l₁ l₂) (hs : Alike application P s₁ s₂)
    (h₁ : s₁.spawned = []) (h₂ : s₂.spawned = []) :
    Matches application Q P { l₁ with stage := s₁ } { l₂ with stage := s₂ } :=
  { h with stage := hs, first := h.first.restage h₁, second := h.second.restage h₂ }

theorem setPolling (h : Matches application Q P l₁ l₂) (p : Polling) :
    Matches application Q P (l₁.setPolling p) (l₂.setPolling p) :=
  h.restage (h.stage.change (f := fun s => { s with polling := p }) fun _ => rfl) h.first.spawned h.second.spawned

theorem schedulerLog (h : Matches application Q P l₁ l₂) (level : Log.Level) (text₁ text₂ : String) :
    Matches application Q P (l₁.schedulerLog level text₁) (l₂.schedulerLog level text₂) := by
  unfold Loop.schedulerLog Stage.schedulerLog
  exact h.restage (h.stage.log _ _) h.first.spawned h.second.spawned

/-- The stages have changed, and what has been spawned on them comes into line. -/
theorem absorb {s₁ s₂ : Stage} (h : Matches application Q P l₁ l₂) (hP : P.Grows P') (hs : Alike application P' s₁ s₂) :
    Matches application Q P' (Loop.absorb { l₁ with stage := s₁ }) (Loop.absorb { l₂ with stage := s₂ }) where
  stage := { hs with
    spawned := rfl
    first := ⟨hs.first.next, hs.first.calls, fun _ _ hp => absurd hp List.not_mem_nil⟩
    second := ⟨hs.second.next, hs.second.calls, fun _ _ hp => absurd hp List.not_mem_nil⟩ }
  first := (h.first.mono hP.first).absorb hs.first
  second := (h.second.mono hP.second).absorb hs.second
  ready := (h.ready.mono hP).append (.spawned hs)
  timers := h.timers.mono hP
  joiner := by
    have hjoiner := h.joiner
    change Option.Rel _ l₁.joiner l₂.joiner
    generalize l₁.joiner = joiner₁ at *
    generalize l₂.joiner = joiner₂ at *
    cases hjoiner with
    | none => exact .none
    | some hrest => exact .some fun outcome => (hrest outcome).mono hP
  outcome := h.outcome

/-! ### The polling loop -/

/-- Somebody else waits for the end of the polling loop, or nobody. -/
theorem rejoin {joiner₁ joiner₂ : Option (Except Fault Unit → Work α)} {outcome₁ outcome₂ : Except Fault Unit}
    (h : Matches application Q P l₁ l₂)
    (hjoiner : Option.Rel (fun rest₁ rest₂ => ∀ outcome, Parallel application P Q (rest₁ outcome) (rest₂ outcome))
      joiner₁ joiner₂) (houtcome : outcome₁ = outcome₂) :
    Matches application Q P { l₁ with joiner := joiner₁, outcome := outcome₁ }
      { l₂ with joiner := joiner₂, outcome := outcome₂ } :=
  { h with
    first := h.first.of_sublist h.first.spawned (.refl _) (.refl _)
    second := h.second.of_sublist h.second.spawned (.refl _) (.refl _)
    joiner := hjoiner
    outcome := houtcome }

theorem finish (h : Matches application Q P l₁ l₂) (outcome : Except Fault Unit) :
    Matches application Q P (l₁.finish outcome) (l₂.finish outcome) := by
  have hjoiner := h.joiner
  unfold Loop.finish
  have hset : Matches application Q P { l₁ with outcome, joiner := none } { l₂ with outcome, joiner := none } :=
    h.rejoin .none rfl
  generalize l₁.joiner = joiner₁ at *
  generalize l₂.joiner = joiner₂ at *
  cases hjoiner with
  | none => exact hset
  | some hrest => exact hset.push (.main (hrest outcome))

theorem conclude (h : Matches application Q P l₁ l₂) : Matches application Q P l₁.conclude l₂.conclude :=
  (h.schedulerLog _ _ _).finish _

theorem afterCycle (h : Matches application Q P l₁ l₂) :
    Matches application Q P (l₁.afterCycle setting) (l₂.afterCycle setting) := by
  have hset := h.setPolling l₁.stage.polling.finishCycle
  unfold Loop.afterCycle
  rw [← h.stage.polling]
  dsimp only
  rw [← hset.stage.polling]
  split
  · exact hset.conclude
  · cases setting.interval with
    | none => exact hset.push .look
    | some ms => exact (hset.schedule ms .expire).push .look

theorem goOnCycle {w₁ w₂ : Work (Except Fault Unit)} (h : Matches application Q P l₁ l₂)
    (hw : Parallel application P Equal w₁ w₂) :
    ∃ P', Matches application Q P' (l₁.goOnCycle setting w₁) (l₂.goOnCycle setting w₂) := by
  unfold Loop.goOnCycle
  cases hw P l₁.stage l₂.stage (.refl P) h.stage with
  | @done _ P' _ _ _ _ s₁ s₂ a b h₁ h₂ hP hs hequal =>
    obtain rfl : a = b := hequal
    have habsorb := h.absorb hP hs
    rw [h₁, h₂]
    refine ⟨P', ?_⟩
    cases a with
    | ok u => exact habsorb.afterCycle
    | error f =>
      have habandon := habsorb.setPolling (Loop.absorb { l₂ with stage := s₂ }).stage.polling.abandon
      dsimp only
      rw [habsorb.stage.polling]
      split
      · exact habandon.finish _
      · exact (habsorb.schedulerLog _ _ _).afterCycle
  | @pause _ P' _ _ _ _ _ _ _ _ h₁ h₂ hP hs hrest =>
    rw [h₁, h₂]
    exact ⟨P', (h.absorb hP hs).push (.cycle hrest)⟩
  | @sleep _ P' _ _ _ _ _ _ _ _ ms h₁ h₂ hP hs hrest =>
    rw [h₁, h₂]
    exact ⟨P', (h.absorb hP hs).schedule ms (.awake (.cycle hrest))⟩
  | @join _ P' _ _ _ _ _ _ _ _ h₁ h₂ hP hs hrest =>
    have habsorb := h.absorb hP hs
    rw [h₁, h₂]
    refine ⟨P', habsorb.push (.cycle ?_)⟩
    rw [habsorb.outcome]
    exact hrest _

variable (hcycle : ∀ P, Parallel application P Equal setting.cycle setting.cycle)
include hcycle

theorem proceed (h : Matches application Q P l₁ l₂) :
    ∃ P', Matches application Q P' (l₁.proceed setting) (l₂.proceed setting) := by
  have hset := h.setPolling l₁.stage.polling.proceed
  unfold Loop.proceed
  rw [← h.stage.polling]
  dsimp only
  rw [← hset.stage.polling]
  split
  · exact ⟨P, hset.conclude⟩
  · exact hset.goOnCycle (hcycle P)

theorem endWait (h : Matches application Q P l₁ l₂) :
    ∃ P', Matches application Q P' (l₁.endWait setting) (l₂.endWait setting) := by
  refine proceed hcycle { h with
    first := h.first.of_sublist h.first.spawned List.filter_sublist List.filter_sublist
    second := h.second.of_sublist h.second.spawned List.filter_sublist List.filter_sublist
    ready := h.ready.unexpired
    timers := h.timers.filter fun x y hdue => congrArg (!·) hdue.2.isExpiry }

omit hcycle

theorem goOnMain {w₁ w₂ : Work α} (h : Matches application Q P l₁ l₂) (hw : Parallel application P Q w₁ w₂) :
    Sum.LiftRel (fun a b => ∃ P', Q P' a b) (fun l₁ l₂ => ∃ P', Matches application Q P' l₁ l₂)
      (l₁.goOnMain w₁) (l₂.goOnMain w₂) := by
  unfold Loop.goOnMain
  cases hw P l₁.stage l₂.stage (.refl P) h.stage with
  | @done _ P' _ _ _ _ s₁ s₂ a b h₁ h₂ hP hs hQ =>
    rw [h₁, h₂]
    exact .inl ⟨P', hQ⟩
  | @pause _ P' _ _ _ _ _ _ _ _ h₁ h₂ hP hs hrest =>
    rw [h₁, h₂]
    exact .inr ⟨P', (h.absorb hP hs).push (.main hrest)⟩
  | @sleep _ P' _ _ _ _ _ _ _ _ ms h₁ h₂ hP hs hrest =>
    rw [h₁, h₂]
    exact .inr ⟨P', (h.absorb hP hs).schedule ms (.awake (.main hrest))⟩
  | @join _ P' _ _ _ _ _ _ _ _ h₁ h₂ hP hs hrest =>
    have habsorb := h.absorb hP hs
    rw [h₁, h₂]
    dsimp only
    rw [habsorb.stage.polling]
    split
    · refine .inr ⟨P', habsorb.front (.main ?_)⟩
      rw [habsorb.outcome]
      exact hrest _
    · exact .inr ⟨P', habsorb.rejoin (.some hrest) habsorb.outcome⟩

include hcycle

/-- Turns that match are taken side by side. -/
theorem take (h : Matches application Q P l₁ l₂) (ht : Turn.Matches application Q P t₁ t₂) :
    Sum.LiftRel (fun a b => ∃ P', Q P' a b) (fun l₁ l₂ => ∃ P', Matches application Q P' l₁ l₂)
      (Loop.take setting t₁ l₁) (Loop.take setting t₂ l₂) := by
  cases ht with
  | main hw => exact h.goOnMain hw
  | cycle hw => exact .inr (h.goOnCycle hw)
  | proceed => exact .inr (h.proceed hcycle)
  | look =>
    have hset := h.setPolling l₁.stage.polling.look
    unfold Loop.take
    rw [← h.stage.polling]
    dsimp only
    rw [← hset.stage.polling]
    split
    · exact .inr ⟨P, hset.push (.ending 1)⟩
    · exact .inr ⟨P, hset⟩
  | ending turns =>
    cases turns with
    | zero => exact .inr (h.endWait hcycle)
    | succ turns => exact .inr ⟨P, h.push (.ending turns)⟩
  | expire =>
    have hset := h.setPolling l₁.stage.polling.expire
    unfold Loop.take
    rw [← h.stage.polling]
    dsimp only
    split
    · exact .inr ⟨P, hset.push (.ending 3)⟩
    · exact .inr ⟨P, h⟩
  | awake ht => exact .inr ⟨P, h.push ht⟩

omit hcycle

/-- When something is due to others in both loops, their clocks go on to the same time, wherever bystanders have left
them. -/
theorem tick {c : Nat} (h : Matches application Q P (l₁.withClock c) (l₂.withClock c)) (ha₁ : l₁.Ahead c)
    (ha₂ : l₂.Ahead c) (htick₁ : Loop.tick l₁ = some l₁') (htick₂ : Loop.tick l₂ = some l₂')
    (hdue₁ : ∃ x ∈ l₁.timers.filter (!·.2.isTask), x.1 ≤ l₁'.stage.clock)
    (hdue₂ : ∃ x ∈ l₂.timers.filter (!·.2.isTask), x.1 ≤ l₂'.stage.clock) : Matches application Q P l₁' l₂' := by
  have htends₁ := h.first.of_withClock
  have htends₂ := h.second.of_withClock
  obtain ⟨clock, hclock₁, hclock₂⟩ : ∃ clock, l₁'.stage.clock = clock ∧ l₂'.stage.clock = clock := by
    have htimers : List.Forall₂ (DueTogether application Q P) (l₁.timers.filter (!·.2.isTask))
        (l₂.timers.filter (!·.2.isTask)) := h.timers
    generalize hothers₁ : l₁.timers.filter (!·.2.isTask) = xs at htimers hdue₁
    generalize hothers₂ : l₂.timers.filter (!·.2.isTask) = ys at htimers hdue₂
    cases htimers with
    | nil => exact absurd hdue₁.choose_spec.1 List.not_mem_nil
    | @cons x y _ _ hxy _ =>
      refine ⟨max c x.1, htends₁.clock_tick ha₁ htick₁ hothers₁ (hothers₁ ▸ hdue₁), ?_⟩
      rw [hxy.1]
      exact htends₂.clock_tick ha₂ htick₂ hothers₂ (hothers₂ ▸ hdue₂)
  have hfirst := htends₁.tick htick₁
  have hsecond := htends₂.tick htick₂
  obtain ⟨hstage₁, hready₁, htimers₁, hjoiner₁, houtcome₁, -⟩ := Loop.tick_eq_some htick₁
  obtain ⟨hstage₂, hready₂, htimers₂, hjoiner₂, houtcome₂, -⟩ := Loop.tick_eq_some htick₂
  rw [hclock₁] at hstage₁ hready₁ htimers₁
  rw [hclock₂] at hstage₂ hready₂ htimers₂
  have hfilter : ∀ p : Nat → Bool, InTime application Q P (l₁.timers.filter (p ·.1)) (l₂.timers.filter (p ·.1)) :=
    fun p => InTime.filter h.timers fun x y hdue => congrArg p hdue.1
  refine ⟨?_, hfirst, hsecond, ?_, ?_, ?_, ?_⟩
  · rw [hstage₁, hstage₂]
    have hstage := h.stage.change (f := fun s => { s with clock }) fun _ => rfl
    exact hstage
  · rw [hready₁, hready₂]
    exact (hfilter (· ≤ clock)).inLine
  · rw [htimers₁, htimers₂]
    exact hfilter (clock < ·)
  · rw [hjoiner₁, hjoiner₂]
    exact h.joiner
  · rw [houtcome₁, houtcome₂]
    exact h.outcome

end Loop.Matches

/-! ## Runs side by side -/

/-- The loop comes to its end, and to a result that goes with `a`. -/
def Loop.Ends (setting : Setting) (Q : Pairing → α → α → Prop) (a : α) (l : Loop α) : Prop :=
  ∃ turns b P, Loop.run setting turns l = some b ∧ Q P a b

theorem Loop.Ends.of_later {a : α} {l l' : Loop α} {n : Nat} (h : Loop.Ends setting Q a l')
    (hrun : ∀ turns, Loop.run setting (turns + n) l = Loop.run setting turns l') : Loop.Ends setting Q a l := by
  obtain ⟨turns, b, P, hb, hQ⟩ := h
  exact ⟨turns + n, b, P, (hrun turns).trans hb, hQ⟩

namespace Loop.Matches

variable {l₁ l₂ : Loop α} {t₁ : Turn α}

theorem clock (h : Matches application Q P l₁ l₂) : l₁.stage.clock = l₂.stage.clock := h.stage.same fun _ => rfl

theorem withClock (h : Matches application Q P l₁ l₂) :
    Matches application Q P (l₁.withClock l₁.stage.clock) (l₂.withClock l₁.stage.clock) := by
  rwa [Loop.withClock_eq rfl, Loop.withClock_eq h.clock.symm]

/-- What bystanders do in either loop, at whatever time. -/
theorem idles {c : Nat} (h : Matches application Q P (l₁.withClock c) (l₂.withClock c)) (h₁ : P.first.Idles l₁ l₁')
    (h₂ : P.second.Idles l₂ l₂') : Matches application Q P (l₁'.withClock c) (l₂'.withClock c) where
  stage := h.stage.drifts (h₁.stage.withClock c) (h₂.stage.withClock c)
  first := h₁.tends.withClock c
  second := h₂.tends.withClock c
  ready := by
    unfold InLine Loop.withClock
    rw [h₁.ready, h₂.ready]
    exact h.ready
  timers := by
    unfold InTime Loop.withClock
    rw [h₁.timers, h₂.timers]
    exact h.timers
  joiner := by
    unfold Loop.withClock
    rw [h₁.joiner, h₂.joiner]
    exact h.joiner
  outcome := by
    unfold Loop.withClock
    rw [h₁.outcome, h₂.outcome]
    exact h.outcome

/-- The turns of bystanders in front of the next turn of the second loop can be taken first. -/
theorem exists_front {rest₁ : List (Turn α)} (h : Matches application Q P l₁ l₂) (setting : Setting)
    (hready : l₁.ready = t₁ :: rest₁) (ht₁ : t₁.isTask = false) :
    ∃ l₂' t₂ rest₂ n, l₂'.ready = t₂ :: rest₂ ∧ Turn.Matches application Q P t₁ t₂ ∧
      Matches application Q P { l₁ with ready := rest₁ } { l₂' with ready := rest₂ } ∧
      ∀ turns, Loop.run setting (turns + n) l₂ = Loop.run setting turns l₂' := by
  have hturns : List.Forall₂ _ _ _ := h.ready
  rw [hready, List.filter_cons_of_pos (by simpa using ht₁)] at hturns
  obtain ⟨t₂, us, -, -, hfilter⟩ := List.forall₂_cons_left_iff.mp hturns
  obtain ⟨tasks, rest₂, hready₂, htasks, ht₂, -⟩ := List.filter_eq_cons_iff.mp hfilter
  have htask : ∀ x ∈ tasks, x.isTask = true := fun x hx => by simpa using htasks x hx
  obtain ⟨l₂', rest₂', n, hidles, hclock, hready₂', hrun⟩ := h.second.exists_front setting hready₂ htask
  have h' : Matches application Q P l₁ l₂' := by
    have hidled := h.withClock.idles (.refl h.first) hidles
    rwa [Loop.withClock_eq rfl, Loop.withClock_eq (hclock.trans h.clock.symm)] at hidled
  have hline := h'.ready
  rw [hready, hready₂'] at hline
  obtain ⟨ht, hrest⟩ := hline.tail ht₁ (by simpa using ht₂)
  exact ⟨l₂', t₂, rest₂', n, hready₂', ht, { h' with
    first := h'.first.tail hready
    second := h'.second.tail hready₂'
    ready := hrest }, hrun⟩

end Loop.Matches

/-- The same happens in both loops next, wherever bystanders have left the clocks. -/
def Loop.InStep (application : Bool) (Q : Pairing → α → α → Prop) (l₁ l₂ : Loop α) : Prop :=
  ∃ P c, Matches application Q P (l₁.withClock c) (l₂.withClock c) ∧ l₁.Ahead c ∧ l₂.Ahead c

theorem Loop.Matches.inStep {l₁ l₂ : Loop α} (h : Matches application Q P l₁ l₂) : InStep application Q l₁ l₂ :=
  ⟨P, l₁.stage.clock, h.withClock, .inl rfl, .inl h.clock.symm⟩

namespace Loop.InStep

variable {l₁ l₂ l₁' : Loop α}

/-- As long as anybody else is ready, the clocks agree. -/
theorem exists_matches (h : InStep application Q l₁ l₂) (hready : l₁.ready.filter (!·.isTask) ≠ []) :
    ∃ P, Matches application Q P l₁ l₂ := by
  obtain ⟨P, c, hmatches, ha₁, ha₂⟩ := h
  have hline : List.Forall₂ _ (l₁.ready.filter (!·.isTask)) (l₂.ready.filter (!·.isTask)) := hmatches.ready
  have hready₂ : l₂.ready.filter (!·.isTask) ≠ [] := fun hnil =>
    hready (List.forall₂_nil_right_iff.mp (hnil ▸ hline))
  have hclock₁ : l₁.stage.clock = c := ha₁.resolve_right fun ⟨hnone, _⟩ => hready hnone
  have hclock₂ : l₂.stage.clock = c := ha₂.resolve_right fun ⟨hnone, _⟩ => hready₂ hnone
  rw [Loop.withClock_eq hclock₁, Loop.withClock_eq hclock₂] at hmatches
  exact ⟨P, hmatches⟩

/-- Nobody but bystanders has gone on in the first loop. -/
theorem idles (h : InStep application Q l₁ l₂)
    (hidles : ∀ (r : Roster) c, r.Tends l₁ → l₁.Ahead c → r.Idles l₁ l₁' ∧ l₁'.Ahead c) :
    InStep application Q l₁' l₂ := by
  obtain ⟨P, c, hmatches, ha₁, ha₂⟩ := h
  obtain ⟨hl₁', ha₁'⟩ := hidles P.first c hmatches.first.of_withClock ha₁
  exact ⟨P, c, hmatches.idles hl₁' (.refl hmatches.second.of_withClock), ha₁', ha₂⟩

/-- Something is due to others in the first loop. Sooner or later it is due in the second. -/
theorem exists_due (h : InStep application Q l₁ l₂) (setting : Setting) (hready : l₁.ready = [])
    (htick : Loop.tick l₁ = some l₁') (hdue : ∃ x ∈ l₁.timers.filter (!·.2.isTask), x.1 ≤ l₁'.stage.clock) :
    ∃ P l₂' n, Matches application Q P l₁' l₂' ∧
      ∀ turns, Loop.run setting (turns + n) l₂ = Loop.run setting turns l₂' := by
  obtain ⟨P, c, hmatches, ha₁, ha₂⟩ := h
  have hready₂ : l₂.ready.filter (!·.isTask) = [] := by
    have hline : List.Forall₂ _ (l₁.ready.filter (!·.isTask)) (l₂.ready.filter (!·.isTask)) := hmatches.ready
    rw [hready, List.filter_nil] at hline
    exact List.forall₂_nil_left_iff.mp hline
  have hothers : l₂.timers.filter (!·.2.isTask) ≠ [] := by
    intro hnil
    have htime : List.Forall₂ _ (l₁.timers.filter (!·.2.isTask)) (l₂.timers.filter (!·.2.isTask)) := hmatches.timers
    obtain ⟨x, hx, -⟩ := hdue
    rw [hnil] at htime
    rw [List.forall₂_nil_right_iff.mp htime] at hx
    exact absurd hx List.not_mem_nil
  obtain ⟨n, l, l₂', hbides⟩ := hmatches.second.of_withClock.exists_bides setting ha₂ hready₂ hothers
  refine ⟨P, l₂', n + 1, ?_, fun turns => ?_⟩
  · have hidled := hmatches.idles (.refl hmatches.first.of_withClock) hbides.idles
    exact hidled.tick ha₁ hbides.ahead htick hbides.tick hdue hbides.due
  · rw [Nat.add_comm n, ← Nat.add_assoc, hbides.run, Loop.run_tick hbides.ready hbides.tick]

/-- A loop comes to its end if one that is in step with it does, and to a result that goes with that of the other. -/
theorem run {a : α} {turns : Nat} (h : InStep application Q l₁ l₂)
    (hcycle : ∀ P, Parallel application P Equal setting.cycle setting.cycle)
    (ha : Loop.run setting turns l₁ = some a) : Ends setting Q a l₂ := by
  induction turns generalizing l₁ l₂ with
  | zero => cases ha
  | succ turns ih =>
    cases hready : l₁.ready with
    | nil =>
      obtain ⟨l₁', htick, ha⟩ := Option.bind_eq_some_iff.mp (by simpa only [Loop.run, hready] using ha)
      by_cases hdue : ∃ x ∈ l₁.timers.filter (!·.2.isTask), x.1 ≤ l₁'.stage.clock
      · obtain ⟨P, l₂', n, hnext, hrun⟩ := h.exists_due setting hready htick hdue
        exact (ih hnext.inStep ha).of_later hrun
      · -- time passes for bystanders of the first loop
        refine ih (h.idles fun r c hr hc => hr.idles_tick hc hready htick fun x hx => ?_) ha
        exact Nat.lt_of_not_le fun hle => hdue ⟨x, hx, hle⟩
    | cons t₁ rest₁ =>
      by_cases htask : t₁.isTask = true
      · -- the second loop stands still
        obtain ⟨P, c, hmatches, ha₁, ha₂⟩ := h
        have hfirst := hmatches.first.of_withClock
        obtain ⟨l₁', hrun, hleaves⟩ := hfirst.exists_turn setting hready htask
        have hidles := hleaves.idles hfirst hready htask
        rw [hrun] at ha
        have hmatches' := hmatches.idles hidles (.refl hmatches.second.of_withClock)
        exact ih ⟨P, c, hmatches', ha₁.idles hidles hleaves.clock, ha₂⟩ ha
      · have ht₁ : t₁.isTask = false := by simpa using htask
        obtain ⟨P, hmatches⟩ := h.exists_matches (by simp [hready, ht₁])
        obtain ⟨l₂', t₂, rest₂, n, hready₂, ht, hrest, hrun⟩ := hmatches.exists_front setting hready ht₁
        refine .of_later ?_ hrun
        have htake := hrest.take hcycle ht
        generalize htake₁ : Loop.take setting t₁ { l₁ with ready := rest₁ } = taken₁ at htake
        generalize htake₂ : Loop.take setting t₂ { l₂' with ready := rest₂ } = taken₂ at htake
        cases htake with
        | @inl a' b hQ =>
          rw [Loop.run_done hready htake₁] at ha
          cases ha
          exact ⟨1, b, hQ.choose, Loop.run_done hready₂ htake₂ 0, hQ.choose_spec⟩
        | inr hnext =>
          obtain ⟨P', hnext⟩ := hnext
          rw [Loop.run_take hready htake₁] at ha
          exact (ih hnext.inStep ha).of_later (Loop.run_take hready₂ htake₂)

end Loop.InStep

/-- More turns change nothing. -/
theorem Loop.run_add {a : α} {turns : Nat} {l : Loop α} (n : Nat) (h : Loop.run setting turns l = some a) :
    Loop.run setting (turns + n) l = some a := by
  induction turns generalizing l with
  | zero => cases h
  | succ turns ih =>
    rw [Nat.add_right_comm]
    unfold Loop.run at h ⊢
    split at h
    · split at h
      · exact h
      · exact ih h
    · obtain ⟨l', htick, h⟩ := Option.bind_eq_some_iff.mp h
      exact Option.bind_eq_some_iff.mpr ⟨l', htick, ih h⟩

/-- A loop has one result, however many turns it may take. -/
theorem Loop.run_unique {a b : α} {m n : Nat} {l : Loop α} (ha : Loop.run setting m l = some a)
    (hb : Loop.run setting n l = some b) : a = b := by
  have ha' := Loop.run_add n ha
  rw [Nat.add_comm, Loop.run_add m hb] at ha'
  exact (Option.some.inj ha').symm

/-! ## The beginning of a session -/

/-- The application's callables have been made. -/
def Pairing.initial : Pairing := ⟨1, 1, [], List.forall_mem_nil _, List.forall_mem_nil _⟩

theorem Stage.spawned_acceptAll (offers : List (String × Offer)) (s : Stage) :
    (s.acceptAll offers).2.spawned = s.spawned := by
  induction offers generalizing s with
  | nil => rfl
  | cons x offers ih =>
    obtain ⟨name, offer⟩ := x
    cases offer <;> exact ih _

/-- Registered on stages that are alike, offers that agree leave stages that are alike, or are refused with one
fault. -/
theorem Alike.registered {s₁ s₂ : Stage} {offers₁ offers₂ : List (String × Offer)} (hs : Alike application P s₁ s₂)
    (h₁ : s₁.spawned = []) (h₂ : s₂.spawned = []) (h : Offers.Agree application offers₁ offers₂) :
    Outcomes (fun s₁ s₂ => ∃ P, Alike application P s₁ s₂ ∧ s₁.spawned = [] ∧ s₂.spawned = [])
      (do (s₁.register offers₁).1; return (s₁.register offers₁).2)
      (do (s₂.register offers₂).1; return (s₂.register offers₂).2) := by
  obtain ⟨P', -, hs', hregistered⟩ := hs.register h
  rw [hregistered]
  cases (s₂.register offers₂).1 with
  | error f => exact .error f
  | ok u =>
    exact .ok ⟨P', hs', (Stage.spawned_acceptAll offers₁ s₁).trans h₁, (Stage.spawned_acceptAll offers₂ s₂).trans h₂⟩

/-- A stage on which nothing has happened yet. -/
theorem Stage.knows_initial {s : Stage} (hnext : s.nextId = 1) (hcalls : s.calls = []) (hspawned : s.spawned = []) :
    s.Knows ⟨1, []⟩ := by
  refine ⟨hnext, ?_, ?_⟩
  · rw [hcalls]
    exact List.forall_mem_nil _
  · rw [hspawned]
    exact fun _ _ hp => absurd hp List.not_mem_nil

/-- Gateways that are set up with handlers that agree, or of which neither is. -/
theorem alike_stage {offers₁ offers₂ : List (String × Offer)} {replies₁ replies₂ : List (String × List Reply)}
    (h : Offers.Agree application offers₁ offers₂) (hreplies : Replies.Agree replies₁ replies₂) (config : Config)
    (now : String) :
    Outcomes (fun s₁ s₂ => ∃ P, Alike application P s₁ s₂ ∧ s₁.spawned = [] ∧ s₂.spawned = [])
      (stage config application offers₁ replies₁ now) (stage config application offers₂ replies₂ now) := by
  unfold stage
  cases config.check with
  | error f => exact .error f
  | ok config =>
    refine Alike.registered (P := .initial) ?_ ?_ ?_ h
    · split
      · refine ⟨rfl, .nil, hreplies, fun e => ?_, List.forall_mem_nil _, rfl, rfl, Stage.knows_initial rfl rfl rfl,
          Stage.knows_initial rfl rfl rfl⟩
        change Pairing.initial.Hears application e
          (if e ∈ Application.events then some ⟨0, e.text, .application⟩ else none)
          (if e ∈ Application.events then some ⟨0, e.text, .application⟩ else none)
        split
        · exact .application fun _ => ‹application = true›
        · exact .nobody e
      · exact ⟨rfl, .nil, hreplies, .nobody, List.forall_mem_nil _, rfl, rfl, Stage.knows_initial rfl rfl rfl,
          Stage.knows_initial rfl rfl rfl⟩
    · split <;> rfl
    · split <;> rfl

/-! ## Whole sessions -/

/-- A session from its beginning: how the gateway is set up and with whom, what the modem tool replies, and the steps
that are taken. -/
structure Scenario where
  config : Config
  /-- Whether the application takes part that keeps its messages in the store. -/
  application : Bool
  offers : List (String × Offer)
  replies : List (String × List Reply)
  /-- The time of day that the store enters. -/
  now : String
  settles : Step → Bool
  steps : List Step

namespace Scenario

variable {σ σ₁ σ₂ : Scenario} {seen seen' : Except Fault (List Seen)}

/-- The sessions are the same, but for those who are notified or called back. -/
structure Agrees (σ₁ σ₂ : Scenario) : Prop where
  config : σ₁.config = σ₂.config
  application : σ₁.application = σ₂.application
  offers : Offers.Agree σ₁.application σ₁.offers σ₂.offers
  replies : Replies.Agree σ₁.replies σ₂.replies
  now : σ₁.now = σ₂.now
  settles : ∀ step₁ step₂, Step.Agrees σ₁.application step₁ step₂ → σ₁.settles step₁ = σ₂.settles step₂
  steps : List.Forall₂ (Step.Agrees σ₁.application) σ₁.steps σ₂.steps

theorem Agrees.symm (h : σ₁.Agrees σ₂) : σ₂.Agrees σ₁ where
  config := h.config.symm
  application := h.application.symm
  offers := h.application ▸ h.offers.symm
  replies := h.replies.symm
  now := h.now.symm
  settles step₁ step₂ hstep := (h.settles step₂ step₁ (h.application ▸ hstep.symm)).symm
  steps := h.application ▸ (h.steps.imp fun _ _ hstep => hstep.symm).flip

/-- The stage at the beginning, if the gateway can be set up. -/
def stage (σ : Scenario) : Except Fault Stage :=
  Session.stage σ.config σ.application σ.offers σ.replies σ.now

/-- What comes of the session is seen: why the gateway cannot be set up, or what each step has done. A session that
waits for ever shows nothing; what it does meanwhile is shown by one that sleeps instead. -/
inductive Shows (σ : Scenario) : Except Fault (List Seen) → Prop
  | refused {f : Fault} : σ.stage = .error f → Shows σ (.error f)
  | completed {s : Stage} {turns : Nat} {reports : List Report} : σ.stage = .ok s →
      run turns (gatewaySetting σ.config) σ.settles s σ.steps = some reports → Shows σ (.ok (reports.map Report.seen))

/-- A session shows one thing. -/
theorem Shows.unique (h : σ.Shows seen) (h' : σ.Shows seen') : seen = seen' := by
  cases h with
  | refused hf =>
    cases h' with
    | refused hf' => rw [Except.error.inj (hf.symm.trans hf')]
    | completed hs => cases hf.symm.trans hs
  | completed hs hrun =>
    cases h' with
    | refused hf => cases hs.symm.trans hf
    | completed hs' hrun' =>
      obtain rfl := Except.ok.inj (hs.symm.trans hs')
      rw [Loop.run_unique hrun hrun']

theorem parallel_cycle (config : Config) (P : Pairing) :
    Parallel application P Equal (gatewaySetting config).cycle (gatewaySetting config).cycle :=
  (tandem_runCycle config).parallel.bind_equal fun _ _ _ => parallel_pure fun _ _ => rfl

theorem Agrees.shows (h : σ₁.Agrees σ₂) (hseen : σ₁.Shows seen) : σ₂.Shows seen := by
  have hstage := alike_stage h.offers h.replies σ₁.config σ₁.now
  have h₂ : Session.stage σ₁.config σ₁.application σ₂.offers σ₂.replies σ₁.now = σ₂.stage := by
    rw [h.config, h.application, h.now]
    rfl
  rw [h₂] at hstage
  change Outcomes _ σ₁.stage _ at hstage
  cases hseen with
  | refused hf =>
    rw [hf] at hstage
    generalize hs₂ : σ₂.stage = stage₂ at *
    cases hstage
    exact .refused hs₂
  | @completed s₁ turns reports hs₁ hrun =>
    rw [hs₁] at hstage
    generalize hs₂ : σ₂.stage = stage₂ at *
    cases hstage with
    | @ok _ s₂ hstage =>
      obtain ⟨P, halike, hspawned₁, hspawned₂⟩ := hstage
      have hmatches : Loop.Matches σ₁.application (fun _ => SameSeen) P
          { stage := s₁, ready := [.main (takeSteps σ₁.settles σ₁.steps)] }
          { stage := s₂, ready := [.main (takeSteps σ₂.settles σ₂.steps)] } :=
        ⟨halike, .main _ hspawned₁, .main _ hspawned₂, .singleton (.main (parallel_takeSteps h.settles h.steps)),
          .nil, .none, rfl⟩
      obtain ⟨turns', reports', -, hrun', hsame⟩ := hmatches.inStep.run (parallel_cycle σ₁.config) hrun
      rw [h.config] at hrun'
      exact hsame ▸ .completed hs₂ hrun'

end Scenario

end SmsRelay.Session
