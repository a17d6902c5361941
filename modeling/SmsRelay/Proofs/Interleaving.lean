-- SUMMARY: Sessions in which any turn that is ready may come next: moves, their labels, and what they reach.
import SmsRelay.Session.Loop

/-!
# Interleavings

A session takes its turns in the order in which they have become ready. Here any
turn that is ready may be taken next, time may pass at any moment, and besides
whatever the session does anybody may start and stop polling between two turns.
Each move is labelled with what is seen of the polling loop meanwhile.
-/

namespace SmsRelay

/-- What is seen of the polling loop. -/
inductive Polling.Event where
  /-- Somebody starts polling. -/
  | start
  /-- Somebody stops polling. -/
  | stop
  /-- A cycle begins. -/
  | begins
  /-- A cycle ends, with or without a failure. -/
  | ends
  deriving DecidableEq, Repr

namespace Session

open Polling (Event)

/-- What a cycle of the polling loop does, or what is left of it. -/
abbrev Cycle := Work (Except Fault Unit)

/-! ## What is left of a piece of work -/

section

variable {β : Type}

/-- What is left of a piece of work that has halted, if the last polling loop has ended so. -/
def Halt.rest? (outcome : Except Fault Unit) : Halt β → Option (Work β)
  | .done _ => none
  | .paused rest => some rest
  | .asleep _ rest => some rest
  | .joining rest => some (rest outcome)

/-- The first is what is left of the second when that has gone on until it halts. -/
def Work.LeftOf (w' w : Work β) : Prop := ∃ s outcome, (advance w s).1.rest? outcome = some w'

/-- A piece of work goes on only so often. -/
theorem Work.acc_leftOf (w : Work β) : Acc LeftOf w := by
  induction w with
  | done a => exact ⟨_, fun w' ⟨s, outcome, h⟩ => nomatch h⟩
  | ask q next ih =>
    refine ⟨_, fun w' ⟨s, outcome, h⟩ => ?_⟩
    cases q with
    | get => exact (ih s).inv ⟨s, outcome, h⟩
    | put s' => exact (ih ()).inv ⟨s', outcome, h⟩
    | pause =>
      obtain rfl := Option.some.inj h
      exact ih ()
    | sleep ms =>
      obtain rfl := Option.some.inj h
      exact ih ()
    | join =>
      obtain rfl := Option.some.inj h
      exact ih outcome

end

/-! ## What is seen of a piece of work -/

namespace Stage

/-- The stage changes, but polling does not, and nothing but handlers is spawned. -/
def Aside (s s' : Stage) : Prop :=
  s'.polling = s.polling ∧ ∃ handlers, s'.spawned = handlers ++ s.spawned ∧
    ∀ x ∈ handlers, ∃ event p, x = .handler event p

/-- The stage changes by these calls of start and stop, in this order, and otherwise aside from polling. -/
inductive Changes (s : Stage) : List Event → Stage → Prop where
  | refl : Changes s [] s
  | aside {es : List Event} {s' s'' : Stage} : Changes s es s' → Aside s' s'' → Changes s es s''
  | start {es : List Event} {s' : Stage} : Changes s es s' → Changes s (es ++ [.start]) s'.start
  | stop {es : List Event} {s' : Stage} : Changes s es s' → Changes s (es ++ [.stop]) s'.stop

end Stage

/-- What is seen when a cycle goes on until it halts. Its end may be a failure, but not a cancellation. -/
def Work.Shows (w : Cycle) (s : Stage) (es : List Event) : Prop :=
  match (advance w s).1 with
  | .done r => (∀ f, r = .error f → f.isCancellation = false) ∧
      ∃ calls, s.Changes calls (advance w s).2 ∧ es = calls ++ [.ends]
  | _ => s.Changes es (advance w s).2

variable {α : Type}

/-- What is seen of a turn. -/
def Turn.Shows (setting : Setting) (t : Turn α) (s : Stage) (es : List Event) : Prop :=
  match t with
  | .main w => s.Changes es (advance w s).2
  | .handler _ w => s.Changes es (advance w s).2
  | .cycle w => w.Shows s es
  | .proceed | .ending 0 =>
    if s.polling.active then
      ∃ es', es = .begins :: es' ∧ setting.cycle.Shows { s with polling := s.polling.proceed } es'
    else es = []
  | _ => es = []

/-! ## Moves -/

namespace Loop

/-- What may happen next, and what is seen of it. -/
inductive Move (setting : Setting) (l : Loop α) : List Event → Loop α → Prop where
  | start : Move setting l [.start] (absorb { l with stage := l.stage.start })
  | stop : Move setting l [.stop] (absorb { l with stage := l.stage.stop })
  | turn {before after : List (Turn α)} {t : Turn α} {es : List Event} {l' : Loop α} :
      l.ready = before ++ t :: after → t.Shows setting l.stage es →
      take setting t { l with ready := before ++ after } = .inr l' → Move setting l es l'
  | due {before after : List (Nat × Turn α)} {time : Nat} {t : Turn α} :
      l.timers = before ++ (time, t) :: after → time ≤ l.stage.clock →
      Move setting l [] (push t { l with timers := before ++ after })
  | later {clock : Nat} : l.stage.clock ≤ clock → Move setting l [] { l with stage := { l.stage with clock } }

/-- Where moves may lead, and what is seen on the way. -/
inductive Reaches (setting : Setting) (l : Loop α) : List Event → Loop α → Prop where
  | refl : Reaches setting l [] l
  | next {es es' : List Event} {m l' : Loop α} : Reaches setting l es m → Move setting m es' l' →
      Reaches setting l (es ++ es') l'

/-- Moves without end. -/
structure Endless (setting : Setting) (l : Loop α) where
  after : Nat → Loop α
  seen : Nat → List Event
  start : after 0 = l
  move : ∀ n, Move setting (after n) (seen n) (after (n + 1))

theorem insertTimer_perm (time : Nat) (t : Turn α) (timers : List (Nat × Turn α)) :
    (insertTimer time t timers).Perm ((time, t) :: timers) := by
  induction timers with
  | nil => exact .refl _
  | cons x xs ih =>
    unfold insertTimer
    split
    · exact .refl _
    · exact (ih.cons x).trans (.swap _ _ _)

variable {setting : Setting} {l l' : Loop α}

/-- A session takes the first turn that is ready. -/
theorem Move.front {t : Turn α} {rest : List (Turn α)} {es : List Event} (hready : l.ready = t :: rest)
    (hshows : t.Shows setting l.stage es) (htake : take setting t { l with ready := rest } = .inr l') :
    Move setting l es l' :=
  @Move.turn _ _ _ [] rest t es l' hready hshows htake

theorem Reaches.trans {m : Loop α} {es es' : List Event} (h : Reaches setting l es m) (h' : Reaches setting m es' l') :
    Reaches setting l (es ++ es') l' := by
  induction h' with
  | refl =>
    rw [List.append_nil]
    exact h
  | next _ hmove ih =>
    rw [← List.append_assoc]
    exact ih.next hmove

/-- All that is due may become ready at once. -/
theorem Reaches.all_due {m : Loop α} {before timers : List (Nat × Turn α)} (h : Reaches setting l [] m)
    (htimers : m.timers = before ++ timers) (hbefore : ∀ x ∈ before, m.stage.clock < x.1) :
    Reaches setting l [] { m with
      ready := m.ready ++ (timers.filter (·.1 ≤ m.stage.clock)).map (·.2)
      timers := before ++ timers.filter (m.stage.clock < ·.1) } := by
  induction timers generalizing m before with
  | nil =>
    have heq : m = { m with ready := m.ready ++ [], timers := before ++ [] } := by
      rw [List.append_nil, ← htimers]
    exact heq ▸ h
  | cons x timers ih =>
    by_cases hdue : x.1 ≤ m.stage.clock
    · rw [List.filter_cons_of_pos (by simpa using hdue), List.filter_cons_of_neg (by simpa using hdue),
        List.map_cons, List.append_cons m.ready]
      exact ih (h.next (.due htimers hdue)) rfl hbefore
    · have hlater : m.stage.clock < x.1 := Nat.lt_of_not_le hdue
      rw [List.filter_cons_of_neg (by simpa using hdue), List.filter_cons_of_pos (by simpa using hlater),
        List.append_cons before]
      exact ih h (by rw [htimers, List.append_cons])
        (List.forall_mem_append.mpr ⟨hbefore, List.forall_mem_singleton.mpr hlater⟩)

/-- A session that has nothing to do moves on to the next thing that is due. -/
theorem reaches_tick (hready : l.ready = []) (htick : tick l = some l') : Reaches setting l [] l' := by
  unfold tick at htick
  split at htick
  · cases htick
  · rename_i time t timers htimers
    cases htick
    have hlater : Reaches setting l [] { l with stage := { l.stage with clock := max l.stage.clock time } } :=
      Reaches.refl.next (.later (Nat.le_max_left _ _))
    have hdue := hlater.all_due (List.nil_append _).symm nofun
    rw [hready] at hdue
    exact hdue

/-- Where a session has come to, before the turn that gives its result, moves lead as well. Each turn on the way
has to show something: its work does nothing to polling but start and stop it, and no cycle is cancelled. -/
theorem Reaches.of_run {a : α} {turns : Nat} {es : List Event} {m : Loop α} (h : Reaches setting l es m)
    (hshows : ∀ es m t rest, Reaches setting l es m → m.ready = t :: rest → ∃ es', t.Shows setting m.stage es')
    (hrun : run setting turns m = some a) :
    ∃ es' m' t rest, Reaches setting l es' m' ∧ m'.ready = t :: rest ∧
      take setting t { m' with ready := rest } = .inl a := by
  induction turns generalizing es m with
  | zero => cases hrun
  | succ turns ih =>
    unfold run at hrun
    split at hrun
    · rename_i t rest hready
      obtain ⟨es', hes'⟩ := hshows es m t rest h hready
      split at hrun
      · rename_i b htake
        cases hrun
        exact ⟨es, m, t, rest, h, hready, htake⟩
      · rename_i m' htake
        exact ih (h.next (.front hready hes' htake)) hrun
    · rename_i hready
      obtain ⟨m', htick, hrun⟩ := Option.bind_eq_some_iff.mp hrun
      exact ih (h.trans (reaches_tick hready htick)) hrun

end Loop

end Session

end SmsRelay
