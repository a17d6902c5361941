-- SUMMARY: One polling loop at a time, one cycle at a time, and every cycle that has begun ends.
import SmsRelay.Proofs.Turns

/-!
# The schedule of cycles

Runs of a session, whatever the order of turns. There is never more than one
polling loop, and there is one while polling is on. Cycles come one after the
other, none begins while polling is off, and each one that has begun is left to
go on until it ends.
-/

namespace SmsRelay

open Polling (Event)

namespace Polling.Event

theorem switch_of_no_start {es : List Event} (h : .start ∉ es) : es.foldl switch false = false := by
  induction es with
  | nil => rfl
  | cons e es ih =>
    rw [List.mem_cons, not_or] at h
    cases e with
    | start => exact absurd rfl h.1
    | _ => exact ih h.2

theorem switch_of_no_stop {es : List Event} (h : .stop ∉ es) : es.foldl switch true = true := by
  induction es with
  | nil => rfl
  | cons e es ih =>
    rw [List.mem_cons, not_or] at h
    cases e with
    | stop => exact absurd rfl h.1
    | _ => exact ih h.2

end Polling.Event

namespace Session.Loop

variable {α : Type} {l l' : Loop α} {setting : Setting} {es es' : List Event} {w : Cycle}

/-! ## Since the gateway was made -/

/-- What has been seen since nobody had ever started polling accounts for the state of the loop. -/
structure Accounts (es : List Event) (l : Loop α) : Prop where
  sound : l.Sound
  after : Polling.After {} es l.stage.polling
  begun : es.count .begins = es.count .ends + l.underway.card
  /-- When a cycle began, those before it had ended, and polling was on. -/
  placed : ∀ before after, es = before ++ .begins :: after →
    before.count .begins = before.count .ends ∧ before.foldl Event.switch false = true

theorem accounts_new (hpolling : l.stage.polling = {}) (htasks : l.tasks = 0) : Accounts [] l := by
  rw [tasks, hpolling] at htasks
  have hnone : l.waiting + l.stage.duties = 0 := Multiset.card_eq_zero.mp htasks
  have hwaiting : l.waiting = 0 :=
    ((add_eq_zero_iff_of_nonneg (Multiset.zero_le _) (Multiset.zero_le _)).mp hnone).1
  refine ⟨⟨?_, ?_⟩, ?_, ?_, ?_⟩
  · rw [hnone, hpolling]
    rfl
  · rw [hpolling]
    intro h
    cases h
  · rw [hpolling]
    exact .refl _
  · rw [underway, hwaiting]
    rfl
  · intro before after heq
    cases before <;> cases heq

theorem Accounts.move (h : Accounts es l) (hmove : Move setting l es' l') : Accounts (es ++ es') l' := by
  obtain ⟨ws, hcourse, hkeeps⟩ := keeps_move h.sound hmove
  have hbegun := h.begun
  refine ⟨hkeeps.sound, h.after.trans hkeeps.after, ?_, ?_⟩
  · have hcount := hcourse.count
    rw [List.count_append, List.count_append, hkeeps.underway]
    omega
  · intro before after heq
    -- a cycle that begins in this move begins first of all
    have hfirst : ∀ first, es' = first ++ .begins :: after →
        first = [] ∧ es.count .begins = es.count .ends ∧ es.foldl Event.switch false = true := by
      intro first hes'
      obtain ⟨hnil, hnone, hon⟩ := hcourse.of_begins hes'
      rw [hnone] at hbegun
      exact ⟨hnil, hbegun, h.after.active.symm.trans hon⟩
    rcases List.append_eq_append_iff.mp heq with ⟨first, rfl, hes'⟩ | ⟨rest, hes, hafter⟩
    · obtain ⟨rfl, hbegun, hon⟩ := hfirst first hes'
      rw [List.append_nil]
      exact ⟨hbegun, hon⟩
    · cases rest with
      | nil =>
        obtain rfl : es = before := hes.trans (List.append_nil _)
        exact (hfirst [] hafter.symm).2
      | cons e rest =>
        obtain ⟨rfl, -⟩ := List.cons.inj hafter
        exact h.placed before rest hes

theorem Accounts.reaches (h : Accounts es l) (hr : Reaches setting l es' l') : Accounts (es ++ es') l' := by
  induction hr with
  | refl =>
    rw [List.append_nil]
    exact h
  | next _ hmove ih =>
    rw [← List.append_assoc]
    exact ih.move hmove

/-- After a stop that no start follows no cycle begins. -/
theorem Accounts.no_begins {before after : List Event} (h : Accounts (before ++ .stop :: after) l)
    (hstart : .start ∉ after) : .begins ∉ after := by
  intro hmem
  obtain ⟨between, rest, rfl⟩ := List.append_of_mem hmem
  have hon := (h.placed (before ++ .stop :: between) rest (by rw [List.append_assoc]; rfl)).2
  rw [List.foldl_append] at hon
  have hoff : (Event.stop :: between).foldl Event.switch (before.foldl Event.switch false) = false :=
    Event.switch_of_no_start fun hbetween => hstart (List.mem_append_left _ hbetween)
  exact Bool.false_ne_true (hoff.symm.trans hon)

/-! ## A cycle underway -/

theorem Sound.move (h : l.Sound) (hmove : Move setting l es l') : l'.Sound := by
  obtain ⟨ws, -, hkeeps⟩ := keeps_move h hmove
  exact hkeeps.sound

theorem Sound.reaches (h : l.Sound) (hr : Reaches setting l es l') : l'.Sound := by
  induction hr with
  | refl => exact h
  | next _ hmove ih => exact ih.move hmove

theorem Sound.cycle_moves (h : l.Sound) (hw : l.underway = {w}) (hmove : Move setting l es l') :
    l'.underway = {w} ∨ .ends ∈ es ∨ ∃ w', l'.underway = {w'} ∧ w'.LeftOf w := by
  obtain ⟨ws, hcourse, hkeeps⟩ := keeps_move h hmove
  rw [hw] at hcourse
  rw [hkeeps.underway]
  exact hcourse.of_underway

/-- What is left of a cycle that is underway is underway, until the cycle ends. -/
theorem Sound.cycle_reaches (h : l.Sound) (hw : l.underway = {w}) (hr : Reaches setting l es l')
    (hends : .ends ∉ es) : ∃ w', l'.underway = {w'} ∧ Relation.ReflTransGen Work.LeftOf w' w := by
  induction hr with
  | refl => exact ⟨w, hw, .refl⟩
  | next hr hmove ih =>
    rw [List.mem_append, not_or] at hends
    obtain ⟨u, hu, hleft⟩ := ih hends.1
    rcases (h.reaches hr).cycle_moves hu hmove with hsame | hended | ⟨w', hw', hnext⟩
    · exact ⟨u, hsame, hleft⟩
    · exact absurd hended hends.2
    · exact ⟨w', hw', hleft.head hnext⟩

namespace Endless

/-- No cycle that is underway is left as it is for ever. -/
def Fair (run : Endless setting l) : Prop :=
  ∀ n, (run.after n).underway ≠ 0 → ∃ m, n ≤ m ∧ (run.after (m + 1)).underway ≠ (run.after m).underway

variable {run : Endless setting l}

theorem sound (run : Endless setting l) (h : l.Sound) (n : Nat) : (run.after n).Sound := by
  induction n with
  | zero =>
    rw [run.start]
    exact h
  | succ n ih => exact ih.move (run.move n)

/-- A cycle that is underway ends, for it goes on only so often. -/
theorem Fair.ends (hfair : run.Fair) (h : l.Sound) {n : Nat} (hw : (run.after n).underway = {w}) :
    ∃ m, .ends ∈ run.seen m := by
  induction w.acc_leftOf generalizing n with
  | intro w _ ih =>
    by_contra hnever
    rw [not_exists] at hnever
    -- if it goes on what is left of it ends, so it stays as it is
    have hstays : ∀ k, (run.after (n + k)).underway = {w} := by
      intro k
      induction k with
      | zero => exact hw
      | succ k ihk =>
        rcases (run.sound h (n + k)).cycle_moves ihk (run.move (n + k)) with hsame | hended | ⟨w', hw', hleft⟩
        · exact hsame
        · exact absurd hended (hnever _)
        · obtain ⟨m, hm⟩ := ih w' hleft hw'
          exact absurd hm (hnever m)
    obtain ⟨m, hm, hchanges⟩ := hfair n (by rw [hw]; exact Multiset.singleton_ne_zero w)
    obtain ⟨k, rfl⟩ := Nat.exists_eq_add_of_le hm
    exact hchanges ((hstays (k + 1)).trans (hstays k).symm)

end Endless

/-! ## One loop, one cycle at a time -/

/-- In all runs since a gateway was made: no more than one polling loop has not ended, and one has not while
polling is on. All cycles that have begun have ended, but for those underway; when one begins all others have
ended. After a start that no stop follows polling is on; after a stop that no start follows it is off, and no
cycle begins. What is left of a cycle underway stays underway until the cycle ends, and it does end unless it is
never given a turn. -/
theorem one_loop_one_cycle {l₀ : Loop α} (hnew : l₀.stage.polling = {}) (hnone : l₀.tasks = 0)
    (hr : Reaches setting l₀ es l) :
    l.tasks ≤ 1 ∧ (l.stage.polling.active = true → l.tasks = 1) ∧
    es.count .ends = l.stage.polling.cycles ∧ es.count .begins = es.count .ends + l.underway.card ∧
    (∀ before after, es = before ++ .begins :: after → before.count .begins = before.count .ends) ∧
    (∀ before after, es = before ++ .start :: after → .stop ∉ after → l.stage.polling.active = true) ∧
    (∀ before after, es = before ++ .stop :: after → .start ∉ after →
      l.stage.polling.active = false ∧ .begins ∉ after) ∧
    ∀ w ∈ l.underway,
      (∀ es' l', Reaches setting l es' l' → .ends ∉ es' →
        ∃ w', l'.underway = {w'} ∧ Relation.ReflTransGen Work.LeftOf w' w) ∧
      ∀ run : Endless setting l, run.Fair → ∃ n, .ends ∈ run.seen n := by
  have h : Accounts es l := (accounts_new hnew hnone).reaches hr
  refine ⟨?_, h.sound.tasks_of_active, ?_, h.begun, fun before after heq => (h.placed before after heq).1, ?_, ?_, ?_⟩
  · rw [h.sound.tasks_eq]
    split
    · exact Nat.zero_le 1
    · exact Nat.le_refl 1
  · rw [h.after.cycles]
    exact (Nat.zero_add _).symm
  · intro before after heq hstop
    rw [h.after.active, heq, List.foldl_append]
    exact Event.switch_of_no_stop hstop
  · intro before after heq hstart
    subst heq
    refine ⟨?_, h.no_begins hstart⟩
    rw [h.after.active, List.foldl_append]
    exact Event.switch_of_no_start hstart
  · intro w hw
    have hunderway := h.sound.underway_eq hw
    refine ⟨fun es' l' hr' => h.sound.cycle_reaches hunderway hr', fun run hfair => ?_⟩
    exact hfair.ends h.sound (n := 0) (by rw [run.start]; exact hunderway)

/-- Cycles that stop polling, let others go first, and start it again. -/
def restarting : Setting where
  cycle := do
    Work.change (·.stop)
    Work.pause
    Work.change (·.start)
    return .ok ()
  interval := some 10

/-- Polling is stopped and started within a cycle, in the wait that follows, and while the next cycle is underway. -/
theorem one_loop_one_cycle_restarting : ∃ l : Loop Unit,
    Reaches restarting { stage := {} }
      [.start, .begins, .stop, .start, .ends, .stop, .start, .begins, .stop, .start] l ∧
      l.stage.polling.active = true ∧ l.tasks = 1 ∧ l.underway.card = 1 := by
  have h₀ : Reaches restarting ({ stage := {} } : Loop Unit) [] { stage := {} } := .refl
  have h₁ := h₀.next .start
  have h₂ := h₁.next (.front (t := .proceed) rfl (Exists.intro [.stop] ⟨rfl, Stage.Changes.refl.stop⟩) rfl)
  have h₃ := h₂.next (.front (t := .cycle _) rfl
    (And.intro nofun (Exists.intro [.start] ⟨Stage.Changes.refl.start, rfl⟩)) rfl)
  have h₄ := h₃.next (.front (t := .look) rfl rfl rfl)
  have h₅ := (h₄.next .stop).next .start
  -- the loop has yet to wake up
  have h₆ := h₅.next (.front (t := .ending 2) rfl rfl rfl)
  have h₇ := h₆.next (.front (t := .ending 1) rfl rfl rfl)
  have h₈ := h₇.next (.front (t := .ending 0) rfl (Exists.intro [.stop] ⟨rfl, Stage.Changes.refl.stop⟩) rfl)
  have h₉ := h₈.next .start
  obtain ⟨-, htasks, -, hbegun, -, hstart, -⟩ := one_loop_one_cycle rfl rfl h₉
  have hon := hstart [.start, .begins, .stop, .start, .ends, .stop, .start, .begins, .stop] [] rfl nofun
  exact ⟨_, h₉, hon, htasks hon, Nat.add_left_cancel (n := 1) hbegun.symm⟩

end Session.Loop

end SmsRelay
