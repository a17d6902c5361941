-- SUMMARY: Loops in which only bystanders go on: others find what they had, and a time comes when it is their turn.
import SmsRelay.Proofs.Tasks

/-!
# Idling

A loop idles while only bystanders take turns, or wait for a time to come. All
that it keeps for others stays as it is, but for the clock, which may run ahead
of them: not past the time at which something is due to one of them. It does not
idle forever, for each task of a bystander is done at some time.
-/

namespace SmsRelay.Session

open Relation

variable {α : Type} {r : Roster} {setting : Setting}

/-! ## What bystanders leave in a loop -/

/-- What waits for its turn, or is due later, is in order, and all tasks are those of bystanders. -/
structure Roster.Tends (r : Roster) (l : Loop α) : Prop where
  spawned : l.stage.spawned = []
  ready : ∀ t ∈ l.ready, t.isTask = true → r.Task t
  timers : ∀ x ∈ l.timers, x.2.isTask = true → r.Task x.2
  sorted : l.timers.Pairwise fun x y => x.1 ≤ y.1

/-- The loop, at some other time. -/
def Loop.withClock (clock : Nat) (l : Loop α) : Loop α := { l with stage := { l.stage with clock } }

theorem Loop.withClock_eq {l : Loop α} {clock : Nat} (h : l.stage.clock = clock) : l.withClock clock = l := by
  subst h
  rfl

/-- Nothing has happened in a loop but turns of bystanders, and the passage of time. -/
structure Roster.Idles (r : Roster) (l l' : Loop α) : Prop where
  stage : r.Drifts { l.stage with clock := l'.stage.clock } l'.stage
  tends : r.Tends l'
  ready : l'.ready.filter (!·.isTask) = l.ready.filter (!·.isTask)
  timers : l'.timers.filter (!·.2.isTask) = l.timers.filter (!·.2.isTask)
  joiner : l'.joiner = l.joiner
  outcome : l'.outcome = l.outcome

/-- The clock stands at `c`, or has run ahead while nobody but bystanders was ready: past nothing that is due to
others. -/
def Loop.Ahead (c : Nat) (l : Loop α) : Prop :=
  l.stage.clock = c ∨ l.ready.filter (!·.isTask) = [] ∧ c ≤ l.stage.clock ∧
    ∀ x ∈ l.timers.filter (!·.2.isTask), l.stage.clock ≤ max c x.1

/-- What bystanders still have to do. -/
def Loop.chores (l : Loop α) : Multiset (Turn α) :=
  (l.ready.filter (·.isTask) : Multiset (Turn α)) + ((l.timers.map (·.2)).filter (·.isTask) : Multiset (Turn α))

theorem Roster.Drifts.withClock {s s' : Stage} (h : r.Drifts s s') (clock : Nat) :
    r.Drifts { s with clock } { s' with clock } where
  rest := congrArg (fun s : Stage => { s with clock }) h.rest
  calls := h.calls
  known := h.known
  trace := h.trace
  spawned := h.spawned

theorem Roster.Drifts.clock {s s' : Stage} (h : r.Drifts s s') : s'.clock = s.clock := by rw [h.rest]

theorem Roster.Idles.refl {l : Loop α} (h : r.Tends l) : r.Idles l l := ⟨.refl r _, h, rfl, rfl, rfl, rfl⟩

theorem Roster.Idles.trans {l l' l'' : Loop α} (h : r.Idles l l') (h' : r.Idles l' l'') : r.Idles l l'' where
  stage := (h.stage.withClock l''.stage.clock).trans h'.stage
  tends := h'.tends
  ready := h'.ready.trans h.ready
  timers := h'.timers.trans h.timers
  joiner := h'.joiner.trans h.joiner
  outcome := h'.outcome.trans h.outcome

theorem Loop.Ahead.idles {c : Nat} {l l' : Loop α} (h : l.Ahead c) (hl : r.Idles l l')
    (hclock : l'.stage.clock = l.stage.clock) : l'.Ahead c := by
  unfold Ahead
  rw [hl.ready, hl.timers, hclock]
  exact h

theorem Loop.Ahead.le {c : Nat} {l : Loop α} (h : l.Ahead c) : c ≤ l.stage.clock :=
  h.elim (fun heq => Nat.le_of_eq heq.symm) (·.2.1)

/-! ## Timers -/

namespace Loop

theorem insertTimer_of_lt {time : Nat} {t : Turn α} {xs : List (Nat × Turn α)} (h : ∀ x ∈ xs, time < x.1) :
    insertTimer time t xs = (time, t) :: xs := by
  cases xs with
  | nil => rfl
  | cons x xs => exact if_pos (h x List.mem_cons_self)

theorem mem_insertTimer {time : Nat} {t : Turn α} {x : Nat × Turn α} {xs : List (Nat × Turn α)} :
    x ∈ insertTimer time t xs ↔ x = (time, t) ∨ x ∈ xs :=
  (insertTimer_perm time t xs).mem_iff.trans List.mem_cons

theorem pairwise_insertTimer (time : Nat) (t : Turn α) {xs : List (Nat × Turn α)}
    (h : xs.Pairwise fun x y => x.1 ≤ y.1) : (insertTimer time t xs).Pairwise fun x y => x.1 ≤ y.1 := by
  induction h with
  | nil => exact List.pairwise_singleton _ _
  | @cons x xs hx hxs ih =>
    unfold insertTimer
    split
    · rename_i hlt
      refine .cons (List.forall_mem_cons.mpr ⟨Nat.le_of_lt hlt, fun y hy => ?_⟩) (.cons hx hxs)
      exact Nat.le_trans (Nat.le_of_lt hlt) (hx y hy)
    · rename_i hle
      refine .cons (fun y hy => ?_) ih
      rcases mem_insertTimer.mp hy with rfl | hy
      · exact Nat.le_of_not_lt hle
      · exact hx y hy

/-- A timer of a task changes nothing for others. -/
theorem filter_insertTimer_task {time : Nat} {t : Turn α} (ht : t.isTask = true) (xs : List (Nat × Turn α)) :
    (insertTimer time t xs).filter (!·.2.isTask) = xs.filter (!·.2.isTask) := by
  induction xs with
  | nil => simp [insertTimer, ht]
  | cons x xs ih =>
    unfold insertTimer
    split
    · simp [ht]
    · rw [List.filter_cons, List.filter_cons, ih]

/-- Other timers come in the order in which they would come without those of tasks. -/
theorem filter_insertTimer {time : Nat} {t : Turn α} (ht : t.isTask = false) {xs : List (Nat × Turn α)}
    (h : xs.Pairwise fun x y => x.1 ≤ y.1) :
    (insertTimer time t xs).filter (!·.2.isTask) = insertTimer time t (xs.filter (!·.2.isTask)) := by
  induction h with
  | nil => simp [insertTimer, ht]
  | @cons x xs hx hxs ih =>
    by_cases hlt : time < x.1
    · have hlater : ∀ y ∈ (x :: xs).filter (!·.2.isTask), time < y.1 := fun y hy => by
        rcases List.mem_cons.mp (List.mem_filter.mp hy).1 with rfl | hy
        · exact hlt
        · exact Nat.lt_of_lt_of_le hlt (hx y hy)
      rw [insertTimer, if_pos hlt, insertTimer_of_lt hlater, List.filter_cons_of_pos (by simpa using ht)]
    · rw [insertTimer, if_neg hlt, List.filter_cons, List.filter_cons, ih]
      split
      · rw [insertTimer, if_neg hlt]
      · rfl

end Loop

/-! ## What is done to a loop that bystanders tend -/

namespace Roster.Tends

variable {l : Loop α} {t : Turn α}

theorem mono {r' : Roster} (h : r.Tends l) (hr : r.Grows r') : r'.Tends l :=
  ⟨h.spawned, fun t ht htask => (h.ready t ht htask).mono hr, fun x hx htask => (h.timers x hx htask).mono hr, h.sorted⟩

/-- Something has been taken off the loop, or nothing. -/
theorem of_sublist {l' : Loop α} (h : r.Tends l) (hspawned : l'.stage.spawned = []) (hready : l'.ready.Sublist l.ready)
    (htimers : l'.timers.Sublist l.timers) : r.Tends l' :=
  ⟨hspawned, fun t ht => h.ready t (hready.subset ht), fun x hx => h.timers x (htimers.subset hx),
    h.sorted.sublist htimers⟩

theorem of_withClock {c : Nat} (h : r.Tends (l.withClock c)) : r.Tends l := h.of_sublist h.spawned (.refl _) (.refl _)

theorem withClock (h : r.Tends l) (c : Nat) : r.Tends (l.withClock c) := h.of_sublist h.spawned (.refl _) (.refl _)

/-- When a session begins, there is nothing but its main line. -/
theorem main {s : Stage} (w : Work α) (hs : s.spawned = []) : r.Tends { stage := s, ready := [.main w] } :=
  ⟨hs, List.forall_mem_singleton.mpr nofun, List.forall_mem_nil _, List.Pairwise.nil⟩

theorem restage {s : Stage} (h : r.Tends l) (hs : s.spawned = []) : r.Tends { l with stage := s } :=
  h.of_sublist hs (.refl _) (.refl _)

theorem push (h : r.Tends l) (ht : t.isTask = true → r.Task t) : r.Tends (l.push t) :=
  ⟨h.spawned, List.forall_mem_append.mpr ⟨h.ready, List.forall_mem_singleton.mpr ht⟩, h.timers, h.sorted⟩

theorem front (h : r.Tends l) (ht : t.isTask = true → r.Task t) : r.Tends { l with ready := t :: l.ready } :=
  ⟨h.spawned, List.forall_mem_cons.mpr ⟨ht, h.ready⟩, h.timers, h.sorted⟩

theorem schedule (h : r.Tends l) (ms : Nat) (ht : t.isTask = true → r.Task t) : r.Tends (l.schedule ms t) := by
  refine ⟨h.spawned, h.ready, fun x hx => ?_, Loop.pairwise_insertTimer _ t h.sorted⟩
  rcases Loop.mem_insertTimer.mp hx with rfl | hx
  · exact ht
  · exact h.timers x hx

theorem tail {rest : List (Turn α)} (h : r.Tends l) (hready : l.ready = t :: rest) :
    r.Tends { l with ready := rest } :=
  h.of_sublist h.spawned (hready ▸ List.sublist_cons_self t rest) (.refl _)

end Roster.Tends

/-! ## Turns of bystanders -/

theorem Loop.run_take {l l' : Loop α} {t : Turn α} {rest : List (Turn α)} (hready : l.ready = t :: rest)
    (htake : Loop.take setting t { l with ready := rest } = .inr l') (turns : Nat) :
    Loop.run setting (turns + 1) l = Loop.run setting turns l' := by
  simp only [Loop.run, hready, htake]

theorem Loop.run_done {l : Loop α} {t : Turn α} {rest : List (Turn α)} {a : α} (hready : l.ready = t :: rest)
    (htake : Loop.take setting t { l with ready := rest } = .inl a) (turns : Nat) :
    Loop.run setting (turns + 1) l = some a := by
  simp only [Loop.run, hready, htake]

theorem Loop.run_tick {l l' : Loop α} (hready : l.ready = []) (htick : Loop.tick l = some l') (turns : Nat) :
    Loop.run setting (turns + 1) l = Loop.run setting turns l' := by
  simp only [Loop.run, hready, htick, Option.bind_some]

namespace Roster

variable {l l' : Loop α} {t : Turn α} {rest : List (Turn α)}

theorem Leaves.clock {l : Loop α} (h : r.Leaves t l l') : l'.stage.clock = l.stage.clock := by
  cases h with
  | done hs _ | pushed hs _ _ _ | scheduled _ hs _ _ _ => exact hs.clock

/-- What was ready stays in front. -/
theorem Leaves.ready (h : r.Leaves t l l') : ∃ more, l'.ready = l.ready ++ more := by
  cases h with
  | done | scheduled => exact ⟨[], (List.append_nil _).symm⟩
  | pushed => exact ⟨_, rfl⟩

/-- In a turn of a bystander the loop idles. -/
theorem Leaves.idles (h : r.Leaves t { l with ready := rest } l') (hl : r.Tends l) (hready : l.ready = t :: rest)
    (ht : t.isTask = true) : r.Idles l l' := by
  have htail := hl.tail hready
  have hfilter : l.ready.filter (!·.isTask) = rest.filter (!·.isTask) := by
    rw [hready, List.filter_cons_of_neg (by simp [ht])]
  have hstage : ∀ {s : Stage}, r.Drifts l.stage s → r.Drifts { l.stage with clock := s.clock } s := by
    intro s hs
    rw [hs.clock]
    exact hs
  cases h with
  | done hs hspawned => exact ⟨hstage hs, htail.restage hspawned, hfilter.symm, rfl, rfl, rfl⟩
  | pushed hs hspawned ht' _ =>
    refine ⟨hstage hs, (htail.restage hspawned).push fun _ => ht', ?_, rfl, rfl, rfl⟩
    change (rest ++ [_]).filter _ = _
    rw [hfilter, List.filter_append, List.filter_cons_of_neg (by simp [ht'.isTask]), List.filter_nil, List.append_nil]
  | scheduled ms hs hspawned ht' _ =>
    exact ⟨hstage hs, (htail.restage hspawned).schedule ms fun _ => ht', hfilter.symm,
      Loop.filter_insertTimer_task ht'.isTask _, rfl, rfl⟩

/-- After its turn a bystander has less to do. -/
theorem Leaves.chores (h : r.Leaves t { l with ready := rest } l') (hready : l.ready = t :: rest)
    (ht : t.isTask = true) : CutExpand Turn.LeftOf l'.chores l.chores := by
  have hchores : l.chores = {t} + Loop.chores { l with ready := rest } := by
    unfold Loop.chores
    rw [hready, List.filter_cons_of_pos ht, ← Multiset.cons_coe, Multiset.cons_add, Multiset.singleton_add]
  have hmore : ∀ {t' : Turn α} {chores : Multiset (Turn α)}, t'.LeftOf t →
      chores = {t'} + Loop.chores { l with ready := rest } → CutExpand Turn.LeftOf chores l.chores := by
    intro t' chores hleft hchores'
    rw [hchores, hchores']
    exact cutExpand_single_add hleft _
  cases h with
  | done =>
    have hdone : CutExpand Turn.LeftOf (0 + Loop.chores { l with ready := rest })
        ({t} + Loop.chores { l with ready := rest }) := (cutExpand_add_right _).mpr cutExpand_zero
    rw [zero_add] at hdone
    rw [hchores]
    exact hdone
  | @pushed s t' hs hspawned ht' hleft =>
    refine hmore hleft ?_
    have hready' : (rest ++ [t']).filter (·.isTask) = rest.filter (·.isTask) ++ [t'] := by
      rw [List.filter_append, List.filter_cons_of_pos ht'.isTask, List.filter_nil]
    change (((rest ++ [t']).filter (·.isTask) : List (Turn α)) : Multiset (Turn α)) + _ = _
    rw [hready', ← Multiset.coe_add, Multiset.coe_singleton, add_comm (_ : Multiset (Turn α)) {t'}, add_assoc]
    rfl
  | @scheduled s t' ms hs hspawned ht' hleft =>
    refine hmore hleft ?_
    have htimers : (((Loop.insertTimer (s.clock + ms) t' l.timers).map (·.2)).filter (·.isTask)).Perm
        (t' :: (l.timers.map (·.2)).filter (·.isTask)) := by
      have hperm := ((Loop.insertTimer_perm (s.clock + ms) t' l.timers).map (·.2)).filter (·.isTask)
      rwa [List.map_cons, List.filter_cons_of_pos ht'.isTask] at hperm
    change _ + ((((Loop.insertTimer (s.clock + ms) t' l.timers).map (·.2)).filter (·.isTask) : List (Turn α)) :
      Multiset (Turn α)) = _
    rw [Multiset.coe_eq_coe.mpr htimers, ← Multiset.cons_coe, Multiset.add_cons, Multiset.singleton_add]
    rfl

/-- The turn of a bystander that is ready first. -/
theorem Tends.exists_turn (h : r.Tends l) (setting : Setting) (hready : l.ready = t :: rest) (ht : t.isTask = true) :
    ∃ l', (∀ turns, Loop.run setting (turns + 1) l = Loop.run setting turns l') ∧
      r.Leaves t { l with ready := rest } l' := by
  have htask : r.Task t := h.ready t (hready ▸ List.mem_cons_self) ht
  obtain ⟨l', htake, hleaves⟩ := htask.take (l := { l with ready := rest }) setting h.spawned
  exact ⟨l', Loop.run_take hready htake, hleaves⟩

end Roster

/-- The turns of bystanders in front of another turn can be taken first. -/
theorem Roster.Tends.exists_front {t : Turn α} {tasks rest : List (Turn α)} {l : Loop α} (h : r.Tends l)
    (setting : Setting) (hready : l.ready = tasks ++ t :: rest) (htasks : ∀ x ∈ tasks, x.isTask = true) :
    ∃ l' rest' n, r.Idles l l' ∧ l'.stage.clock = l.stage.clock ∧ l'.ready = t :: rest' ∧
      ∀ turns, Loop.run setting (turns + n) l = Loop.run setting turns l' := by
  induction tasks generalizing l rest with
  | nil => exact ⟨l, rest, 0, .refl h, rfl, hready, fun _ => rfl⟩
  | cons x tasks ih =>
    obtain ⟨hx, htasks⟩ := List.forall_mem_cons.mp htasks
    obtain ⟨m, hrun, hleaves⟩ := h.exists_turn setting hready hx
    have hidles := hleaves.idles h hready hx
    obtain ⟨more, hmore⟩ := hleaves.ready
    obtain ⟨l', rest', n, hidles', hclock, hready', hrun'⟩ := ih hidles.tends
      (hmore.trans (List.append_assoc tasks (t :: rest) more)) htasks
    exact ⟨l', rest', n + 1, hidles.trans hidles', hclock.trans hleaves.clock, hready',
      fun turns => (hrun _).trans (hrun' turns)⟩

/-! ## The passage of time -/

/-- The clock moves on to the next thing that is due. -/
theorem Loop.tick_eq_some {l l' : Loop α} (h : Loop.tick l = some l') :
    l'.stage = { l.stage with clock := l'.stage.clock } ∧
      l'.ready = (l.timers.filter (·.1 ≤ l'.stage.clock)).map (·.2) ∧
      l'.timers = l.timers.filter (l'.stage.clock < ·.1) ∧ l'.joiner = l.joiner ∧ l'.outcome = l.outcome ∧
      ∃ x xs, l.timers = x :: xs ∧ l'.stage.clock = max l.stage.clock x.1 := by
  unfold Loop.tick at h
  split at h
  · cases h
  · cases h
    exact ⟨rfl, rfl, rfl, rfl, rfl, _, _, ‹_›, rfl⟩

theorem Loop.exists_tick {l : Loop α} (h : l.timers ≠ []) : ∃ l', Loop.tick l = some l' := by
  unfold Loop.tick
  split
  · exact absurd ‹l.timers = []› h
  · exact ⟨_, rfl⟩

namespace Roster.Tends

variable {l l' : Loop α} {c : Nat}

/-- Bystanders tend the loop at all times. -/
theorem tick (h : r.Tends l) (htick : Loop.tick l = some l') : r.Tends l' := by
  obtain ⟨hstage, hready, htimers, -⟩ := Loop.tick_eq_some htick
  refine ⟨?_, fun t ht => ?_, fun x hx => ?_, ?_⟩
  · rw [hstage]
    exact h.spawned
  · rw [hready] at ht
    obtain ⟨x, hx, rfl⟩ := List.mem_map.mp ht
    exact h.timers x (List.mem_filter.mp hx).1
  · rw [htimers] at hx
    exact h.timers x (List.mem_filter.mp hx).1
  · rw [htimers]
    exact h.sorted.filter _

/-- Where nothing is due to others, the loop idles while the clock moves on. -/
theorem idles_tick (h : r.Tends l) (ha : l.Ahead c) (hready : l.ready = []) (htick : Loop.tick l = some l')
    (hlater : ∀ x ∈ l.timers.filter (!·.2.isTask), l'.stage.clock < x.1) : r.Idles l l' ∧ l'.Ahead c := by
  obtain ⟨hstage, hready', htimers', hjoiner, houtcome, x, xs, htimers, hclock⟩ := Loop.tick_eq_some htick
  have htask : ∀ y ∈ l.timers, y.1 ≤ l'.stage.clock → y.2.isTask = true := fun y hy hdue => by
    by_contra hother
    exact absurd (hlater y (List.mem_filter.mpr ⟨hy, by simpa using hother⟩)) (Nat.not_lt.mpr hdue)
  have hnone : l'.ready.filter (!·.isTask) = [] := by
    refine List.filter_eq_nil_iff.mpr fun t ht => ?_
    rw [hready'] at ht
    obtain ⟨y, hy, rfl⟩ := List.mem_map.mp ht
    simp [htask y (List.mem_filter.mp hy).1 (by simpa using (List.mem_filter.mp hy).2)]
  have hkept : l'.timers.filter (!·.2.isTask) = l.timers.filter (!·.2.isTask) := by
    rw [htimers', List.filter_filter]
    refine List.filter_congr fun y hy => ?_
    by_cases hother : y.2.isTask = true
    · simp [hother]
    · have hlt := hlater y (List.mem_filter.mpr ⟨hy, by simpa using hother⟩)
      simp [hlt]
  refine ⟨⟨?_, h.tick htick, ?_, hkept, hjoiner, houtcome⟩, .inr ⟨hnone, ?_, ?_⟩⟩
  · rw [← hstage]
    exact .refl r _
  · rw [hnone, hready, List.filter_nil]
  · exact Nat.le_trans ha.le (hclock ▸ Nat.le_max_left _ _)
  · rw [hkept]
    exact fun y hy => Nat.le_trans (Nat.le_of_lt (hlater y hy)) (Nat.le_max_right _ _)

/-- The same is left to do for bystanders, and one of them is ready. -/
theorem chores_tick (hready : l.ready = []) (htick : Loop.tick l = some l') :
    l'.chores = l.chores ∧ l'.ready ≠ [] := by
  obtain ⟨-, hready', htimers', -, -, x, xs, htimers, hclock⟩ := Loop.tick_eq_some htick
  constructor
  · have hsplit : (l.timers.filter (·.1 ≤ l'.stage.clock) ++ l.timers.filter (l'.stage.clock < ·.1)).Perm l.timers := by
      have hlater : (fun x : Nat × Turn α => decide (l'.stage.clock < x.1)) =
          fun x => !decide (x.1 ≤ l'.stage.clock) := by
        funext x
        simp [← decide_not]
      rw [hlater]
      exact List.filter_append_perm _ _
    have hperm := (hsplit.map (·.2)).filter (·.isTask)
    rw [List.map_append, List.filter_append, ← hready', ← htimers'] at hperm
    unfold Loop.chores
    rw [Multiset.coe_add, Multiset.coe_eq_coe.mpr hperm, hready, List.filter_nil, Multiset.coe_nil, zero_add]
  · rw [hready', htimers, List.filter_cons_of_pos]
    · exact List.cons_ne_nil _ _
    · simp [hclock]

/-- When something is due to others, the clock stands where it would if there were no bystanders. -/
theorem clock_tick (h : r.Tends l) (ha : l.Ahead c) (htick : Loop.tick l = some l') {x : Nat × Turn α}
    {xs : List (Nat × Turn α)} (hothers : l.timers.filter (!·.2.isTask) = x :: xs)
    (hdue : ∃ y ∈ l.timers.filter (!·.2.isTask), y.1 ≤ l'.stage.clock) : l'.stage.clock = max c x.1 := by
  obtain ⟨-, -, -, -, -, z, zs, htimers, hclock⟩ := Loop.tick_eq_some htick
  obtain ⟨y, hy, hdue⟩ := hdue
  have hmem : x ∈ l.timers.filter (!·.2.isTask) := hothers ▸ List.mem_cons_self
  have hfirst : z.1 ≤ x.1 := by
    have hsorted := h.sorted
    have hx := (List.mem_filter.mp hmem).1
    rw [htimers] at hsorted hx
    rcases List.mem_cons.mp hx with rfl | hx
    · exact Nat.le_refl _
    · exact (List.pairwise_cons.mp hsorted).1 x hx
  have hnext : x.1 ≤ y.1 := by
    have hsorted := h.sorted.filter (!·.2.isTask)
    rw [hothers] at hsorted hy
    rcases List.mem_cons.mp hy with rfl | hy
    · exact Nat.le_refl _
    · exact (List.pairwise_cons.mp hsorted).1 y hy
  have hahead : l.stage.clock ≤ max c x.1 := by
    rcases ha with heq | ⟨-, -, hle⟩
    · exact heq ▸ Nat.le_max_left _ _
    · exact hle x hmem
  have hle := ha.le
  omega

/-- The loop bides its time for `n` turns, until the clock moves on to something that is due to others. -/
structure Bides (r : Roster) (setting : Setting) (c n : Nat) (l l' l'' : Loop α) : Prop where
  idles : r.Idles l l'
  ahead : l'.Ahead c
  ready : l'.ready = []
  tick : Loop.tick l' = some l''
  due : ∃ x ∈ l'.timers.filter (!·.2.isTask), x.1 ≤ l''.stage.clock
  run : ∀ turns, Loop.run setting (turns + n) l = Loop.run setting turns l'

/-- It has idled for some turns before. -/
theorem Bides.of_later {l₁ l'' : Loop α} {m n : Nat} (h : Bides r setting c n l₁ l' l'') (hidles : r.Idles l l₁)
    (hrun : ∀ turns, Loop.run setting (turns + m) l = Loop.run setting turns l₁) :
    Bides r setting c (n + m) l l' l'' where
  idles := hidles.trans h.idles
  ahead := h.ahead
  ready := h.ready
  tick := h.tick
  due := h.due
  run turns := by rw [← Nat.add_assoc, hrun, h.run]

/-- What is due to others comes to be due in whatever bystanders do before. -/
theorem exists_bides (h : r.Tends l) (setting : Setting) (ha : l.Ahead c) (hready : l.ready.filter (!·.isTask) = [])
    (hothers : l.timers.filter (!·.2.isTask) ≠ []) : ∃ n l' l'', Bides r setting c n l l' l'' := by
  -- what is left to do for bystanders goes down with each of their turns
  induction hchores : l.chores using (Turn.wellFounded_leftOf (α := α)).cutExpand.induction generalizing l with
  | _ chores ih =>
    subst hchores
    have hturn : ∀ {l₁ : Loop α}, r.Idles l l₁ → l₁.Ahead c → l₁.chores = l.chores → l₁.ready ≠ [] →
        ∃ n l' l'', Bides r setting c n l₁ l' l'' := by
      intro l₁ hl₁ ha₁ hchores₁ hready₁
      obtain ⟨t, rest, hfront⟩ := List.exists_cons_of_ne_nil hready₁
      have ht : t.isTask = true := by
        have hnone := hl₁.ready.trans hready
        rw [hfront] at hnone
        simpa using List.filter_eq_nil_iff.mp hnone t List.mem_cons_self
      obtain ⟨l₂, hrun₂, hleaves⟩ := hl₁.tends.exists_turn setting hfront ht
      have hidles := hleaves.idles hl₁.tends hfront ht
      have hl₂ := hl₁.trans hidles
      obtain ⟨n, l', l'', hbides⟩ := ih l₂.chores (hchores₁ ▸ hleaves.chores hfront ht) hl₂.tends
        (ha₁.idles hidles hleaves.clock) (hl₂.ready.trans hready) (hl₂.timers ▸ hothers) rfl
      exact ⟨n + 1, l', l'', hbides.of_later hidles hrun₂⟩
    by_cases hempty : l.ready = []
    · have htimers : l.timers ≠ [] := fun hnil => hothers (by rw [hnil, List.filter_nil])
      obtain ⟨l', htick⟩ := Loop.exists_tick htimers
      by_cases hdue : ∃ x ∈ l.timers.filter (!·.2.isTask), x.1 ≤ l'.stage.clock
      · exact ⟨0, l, l', .refl h, ha, hempty, htick, hdue, fun _ => rfl⟩
      · have hlater : ∀ x ∈ l.timers.filter (!·.2.isTask), l'.stage.clock < x.1 := fun x hx =>
          Nat.lt_of_not_le fun hle => hdue ⟨x, hx, hle⟩
        obtain ⟨hidles, ha'⟩ := h.idles_tick ha hempty htick hlater
        obtain ⟨hchores, hsome⟩ := chores_tick hempty htick
        obtain ⟨n, l₁, l₂, hbides⟩ := hturn hidles ha' hchores hsome
        exact ⟨n + 1, l₁, l₂, hbides.of_later hidles (Loop.run_tick hempty htick)⟩
    · exact hturn (.refl h) ha rfl hempty

end Roster.Tends

end SmsRelay.Session
