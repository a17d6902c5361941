-- SUMMARY: Handlers that are waited for may be functions or coroutines: a session comes to the same, turn by turn.
import SmsRelay.Proofs.Followers
import SmsRelay.Proofs.Noninterference

/-!
# Functions and coroutines

It makes no difference whether a handler that is waited for is a function or a
coroutine, as long as it does the same without waiting itself: a session comes
turn by turn to the same whichever of these handlers are coroutines. This is
shown by following a session turn by turn with another one, in which all of them
are.
-/

namespace SmsRelay.Session

open Gateway

variable {α β : Type} {g : α → β} {setting : Setting}

/-! ## Halts -/

/-- Both pieces of work halt in the same way, and what is left goes on in the same way. -/
inductive Halt.Follows (g : α → β) : Halt α → Halt β → Prop
  | done (a : α) : Follows g (.done a) (.done (g a))
  | paused {rest : Work α} {rest' : Work β} : Session.Follows g rest rest' → Follows g (.paused rest) (.paused rest')
  | asleep (ms : Nat) {rest : Work α} {rest' : Work β} : Session.Follows g rest rest' →
      Follows g (.asleep ms rest) (.asleep ms rest')
  | joining {rest : Except Fault Unit → Work α} {rest' : Except Fault Unit → Work β} :
      (∀ outcome, Session.Follows g (rest outcome) (rest' outcome)) → Follows g (.joining rest) (.joining rest')

theorem Follows.advance {w : Work α} {w' : Work β} (h : Follows g w w') (s : Stage) :
    ∃ halt', advance w' s.uniform = (halt', (advance w s).2.uniform) ∧ (advance w s).1.Follows g halt' := by
  induction h generalizing s with
  | done a => exact ⟨_, rfl, .done a⟩
  | get _ ih => exact ih s s
  | put s' _ ih => exact ih s'
  | pause hrest _ => exact ⟨_, rfl, .paused hrest⟩
  | sleep ms hrest _ => exact ⟨_, rfl, .asleep ms hrest⟩
  | join hrest _ => exact ⟨_, rfl, .joining hrest⟩

/-! ## Turns -/

/-- The second turn does with coroutines what the first one does. -/
inductive Turn.Follows (g : α → β) : Turn α → Turn β → Prop
  | main {w : Work α} {w' : Work β} : Session.Follows g w w' → Follows g (.main w) (.main w')
  | cycle {w w' : Work (Except Fault Unit)} : Session.Follows id w w' → Follows g (.cycle w) (.cycle w')
  | handler (event : String) {w w' : Work (Except Fault Given)} : Session.Follows (Except.map Given.uniform) w w' →
      Follows g (.handler event w) (.handler event w')
  | failed (event : String) : Follows g (.failed event) (.failed event)
  | proceed : Follows g .proceed .proceed
  | look : Follows g .look .look
  | ending (turns : Nat) : Follows g (.ending turns) (.ending turns)
  | expire : Follows g .expire .expire
  | awake {t : Turn α} {t' : Turn β} : Follows g t t' → Follows g (.awake t) (.awake t')

theorem Turn.Follows.isExpiry {t : Turn α} {t' : Turn β} (h : t.Follows g t') :
    Loop.Turn.isExpiry t' = Loop.Turn.isExpiry t := by cases h <;> rfl

theorem follows_turnOf (x : Spawned) : Turn.Follows g (Loop.turnOf x) (Loop.turnOf x.uniform) := by
  cases x with
  | handler event p => exact .handler event (follows_await p)
  | loop => exact .proceed
  | wake => exact .ending 2

/-- The turns are due at the same time. -/
def FollowsDue (g : α → β) (x : Nat × Turn α) (y : Nat × Turn β) : Prop := x.1 = y.1 ∧ x.2.Follows g y.2

/-! ## Loops -/

/-- The second loop does with coroutines what the first one does. -/
structure Loop.Follows (g : α → β) (l : Loop α) (l' : Loop β) : Prop where
  stage : l'.stage = l.stage.uniform
  ready : List.Forall₂ (Turn.Follows g) l.ready l'.ready
  timers : List.Forall₂ (FollowsDue g) l.timers l'.timers
  joiner : Option.Rel (fun rest rest' => ∀ outcome, Session.Follows g (rest outcome) (rest' outcome)) l.joiner l'.joiner
  outcome : l'.outcome = l.outcome

namespace Loop.Follows

variable {l : Loop α} {l' : Loop β} {t : Turn α} {t' : Turn β}

theorem polling (h : l.Follows g l') : l'.stage.polling = l.stage.polling := by
  rw [h.stage]
  rfl

theorem clock (h : l.Follows g l') : l'.stage.clock = l.stage.clock := by
  rw [h.stage]
  rfl

theorem push (h : l.Follows g l') (ht : t.Follows g t') : (l.push t).Follows g (l'.push t') :=
  { h with ready := List.rel_append h.ready (.cons ht .nil) }

theorem insertTimer {time : Nat} (ht : t.Follows g t') {xs : List (Nat × Turn α)} {ys : List (Nat × Turn β)}
    (h : List.Forall₂ (FollowsDue g) xs ys) :
    List.Forall₂ (FollowsDue g) (Loop.insertTimer time t xs) (Loop.insertTimer time t' ys) := by
  induction h with
  | nil => exact .cons ⟨rfl, ht⟩ .nil
  | @cons x y xs ys hxy hrest ih =>
    unfold Loop.insertTimer
    rw [hxy.1]
    split
    · exact .cons ⟨rfl, ht⟩ (.cons hxy hrest)
    · exact .cons hxy ih

theorem schedule (h : l.Follows g l') (delay : Nat) (ht : t.Follows g t') :
    (l.schedule delay t).Follows g (l'.schedule delay t') := by
  refine { h with timers := ?_ }
  change List.Forall₂ _ (Loop.insertTimer (l.stage.clock + delay) t _) (Loop.insertTimer (l'.stage.clock + delay) t' _)
  rw [h.clock]
  exact insertTimer ht h.timers

theorem setPolling (h : l.Follows g l') (p : Polling) : (l.setPolling p).Follows g (l'.setPolling p) := by
  refine { h with stage := ?_ }
  change { l'.stage with polling := p } = _
  rw [h.stage]
  rfl

theorem log (h : l.Follows g l') (e : Log.Entry) : (l.log e).Follows g (l'.log e) := by
  refine { h with stage := ?_ }
  change l'.stage.log e = _
  rw [h.stage]
  exact l.stage.log_uniform e

theorem schedulerLog (h : l.Follows g l') (level : Log.Level) (text : String) :
    (l.schedulerLog level text).Follows g (l'.schedulerLog level text) := h.log ⟨level, "core.scheduler", text⟩

/-- What has been spawned comes into the queue. -/
theorem absorb (h : l.Follows g l') (s : Stage) :
    (Loop.absorb { l with stage := s }).Follows g (Loop.absorb { l' with stage := s.uniform }) where
  stage := rfl
  ready := by
    refine List.rel_append h.ready ?_
    change List.Forall₂ _ (s.spawned.reverse.map Loop.turnOf) ((s.spawned.map Spawned.uniform).reverse.map Loop.turnOf)
    rw [← List.map_reverse, List.map_map]
    refine List.forall₂_map_left_iff.mpr (List.forall₂_map_right_iff.mpr ?_)
    exact List.forall₂_same.mpr fun x _ => follows_turnOf x
  timers := h.timers
  joiner := h.joiner
  outcome := h.outcome

/-! ### The polling loop -/

theorem finish (h : l.Follows g l') (outcome : Except Fault Unit) :
    (l.finish outcome).Follows g (l'.finish outcome) := by
  have hjoiner := h.joiner
  unfold Loop.finish
  generalize hl : l.joiner = joiner at *
  generalize hl' : l'.joiner = joiner' at *
  cases hjoiner with
  | none => exact { h with joiner := .none, outcome := rfl }
  | some hrest =>
    have hset : Loop.Follows g { l with outcome, joiner := none } { l' with outcome, joiner := none } :=
      { h with joiner := .none, outcome := rfl }
    exact hset.push (.main (hrest outcome))

theorem conclude (h : l.Follows g l') : l.conclude.Follows g l'.conclude := by
  unfold Loop.conclude
  rw [h.polling]
  exact (h.schedulerLog _ _).finish _

theorem afterCycle (h : l.Follows g l') : (l.afterCycle setting).Follows g (l'.afterCycle setting) := by
  have hset := h.setPolling l.stage.polling.finishCycle
  unfold Loop.afterCycle
  rw [h.polling]
  dsimp only
  rw [hset.polling]
  split
  · exact hset.conclude
  · cases setting.interval with
    | none => exact hset.push .look
    | some ms => exact (hset.schedule ms .expire).push .look

theorem goOnCycle {w w' : Work (Except Fault Unit)} (h : l.Follows g l') (hw : Session.Follows id w w') :
    (l.goOnCycle setting w).Follows g (l'.goOnCycle setting w') := by
  obtain ⟨halt', hadvance, hhalt⟩ := hw.advance l.stage
  unfold Loop.goOnCycle
  rw [h.stage, hadvance]
  generalize Session.advance w l.stage = halted at *
  obtain ⟨halt, s⟩ := halted
  have habsorb := h.absorb s
  dsimp only at hhalt ⊢
  cases hhalt with
  | done result =>
    cases result with
    | ok u => exact habsorb.afterCycle
    | error f =>
      dsimp only [id]
      rw [habsorb.polling]
      split
      · exact (habsorb.setPolling _).finish _
      · exact (habsorb.schedulerLog _ _).afterCycle
  | paused hrest => exact habsorb.push (.cycle hrest)
  | asleep ms hrest => exact habsorb.schedule ms (.awake (.cycle hrest))
  | joining hrest =>
    refine habsorb.push (.cycle ?_)
    rw [habsorb.outcome]
    exact hrest _

variable (hcycle : Session.Follows id setting.cycle setting.cycle)
include hcycle

theorem proceed (h : l.Follows g l') : (l.proceed setting).Follows g (l'.proceed setting) := by
  have hset := h.setPolling l.stage.polling.proceed
  unfold Loop.proceed
  rw [h.polling]
  dsimp only
  rw [hset.polling]
  split
  · exact hset.conclude
  · exact hset.goOnCycle hcycle

theorem endWait (h : l.Follows g l') : (l.endWait setting).Follows g (l'.endWait setting) := by
  refine proceed hcycle { h with ready := List.rel_filter ?_ h.ready, timers := List.rel_filter ?_ h.timers }
  · exact fun t t' ht => iff_of_eq (congrArg (fun b => (!b) = true) ht.isExpiry.symm)
  · exact fun x y hdue => iff_of_eq (congrArg (fun b => (!b) = true) hdue.2.isExpiry.symm)

omit hcycle

/-! ### Turns -/

theorem goOnHandler {w w' : Work (Except Fault Given)} (h : l.Follows g l') (event : String)
    (hw : Session.Follows (Except.map Given.uniform) w w') :
    (l.goOnHandler event w).Follows g (l'.goOnHandler event w') := by
  obtain ⟨halt', hadvance, hhalt⟩ := hw.advance l.stage
  unfold Loop.goOnHandler
  rw [h.stage, hadvance]
  generalize Session.advance w l.stage = halted at *
  obtain ⟨halt, s⟩ := halted
  have habsorb := h.absorb s
  dsimp only at hhalt ⊢
  cases hhalt with
  | done result =>
    cases result with
    | ok given => exact habsorb
    | error f =>
      dsimp only [Except.map]
      split
      · exact habsorb
      · exact habsorb.push (.failed event)
  | paused hrest => exact habsorb.push (.handler event hrest)
  | asleep ms hrest => exact habsorb.schedule ms (.awake (.handler event hrest))
  | joining hrest =>
    refine habsorb.push (.handler event ?_)
    rw [habsorb.outcome]
    exact hrest _

/-- Results and loops that go together. -/
abbrev Both (g : α → β) : α ⊕ Loop α → β ⊕ Loop β → Prop := Sum.LiftRel (fun a b => b = g a) (Loop.Follows g)

theorem goOnMain {w : Work α} {w' : Work β} (h : l.Follows g l') (hw : Session.Follows g w w') :
    Both g (l.goOnMain w) (l'.goOnMain w') := by
  obtain ⟨halt', hadvance, hhalt⟩ := hw.advance l.stage
  unfold Loop.goOnMain
  rw [h.stage, hadvance]
  generalize Session.advance w l.stage = halted at *
  obtain ⟨halt, s⟩ := halted
  have habsorb := h.absorb s
  dsimp only at hhalt ⊢
  cases hhalt with
  | done a => exact .inl rfl
  | paused hrest => exact .inr (habsorb.push (.main hrest))
  | asleep ms hrest => exact .inr (habsorb.schedule ms (.awake (.main hrest)))
  | joining hrest =>
    dsimp only
    rw [habsorb.polling]
    split
    · refine .inr { habsorb with ready := .cons (.main ?_) habsorb.ready }
      rw [habsorb.outcome]
      exact hrest _
    · exact .inr { habsorb with joiner := .some hrest }

include hcycle in
theorem take (h : l.Follows g l') (ht : t.Follows g t') :
    Both g (Loop.take setting t l) (Loop.take setting t' l') := by
  cases ht with
  | main hw => exact h.goOnMain hw
  | cycle hw => exact .inr (h.goOnCycle hw)
  | handler event hw => exact .inr (h.goOnHandler event hw)
  | failed event => exact .inr (h.log _)
  | proceed => exact .inr (h.proceed hcycle)
  | look =>
    have hset := h.setPolling l.stage.polling.look
    unfold Loop.take
    rw [h.polling]
    dsimp only
    rw [hset.polling]
    split
    · exact .inr (hset.push (.ending 1))
    · exact .inr hset
  | ending turns =>
    cases turns with
    | zero => exact .inr (h.endWait hcycle)
    | succ turns => exact .inr (h.push (.ending turns))
  | expire =>
    have hset := h.setPolling l.stage.polling.expire
    unfold Loop.take
    rw [h.polling]
    dsimp only
    split
    · exact .inr (hset.push (.ending 3))
    · exact .inr h
  | awake ht => exact .inr (h.push ht)

theorem tick (h : l.Follows g l') : Option.Rel (Loop.Follows g) l.tick l'.tick := by
  obtain ⟨stage, ready, timers, joiner, outcome⟩ := l
  obtain ⟨stage', ready', timers', joiner', outcome'⟩ := l'
  obtain rfl : stage' = stage.uniform := h.stage
  have htimers : List.Forall₂ (FollowsDue g) timers timers' := h.timers
  cases htimers with
  | nil => exact .none
  | @cons x y xs ys hdue hrest =>
    obtain ⟨htime, -⟩ := hdue
    have hclock : max stage.uniform.clock y.1 = max stage.clock x.1 := by
      rw [← htime]
      rfl
    unfold Loop.tick
    dsimp only
    rw [hclock]
    have hfilter : ∀ p : Nat → Bool,
        List.Forall₂ (FollowsDue g) ((x :: xs).filter (p ·.1)) ((y :: ys).filter (p ·.1)) := fun p =>
      List.rel_filter (fun a b hdue => iff_of_eq (congrArg (p · = true) hdue.1)) h.timers
    refine .some { h with stage := rfl, ready := ?_, timers := hfilter fun time => max stage.clock x.1 < time }
    refine List.forall₂_map_left_iff.mpr (List.forall₂_map_right_iff.mpr ?_)
    exact (hfilter fun time => time ≤ max stage.clock x.1).imp fun _ _ hdue => hdue.2

/-- A loop comes to its end after as many turns as one that it follows, and to the result that goes with that of the
other. -/
theorem run (hcycle : Session.Follows id setting.cycle setting.cycle) (h : l.Follows g l') (turns : Nat) :
    Loop.run setting turns l' = (Loop.run setting turns l).map g := by
  induction turns generalizing l l' with
  | zero => rfl
  | succ turns ih =>
    have hready := h.ready
    unfold Loop.run
    generalize l.ready = ready at *
    generalize l'.ready = ready' at *
    cases hready with
    | nil =>
      have htick := h.tick
      dsimp only
      generalize l.tick = next at *
      generalize l'.tick = next' at *
      cases htick with
      | none => rfl
      | some hnext => exact ih hnext
    | @cons t t' ts ts' ht hts =>
      have hrest : Loop.Follows g { l with ready := ts } { l' with ready := ts' } := { h with ready := hts }
      have htake := hrest.take hcycle ht
      dsimp only
      generalize Loop.take setting t { l with ready := ts } = taken at *
      generalize Loop.take setting t' { l' with ready := ts' } = taken' at *
      cases htake with
      | inl heq => exact congrArg some heq
      | inr hnext => exact ih hnext

end Loop.Follows

/-! ## Whole sessions -/

namespace Scenario

variable {σ σ₁ σ₂ : Scenario}

/-- What comes of so many turns of the session: why the gateway cannot be set up, or the reports of all steps, if they
have been taken by then. -/
def outcome (σ : Scenario) (turns : Nat) : Except Fault (Option (List Report)) :=
  σ.stage.map fun s => run turns (gatewaySetting σ.config) σ.settles s σ.steps

/-- The session, in which all handlers that are waited for are coroutines. -/
def uniform (σ : Scenario) : Scenario :=
  { σ with
    offers := Offer.uniformAll σ.offers
    replies := uniformReplies σ.replies
    steps := σ.steps.map Step.uniform }

/-- A message is sent and another one comes in. The handler for sent messages registers one that is to hear of failures,
and fails itself; the handler for received messages sends thanks and stops the gateway. -/
def exchange : Scenario where
  config := {}
  application := false
  offers := [
    ("transmit", .script (.mk .plain (fun _ _ => [
      .register [("transmit_error", .script (.mk .coroutine (fun _ _ => [.wait 0]) none))], .fail .noSender]) none)),
    ("receive", .script (.mk .plain (fun _ _ => [
      .send (.text "+15550101") (.text "Thanks") (.value .null) (.value .null), .stop]) none))]
  replies := [("retrieve", [{ outcome := .value (.list [.object
    [("from", .text "+15550101"), ("location", .int 7), ("content", .text "Hello")]]) }])]
  now := ""
  settles _ := true
  steps := [.send (.text "+15550100") (.text "Hello") (.value .null) (.value .null), .runCycle, .lengths]

/-- A message comes in, and the handler returns something that fails when it is awaited. -/
def postponement (receive : Mode) : Scenario where
  config := {}
  application := false
  offers := [("receive", .script (.mk receive (fun _ _ => [.defer [.fail .noSender]]) none))]
  replies := exchange.replies
  now := ""
  settles _ := true
  steps := [.runPhase .receive]

-- What a function returns is awaited, and what a coroutine returns is not: to return the same is not to do the same.
example :
    ((postponement .plain).outcome 60).map (Option.map (List.map fun r => r.stage.queues.deletion.length)) =
      .ok (some [0]) ∧
    ((postponement .coroutine).outcome 60).map (Option.map (List.map fun r => r.stage.queues.deletion.length)) =
      .ok (some [1]) := ⟨rfl, rfl⟩

end Scenario

end SmsRelay.Session
