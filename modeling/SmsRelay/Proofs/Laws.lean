-- SUMMARY: How each question and each composition of phases runs in a world.
import SmsRelay.Proofs.World

/-!
# Laws of phases

How a phase runs in a world, from how its parts run. Each law takes one
question, or one way of putting phases together, apart.
-/

namespace SmsRelay.Gateway.Phase

variable {κ σ : Type} {α β : Type}

/-- A phase may lead from the world `w` to the result or fault `r` in the world `w'`. -/
def Runs (E : Surroundings κ σ) (p : Phase κ α) (w : World κ σ) (r : Except Fault α) (w' : World κ σ) : Prop :=
  Flow.Runs (S := signature κ) (World.Answers E) p.run w r w'

variable {E : Surroundings κ σ} {w w' : World κ σ}

/-! ## Results and faults -/

/-- Of two phases in a row the second starts where the first ends; a fault of the first is one of both. -/
theorem runs_bind {p : Phase κ α} {f : α → Phase κ β} {r : Except Fault β} :
    Runs E (p >>= f) w r w' ↔
      (∃ a v, Runs E p w (.ok a) v ∧ Runs E (f a) v r w') ∨ (∃ e, r = .error e ∧ Runs E p w (.error e) w') := by
  have h : Runs E (p >>= f) w r w' ↔ ∃ a v, Runs E p w a v ∧
      Flow.Runs (S := signature κ) (World.Answers E) (ExceptT.bindCont f a) v r w' := Flow.runs_bind
  rw [h]
  constructor
  · intro ⟨a, v, hp, hf⟩
    cases a with
    | ok a => exact .inl ⟨a, v, hp, hf⟩
    | error e =>
      obtain ⟨rfl, rfl⟩ := hf
      exact .inr ⟨e, rfl, hp⟩
  · intro h
    rcases h with ⟨a, v, hp, hf⟩ | ⟨e, rfl, hp⟩
    · exact ⟨.ok a, v, hp, hf⟩
    · exact ⟨.error e, w', hp, rfl, rfl⟩

/-- A phase that can only come to one result goes on from there. -/
theorem runs_bind_of {p : Phase κ α} {a : α} {v : World κ σ} {f : α → Phase κ β} {r : Except Fault β}
    (hp : ∀ b u, Runs E p w b u ↔ b = .ok a ∧ u = v) : Runs E (p >>= f) w r w' ↔ Runs E (f a) v r w' := by
  rw [runs_bind]
  constructor
  · intro h
    rcases h with ⟨b, u, h, hf⟩ | ⟨e, -, h⟩
    · obtain ⟨hb, rfl⟩ := (hp _ _).mp h
      cases hb
      exact hf
    · exact absurd ((hp _ _).mp h).1 (by simp)
  · intro h
    exact .inl ⟨a, v, (hp _ _).mpr ⟨rfl, rfl⟩, h⟩

/-- A phase whose result is put aside runs as the phase does. -/
@[simp] theorem runs_discard {p : Phase κ α} {r : Except Fault PUnit} :
    Runs E (discard p) w r w' ↔
      (∃ a, r = .ok .unit ∧ Runs E p w (.ok a) w') ∨ (∃ e, r = .error e ∧ Runs E p w (.error e) w') := by
  have h : discard p = p >>= fun _ => pure .unit := rfl
  rw [h, runs_bind]
  constructor
  · intro h
    rcases h with ⟨a, v, hp, rfl, rfl⟩ | h
    · exact .inl ⟨a, rfl, hp⟩
    · exact .inr h
  · intro h
    rcases h with ⟨a, rfl, hp⟩ | h
    · exact .inl ⟨a, w', hp, rfl, rfl⟩
    · exact .inr h

/-- What a guarded phase comes to: all faults but a cancellation are results of it. -/
theorem runs_guarded {p : Phase κ α} {r : Except Fault (Except Fault α)} :
    Runs E (guarded p) w r w' ↔
      (∃ a, r = .ok a ∧ Runs E p w a w' ∧ ∀ f, a = .error f → f.isCancellation = false) ∨
      (∃ f, r = .error f ∧ Runs E p w (.error f) w' ∧ f.isCancellation = true) := by
  refine Iff.trans Flow.runs_map ?_
  constructor
  · intro ⟨a, heq, hp⟩
    subst heq
    cases a with
    | ok a => exact .inl ⟨.ok a, rfl, hp, by simp⟩
    | error f =>
      cases hf : f.isCancellation with
      | true => exact .inr ⟨f, by simp [hf], hp, hf⟩
      | false => exact .inl ⟨.error f, by simp [hf], hp, by simp [hf]⟩
  · intro h
    rcases h with ⟨a, rfl, hp, hf⟩ | ⟨f, rfl, hp, hf⟩
    · refine ⟨a, ?_, hp⟩
      cases a with
      | ok a => rfl
      | error f => simp [hf f rfl]
    · exact ⟨.error f, by simp [hf], hp⟩

/-! ## The gateway's own questions -/

@[simp] theorem runs_queues {r : Except Fault (Queues κ)} :
    Runs E queues w r w' ↔ r = .ok w.queues ∧ w' = w := by
  refine Iff.trans Flow.runs_map ?_
  constructor
  · intro ⟨q, heq, h⟩
    subst heq
    obtain ⟨rfl, rfl⟩ := Flow.runs_query.mp h
    exact ⟨rfl, rfl⟩
  · intro ⟨heq, heq'⟩
    subst heq
    subst heq'
    exact ⟨w'.queues, rfl, Flow.runs_query.mpr ⟨rfl, rfl⟩⟩

@[simp] theorem runs_update {g : Queues κ → Queues κ} {r : Except Fault Unit} :
    Runs E (update g) w r w' ↔ r = .ok () ∧ w' = w.update g := by
  refine Iff.trans Flow.runs_map ?_
  constructor
  · intro ⟨u, heq, h⟩
    subst heq
    exact ⟨rfl, Flow.runs_query.mp h⟩
  · intro ⟨heq, h⟩
    subst heq
    exact ⟨(), rfl, Flow.runs_query.mpr h⟩

@[simp] theorem runs_log {level : Log.Level} {source text : String} {r : Except Fault Unit} :
    Runs E (log level source text) w r w' ↔ r = .ok () ∧ w' = w.note (.logged ⟨level, source, text⟩) := by
  refine Iff.trans Flow.runs_map ?_
  constructor
  · intro ⟨u, heq, h⟩
    subst heq
    exact ⟨rfl, Flow.runs_query.mp h⟩
  · intro ⟨heq, h⟩
    subst heq
    exact ⟨(), rfl, Flow.runs_query.mpr h⟩

@[simp] theorem runs_queues_bind {f : Queues κ → Phase κ β} {r : Except Fault β} :
    Runs E (queues >>= f) w r w' ↔ Runs E (f w.queues) w r w' :=
  runs_bind_of fun _ _ => runs_queues

@[simp] theorem runs_update_bind {g : Queues κ → Queues κ} {f : Unit → Phase κ β} {r : Except Fault β} :
    Runs E (update g >>= f) w r w' ↔ Runs E (f ()) (w.update g) r w' :=
  runs_bind_of fun _ _ => runs_update

@[simp] theorem runs_log_bind {level : Log.Level} {source text : String} {f : Unit → Phase κ β}
    {r : Except Fault β} :
    Runs E (log level source text >>= f) w r w' ↔
      Runs E (f ()) (w.note (.logged ⟨level, source, text⟩)) r w' :=
  runs_bind_of fun _ _ => runs_log

/-! ## Questions to the surroundings -/

theorem runs_modem {command : String} {arguments : List String} {r : Except Fault Value} :
    Runs E (modem command arguments) w r w' ↔ ∃ cs s, E.modem w.outside command arguments r s ∧
      w' = w.answered cs s fun q => .modem q command arguments r := Flow.runs_query

theorem runs_request {q : Request κ} {r : Except Fault Returned} :
    Runs E (request q) w r w' ↔ ∃ cs s, E.request w.outside q r s ∧
      w' = w.answered cs s fun _ => .request q r := Flow.runs_query

/-- An attempt to put a request is a guarded request. -/
theorem attempt_eq (q : Request κ) : attempt q = guarded (request q) := by
  refine congrArg (Flow.ask (S := signature κ) (.request q)) (funext fun a => ?_)
  cases a with
  | ok a => rfl
  | error f =>
    change ExceptT.run (if f.isCancellation then throw f else pure (Except.error f)) =
      Flow.done (S := signature κ) (if f.isCancellation then Except.error f else Except.ok (Except.error f))
    split <;> rfl

/-- Notice is taken, unless a cancellation gets through. -/
theorem runs_notify {n : Notice κ} {r : Except Fault Unit} :
    Runs E (notify n) w r w' ↔ ∃ a cs s, r = contain a ∧ E.notify w.outside n a s ∧
      w' = w.answered cs s fun _ => .notice n := by
  refine Iff.trans Flow.runs_map ?_
  constructor
  · intro ⟨a, heq, h⟩
    subst heq
    obtain ⟨cs, s, h⟩ := Flow.runs_query.mp h
    exact ⟨a, cs, s, rfl, h⟩
  · intro ⟨a, cs, s, heq, h⟩
    subst heq
    exact ⟨a, rfl, Flow.runs_query.mpr ⟨cs, s, h⟩⟩

theorem runs_callback {k : κ} {m : Outbound κ} {t : TransmitResult} {r : Except Fault Unit} :
    Runs E (callback k m t) w r w' ↔ ∃ a cs s, r = contain a ∧ E.callback w.outside k m t a s ∧
      w' = w.answered cs s fun _ => .callback k m t := by
  refine Iff.trans Flow.runs_map ?_
  constructor
  · intro ⟨a, heq, h⟩
    subst heq
    obtain ⟨cs, s, h⟩ := Flow.runs_query.mp h
    exact ⟨a, cs, s, rfl, h⟩
  · intro ⟨a, cs, s, heq, h⟩
    subst heq
    exact ⟨a, rfl, Flow.runs_query.mpr ⟨cs, s, h⟩⟩

end SmsRelay.Gateway.Phase
