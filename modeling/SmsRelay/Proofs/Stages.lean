-- SUMMARY: A logic for phases that are not alone: properties of the world at each open question.
import SmsRelay.Proofs.Ensures

/-!
# Stages of a phase

Statements about the course of a phase, question by question. At each stage a
property holds of the world, and each answer leads from one stage to another.
While a question is open the world may change in any way that keeps the
property of the stage: such a statement holds of a phase that is one of several.
-/

namespace SmsRelay.Gateway.Phase

variable {κ σ ι : Type} {α β : Type}

/-- How a phase may end in a stage: with a result of which `P` holds, or with a fault of which `J` holds. -/
def Ends (P : ι → α → Prop) (J : ι → Fault → Prop) (j : ι) : Except Fault α → Prop
  | .ok a => P j a
  | .error e => J j e

/-- The phase goes through stages from `i` on. -/
def Follows (E : Surroundings κ σ) (I : ι → World κ σ → Prop) (p : Phase κ α) (i : ι) (P : ι → α → Prop)
    (J : ι → Fault → Prop) : Prop :=
  Flow.Follows (S := signature κ) (World.Answers E) I (Ends P J) p.run i

variable {E : Surroundings κ σ} {I : ι → World κ σ → Prop} {i : ι} {P : ι → α → Prop} {Q : ι → β → Prop}
  {J : ι → Fault → Prop}

/-- A phase that goes through stages leads from the first of them to the last. -/
theorem Follows.ensures {p : Phase κ α} (hp : Follows E I p i P J) {w : World κ σ} (hw : I i w) :
    Ensures E p w (fun a v => ∃ j, I j v ∧ P j a) (fun e v => ∃ j, I j v ∧ J j e) := by
  constructor
  · intro a w' h
    exact Flow.Follows.runs hp hw h
  · intro e w' h
    exact Flow.Follows.runs hp hw h

/-! ## Rules -/

theorem follows_pure {a : α} (h : P i a) : Follows E I (pure a) i P J := h

theorem Follows.bind {p : Phase κ α} {f : α → Phase κ β} (hp : Follows E I p i P J)
    (hf : ∀ j a, P j a → Follows E I (f a) j Q J) : Follows E I (p >>= f) i Q J := by
  apply Flow.Follows.bind hp
  intro j a ha
  cases a with
  | ok a => exact hf j a ha
  | error e => exact ha

theorem follows_settled_bind {a : Except Fault α} {f : α → Phase κ β} (hQ : ∀ b, a = .ok b → Follows E I (f b) i Q J)
    (hJ : ∀ e, a = .error e → J i e) : Follows E I (settled a >>= f) i Q J := by
  cases a with
  | ok b => exact hQ b rfl
  | error e => exact hJ e rfl

theorem follows_queues_bind {f : Queues κ → Phase κ β}
    (h : ∀ w, I i w → ∃ j, I j w ∧ Follows E I (f w.queues) j Q J) : Follows E I (queues >>= f) i Q J := by
  intro w r w' hw ⟨heq, heq'⟩
  subst heq
  subst heq'
  exact h w' hw

theorem follows_update {g : Queues κ → Queues κ} {P : ι → Unit → Prop}
    (h : ∀ w, I i w → ∃ j, I j (w.update g) ∧ P j ()) : Follows E I (update g) i P J := by
  intro w r w' hw heq
  subst heq
  exact h w hw

theorem follows_log {level : Log.Level} {source text : String} {P : ι → Unit → Prop}
    (h : ∀ w e, I i w → ∃ j, I j (w.note (.logged e)) ∧ P j ()) : Follows E I (log level source text) i P J := by
  intro w r w' hw heq
  subst heq
  exact h w _ hw

theorem follows_modem {command : String} {arguments : List String} {P : ι → Value → Prop}
    (hP : ∀ w cs s v, I i w → E.modem w.outside command arguments (.ok v) s →
      ∃ j, I j (w.answered cs s fun q => .modem q command arguments (.ok v)) ∧ P j v)
    (hJ : ∀ w cs s e, I i w → E.modem w.outside command arguments (.error e) s →
      ∃ j, I j (w.answered cs s fun q => .modem q command arguments (.error e)) ∧ J j e) :
    Follows E I (modem command arguments) i P J := by
  intro w r w' hw ⟨cs, s, hs, heq⟩
  subst heq
  cases r with
  | ok v => exact hP w cs s v hw hs
  | error e => exact hJ w cs s e hw hs

theorem follows_request {q : Request κ} {P : ι → Returned → Prop}
    (hP : ∀ w cs s a, I i w → E.request w.outside q (.ok a) s →
      ∃ j, I j (w.answered cs s fun _ => .request q (.ok a)) ∧ P j a)
    (hJ : ∀ w cs s e, I i w → E.request w.outside q (.error e) s →
      ∃ j, I j (w.answered cs s fun _ => .request q (.error e)) ∧ J j e) :
    Follows E I (request q) i P J := by
  intro w r w' hw ⟨cs, s, hs, heq⟩
  subst heq
  cases r with
  | ok a => exact hP w cs s a hw hs
  | error e => exact hJ w cs s e hw hs

/-- A guarded phase, when no fault of it is a cancellation. -/
theorem follows_guarded {p : Phase κ α} {Q : ι → Except Fault α → Prop}
    (hp : Follows E I p i (fun j a => Q j (.ok a)) (fun j e => e.isCancellation = false ∧ Q j (.error e))) :
    Follows E I (guarded p) i Q J := by
  apply Flow.Follows.bind hp
  intro j a ha
  cases a with
  | ok a => exact ha
  | error e =>
    obtain ⟨he, hQ⟩ := ha
    have hended : Ends Q J j (if e.isCancellation then .error e else .ok (.error e)) := by
      rw [he]
      exact hQ
    exact hended

theorem follows_attempt (hE : E.Contained) {q : Request κ} {P : ι → Except Fault Returned → Prop}
    (h : ∀ w cs s a, I i w → E.request w.outside q a s → ∃ j, I j (w.answered cs s fun _ => .request q a) ∧ P j a) :
    Follows E I (attempt q) i P J := by
  rw [attempt_eq]
  apply follows_guarded
  apply follows_request
  · intro w cs s a hw hs
    exact h w cs s (.ok a) hw hs
  · intro w cs s e hw hs
    obtain ⟨j, hj, hP⟩ := h w cs s (.error e) hw hs
    exact ⟨j, hj, hE.request hs, hP⟩

theorem follows_notify (hE : E.Contained) {n : Notice κ} {P : ι → Unit → Prop}
    (h : ∀ w cs s, I i w → E.notify w.outside n (.ok ()) s → ∃ j, I j (w.answered cs s fun _ => .notice n) ∧ P j ()) :
    Follows E I (notify n) i P J := by
  intro w r w' hw ⟨cs, s, hs, heq⟩
  subst heq
  obtain rfl := hE.notify hs
  exact h w cs s hw hs

theorem follows_callback (hE : E.Contained) {k : κ} {m : Outbound κ} {t : TransmitResult} {P : ι → Unit → Prop}
    (h : ∀ w cs s, I i w → E.callback w.outside k m t (.ok ()) s →
      ∃ j, I j (w.answered cs s fun _ => .callback k m t) ∧ P j ()) :
    Follows E I (callback k m t) i P J := by
  intro w r w' hw ⟨cs, s, hs, heq⟩
  subst heq
  obtain rfl := hE.callback hs
  exact h w cs s hw hs

/-- Each turn of a loop leads on from a stage that goes with what the loop carries along. -/
theorem follows_foldlM {f : β → α → Phase κ β} {xs : List α} {b : β} (hb : Q i b)
    (turn : ∀ a ∈ xs, ∀ j c, Q j c → Follows E I (f c a) j Q J) : Follows E I (xs.foldlM f b) i Q J := by
  induction xs generalizing i b with
  | nil => exact follows_pure hb
  | cons a xs ih =>
    obtain ⟨first, rest⟩ := List.forall_mem_cons.mp turn
    rw [List.foldlM_cons]
    exact (first i b hb).bind fun j c hc => ih hc rest

end SmsRelay.Gateway.Phase
