-- SUMMARY: Calls of handlers: what a request passes on of them, and what a notice keeps back.
import SmsRelay.Proofs.Laws
import SmsRelay.Session.Handlers

/-!
# Handlers and their dispatch

What handlers do, and what the gateway hears of it. A handler that is called
may return anything or fail. The gateway waits for the handlers of requests and
hears what they come to, also that there is none. Of a handler that it only
gives notice it hears nothing.
-/

namespace SmsRelay.Gateway

variable {κ σ : Type}

/-- What the gateway hears of a handler that it only gives notice, once the handler has been called: a
failure is kept from it, unless it is a cancellation. -/
def muted : Except Fault Returned → Except Cancellation Unit
  | .ok _ => .ok ()
  | .error (.cancelled text) => .error ⟨text⟩
  | .error _ => .ok ()

theorem muted_of_not_cancelled {x : Except Fault Returned} (h : ∀ f, x = .error f → f.isCancellation = false) :
    muted x = .ok () := by
  cases x with
  | ok a => rfl
  | error f =>
    have hf := h f rfl
    cases f with
    | cancelled text => cases hf
    | _ => rfl

/-- The modem tool and the handlers of an application: which events have a handler in which state, what
a call may come to, and the state that it leaves. -/
structure Handlers (κ σ : Type) where
  registered : σ → EventName → Prop
  modem : σ → String → List String → Except Fault Value → σ → Prop
  request : σ → Request κ → Except Fault Returned → σ → Prop
  notice : σ → Notice κ → Except Fault Returned → σ → Prop
  callback : σ → κ → Outbound κ → TransmitResult → Except Fault Returned → σ → Prop

namespace Handlers

/-- The surroundings that handlers make up. -/
def surroundings (H : Handlers κ σ) : Surroundings κ σ where
  modem := H.modem
  request s r answer s' :=
    (H.registered s r.event ∧ H.request s r answer s') ∨
    (¬H.registered s r.event ∧ answer = .error (.noListener r.event.text) ∧ s' = s)
  notify s n answer s' :=
    (H.registered s n.event ∧ ∃ x, H.notice s n x s' ∧ answer = muted x) ∨
    (¬H.registered s n.event ∧ answer = .ok () ∧ s' = s)
  callback s k m t answer s' := ∃ x, H.callback s k m t x s' ∧ answer = muted x

/-- Neither the modem tool nor a handler comes to a cancellation. All other failures are possible. -/
structure Uncancelled (H : Handlers κ σ) : Prop where
  modem {s s' c a f} : H.modem s c a (.error f) s' → f.isCancellation = false
  request {s s' r f} : H.request s r (.error f) s' → f.isCancellation = false
  notice {s s' n f} : H.notice s n (.error f) s' → f.isCancellation = false
  callback {s s' k m t f} : H.callback s k m t (.error f) s' → f.isCancellation = false

/-- The modem tool and the handlers come to something whenever they are called. -/
structure Responsive (H : Handlers κ σ) : Prop where
  modem s c a : ∃ output s', H.modem s c a output s'
  request s r : ∃ x s', H.request s r x s'
  notice s n : ∃ x s', H.notice s n x s'
  callback s k m t : ∃ x s', H.callback s k m t x s'

end Handlers

/-- There is an answer to every question. -/
structure Surroundings.Responsive (E : Surroundings κ σ) : Prop where
  modem s c a : ∃ output s', E.modem s c a output s'
  request s r : ∃ answer s', E.request s r answer s'
  notify s n : ∃ answer s', E.notify s n answer s'
  callback s k m t : ∃ answer s', E.callback s k m t answer s'

variable {H : Handlers κ σ}

/-- No failure of a handler cancels what the gateway does. -/
theorem Handlers.Uncancelled.contained (h : H.Uncancelled) : H.surroundings.Contained where
  modem hs := h.modem hs
  request hs := by
    rcases hs with ⟨-, hs⟩ | ⟨-, heq, -⟩
    · exact h.request hs
    · cases heq
      rfl
  notify hs := by
    rcases hs with ⟨-, x, hs, rfl⟩ | ⟨-, heq, -⟩
    · refine muted_of_not_cancelled fun f hf => ?_
      subst hf
      exact h.notice hs
    · exact heq
  callback hs := by
    obtain ⟨x, hs, rfl⟩ := hs
    refine muted_of_not_cancelled fun f hf => ?_
    subst hf
    exact h.callback hs

theorem Handlers.Responsive.surroundings (h : H.Responsive) : H.surroundings.Responsive where
  modem := h.modem
  request s r := by
    by_cases hr : H.registered s r.event
    · obtain ⟨x, s', hx⟩ := h.request s r
      exact ⟨x, s', .inl ⟨hr, hx⟩⟩
    · exact ⟨_, s, .inr ⟨hr, rfl, rfl⟩⟩
  notify s n := by
    by_cases hn : H.registered s n.event
    · obtain ⟨x, s', hx⟩ := h.notice s n
      exact ⟨_, s', .inl ⟨hn, x, hx, rfl⟩⟩
    · exact ⟨_, s, .inr ⟨hn, rfl, rfl⟩⟩
  callback s k m t := by
    obtain ⟨x, s', hx⟩ := h.callback s k m t
    exact ⟨_, s', x, hx, rfl⟩

/-- Every question can be answered, with no attempt to send meanwhile. -/
theorem Surroundings.Responsive.answers {E : Surroundings κ σ} (hE : E.Responsive) (w : World κ σ) (q : Ask κ) :
    ∃ r w', World.Answers E w q r w' := by
  cases q with
  | queues => exact ⟨_, _, rfl, rfl⟩
  | update f => exact ⟨(), _, rfl⟩
  | log e => exact ⟨(), _, rfl⟩
  | modem command arguments =>
    obtain ⟨output, s, hs⟩ := hE.modem w.outside command arguments
    exact ⟨output, _, [], s, hs, rfl⟩
  | request t =>
    obtain ⟨answer, s, hs⟩ := hE.request w.outside t
    exact ⟨answer, _, [], s, hs, rfl⟩
  | notify n =>
    obtain ⟨answer, s, hs⟩ := hE.notify w.outside n
    exact ⟨answer, _, [], s, hs, rfl⟩
  | callback k m t =>
    obtain ⟨answer, s, hs⟩ := hE.callback w.outside k m t
    exact ⟨answer, _, [], s, hs, rfl⟩

/-- Where every question has an answer, every phase comes to an end. -/
theorem Surroundings.Responsive.runs {E : Surroundings κ σ} (hE : E.Responsive) {α : Type} (p : Phase κ α)
    (w : World κ σ) : ∃ r w', p.Runs E w r w' :=
  Flow.exists_runs (S := signature κ) hE.answers p.run w

end Gateway

/-- In a session the gateway hears no more than that of a handler that it only gives notice: what the call has handed
back can be awaited or not. -/
theorem Session.Work.runs_fire {W : Type} {answers : W → (q : Ask) → q.Answer → W → Prop} {event : String}
    {c : Callable} {call : Call} {a : Except Cancellation Unit} {s s' : W}
    (h : Flow.Runs (S := signature) answers (fire event c call) s a s') :
    ∃ x v, Flow.Runs (S := signature) answers (Work.call c call) s x v ∧ a = Gateway.muted (x.map Given.returned) := by
  obtain ⟨x, v, hx, hrest⟩ := Flow.runs_bind.mp h
  refine ⟨x, v, hx, ?_⟩
  split at hrest
  · exact hrest.1
  · obtain ⟨_, u, -, heq, -⟩ := Flow.runs_bind.mp hrest
    exact heq
  · exact hrest.1
  · rename_i f hf
    obtain ⟨_, u, -, heq, -⟩ := Flow.runs_bind.mp hrest
    rw [heq, Except.map, Gateway.muted]
    exact hf

end SmsRelay
