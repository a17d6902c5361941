-- SUMMARY: Runs of a gateway, and what the phases keep through them.
import SmsRelay.Proofs.Ensures

/-!
# Runs of a gateway

A run is a sequence of messages that the application sends and of phases and
cycles, one after the other.
-/

namespace SmsRelay.Gateway

variable {κ σ : Type}

/-- What a gateway can be made to do, apart from sending a message. -/
inductive Activity where
  | transmit
  | receive
  | deliver
  | delete
  | cycle
  deriving DecidableEq, Repr

def Activity.phase (config : Config) : Activity → Phase κ Unit
  | .transmit => transmitPhase config.transmitBatch
  | .receive => receivePhase
  | .deliver => deliverPhase
  | .delete => deletePhase config.deleteBatch
  | .cycle => discard (runCycle config)

/-- The worlds that a run may lead to. -/
inductive Reaches (E : Surroundings κ σ) (config : Config) (w : World κ σ) : World κ σ → Prop where
  | start : Reaches E config w w
  | send {v : World κ σ} (c : SendCall κ) : Reaches E config w v → Reaches E config w (v.send c)
  | act {v v' : World κ σ} {r : Except Fault Unit} (a : Activity) : Reaches E config w v →
      (a.phase config).Runs E v r v' → Reaches E config w v'

/-- What all phases and all sending keep holds throughout a run. -/
theorem Reaches.keeps {E : Surroundings κ σ} {config : Config} {I : World κ σ → Prop}
    (send : ∀ (c : SendCall κ) v, I v → I (v.send c)) (act : ∀ a : Activity, Phase.Keeps E I (a.phase config))
    {w w' : World κ σ} (h : Reaches E config w w') (hw : I w) : I w' := by
  induction h with
  | start => exact hw
  | send c _ ih => exact send c _ ih
  | @act v v' r a _ hr ih =>
    cases r with
    | ok u => exact (act a v ih).result hr
    | error e => exact (act a v ih).fault hr

/-- The worlds that a run may rest in: no phase is underway, but a cycle may be. -/
inductive Rests (E : Surroundings κ σ) (config : Config) (w : World κ σ) : World κ σ → Prop where
  | idle {v : World κ σ} : Reaches E config w v → Rests E config w v
  /-- The transmission of a cycle has ended. -/
  | transmitted {v u : World κ σ} {t : Option Fault} : Reaches E config w v →
      (runPhase "Transmit" (transmitPhase config.transmitBatch)).Runs E v (.ok t) u → Rests E config w u
  /-- The reception of a cycle has ended. -/
  | received {v u u' : World κ σ} {t r : Option Fault} : Reaches E config w v →
      (runPhase "Transmit" (transmitPhase config.transmitBatch)).Runs E v (.ok t) u →
      (runPhase "Receive" receivePhase).Runs E u (.ok r) u' → Rests E config w u'

/-- What all phases and all sending keep, and writing to the log, holds whenever a run rests. -/
theorem Rests.keeps {E : Surroundings κ σ} {config : Config} {I : World κ σ → Prop}
    (send : ∀ (c : SendCall κ) v, I v → I (v.send c)) (logged : ∀ e v, I v → I (v.note (.logged e)))
    (act : ∀ a : Activity, Phase.Keeps E I (a.phase config)) {w w' : World κ σ} (h : Rests E config w w')
    (hw : I w) : I w' := by
  have guarded : ∀ {name p v t u}, Phase.Keeps E I p → I v → (runPhase name p).Runs E v (.ok t) u → I u :=
    fun hp hv hr => ((hp _ hv).runPhase logged).result hr
  cases h with
  | idle h => exact h.keeps send act hw
  | transmitted h ht => exact guarded (act .transmit) (h.keeps send act hw) ht
  | received h ht hr => exact guarded (act .receive) (guarded (act .transmit) (h.keeps send act hw) ht) hr

end SmsRelay.Gateway
