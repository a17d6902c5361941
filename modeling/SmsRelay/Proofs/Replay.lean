-- SUMMARY: Surroundings with one answer to each question, under which phases can be computed.
import SmsRelay.Proofs.Laws

/-!
# Replayed runs

Surroundings that leave nothing open: one answer to each question in each
state. Under them a phase can be run like a program. If each of their answers
is among those that other surroundings may give, what comes out is a run under
those as well.
-/

namespace SmsRelay.Gateway

variable {κ σ : Type} {α : Type}

/-- One answer to each question, the attempts to send while it is awaited, and the state that it leaves
the surroundings in. -/
structure Replies (κ σ : Type) where
  modem : σ → String → List String → Except Fault Value × List (SendCall κ) × σ
  request : σ → Request κ → Except Fault Returned × List (SendCall κ) × σ
  notify : σ → Notice κ → List (SendCall κ) × σ := fun s _ => ([], s)
  callback : σ → κ → Outbound κ → TransmitResult → List (SendCall κ) × σ := fun s _ _ _ => ([], s)

namespace Replies

/-- Every answer is one that the surroundings may give. -/
structure Allowed (E : Surroundings κ σ) (R : Replies κ σ) : Prop where
  modem s command arguments : E.modem s command arguments (R.modem s command arguments).1
    (R.modem s command arguments).2.2
  request s r : E.request s r (R.request s r).1 (R.request s r).2.2
  notify s n : E.notify s n (.ok ()) (R.notify s n).2
  callback s k m t : E.callback s k m t (.ok ()) (R.callback s k m t).2

/-- Answer a question. -/
def answer (R : Replies κ σ) : (q : Ask κ) → StateM (World κ σ) q.Answer
  | .queues, w => (w.queues, w)
  | .update f, w => ((), w.update f)
  | .log e, w => ((), w.note (.logged e))
  | .modem command arguments, w =>
    let (output, cs, s) := R.modem w.outside command arguments
    (output, w.answered cs s fun q => .modem q command arguments output)
  | .request r, w =>
    let (answer, cs, s) := R.request w.outside r
    (answer, w.answered cs s fun _ => .request r answer)
  | .notify n, w =>
    let (cs, s) := R.notify w.outside n
    (.ok (), w.answered cs s fun _ => .notice n)
  | .callback k m t, w =>
    let (cs, s) := R.callback w.outside k m t
    (.ok (), w.answered cs s fun _ => .callback k m t)

/-- Run a phase. -/
def run (R : Replies κ σ) (p : Phase κ α) (w : World κ σ) : Except Fault α × World κ σ :=
  Flow.interpret (S := signature κ) R.answer p.run w

theorem answers_answer {E : Surroundings κ σ} {R : Replies κ σ} (hR : R.Allowed E) (q : Ask κ) (w : World κ σ) :
    World.Answers E w q (R.answer q w).1 (R.answer q w).2 := by
  cases q with
  | queues => exact ⟨rfl, rfl⟩
  | update f => exact rfl
  | log e => exact rfl
  | modem command arguments => exact ⟨_, _, hR.modem w.outside command arguments, rfl⟩
  | request r => exact ⟨_, _, hR.request w.outside r, rfl⟩
  | notify n => exact ⟨_, _, hR.notify w.outside n, rfl⟩
  | callback k m t => exact ⟨_, _, hR.callback w.outside k m t, rfl⟩

/-- A replayed run is a run. -/
theorem runs_run {E : Surroundings κ σ} {R : Replies κ σ} (hR : R.Allowed E) (p : Phase κ α) (w : World κ σ) :
    p.Runs E w (R.run p w).1 (R.run p w).2 :=
  Flow.runs_interpret (S := signature κ) (answers_answer hR) p.run w

/-! ## Phases in a row -/

section

variable {R : Replies κ σ} {w v : World κ σ} {β : Type}

/-- What follows a part of a flow is replayed from the state that the part leaves. -/
theorem interpret_bind_of_eq {p : Flow (signature κ) α} {f : α → Flow (signature κ) β} {a : α}
    (h : Flow.interpret (m := StateM (World κ σ)) R.answer p w = (a, v)) :
    Flow.interpret (m := StateM (World κ σ)) R.answer (p.bind f) w = Flow.interpret R.answer (f a) v := by
  refine (congrFun (Flow.interpret_bind (S := signature κ) (m := StateM (World κ σ)) R.answer p f) w).trans ?_
  exact congrArg (fun r : α × World κ σ => Flow.interpret (S := signature κ) (m := StateM (World κ σ)) R.answer
    (f r.1) r.2) h

/-- A phase goes on with the result of its first part. -/
theorem run_bind_ok {p : Phase κ α} {f : α → Phase κ β} {a : α} (h : R.run p w = (.ok a, v)) :
    R.run (p >>= f) w = R.run (f a) v := interpret_bind_of_eq h

theorem run_guarded_ok {p : Phase κ α} {a : α} (h : R.run p w = (.ok a, v)) :
    R.run (guarded p) w = (.ok (.ok a), v) := interpret_bind_of_eq h

/-- A phase without a fault, in a cycle. -/
theorem run_runPhase_ok {name : String} {p : Phase κ Unit} (h : R.run p w = (.ok (), v)) :
    R.run (runPhase name p) w = (.ok none, v) := by
  unfold runPhase
  rw [run_bind_ok (run_guarded_ok h)]
  rfl

end

end Replies

end SmsRelay.Gateway
