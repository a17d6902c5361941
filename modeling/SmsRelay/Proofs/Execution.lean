-- SUMMARY: Executions of flows over a relation that answers questions, and their rules of composition.
import SmsRelay.Flow

/-!
# Executions of flows

A flow leaves open who answers its questions. Here the answers come from a
relation on states of the world: it says which answers a question may get in a
state, and in which state it leaves the world. An execution answers all
questions of a flow in turn, and so leads from a state and a flow to a result
and a state.
-/

namespace SmsRelay.Flow

variable {S : Signature} {W α β : Type} {answers : W → (q : S.Ask) → S.Answer q → W → Prop}

/-- The flow may lead from the state `w` to the result `b` in the state `w'`. -/
def Runs (answers : W → (q : S.Ask) → S.Answer q → W → Prop) : Flow S α → W → α → W → Prop
  | done a, w, b, w' => b = a ∧ w' = w
  | ask q next, w, b, w' => ∃ r v, answers w q r v ∧ Runs answers (next r) v b w'

@[simp] theorem runs_ask {q : S.Ask} {next : S.Answer q → Flow S α} {b : α} {w w' : W} :
    Runs answers (ask q next) w b w' ↔ ∃ r v, answers w q r v ∧ Runs answers (next r) v b w' := Iff.rfl

@[simp] theorem runs_query {q : S.Ask} {r : S.Answer q} {w w' : W} :
    Runs answers (query q) w r w' ↔ answers w q r w' := by
  constructor
  · intro ⟨r', v, h, heq, heq'⟩
    subst heq
    subst heq'
    exact h
  · intro h
    exact ⟨r, w', h, rfl, rfl⟩

/-- Of two flows in a row the second starts where the first ends. -/
theorem runs_bind {p : Flow S α} {f : α → Flow S β} {b : β} {w w' : W} :
    Runs answers (bind p f) w b w' ↔ ∃ a v, Runs answers p w a v ∧ Runs answers (f a) v b w' := by
  induction p generalizing w with
  | done a =>
    constructor
    · intro h
      exact ⟨a, w, ⟨rfl, rfl⟩, h⟩
    · intro ⟨_, _, ⟨heq, heq'⟩, h⟩
      subst heq
      subst heq'
      exact h
  | ask q next ih =>
    simp only [ask_bind, runs_ask, ih]
    constructor
    · intro ⟨r, u, h, a, v, hp, hf⟩
      exact ⟨a, v, ⟨r, u, h, hp⟩, hf⟩
    · intro ⟨a, v, ⟨r, u, h, hp⟩, hf⟩
      exact ⟨r, u, h, a, v, hp, hf⟩

/-- A flow whose result is converted runs as the flow does. -/
theorem runs_map {p : Flow S α} {f : α → β} {b : β} {w w' : W} :
    Runs answers (f <$> p) w b w' ↔ ∃ a, b = f a ∧ Runs answers p w a w' := by
  have h : f <$> p = bind p fun a => done (f a) := rfl
  rw [h, runs_bind]
  constructor
  · intro ⟨a, v, hp, heq, heq'⟩
    subst heq
    subst heq'
    exact ⟨a, rfl, hp⟩
  · intro ⟨a, heq, hp⟩
    subst heq
    exact ⟨a, w', hp, rfl, rfl⟩

/-- To answer each question in a way that is allowed is to execute the flow. -/
theorem runs_interpret {answer : (q : S.Ask) → StateM W (S.Answer q)}
    (h : ∀ q w, answers w q (answer q w).1 (answer q w).2) (p : Flow S α) (w : W) :
    Runs answers p w (interpret answer p w).1 (interpret answer p w).2 := by
  induction p generalizing w with
  | done a => exact ⟨rfl, rfl⟩
  | ask q next ih => exact ⟨(answer q w).1, (answer q w).2, h q w, ih (answer q w).1 (answer q w).2⟩

/-- If every question has an answer, every flow can be executed. -/
theorem exists_runs (h : ∀ w q, ∃ r w', answers w q r w') (p : Flow S α) (w : W) :
    ∃ a w', Runs answers p w a w' := by
  induction p generalizing w with
  | done a => exact ⟨a, w, rfl, rfl⟩
  | ask q next ih =>
    obtain ⟨r, v, hr⟩ := h w q
    obtain ⟨a, w', ha⟩ := ih r v
    exact ⟨a, w', r, v, hr, ha⟩

/-! ## What a flow keeps -/

/-- All questions that the flow may come to ask are among the given ones. -/
def Within (allowed : S.Ask → Prop) : Flow S α → Prop
  | done _ => True
  | ask q next => allowed q ∧ ∀ r, Within allowed (next r)

theorem within_true (p : Flow S α) : p.Within fun _ => True := by
  induction p with
  | done a => trivial
  | ask q next ih => exact ⟨trivial, ih⟩

theorem Within.mono {allowed allowed' : S.Ask → Prop} {p : Flow S α} (hp : p.Within allowed)
    (h : ∀ q, allowed q → allowed' q) : p.Within allowed' := by
  induction p with
  | done a => trivial
  | ask q next ih => exact ⟨h q hp.1, fun r => ih r (hp.2 r)⟩

theorem Within.bind {allowed : S.Ask → Prop} {p : Flow S α} {f : α → Flow S β}
    (hp : p.Within allowed) (hf : ∀ a, (f a).Within allowed) : (p.bind f).Within allowed := by
  induction p with
  | done a => exact hf a
  | ask q next ih => exact ⟨hp.1, fun r => ih r (hp.2 r)⟩

/-- What no answer to the questions of a flow destroys holds after the flow if it holds before. -/
theorem Within.keeps {allowed : S.Ask → Prop} {I : W → Prop} {p : Flow S α} (hp : p.Within allowed)
    (hI : ∀ q, allowed q → ∀ w r w', answers w q r w' → I w → I w')
    {w : W} {a : α} {w' : W} (h : p.Runs answers w a w') (hw : I w) : I w' := by
  induction p generalizing w with
  | done a =>
    obtain ⟨-, rfl⟩ := h
    exact hw
  | ask q next ih =>
    obtain ⟨r, v, hans, hrest⟩ := h
    exact ih r (hp.2 r) hrest (hI q hp.1 w r v hans hw)

/-- If each answer in one world can be matched in another that is related to it, so can a whole execution. -/
theorem Within.matched {V : Type} {answers' : V → (q : S.Ask) → S.Answer q → V → Prop} {R : W → V → Prop}
    {allowed : S.Ask → Prop} {p : Flow S α} (hp : p.Within allowed)
    (hR : ∀ q, allowed q → ∀ w v r w', R w v → answers w q r w' → ∃ v', answers' v q r v' ∧ R w' v')
    {w w' : W} {v : V} {a : α} (hwv : R w v) (h : p.Runs answers w a w') :
    ∃ v', p.Runs answers' v a v' ∧ R w' v' := by
  induction p generalizing w v with
  | done b =>
    obtain ⟨rfl, rfl⟩ := h
    exact ⟨v, ⟨rfl, rfl⟩, hwv⟩
  | ask q next ih =>
    obtain ⟨r, u, hans, hrest⟩ := h
    obtain ⟨u', hans', hu⟩ := hR q hp.1 w v r u hwv hans
    obtain ⟨v', hrest', hv'⟩ := ih r (hp.2 r) hu hrest
    exact ⟨v', ⟨r, u', hans', hrest'⟩, hv'⟩

/-! ## What a flow leads through -/

/-- The flow goes through stages. At the stage `i` the property `I i` holds of the world, whatever else has
changed there; each answer leads on to some stage, and at the end `Q` holds of the stage and the result. -/
def Follows {ι : Type} (answers : W → (q : S.Ask) → S.Answer q → W → Prop) (I : ι → W → Prop) (Q : ι → α → Prop) :
    Flow S α → ι → Prop
  | done a, i => Q i a
  | ask q next, i => ∀ w r w', I i w → answers w q r w' → ∃ j, I j w' ∧ Follows answers I Q (next r) j

section

variable {ι : Type} {I : ι → W → Prop} {Q : ι → α → Prop} {Q' : ι → β → Prop} {i : ι}

theorem Follows.bind {p : Flow S α} {f : α → Flow S β} (hp : p.Follows answers I Q i)
    (hf : ∀ j a, Q j a → (f a).Follows answers I Q' j) : (p.bind f).Follows answers I Q' i := by
  induction p generalizing i with
  | done a => exact hf i a hp
  | ask q next ih =>
    intro w r w' hw h
    obtain ⟨j, hj, hnext⟩ := hp w r w' hw h
    exact ⟨j, hj, ih r hnext⟩

/-- Answers that others prepare lead through the same stages, if each stage lasts until the answer is there. -/
theorem Follows.of_answers {answers' : W → (q : S.Ask) → S.Answer q → W → Prop} {p : Flow S α}
    (hp : p.Follows answers I Q i)
    (h : ∀ i w q r w', I i w → answers' w q r w' → ∃ v, I i v ∧ answers v q r w') : p.Follows answers' I Q i := by
  induction p generalizing i with
  | done a => exact hp
  | ask q next ih =>
    intro w r w' hw hans
    obtain ⟨v, hv, hans⟩ := h i w q r w' hw hans
    obtain ⟨j, hj, hnext⟩ := hp v r w' hv hans
    exact ⟨j, hj, ih r hnext⟩

/-- A whole execution leads from one stage to another. -/
theorem Follows.runs {p : Flow S α} (hp : p.Follows answers I Q i) {w : W} (hw : I i w) {a : α} {w' : W}
    (h : p.Runs answers w a w') : ∃ j, I j w' ∧ Q j a := by
  induction p generalizing i w with
  | done b =>
    obtain ⟨rfl, rfl⟩ := h
    exact ⟨i, hw, hp⟩
  | ask q next ih =>
    obtain ⟨r, v, hans, hrest⟩ := h
    obtain ⟨j, hj, hnext⟩ := hp w r v hw hans
    exact ih r hnext hj hrest

end

end SmsRelay.Flow
