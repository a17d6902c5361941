-- SUMMARY: Computations that ask questions of their surroundings, their monad laws, and their interpretation in other monads.
/-!
# Flows

A flow is a computation that asks questions of its surroundings and goes on
with the answers. It says what is asked and in which order, and leaves open
who answers, when, and what happens in between. Interpreting a flow answers
its questions in some monad.
-/

namespace SmsRelay

/-- The questions that a flow may ask, and the type of the answer to each. -/
structure Signature where
  Ask : Type
  Answer : Ask → Type

inductive Flow (S : Signature) (α : Type) : Type where
  | done (a : α)
  | ask (q : S.Ask) (next : S.Answer q → Flow S α)

namespace Flow

variable {S : Signature} {α β : Type}

def bind : Flow S α → (α → Flow S β) → Flow S β
  | done a, f => f a
  | ask q next, f => ask q fun r => bind (next r) f

instance : Monad (Flow S) where
  pure := done
  bind := bind

/-- The answer to one question. -/
def query (q : S.Ask) : Flow S (S.Answer q) := ask q done

@[simp] theorem pure_eq (a : α) : (pure a : Flow S α) = done a := rfl

@[simp] theorem bind_eq (p : Flow S α) (f : α → Flow S β) : p >>= f = bind p f := rfl

@[simp] theorem done_bind (a : α) (f : α → Flow S β) : bind (done a) f = f a := rfl

@[simp] theorem ask_bind (q : S.Ask) (next : S.Answer q → Flow S α) (f : α → Flow S β) :
    bind (ask q next) f = ask q fun r => bind (next r) f := rfl

@[simp] theorem bind_done (p : Flow S α) : bind p done = p := by
  induction p with
  | done a => rfl
  | ask q next ih => simp [ih]

theorem bind_assoc (p : Flow S α) (f : α → Flow S β) (g : β → Flow S γ) :
    bind (bind p f) g = bind p fun a => bind (f a) g := by
  induction p with
  | done a => rfl
  | ask q next ih => simp [ih]

instance : LawfulMonad (Flow S) := LawfulMonad.mk' _
  (by intros; exact bind_done _) (by intros; rfl) (by intros; exact bind_assoc _ _ _)

/-- Answer the questions of a flow in a monad. -/
def interpret {m : Type → Type} [Monad m] (answer : (q : S.Ask) → m (S.Answer q)) : Flow S α → m α
  | done a => Pure.pure a
  | ask q next => answer q >>= fun r => interpret answer (next r)

@[simp] theorem interpret_done {m : Type → Type} [Monad m] (answer : (q : S.Ask) → m (S.Answer q)) (a : α) :
    interpret answer (done a) = Pure.pure a := rfl

@[simp] theorem interpret_ask {m : Type → Type} [Monad m] (answer : (q : S.Ask) → m (S.Answer q))
    (q : S.Ask) (next : S.Answer q → Flow S α) :
    interpret answer (ask q next) = answer q >>= fun r => interpret answer (next r) := rfl

/-- A question is answered as it is asked. -/
@[simp] theorem interpret_query {m : Type → Type} [Monad m] [LawfulMonad m]
    (answer : (q : S.Ask) → m (S.Answer q)) (q : S.Ask) : interpret answer (query q) = answer q := by
  simp [query]

/-- Of two flows in a row the second is interpreted after the first. -/
theorem interpret_bind {m : Type → Type} [Monad m] [LawfulMonad m]
    (answer : (q : S.Ask) → m (S.Answer q)) (p : Flow S α) (f : α → Flow S β) :
    interpret answer (bind p f) = interpret answer p >>= fun a => interpret answer (f a) := by
  induction p with
  | done a => simp
  | ask q next ih => simp [ih]

end Flow

end SmsRelay
