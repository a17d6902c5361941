-- SUMMARY: Surroundings of phases: the world with its history, and the relation that answers their questions.
import SmsRelay.Gateway.Cycle
import SmsRelay.Proofs.Execution

/-!
# The world around the phases

Who answers the questions of a phase. The queues belong to the gateway and are
read and changed at once. All else is up to the surroundings: the modem tool,
the handlers, the callbacks. While they are at work the application may send
messages, and so the outbound queue may grow before each of their answers. What
has been answered goes down in a history.
-/

namespace SmsRelay.Gateway

variable {κ σ : Type}

/-- An attempt of the application to send a message. -/
structure SendCall (κ : Type) where
  destination : Value
  text : Value
  context : Supplied κ := .nothing
  callback : Supplied κ := .nothing

/-- The message that the attempt leads to, unless it is refused. -/
def SendCall.message (c : SendCall κ) : Except Fault (Outbound κ) :=
  Outbound.ofArguments c.destination c.text c.context c.callback

/-- Something that has happened to a gateway. -/
inductive Occurrence (κ : Type) where
  /-- A message was accepted for sending. -/
  | accepted (m : Outbound κ)
  /-- The modem tool has run. `found` are the queues at that moment. -/
  | modem (found : Queues κ) (command : String) (arguments : List String) (output : Except Fault Value)
  | request (r : Request κ) (answer : Except Fault Returned)
  | notice (n : Notice κ)
  | callback (k : κ) (m : Outbound κ) (r : TransmitResult)
  | logged (e : Log.Entry)

/-- The occurrence may come of the question: the question has been answered, or meanwhile a message has been
accepted. -/
def Occurrence.ComesOf (q : Ask κ) : Occurrence κ → Prop
  | accepted _ => True
  | modem _ command arguments _ => q = .modem command arguments
  | request r _ => q = .request r
  | notice n => q = .notify n
  | callback k m r => q = .callback k m r
  | logged e => q = .log e

/-- A gateway and what is around it. -/
structure World (κ σ : Type) where
  queues : Queues κ := {}
  /-- The state of the surroundings. -/
  outside : σ
  /-- What has happened, the latest first. -/
  history : List (Occurrence κ) := []

/-- Which answers the surroundings may give in which state, and in which state that leaves them. -/
structure Surroundings (κ σ : Type) where
  modem : σ → String → List String → Except Fault Value → σ → Prop
  request : σ → Request κ → Except Fault Returned → σ → Prop
  notify : σ → Notice κ → Except Cancellation Unit → σ → Prop
  callback : σ → κ → Outbound κ → TransmitResult → Except Cancellation Unit → σ → Prop

/-- Nothing in the surroundings cancels what the gateway does. -/
structure Surroundings.Contained (E : Surroundings κ σ) : Prop where
  modem {s s' c a f} : E.modem s c a (.error f) s' → f.isCancellation = false
  request {s s' r f} : E.request s r (.error f) s' → f.isCancellation = false
  notify {s s' n a} : E.notify s n a s' → a = .ok ()
  callback {s s' k m t a} : E.callback s k m t a s' → a = .ok ()

/-- Surroundings in which anything may happen but a cancellation: the modem tool and the handlers of
requests give any answer or fail, and those that are only given notice return. -/
def Surroundings.free : Surroundings κ Unit where
  modem _ _ _ output _ := ∀ f, output = .error f → f.isCancellation = false
  request _ _ answer _ := ∀ f, answer = .error f → f.isCancellation = false
  notify _ _ answer _ := answer = .ok ()
  callback _ _ _ _ answer _ := answer = .ok ()

theorem Surroundings.contained_free : (Surroundings.free (κ := κ)).Contained where
  modem h := h _ rfl
  request h := h _ rfl
  notify h := h
  callback h := h

namespace World

/-! ## Sending -/

/-- Carry out an attempt to send a message. One that is refused changes nothing. -/
def send (c : SendCall κ) (w : World κ σ) : World κ σ :=
  match c.message with
  | .ok m => { w with queues := enqueueOutbound m w.queues, history := .accepted m :: w.history }
  | .error _ => w

/-- Carry out attempts in order. -/
def sendAll (cs : List (SendCall κ)) (w : World κ σ) : World κ σ :=
  cs.foldl (fun w c => w.send c) w

@[simp] theorem sendAll_nil (w : World κ σ) : w.sendAll [] = w := rfl

@[simp] theorem sendAll_cons (c : SendCall κ) (cs : List (SendCall κ)) (w : World κ σ) :
    w.sendAll (c :: cs) = (w.send c).sendAll cs := rfl

/-- What no sending destroys holds after any number of attempts if it holds before. -/
theorem sendAll_keeps {I : World κ σ → Prop} (hI : ∀ (c : SendCall κ) w, I w → I (w.send c))
    (cs : List (SendCall κ)) {w : World κ σ} (hw : I w) : I (w.sendAll cs) := by
  induction cs generalizing w with
  | nil => exact hw
  | cons c cs ih => exact ih (hI c w hw)

@[simp] theorem outside_send (c : SendCall κ) (w : World κ σ) : (w.send c).outside = w.outside := by
  unfold send
  split <;> rfl

@[simp] theorem inbound_send (c : SendCall κ) (w : World κ σ) :
    (w.send c).queues.inbound = w.queues.inbound := by
  unfold send
  split <;> rfl

@[simp] theorem deletion_send (c : SendCall κ) (w : World κ σ) :
    (w.send c).queues.deletion = w.queues.deletion := by
  unfold send
  split <;> rfl

@[simp] theorem inbound_sendAll (cs : List (SendCall κ)) (w : World κ σ) :
    (w.sendAll cs).queues.inbound = w.queues.inbound :=
  sendAll_keeps (I := fun v => v.queues.inbound = w.queues.inbound) (fun c v h => by simpa using h) cs rfl

@[simp] theorem deletion_sendAll (cs : List (SendCall κ)) (w : World κ σ) :
    (w.sendAll cs).queues.deletion = w.queues.deletion :=
  sendAll_keeps (I := fun v => v.queues.deletion = w.queues.deletion) (fun c v h => by simpa using h) cs rfl

theorem outside_sendAll (cs : List (SendCall κ)) (w : World κ σ) : (w.sendAll cs).outside = w.outside :=
  sendAll_keeps (I := fun v => v.outside = w.outside) (fun c v h => by simpa using h) cs rfl

/-- Attempts to send add the messages of those that are accepted to the queue. -/
theorem outbound_sendAll (cs : List (SendCall κ)) (w : World κ σ) :
    (w.sendAll cs).queues.outbound = w.queues.outbound ++ cs.filterMap fun c => c.message.toOption := by
  induction cs generalizing w with
  | nil => simp
  | cons c cs ih =>
    rw [sendAll_cons, ih]
    unfold send
    cases hc : c.message <;> simp [hc, enqueueOutbound, Except.toOption]

/-- Nothing else happens while messages are sent. -/
theorem mem_history_sendAll {cs : List (SendCall κ)} {w : World κ σ} {o : Occurrence κ}
    (h : o ∈ (w.sendAll cs).history) : o ∈ w.history ∨ ∃ m, o = .accepted m := by
  refine sendAll_keeps (I := fun v => o ∈ v.history → o ∈ w.history ∨ ∃ m, o = .accepted m) ?_ cs .inl h
  intro c v hv
  unfold send
  cases c.message with
  | error f => exact hv
  | ok m =>
    intro ho
    rcases List.mem_cons.mp ho with rfl | ho
    · exact .inr ⟨m, rfl⟩
    · exact hv ho

/-- What takes no notice of accepted messages finds the same in the history after attempts to send. -/
theorem filterMap_sendAll {β : Type} {f : Occurrence κ → Option β} (hf : ∀ m, f (.accepted m) = none)
    (cs : List (SendCall κ)) (w : World κ σ) : (w.sendAll cs).history.filterMap f = w.history.filterMap f := by
  refine sendAll_keeps (I := fun v => v.history.filterMap f = w.history.filterMap f) ?_ cs rfl
  intro c v hv
  unfold send
  split
  · exact (List.filterMap_cons_none (hf _)).trans hv
  · exact hv

/-! ## Answers -/

/-- Note what has happened. -/
def note (o : Occurrence κ) (w : World κ σ) : World κ σ := { w with history := o :: w.history }

/-- Change the queues. -/
def update (f : Queues κ → Queues κ) (w : World κ σ) : World κ σ := { w with queues := f w.queues }

/-- The surroundings have answered, after some attempts to send: they are in the state `s` now, and
something has happened. -/
def answered (cs : List (SendCall κ)) (s : σ) (o : Queues κ → Occurrence κ) (w : World κ σ) :
    World κ σ :=
  { (w.sendAll cs).note (o (w.sendAll cs).queues) with outside := s }

/-- Whether a question may be answered so, and whether the world is `w'` then. -/
def Answers (E : Surroundings κ σ) (w : World κ σ) : (q : Ask κ) → q.Answer → World κ σ → Prop
  | .queues, q, w' => q = w.queues ∧ w' = w
  | .update f, _, w' => w' = w.update f
  | .log e, _, w' => w' = w.note (.logged e)
  | .modem command arguments, output, w' => ∃ cs s, E.modem w.outside command arguments output s ∧
      w' = w.answered cs s fun q => .modem q command arguments output
  | .request r, answer, w' => ∃ cs s, E.request w.outside r answer s ∧
      w' = w.answered cs s fun _ => .request r answer
  | .notify n, answer, w' => ∃ cs s, E.notify w.outside n answer s ∧
      w' = w.answered cs s fun _ => .notice n
  | .callback k m r, answer, w' => ∃ cs s, E.callback w.outside k m r answer s ∧
      w' = w.answered cs s fun _ => .callback k m r

section answered

variable (cs : List (SendCall κ)) (s : σ) (o : Queues κ → Occurrence κ) (w : World κ σ)

@[simp] theorem queues_answered : (w.answered cs s o).queues = (w.sendAll cs).queues := rfl

@[simp] theorem outside_answered : (w.answered cs s o).outside = s := rfl

@[simp] theorem history_answered :
    (w.answered cs s o).history = o (w.sendAll cs).queues :: (w.sendAll cs).history := rfl

end answered

@[simp] theorem history_note (o : Occurrence κ) (w : World κ σ) : (w.note o).history = o :: w.history := rfl

@[simp] theorem queues_update (f : Queues κ → Queues κ) (w : World κ σ) :
    (w.update f).queues = f w.queues := rfl

@[simp] theorem outside_update (f : Queues κ → Queues κ) (w : World κ σ) :
    (w.update f).outside = w.outside := rfl

@[simp] theorem history_update (f : Queues κ → Queues κ) (w : World κ σ) :
    (w.update f).history = w.history := rfl

/-! ## What an answer adds -/

section

variable {E : Surroundings κ σ} {w w' : World κ σ} {q : Ask κ} {r : q.Answer}

/-- Each answer adds to the history what comes of the question. -/
theorem history_of_answers (h : Answers E w q r w') :
    ∃ os, w'.history = os ++ w.history ∧ ∀ o ∈ os, o.ComesOf q := by
  have hsends : ∀ cs, ∃ os, (w.sendAll cs).history = os ++ w.history ∧ ∀ o ∈ os, o.ComesOf q := by
    refine fun cs => sendAll_keeps (I := fun v => ∃ os, v.history = os ++ w.history ∧ ∀ o ∈ os, o.ComesOf q) ?_ cs
      ⟨[], rfl, by simp⟩
    intro c v ⟨os, hos, hcome⟩
    unfold send
    split
    · exact ⟨_ :: os, congrArg _ hos, List.forall_mem_cons.mpr ⟨trivial, hcome⟩⟩
    · exact ⟨os, hos, hcome⟩
  have hanswered : ∀ cs s (o : Queues κ → Occurrence κ), (∀ found, (o found).ComesOf q) →
      ∃ os, (w.answered cs s o).history = os ++ w.history ∧ ∀ o ∈ os, o.ComesOf q := by
    intro cs s o ho
    obtain ⟨os, hos, hcome⟩ := hsends cs
    exact ⟨_ :: os, congrArg _ hos, List.forall_mem_cons.mpr ⟨ho _, hcome⟩⟩
  cases q with
  | queues =>
    obtain ⟨-, rfl⟩ := h
    exact ⟨[], rfl, by simp⟩
  | update f =>
    obtain rfl := h
    exact ⟨[], rfl, by simp⟩
  | log e =>
    obtain rfl := h
    exact ⟨[.logged e], rfl, by simp [Occurrence.ComesOf]⟩
  | modem command arguments =>
    obtain ⟨cs, s, -, rfl⟩ := h
    exact hanswered cs s _ fun _ => rfl
  | request t =>
    obtain ⟨cs, s, -, rfl⟩ := h
    exact hanswered cs s _ fun _ => rfl
  | notify n =>
    obtain ⟨cs, s, -, rfl⟩ := h
    exact hanswered cs s _ fun _ => rfl
  | callback k m t =>
    obtain ⟨cs, s, -, rfl⟩ := h
    exact hanswered cs s _ fun _ => rfl

/-- Apart from what the gateway changes itself, only the outbound queue may change. -/
theorem queues_of_answers (h : Answers E w q r w') : (∃ f, q = .update f ∧ w' = w.update f) ∨
    (w'.queues.inbound = w.queues.inbound ∧ w'.queues.deletion = w.queues.deletion) := by
  have hanswered : ∀ cs s (o : Queues κ → Occurrence κ), (w.answered cs s o).queues.inbound = w.queues.inbound ∧
      (w.answered cs s o).queues.deletion = w.queues.deletion :=
    fun cs s o => ⟨inbound_sendAll cs w, deletion_sendAll cs w⟩
  cases q with
  | update f => exact .inl ⟨f, rfl, h⟩
  | queues =>
    obtain ⟨-, rfl⟩ := h
    exact .inr ⟨rfl, rfl⟩
  | log e =>
    obtain rfl := h
    exact .inr ⟨rfl, rfl⟩
  | modem command arguments =>
    obtain ⟨cs, s, -, rfl⟩ := h
    exact .inr (hanswered cs s _)
  | request t =>
    obtain ⟨cs, s, -, rfl⟩ := h
    exact .inr (hanswered cs s _)
  | notify n =>
    obtain ⟨cs, s, -, rfl⟩ := h
    exact .inr (hanswered cs s _)
  | callback k m t =>
    obtain ⟨cs, s, -, rfl⟩ := h
    exact .inr (hanswered cs s _)

end

end World

end SmsRelay.Gateway
