-- SUMMARY: Phases do the same with other callbacks in the place of callbacks.
import SmsRelay.Proofs.Isolation

/-!
# Phases and the type of callbacks

A phase passes callbacks on and does nothing else with them. If every callback
is replaced by another, the phase asks the same questions in the same order,
with the replacements in them, and comes to the same end.
-/

namespace SmsRelay

variable {κ κ' : Type}

def Supplied.map (φ : κ → κ') : Supplied κ → Supplied κ'
  | value v => .value v
  | callable k => .callable (φ k)

def Outbound.map (φ : κ → κ') (m : Outbound κ) : Outbound κ' where
  destination := m.destination
  text := m.text
  context := m.context.map φ
  callback := m.callback.map φ

namespace Outbound

variable {φ : κ → κ'}

theorem attachments_map (context callback : Supplied κ) : attachments (context.map φ) (callback.map φ) =
    (attachments context callback).map fun x => (x.1.map φ, x.2.map φ) := by
  cases context with
  | callable k => cases callback with
    | callable k' => rfl
    | value v => cases v <;> rfl
  | value u => cases callback with
    | callable k => rfl
    | value v => cases v <;> rfl

theorem ofArguments_map (destination text : Value) (context callback : Supplied κ) :
    ofArguments destination text (context.map φ) (callback.map φ) =
      (ofArguments destination text context callback).map (map φ) := by
  unfold ofArguments
  rw [attachments_map]
  cases attachments context callback with
  | error f => rfl
  | ok x =>
    cases requireText .badDestination destination with
    | error f => rfl
    | ok d => cases requireText .badText text <;> rfl

end Outbound

namespace Gateway

open Phase

variable {α β : Type} {φ : κ → κ'}

def Queues.map (φ : κ → κ') (q : Queues κ) : Queues κ' where
  outbound := q.outbound.map (Outbound.map φ)
  inbound := q.inbound
  deletion := q.deletion

def Request.map (φ : κ → κ') : Request κ → Request κ'
  | transmit m r => .transmit (m.map φ) r
  | receive m => .receive m
  | receiveSegment m => .receiveSegment m
  | returnSegments key => .returnSegments key

def Notice.map (φ : κ → κ') : Notice κ → Notice κ'
  | deleted c => .deleted c
  | receiveError about f => .receiveError about f
  | transmitError m f => .transmitError (m.map φ) f

theorem enqueueOutbound_map (m : Outbound κ) (q : Queues κ) :
    enqueueOutbound (m.map φ) (q.map φ) = (enqueueOutbound m q).map φ := by
  simp [enqueueOutbound, Queues.map]

/-! ## The same questions -/

/-- The second flow asks what the first one does, with other callbacks. -/
inductive SameQuestions (φ : κ → κ') : Flow (signature κ) α → Flow (signature κ') α → Prop
  | done (a : α) : SameQuestions φ (.done a) (.done a)
  | queues {next : Queues κ → Flow (signature κ) α} {next' : Queues κ' → Flow (signature κ') α} :
      (∀ q, SameQuestions φ (next q) (next' (q.map φ))) → SameQuestions φ (.ask .queues next) (.ask .queues next')
  | update {f : Queues κ → Queues κ} {f' : Queues κ' → Queues κ'} {next : Unit → Flow (signature κ) α}
      {next' : Unit → Flow (signature κ') α} : (∀ q, f' (q.map φ) = (f q).map φ) →
      SameQuestions φ (next ()) (next' ()) → SameQuestions φ (.ask (.update f) next) (.ask (.update f') next')
  | modem (command : String) (arguments : List String) {next : Except Fault Value → Flow (signature κ) α}
      {next' : Except Fault Value → Flow (signature κ') α} : (∀ output, SameQuestions φ (next output) (next' output)) →
      SameQuestions φ (.ask (.modem command arguments) next) (.ask (.modem command arguments) next')
  | request (r : Request κ) {next : Except Fault Returned → Flow (signature κ) α}
      {next' : Except Fault Returned → Flow (signature κ') α} :
      (∀ answer, SameQuestions φ (next answer) (next' answer)) →
      SameQuestions φ (.ask (.request r) next) (.ask (.request (r.map φ)) next')
  | notify (n : Notice κ) {next : Except Cancellation Unit → Flow (signature κ) α}
      {next' : Except Cancellation Unit → Flow (signature κ') α} :
      (∀ answer, SameQuestions φ (next answer) (next' answer)) →
      SameQuestions φ (.ask (.notify n) next) (.ask (.notify (n.map φ)) next')
  | callback (k : κ) (m : Outbound κ) (r : TransmitResult) {next : Except Cancellation Unit → Flow (signature κ) α}
      {next' : Except Cancellation Unit → Flow (signature κ') α} :
      (∀ answer, SameQuestions φ (next answer) (next' answer)) →
      SameQuestions φ (.ask (.callback k m r) next) (.ask (.callback (φ k) (m.map φ) r) next')
  | log (e : Log.Entry) {next : Unit → Flow (signature κ) α} {next' : Unit → Flow (signature κ') α} :
      SameQuestions φ (next ()) (next' ()) → SameQuestions φ (.ask (.log e) next) (.ask (.log e) next')

theorem SameQuestions.bind {p : Flow (signature κ) α} {p' : Flow (signature κ') α} {f : α → Flow (signature κ) β}
    {f' : α → Flow (signature κ') β} (h : SameQuestions φ p p') (hf : ∀ a, SameQuestions φ (f a) (f' a)) :
    SameQuestions φ (p >>= f) (p' >>= f') := by
  induction h with
  | done a => exact hf a
  | queues _ ih => exact .queues ih
  | update hupdate _ ih => exact .update hupdate ih
  | modem command arguments _ ih => exact .modem command arguments ih
  | request r _ ih => exact .request r ih
  | notify n _ ih => exact .notify n ih
  | callback k m r _ ih => exact .callback k m r ih
  | log e _ ih => exact .log e ih

/-- The second phase is the first one with other callbacks. -/
def Natural (φ : κ → κ') (p : Phase κ α) (p' : Phase κ' α) : Prop := SameQuestions φ p.run p'.run

theorem natural_pure (a : α) : Natural φ (pure a : Phase κ α) (pure a) := .done _

theorem Natural.bind {p : Phase κ α} {p' : Phase κ' α} {f : α → Phase κ β} {f' : α → Phase κ' β}
    (h : Natural φ p p') (hf : ∀ a, Natural φ (f a) (f' a)) : Natural φ (p >>= f) (p' >>= f') := by
  refine SameQuestions.bind h fun a => ?_
  cases a with
  | ok a => exact hf a
  | error f => exact .done _

theorem Natural.guarded {p : Phase κ α} {p' : Phase κ' α} (h : Natural φ p p') :
    Natural φ (guarded p) (guarded p') := SameQuestions.bind h fun _ => .done _

theorem Natural.discard {p : Phase κ α} {p' : Phase κ' α} (h : Natural φ p p') :
    Natural φ (discard p) (discard p') := h.bind fun _ => natural_pure _

end Gateway

end SmsRelay
