-- SUMMARY: When two applications agree: they do the same but for those whom nobody waits for.
import SmsRelay.Proofs.Bystanders
import Mathlib.Data.List.Forall2

/-!
# Agreement

Scripts, offers and replies of the modem tool that do the same, each in a
session of its own, but that others are notified and called back. Those whom
nobody waits for may be missing on one side, or be others altogether, as long as
they only answer.
-/

namespace SmsRelay.Session

open Gateway

/-! ## Messages -/

/-- A context and a callback are offered with a message. The callback only answers, if there is one; it may stand in
the place of the context. The third is the context that the message gets. -/
inductive Attaches : Offer → Offer → Offer → Prop
  | neither (v : Value) : Attaches (.value v) (.value .null) (.value v)
  | alone {script : Script} : script.Mute → Attaches (.script script) (.value .null) (.value .null)
  | both (context : Offer) {script : Script} : script.Mute → Attaches context (.script script) context

/-- What is offered with a message on either side: it gets the same context, with whatever callbacks, or is refused for
what is offered as its callback. -/
inductive Attachments.Agree : Offer → Offer → Offer → Offer → Prop
  | attached {context₁ callback₁ context₂ callback₂ context : Offer} : Attaches context₁ callback₁ context →
      Attaches context₂ callback₂ context → Agree context₁ callback₁ context₂ callback₂
  | refused (context : Offer) {v : Value} : v ≠ .null → Agree context (.value v) context (.value v)

theorem Attachments.Agree.symm {context₁ callback₁ context₂ callback₂ : Offer}
    (h : Attachments.Agree context₁ callback₁ context₂ callback₂) :
    Attachments.Agree context₂ callback₂ context₁ callback₁ := by
  cases h with
  | attached h₁ h₂ => exact .attached h₂ h₁
  | refused hv => exact .refused _ hv

/-- Messages that the application sends while the modem tool runs. -/
structure Sending.Agrees (m₁ m₂ : Sending) : Prop where
  destination : m₁.destination = m₂.destination
  text : m₁.text = m₂.text
  attachments : Attachments.Agree m₁.context m₁.callback m₂.context m₂.callback

theorem Sending.Agrees.symm {m₁ m₂ : Sending} (h : m₁.Agrees m₂) : m₂.Agrees m₁ :=
  ⟨h.destination.symm, h.text.symm, h.attachments.symm⟩

/-- The modem tool does the same. -/
structure Reply.Agrees (r₁ r₂ : Reply) : Prop where
  sending : List.Forall₂ Sending.Agrees r₁.sending r₂.sending
  delay : r₁.delay = r₂.delay
  outcome : r₁.outcome = r₂.outcome

theorem Reply.Agrees.symm {r₁ r₂ : Reply} (h : r₁.Agrees r₂) : r₂.Agrees r₁ :=
  ⟨(h.sending.imp fun _ _ hm => hm.symm).flip, h.delay.symm, h.outcome.symm⟩

/-- The modem tool does the same again and again, whichever command it is given. -/
def Replies.Agree : List (String × List Reply) → List (String × List Reply) → Prop :=
  List.Forall₂ fun x y => x.1 = y.1 ∧ List.Forall₂ Reply.Agrees x.2 y.2

theorem Replies.Agree.symm {replies₁ replies₂ : List (String × List Reply)} (h : Replies.Agree replies₁ replies₂) :
    Replies.Agree replies₂ replies₁ :=
  (List.Forall₂.imp (fun _ _ hr => ⟨hr.1.symm, (hr.2.imp fun _ _ hr => hr.symm).flip⟩) h).flip

/-! ## Scripts -/

/-- The act offers no handler or callback, and leaves nothing for later. -/
def Act.isPlain : Act → Bool
  | .comply | .fail _ | .give _ _ | .stop | .wait _ => true
  | .defer _ | .send .. | .register _ => false

section

variable (application : Bool)

/-- Handlers of the name may be registered on one stage and not on the other. They hear of an event without being
waited for. While the application takes part it has to hear of erasures, for it keeps parts until then. -/
def isFree (name : String) : Bool := isNotice name && !(application && name == EventName.delete.text)

mutual

/-- The scripts do the same, but that they may offer others to be notified or called back. -/
inductive Script.Agrees : Script → Script → Prop
  | intro {script₁ script₂ : Script} : script₁.mode = script₂.mode → script₁.label = script₂.label →
      (∀ n told, Acts.Agree (script₁.acts n told) (script₂.acts n told)) → Script.Agrees script₁ script₂

inductive Act.Agrees : Act → Act → Prop
  | same {act : Act} : act.isPlain = true → Act.Agrees act act
  | defer {acts₁ acts₂ : List Act} : Acts.Agree acts₁ acts₂ → Act.Agrees (.defer acts₁) (.defer acts₂)
  | send (destination text : Value) {context₁ callback₁ context₂ callback₂ : Offer} :
      Attachments.Agree context₁ callback₁ context₂ callback₂ →
      Act.Agrees (.send destination text context₁ callback₁) (.send destination text context₂ callback₂)
  | register {offers₁ offers₂ : List (String × Offer)} : Offers.Agree offers₁ offers₂ →
      Act.Agrees (.register offers₁) (.register offers₂)

inductive Acts.Agree : List Act → List Act → Prop
  | nil : Acts.Agree [] []
  | cons {act₁ act₂ : Act} {rest₁ rest₂ : List Act} : Act.Agrees act₁ act₂ → Acts.Agree rest₁ rest₂ →
      Acts.Agree (act₁ :: rest₁) (act₂ :: rest₂)

/-- What is offered under a name is the same value, or scripts that agree, or what is only to be notified. -/
inductive Offer.Agrees : String → Offer → Offer → Prop
  | value (name : String) (v : Value) : Offer.Agrees name (.value v) (.value v)
  | script {name : String} {script₁ script₂ : Script} : isNotice name = false → Script.Agrees script₁ script₂ →
      Offer.Agrees name (.script script₁) (.script script₂)
  | notice {name : String} {script₁ script₂ : Script} : isNotice name = true → script₁.Mute → script₂.Mute →
      Offer.Agrees name (.script script₁) (.script script₂)

/-- The offers agree in their order, but that some are missing that are only to be notified. -/
inductive Offers.Agree : List (String × Offer) → List (String × Offer) → Prop
  | nil : Offers.Agree [] []
  | cons {name : String} {offer₁ offer₂ : Offer} {rest₁ rest₂ : List (String × Offer)} :
      Offer.Agrees name offer₁ offer₂ → Offers.Agree rest₁ rest₂ →
      Offers.Agree ((name, offer₁) :: rest₁) ((name, offer₂) :: rest₂)
  | first {name : String} {script : Script} {rest₁ rest₂ : List (String × Offer)} : isFree application name = true →
      script.Mute → Offers.Agree rest₁ rest₂ → Offers.Agree ((name, .script script) :: rest₁) rest₂
  | second {name : String} {script : Script} {rest₁ rest₂ : List (String × Offer)} : isFree application name = true →
      script.Mute → Offers.Agree rest₁ rest₂ → Offers.Agree rest₁ ((name, .script script) :: rest₂)

end

end

section

variable {application : Bool}

mutual

theorem Script.Agrees.symm : ∀ {script₁ script₂ : Script}, script₁.Agrees application script₂ →
    script₂.Agrees application script₁
  | _, _, .intro hmode hlabel hacts => .intro hmode.symm hlabel.symm fun n told => (hacts n told).symm

theorem Act.Agrees.symm : ∀ {act₁ act₂ : Act}, Act.Agrees application act₁ act₂ → Act.Agrees application act₂ act₁
  | _, _, .same h => .same h
  | _, _, .defer h => .defer h.symm
  | _, _, .send destination text h => .send destination text h.symm
  | _, _, .register h => .register h.symm

theorem Acts.Agree.symm : ∀ {acts₁ acts₂ : List Act}, Acts.Agree application acts₁ acts₂ →
    Acts.Agree application acts₂ acts₁
  | _, _, .nil => .nil
  | _, _, .cons h hrest => .cons h.symm hrest.symm

theorem Offer.Agrees.symm : ∀ {name : String} {offer₁ offer₂ : Offer}, Offer.Agrees application name offer₁ offer₂ →
    Offer.Agrees application name offer₂ offer₁
  | _, _, _, .value name v => .value name v
  | _, _, _, .script hname h => .script hname h.symm
  | _, _, _, .notice hname h₁ h₂ => .notice hname h₂ h₁

theorem Offers.Agree.symm : ∀ {offers₁ offers₂ : List (String × Offer)}, Offers.Agree application offers₁ offers₂ →
    Offers.Agree application offers₂ offers₁
  | _, _, .nil => .nil
  | _, _, .cons h hrest => .cons h.symm hrest.symm
  | _, _, .first hname h hrest => .second hname h hrest.symm
  | _, _, .second hname h hrest => .first hname h hrest.symm

end

end

theorem isNotice_of_isFree {application : Bool} {name : String} (h : isFree application name = true) :
    isNotice name = true := (Bool.and_eq_true_iff.mp h).1

theorem isAwaited_of_isNotice {name : String} (h : isNotice name = true) : isAwaited name = false := by
  unfold isNotice at h
  unfold isAwaited
  cases hname : EventName.ofText? name with
  | none => rfl
  | some e => simpa [hname] using h

end SmsRelay.Session
