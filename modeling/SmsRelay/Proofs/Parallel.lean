-- SUMMARY: Work on stages that are alike, side by side: halts in the same way, and goes on in the same way.
import SmsRelay.Proofs.Counterparts

/-!
# Parallel work

Two pieces of work on stages that are alike, side by side: both halt in the same
way, with the stages alike, and whatever bystanders do meanwhile, what is left
of them goes on side by side as well. Handlers that are counterparts work in
parallel, and so does the gateway, whoever is notified.
-/

namespace SmsRelay.Session

open Gateway

variable {α β γ δ : Type} {application : Bool} {P P' : Pairing} {s₁ s₂ s₁' s₂' : Stage}

/-! ## Side by side -/

/-- Two pieces of work, each on its stage, halt in the same way again and again, each time with the stages alike; while
they are halted the stages may change, but stay alike. At the end `Q` holds of the results. -/
inductive Abreast (application : Bool) (Q : Pairing → α → β → Prop) :
    Pairing → Work α → Stage → Work β → Stage → Prop
  | done {P P' : Pairing} {w₁ : Work α} {w₂ : Work β} {s₁ s₂ s₁' s₂' : Stage} {a : α} {b : β} :
      advance w₁ s₁ = (.done a, s₁') → advance w₂ s₂ = (.done b, s₂') → P.Grows P' → Alike application P' s₁' s₂' →
      Q P' a b → Abreast application Q P w₁ s₁ w₂ s₂
  | pause {P P' : Pairing} {w₁ rest₁ : Work α} {w₂ rest₂ : Work β} {s₁ s₂ s₁' s₂' : Stage} :
      advance w₁ s₁ = (.paused rest₁, s₁') → advance w₂ s₂ = (.paused rest₂, s₂') → P.Grows P' →
      Alike application P' s₁' s₂' →
      (∀ P'' t₁ t₂, P'.Grows P'' → Alike application P'' t₁ t₂ → Abreast application Q P'' rest₁ t₁ rest₂ t₂) →
      Abreast application Q P w₁ s₁ w₂ s₂
  | sleep {P P' : Pairing} {w₁ rest₁ : Work α} {w₂ rest₂ : Work β} {s₁ s₂ s₁' s₂' : Stage} (ms : Nat) :
      advance w₁ s₁ = (.asleep ms rest₁, s₁') → advance w₂ s₂ = (.asleep ms rest₂, s₂') → P.Grows P' →
      Alike application P' s₁' s₂' →
      (∀ P'' t₁ t₂, P'.Grows P'' → Alike application P'' t₁ t₂ → Abreast application Q P'' rest₁ t₁ rest₂ t₂) →
      Abreast application Q P w₁ s₁ w₂ s₂
  | join {P P' : Pairing} {w₁ : Work α} {w₂ : Work β} {rest₁ : Except Fault Unit → Work α}
      {rest₂ : Except Fault Unit → Work β} {s₁ s₂ s₁' s₂' : Stage} :
      advance w₁ s₁ = (.joining rest₁, s₁') → advance w₂ s₂ = (.joining rest₂, s₂') → P.Grows P' →
      Alike application P' s₁' s₂' →
      (∀ outcome P'' t₁ t₂, P'.Grows P'' → Alike application P'' t₁ t₂ →
        Abreast application Q P'' (rest₁ outcome) t₁ (rest₂ outcome) t₂) →
      Abreast application Q P w₁ s₁ w₂ s₂

/-- The work may be taken up wherever the stages are alike. -/
def Parallel (application : Bool) (P : Pairing) (Q : Pairing → α → β → Prop) (w₁ : Work α) (w₂ : Work β) : Prop :=
  ∀ P' s₁ s₂, P.Grows P' → Alike application P' s₁ s₂ → Abreast application Q P' w₁ s₁ w₂ s₂

section

variable {Q : Pairing → α → β → Prop} {Q' : Pairing → γ → δ → Prop} {w₁ w₁' : Work α} {w₂ w₂' : Work β}

theorem Parallel.mono (h : Parallel application P Q w₁ w₂) (hP : P.Grows P') : Parallel application P' Q w₁ w₂ :=
  fun P'' s₁ s₂ hP' hs => h P'' s₁ s₂ (hP.trans hP') hs

/-- Only what comes of the work counts. -/
theorem Abreast.congr (h₁ : advance w₁ s₁ = advance w₁' s₁') (h₂ : advance w₂ s₂ = advance w₂' s₂')
    (h : Abreast application Q P w₁' s₁' w₂' s₂') : Abreast application Q P w₁ s₁ w₂ s₂ := by
  cases h with
  | done h₁' h₂' hP hs hQ => exact .done (h₁.trans h₁') (h₂.trans h₂') hP hs hQ
  | pause h₁' h₂' hP hs hrest => exact .pause (h₁.trans h₁') (h₂.trans h₂') hP hs hrest
  | sleep ms h₁' h₂' hP hs hrest => exact .sleep ms (h₁.trans h₁') (h₂.trans h₂') hP hs hrest
  | join h₁' h₂' hP hs hrest => exact .join (h₁.trans h₁') (h₂.trans h₂') hP hs hrest

/-- What has been made before the work may be forgotten. -/
theorem Abreast.weaken (h : Abreast application Q P' w₁ s₁ w₂ s₂) (hP : P.Grows P') :
    Abreast application Q P w₁ s₁ w₂ s₂ := by
  cases h with
  | done h₁ h₂ hP' hs hQ => exact .done h₁ h₂ (hP.trans hP') hs hQ
  | pause h₁ h₂ hP' hs hrest => exact .pause h₁ h₂ (hP.trans hP') hs hrest
  | sleep ms h₁ h₂ hP' hs hrest => exact .sleep ms h₁ h₂ (hP.trans hP') hs hrest
  | join h₁ h₂ hP' hs hrest => exact .join h₁ h₂ (hP.trans hP') hs hrest

theorem Abreast.imp {R : Pairing → α → β → Prop} (h : Abreast application Q P w₁ s₁ w₂ s₂)
    (hQ : ∀ P a b, Q P a b → R P a b) : Abreast application R P w₁ s₁ w₂ s₂ := by
  induction h with
  | done h₁ h₂ hP hs h => exact .done h₁ h₂ hP hs (hQ _ _ _ h)
  | pause h₁ h₂ hP hs _ ih => exact .pause h₁ h₂ hP hs ih
  | sleep ms h₁ h₂ hP hs _ ih => exact .sleep ms h₁ h₂ hP hs ih
  | join h₁ h₂ hP hs _ ih => exact .join h₁ h₂ hP hs ih

theorem Parallel.imp {R : Pairing → α → β → Prop} (h : Parallel application P Q w₁ w₂)
    (hQ : ∀ P a b, Q P a b → R P a b) : Parallel application P R w₁ w₂ :=
  fun P' s₁ s₂ hP hs => (h P' s₁ s₂ hP hs).imp hQ

/-- What follows goes on side by side if it does so from all results. -/
theorem Abreast.bind {f : α → Work γ} {g : β → Work δ} (h : Abreast application Q P w₁ s₁ w₂ s₂)
    (hf : ∀ P' t₁ t₂ a b, P.Grows P' → Alike application P' t₁ t₂ → Q P' a b →
      Abreast application Q' P' (f a) t₁ (g b) t₂) :
    Abreast application Q' P (w₁ >>= f) s₁ (w₂ >>= g) s₂ := by
  induction h with
  | done h₁ h₂ hP hs hQ =>
    exact ((hf _ _ _ _ _ hP hs hQ).congr (advance_bind_done h₁ f) (advance_bind_done h₂ g)).weaken hP
  | pause h₁ h₂ hP hs _ ih =>
    refine .pause (advance_bind_paused h₁ f) (advance_bind_paused h₂ g) hP hs fun P'' t₁ t₂ hP' ht => ?_
    exact ih P'' t₁ t₂ hP' ht fun P' u₁ u₂ a b hP'' => hf P' u₁ u₂ a b (hP.trans (hP'.trans hP''))
  | sleep ms h₁ h₂ hP hs _ ih =>
    refine .sleep ms (advance_bind_asleep h₁ f) (advance_bind_asleep h₂ g) hP hs fun P'' t₁ t₂ hP' ht => ?_
    exact ih P'' t₁ t₂ hP' ht fun P' u₁ u₂ a b hP'' => hf P' u₁ u₂ a b (hP.trans (hP'.trans hP''))
  | join h₁ h₂ hP hs _ ih =>
    refine .join (advance_bind_joining h₁ f) (advance_bind_joining h₂ g) hP hs fun outcome P'' t₁ t₂ hP' ht => ?_
    exact ih outcome P'' t₁ t₂ hP' ht fun P' u₁ u₂ a b hP'' => hf P' u₁ u₂ a b (hP.trans (hP'.trans hP''))

theorem Parallel.bind {f : α → Work γ} {g : β → Work δ} (h : Parallel application P Q w₁ w₂)
    (hf : ∀ P' a b, P.Grows P' → Q P' a b → Parallel application P' Q' (f a) (g b)) :
    Parallel application P Q' (w₁ >>= f) (w₂ >>= g) := by
  intro P' s₁ s₂ hP hs
  refine (h P' s₁ s₂ hP hs).bind fun P'' t₁ t₂ a b hP' ht hQ => ?_
  exact hf P'' a b (hP.trans hP') hQ P'' t₁ t₂ (.refl P'') ht

/-! ## Single questions -/

theorem parallel_pure {a : α} {b : β} (h : ∀ P', P.Grows P' → Q P' a b) : Parallel application P Q (pure a) (pure b) :=
  fun P' _ _ hP hs => .done rfl rfl (.refl P') hs (h P' hP)

theorem parallel_onStage {f₁ : Stage → α × Stage} {f₂ : Stage → β × Stage}
    (h : ∀ P' s₁ s₂, P.Grows P' → Alike application P' s₁ s₂ →
      ∃ P'', P'.Grows P'' ∧ Alike application P'' (f₁ s₁).2 (f₂ s₂).2 ∧ Q P'' (f₁ s₁).1 (f₂ s₂).1) :
    Parallel application P Q (Work.onStage f₁) (Work.onStage f₂) := by
  intro P' s₁ s₂ hP hs
  obtain ⟨P'', hP', hs', hQ⟩ := h P' s₁ s₂ hP hs
  exact .done rfl rfl hP' hs' hQ

/-- The results are the same. -/
def Equal : Pairing → α → α → Prop := fun _ a b => a = b

theorem parallel_change {f₁ f₂ : Stage → Stage}
    (h : ∀ P' s₁ s₂, P.Grows P' → Alike application P' s₁ s₂ → Alike application P' (f₁ s₁) (f₂ s₂)) :
    Parallel application P Equal (Work.change f₁) (Work.change f₂) :=
  parallel_onStage fun P' s₁ s₂ hP hs => ⟨P', .refl P', h P' s₁ s₂ hP hs, rfl⟩

theorem parallel_get {f₁ : Stage → Work α} {f₂ : Stage → Work β}
    (h : ∀ P' s₁ s₂, P.Grows P' → Alike application P' s₁ s₂ → Parallel application P' Q (f₁ s₁) (f₂ s₂)) :
    Parallel application P Q (Work.query .get >>= f₁) (Work.query .get >>= f₂) := by
  intro P' s₁ s₂ hP hs
  have h₁ : advance (Work.query .get >>= f₁) s₁ = advance (f₁ s₁) s₁ := rfl
  have h₂ : advance (Work.query .get >>= f₂) s₂ = advance (f₂ s₂) s₂ := rfl
  exact (h P' s₁ s₂ hP hs P' s₁ s₂ (.refl P') hs).congr h₁ h₂

theorem parallel_read {f : Stage → α} (hf : ∀ s, f s = f s.shared) :
    Parallel application P Equal (Work.read f) (Work.read f) :=
  fun P' _ _ _ hs => .done rfl rfl (.refl P') hs (hs.same hf)

theorem parallel_record {i₁ i₂ : Incident} (hi : i₁.sight? = i₂.sight?) :
    Parallel application P Equal (Work.record i₁) (Work.record i₂) :=
  parallel_change fun _ _ _ _ hs => hs.record hi

theorem parallel_log (e₁ e₂ : Log.Entry) : Parallel application P Equal (Work.log e₁) (Work.log e₂) :=
  parallel_record rfl

theorem parallel_pause : Parallel application P Equal Work.pause Work.pause :=
  fun P' _ _ _ hs => .pause rfl rfl (.refl P') hs fun P'' _ _ _ ht => .done rfl rfl (.refl P'') ht rfl

theorem parallel_sleep (ms : Nat) : Parallel application P Equal (Work.sleep ms) (Work.sleep ms) := by
  obtain hpause | hsleep := Work.sleep_eq_or ms
  · rw [hpause]
    exact parallel_pause
  · rw [hsleep]
    exact fun P' _ _ _ hs => .sleep ms rfl rfl (.refl P') hs fun P'' _ _ _ ht => .done rfl rfl (.refl P'') ht rfl

theorem parallel_join : Parallel application P Equal (Work.query .join) (Work.query .join) :=
  fun P' _ _ _ hs => .join rfl rfl (.refl P') hs fun _ P'' _ _ _ ht => .done rfl rfl (.refl P'') ht rfl

end

section

variable {Q : Pairing → α → β → Prop}

/-- Work that leaves on the stage what bystanders leave, and comes to its result at once. -/
def Idle (r : Roster) (w : Work α) (a : α) : Prop :=
  ∀ r', r.Grows r' → ∀ s, ∃ s', r'.Drifts s s' ∧ advance w s = (.done a, s')

theorem idle_pure (r : Roster) (a : α) : Idle r (pure a) a := fun r' _ s => ⟨s, .refl r' s, rfl⟩

theorem parallel_idle {w₁ : Work α} {w₂ : Work β} {a : α} {b : β} (h₁ : Idle P.first w₁ a) (h₂ : Idle P.second w₂ b)
    (hQ : ∀ P', P.Grows P' → Q P' a b) : Parallel application P Q w₁ w₂ := by
  intro P' s₁ s₂ hP hs
  obtain ⟨s₁', hs₁, hdone₁⟩ := h₁ P'.first hP.first s₁
  obtain ⟨s₂', hs₂, hdone₂⟩ := h₂ P'.second hP.second s₂
  exact .done hdone₁ hdone₂ (.refl P') (hs.drifts hs₁ hs₂) (hQ P' hP)

theorem idle_fire {r : Roster} {c : Callable} (hc : r.Bystander c) (event : String) (call : Call) :
    Idle r (Work.fire event c call) (.ok ()) :=
  fun _ hr s => (hc.mono hr).advance_fire event call s

end

section

variable {Q : Pairing → γ → δ → Prop}

/-- What follows the same result. -/
theorem Parallel.bind_equal {w₁ w₂ : Work α} {f : α → Work γ} {g : α → Work δ} (h : Parallel application P Equal w₁ w₂)
    (hf : ∀ P' a, P.Grows P' → Parallel application P' Q (f a) (g a)) :
    Parallel application P Q (w₁ >>= f) (w₂ >>= g) := by
  refine h.bind fun P' a b hP heq => ?_
  obtain rfl : a = b := heq
  exact hf P' a hP

end

/-! ## What handlers are called for -/

/-- The requests are the same but for callbacks. -/
inductive Requests : Request Callable → Request Callable → Prop
  | transmit {m₁ m₂ : Outbound Callable} (h : bare m₁ = bare m₂) (r : TransmitResult) :
      Requests (.transmit m₁ r) (.transmit m₂ r)
  | receive (m : Message) : Requests (.receive m) (.receive m)
  | receiveSegment (m : Message) : Requests (.receiveSegment m) (.receiveSegment m)
  | returnSegments (key : String) : Requests (.returnSegments key) (.returnSegments key)

/-- The notices are the same but for callbacks. -/
inductive Notices : Notice Callable → Notice Callable → Prop
  | deleted (c : Candidate) : Notices (.deleted c) (.deleted c)
  | receiveError (about : Item) (f : Fault) : Notices (.receiveError about f) (.receiveError about f)
  | transmitError {m₁ m₂ : Outbound Callable} (h : bare m₁ = bare m₂) (f : Fault) :
      Notices (.transmitError m₁ f) (.transmitError m₂ f)

/-- The calls are for the same reason, and with arguments that are the same but for callbacks. -/
inductive Calls : Call → Call → Prop
  | request {r₁ r₂ : Request Callable} (h : Requests r₁ r₂) : Calls (.request r₁) (.request r₂)
  | notice {n₁ n₂ : Notice Callable} (h : Notices n₁ n₂) : Calls (.notice n₁) (.notice n₂)
  | plain {arguments₁ arguments₂ : List Argument} (h : arguments₁.map Argument.bare = arguments₂.map Argument.bare) :
      Calls (.plain arguments₁) (.plain arguments₂)

theorem Requests.event {r₁ r₂ : Request Callable} (h : Requests r₁ r₂) : r₁.event = r₂.event := by cases h <;> rfl

theorem Notices.event {n₁ n₂ : Notice Callable} (h : Notices n₁ n₂) : n₁.event = n₂.event := by cases h <;> rfl

theorem destination_of_bare {m₁ m₂ : Outbound Callable} (h : bare m₁ = bare m₂) : m₁.destination = m₂.destination :=
  congrArg (fun m : Outbound Body => m.destination) h

theorem text_of_bare {m₁ m₂ : Outbound Callable} (h : bare m₁ = bare m₂) : m₁.text = m₂.text :=
  congrArg (fun m : Outbound Body => m.text) h

/-! ## Handlers -/

namespace Work

/-- What an event asks for depends on no callables. -/
theorem comply_congr (name : String) {arguments₁ arguments₂ : List Argument}
    (h : arguments₁.map Argument.bare = arguments₂.map Argument.bare) :
    comply name arguments₁ = comply name arguments₂ := by
  by_cases hother : name = "receive_segment" ∨ name = "return_segments"
  · match arguments₁, arguments₂, h with
    | [], [], _ => rfl
    | .item i :: _, .item j :: _, h =>
      obtain rfl : i = j := Argument.Bare.item.inj (List.cons.inj h).1
      rcases hother with rfl | rfl <;> cases i <;> rfl
    | .outbound _ :: _, .outbound _ :: _, _ | .result _ :: _, .result _ :: _, _
    | .candidate _ :: _, .candidate _ :: _, _ | .fault _ :: _, .fault _ :: _, _ =>
      rcases hother with rfl | rfl <;> rfl
  · have hnothing : ∀ arguments, comply name arguments = pure .nothing := by
      intro arguments
      unfold comply
      split
      · exact absurd (.inl rfl) hother
      · exact absurd (.inr rfl) hother
      · exact absurd (.inr rfl) hother
      · rfl
    rw [hnothing, hnothing]

end Work

theorem parallel_comply (name : String) (arguments : List Argument) :
    Parallel application P Equal (Work.comply name arguments) (Work.comply name arguments) := by
  unfold Work.comply
  split
  · refine (parallel_change fun P' s₁ s₂ _ hs => ?_).bind_equal fun P' _ _ => parallel_pure fun _ _ => rfl
    exact hs.change fun _ => rfl
  · exact (parallel_read fun _ => rfl).bind_equal fun _ _ _ => parallel_pure fun _ _ => rfl
  · exact parallel_pure fun _ _ => rfl
  · exact parallel_pure fun _ _ => rfl

theorem parallel_sendOffered {destination text : Value} {context₁ callback₁ context₂ callback₂ : Offer}
    (h : Attachments.Agree context₁ callback₁ context₂ callback₂) :
    Parallel application P (fun P' => Outcomes P'.Same)
      (Work.onStage (·.sendOffered destination text context₁ callback₁))
      (Work.onStage (·.sendOffered destination text context₂ callback₂)) :=
  parallel_onStage fun _ _ _ _ hs => hs.sendOffered h

/-- What can be awaited comes to the same on both stages. -/
inductive Pendings (application : Bool) (P : Pairing) : Pending → Pending → Prop
  | coroutine {i j : Nat} {name : String} {script₁ script₂ : Script} {arguments₁ arguments₂ : List Argument} :
      (i, j) ∈ P.pairs → script₁.Agrees application script₂ →
      arguments₁.map Argument.bare = arguments₂.map Argument.bare →
      Pendings application P (.coroutine ⟨i, name, .script script₁⟩ script₁ arguments₁)
        (.coroutine ⟨j, name, .script script₂⟩ script₂ arguments₂)
  | deferred {name : String} {arguments₁ arguments₂ : List Argument} {acts₁ acts₂ : List Act} :
      arguments₁.map Argument.bare = arguments₂.map Argument.bare → Acts.Agree application acts₁ acts₂ →
      Pendings application P (.deferred name arguments₁ acts₁) (.deferred name arguments₂ acts₂)
  | application {r₁ r₂ : Request Callable} : Requests r₁ r₂ →
      Pendings application P (.application r₁) (.application r₂)

/-- What calls hand back is the same, or can be awaited and comes to the same. -/
inductive Givens (application : Bool) (P : Pairing) : Given → Given → Prop
  | value (r : Returned) : Givens application P (.value r) (.value r)
  | awaitable {p₁ p₂ : Pending} : Pendings application P p₁ p₂ →
      Givens application P (.awaitable p₁) (.awaitable p₂)

/-- Nobody awaits what has come of waiting, so that the rest of it does not count. -/
theorem Givens.returned {g₁ g₂ : Given} (h : Givens application P g₁ g₂) : g₁.returned = g₂.returned := by
  cases h <;> rfl

/-- Calls come to results that go together, or to the same fault. -/
abbrev Given.Outcomes (application : Bool) (P : Pairing) : Except Fault Given → Except Fault Given → Prop :=
  Session.Outcomes (Givens application P)

/-- Acts that agree come to the same. -/
theorem parallel_perform (awaited : Bool) (name : String) {arguments₁ arguments₂ : List Argument}
    (h : arguments₁.map Argument.bare = arguments₂.map Argument.bare) {acts₁ acts₂ : List Act}
    (hacts : Acts.Agree application acts₁ acts₂) :
    Parallel application P (Given.Outcomes application) (Work.perform awaited name arguments₁ acts₁)
      (Work.perform awaited name arguments₂ acts₂) := by
  induction acts₁ generalizing acts₂ P with
  | nil =>
    cases hacts
    exact parallel_pure fun _ _ => .ok (.value _)
  | cons act₁ acts₁ ih =>
    cases hacts with
    | cons hact hrest =>
      cases hact with
      | defer hlater => exact parallel_pure fun _ _ => .ok (.awaitable (.deferred h hlater))
      | send destination text hagree =>
        refine (parallel_sendOffered hagree).bind fun P' sent₁ sent₂ _ hsent => ?_
        cases hsent with
        | ok _ => exact ih hrest
        | error f => exact parallel_pure fun _ _ => .error f
      | register hoffers =>
        have hregister : Parallel application P Equal (Work.onStage (·.register _)) (Work.onStage (·.register _)) :=
          parallel_onStage fun P' s₁ s₂ _ hs => hs.register hoffers
        refine hregister.bind_equal fun P' registered _ => ?_
        cases registered with
        | ok u => exact ih hrest
        | error f => exact parallel_pure fun _ _ => .error f
      | same hplain =>
        cases act₁ with
        | comply =>
          have hcomply : Parallel application P Equal (Work.comply name arguments₁) (Work.comply name arguments₂) := by
            rw [Work.comply_congr name h]
            exact parallel_comply name arguments₂
          exact hcomply.bind_equal fun _ r _ => parallel_pure fun _ _ => .ok (.value r)
        | fail f => exact parallel_pure fun _ _ => .error f
        | give r settled => exact parallel_pure fun _ _ => .ok (.value r)
        | stop =>
          refine (parallel_change fun P' s₁ s₂ _ hs => ?_).bind_equal fun P' _ _ => ih hrest
          exact hs.stop
        | wait ms =>
          cases awaited with
          | false => exact (ih hrest :)
          | true =>
            refine (parallel_sleep ms).bind_equal fun P₁ _ _ => ?_
            exact (parallel_record rfl).bind_equal fun P₂ _ _ => ih hrest
        | defer acts => cases hplain
        | send destination text context callback => cases hplain
        | register offers => cases hplain

/-- Counterparts come to the same. -/
theorem parallel_runScript (awaited : Bool) {i j : Nat} {script₁ script₂ : Script} (name : String)
    (hp : (i, j) ∈ P.pairs) (hscripts : script₁.Agrees application script₂) {arguments₁ arguments₂ : List Argument}
    (h : arguments₁.map Argument.bare = arguments₂.map Argument.bare) :
    Parallel application P (Given.Outcomes application)
      (Work.runScript awaited ⟨i, name, .script script₁⟩ script₁ arguments₁)
      (Work.runScript awaited ⟨j, name, .script script₂⟩ script₂ arguments₂) := by
  obtain ⟨hmode, hlabel, hacts⟩ := hscripts
  unfold Work.runScript
  refine (parallel_record ?_).bind_equal fun P' _ hP => ?_
  · simp only [Incident.sight?, h, hlabel]
  refine Parallel.bind (Q := fun _ => Acts.Agree application) ?_ fun P'' acts₁ acts₂ _ hagree => ?_
  · refine parallel_onStage fun P'' s₁ s₂ hP' hs => ?_
    obtain ⟨n, told, h₁, h₂, hs'⟩ := hs.takeActs name script₁ script₂ h (hP'.pairs (hP.pairs hp))
    exact ⟨P'', .refl P'', hs', h₁ ▸ h₂ ▸ hacts n told⟩
  · exact parallel_perform awaited name h hagree

/-- What the application comes to depends on what the stages have in common. -/
theorem parallel_finish {ε : Type} (result : Except Fault (Application.Done ε)) :
    Parallel application P Equal (Work.finish result) (Work.finish result) := by
  cases result with
  | error f => exact parallel_pure fun _ _ => rfl
  | ok d =>
    refine (parallel_change fun P' s₁ s₂ _ hs => ?_).bind_equal fun P' _ _ => parallel_pure fun _ _ => rfl
    exact (hs.change (f := fun s => { s with store := d.store }) fun _ => rfl).logAll _ _

/-! ## Calls -/

section

variable {call₁ call₂ : Call}

theorem Calls.arguments (h : Calls call₁ call₂) :
    call₁.arguments.map Argument.bare = call₂.arguments.map Argument.bare := by
  cases h with
  | plain h => exact h
  | request h =>
    cases h with
    | transmit h r => simp [Call.arguments, requestArguments, Argument.bare, h]
    | _ => rfl
  | notice h =>
    cases h with
    | transmitError h f => simp [Call.arguments, noticeArguments, Argument.bare, h]
    | _ => rfl

theorem Calls.tellsOf {e : EventName} (h : Calls call₁ call₂) (he : call₁.TellsOf e) : call₂.TellsOf e := by
  cases h with
  | request => exact he.elim
  | notice h => exact h.event.symm.trans he
  | plain => trivial

theorem Requests.handle {r₁ r₂ : Request Callable} (h : Requests r₁ r₂) (now : String) (store : Store) :
    Application.handle now store r₁ = Application.handle now store r₂ := by
  cases h with
  | transmit h r => simp only [Application.handle, destination_of_bare h]
  | _ => rfl

theorem Notices.observe {n₁ n₂ : Notice Callable} (h : Notices n₁ n₂) (store : Store) :
    Application.observe store n₁ = Application.observe store n₂ := by
  cases h with
  | transmitError h f => simp only [Application.observe, destination_of_bare h]
  | _ => rfl

/-- The application answers requests alike. -/
theorem parallel_runApplication {r₁ r₂ : Request Callable} (h : Requests r₁ r₂) :
    Parallel application P (Given.Outcomes application) (Work.runApplication r₁) (Work.runApplication r₂) := by
  refine parallel_get fun P' s₁ s₂ _ hs => ?_
  have hnow : s₁.now = s₂.now := hs.same fun _ => rfl
  have hstore : s₁.store = s₂.store := hs.same fun _ => rfl
  rw [hnow, hstore, h.handle]
  refine (parallel_finish _).bind_equal fun _ answer _ => parallel_pure fun _ _ => ?_
  cases answer with
  | ok r => exact .ok (.value r)
  | error f => exact .error f

/-- The application is given notice alike. Nothing comes of it that could be awaited. -/
theorem parallel_tellApplication {n₁ n₂ : Notice Callable} (h : Notices n₁ n₂) :
    Parallel application P (fun _ x₁ x₂ => ∃ told : Except Fault Unit, x₁ = told.map (fun _ => .value .nothing) ∧
      x₂ = told.map (fun _ => .value .nothing)) (Work.tellApplication n₁) (Work.tellApplication n₂) := by
  refine parallel_get fun P' s₁ s₂ _ hs => ?_
  have hstore : s₁.store = s₂.store := hs.same fun _ => rfl
  rw [hstore, h.observe]
  exact (parallel_finish _).bind_equal fun _ told _ => parallel_pure fun _ _ => ⟨told, rfl, rfl⟩

/-- The application is called on both stages. -/
theorem parallel_call_application (name : String) (h : Calls call₁ call₂) :
    Parallel application P (Given.Outcomes application) (Work.call ⟨0, name, .application⟩ call₁)
      (Work.call ⟨0, name, .application⟩ call₂) := by
  cases h with
  | request h => exact parallel_pure fun _ _ => .ok (.awaitable (.application h))
  | plain h => exact parallel_pure fun _ _ => .ok (.value _)
  | notice h =>
    refine Parallel.imp (parallel_tellApplication h) ?_
    rintro P' _ _ ⟨told, rfl, rfl⟩
    cases told with
    | ok u => exact .ok (.value _)
    | error f => exact .error f

/-- Counterparts are called: at once they come to the same, or to what can be awaited and does. -/
theorem parallel_call {i j : Nat} {script₁ script₂ : Script} (name : String) (hp : (i, j) ∈ P.pairs)
    (hscripts : script₁.Agrees application script₂) (h : Calls call₁ call₂) :
    Parallel application P (Given.Outcomes application) (Work.call ⟨i, name, .script script₁⟩ call₁)
      (Work.call ⟨j, name, .script script₂⟩ call₂) := by
  have hmode : script₁.mode = script₂.mode := by
    obtain ⟨hmode, -, -⟩ := hscripts
    exact hmode
  unfold Work.call
  dsimp only
  rw [hmode]
  split
  · exact parallel_runScript false name hp hscripts h.arguments
  · exact parallel_pure fun P' hP => .ok (.awaitable (.coroutine (hP.pairs hp) hscripts h.arguments))

theorem parallel_await {p₁ p₂ : Pending} (h : Pendings application P p₁ p₂) :
    Parallel application P (Given.Outcomes application) (Work.await p₁) (Work.await p₂) := by
  cases h with
  | coroutine hp hscripts h => exact parallel_runScript true _ hp hscripts h
  | deferred h hacts => exact parallel_perform true _ h hacts
  | application h => exact parallel_runApplication h

/-- What has been handed back is awaited on both stages, if it can be. -/
theorem parallel_attend {x₁ x₂ : Except Fault Given} (h : Given.Outcomes application P x₁ x₂) :
    Parallel application P Equal (Work.attend x₁) (Work.attend x₂) := by
  cases h with
  | error f => exact parallel_pure fun _ _ => rfl
  | ok h =>
    cases h with
    | value r => exact parallel_pure fun _ _ => rfl
    | awaitable h =>
      refine (parallel_await h).bind fun P' y₁ y₂ _ hy => parallel_pure fun _ _ => ?_
      cases hy with
      | ok hg => exact congrArg Except.ok hg.returned
      | error f => rfl

/-- Requests are answered alike. -/
theorem parallel_request {e : EventName} (he : e.isRequest = true) (h : Calls call₁ call₂) :
    Parallel application P Equal (Work.request e call₁) (Work.request e call₂) := by
  refine parallel_get fun P' s₁ s₂ _ hs => ?_
  have hhears := hs.listeners e
  generalize s₁.listeners e = c₁ at *
  generalize s₂.listeners e = c₂ at *
  cases hhears with
  | nobody => exact parallel_pure fun _ _ => rfl
  | counterparts _ hp hscripts =>
    exact (parallel_call e.text hp hscripts h).bind fun _ _ _ _ hx => parallel_attend hx
  | application => exact (parallel_call_application e.text h).bind fun _ _ _ _ hx => parallel_attend hx
  | aside hrequest => exact absurd (he.symm.trans hrequest) nofun

/-- To notify the application on both stages. -/
theorem parallel_fire_application {e : EventName} (event name : String) (h : Calls call₁ call₂)
    (htells : call₁.TellsOf e) :
    Parallel application P Equal (Work.fire event ⟨0, name, .application⟩ call₁)
      (Work.fire event ⟨0, name, .application⟩ call₂) := by
  cases h with
  | request h => exact htells.elim
  | plain h => exact parallel_pure fun _ _ => rfl
  | notice h =>
    refine Parallel.bind (parallel_tellApplication h) ?_
    rintro P' _ _ - ⟨told, rfl, rfl⟩
    cases told with
    | ok u => exact parallel_pure fun _ _ => rfl
    | error f =>
      dsimp only [Except.map]
      split
      · cases ‹Except.error f = _›
      · cases ‹Except.error f = _›
      · exact parallel_pure fun _ _ => rfl
      · exact (parallel_log _ _).bind_equal fun _ _ _ => parallel_pure fun _ _ => rfl

theorem idle_heard {r : Roster} {e : EventName} {c : Option Callable} (hc : ∀ c', c = some c' → r.Aside e c')
    {call : Call} (hcall : call.TellsOf e) :
    Idle r (match (motive := Option Callable → Work (Except Cancellation Unit)) c with
      | some c => Work.fire e.text c call
      | none => return .ok ()) (.ok ()) := by
  cases c with
  | none => exact idle_pure r _
  | some c => exact fun r' hr s => ((hc c rfl).mono hr).advance_fire hcall e.text s

/-- Whoever is notified, it makes no difference. -/
theorem parallel_notify {e : EventName} (he : e.isRequest = false) (h : Calls call₁ call₂) (htells : call₁.TellsOf e) :
    Parallel application P Equal (Work.notify e call₁) (Work.notify e call₂) := by
  refine parallel_get fun P' s₁ s₂ _ hs => ?_
  have hhears := hs.listeners e
  generalize s₁.listeners e = c₁ at *
  generalize s₂.listeners e = c₂ at *
  cases hhears with
  | nobody => exact parallel_pure fun _ _ => rfl
  | counterparts hrequest => exact absurd (hrequest.symm.trans he) nofun
  | application => exact parallel_fire_application e.text e.text h htells
  | aside _ h₁ h₂ => exact parallel_idle (idle_heard h₁ htells) (idle_heard h₂ (h.tellsOf htells)) fun _ _ => rfl

end

/-! ## The modem tool -/

theorem parallel_sendAll {messages₁ messages₂ : List Sending} (h : List.Forall₂ Sending.Agrees messages₁ messages₂) :
    Parallel application P Equal (Work.sendAll messages₁) (Work.sendAll messages₂) := by
  induction h generalizing P with
  | nil => exact parallel_pure fun _ _ => rfl
  | @cons m₁ m₂ _ _ hm _ ih =>
    unfold Work.sendAll
    rw [hm.destination, hm.text]
    refine (parallel_sendOffered hm.attachments).bind fun P' sent₁ sent₂ _ hsent => ?_
    cases hsent with
    | ok _ => exact ih
    | error f => exact parallel_pure fun _ _ => rfl

theorem parallel_runModem (command : String) (arguments : List String) :
    Parallel application P Equal (Work.runModem command arguments) (Work.runModem command arguments) := by
  refine (parallel_read fun _ => rfl).bind_equal fun P₁ clock _ => ?_
  refine (parallel_record rfl).bind_equal fun P₂ _ _ => ?_
  refine Parallel.bind (Q := fun _ => Reply.Agrees) ?_ fun P₃ reply₁ reply₂ _ hreply => ?_
  · refine parallel_onStage fun P' s₁ s₂ _ hs => ?_
    obtain ⟨hreply, hs'⟩ := hs.takeReply command
    exact ⟨P', .refl P', hs', hreply⟩
  rw [hreply.delay, hreply.outcome]
  refine (parallel_sendAll hreply.sending).bind_equal fun P₄ r _ => ?_
  cases r with
  | error f => exact parallel_pure fun _ _ => rfl
  | ok u =>
    dsimp -zeta only
    extract_lets rest
    have hrest : ∀ {P'} u, Parallel application P' Equal (rest u) (rest u) := by
      intro P' _
      dsimp only [rest]
      split <;> exact parallel_pure fun _ _ => rfl
    split
    · exact (parallel_sleep _).bind_equal fun _ u _ => hrest u
    · exact hrest ()

end SmsRelay.Session
