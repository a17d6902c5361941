-- SUMMARY: Two sessions whose steps agree: what the steps do and report is alike on stages that are alike.
import SmsRelay.Proofs.Indifference

/-!
# Steps in accord

Two sessions that take the same steps but for those that are notified or called
back. On stages that are alike each step does the same and reports the same, and
so do all steps in a row.
-/

namespace SmsRelay.Session

open Gateway

variable {application : Bool} {P P' : Pairing}

/-! ## What is seen of a step -/

/-- What a step has done, apart from those that nobody waits for: the calls of the modem tool and of handlers that are
waited for, the queues after it, what such handlers keep, and the report if it was a cycle. -/
structure Seen where
  sights : List Sight
  outbound : List (Outbound Body)
  inbound : List Message
  deletion : List Candidate
  store : Store
  memory : List (String × List Message)
  report : Option CycleReport

/-- The report of a cycle. -/
def report? : Except Fault Result → Option CycleReport
  | .ok (.report r) => some r
  | _ => none

def Report.seen (r : Report) : Seen where
  sights := r.trace.filterMap Incident.sight?
  outbound := r.stage.queues.outbound.map bare
  inbound := r.stage.queues.inbound
  deletion := r.stage.queues.deletion
  store := r.stage.store
  memory := r.stage.memory
  report := report? r.result

/-! ## Steps that agree -/

/-- Nothing comes of calling what is offered but an answer. -/
def Offer.Mute : Offer → Prop
  | value _ => True
  | script s => s.Mute

/-- The step offers no handler or callback, and calls nobody but by way of the gateway. -/
def Step.isPlain : Step → Bool
  | register .. | on .. | onAll _ | request .. | notify .. | announce .. | send .. => false
  | _ => true

/-- The steps are the same, but for what they offer to be notified or called back. -/
inductive Step.Agrees (application : Bool) : Step → Step → Prop
  | plain {step : Step} : step.isPlain = true → Agrees application step step
  | register {event : Value} {offer₁ offer₂ : Offer} : Offer.Agrees application event.plain offer₁ offer₂ →
      Agrees application (.register event offer₁) (.register event offer₂)
  | on {event : Value} {offer₁ offer₂ : Offer} : Offer.Agrees application event.plain offer₁ offer₂ →
      Agrees application (.on event offer₁) (.on event offer₂)
  | onAll {offers₁ offers₂ : List (String × Offer)} : Offers.Agree application offers₁ offers₂ →
      Agrees application (.onAll offers₁) (.onAll offers₂)
  | request {event : Value} (arguments : List Item) : (∀ e, Step.eventOf event = .ok (some e) → e.isRequest = true) →
      Agrees application (.request event arguments) (.request event arguments)
  | notify {event : Value} (arguments : List Item) : (∀ e, Step.eventOf event = .ok (some e) → e.isRequest = false) →
      Agrees application (.notify event arguments) (.notify event arguments)
  | announce (destination text : String) (context : Offer) {callback₁ callback₂ : Offer} (r : TransmitResult) :
      callback₁.Mute → callback₂.Mute →
      Agrees application (.announce destination text context callback₁ r)
        (.announce destination text context callback₂ r)
  | send (destination text : Value) {context₁ callback₁ context₂ callback₂ : Offer} :
      Attachments.Agree context₁ callback₁ context₂ callback₂ →
      Agrees application (.send destination text context₁ callback₁) (.send destination text context₂ callback₂)

theorem Step.Agrees.symm {step₁ step₂ : Step} (h : step₁.Agrees application step₂) :
    step₂.Agrees application step₁ := by
  cases h with
  | plain h => exact .plain h
  | register h => exact .register h.symm
  | on h => exact .on h.symm
  | onAll h => exact .onAll h.symm
  | request arguments h => exact .request arguments h
  | notify arguments h => exact .notify arguments h
  | announce destination text context r h₁ h₂ => exact .announce destination text context r h₂ h₁
  | send destination text h => exact .send destination text h.symm

/-- What is made of a callback. -/
theorem Stage.acceptCallback_mute {r : Roster} {s : Stage} {callback : Offer} (h : callback.Mute)
    (hnext : s.nextId = r.next) (hr : ∀ i ∈ r.awaited, i < r.next) : ∃ n, (s.acceptCallback callback).2 = { s with nextId := s.nextId + n } ∧
      ∀ c, (s.acceptCallback callback).1 = some c → Roster.Bystander ⟨r.next + n, r.awaited⟩ c := by
  unfold Stage.acceptCallback
  split
  · exact ⟨0, rfl, nofun⟩
  · refine ⟨1, rfl, fun c hc => ?_⟩
    obtain rfl := Option.some.inj hc
    exact Roster.bystander_next hnext hr rfl trivial
  · refine ⟨1, rfl, fun c hc => ?_⟩
    obtain rfl := Option.some.inj hc
    exact Roster.bystander_next hnext hr rfl h

/-! ### What comes of steps -/

theorem Alike.batch {s₁ s₂ : Stage} (h : Alike application P s₁ s₂) (starts : List Bool) :
    Alike application P (starts.foldl (fun s b => Step.startOrStop b s) s₁)
      (starts.foldl (fun s b => Step.startOrStop b s) s₂) := by
  induction starts generalizing s₁ s₂ with
  | nil => exact h
  | cons start starts ih =>
    cases start with
    | true => exact ih h.start
    | false => exact ih h.stop

/-- The same is reported, if anything is. -/
def Reports : Pairing → Except Fault Result → Except Fault Result → Prop := fun _ x y => report? x = report? y

/-- Results none of which is a report. -/
theorem reports_map {α β : Type} {f : α → Result} {g : β → Result} (hf : ∀ a, report? (.ok (f a)) = none)
    (hg : ∀ b, report? (.ok (g b)) = none) (x : Except Fault α) (y : Except Fault β) :
    Reports P (x.map f) (y.map g) := by
  have hnone : ∀ {γ : Type} {h : γ → Result} (z : Except Fault γ), (∀ c, report? (.ok (h c)) = none) →
      report? (z.map h) = none := by
    intro γ h z hz
    cases z with
    | error e => rfl
    | ok c => exact hz c
  exact (hnone x hf).trans (hnone y hg).symm

theorem parallel_reports {α β : Type} {f : α → Result} {g : β → Result} (hf : ∀ a, report? (.ok (f a)) = none)
    (hg : ∀ b, report? (.ok (g b)) = none) (x : Except Fault α) (y : Except Fault β) :
    Parallel application P Reports (pure (x.map f)) (pure (y.map g)) :=
  parallel_pure fun _ _ => reports_map hf hg x y

theorem parallel_announceWork {m₁ m₂ : Outbound Callable} (h : P.Same m₁ m₂) (t : TransmitResult) :
    Parallel application P Reports (Step.announceWork m₁ t) (Step.announceWork m₂ t) := by
  have harguments : [Argument.outbound m₁, .result t].map Argument.bare =
      [Argument.outbound m₂, .result t].map Argument.bare :=
    congrArg (fun m => [Argument.Bare.outbound m, .result t]) h.bare
  unfold Step.announceWork
  extract_lets arguments₁ rest₁ arguments₂ rest₂
  have hrest : ∀ {P'} fired, Parallel application P' Reports (rest₁ fired) (rest₂ fired) := by
    intro P' fired
    cases fired with
    | error c => exact parallel_pure fun _ _ => rfl
    | ok u =>
      refine (parallel_request rfl (.plain harguments)).bind_equal fun _ _ _ => ?_
      exact parallel_reports (fun _ => rfl) (fun _ => rfl) _ _
  cases hk₁ : m₁.callback with
  | none =>
    cases hk₂ : m₂.callback with
    | none => exact hrest (.ok ())
    | some k₂ =>
      exact (parallel_idle (idle_pure _ _) (idle_fire (h.second k₂ hk₂) _ _) fun _ _ => rfl).bind_equal
        fun _ fired _ => hrest fired
  | some k₁ =>
    cases hk₂ : m₂.callback with
    | none =>
      exact (parallel_idle (idle_fire (h.first k₁ hk₁) _ _) (idle_pure _ _) fun _ _ => rfl).bind_equal
        fun _ fired _ => hrest fired
    | some k₂ =>
      exact (parallel_idle (idle_fire (h.first k₁ hk₁) _ _) (idle_fire (h.second k₂ hk₂) _ _) fun _ _ => rfl).bind_equal
        fun _ fired _ => hrest fired

/-- The next message's context, the same offer on both stages. -/
theorem parallel_context (context : Offer) :
    Parallel application P (fun _ x y => bareContext x = bareContext y) (Work.onStage (·.accept "on_result" context))
      (Work.onStage (·.accept "on_result" context)) := by
  refine parallel_onStage fun P' s₁ s₂ _ hs => ?_
  cases context with
  | value v => exact ⟨P', .refl P', hs, rfl⟩
  | script script => exact ⟨P'.apart 1 1, P'.grows_apart 1 1, hs.apart 1 1, rfl⟩

theorem parallel_callback {callback₁ callback₂ : Offer} (h₁ : callback₁.Mute) (h₂ : callback₂.Mute) :
    Parallel application P
      (fun P' k₁ k₂ => (∀ c, k₁ = some c → P'.first.Bystander c) ∧ ∀ c, k₂ = some c → P'.second.Bystander c)
      (Work.onStage (·.acceptCallback callback₁)) (Work.onStage (·.acceptCallback callback₂)) := by
  refine parallel_onStage fun P' s₁ s₂ _ hs => ?_
  obtain ⟨m, hstage₁, hk₁⟩ := Stage.acceptCallback_mute h₁ hs.first.next P'.awaited_first
  obtain ⟨n, hstage₂, hk₂⟩ := Stage.acceptCallback_mute h₂ hs.second.next P'.awaited_second
  have hs' := hs.apart m n
  rw [← hstage₁, ← hstage₂] at hs'
  exact ⟨P'.apart m n, P'.grows_apart m n, hs', hk₁, hk₂⟩

/-- The registration of a single handler. -/
def Stage.registerOne (event : Value) (offer : Offer) (s : Stage) : Except Fault Unit × Stage :=
  let (handler, s) := s.accept event.plain offer
  match s.listeners.register event handler with
  | .ok listeners => (.ok (), { s with listeners })
  | .error f => (.error f, s)

theorem parallel_registerOne {event : Value} {offer₁ offer₂ : Offer}
    (h : Offer.Agrees application event.plain offer₁ offer₂) :
    Parallel application P Equal (Work.onStage (·.registerOne event offer₁))
      (Work.onStage (·.registerOne event offer₂)) := by
  refine parallel_onStage fun P' s₁ s₂ _ hs => ?_
  obtain ⟨P'', hP', hs', hsupplies⟩ := hs.accept h
  have hregister := Pairing.Hearing.register hs'.listeners hsupplies
  refine ⟨P'', hP', ?_⟩
  unfold Stage.registerOne
  generalize s₁.accept event.plain offer₁ = accepted₁ at *
  generalize s₂.accept event.plain offer₂ = accepted₂ at *
  dsimp only
  generalize accepted₁.2.listeners.register event accepted₁.1 = registered₁ at *
  generalize accepted₂.2.listeners.register event accepted₂.1 = registered₂ at *
  cases hregister with
  | ok hhearing => exact ⟨hs'.listen hhearing, rfl⟩
  | error f => exact ⟨hs', rfl⟩

/-- A phase of which nothing depends on those that are notified. -/
theorem Tandem.parallel {α : Type} {p : Gateway.Phase Callable α} (h : Tandem application P Equal p p) :
    Parallel application P Equal (Work.phase p) (Work.phase p) :=
  fun P' s₁ s₂ hP hs => (h P' s₁ s₂ hP hs).imp fun _ _ _ => eq_of_outcomes

theorem parallel_plain {step : Step} (h : step.isPlain = true) :
    Parallel application P Reports step.work step.work := by
  cases step with
  | register | on | onAll | request | notify | announce | send => cases h
  | hasListener event =>
    refine parallel_get fun P' s₁ s₂ _ _ => parallel_reports ?_ ?_ _ _ <;>
    · intro e
      cases e <;> rfl
  | runCycle =>
    refine parallel_get fun P' s₁ s₂ _ hs => ?_
    have hconfig : s₁.config = s₂.config := hs.same fun _ => rfl
    rw [hconfig]
    exact (tandem_runCycle _).parallel.bind_equal fun _ _ _ => parallel_pure fun _ _ => rfl
  | runPhase p =>
    refine parallel_get fun P' s₁ s₂ _ hs => ?_
    have hphase : Step.phaseOf s₁ p = Step.phaseOf s₂ p :=
      hs.same (f := fun s => Step.phaseOf s p) fun _ => by cases p <;> rfl
    have htandem : Tandem application P' Equal (Step.phaseOf s₂ p) (Step.phaseOf s₂ p) := by
      cases p with
      | transmit => exact tandem_transmitPhase _
      | receive => exact tandem_receivePhase
      | deliver => exact tandem_deliverPhase
      | delete => exact tandem_deletePhase _
    rw [hphase]
    exact htandem.parallel.bind_equal fun _ _ _ => parallel_reports (fun _ => rfl) (fun _ => rfl) _ _
  | enqueueDeletion m =>
    refine (parallel_change fun P' s₁ s₂ _ hs => ?_).bind_equal fun _ _ _ => parallel_pure fun _ _ => rfl
    exact hs.change (f := fun s => { s with queues := Gateway.enqueueDeletion m s.queues }) fun _ => rfl
  | lengths => exact parallel_get fun _ _ _ _ _ => parallel_pure fun _ _ => rfl
  | start =>
    exact (parallel_change fun _ _ _ _ hs => hs.start).bind_equal fun _ _ _ => parallel_pure fun _ _ => rfl
  | stop =>
    exact (parallel_change fun _ _ _ _ hs => hs.stop).bind_equal fun _ _ _ => parallel_pure fun _ _ => rfl
  | batch starts =>
    refine (parallel_change fun P' s₁ s₂ _ hs => ?_).bind_equal fun _ _ _ => parallel_pure fun _ _ => rfl
    exact hs.batch starts
  | join => exact parallel_join.bind_equal fun _ _ _ => parallel_reports (fun _ => rfl) (fun _ => rfl) _ _
  | sleep ms => exact (parallel_sleep ms).bind_equal fun _ _ _ => parallel_pure fun _ _ => rfl
  | listReceived limit => exact parallel_get fun _ _ _ _ _ => parallel_reports (fun _ => rfl) (fun _ => rfl) _ _
  | loadSegments key => exact parallel_get fun _ _ _ _ _ => parallel_reports (fun _ => rfl) (fun _ => rfl) _ _
  | memory => exact parallel_get fun _ _ _ _ _ => parallel_pure fun _ _ => rfl

/-- Steps that agree report the same. -/
theorem parallel_work {step₁ step₂ : Step} (h : step₁.Agrees application step₂) :
    Parallel application P Reports step₁.work step₂.work := by
  cases h with
  | register hoffer =>
    exact (parallel_registerOne hoffer).bind_equal fun _ _ _ => parallel_reports (fun _ => rfl) (fun _ => rfl) _ _
  | @on event offer₁ offer₂ hoffer =>
    have hon : Parallel application P Equal
        (Work.onStage fun s => let (handler, s) := s.accept event.plain offer₁; s.on (.one event handler))
        (Work.onStage fun s => let (handler, s) := s.accept event.plain offer₂; s.on (.one event handler)) := by
      refine parallel_onStage fun P' s₁ s₂ _ hs => ?_
      obtain ⟨P'', hP', hs', hsupplies⟩ := hs.accept hoffer
      exact ⟨P'', hP', hs'.on hsupplies⟩
    exact hon.bind_equal fun _ _ _ => parallel_reports (fun _ => rfl) (fun _ => rfl) _ _
  | onAll hoffers =>
    have hregister : Parallel application P Equal (Work.onStage (·.register _)) (Work.onStage (·.register _)) :=
      parallel_onStage fun P' s₁ s₂ _ hs => hs.register hoffers
    exact hregister.bind_equal fun _ _ _ => parallel_reports (fun _ => rfl) (fun _ => rfl) _ _
  | request arguments hevent =>
    dsimp only [Step.work]
    split
    · exact parallel_pure fun _ _ => rfl
    · exact parallel_pure fun _ _ => rfl
    · refine (parallel_request (hevent _ ‹_›) (.plain rfl)).bind_equal fun _ _ _ => ?_
      exact parallel_reports (fun _ => rfl) (fun _ => rfl) _ _
  | notify arguments hevent =>
    dsimp only [Step.work]
    split
    · exact parallel_pure fun _ _ => rfl
    · exact parallel_pure fun _ _ => rfl
    · refine (parallel_notify (hevent _ ‹_›) (.plain rfl) trivial).bind_equal fun _ result _ => ?_
      split <;> exact parallel_pure fun _ _ => rfl
  | announce destination text context t h₁ h₂ =>
    refine (parallel_context context).bind fun P' x₁ x₂ _ hcontext => ?_
    refine (parallel_callback h₁ h₂).bind fun P'' k₁ k₂ _ hk => parallel_announceWork ⟨?_, hk.1, hk.2⟩ t
    exact congrArg (fun c => ({ destination, text, context := c } : Outbound Body)) hcontext
  | send destination text h =>
    refine (parallel_sendOffered h).bind fun _ _ _ _ _ => ?_
    exact parallel_reports (fun _ => rfl) (fun _ => rfl) _ _
  | plain hplain => exact parallel_plain hplain

/-! ## Steps in a row -/

theorem parallel_settle (times : Nat) : Parallel application P Equal (settle times) (settle times) := by
  induction times generalizing P with
  | zero => exact parallel_pure fun _ _ => rfl
  | succ times ih => exact parallel_pause.bind_equal fun _ _ _ => ih

/-- What has been seen is taken off both stages. -/
theorem Alike.takeTrace {s₁ s₂ : Stage} (h : Alike application P s₁ s₂) :
    Alike application P s₁.takeTrace.2 s₂.takeTrace.2 ∧
      s₁.takeTrace.1.filterMap Incident.sight? = s₂.takeTrace.1.filterMap Incident.sight? := by
  refine ⟨{ h with
    trace := rfl
    first := h.first.congr rfl rfl rfl
    second := h.second.congr rfl rfl rfl }, ?_⟩
  change s₁.trace.reverse.filterMap _ = s₂.trace.reverse.filterMap _
  rw [List.filterMap_reverse, List.filterMap_reverse, h.trace]

/-- The same is seen of both reports. -/
theorem Alike.seen {s₁ s₂ : Stage} (h : Alike application P s₁ s₂) {trace₁ trace₂ : List Incident}
    (htrace : trace₁.filterMap Incident.sight? = trace₂.filterMap Incident.sight?) {x y : Except Fault Result}
    (hreport : report? x = report? y) : Report.seen ⟨x, trace₁, s₁⟩ = Report.seen ⟨y, trace₂, s₂⟩ := by
  have houtbound : s₁.queues.outbound.map bare = s₂.queues.outbound.map bare := by
    have heq : ∀ {ms₁ ms₂ : List (Outbound Callable)}, List.Forall₂ P.Same ms₁ ms₂ → ms₁.map bare = ms₂.map bare := by
      intro ms₁ ms₂ hms
      induction hms with
      | nil => rfl
      | cons hm _ ih => rw [List.map_cons, List.map_cons, hm.bare, ih]
    exact heq h.outbound
  have hstore : s₁.store = s₂.store := h.same fun _ => rfl
  have hmemory : s₁.memory = s₂.memory := h.same fun _ => rfl
  simp only [Report.seen, htrace, houtbound, h.queued.inbound, h.queued.deletion, hstore, hmemory, hreport]

/-- The same is seen of all steps. -/
def SameSeen (reports₁ reports₂ : List Report) : Prop := reports₁.map Report.seen = reports₂.map Report.seen

theorem parallel_takeSteps {settles₁ settles₂ : Step → Bool} {steps₁ steps₂ : List Step}
    (hsettles : ∀ step₁ step₂, Step.Agrees application step₁ step₂ → settles₁ step₁ = settles₂ step₂)
    (h : List.Forall₂ (Step.Agrees application) steps₁ steps₂) :
    Parallel application P (fun _ => SameSeen) (takeSteps settles₁ steps₁) (takeSteps settles₂ steps₂) := by
  induction h generalizing P with
  | nil => exact parallel_pure fun _ _ => rfl
  | cons hstep _ ih =>
    unfold takeSteps
    refine (parallel_work hstep).bind fun P₁ result₁ result₂ _ hresult => ?_
    rw [hsettles _ _ hstep]
    extract_lets rest₁ rest₂
    have hrest : ∀ {P'} u, Parallel application P' (fun _ => SameSeen) (rest₁ u) (rest₂ u) := by
      intro P' u
      refine Parallel.bind (Q := fun _ x y => Report.seen ⟨result₁, x.1, x.2⟩ = Report.seen ⟨result₂, y.1, y.2⟩) ?_
        fun P₂ x y _ hseen => ?_
      · refine parallel_onStage fun P₂ s₁ s₂ _ hs => ?_
        obtain ⟨hs', htrace⟩ := hs.takeTrace
        exact ⟨P₂, .refl P₂, hs', hs.seen htrace hresult⟩
      · refine ih.bind fun P₃ reports₁ reports₂ _ hreports => parallel_pure fun _ _ => ?_
        exact congrArg₂ List.cons hseen hreports
    split
    · exact (parallel_settle 6).bind_equal fun _ u _ => hrest u
    · exact hrest ()

end SmsRelay.Session
