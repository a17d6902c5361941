-- SUMMARY: Phases on stages that are alike but for bystanders come to the same, question by question.
import SmsRelay.Proofs.Isolation
import SmsRelay.Proofs.Parallel

/-!
# The gateway among bystanders

A phase on one of two stages that are alike does what it does on the other: it
calls the modem tool with the same arguments, puts the same requests, leaves the
same in the queues, and comes to the same result or fault. Callbacks may be
there on one stage and not on the other, and anybody may be notified.
-/

namespace SmsRelay.Session

open Gateway Gateway.Phase

variable {α β γ δ : Type} {application : Bool} {P P' : Pairing}

/-! ## Phases in tandem -/

/-- On stages that are alike the phases come to results that go together, or to the same fault. -/
def Tandem (application : Bool) (P : Pairing) (R : Pairing → α → β → Prop) (p₁ : Phase Callable α)
    (p₂ : Phase Callable β) : Prop :=
  Parallel application P (fun P' => Outcomes (R P')) (Work.phase p₁) (Work.phase p₂)

theorem outcomes_equal (a : Except Fault α) : Outcomes (Equal P) a a := by
  cases a with
  | ok a => exact .ok rfl
  | error f => exact .error f

theorem eq_of_outcomes {a b : Except Fault α} (h : Outcomes (Equal P) a b) : a = b := by
  cases h with
  | ok h => exact congrArg Except.ok h
  | error f => rfl

section

variable {R : Pairing → α → β → Prop} {R' : Pairing → γ → δ → Prop}

theorem phase_bind (p : Phase Callable α) (f : α → Phase Callable γ) :
    Work.phase (p >>= f) = Work.phase p >>= fun
      | .ok a => Work.phase (f a)
      | .error e => pure (.error e) := by
  refine (Flow.interpret_bind (S := Gateway.signature Callable) Work.answer p.run (ExceptT.bindCont f)).trans ?_
  refine congrArg (Work.phase p >>= ·) (funext fun a => ?_)
  cases a <;> rfl

theorem tandem_pure {a : α} {b : β} (h : ∀ P', P.Grows P' → R P' a b) :
    Tandem application P R (pure a : Phase Callable α) (pure b : Phase Callable β) :=
  parallel_pure fun P' hP => .ok (h P' hP)

theorem Tandem.bind {p₁ : Phase Callable α} {p₂ : Phase Callable β} {f : α → Phase Callable γ}
    {g : β → Phase Callable δ}
    (h : Tandem application P R p₁ p₂)
    (hf : ∀ P' a b, P.Grows P' → R P' a b → Tandem application P' R' (f a) (g b)) :
    Tandem application P R' (p₁ >>= f) (p₂ >>= g) := by
  unfold Tandem
  rw [phase_bind, phase_bind]
  refine Parallel.bind h fun P' x y hP hxy => ?_
  cases hxy with
  | ok hR => exact hf P' _ _ hP hR
  | error e => exact parallel_pure fun _ _ => .error e

/-- What follows the same result. -/
theorem Tandem.bind_equal {p₁ p₂ : Phase Callable α} {f : α → Phase Callable γ} {g : α → Phase Callable δ}
    (h : Tandem application P Equal p₁ p₂) (hf : ∀ P' a, P.Grows P' → Tandem application P' R' (f a) (g a)) :
    Tandem application P R' (p₁ >>= f) (p₂ >>= g) := by
  refine h.bind fun P' a b hP heq => ?_
  obtain rfl : a = b := heq
  exact hf P' a hP

theorem tandem_settled (x : Except Fault α) : Tandem application P Equal (settled x) (settled x) :=
  parallel_pure fun _ _ => outcomes_equal x

theorem tandem_throw (f : Fault) :
    Tandem application P R (throw f : Phase Callable α) (throw f : Phase Callable β) :=
  parallel_pure fun _ _ => .error f

theorem tandem_queues : Tandem application P Pairing.Queued queues queues :=
  fun P' _ _ _ hs => .done rfl rfl (.refl P') hs (.ok hs.queued)

theorem tandem_update {f₁ f₂ : Queues Callable → Queues Callable}
    (h : ∀ P' q₁ q₂, P.Grows P' → P'.Queued q₁ q₂ → P'.Queued (f₁ q₁) (f₂ q₂)) :
    Tandem application P Equal (update f₁) (update f₂) :=
  fun P' _ _ hP hs => .done rfl rfl (.refl P') (hs.update (h P' _ _ hP hs.queued)) (.ok rfl)

theorem tandem_log (level : Log.Level) (source text₁ text₂ : String) :
    Tandem application P Equal (log level source text₁) (log level source text₂) :=
  fun P' _ _ _ hs => .done rfl rfl (.refl P') (hs.log _ _) (.ok rfl)

theorem tandem_modem (command : String) (arguments : List String) :
    Tandem application P Equal (modem command arguments) (modem command arguments) :=
  (parallel_runModem command arguments).bind_equal fun _ a _ => parallel_pure fun _ _ => outcomes_equal a

theorem tandem_request {r₁ r₂ : Request Callable} (h : Requests r₁ r₂) :
    Tandem application P Equal (request r₁) (request r₂) := by
  have hrequest : Parallel application P Equal (Work.request r₁.event (.request r₁))
      (Work.request r₂.event (.request r₂)) :=
    h.event ▸ parallel_request r₁.isRequest_event (.request h)
  exact hrequest.bind_equal fun _ a _ => parallel_pure fun _ _ => outcomes_equal a

theorem tandem_notify {n₁ n₂ : Notice Callable} (h : Notices n₁ n₂) :
    Tandem application P Equal (notify n₁) (notify n₂) := by
  have hnotify : Parallel application P Equal (Work.notify n₁.event (.notice n₁)) (Work.notify n₂.event (.notice n₂)) :=
    h.event ▸ parallel_notify n₁.isRequest_event (.notice h) rfl
  exact hnotify.bind_equal fun _ a _ => parallel_pure fun _ _ => outcomes_equal (contain a)

theorem Tandem.guarded {p₁ p₂ : Phase Callable α} (h : Tandem application P Equal p₁ p₂) :
    Tandem application P Equal (Gateway.guarded p₁) (Gateway.guarded p₂) := by
  have hguarded : ∀ p : Phase Callable α, Work.phase (Gateway.guarded p) = Work.phase p >>= fun
      | .ok a => pure (.ok (.ok a))
      | .error f => pure (if f.isCancellation then .error f else .ok (.error f)) := by
    intro p
    refine (Flow.interpret_bind (S := Gateway.signature Callable) Work.answer p.run _).trans ?_
    refine congrArg (Work.phase p >>= ·) (funext fun a => ?_)
    cases a <;> rfl
  unfold Tandem
  rw [hguarded, hguarded]
  refine Parallel.bind h fun P' x y _ hxy => ?_
  obtain rfl : x = y := eq_of_outcomes hxy
  cases x with
  | ok a => exact parallel_pure fun _ _ => outcomes_equal _
  | error f => exact parallel_pure fun _ _ => outcomes_equal _

theorem tandem_attempt {r₁ r₂ : Request Callable} (h : Requests r₁ r₂) :
    Tandem application P Equal (attempt r₁) (attempt r₂) := by
  rw [attempt_eq, attempt_eq]
  exact (tandem_request h).guarded

theorem Tandem.discard {p₁ p₂ : Phase Callable α} (h : Tandem application P Equal p₁ p₂) :
    Tandem application P Equal (discard p₁) (discard p₂) :=
  h.bind_equal fun _ _ _ => tandem_pure fun _ _ => rfl

theorem tandem_foldlM {f₁ f₂ : β → α → Phase Callable β}
    (h : ∀ P' b a, P.Grows P' → Tandem application P' Equal (f₁ b a) (f₂ b a)) (xs : List α) (b : β) :
    Tandem application P Equal (xs.foldlM f₁ b) (xs.foldlM f₂ b) := by
  induction xs generalizing P b with
  | nil => exact tandem_pure fun _ _ => rfl
  | cons x xs ih =>
    rw [List.foldlM_cons, List.foldlM_cons]
    refine (h P b x (.refl P)).bind_equal fun P' b hP => ?_
    exact ih (fun P'' b a hP' => h P'' b a (hP.trans hP')) b

end

/-! ## Transmission -/

theorem Pairing.Same.arguments {ms₁ ms₂ : List (Outbound Callable)} (h : List.Forall₂ P.Same ms₁ ms₂) :
    Outbound.arguments ms₁ = Outbound.arguments ms₂ := by
  induction h with
  | nil => rfl
  | cons h _ ih =>
    rw [Outbound.arguments_cons, Outbound.arguments_cons, ih, destination_of_bare h.bare, text_of_bare h.bare]

theorem forall₂_unsent {R : Outbound Callable → Outbound Callable → Prop} {ms₁ ms₂ : List (Outbound Callable)}
    (h : List.Forall₂ R ms₁ ms₂) (sent : List Nat) : List.Forall₂ R (unsent ms₁ sent) (unsent ms₂ sent) := by
  have hfrom : ∀ k, List.Forall₂ R (((ms₁.zipIdx k).filter fun x => x.2 ∉ sent).map (·.1))
      (((ms₂.zipIdx k).filter fun x => x.2 ∉ sent).map (·.1)) := by
    induction h with
    | nil => exact fun _ => .nil
    | cons h _ ih =>
      intro k
      rw [List.zipIdx_cons, List.zipIdx_cons, List.filter_cons, List.filter_cons]
      split
      · exact .cons h (ih (k + 1))
      · exact ih (k + 1)
  exact hfrom 0

/-- The callback of a message, if it has one. -/
def calledBack (m : Outbound Callable) (r : TransmitResult) : Phase Callable Unit :=
  match m.callback with
  | some k => callback k m r
  | none => pure ()

theorem announce_eq (m : Outbound Callable) (r : TransmitResult) :
    announce m r = calledBack m r >>= fun _ => attempt (.transmit m r) >>= fun
      | .ok _ => pure ()
      | .error f => notify (.transmitError m f) := by
  unfold announce calledBack
  cases m.callback <;> rfl

theorem idle_calledBack {r : Roster} {m : Outbound Callable} (hm : ∀ k, m.callback = some k → r.Bystander k)
    (t : TransmitResult) : Idle r (Work.phase (calledBack m t)) (.ok ()) := by
  unfold calledBack
  cases hk : m.callback with
  | none => exact idle_pure r _
  | some k =>
    intro r' hr s
    obtain ⟨s', hs', hdone⟩ := idle_fire (hm k hk) "on_result" (.plain [.outbound m, .result t]) r' hr s
    exact ⟨s', hs', advance_bind_done hdone _⟩

theorem tandem_announce {m₁ m₂ : Outbound Callable} (h : P.Same m₁ m₂) (t : TransmitResult) :
    Tandem application P Equal (announce m₁ t) (announce m₂ t) := by
  rw [announce_eq, announce_eq]
  have hcalled : Tandem application P Equal (calledBack m₁ t) (calledBack m₂ t) :=
    parallel_idle (idle_calledBack h.first t) (idle_calledBack h.second t) fun _ _ => .ok rfl
  refine hcalled.bind_equal fun P' _ hP => ?_
  refine (tandem_attempt (.transmit h.bare t)).bind_equal fun P'' answer _ => ?_
  cases answer with
  | ok _ => exact tandem_pure fun _ _ => rfl
  | error f => exact tandem_notify (.transmitError h.bare f)

theorem tandem_reconcile {batch₁ batch₂ : List (Outbound Callable)} (h : List.Forall₂ P.Same batch₁ batch₂)
    (sent : List Nat) (t : TransmitResult) :
    Tandem application P Equal (reconcile batch₁ sent t) (reconcile batch₂ sent t) := by
  have hunexpected : ∀ text, Tandem application P Equal (do log .warning "core.outbound" text; return sent)
      (do log .warning "core.outbound" text; return sent) := fun text =>
    (tandem_log _ _ _ _).bind_equal fun _ _ _ => tandem_pure fun _ _ => rfl
  unfold reconcile
  rw [h.length_eq]
  dsimp only
  cases hp : position? batch₂.length t with
  | none => exact hunexpected _
  | some p =>
    dsimp only
    have hlt₂ : p < batch₂.length := position?_lt hp
    have hlt₁ : p < batch₁.length := h.length_eq ▸ hlt₂
    have hsame : P.Same batch₁[p] batch₂[p] := (List.forall₂_iff_get.mp h).2 p hlt₁ hlt₂
    rw [List.getElem?_eq_getElem hlt₁, List.getElem?_eq_getElem hlt₂]
    dsimp only
    split
    · exact hunexpected _
    · split
      · exact (tandem_announce hsame t).bind_equal fun _ _ _ => tandem_pure fun _ _ => rfl
      · rw [destination_of_bare hsame.bare]
        exact (tandem_notify (.transmitError hsame.bare _)).bind_equal fun _ _ _ => tandem_pure fun _ _ => rfl

theorem tandem_workThrough {ε ζ : Type} {R : Pairing → ε → ε → Prop} {command : String}
    (arguments : List ε → List String)
    {parse : Value → Except Fault ζ} {queue : Queues Callable → List ε} {rest : List ε → ζ → Phase Callable Unit}
    (hmono : ∀ {P P'} {xs₁ xs₂ : List ε}, List.Forall₂ (R P) xs₁ xs₂ → P.Grows P' → List.Forall₂ (R P') xs₁ xs₂)
    (hqueue : ∀ {P : Pairing} {q₁ q₂}, P.Queued q₁ q₂ → List.Forall₂ (R P) (queue q₁) (queue q₂))
    (harguments : ∀ {P} {xs₁ xs₂ : List ε}, List.Forall₂ (R P) xs₁ xs₂ → arguments xs₁ = arguments xs₂)
    (hrest : ∀ {P} {xs₁ xs₂ : List ε} b, List.Forall₂ (R P) xs₁ xs₂ →
      Tandem application P Equal (rest xs₁ b) (rest xs₂ b)) (size : Value) :
    Tandem application P Equal (workThrough command arguments parse size queue rest)
      (workThrough command arguments parse size queue rest) := by
  unfold workThrough
  refine tandem_queues.bind fun P₁ q₁ q₂ _ hq => ?_
  have hqueues := hqueue hq
  have hempty : (queue q₁).isEmpty = (queue q₂).isEmpty := by
    generalize queue q₁ = xs₁ at hqueues
    generalize queue q₂ = xs₂ at hqueues
    cases hqueues <;> rfl
  rw [hempty]
  split
  · exact tandem_pure fun _ _ => rfl
  · refine (tandem_settled _).bind_equal fun P₂ n hP₂ => ?_
    have htaken := List.forall₂_take n (hmono hqueues hP₂)
    dsimp only
    rw [harguments htaken]
    refine (tandem_modem _ _).bind_equal fun P₃ output hP₃ => ?_
    refine (tandem_settled _).bind_equal fun P₄ b hP₄ => ?_
    exact hrest b (hmono htaken (hP₃.trans hP₄))

theorem tandem_transmitPhase (size : Value) :
    Tandem application P Equal (transmitPhase size) (transmitPhase size) := by
  rw [transmitPhase_eq]
  refine tandem_workThrough (R := Pairing.Same) Outbound.arguments Pairing.same_mono (·.outbound) Pairing.Same.arguments
    (fun {P₀ batch₁ batch₂} results hbatch => ?_) size
  unfold afterSending
  refine (tandem_foldlM (fun P' sent t hP => tandem_reconcile (Pairing.same_mono hbatch hP) sent t) _ _).bind_equal
    fun P₁ sent hP₁ => ?_
  have hupdate : Tandem application P₁ Equal (update (requeueOutbound batch₁ sent))
      (update (requeueOutbound batch₂ sent)) := by
    refine tandem_update fun P₂ q₁ q₂ hP₂ hq => ⟨?_, hq.inbound, hq.deletion⟩
    unfold requeueOutbound
    rw [hbatch.length_eq]
    exact List.rel_append (List.forall₂_drop _ hq.outbound)
      (forall₂_unsent (Pairing.same_mono hbatch (hP₁.trans hP₂)) sent)
  exact hupdate.bind_equal fun _ _ _ => tandem_queues.bind fun _ _ _ _ _ => tandem_log _ _ _ _

/-! ## Reception -/

theorem tandem_forM {f : α → Phase Callable PUnit} (h : ∀ P a, Tandem application P Equal (f a) (f a)) (xs : List α) :
    Tandem application P Equal (xs.forM f) (xs.forM f) := by
  induction xs generalizing P with
  | nil => exact tandem_pure fun _ _ => rfl
  | cons x xs ih =>
    have hcons : (x :: xs).forM f = f x >>= fun _ => xs.forM f := rfl
    rw [hcons]
    exact (h P x).bind_equal fun _ _ _ => ih

/-- What is done to the queues with no regard to messages that wait to be sent. -/
theorem tandem_update_same {f : Queues Callable → Queues Callable}
    (hf : ∀ q, f q = { f { q with outbound := [] } with outbound := q.outbound }) :
    Tandem application P Equal (update f) (update f) := by
  refine tandem_update fun P' q₁ q₂ _ hq => ?_
  have hempty : ({ q₁ with outbound := [] } : Queues Callable) = { q₂ with outbound := [] } := by
    rw [hq.inbound, hq.deletion]
  rw [hf q₁, hf q₂, hempty]
  exact ⟨hq.outbound, rfl, rfl⟩

theorem tandem_deliver (m : Message) : Tandem application P Equal (deliver m) (deliver m) := by
  unfold deliver
  refine (tandem_attempt (.receive m)).bind_equal fun P' answer _ => ?_
  split
  · exact tandem_update_same fun _ => rfl
  · exact tandem_notify (.receiveError _ _)
  · exact tandem_log _ _ _ _

theorem tandem_deliverPhase : Tandem application P Equal deliverPhase deliverPhase := by
  unfold deliverPhase
  refine tandem_queues.bind fun P₁ q₁ q₂ _ hq => ?_
  dsimp only
  rw [hq.inbound]
  refine (tandem_forM (fun _ m => tandem_deliver m) _).bind_equal fun P₂ _ _ => ?_
  exact tandem_update_same fun _ => rfl

theorem tandem_collectPart (m : Message) : Tandem application P Equal (collectPart m) (collectPart m) := by
  unfold collectPart
  refine (tandem_request (.receiveSegment m)).discard.bind_equal fun P₁ _ _ => ?_
  refine (tandem_request (.returnSegments m.key)).bind_equal fun P₂ returned _ => ?_
  exact (tandem_settled _).bind_equal fun P₃ stored _ => tandem_pure fun _ _ => rfl

theorem tandem_receivePart (completed : List String) (m : Message) :
    Tandem application P Equal (receivePart completed m) (receivePart completed m) := by
  unfold receivePart
  split
  · exact tandem_pure fun _ _ => rfl
  · refine (tandem_collectPart m).guarded.bind_equal fun P₁ collected _ => ?_
    split
    · refine (tandem_log _ _ _ _).bind_equal fun P₂ _ _ => ?_
      exact (tandem_notify (.receiveError _ _)).bind_equal fun _ _ _ => tandem_pure fun _ _ => rfl
    · exact tandem_pure fun _ _ => rfl
    · refine (tandem_update_same fun _ => rfl).bind_equal fun P₂ _ _ => ?_
      exact (tandem_log _ _ _ _).bind_equal fun _ _ _ => tandem_pure fun _ _ => rfl

theorem tandem_readRecord (record : Value) : Tandem application P Equal (readRecord record) (readRecord record) := by
  unfold readRecord
  extract_lets reading rest
  have hrest : ∀ {P'} u, Tandem application P' Equal (rest u) (rest u) := fun _ => tandem_pure fun _ _ => rfl
  split
  · exact (tandem_log _ _ _ _).bind_equal fun _ u _ => hrest u
  · exact hrest ()

theorem tandem_receiveRecord (completed : List String) (record : Value) :
    Tandem application P Equal (receiveRecord completed record) (receiveRecord completed record) := by
  unfold receiveRecord
  refine (tandem_readRecord record).bind_equal fun P₁ reading _ => ?_
  split
  · split
    · exact tandem_receivePart _ _
    · exact (tandem_update_same fun _ => rfl).bind_equal fun _ _ _ => tandem_pure fun _ _ => rfl
  · split
    · refine (tandem_log _ _ _ _).bind_equal fun P₂ _ _ => ?_
      exact (tandem_notify (.receiveError _ _)).bind_equal fun _ _ _ => tandem_pure fun _ _ => rfl
    · exact tandem_throw _

theorem tandem_receivePhase : Tandem application P Equal receivePhase receivePhase := by
  rw [receivePhase_eq]
  refine (tandem_modem _ _).bind_equal fun P₁ output _ => ?_
  refine (tandem_settled _).bind_equal fun P₂ records _ => ?_
  refine (tandem_foldlM (fun _ completed record _ => tandem_receiveRecord completed record) _ _).discard.bind_equal
    fun P₃ _ _ => ?_
  unfold afterTaking
  extract_lets rest
  have hrest : ∀ {P'} u, Tandem application P' Equal (rest u) (rest u) := fun _ => tandem_deliverPhase
  split
  · refine tandem_queues.bind fun P₄ q₁ q₂ _ hq => ?_
    rw [hq.inbound]
    exact (tandem_log _ _ _ _).bind_equal fun _ u _ => hrest u
  · exact hrest ()

/-! ## Deletion -/

theorem tandem_settle (report : DeletionReport) (failed : List Candidate) (c : Candidate) :
    Tandem application P Equal (Gateway.settle report failed c) (Gateway.settle report failed c) := by
  unfold Gateway.settle
  split
  · exact (tandem_notify (.deleted c)).bind_equal fun _ _ _ => tandem_pure fun _ _ => rfl
  · exact (tandem_log _ _ _ _).bind_equal fun _ _ _ => tandem_pure fun _ _ => rfl

theorem tandem_deletePhase (size : Value) : Tandem application P Equal (deletePhase size) (deletePhase size) := by
  have heq : ∀ {P : Pairing} {cs₁ cs₂ : List Candidate}, List.Forall₂ (Equal P) cs₁ cs₂ ↔ cs₁ = cs₂ := by
    intro P cs₁ cs₂
    exact iff_of_eq (congrFun (congrFun List.forall₂_eq_eq_eq cs₁) cs₂)
  rw [deletePhase_eq]
  refine tandem_workThrough (R := Equal) Candidate.arguments (fun h _ => h) (fun hq => heq.mpr hq.deletion)
    (fun h => congrArg _ (heq.mp h)) (fun {P₀ batch₁ batch₂} report hbatch => ?_) size
  obtain rfl := heq.mp hbatch
  unfold afterErasing
  refine (tandem_foldlM (fun _ failed c _ => tandem_settle report failed c) _ _).bind_equal fun P₁ failed _ => ?_
  refine (tandem_update_same fun _ => rfl).bind_equal fun P₂ _ _ => ?_
  exact tandem_queues.bind fun _ _ _ _ _ => tandem_log _ _ _ _

/-! ## Cycles -/

theorem tandem_runPhase (name : String) {p : Phase Callable Unit} (h : ∀ P, Tandem application P Equal p p) :
    Tandem application P Equal (Gateway.runPhase name p) (Gateway.runPhase name p) := by
  unfold Gateway.runPhase
  refine (h P).guarded.bind_equal fun P₁ result _ => ?_
  split
  · exact tandem_pure fun _ _ => rfl
  · exact (tandem_log _ _ _ _).bind_equal fun _ _ _ => tandem_pure fun _ _ => rfl

theorem tandem_runCycle (config : Config) : Tandem application P Equal (runCycle config) (runCycle config) := by
  unfold runCycle
  refine (tandem_runPhase "Transmit" fun _ => tandem_transmitPhase _).bind_equal fun P₁ transmit _ => ?_
  refine (tandem_runPhase "Receive" fun _ => tandem_receivePhase).bind_equal fun P₂ receive _ => ?_
  refine (tandem_runPhase "Delete" fun _ => tandem_deletePhase _).bind_equal fun P₃ delete _ => ?_
  extract_lets report rest
  have hrest : ∀ {P'} u, Tandem application P' Equal (rest u) (rest u) := fun _ => tandem_pure fun _ _ => rfl
  split
  · exact (tandem_log _ _ _ _).bind_equal fun _ u _ => hrest u
  · exact hrest ()

end SmsRelay.Session
