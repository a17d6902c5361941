-- SUMMARY: No outbound message is lost, and none is handed over again once it has been reported as sent.
import SmsRelay.Proofs.Ledger
import SmsRelay.Proofs.Reach
import SmsRelay.Proofs.Replay
import SmsRelay.Proofs.Scope
import SmsRelay.Proofs.Stages

/-!
# Conservation of outbound messages

Whatever the modem tool and the handlers answer, no message that was accepted
for sending gets lost, and none is handed to the modem tool again once a result
has reported that it was sent.
-/

namespace SmsRelay.Gateway

open Phase

variable {κ σ : Type} {E : Surroundings κ σ} {batch : List (Outbound κ)} {sent : List Nat}
  {results : List TransmitResult} {i : Stage κ} {w w' : World κ σ}

/-! ## One transmission -/

section

variable {J : Stage κ → Fault → Prop}

/-- What has nothing to do with outbound messages does not lead to another stage. -/
theorem follows_notify_stay (hE : E.Contained) {n : Notice κ} :
    Follows E Owes (notify n) i (fun j _ => j = i) J := by
  apply follows_notify hE
  intro w cs s hw _
  exact ⟨i, Owes.answered hw cs s fun _ => trivial, rfl⟩

theorem follows_log_stay {level : Log.Level} {source text : String} :
    Follows E (Owes (κ := κ)) (log level source text) i (fun j _ => j = i) J := by
  apply follows_log
  intro w e hw
  exact ⟨i, Owes.note hw trivial, rfl⟩

theorem follows_announce (hE : E.Contained) {m : Outbound κ} {t : TransmitResult} {p : Nat} (hresult : t ∈ results)
    (hpos : position? batch.length t = some p) (hm : batch[p]? = some m) (hp : p ∉ sent) (ht : t.succeeded = true) :
    Follows E Owes (announce m t) ⟨batch, sent, results⟩ (fun j _ => j = ⟨batch, p :: sent, results⟩) J := by
  unfold announce
  -- what follows the callback, if there is one
  extract_lets rest
  have hrest : ∀ u, Follows E Owes (rest u) ⟨batch, sent, results⟩
      (fun j _ => j = ⟨batch, p :: sent, results⟩) J := by
    intro u
    refine (follows_attempt hE (P := fun j _ => j = ⟨batch, p :: sent, results⟩) ?_).bind ?_
    · intro w cs s a hw _
      exact ⟨⟨batch, p :: sent, results⟩, Owes.announce hw hresult hpos hm hp ht cs s a, rfl⟩
    · intro j a heq
      subst heq
      cases a with
      | ok x => exact follows_pure rfl
      | error f => exact follows_notify_stay hE
  split
  · refine (follows_callback hE (P := fun j _ => j = ⟨batch, sent, results⟩) ?_).bind ?_
    · intro w cs s hw _
      exact ⟨⟨batch, sent, results⟩, Owes.answered hw cs s fun _ => trivial, rfl⟩
    · intro j u heq
      subst heq
      exact hrest u
  · exact hrest ()

/-- Each result is either announced, in which case the message is struck off, or leaves all as it is. -/
theorem follows_reconcile (hE : E.Contained) {t : TransmitResult} (hresult : t ∈ results) :
    Follows E Owes (reconcile batch sent t) ⟨batch, sent, results⟩ (fun j sent' => j = ⟨batch, sent', results⟩) J := by
  have unexpected : ∀ {text : String}, Follows E Owes (do log .warning "core.outbound" text; return sent)
      ⟨batch, sent, results⟩ (fun j sent' => j = ⟨batch, sent', results⟩) J := by
    intro text
    refine follows_log_stay.bind ?_
    intro j _ heq
    subst heq
    exact follows_pure rfl
  unfold reconcile
  dsimp only
  split
  · exact unexpected
  · rename_i p hpos
    split
    · exact unexpected
    · rename_i m hm
      split
      · exact unexpected
      · rename_i hp
        split
        · rename_i ht
          refine (follows_announce hE hresult hpos hm hp ht).bind ?_
          intro j _ heq
          subst heq
          exact follows_pure rfl
        · refine (follows_notify_stay hE).bind ?_
          intro j _ heq
          subst heq
          exact follows_pure rfl

/-- A transmission takes a batch, strikes off what has been sent, and puts the rest back. -/
theorem follows_transmitPhase (hE : E.Contained) {size : Value} :
    Follows E (Owes (κ := κ)) (transmitPhase size) .idle (fun j _ => j = .idle) (fun j _ => j = .idle) := by
  unfold transmitPhase
  apply follows_queues_bind
  intro w hw
  by_cases hempty : w.queues.outbound.isEmpty = true
  · refine ⟨.idle, hw, ?_⟩
    rw [if_pos hempty]
    exact follows_pure rfl
  · rw [if_neg hempty]
    cases Config.batchCount size with
    | error e => exact ⟨.idle, hw, follows_settled_bind (by simp) fun _ _ => rfl⟩
    | ok n =>
      refine ⟨⟨w.queues.outbound.take n, [], []⟩, hw.take n, follows_settled_bind ?_ (by simp)⟩
      intro b heq
      cases heq
      -- a transmission of which nothing has come ends as soon as that is known
      refine (follows_modem (P := fun j output =>
        (∃ results, j = ⟨w.queues.outbound.take n, [], results⟩ ∧ TransmitResult.ofOutput output = .ok results) ∨
        (j = .idle ∧ ∃ e, TransmitResult.ofOutput output = .error e)) ?_ ?_).bind ?_
      · intro v cs s output hv _
        cases hout : TransmitResult.ofOutput output with
        | ok results => exact ⟨_, Owes.report hv hout cs s, .inl ⟨results, rfl, rfl⟩⟩
        | error e => exact ⟨.idle, (Owes.submit hv cs s _).abandon, .inr ⟨rfl, e, rfl⟩⟩
      · intro v cs s e hv _
        exact ⟨.idle, (Owes.submit hv cs s _).abandon, rfl⟩
      · intro j output hs
        rcases hs with ⟨results, rfl, hresults⟩ | ⟨rfl, e, he⟩
        · rw [hresults]
          refine follows_settled_bind ?_ (by simp)
          intro b heq
          cases heq
          refine (follows_foldlM (Q := fun j sent => j = ⟨w.queues.outbound.take n, sent, results⟩) rfl ?_).bind ?_
          · intro t ht j sent heq
            subst heq
            exact follows_reconcile hE ht
          · intro j sent heq
            subst heq
            refine (follows_update (P := fun j _ => j = .idle) ?_).bind ?_
            · intro v hv
              exact ⟨.idle, Owes.requeue hv, rfl⟩
            · intro j _ heq
              subst heq
              apply follows_queues_bind
              intro v hv
              exact ⟨.idle, hv, follows_log_stay⟩
        · rw [he]
          exact follows_settled_bind (by simp) fun _ _ => rfl

end

/-- A transmission leaves each accepted message in the queue or announced. -/
theorem owes_transmitPhase (hE : E.Contained) {size : Value} (hw : Owes .idle w) :
    Ensures E (transmitPhase size) w (fun _ => Owes .idle) (fun _ => Owes .idle) := by
  refine ((follows_transmitPhase hE).ensures hw).mono ?_ ?_
  · intro _ v ⟨j, hj, heq⟩
    subst heq
    exact hj
  · intro _ v ⟨j, hj, heq⟩
    subst heq
    exact hj

/-- Questions that leave outbound messages alone leave the ledger alone. -/
theorem owes_answers {q : Ask κ} (hq : q.OffTransmission) {r : q.Answer} (h : World.Answers E w q r w')
    (hw : Owes i w) : Owes i w' := by
  cases q with
  | queues =>
    obtain ⟨-, rfl⟩ := h
    exact hw
  | update f =>
    obtain rfl := h
    exact hw.of_eq (hq w.queues) rfl
  | log e =>
    obtain rfl := h
    exact hw.note trivial
  | modem command arguments =>
    obtain ⟨cs, s, -, rfl⟩ := h
    exact hw.answered cs s fun _ => hq
  | request t =>
    obtain ⟨cs, s, -, rfl⟩ := h
    refine hw.answered cs s fun _ => ?_
    cases t with
    | transmit m t => exact hq rfl
    | _ => trivial
  | notify n =>
    obtain ⟨cs, s, -, rfl⟩ := h
    exact hw.answered cs s fun _ => trivial
  | callback k m t => exact hq.elim

theorem keeps_owes {α : Type} {p : Phase κ α} (hp : Asks Ask.OffTransmission p) :
    Keeps E (Owes i) p :=
  hp.keeps fun _ hq _ _ _ h => owes_answers hq h

/-- A cycle leaves each accepted message in the queue or announced. -/
theorem owes_runCycle (hE : E.Contained) (config : Config) : Keeps E (Owes .idle) (runCycle config) :=
  keeps_runCycle (fun _ _ hw => hw.note trivial) (fun _ hw => owes_transmitPhase hE hw)
    (keeps_owes asks_receivePhase) (keeps_owes ((asks_deletePhase _).mono fun _ => Ask.OfDeletion.offTransmission))

/-! ## Whole runs -/

theorem owes_phase (hE : E.Contained) (config : Config) (a : Activity) :
    Keeps E (Owes .idle) (a.phase config) := by
  cases a with
  | transmit => exact fun _ hw => owes_transmitPhase hE hw
  | receive => exact keeps_owes asks_receivePhase
  | deliver => exact keeps_owes asks_deliverPhase.offTransmission
  | delete => exact keeps_owes ((asks_deletePhase _).mono fun _ => Ask.OfDeletion.offTransmission)
  | cycle => exact (owes_runCycle hE config).discard

/-- Throughout a run no transmission is underway between the phases. -/
theorem owes_reaches (hE : E.Contained) {config : Config} {s : σ} (h : Reaches E config { outside := s } w) :
    Owes .idle w :=
  h.keeps (fun c _ hv => hv.send c) (owes_phase hE config) (owes_start s)

/-- If no message was accepted twice, each is in the queue or announced, and not both. -/
theorem Owes.mem_outbound_iff (h : Owes .idle w) (hnodup : (accepted w.history).Nodup) {m : Outbound κ}
    (hm : m ∈ accepted w.history) : m ∈ w.queues.outbound ↔ m ∉ announced w.history := by
  have hall := List.nodup_append.mp (h.perm.nodup_iff.mp hnodup)
  constructor
  · intro hq ha
    exact hall.2.2 m hq m ha rfl
  · intro ha
    have hor := List.mem_append.mp (h.perm.mem_iff.mp hm)
    exact hor.resolve_right ha

/-- A batch that was handed to the modem tool, with all that had been announced, had been accepted. -/
theorem Owes.submitted (h : Owes .idle w) {found : Queues κ} {arguments : List String}
    {output : Except Fault Value} {older : List (Occurrence κ)}
    (hsuffix : .modem found "send" arguments output :: older <:+ w.history) :
    ∃ batch, batch <+: found.outbound ∧ arguments = Outbound.arguments batch ∧
      (batch ++ announced older).Subperm (accepted older) := by
  obtain ⟨batch, hfront, hargs, hperm⟩ := h.submits found arguments output older hsuffix
  have hsub : (batch ++ announced older).Sublist (found.outbound ++ announced older) :=
    hfront.sublist.append_right _
  exact ⟨batch, hfront, hargs, hsub.subperm.trans hperm.symm.subperm⟩

/-- What was accepted earlier is among what is accepted now. -/
theorem accepted_sublist {older history : List (Occurrence κ)} (h : older <:+ history) :
    (accepted older).Sublist (accepted history) := h.sublist.filterMap _

/-- A message is refused for one of its arguments. -/
theorem SendCall.fault_eq {c : SendCall κ} {f : Fault} (h : c.message = .error f) :
    f = .badCallback ∨ f = .badDestination ∨ f = .badText := by
  have hattach : ∀ {a b : Supplied κ} {e : Fault},
      Outbound.attachments a b = .error e → e = .badCallback := by
    intro a b e he
    unfold Outbound.attachments at he
    split at he <;> simp_all
  have htext : ∀ {v : Value} {e e' : Fault}, Outbound.requireText e v = .error e' → e' = e := by
    intro v e e' he
    unfold Outbound.requireText at he
    split at he
    · split at he <;> simp_all
    · simp_all
  unfold SendCall.message Outbound.ofArguments at h
  cases ha : Outbound.attachments c.context c.callback with
  | error e =>
    simp only [ha, bind, Except.bind, Except.error.injEq] at h
    exact .inl (h ▸ hattach ha)
  | ok x =>
    cases hd : Outbound.requireText .badDestination c.destination with
    | error e =>
      simp only [ha, hd, bind, Except.bind, Except.error.injEq] at h
      exact .inr (.inl (h ▸ htext hd))
    | ok d =>
      cases ht : Outbound.requireText .badText c.text with
      | error e =>
        simp only [ha, hd, ht, bind, Except.bind, Except.error.injEq] at h
        exact .inr (.inr (h ▸ htext ht))
      | ok t => simp [ha, hd, ht, bind, Except.bind, pure, Except.pure] at h

/-- An attempt to send that is refused changes nothing. -/
theorem World.send_of_error {c : SendCall κ} {f : Fault} (h : c.message = .error f) (w : World κ σ) :
    w.send c = w := by
  unfold World.send
  rw [h]

/-- Whatever the modem tool and the handlers answer, and whatever is sent meanwhile, between the phases of
a run: what has been accepted for sending is what is queued and what has been announced as sent, message
by message; what has been announced has been reported by the modem tool; a batch that was handed to the
modem tool held accepted messages that had not been announced; and an attempt to send that is refused has
no part in this. -/
theorem outbound_conserved {config : Config} {w : World κ Unit}
    (h : Reaches .free config { outside := () } w) :
    (accepted w.history).Perm (w.queues.outbound ++ announced w.history) ∧
    (∀ m ∈ announced w.history, ReportedSent w.history m) ∧
    ((accepted w.history).Nodup → (announced w.history).Nodup ∧
      ∀ m ∈ accepted w.history, m ∈ w.queues.outbound ↔ m ∉ announced w.history) ∧
    (∀ found arguments output older,
      Occurrence.modem found "send" arguments output :: older <:+ w.history →
      ∃ batch, batch <+: found.outbound ∧ arguments = Outbound.arguments batch ∧
        (batch ++ announced older).Subperm (accepted older) ∧
        ((accepted w.history).Nodup → ∀ m ∈ batch, m ∉ announced older)) ∧
    ∀ (c : SendCall κ) f, c.message = .error f →
      (f = .badCallback ∨ f = .badDestination ∨ f = .badText) ∧ w.send c = w := by
  have howes : Owes .idle w := owes_reaches Surroundings.contained_free h
  refine ⟨howes.perm, howes.credits, ?_, ?_, ?_⟩
  · intro hnodup
    have hall := List.nodup_append.mp (howes.perm.nodup_iff.mp hnodup)
    exact ⟨hall.2.1, fun m hm => howes.mem_outbound_iff hnodup hm⟩
  · intro found arguments output older hsuffix
    obtain ⟨batch, hfront, hargs, hsub⟩ := howes.submitted hsuffix
    refine ⟨batch, hfront, hargs, hsub, ?_⟩
    intro hnodup m hm ha
    have holder : (accepted older).Nodup :=
      hnodup.sublist (accepted_sublist ((List.suffix_cons _ _).trans hsuffix))
    obtain ⟨batch', hperm, hsublist⟩ := hsub
    have hboth := List.nodup_append.mp (hperm.nodup_iff.mp (holder.sublist hsublist))
    exact hboth.2.2 m hm m ha rfl
  · intro c f hc
    exact ⟨c.fault_eq hc, World.send_of_error hc w⟩

/-- A transmission that succeeds, while another message is sent and a handler fails. -/
def sendingReplies : Replies Unit Unit where
  modem _ _ _ := (.ok (.list [.object [("index", .int 1), ("result", .text "success")]]),
    [{ destination := .text "+2", text := .text "b" }], ())
  request _ _ := (.error (.signalled .runtime "busy"), [], ())

theorem sendingReplies_allowed : sendingReplies.Allowed .free where
  modem _ _ _ := by simp [sendingReplies, Surroundings.free]
  request _ _ := by simp [sendingReplies, Surroundings.free, Fault.isCancellation]
  notify _ _ := rfl
  callback _ _ _ _ := rfl

theorem outbound_conserved_sending : ∃ w : World Unit Unit,
    Reaches .free {} { outside := () } w ∧
    (accepted w.history).Perm (w.queues.outbound ++ announced w.history) ∧
    w.queues.outbound = [{ destination := "+2", text := "b" }] ∧
    announced w.history = [{ destination := "+1", text := "a" }] := by
  have hstart : Reaches (κ := Unit) .free {} { outside := () } { outside := () } := .start
  have hqueued := hstart.send { destination := .text "+1", text := .text "a" }
  have h := hqueued.act .transmit (Replies.runs_run sendingReplies_allowed _ _)
  exact ⟨_, h, (outbound_conserved h).1, by rfl, by rfl⟩

end SmsRelay.Gateway
