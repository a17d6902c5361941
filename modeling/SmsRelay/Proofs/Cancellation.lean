-- SUMMARY: Transmissions that are cancelled while results are announced: the queue they leave, and when nothing is sent again.
import SmsRelay.Proofs.Reconciliation

/-!
# Cancelled transmissions

What becomes of a batch when the application cancels the transmission while it
is told of the results. The queue is changed once all results have been worked
through and not before. So a cancellation leaves it as it was, with the messages
in it that have been handed over already, and the next transmission sends them
again; without one, what has been handed over is gone.
-/

namespace SmsRelay.Gateway

open Phase

variable {κ σ : Type}

/-! ## Messages handed over -/

/-- The verdicts that a message of the batch has been sent: one for each such message. -/
def handed (batch : List (Outbound κ)) (results : List TransmitResult) : List (Verdict κ) :=
  (verdicts batch results).filter (·.result.succeeded)

section

variable {batch : List (Outbound κ)} {results : List TransmitResult}

theorem handed_ignore {before : List TransmitResult} {r : TransmitResult} (h : verdict? batch before r = none) :
    handed batch (before ++ [r]) = handed batch before := by
  rw [handed, verdicts_append_singleton, h, Option.toList_none, List.append_nil, handed]

theorem handed_count {before : List TransmitResult} {r : TransmitResult} {d : Verdict κ}
    (h : verdict? batch before r = some d) :
    handed batch (before ++ [r]) = handed batch before ++ if r.succeeded then [d] else [] := by
  obtain ⟨rfl, -⟩ := verdict?_eq_some.mp h
  rw [handed, verdicts_append_singleton, h, Option.toList_some, List.filter_append, handed, List.filter_singleton,
    Bool.cond_eq_ite]

/-- The places of the messages that have been handed over are those that some result reports as sent. -/
theorem mem_place_handed {p : Nat} :
    p ∈ (handed batch results).map Verdict.place ↔ p < batch.length ∧ ∃ r ∈ results, Sends p r := by
  constructor
  · intro h
    obtain ⟨d, hd, rfl⟩ := List.mem_map.mp h
    obtain ⟨hverdict, hsucceeded⟩ := List.mem_filter.mp hd
    obtain ⟨x, -, hx⟩ := List.mem_filterMap.mp hverdict
    obtain ⟨heq, hindex, hm, -⟩ := verdict?_eq_some.mp hx
    have hresult := (results_verdicts_sublist batch results).subset (List.mem_map_of_mem hverdict)
    exact ⟨(List.getElem?_eq_some_iff.mp hm).1, d.result, hresult, heq ▸ hindex, hsucceeded⟩
  · intro ⟨hp, r, hr, hsends⟩
    have hsent := sent_verdicts (List.getElem?_eq_getElem hp) results
    cases hfirst : results.find? (Sends p ·) with
    | none => exact absurd hsends (by simpa using List.find?_eq_none.mp hfirst r hr)
    | some e =>
      have hmem : (⟨p, batch[p], e⟩ : Verdict κ) ∈
          ((verdicts batch results).filter (·.place = p)).filter (·.result.succeeded) := by
        rw [hsent, hfirst]
        exact List.mem_cons_self
      obtain ⟨hplace, hsucceeded⟩ := List.mem_filter.mp hmem
      exact List.mem_map.mpr ⟨_, List.mem_filter.mpr ⟨(List.mem_filter.mp hplace).1, hsucceeded⟩, rfl⟩

theorem unsent_congr {sent sent' : List Nat} (h : ∀ p, p ∈ sent ↔ p ∈ sent') :
    unsent batch sent = unsent batch sent' := by simp only [unsent, h]

/-- The batch is what has been handed over and what has not. -/
theorem handed_perm (batch : List (Outbound κ)) (results : List TransmitResult) :
    (unsent batch ((handed batch results).map Verdict.place) ++ (handed batch results).map Verdict.message).Perm
      batch := by
  induction results using List.reverseRecOn with
  | nil => exact .of_eq (by simp [handed])
  | append_singleton before r ih =>
    cases hverdict : verdict? batch before r with
    | none => rwa [handed_ignore hverdict]
    | some d =>
      obtain ⟨rfl, -, hm, hearlier⟩ := verdict?_eq_some.mp hverdict
      rw [handed_count hverdict]
      split
      · have hfresh : d.place ∉ (handed batch before).map Verdict.place := by
          intro hmem
          obtain ⟨-, e, he, hsends⟩ := mem_place_handed.mp hmem
          exact hearlier e he hsends
        have hstruck : unsent batch ((handed batch before).map Verdict.place ++ [d.place]) =
            unsent batch (d.place :: (handed batch before).map Verdict.place) :=
          unsent_congr fun p => by simp [or_comm]
        rw [List.map_append, List.map_append, List.map_singleton, List.map_singleton, hstruck, ← List.append_assoc]
        refine (List.perm_append_singleton _ _).trans ?_
        exact ((unsent_perm hm hfresh).append_right _).symm.trans ih
      · rwa [List.append_nil]

end

/-! ## What the application hears -/

/-- What the application hears of a verdict, and the cancellation that it answers with, if any. Whoever is told may
cancel the transmission: the callback, the handler, or one that is only given notice. -/
inductive Verdict.Heard (v : Verdict κ) : List (Occurrence κ) → Option Fault → Prop where
  | recalled (k : κ) (c : Cancellation) : v.result.succeeded = true → v.message.callback = some k →
      Heard v [.callback k v.message v.result] (some (.cancelled c.text))
  | heard (a : Returned) : v.result.succeeded = true →
      Heard v (v.callbacks ++ [.request (.transmit v.message v.result) (.ok a)]) none
  | cancelled (f : Fault) : v.result.succeeded = true → f.isCancellation = true →
      Heard v (v.callbacks ++ [.request (.transmit v.message v.result) (.error f)]) (some f)
  | refused (f : Fault) (x : Except Cancellation Unit) : v.result.succeeded = true → f.isCancellation = false →
      Heard v (v.callbacks ++ [.request (.transmit v.message v.result) (.error f),
        .notice (.transmitError v.message f)]) (fault? (contain x))
  | failed (x : Except Cancellation Unit) : v.result.succeeded = false →
      Heard v [.notice (.transmitError v.message (.partialTransmission v.message.destination v.result.status))]
        (fault? (contain x))

/-- What the application hears of some verdicts in turn, up to a cancellation in the last of them. -/
inductive Hearing : List (Verdict κ) → List (Occurrence κ) → Option Fault → Prop where
  | start : Hearing [] [] none
  | next {ds : List (Verdict κ)} {os os' : List (Occurrence κ)} {d : Verdict κ} {ending : Option Fault} :
      Hearing ds os none → d.Heard os' ending → Hearing (ds ++ [d]) (os ++ os') ending

section

variable {E : Surroundings κ σ} {w : World κ σ}

theorem ensures_announce_or_cancelled {v : Verdict κ} (hv : v.result.succeeded = true) :
    Ensures E (announce v.message v.result) w (fun _ w' => ∃ os, v.Heard os none ∧ Says os w w')
      (fun f w' => f.isCancellation = true ∧ ∃ os, v.Heard os (some f) ∧ Says os w w') := by
  unfold announce
  extract_lets rest
  have hrest : ∀ u x, Says v.callbacks w x →
      Ensures E (rest u) x (fun _ w' => ∃ os, v.Heard os none ∧ Says os w w')
        (fun f w' => f.isCancellation = true ∧ ∃ os, v.Heard os (some f) ∧ Says os w w') := by
    intro u x hx
    refine (ensures_attempt_or_cancelled (P := fun a y =>
      Says (v.callbacks ++ [.request (.transmit v.message v.result) a]) w y ∧
        ∀ f, a = .error f → f.isCancellation = false) ?_ ?_).bind ?_
    · exact fun cs s a _ ha => ⟨hx.trans (says_answered cs s rfl x), ha⟩
    · exact fun cs s f _ hf => ⟨hf, _, .cancelled f hv hf, hx.trans (says_answered cs s rfl x)⟩
    · intro a y ⟨hy, ha⟩
      cases a with
      | ok a => exact ensures_pure ⟨_, .heard a hv, hy⟩
      | error f =>
        have hsaid : ∀ cs s, Says (v.callbacks ++ [.request (.transmit v.message v.result) (.error f),
            .notice (.transmitError v.message f)]) w
            (y.answered cs s fun _ => .notice (.transmitError v.message f)) := by
          intro cs s
          have hboth := hy.trans (says_answered cs s (o := .notice (.transmitError v.message f)) rfl y)
          rwa [List.append_assoc] at hboth
        apply ensures_notify_or_cancelled
        · exact fun cs s _ => ⟨_, .refused f (.ok ()) hv (ha f rfl), hsaid cs s⟩
        · exact fun cs s c _ => ⟨rfl, _, .refused f (.error c) hv (ha f rfl), hsaid cs s⟩
  cases hcallback : v.message.callback with
  | none =>
    have hnone : v.callbacks = [] := by
      rw [Verdict.callbacks, hcallback]
      rfl
    exact hrest () w (hnone ▸ Says.refl w)
  | some k =>
    have hsome : v.callbacks = [.callback k v.message v.result] := by
      rw [Verdict.callbacks, hcallback]
      rfl
    refine (ensures_callback_or_cancelled (P := fun _ x => Says v.callbacks w x) ?_ ?_).bind hrest
    · intro cs s _
      rw [hsome]
      exact says_answered cs s rfl w
    · exact fun cs s c _ => ⟨rfl, _, .recalled k c hv hcallback, says_answered cs s rfl w⟩

/-! ## The results in turn -/

/-- The application has been told of the results so far, and the places of the messages handed over are struck off. -/
structure Handled (batch : List (Outbound κ)) (w : World κ σ) (before : List TransmitResult) (sent : List Nat)
    (v : World κ σ) : Prop where
  sent : ∀ p, p ∈ sent ↔ p ∈ (handed batch before).map Verdict.place
  told : ∃ os, Hearing (verdicts batch before) os none ∧ Says os w v

/-- The application has cancelled the transmission with one of the results. -/
structure CutShort (batch : List (Outbound κ)) (results : List TransmitResult) (w : World κ σ) (f : Fault)
    (v : World κ σ) : Prop where
  cancelled : f.isCancellation = true
  told : ∃ reached os, reached <+: results ∧ Hearing (verdicts batch reached) os (some f) ∧ Says os w v

namespace Handled

variable {batch : List (Outbound κ)} {before results : List TransmitResult} {sent : List Nat} {r : TransmitResult}
  {v v' : World κ σ}

theorem start (batch : List (Outbound κ)) (hv : Says [] w v) : Handled batch w [] [] v :=
  ⟨by simp [handed], [], .start, hv⟩

theorem ignore (h : Handled batch w before sent v) (hr : verdict? batch before r = none) (hv : Says [] v v') :
    Handled batch w (before ++ [r]) sent v' where
  sent := handed_ignore hr ▸ h.sent
  told := by
    obtain ⟨os, hos, hsays⟩ := h.told
    rw [verdicts_append_singleton, hr, Option.toList_none, List.append_nil]
    exact ⟨os, hos, by simpa using hsays.trans hv⟩

theorem count {d : Verdict κ} (h : Handled batch w before sent v) (hr : verdict? batch before r = some d)
    {os : List (Occurrence κ)} (hos : d.Heard os none) (hv : Says os v v') :
    Handled batch w (before ++ [r]) (if r.succeeded then d.place :: sent else sent) v' where
  sent p := by
    rw [handed_count hr]
    split <;> simp [h.sent, or_comm]
  told := by
    obtain ⟨earlier, hearlier, hsays⟩ := h.told
    rw [verdicts_append_singleton, hr]
    exact ⟨_, hearlier.next hos, hsays.trans hv⟩

/-- A result with which the transmission is cancelled is the last one. -/
theorem cut {d : Verdict κ} (h : Handled batch w before sent v) (hr : verdict? batch before r = some d)
    (hreached : before ++ [r] <+: results) {f : Fault} (hf : f.isCancellation = true) {os : List (Occurrence κ)}
    (hos : d.Heard os (some f)) (hv : Says os v v') : CutShort batch results w f v' where
  cancelled := hf
  told := by
    obtain ⟨earlier, hearlier, hsays⟩ := h.told
    refine ⟨before ++ [r], _, hreached, ?_, hsays.trans hv⟩
    rw [verdicts_append_singleton, hr]
    exact hearlier.next hos

end Handled

theorem ensures_reconcile_or_cancelled {batch : List (Outbound κ)} {before results : List TransmitResult}
    {sent : List Nat} {r : TransmitResult} {v : World κ σ} (h : Handled batch w before sent v)
    (hreached : before ++ [r] <+: results) :
    Ensures E (reconcile batch sent r) v (Handled batch w (before ++ [r])) (CutShort batch results w) := by
  rw [reconcile_eq fun p => (h.sent p).trans mem_place_handed]
  cases hverdict : verdict? batch before r with
  | none => exact ensures_log_bind (ensures_pure (h.ignore hverdict (says_logged _)))
  | some d =>
    obtain ⟨rfl, -⟩ := verdict?_eq_some.mp hverdict
    dsimp only
    split
    · rename_i hr
      have hcut : ∀ f x, (f.isCancellation = true ∧ ∃ os, d.Heard os (some f) ∧ Says os v x) →
          CutShort batch results w f x := by
        intro f x ⟨hf, os, hos, hsays⟩
        exact h.cut hverdict hreached hf hos hsays
      refine ((ensures_announce_or_cancelled hr).mono (fun _ _ => id) hcut).bind ?_
      intro _ x ⟨os, hos, hsays⟩
      have hcounted := h.count hverdict hos hsays
      rw [if_pos hr] at hcounted
      exact ensures_pure hcounted
    · rename_i hr
      have hfailed : d.result.succeeded = false := by simpa using hr
      refine (ensures_notify_or_cancelled (P := fun _ x => Says [.notice (.transmitError d.message
        (.partialTransmission d.message.destination d.result.status))] v x) ?_ ?_).bind ?_
      · exact fun cs s _ => says_answered cs s rfl v
      · exact fun cs s c _ => h.cut hverdict hreached rfl (.failed (.error c) hfailed) (says_answered cs s rfl v)
      · intro _ x hsays
        have hcounted := h.count hverdict (.failed (.ok ()) hfailed) hsays
        rw [if_neg hr] at hcounted
        exact ensures_pure hcounted

/-! ## Whole transmissions -/

/-- How a transmission has ended whose call gave results: it has come to some of them, and told the application of
these; the queue has been changed if it has come to the end of them. The messages that were sent meanwhile have joined
the queue. -/
structure Concluded (size : Value) (w w' : World κ σ) (ending : Option Fault) (output : Except Fault Value)
    (results : List TransmitResult) (n : Nat) (reached : List TransmitResult) (told : List (Occurrence κ))
    (joined : List (Outbound κ)) : Prop where
  queued : w.queues.outbound ≠ []
  sized : Config.batchCount size = .ok n
  called : toolCalls w'.history =
    ⟨"send", Outbound.arguments (w.queues.outbound.take n), output⟩ :: toolCalls w.history
  read : output >>= TransmitResult.ofOutput = .ok results
  come : reached <+: results
  complete : ending = none → reached = results
  cancelled : ∀ f, ending = some f → f.isCancellation = true
  heard : Hearing (verdicts (w.queues.outbound.take n) reached) told ending
  said : spoken w'.history = told.reverse ++ spoken w.history
  grown : accepted w'.history = joined.reverse ++ accepted w.history
  queue : w'.queues.outbound = if ending.isSome then w.queues.outbound ++ joined
    else (w.queues.outbound ++ joined).drop (w.queues.outbound.take n).length ++
      unsent (w.queues.outbound.take n) ((handed (w.queues.outbound.take n) reached).map Verdict.place)

theorem ensures_afterSending_or_cancelled (batch : List (Outbound κ)) (results : List TransmitResult)
    {x : World κ σ} (hx : Says [] w x) :
    Ensures E (afterSending batch results) x
      (fun _ w' => ∃ told joined, Hearing (verdicts batch results) told none ∧
        spoken w'.history = told.reverse ++ spoken w.history ∧
        accepted w'.history = joined.reverse ++ accepted w.history ∧
        w'.queues.outbound = (w.queues.outbound ++ joined).drop batch.length ++
          unsent batch ((handed batch results).map Verdict.place))
      (CutShort batch results w) := by
  unfold afterSending
  refine (ensures_foldlM (Handled batch w) (.start batch hx) ?_).bind ?_
  · exact fun before r sent v hreached hv => ensures_reconcile_or_cancelled hv hreached
  · intro sent v hv
    obtain ⟨told, htold, hsays⟩ := hv.told
    obtain ⟨joined, hqueue, haccepted⟩ := hsays.joined
    refine ensures_update_bind (ensures_queues_bind (ensures_log ⟨told, joined, htold, hsays.spoken, haccepted, ?_⟩))
    change v.queues.outbound.drop batch.length ++ unsent batch sent = _
    rw [hqueue, unsent_congr hv.sent]

/-- A transmission makes no call if there is nothing to send, or one for a batch from the front of the queue. If that
does not fail it comes to some of the results, and to the end of them unless it is cancelled. -/
theorem ensures_transmitPhase_or_cancelled (size : Value) (w : World κ σ) :
    Ensures E (transmitPhase size) w
      (fun _ w' => (w.queues.outbound = [] ∧ w' = w) ∨
        ∃ output results n reached told joined, Concluded size w w' none output results n reached told joined)
      (fun f w' => (Config.batchCount size = .error f ∧ w' = w) ∨
        (∃ n output, Config.batchCount size = .ok n ∧ output >>= TransmitResult.ofOutput = .error f ∧
          toolCalls w'.history = ⟨"send", Outbound.arguments (w.queues.outbound.take n), output⟩ ::
            toolCalls w.history) ∨
        ∃ output results n reached told joined,
          Concluded size w w' (some f) output results n reached told joined) := by
  rw [transmitPhase_eq]
  refine ensures_workThrough_of ?_ ?_ ?_ ?_
  · exact fun hempty => .inl ⟨hempty, rfl⟩
  · exact fun f _ hf => .inl ⟨hf, rfl⟩
  · exact fun n cs s output f _ hn _ hf => .inr (.inl ⟨n, output, hn, hf, toolCalls_called ..⟩)
  · intro n cs s output results hne hn _ hresults
    have hcalled := keeps_toolCalls (E := E) (asks_afterSending (w.queues.outbound.take n) results) _ _
      (toolCalls_called cs s "send" (Outbound.arguments (w.queues.outbound.take n)) (.ok output) w)
    refine ((ensures_afterSending_or_cancelled _ results (says_called cs s _ _ _ w)).and hcalled).mono ?_ ?_
    · intro _ w' ⟨⟨told, joined, hheard, hsaid, hgrown, hqueue⟩, hcalled⟩
      exact .inr ⟨.ok output, results, n, results, told, joined, hne, hn, hcalled, hresults, List.prefix_rfl,
        fun _ => rfl, nofun, hheard, hsaid, hgrown, hqueue⟩
    · intro f w' ⟨hcut, hcalled⟩
      obtain ⟨reached, told, hreached, hheard, hsays⟩ := hcut.told
      obtain ⟨joined, hqueue, hgrown⟩ := hsays.joined
      refine .inr (.inr ⟨.ok output, results, n, reached, told, joined, hne, hn, hcalled, hresults, hreached, nofun, ?_,
        hheard, hsays.spoken, hgrown, hqueue⟩)
      rintro g ⟨⟩
      exact hcut.cancelled

/-- A transmission whose call gives results comes to one of these ends. -/
theorem concluded_of_call {size : Value} {w' : World κ σ} {r : Except Fault Unit}
    (hrun : (transmitPhase size).Runs E w r w') {arguments : List String} {output : Except Fault Value}
    (hcall : toolCalls w'.history = ⟨"send", arguments, output⟩ :: toolCalls w.history)
    {results : List TransmitResult} (hresults : output >>= TransmitResult.ofOutput = .ok results) :
    ∃ n reached told joined, arguments = Outbound.arguments (w.queues.outbound.take n) ∧
      Concluded size w w' (fault? r) output results n reached told joined := by
  have hidle : w' ≠ w := by
    intro heq
    rw [heq] at hcall
    exact List.cons_ne_self _ _ hcall.symm
  have hconcluded : ∀ {ending output' results' n reached told joined},
      Concluded size w w' ending output' results' n reached told joined →
      arguments = Outbound.arguments (w.queues.outbound.take n) ∧
        Concluded size w w' ending output results n reached told joined := by
    intro ending output' results' n reached told joined h
    cases (List.cons.inj (hcall.symm.trans h.called)).1
    cases Except.ok.inj (h.read.symm.trans hresults)
    exact ⟨rfl, h⟩
  cases r with
  | ok u =>
    obtain ⟨-, heq⟩ | ⟨_, _, n, reached, told, joined, h⟩ :=
      (ensures_transmitPhase_or_cancelled size w).result hrun
    · exact absurd heq hidle
    · exact ⟨n, reached, told, joined, hconcluded h⟩
  | error f =>
    obtain ⟨-, heq⟩ | ⟨n, output', -, hfailed, hcalled⟩ | ⟨_, _, n, reached, told, joined, h⟩ :=
      (ensures_transmitPhase_or_cancelled size w).fault hrun
    · exact absurd heq hidle
    · cases (List.cons.inj (hcall.symm.trans hcalled)).1
      rw [hresults] at hfailed
      cases hfailed
    · exact ⟨n, reached, told, joined, hconcluded h⟩

/-- A transmission of something makes a call for a batch from the front of the queue. -/
theorem call_of_transmitPhase {size : Value} {n : Nat} (hn : Config.batchCount size = .ok n)
    (hne : w.queues.outbound ≠ []) {r : Except Fault Unit} {w' : World κ σ}
    (hrun : (transmitPhase size).Runs E w r w') :
    ∃ output, toolCalls w'.history =
      ⟨"send", Outbound.arguments (w.queues.outbound.take n), output⟩ :: toolCalls w.history := by
  have hsized : ∀ {k}, Config.batchCount size = .ok k → k = n := fun hk => Except.ok.inj (hk.symm.trans hn)
  cases r with
  | ok u =>
    obtain ⟨hempty, -⟩ | ⟨output, _, k, _, _, _, h⟩ := (ensures_transmitPhase_or_cancelled size w).result hrun
    · exact absurd hempty hne
    · exact ⟨output, hsized h.sized ▸ h.called⟩
  | error f =>
    obtain ⟨hf, -⟩ | ⟨k, output, hk, -, hcalled⟩ | ⟨output, _, k, _, _, _, h⟩ :=
      (ensures_transmitPhase_or_cancelled size w).fault hrun
    · rw [hn] at hf
      cases hf
    · exact ⟨output, hsized hk ▸ hcalled⟩
    · exact ⟨output, hsized h.sized ▸ h.called⟩

namespace Concluded

variable {size : Value} {w' : World κ σ} {ending : Option Fault} {f : Fault} {output : Except Fault Value}
  {results reached : List TransmitResult} {n : Nat} {told : List (Occurrence κ)} {joined : List (Outbound κ)}

/-- After a cancellation nothing has left the queue. -/
theorem unchanged (h : Concluded size w w' (some f) output results n reached told joined) :
    w'.queues.outbound = w.queues.outbound ++ joined := h.queue

/-- What has been handed over leaves the queue, and nothing else does, unless the transmission has been cancelled. -/
theorem leaves_iff (h : Concluded size w w' ending output results n reached told joined) :
    (w'.queues.outbound ++ (handed (w.queues.outbound.take n) reached).map Verdict.message).Perm
      (w.queues.outbound ++ joined) ↔ ending = none ∨ handed (w.queues.outbound.take n) reached = [] := by
  have hqueue := h.queue
  generalize hbatch : w.queues.outbound.take n = batch at hqueue ⊢
  have hfront : batch <+: w.queues.outbound ++ joined :=
    hbatch ▸ (List.take_prefix _ _).trans (List.prefix_append _ _)
  cases ending with
  | none =>
    refine iff_of_true ?_ (.inl rfl)
    rw [hqueue, if_neg nofun, List.append_assoc]
    refine ((handed_perm batch reached).append_left _).trans ?_
    exact List.perm_append_comm.trans (.of_eq (List.prefix_iff_eq_append.mp hfront))
  | some f =>
    have hnone : (w.queues.outbound ++ joined ++ (handed batch reached).map Verdict.message).Perm
        (w.queues.outbound ++ joined ++ []) ↔ handed batch reached = [] := by
      rw [List.perm_append_left_iff, List.perm_nil, List.map_eq_nil_iff]
    rw [List.append_nil] at hnone
    rw [h.unchanged, hnone]
    simp

/-- The next transmission after a cancelled one submits its batch again, and perhaps more. -/
theorem resubmitted (h : Concluded size w w' (some f) output results n reached told joined) {x x' : World κ σ}
    {t : Except Fault Unit} (hx : w'.queues.outbound <+: x.queues.outbound)
    (hrun : (transmitPhase size).Runs E x t x') :
    ∃ again output', toolCalls x'.history = ⟨"send", again, output'⟩ :: toolCalls x.history ∧
      Outbound.arguments (w.queues.outbound.take n) <+: again := by
  rw [h.unchanged] at hx
  obtain ⟨rest, hrest⟩ := (List.prefix_append _ _).trans hx
  have hne : x.queues.outbound ≠ [] := hrest ▸ List.append_ne_nil_of_left_ne_nil h.queued _
  obtain ⟨output', hcalled⟩ := call_of_transmitPhase h.sized hne hrun
  refine ⟨_, output', hcalled, ?_⟩
  rw [← hrest, List.take_append, Outbound.arguments, Outbound.arguments, List.flatMap_append]
  exact List.prefix_append _ _

end Concluded

/-- Whatever callbacks and handlers do when the application is told of the results: what has been handed over by the
end, the message that it was being told of included, leaves the queue unless the transmission has been cancelled. If it
has, nothing leaves the queue, and the next transmission of the same size submits the whole batch again. -/
theorem handed_over_leaves_iff_uncancelled {size : Value} {w' : World κ σ} {r : Except Fault Unit}
    (hrun : (transmitPhase size).Runs E w r w') {arguments : List String} {output : Except Fault Value}
    (hcall : toolCalls w'.history = ⟨"send", arguments, output⟩ :: toolCalls w.history)
    {results : List TransmitResult} (hresults : output >>= TransmitResult.ofOutput = .ok results) :
    ∃ n batch reached told joined, Config.batchCount size = .ok n ∧ batch = w.queues.outbound.take n ∧
      arguments = Outbound.arguments batch ∧ spoken w'.history = told.reverse ++ spoken w.history ∧
      accepted w'.history = joined.reverse ++ accepted w.history ∧
      reached <+: results ∧ Hearing (verdicts batch reached) told (fault? r) ∧
      (r = .ok () → reached = results) ∧ (∀ f, r = .error f → f.isCancellation = true) ∧
      ((w'.queues.outbound ++ (handed batch reached).map Verdict.message).Perm (w.queues.outbound ++ joined) ↔
        r = .ok () ∨ handed batch reached = []) ∧
      (r ≠ .ok () → w'.queues.outbound = w.queues.outbound ++ joined ∧
        ∀ x t x', w'.queues.outbound <+: x.queues.outbound → (transmitPhase size).Runs E x t x' →
          ∃ again output', toolCalls x'.history = ⟨"send", again, output'⟩ :: toolCalls x.history ∧
            arguments <+: again) := by
  obtain ⟨n, reached, told, joined, rfl, h⟩ := concluded_of_call hrun hcall hresults
  have hok : fault? r = none ↔ r = .ok () := by cases r <;> simp [fault?]
  refine ⟨n, _, reached, told, joined, h.sized, rfl, rfl, h.said, h.grown, h.come, h.heard,
    fun hr => h.complete (hok.mpr hr), ?_, h.leaves_iff.trans (or_congr_left hok), ?_⟩
  · rintro f rfl
    exact h.cancelled f rfl
  · intro hr
    cases r with
    | ok u => exact absurd rfl hr
    | error f => exact ⟨h.unchanged, fun x t x' hx hrun' => h.resubmitted hx hrun'⟩

end

/-- Surroundings in which anything may happen. -/
def Surroundings.unruly : Surroundings κ Unit where
  modem _ _ _ _ _ := True
  request _ _ _ _ := True
  notify _ _ _ _ := True
  callback _ _ _ _ _ _ := True

/-- Two messages have been sent, and the handler cancels the transmission when it is told of the first. -/
def recallingReplies : Replies Unit Unit where
  modem _ _ _ :=
    let entry (index : Int) : Value := .object [("index", .int index), ("result", .text "success")]
    (.ok (.list [entry 1, entry 2]), [], ())
  request _ _ := (.error (.cancelled "stop"), [], ())

theorem recallingReplies_allowed : recallingReplies.Allowed .unruly where
  modem _ _ _ := trivial
  request _ _ := trivial
  notify _ _ := trivial
  callback _ _ _ _ := trivial

/-- Both messages are still in the queue, and are submitted again. -/
theorem handed_over_leaves_iff_uncancelled_recalled : ∃ w', (transmitPhase (.int 2)).Runs .unruly
    { queues := { outbound := [⟨"+1", "a", .nothing, none⟩, ⟨"+2", "b", .nothing, some ()⟩] }, outside := () }
    (.error (.cancelled "stop")) w' ∧
    w'.queues.outbound.map Outbound.destination = ["+1", "+2"] ∧
    ∀ t x', (transmitPhase (.int 2)).Runs .unruly w' t x' → ∃ again output,
      toolCalls x'.history = ⟨"send", again, output⟩ :: toolCalls w'.history ∧ ["+1", "a", "+2", "b"] <+: again := by
  have hrun := Replies.runs_run recallingReplies_allowed (transmitPhase (.int 2))
    { queues := { outbound := [⟨"+1", "a", .nothing, none⟩, ⟨"+2", "b", .nothing, some ()⟩] }, outside := () }
  obtain ⟨n, batch, reached, told, joined, -, -, -, -, -, -, -, -, -, -, hkept⟩ :=
    handed_over_leaves_iff_uncancelled hrun rfl rfl
  exact ⟨_, hrun, rfl, fun t x' => (hkept nofun).2 _ t x' List.prefix_rfl⟩

end SmsRelay.Gateway
