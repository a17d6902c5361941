-- SUMMARY: A batch and its results: which count, what is announced, and what is left in the queue.
import Mathlib.Data.List.Forall2
import Mathlib.Data.List.Induction
import Mathlib.Data.List.TakeWhile
import SmsRelay.Proofs.Isolation
import SmsRelay.Proofs.Ledger

/-!
# Reconciliation of a batch with its results

What a transmission makes of the results that the modem tool reports: which of
them count, what the application is told of each, and what the outbound queue
holds in the end. A result counts if a message of the batch stands at its place
and no earlier result has reported that message as sent.
-/

namespace SmsRelay.Gateway

open Phase

variable {κ σ : Type}

/-! ## Verdicts -/

/-- A result that counts, and the message of the batch that it is about. -/
structure Verdict (κ : Type) where
  place : Nat
  message : Outbound κ
  result : TransmitResult

/-- The result reports that the message at the place `p` of the batch has been sent. -/
def Sends (p : Nat) (r : TransmitResult) : Prop := r.index = p + 1 ∧ r.succeeded = true

instance (p : Nat) (r : TransmitResult) : Decidable (Sends p r) := inferInstanceAs (Decidable (_ ∧ _))

/-- The verdict on a batch that is given by a result, after some earlier ones. -/
def verdict? (batch : List (Outbound κ)) (earlier : List TransmitResult) (r : TransmitResult) : Option (Verdict κ) := do
  let p ← position? batch.length r
  let m ← batch[p]?
  if ∃ e ∈ earlier, Sends p e then none else some ⟨p, m, r⟩

/-- The verdicts on a batch that are given by the results, in order. -/
def verdicts (batch : List (Outbound κ)) (results : List TransmitResult) : List (Verdict κ) :=
  results.zipIdx.filterMap fun x => verdict? batch (results.take x.2) x.1

/-- The messages of a batch that no result reports as sent. -/
def kept (batch : List (Outbound κ)) (results : List TransmitResult) : List (Outbound κ) :=
  (batch.zipIdx.filter fun x => ∀ r ∈ results, ¬Sends x.2 r).map (·.1)

section

variable {batch : List (Outbound κ)} {results before : List TransmitResult} {r : TransmitResult} {p : Nat}
  {m : Outbound κ}

@[simp] theorem verdicts_nil (batch : List (Outbound κ)) : verdicts batch [] = [] := rfl

theorem verdicts_append_singleton (batch : List (Outbound κ)) (before : List TransmitResult) (r : TransmitResult) :
    verdicts batch (before ++ [r]) = verdicts batch before ++ (verdict? batch before r).toList := by
  have hbefore : ∀ x ∈ before.zipIdx, verdict? batch ((before ++ [r]).take x.2) x.1 =
      verdict? batch (before.take x.2) x.1 := by
    intro x hx
    have hlt := List.snd_lt_of_mem_zipIdx hx
    rw [List.take_append_of_le_length (by omega)]
  simp only [verdicts, List.zipIdx_append, List.filterMap_append, List.filterMap_congr hbefore]
  congr 1
  cases h : verdict? batch before r <;> simp [h]

theorem position?_eq_some {n : Nat} : position? n r = some p ↔ r.index = p + 1 ∧ p < n := by
  unfold position?
  split <;> simp <;> omega

theorem verdict?_eq_some {v : Verdict κ} : verdict? batch before r = some v ↔
    v.result = r ∧ r.index = v.place + 1 ∧ batch[v.place]? = some v.message ∧ ∀ e ∈ before, ¬Sends v.place e := by
  obtain ⟨p, m, t⟩ := v
  simp only [verdict?, Option.bind_eq_bind, Option.bind_eq_some_iff, position?_eq_some]
  constructor
  · intro ⟨q, ⟨hindex, _⟩, a, ha, h⟩
    split at h
    · cases h
    · rename_i hearlier
      cases h
      exact ⟨rfl, hindex, ha, fun e he hsends => hearlier ⟨e, he, hsends⟩⟩
  · intro ⟨heq, hindex, hm, hearlier⟩
    subst heq
    refine ⟨p, ⟨hindex, (List.getElem?_eq_some_iff.mp hm).1⟩, m, hm, ?_⟩
    rw [if_neg]
    intro ⟨e, he, hsends⟩
    exact hearlier e he hsends

/-- A result for the place `p` gives a verdict unless the message there has been sent. -/
theorem filter_verdict? (hm : batch[p]? = some m) : (verdict? batch before r).toList.filter (·.place = p) =
    if r.index = p + 1 ∧ ∀ e ∈ before, ¬Sends p e then [⟨p, m, r⟩] else [] := by
  split
  · rename_i h
    have hverdict : verdict? batch before r = some ⟨p, m, r⟩ := verdict?_eq_some.mpr ⟨rfl, h.1, hm, h.2⟩
    simp [hverdict]
  · rename_i h
    rw [List.filter_eq_nil_iff]
    intro v hv hplace
    obtain ⟨-, hindex, -, hearlier⟩ := verdict?_eq_some.mp (Option.mem_toList.mp hv)
    obtain rfl : v.place = p := by simpa using hplace
    exact h ⟨hindex, hearlier⟩

/-- There is one verdict that the message at a place has been sent: it is given by the first result that
reports so. -/
theorem sent_verdicts (hm : batch[p]? = some m) (results : List TransmitResult) :
    ((verdicts batch results).filter (·.place = p)).filter (·.result.succeeded) =
      (results.find? (Sends p ·)).toList.map (⟨p, m, ·⟩) := by
  induction results using List.reverseRecOn with
  | nil => rfl
  | append_singleton before r ih =>
    rw [verdicts_append_singleton, List.filter_append, List.filter_append, ih, filter_verdict? hm, List.find?_append]
    cases hfirst : before.find? (Sends p ·) with
    | some e =>
      have hsent : ¬∀ e ∈ before, ¬Sends p e := fun h =>
        h e (List.mem_of_find?_eq_some hfirst) (by simpa using List.find?_some hfirst)
      simp [hsent]
    | none =>
      have hearlier : ∀ e ∈ before, ¬Sends p e := by simpa using hfirst
      by_cases hindex : r.index = p + 1 <;> by_cases hr : r.succeeded = true <;> simp_all [Sends]

/-- The verdicts that the message at a place has not been sent are given by the results for it before the
first that reports it as sent. -/
theorem failed_verdicts (hm : batch[p]? = some m) (results : List TransmitResult) :
    ((verdicts batch results).filter (·.place = p)).filter (!·.result.succeeded) =
      ((results.takeWhile (¬Sends p ·)).filter fun r : TransmitResult => r.index = p + 1).map (⟨p, m, ·⟩) := by
  induction results using List.reverseRecOn with
  | nil => rfl
  | append_singleton before r ih =>
    rw [verdicts_append_singleton, List.filter_append, List.filter_append, ih, filter_verdict? hm]
    by_cases hearlier : ∀ e ∈ before, ¬Sends p e
    · have hall : ∀ e ∈ before, (decide ¬Sends p e) = true := by simpa using hearlier
      rw [List.takeWhile_append_of_pos hall, List.takeWhile_eq_self_iff.mpr hall, List.filter_append, List.map_append]
      congr 1
      by_cases hindex : r.index = p + 1 <;> cases hr : r.succeeded <;> simp_all [Sends]
    · -- the result that has reported the message as sent stands before the last one
      have hshort : (before.takeWhile (¬Sends p ·)).length ≠ before.length := by
        intro hlength
        have hall := List.takeWhile_eq_self_iff.mp ((List.takeWhile_prefix _).eq_of_length hlength)
        exact hearlier (by simpa using hall)
      rw [List.takeWhile_append, if_neg hshort, if_neg (fun h => hearlier h.2), List.filter_nil, List.append_nil]

theorem message_of_mem_verdicts {d : Verdict κ} (h : d ∈ verdicts batch results) :
    batch[d.place]? = some d.message := by
  obtain ⟨x, -, hx⟩ := List.mem_filterMap.mp h
  exact (verdict?_eq_some.mp hx).2.2.1

/-- Each verdict is given by a result, and they come in the order of the results. -/
theorem results_verdicts_sublist (batch : List (Outbound κ)) (results : List TransmitResult) :
    ((verdicts batch results).map Verdict.result).Sublist results := by
  induction results using List.reverseRecOn with
  | nil => exact List.Sublist.refl _
  | append_singleton before r ih =>
    rw [verdicts_append_singleton, List.map_append]
    refine ih.append ?_
    cases h : verdict? batch before r with
    | none => exact List.nil_sublist _
    | some v =>
      obtain ⟨rfl, -⟩ := verdict?_eq_some.mp h
      exact List.Sublist.refl _

/-- Striking off the places of the messages that have been sent leaves those that no result reports as sent. -/
theorem unsent_eq_kept {sent : List Nat} (h : ∀ p, p ∈ sent ↔ p < batch.length ∧ ∃ r ∈ results, Sends p r) :
    unsent batch sent = kept batch results := by
  unfold unsent kept
  congr 1
  refine List.filter_congr fun x hx => ?_
  have hlt : x.2 < batch.length := List.snd_lt_of_mem_zipIdx hx
  simp [h, hlt]

end

/-! ## What the application is told -/

/-- The gateway speaks to the application. -/
def Occurrence.speaks : Occurrence κ → Bool
  | .request .. | .notice _ | .callback .. => true
  | .accepted _ | .modem .. | .logged _ => false

/-- What the gateway has said to the application, the latest first. -/
def spoken (history : List (Occurrence κ)) : List (Occurrence κ) := history.filter Occurrence.speaks

/-- From one world to another the gateway has said just this to the application, and messages that were
accepted meanwhile have joined the outbound queue. -/
structure Says (os : List (Occurrence κ)) (w w' : World κ σ) : Prop where
  spoken : spoken w'.history = os.reverse ++ spoken w.history
  joined : ∃ ms, w'.queues.outbound = w.queues.outbound ++ ms ∧ accepted w'.history = ms.reverse ++ accepted w.history

section

variable {os os' : List (Occurrence κ)} {w v w' : World κ σ}

theorem Says.refl (w : World κ σ) : Says [] w w := ⟨rfl, [], by simp⟩

theorem Says.trans (h : Says os w v) (h' : Says os' v w') : Says (os ++ os') w w' := by
  obtain ⟨ms, hqueue, haccepted⟩ := h.joined
  obtain ⟨ms', hqueue', haccepted'⟩ := h'.joined
  refine ⟨?_, ms ++ ms', ?_, ?_⟩
  · rw [h'.spoken, h.spoken, List.reverse_append, List.append_assoc]
  · rw [hqueue', hqueue, List.append_assoc]
  · rw [haccepted', haccepted, List.reverse_append, List.append_assoc]

theorem says_logged (e : Log.Entry) : Says [] w (w.note (.logged e)) := ⟨rfl, [], by simp [World.note], rfl⟩

theorem says_sendAll (cs : List (SendCall κ)) (w : World κ σ) : Says [] w (w.sendAll cs) where
  spoken := by
    refine World.sendAll_keeps (I := fun v => spoken v.history = spoken w.history) ?_ cs rfl
    intro c v hv
    unfold World.send
    split <;> exact hv
  joined := ⟨_, World.outbound_sendAll cs w, accepted_sendAll cs w⟩

/-- What the gateway says while it waits for an answer is the question. -/
theorem says_answered (cs : List (SendCall κ)) (s : σ) {o : Occurrence κ} (hspeaks : o.speaks = true) (w : World κ σ) :
    Says [o] w (w.answered cs s fun _ => o) := by
  have hsent := says_sendAll cs w
  obtain ⟨ms, hqueue, haccepted⟩ := hsent.joined
  constructor
  · rw [World.history_answered, spoken, List.filter_cons_of_pos hspeaks]
    exact congrArg (o :: ·) hsent.spoken
  · refine ⟨ms, hqueue, ?_⟩
    cases o with
    | accepted m => cases hspeaks
    | _ => exact haccepted

/-- While the modem tool runs nothing is said. -/
theorem says_called (cs : List (SendCall κ)) (s : σ) (command : String) (arguments : List String)
    (output : Except Fault Value) (w : World κ σ) :
    Says [] w (w.answered cs s fun q => .modem q command arguments output) :=
  ⟨(says_sendAll cs w).spoken, (says_sendAll cs w).joined⟩

end

/-! ## What is said of a verdict -/

/-- The callback of the message that a verdict is about, if it has one. -/
def Verdict.callbacks (v : Verdict κ) : List (Occurrence κ) :=
  v.message.callback.toList.map fun k => .callback k v.message v.result

/-- What the application is told of a verdict. That a message has been sent goes to its callback and then to the
handler; if that fails, or there is none, the application is told so. That a message has not been sent is told
once. -/
inductive Verdict.Told (H : Handlers κ σ) (v : Verdict κ) : List (Occurrence κ) → Prop where
  | heard {s s' : σ} {a : Returned} : v.result.succeeded = true → H.registered s .transmit →
      H.request s (.transmit v.message v.result) (.ok a) s' →
      Told H v (v.callbacks ++ [.request (.transmit v.message v.result) (.ok a)])
  | refused {s s' : σ} {f : Fault} : v.result.succeeded = true → H.registered s .transmit →
      H.request s (.transmit v.message v.result) (.error f) s' →
      Told H v (v.callbacks ++ [.request (.transmit v.message v.result) (.error f),
        .notice (.transmitError v.message f)])
  | unheard {s : σ} : v.result.succeeded = true → ¬H.registered s .transmit →
      Told H v (v.callbacks ++ [.request (.transmit v.message v.result) (.error (.noListener "transmit")),
        .notice (.transmitError v.message (.noListener "transmit"))])
  | failed : v.result.succeeded = false →
      Told H v [.notice (.transmitError v.message (.partialTransmission v.message.destination v.result.status))]

variable {H : Handlers κ σ} {w : World κ σ} {J : Fault → World κ σ → Prop}

theorem ensures_announce (hH : H.Uncancelled) {v : Verdict κ} (hv : v.result.succeeded = true) :
    Ensures H.surroundings (announce v.message v.result) w (fun _ w' => ∃ os, v.Told H os ∧ Says os w w') J := by
  have hE := hH.contained
  unfold announce
  extract_lets rest
  have hrest : ∀ u x, Says v.callbacks w x →
      Ensures H.surroundings (rest u) x (fun _ w' => ∃ os, v.Told H os ∧ Says os w w') J := by
    intro u x hx
    refine (ensures_attempt hE (P := fun a y => Says (v.callbacks ++ [.request (.transmit v.message v.result) a]) w y ∧
      ∃ s s', H.surroundings.request s (.transmit v.message v.result) a s') ?_).bind ?_
    · intro cs s a hs
      exact ⟨hx.trans (says_answered cs s rfl x), _, s, hs⟩
    · intro a y ⟨hy, s, s', hs⟩
      cases a with
      | ok a =>
        rcases hs with ⟨hregistered, hs⟩ | ⟨-, heq, -⟩
        · exact ensures_pure ⟨_, .heard hv hregistered hs, hy⟩
        · cases heq
      | error f =>
        refine ensures_notify hE fun cs t _ => ?_
        have hsaid := hy.trans (says_answered cs t (o := .notice (.transmitError v.message f)) rfl y)
        rw [List.append_assoc] at hsaid
        rcases hs with ⟨hregistered, hs⟩ | ⟨hmissing, heq, -⟩
        · exact ⟨_, .refused hv hregistered hs, hsaid⟩
        · cases heq
          exact ⟨_, .unheard hv hmissing, hsaid⟩
  cases hcallback : v.message.callback with
  | none =>
    have hnone : v.callbacks = [] := by
      rw [Verdict.callbacks, hcallback]
      rfl
    exact hrest () w (hnone ▸ Says.refl w)
  | some k =>
    have hsome : v.callbacks = [.callback k v.message v.result] := by
      rw [Verdict.callbacks, hcallback]
      rfl
    refine (ensures_callback hE (P := fun _ x => Says v.callbacks w x) ?_).bind hrest
    intro cs s hs
    rw [hsome]
    exact says_answered cs s rfl w

/-! ## The results in turn -/

/-- Where the reconciliation stands after some of the results: the messages at the places `sent` have been sent, and
the application has been told of the verdicts so far. -/
structure Reconciled (H : Handlers κ σ) (batch : List (Outbound κ)) (w : World κ σ) (before : List TransmitResult)
    (sent : List Nat) (v : World κ σ) : Prop where
  sent : ∀ p, p ∈ sent ↔ p < batch.length ∧ ∃ r ∈ before, Sends p r
  told : ∃ blocks, List.Forall₂ (Verdict.Told H) (verdicts batch before) blocks ∧ Says blocks.flatten w v

namespace Reconciled

variable {batch : List (Outbound κ)} {before : List TransmitResult} {sent : List Nat} {r : TransmitResult}
  {v v' : World κ σ}

theorem start (H : Handlers κ σ) (batch : List (Outbound κ)) (hv : Says [] w v) : Reconciled H batch w [] [] v :=
  ⟨by simp, [], .nil, hv⟩

/-- A result that does not count changes nothing. -/
theorem ignore (h : Reconciled H batch w before sent v) (hr : verdict? batch before r = none) (hv : Says [] v v') :
    Reconciled H batch w (before ++ [r]) sent v' where
  sent p := by
    rw [h.sent]
    refine and_congr_right fun hp => ⟨fun ⟨e, he, hsends⟩ => ⟨e, List.mem_append_left _ he, hsends⟩, ?_⟩
    intro ⟨e, he, hsends⟩
    rcases List.mem_append.mp he with he | he
    · exact ⟨e, he, hsends⟩
    · obtain rfl := List.mem_singleton.mp he
      by_contra hearlier
      have hverdict : verdict? batch before e = some ⟨p, batch[p], e⟩ := verdict?_eq_some.mpr
        ⟨rfl, hsends.1, List.getElem?_eq_getElem hp, fun e he hsends => hearlier ⟨e, he, hsends⟩⟩
      rw [hr] at hverdict
      cases hverdict
  told := by
    obtain ⟨blocks, hblocks, hsays⟩ := h.told
    rw [verdicts_append_singleton, hr]
    exact ⟨blocks, by simpa using hblocks, by simpa using hsays.trans hv⟩

/-- Of a result that counts the application is told. -/
theorem count {d : Verdict κ} (h : Reconciled H batch w before sent v) (hr : verdict? batch before r = some d)
    {os : List (Occurrence κ)} (hos : d.Told H os) (hv : Says os v v') :
    Reconciled H batch w (before ++ [r]) (if r.succeeded then d.place :: sent else sent) v' where
  sent p := by
    obtain ⟨rfl, hindex, hm, -⟩ := verdict?_eq_some.mp hr
    have hplace : d.place < batch.length := (List.getElem?_eq_some_iff.mp hm).1
    have hsends : Sends p d.result ↔ d.result.succeeded = true ∧ p = d.place := by
      have hsame : (d.place : Int) + 1 = p + 1 ↔ p = d.place := by omega
      rw [Sends, hindex, hsame, and_comm]
    have hmem : p ∈ (if d.result.succeeded then d.place :: sent else sent) ↔
        p ∈ sent ∨ d.result.succeeded = true ∧ p = d.place := by
      split <;> simp_all [or_comm]
    rw [hmem, h.sent]
    simp only [List.mem_append, List.mem_singleton, or_and_right, exists_or, exists_eq_left, hsends]
    constructor
    · rintro (⟨hp, hearlier⟩ | ⟨hsucceeded, rfl⟩)
      · exact ⟨hp, .inl hearlier⟩
      · exact ⟨hplace, .inr ⟨hsucceeded, rfl⟩⟩
    · rintro ⟨hp, hearlier | hnow⟩
      · exact .inl ⟨hp, hearlier⟩
      · exact .inr hnow
  told := by
    obtain ⟨blocks, hblocks, hsays⟩ := h.told
    rw [verdicts_append_singleton, hr]
    exact ⟨blocks ++ [os], List.rel_append hblocks (.cons hos .nil), by simpa using hsays.trans hv⟩

end Reconciled

/-- To take note of a result is to find the verdict that it gives. -/
theorem reconcile_eq {batch : List (Outbound κ)} {before : List TransmitResult} {sent : List Nat}
    (hsent : ∀ p, p ∈ sent ↔ p < batch.length ∧ ∃ e ∈ before, Sends p e) (r : TransmitResult) :
    reconcile batch sent r = match verdict? batch before r with
      | none => do
        log .warning "core.outbound" ("Ignoring transmit result with unexpected index " ++ toString r.index)
        return sent
      | some d =>
        if r.succeeded then do
          announce d.message r
          return d.place :: sent
        else do
          notify (.transmitError d.message (.partialTransmission d.message.destination r.status))
          return sent := by
  unfold reconcile verdict?
  dsimp only
  cases hpos : position? batch.length r with
  | none => rfl
  | some p =>
    have hplace := position?_lt hpos
    cases hm : batch[p]? with
    | none => simp [hm]
    | some m =>
      by_cases hp : ∃ e ∈ before, Sends p e
      · have hmem : p ∈ sent := (hsent p).mpr ⟨hplace, hp⟩
        simp [hm, hp, hmem]
      · have hfresh : p ∉ sent := fun h => hp ((hsent p).mp h).2
        simp [hm, hp, hfresh]

theorem ensures_reconcile (hH : H.Uncancelled) {batch : List (Outbound κ)} {before : List TransmitResult}
    {sent : List Nat} {v : World κ σ} (r : TransmitResult) (h : Reconciled H batch w before sent v) :
    Ensures H.surroundings (reconcile batch sent r) v
      (fun sent' v' => Reconciled H batch w (before ++ [r]) sent' v') J := by
  rw [reconcile_eq h.sent]
  cases hverdict : verdict? batch before r with
  | none => exact ensures_log_bind (ensures_pure (h.ignore hverdict (says_logged _)))
  | some d =>
    obtain ⟨rfl, -⟩ := verdict?_eq_some.mp hverdict
    dsimp only
    split
    · rename_i hr
      refine (ensures_announce hH (v := d) hr).bind fun _ x ⟨os, hos, hsays⟩ => ensures_pure ?_
      have hcounted := h.count hverdict hos hsays
      rwa [if_pos hr] at hcounted
    · rename_i hr
      refine (ensures_notify hH.contained (P := fun _ x => Says [_] v x) fun cs s _ =>
        says_answered cs s rfl v).bind fun _ x hsays => ensures_pure ?_
      have hcounted := h.count hverdict (.failed (by simpa using hr)) hsays
      rwa [if_neg hr] at hcounted

/-- What a transmission leaves: the application has been told of the verdicts, and what no result reports as sent
stands behind all that has been queued meanwhile. -/
structure Settled (H : Handlers κ σ) (batch : List (Outbound κ)) (results : List TransmitResult) (w w' : World κ σ) :
    Prop where
  told : ∃ blocks, List.Forall₂ (Verdict.Told H) (verdicts batch results) blocks ∧
    spoken w'.history = blocks.flatten.reverse ++ spoken w.history
  queue : ∃ ms, w'.queues.outbound = (w.queues.outbound ++ ms).drop batch.length ++ kept batch results ∧
    accepted w'.history = ms.reverse ++ accepted w.history

theorem ensures_afterSending (hH : H.Uncancelled) (batch : List (Outbound κ)) (results : List TransmitResult)
    {x : World κ σ} (hx : Says [] w x) :
    Ensures H.surroundings (afterSending batch results) x (fun _ => Settled H batch results w) J := by
  unfold afterSending
  refine (ensures_foldlM (Reconciled H batch w) (.start H batch hx) ?_).bind ?_
  · exact fun before r sent v _ hv => ensures_reconcile hH r hv
  · intro sent v hv
    obtain ⟨blocks, hblocks, hsays⟩ := hv.told
    obtain ⟨ms, hqueue, haccepted⟩ := hsays.joined
    refine ensures_update_bind (ensures_queues_bind (ensures_log ⟨⟨blocks, hblocks, hsays.spoken⟩, ms, ?_, haccepted⟩))
    change v.queues.outbound.drop batch.length ++ unsent batch sent = _
    rw [hqueue, unsent_eq_kept hv.sent]

/-- What a transmission comes to whose call gives results. -/
structure Reports (H : Handlers κ σ) (size : Value) (w w' : World κ σ) (n : Nat) (output : Value)
    (results : List TransmitResult) : Prop where
  sized : Config.batchCount size = .ok n
  read : TransmitResult.ofOutput output = .ok results
  call : toolCalls w'.history =
    ⟨"send", Outbound.arguments (w.queues.outbound.take n), .ok output⟩ :: toolCalls w.history
  settled : Settled H (w.queues.outbound.take n) results w w'

/-- A transmission makes no call, or one that fails, or it works through the results of its call. -/
theorem ensures_transmitPhase (hH : H.Uncancelled) (size : Value) (w : World κ σ) :
    Ensures H.surroundings (transmitPhase size) w
      (fun _ w' => w' = w ∨ ∃ n output results, Reports H size w w' n output results)
      (fun _ w' => w' = w ∨ ∃ arguments output g, output >>= TransmitResult.ofOutput = .error g ∧
        toolCalls w'.history = ⟨"send", arguments, output⟩ :: toolCalls w.history) := by
  rw [transmitPhase_eq]
  refine ensures_workThrough_of ?_ ?_ ?_ ?_
  · exact fun _ => .inl rfl
  · exact fun _ _ _ => .inl rfl
  · exact fun n cs s output g _ _ _ hg => .inr ⟨_, output, g, hg, toolCalls_called ..⟩
  · intro n cs s output results _ hn _ hresults
    have hcall := keeps_toolCalls (E := H.surroundings) (asks_afterSending (w.queues.outbound.take n) results) _ _
      (toolCalls_called cs s "send" (Outbound.arguments (w.queues.outbound.take n)) (.ok output) w)
    refine ((ensures_afterSending hH (J := never) _ results (says_called cs s _ _ _ w)).and hcall).mono ?_ ?_
    · exact fun _ w' ⟨hsettled, hcall⟩ => .inr ⟨n, output, results, hn, hresults, hcall, hsettled⟩
    · exact fun _ _ h => h.1.elim

/-- Whatever results the modem tool reports for a batch, and whatever the handlers come to: the transmission succeeds.
Of the results those count that are for a place in the batch, and for a message that no earlier result has reported
as sent; in their order, and of nothing else, the application is told. So for each message that is reported as sent
its callback and the handler are called once, with the first result that reports so, and each failure reported
before is told once. The messages that no result reports as sent go to the end of the queue, behind those that have
been accepted meanwhile. -/
theorem results_reconciled {H : Handlers κ σ} (hH : H.Uncancelled) {size : Value} {w w' : World κ σ}
    {r : Except Fault Unit} (hrun : (transmitPhase size).Runs H.surroundings w r w') {news : List (Occurrence κ)}
    (hnews : w'.history = news ++ w.history) {found : Queues κ} {arguments : List String}
    {output : Except Fault Value} (hcall : .modem found "send" arguments output ∈ news)
    {results : List TransmitResult} (hresults : output >>= TransmitResult.ofOutput = .ok results) :
    r = .ok () ∧ ∃ n batch, Config.batchCount size = .ok n ∧ batch = w.queues.outbound.take n ∧
      arguments = Outbound.arguments batch ∧
      (∃ blocks, List.Forall₂ (Verdict.Told H) (verdicts batch results) blocks ∧
        (spoken news).reverse = blocks.flatten) ∧
      ((verdicts batch results).map Verdict.result).Sublist results ∧
      (∀ d ∈ verdicts batch results, batch[d.place]? = some d.message) ∧
      (∀ p m, batch[p]? = some m →
        ((verdicts batch results).filter (·.place = p)).filter (·.result.succeeded) =
          (results.find? (Sends p ·)).toList.map (⟨p, m, ·⟩) ∧
        ((verdicts batch results).filter (·.place = p)).filter (!·.result.succeeded) =
          ((results.takeWhile (¬Sends p ·)).filter fun r : TransmitResult => r.index = p + 1).map (⟨p, m, ·⟩)) ∧
      w'.queues.outbound = w.queues.outbound.drop batch.length ++ (accepted news).reverse ++
        (batch.zipIdx.filter fun x => ∀ r ∈ results, ¬Sends x.2 r).map (·.1) := by
  have hmem : (⟨"send", arguments, output⟩ : ToolCall) ∈ toolCalls news := List.mem_filterMap.mpr ⟨_, hcall, rfl⟩
  have hcalls : toolCalls w'.history = toolCalls news ++ toolCalls w.history := by
    rw [hnews, toolCalls, List.filterMap_append, toolCalls, toolCalls]
  have honly : ∀ {c : ToolCall}, toolCalls w'.history = c :: toolCalls w.history → c = ⟨"send", arguments, output⟩ := by
    intro c hc
    rw [hcalls] at hc
    rw [List.append_cancel_right (hc.trans List.singleton_append.symm)] at hmem
    exact (List.mem_singleton.mp hmem).symm
  have hidle : w' ≠ w := by
    intro heq
    rw [heq] at hnews
    rw [List.self_eq_append_left.mp hnews] at hcall
    cases hcall
  cases r with
  | error f =>
    rcases (ensures_transmitPhase hH size w).fault hrun with heq | ⟨_, output', g, hg, hc⟩
    · exact absurd heq hidle
    · cases honly hc
      rw [hresults] at hg
      cases hg
  | ok u =>
    rcases (ensures_transmitPhase hH size w).result hrun with heq | ⟨n, output', results', h⟩
    · exact absurd heq hidle
    · cases honly h.call
      obtain rfl : results' = results := Except.ok.inj (h.read.symm.trans hresults)
      obtain ⟨blocks, hblocks, hspoken⟩ := h.settled.told
      obtain ⟨ms, hqueue, haccepted⟩ := h.settled.queue
      have hnews_spoken : spoken news = blocks.flatten.reverse := by
        rw [hnews, spoken, List.filter_append] at hspoken
        exact List.append_cancel_right hspoken
      have hnews_accepted : accepted news = ms.reverse := by
        rw [hnews, accepted, List.filterMap_append] at haccepted
        exact List.append_cancel_right haccepted
      refine ⟨rfl, n, _, h.sized, rfl, rfl, ⟨blocks, hblocks, by rw [hnews_spoken, List.reverse_reverse]⟩,
        results_verdicts_sublist _ _, ?_, fun p m hm => ⟨sent_verdicts hm _, failed_verdicts hm _⟩, ?_⟩
      · exact fun d hd => message_of_mem_verdicts hd
      · rw [hqueue, hnews_accepted, List.reverse_reverse,
          List.drop_append_of_le_length (List.length_take_le' _ _), kept]

/-- Results in disorder for three messages: there are failures and repetitions among them, and results for no message
of the batch. One more message is sent meanwhile, and no handler is content. -/
def disorderlyReplies : Replies Unit Unit where
  modem _ _ _ :=
    let entry (index : Int) (status : String) : Value := .object [("index", .int index), ("result", .text status)]
    (.ok (.list [entry 2 "failure", entry 0 "success", entry 2 "success", entry 1 "busy", entry 2 "success",
      entry (-1) "success", entry 2 "failure", entry 4 "success"]),
      [{ destination := .text "+4", text := .text "d" }], ())
  request _ _ := (.error (.signalled .runtime "busy"), [], ())

def disorderlyHandlers : Handlers Unit Unit where
  registered _ _ := True
  modem s command arguments output _ := output = (disorderlyReplies.modem s command arguments).1
  request _ _ x _ := x = .error (.signalled .runtime "busy")
  notice _ _ x _ := x = .error (.signalled .runtime "busy")
  callback _ _ _ _ x _ := x = .error (.signalled .runtime "busy")

theorem uncancelled_disorderlyHandlers : disorderlyHandlers.Uncancelled where
  modem h := by cases h
  request h := by
    cases h
    rfl
  notice h := by
    cases h
    rfl
  callback h := by
    cases h
    rfl

theorem disorderlyReplies_allowed : disorderlyReplies.Allowed disorderlyHandlers.surroundings where
  modem _ _ _ := rfl
  request _ _ := .inl ⟨trivial, rfl⟩
  notify _ _ := .inl ⟨trivial, _, rfl, rfl⟩
  callback _ _ _ _ := ⟨_, rfl, rfl⟩

/-- Only the second message has been sent. The application has heard of five things: the first failure, the
success by the callback and the handler, what the handler failed with, and the other failure. -/
theorem results_reconciled_disorderly : ∃ w', (transmitPhase (.int 3)).Runs disorderlyHandlers.surroundings
    { queues := { outbound := [⟨"+1", "a", .nothing, none⟩, ⟨"+2", "b", .nothing, some ()⟩,
      ⟨"+3", "c", .nothing, none⟩] }, outside := () } (.ok ()) w' ∧
    (spoken w'.history).length = 5 ∧
    w'.queues.outbound.map Outbound.destination = ["+4", "+1", "+3"] := by
  have hr := Replies.runs_run disorderlyReplies_allowed (transmitPhase (.int 3))
    { queues := { outbound := [⟨"+1", "a", .nothing, none⟩, ⟨"+2", "b", .nothing, some ()⟩,
      ⟨"+3", "c", .nothing, none⟩] }, outside := () }
  have hok := (results_reconciled uncancelled_disorderlyHandlers hr (List.append_nil _).symm
    (List.mem_of_getElem? (i := 11) rfl) rfl).1
  rw [hok] at hr
  exact ⟨_, hr, by rfl, by rfl⟩

end SmsRelay.Gateway
