-- SUMMARY: The ledger of outbound messages, kept through transmissions, cycles and runs.
import Mathlib.Data.List.Perm.Subperm
import SmsRelay.Proofs.Ensures

/-!
# The ledger of outbound messages

What becomes of the messages that a gateway accepts for sending: each is in the
outbound queue until a result reports that it has been sent. In the course of a
transmission the batch stands at the front of the queue all the time; messages
of it that have been sent are struck off at the end.
-/

namespace SmsRelay.Gateway

variable {κ σ : Type}

/-! ## Messages in a history -/

/-- The messages that were accepted for sending, the latest first. -/
def accepted (history : List (Occurrence κ)) : List (Outbound κ) :=
  history.filterMap fun
    | .accepted m => some m
    | _ => none

/-- The messages for which a phase has taken a result that reports success, the latest first: those of
which it has told the application so. -/
def announced (history : List (Occurrence κ)) : List (Outbound κ) :=
  history.filterMap fun
    | .request (.transmit m r) _ => if r.succeeded then some m else none
    | _ => none

/-- An occurrence in which no message is accepted, sent or announced. -/
def Occurrence.IsQuiet : Occurrence κ → Prop
  | .accepted _ => False
  | .request (.transmit ..) _ => False
  | .modem _ command _ _ => command ≠ "send"
  | _ => True

theorem accepted_cons_of_isQuiet {o : Occurrence κ} (h : o.IsQuiet) (history : List (Occurrence κ)) :
    accepted (o :: history) = accepted history := by
  cases o with
  | accepted m => exact h.elim
  | _ => rfl

theorem announced_cons_of_isQuiet {o : Occurrence κ} (h : o.IsQuiet) (history : List (Occurrence κ)) :
    announced (o :: history) = announced history := by
  cases o with
  | request r a =>
    cases r with
    | transmit m t => exact h.elim
    | _ => rfl
  | _ => rfl

theorem accepted_sendAll (cs : List (SendCall κ)) (w : World κ σ) :
    accepted (w.sendAll cs).history = (cs.filterMap fun c => c.message.toOption).reverse ++ accepted w.history := by
  induction cs generalizing w with
  | nil => simp
  | cons c cs ih =>
    rw [World.sendAll_cons, ih]
    unfold World.send
    cases hc : c.message <;> simp [hc, accepted, Except.toOption]

/-- Every batch that was handed to the modem tool stood at the front of the queue, and the queue held
what had been accepted and not been sent. -/
def SubmitsQueued (history : List (Occurrence κ)) : Prop :=
  ∀ found arguments output older, .modem found "send" arguments output :: older <:+ history →
    ∃ batch, batch <+: found.outbound ∧ arguments = Outbound.arguments batch ∧
      (accepted older).Perm (found.outbound ++ announced older)

theorem submitsQueued_nil : SubmitsQueued ([] : List (Occurrence κ)) := by
  intro found arguments output older h
  simp at h

theorem submitsQueued_cons {o : Occurrence κ} {history : List (Occurrence κ)}
    (h : ∀ found arguments output, o ≠ .modem found "send" arguments output) (hs : SubmitsQueued history) :
    SubmitsQueued (o :: history) := by
  intro found arguments output older hsuffix
  rcases List.suffix_cons_iff.mp hsuffix with heq | hsuffix
  · cases heq
    exact absurd rfl (h found arguments output)
  · exact hs found arguments output older hsuffix

/-! ## Batches -/

@[simp] theorem unsent_nil_right (batch : List (Outbound κ)) : unsent batch [] = batch := by
  simp [unsent]

private theorem filter_zipIdx_perm {sent : List Nat} {batch : List (Outbound κ)} {n p : Nat} {m : Outbound κ}
    (hm : batch[p]? = some m) (hp : n + p ∉ sent) :
    ((batch.zipIdx n).filter fun x => x.2 ∉ sent).Perm
      ((m, n + p) :: (batch.zipIdx n).filter fun x => x.2 ∉ (n + p) :: sent) := by
  induction batch generalizing n p with
  | nil => simp at hm
  | cons a batch ih =>
    cases p with
    | zero =>
      obtain rfl : a = m := by simpa using hm
      have htail : ((batch.zipIdx (n + 1)).filter fun x => x.2 ∉ n :: sent) =
          (batch.zipIdx (n + 1)).filter fun x => x.2 ∉ sent := by
        refine List.filter_congr fun x hx => ?_
        have hlt : n + 1 ≤ x.2 := (List.mem_zipIdx hx).1
        have hne : x.2 ≠ n := by omega
        simp [hne]
      rw [List.zipIdx_cons, List.filter_cons_of_pos (by simpa using hp), List.filter_cons_of_neg (by simp)]
      exact .cons _ (.of_eq htail.symm)
    | succ p =>
      have ih' := ih (n := n + 1) (p := p) (by simpa using hm) (by rwa [Nat.add_right_comm, Nat.add_assoc])
      rw [Nat.add_right_comm, Nat.add_assoc] at ih'
      have hne : n ≠ n + (p + 1) := by omega
      rw [List.zipIdx_cons]
      by_cases hn : n ∈ sent
      · rwa [List.filter_cons_of_neg (by simpa using hn), List.filter_cons_of_neg (by simp [hn])]
      · rw [List.filter_cons_of_pos (by simpa using hn), List.filter_cons_of_pos (by simp [hn])]
        exact (ih'.cons _).trans (.swap _ _ _)

/-- With one more message sent the others stay. -/
theorem unsent_perm {batch : List (Outbound κ)} {sent : List Nat} {p : Nat} {m : Outbound κ}
    (hm : batch[p]? = some m) (hp : p ∉ sent) : (unsent batch sent).Perm (m :: unsent batch (p :: sent)) := by
  have h := filter_zipIdx_perm (n := 0) hm (by simpa using hp)
  simpa [unsent] using h.map Prod.fst

/-! ## Reports -/

/-- The modem tool was handed the batch, and its report holds the result. -/
def Reported (history : List (Occurrence κ)) (batch : List (Outbound κ)) (r : TransmitResult) : Prop :=
  ∃ found output results, .modem found "send" (Outbound.arguments batch) (.ok output) ∈ history ∧
    TransmitResult.ofOutput output = .ok results ∧ r ∈ results

/-- The modem tool was handed a batch with the message in it, and reported that it has sent it. -/
def ReportedSent (history : List (Occurrence κ)) (m : Outbound κ) : Prop :=
  ∃ batch r p, Reported history batch r ∧ r.succeeded = true ∧ position? batch.length r = some p ∧ batch[p]? = some m

theorem Reported.cons {history : List (Occurrence κ)} {batch : List (Outbound κ)} {r : TransmitResult}
    (h : Reported history batch r) (o : Occurrence κ) : Reported (o :: history) batch r := by
  obtain ⟨found, output, results, hmem, hresults, hr⟩ := h
  exact ⟨found, output, results, List.mem_cons_of_mem o hmem, hresults, hr⟩

theorem ReportedSent.cons {history : List (Occurrence κ)} {m : Outbound κ} (h : ReportedSent history m)
    (o : Occurrence κ) : ReportedSent (o :: history) m := by
  obtain ⟨batch, r, p, hr, hp⟩ := h
  exact ⟨batch, r, p, hr.cons o, hp⟩

/-! ## The invariant -/

/-- A stage of a transmission. An empty batch says that none is underway. -/
structure Stage (κ : Type) where
  batch : List (Outbound κ) := []
  /-- The places in the batch of the messages that have been sent. -/
  sent : List Nat := []
  /-- What the modem tool has reported. -/
  results : List TransmitResult := []

/-- No transmission is underway. -/
def Stage.idle : Stage κ := {}

/-- What holds at a stage of a transmission: what has been accepted is the rest of the batch, the queue
behind the batch, and what has been announced. -/
structure Owes (i : Stage κ) (w : World κ σ) : Prop where
  front : i.batch <+: w.queues.outbound
  balance : (accepted w.history).Perm
    (unsent i.batch i.sent ++ w.queues.outbound.drop i.batch.length ++ announced w.history)
  submits : SubmitsQueued w.history
  reports : ∀ r ∈ i.results, Reported w.history i.batch r
  credits : ∀ m ∈ announced w.history, ReportedSent w.history m

namespace Owes

variable {i : Stage κ} {batch : List (Outbound κ)} {sent : List Nat} {results : List TransmitResult}
  {w w' : World κ σ}

/-- When no transmission is underway, each accepted message is in the queue or announced. -/
theorem perm (h : Owes .idle w) :
    (accepted w.history).Perm (w.queues.outbound ++ announced w.history) := by
  simpa [Stage.idle] using h.balance

theorem send (c : SendCall κ) (h : Owes i w) : Owes i (w.send c) := by
  unfold World.send
  cases hc : c.message with
  | error f => exact h
  | ok m =>
    have hlen : i.batch.length ≤ w.queues.outbound.length := h.front.length_le
    have hdrop : (w.queues.outbound ++ [m]).drop i.batch.length = w.queues.outbound.drop i.batch.length ++ [m] :=
      List.drop_append_of_le_length hlen
    have hacc : accepted (.accepted m :: w.history) = m :: accepted w.history := rfl
    have hann : announced (.accepted m :: w.history) = announced w.history := rfl
    constructor
    case front => exact h.front.trans (List.prefix_append _ _)
    case balance =>
      simp only [enqueueOutbound, hdrop, hacc, hann]
      refine (h.balance.cons m).trans ?_
      rw [← List.append_assoc, List.append_assoc _ [m], List.singleton_append]
      exact List.perm_middle.symm
    case submits => exact submitsQueued_cons (by simp) h.submits
    case reports => exact fun r hr => (h.reports r hr).cons _
    case credits => exact fun m' hm' => (h.credits m' (hann ▸ hm')).cons _

theorem sendAll (cs : List (SendCall κ)) (h : Owes i w) : Owes i (w.sendAll cs) :=
  World.sendAll_keeps (fun c _ hv => hv.send c) cs h

/-- Only queues and history count. -/
theorem of_eq (h : Owes i w) (hq : w'.queues.outbound = w.queues.outbound)
    (hh : w'.history = w.history) : Owes i w' := by
  constructor
  case front =>
    rw [hq]
    exact h.front
  case balance =>
    rw [hq, hh]
    exact h.balance
  case submits =>
    rw [hh]
    exact h.submits
  case reports =>
    rw [hh]
    exact h.reports
  case credits =>
    rw [hh]
    exact h.credits

theorem cons (h : Owes i w) {o : Occurrence κ} (ho : o.IsQuiet)
    (hq : w'.queues.outbound = w.queues.outbound) (hh : w'.history = o :: w.history) : Owes i w' := by
  constructor
  case front =>
    rw [hq]
    exact h.front
  case balance =>
    rw [hq, hh, accepted_cons_of_isQuiet ho, announced_cons_of_isQuiet ho]
    exact h.balance
  case submits =>
    rw [hh]
    refine submitsQueued_cons ?_ h.submits
    intro found arguments output heq
    subst heq
    exact ho rfl
  case reports =>
    rw [hh]
    exact fun r hr => (h.reports r hr).cons o
  case credits =>
    rw [hh, announced_cons_of_isQuiet ho]
    exact fun m hm => (h.credits m hm).cons o

theorem note (h : Owes i w) {o : Occurrence κ} (ho : o.IsQuiet) : Owes i (w.note o) :=
  h.cons ho rfl rfl

theorem answered (h : Owes i w) (cs : List (SendCall κ)) (s : σ) {o : Queues κ → Occurrence κ}
    (ho : ∀ q, (o q).IsQuiet) : Owes i (w.answered cs s o) :=
  (h.sendAll cs).cons (ho _) rfl rfl

/-- A message of the batch that has been reported as sent is announced. -/
theorem announce (h : Owes ⟨batch, sent, results⟩ w) {p : Nat} {m : Outbound κ} {r : TransmitResult}
    (hresult : r ∈ results) (hpos : position? batch.length r = some p) (hm : batch[p]? = some m) (hp : p ∉ sent)
    (hr : r.succeeded = true) (cs : List (SendCall κ)) (s : σ) (a : Except Fault Returned) :
    Owes ⟨batch, p :: sent, results⟩ (w.answered cs s fun _ => .request (.transmit m r) a) := by
  have h' := h.sendAll cs
  have hacc : accepted (.request (.transmit m r) a :: (w.sendAll cs).history) =
      accepted (w.sendAll cs).history := rfl
  have hann : announced (.request (.transmit m r) a :: (w.sendAll cs).history) =
      m :: announced (w.sendAll cs).history := by simp [announced, hr]
  constructor
  case front => exact h'.front
  case balance =>
    simp only [World.queues_answered, World.history_answered, hacc, hann]
    refine h'.balance.trans ?_
    refine (((unsent_perm hm hp).append_right _).append_right _).trans ?_
    simp only [List.cons_append]
    exact List.perm_middle.symm
  case submits => exact submitsQueued_cons (by simp) h'.submits
  case reports => exact fun r hr => (h'.reports r hr).cons _
  case credits =>
    simp only [World.history_answered, hann, List.forall_mem_cons]
    constructor
    · exact ⟨batch, r, p, (h'.reports r hresult).cons _, hr, hpos, hm⟩
    · exact fun m' hm' => (h'.credits m' hm').cons _

/-- A batch is handed to the modem tool. -/
theorem submit (h : Owes ⟨batch, [], []⟩ w) (cs : List (SendCall κ)) (s : σ) (output : Except Fault Value) :
    Owes ⟨batch, [], []⟩ (w.answered cs s fun q => .modem q "send" (Outbound.arguments batch) output) := by
  have h' := h.sendAll cs
  constructor
  case front => exact h'.front
  case balance => exact h'.balance
  case submits =>
    intro found arguments out older hsuffix
    rcases List.suffix_cons_iff.mp hsuffix with heq | hsuffix
    · simp only [List.cons.injEq, Occurrence.modem.injEq] at heq
      obtain ⟨⟨rfl, -, rfl, rfl⟩, rfl⟩ := heq
      refine ⟨batch, h'.front, rfl, ?_⟩
      have hall := List.prefix_iff_eq_append.mp h'.front
      simpa [hall] using h'.balance
    · exact h'.submits found arguments out older hsuffix
  case reports => simp
  case credits => exact fun m hm => (h'.credits m hm).cons _

/-- A batch is handed to the modem tool, and it reports on it. -/
theorem report (h : Owes ⟨batch, [], []⟩ w) {output : Value} (hresults : TransmitResult.ofOutput output = .ok results)
    (cs : List (SendCall κ)) (s : σ) : Owes ⟨batch, [], results⟩
      (w.answered cs s fun q => .modem q "send" (Outbound.arguments batch) (.ok output)) := by
  have h' := h.submit cs s (.ok output)
  have hreports : ∀ r ∈ results, Reported (w.answered cs s fun q =>
      .modem q "send" (Outbound.arguments batch) (.ok output)).history batch r :=
    fun r hr => ⟨_, output, results, List.mem_cons_self, hresults, hr⟩
  exact ⟨h'.front, h'.balance, h'.submits, hreports, h'.credits⟩

/-- A batch is taken off the front of the queue. -/
theorem take (h : Owes .idle w) (n : Nat) : Owes ⟨w.queues.outbound.take n, [], []⟩ w := by
  have hall := List.prefix_iff_eq_append.mp (List.take_prefix n w.queues.outbound)
  refine ⟨List.take_prefix _ _, ?_, h.submits, by simp, h.credits⟩
  rw [unsent_nil_right, hall]
  exact h.perm

/-- A transmission of which nothing has come leaves the queue as it is. -/
theorem abandon (h : Owes ⟨batch, [], results⟩ w) : Owes .idle w := by
  have hall := List.prefix_iff_eq_append.mp h.front
  refine ⟨List.nil_prefix, ?_, h.submits, by simp [Stage.idle], h.credits⟩
  simpa [Stage.idle, hall] using h.balance

/-- What is left of the batch goes to the end of the queue. -/
theorem requeue (h : Owes ⟨batch, sent, results⟩ w) : Owes .idle (w.update (requeueOutbound batch sent)) := by
  refine ⟨List.nil_prefix, ?_, h.submits, by simp [Stage.idle], h.credits⟩
  simp only [World.queues_update, World.history_update, requeueOutbound, Stage.idle, unsent_nil_left,
    List.nil_append, List.length_nil, List.drop_zero]
  exact h.balance.trans (List.perm_append_comm.append_right _)

end Owes

/-- No transmission is underway in the beginning. -/
theorem owes_start (s : σ) : Owes .idle ({ outside := s } : World κ σ) := by
  refine ⟨List.nil_prefix, ?_, submitsQueued_nil, by simp [Stage.idle], by simp [announced]⟩
  exact .refl []

end SmsRelay.Gateway
