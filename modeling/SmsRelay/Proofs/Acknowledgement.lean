-- SUMMARY: The ledger of places that may be erased, kept through every phase, run and history of surroundings.
import Mathlib.Data.List.Perm.Subperm
import SmsRelay.Proofs.Reach
import SmsRelay.Proofs.Replay
import SmsRelay.Proofs.Scope

/-!
# Conservation of acknowledged places

Each message that the application accepts adds its places to the deletion
queue. A place leaves the queue when the modem tool confirms that it has been
erased, and the application is told so. In the course of a deletion the batch
stays in the queue while its candidates are settled one after the other.
-/

namespace SmsRelay.Gateway

open Phase

variable {κ σ : Type} {E : Surroundings κ σ} {w w' v : World κ σ} {o : Occurrence κ}
  {older history : List (Occurrence κ)}

/-! ## Candidates in a history -/

/-- The messages that the application has accepted, the latest first. -/
def taken (history : List (Occurrence κ)) : List Message :=
  history.filterMap fun
    | .request (.receive m) (.ok _) => some m
    | _ => none

/-- The candidates for deletion that the accepted messages give rise to. -/
def granted (history : List (Occurrence κ)) : List Candidate := (taken history).flatMap Message.candidates

/-- The candidates of which the application has been told that they are erased, the latest first. -/
def erased (history : List (Occurrence κ)) : List Candidate :=
  history.filterMap fun
    | .notice (.deleted c) => some c
    | _ => none

/-- The candidates that a call of the modem tool confirms: those of its batch, the front of the queue that
it found, for whose places its output reports success. -/
def Occurrence.confirmed : Occurrence κ → List Candidate
  | .modem found command arguments output =>
    match output >>= DeletionReport.ofOutput with
    | .ok report =>
      if command = "delete" then (found.deletion.take arguments.length).filter fun c => report.confirms c.location
      else []
    | .error _ => []
  | _ => []

/-- The candidates that have been confirmed, the latest first. -/
def confirmed (history : List (Occurrence κ)) : List Candidate := history.flatMap fun o => o.confirmed.reverse

/-- An occurrence in which nothing is accepted and nothing erased. -/
def Occurrence.OffBooks : Occurrence κ → Prop
  | .request (.receive _) (.ok _) => False
  | .notice (.deleted _) => False
  | .modem _ command _ _ => command ≠ "delete"
  | _ => True

theorem taken_cons_of_offBooks (h : o.OffBooks) (history : List (Occurrence κ)) :
    taken (o :: history) = taken history := by
  unfold taken
  rw [List.filterMap_cons]
  split
  · rfl
  · rename_i m heq
    split at heq
    · exact h.elim
    · cases heq

theorem granted_cons_of_offBooks (h : o.OffBooks) (history : List (Occurrence κ)) :
    granted (o :: history) = granted history := by
  rw [granted, taken_cons_of_offBooks h, granted]

theorem erased_cons_of_offBooks (h : o.OffBooks) (history : List (Occurrence κ)) :
    erased (o :: history) = erased history := by
  unfold erased
  rw [List.filterMap_cons]
  split
  · rfl
  · rename_i c heq
    split at heq
    · exact h.elim
    · cases heq

theorem confirmed_of_offBooks (h : o.OffBooks) : o.confirmed = [] := by
  cases o with
  | modem found command arguments output =>
    have hne : command ≠ "delete" := h
    simp only [Occurrence.confirmed, if_neg hne]
    split <;> rfl
  | _ => rfl

theorem confirmed_cons (o : Occurrence κ) (history : List (Occurrence κ)) :
    confirmed (o :: history) = o.confirmed.reverse ++ confirmed history := by
  simp [confirmed]

theorem confirmed_cons_of_offBooks (h : o.OffBooks) (history : List (Occurrence κ)) :
    confirmed (o :: history) = confirmed history := by
  simp [confirmed_cons, confirmed_of_offBooks h]

@[simp] theorem take_length_arguments (queue : List Candidate) (n : Nat) :
    queue.take (Candidate.arguments (queue.take n)).length = queue.take n := by
  rw [Candidate.arguments, List.length_map, List.length_take, ← List.take_eq_take_min]

/-- What a call to erase a batch confirms. -/
theorem confirmed_delete {found : Queues κ} {n : Nat} {output : Except Fault Value} {report : DeletionReport}
    (hreport : output >>= DeletionReport.ofOutput = .ok report) :
    (Occurrence.modem found "delete" (Candidate.arguments (found.deletion.take n)) output).confirmed =
      (found.deletion.take n).filter fun c => report.confirms c.location := by
  simp [Occurrence.confirmed, hreport]

/-- A call that fails confirms nothing. -/
theorem confirmed_of_error {found : Queues κ} {command : String} {arguments : List String}
    {output : Except Fault Value} {f : Fault} (h : output >>= DeletionReport.ofOutput = .error f) :
    (Occurrence.modem found command arguments output).confirmed = [] := by
  simp [Occurrence.confirmed, h]

/-- Every batch that the modem tool was to erase stood at the front of the queue, and the queue held what
had been granted and not been confirmed. -/
def ErasesGranted (history : List (Occurrence κ)) : Prop :=
  ∀ found arguments output older, .modem found "delete" arguments output :: older <:+ history →
    arguments = Candidate.arguments (found.deletion.take arguments.length) ∧
      (granted older).Perm (found.deletion ++ confirmed older)

theorem erasesGranted_nil : ErasesGranted ([] : List (Occurrence κ)) := by
  intro found arguments output older h
  simp at h

theorem erasesGranted_cons (h : ∀ found arguments output, o ≠ .modem found "delete" arguments output)
    (hs : ErasesGranted history) : ErasesGranted (o :: history) := by
  intro found arguments output older hsuffix
  rcases List.suffix_cons_iff.mp hsuffix with heq | hsuffix
  · cases heq
    exact absurd rfl (h found arguments output)
  · exact hs found arguments output older hsuffix

/-! ## Worlds that differ in other things only -/

/-- From one world to another nothing has been accepted and nothing erased. -/
structure Unbooked (w w' : World κ σ) : Prop where
  deletion : w'.queues.deletion = w.queues.deletion
  granted : granted w'.history = granted w.history
  erased : erased w'.history = erased w.history
  confirmed : confirmed w'.history = confirmed w.history
  erases : ErasesGranted w.history → ErasesGranted w'.history

theorem Unbooked.refl (w : World κ σ) : Unbooked w w := ⟨rfl, rfl, rfl, rfl, id⟩

theorem Unbooked.trans (h : Unbooked w w') (h' : Unbooked w' v) : Unbooked w v :=
  ⟨h'.deletion.trans h.deletion, h'.granted.trans h.granted, h'.erased.trans h.erased,
    h'.confirmed.trans h.confirmed, h'.erases ∘ h.erases⟩

theorem unbooked_cons (ho : o.OffBooks) (hq : w'.queues.deletion = w.queues.deletion)
    (hh : w'.history = o :: w.history) : Unbooked w w' := by
  constructor
  case deletion => exact hq
  case granted => rw [hh, granted_cons_of_offBooks ho]
  case erased => rw [hh, erased_cons_of_offBooks ho]
  case confirmed => rw [hh, confirmed_cons_of_offBooks ho]
  case erases =>
    intro h
    rw [hh]
    refine erasesGranted_cons ?_ h
    intro found arguments output heq
    subst heq
    exact ho rfl

theorem unbooked_note (ho : o.OffBooks) : Unbooked w (w.note o) := unbooked_cons ho rfl rfl

theorem unbooked_logged (e : Log.Entry) : Unbooked w (w.note (.logged e)) := unbooked_note (by trivial)

theorem unbooked_update {f : Queues κ → Queues κ} (hf : ∀ q, (f q).deletion = q.deletion) :
    Unbooked w (w.update f) := ⟨hf _, rfl, rfl, rfl, id⟩

theorem unbooked_send (c : SendCall κ) : Unbooked w (w.send c) := by
  unfold World.send
  split
  · rename_i m _
    exact unbooked_cons (o := .accepted m) (by trivial) rfl rfl
  · exact .refl w

theorem unbooked_sendAll (cs : List (SendCall κ)) : Unbooked w (w.sendAll cs) :=
  World.sendAll_keeps (I := Unbooked w) (fun c _ hv => hv.trans (unbooked_send c)) cs (.refl w)

theorem unbooked_answered (cs : List (SendCall κ)) (s : σ) {o : Queues κ → Occurrence κ}
    (ho : ∀ q, (o q).OffBooks) : Unbooked w (w.answered cs s o) :=
  (unbooked_sendAll cs).trans (unbooked_cons (ho _) rfl rfl)

/-! ## The books -/

/-- No deletion is underway: what has been granted is queued or confirmed, and the application has been told
of all that is confirmed, and of nothing else. -/
structure Books (w : World κ σ) : Prop where
  balance : (granted w.history).Perm (w.queues.deletion ++ confirmed w.history)
  notices : erased w.history = confirmed w.history
  erases : ErasesGranted w.history

theorem books_start (s : σ) : Books ({ outside := s } : World κ σ) := ⟨.refl [], rfl, erasesGranted_nil⟩

namespace Books

theorem unbooked (h : Books w) (hw : Unbooked w w') : Books w' := by
  constructor
  case balance =>
    rw [hw.granted, hw.deletion, hw.confirmed]
    exact h.balance
  case notices =>
    rw [hw.erased, hw.confirmed]
    exact h.notices
  case erases => exact hw.erases h.erases

/-- A message is accepted, and its places are queued. -/
theorem accept (h : Books w) (m : Message) (x : Returned) (cs : List (SendCall κ)) (s : σ) :
    Books ((w.answered cs s fun _ => .request (.receive m) (.ok x)).update (enqueueDeletion m)) := by
  have h' := h.unbooked (unbooked_sendAll cs)
  have hconfirmed : confirmed (.request (.receive m) (.ok x) :: (w.sendAll cs).history) =
      confirmed (w.sendAll cs).history := rfl
  constructor
  case balance =>
    have hgranted : granted (.request (.receive m) (.ok x) :: (w.sendAll cs).history) =
        m.candidates ++ granted (w.sendAll cs).history := rfl
    rw [World.history_update, World.history_answered, hgranted, hconfirmed, World.queues_update,
      World.queues_answered, enqueueDeletion]
    refine (h'.balance.append_left _).trans ?_
    rw [← List.append_assoc]
    exact List.perm_append_comm.append_right _
  case notices => exact h'.notices
  case erases => exact erasesGranted_cons (by simp) h'.erases

end Books

/-! ## Transmission and reception -/

/-- Questions that have nothing to do with acceptance and deletion. -/
def Ask.OffBooks : Ask κ → Prop
  | .queues | .log _ | .callback .. => True
  | .update f => ∀ q, (f q).deletion = q.deletion
  | .modem command _ => command ≠ "delete"
  | .request r => r.event ≠ .receive
  | .notify n => n.event ≠ .delete

theorem Ask.OfTransmission.offBooks {q : Ask κ} (h : q.OfTransmission) : q.OffBooks := by
  cases q with
  | queues => trivial
  | log e => trivial
  | callback k m t => trivial
  | update f => exact fun q => (h q).2
  | modem command arguments =>
    obtain rfl : command = "send" := h
    simp [OffBooks]
  | request r =>
    have hevent : r.event = .transmit := h
    simp [OffBooks, hevent]
  | notify n =>
    have hevent : n.event = .transmitError := h
    simp [OffBooks, hevent]

theorem Ask.OfCollection.offBooks {q : Ask κ} (h : q.OfCollection) : q.OffBooks := by
  rcases h with h | ⟨record, f, rfl⟩
  · cases q with
    | log e => trivial
    | update f =>
      obtain ⟨m, rfl⟩ := h
      exact fun q => rfl
    | request r => rcases h with h | h <;> simp [OffBooks, h]
    | notify n =>
      obtain ⟨m, f, rfl⟩ := h
      simp [OffBooks, Notice.event]
    | queues => exact h.elim
    | modem command arguments => exact h.elim
    | callback k m t => exact h.elim
  · simp [OffBooks, Notice.event]

theorem unbooked_answers {q : Ask κ} (hq : q.OffBooks) {r : q.Answer} (h : World.Answers E w q r w') :
    Unbooked w w' := by
  cases q with
  | queues =>
    obtain ⟨-, rfl⟩ := h
    exact .refl _
  | update f =>
    obtain rfl := h
    exact unbooked_update hq
  | log e =>
    obtain rfl := h
    exact unbooked_logged e
  | modem command arguments =>
    obtain ⟨cs, s, -, rfl⟩ := h
    exact unbooked_answered cs s fun _ => hq
  | request t =>
    obtain ⟨cs, s, -, rfl⟩ := h
    refine unbooked_answered cs s fun _ => ?_
    cases t with
    | receive m => exact absurd rfl hq
    | _ => trivial
  | notify n =>
    obtain ⟨cs, s, -, rfl⟩ := h
    refine unbooked_answered cs s fun _ => ?_
    cases n with
    | deleted c => exact absurd rfl hq
    | _ => trivial
  | callback k m t =>
    obtain ⟨cs, s, -, rfl⟩ := h
    exact unbooked_answered cs s fun _ => trivial

theorem keeps_books {α : Type} {p : Phase κ α} (hp : Asks Ask.OffBooks p) : Keeps E Books p :=
  hp.keeps fun _ hq _ _ _ h hw => hw.unbooked (unbooked_answers hq h)

theorem books_transmitPhase (size : Value) : Keeps E (Books (κ := κ)) (transmitPhase size) :=
  keeps_books ((asks_transmitPhase size).mono fun _ => Ask.OfTransmission.offBooks)

theorem books_deliver (hE : E.Contained) (m : Message) : Keeps E (Books (κ := κ)) (deliver m) := by
  intro w hw
  refine (ensures_deliver hE (J := never) (I := Books) ?_ ?_ ?_ ?_).mono (fun _ _ => id) nofun
  · exact fun e v hv => hv.unbooked (unbooked_logged e)
  · exact fun f v cs s hv _ => hv.unbooked (unbooked_answered cs s fun _ => trivial)
  · exact fun cs s x _ => hw.accept m x cs s
  · exact fun cs s f _ => hw.unbooked (unbooked_answered cs s fun _ => trivial)

theorem books_deliverPhase (hE : E.Contained) : Keeps E (Books (κ := κ)) deliverPhase := by
  intro w hw
  unfold deliverPhase
  apply ensures_queues_bind
  refine (ensures_forM (fun _ => Books) hw fun _ m v _ hv => books_deliver hE m v hv).bind ?_
  exact fun _ v hv => ensures_update (hv.unbooked (unbooked_update fun _ => rfl))

theorem books_receivePhase (hE : E.Contained) : Keeps E (Books (κ := κ)) receivePhase := by
  intro w hw
  have hretrieved : ∀ cs s output, Books (w.answered cs s fun q => .modem q "retrieve" [] output) :=
    fun cs s output => hw.unbooked (unbooked_answered cs s fun _ => by simp [Occurrence.OffBooks])
  apply ensures_receivePhase (fun _ => Books) Books
  case nothing => exact fun cs s output _ _ => hretrieved cs s output
  case shown => exact fun cs s records _ => hretrieved cs s _
  case taken =>
    intro records v hv
    exact keeps_books ((asks_receiveRecords records []).mono fun _ => Ask.OfCollection.offBooks) v hv
  case logged => exact fun e v hv => hv.unbooked (unbooked_logged e)
  case delivered => exact books_deliverPhase hE

/-! ## Deletion -/

/-- A call to erase a batch goes down in the history. -/
theorem Books.call (h : Books w) (n : Nat) (cs : List (SendCall κ)) (s : σ) (output : Except Fault Value) :
    ErasesGranted (w.answered cs s fun q =>
      .modem q "delete" (Candidate.arguments (w.queues.deletion.take n)) output).history := by
  have h' := h.unbooked (unbooked_sendAll cs)
  intro found arguments out older hsuffix
  rcases List.suffix_cons_iff.mp hsuffix with heq | hsuffix
  · simp only [List.cons.injEq, Occurrence.modem.injEq] at heq
    obtain ⟨⟨rfl, -, rfl, rfl⟩, rfl⟩ := heq
    refine ⟨?_, h'.balance⟩
    rw [World.deletion_sendAll, take_length_arguments]
  · exact h'.erases found arguments out older hsuffix

/-- A call that fails changes nothing. -/
theorem Books.failed (h : Books w) {n : Nat} {output : Except Fault Value} {f : Fault}
    (hf : output >>= DeletionReport.ofOutput = .error f) (cs : List (SendCall κ)) (s : σ) :
    Books (w.answered cs s fun q => .modem q "delete" (Candidate.arguments (w.queues.deletion.take n)) output) := by
  have h' := h.unbooked (unbooked_sendAll cs)
  have hconfirmed : ∀ found arguments, confirmed (.modem found "delete" arguments output :: (w.sendAll cs).history) =
      confirmed (w.sendAll cs).history := fun found arguments => by
    simp [confirmed_cons, confirmed_of_error hf]
  refine ⟨?_, ?_, h.call n cs s output⟩
  · rw [World.history_answered, hconfirmed]
    exact h'.balance
  · rw [World.history_answered, hconfirmed]
    exact h'.notices

/-- The candidates in `before` have been settled. All that the report confirms counts as confirmed as soon as
it is there; the application is told candidate by candidate. `past` holds what had been confirmed earlier. -/
structure Settling (queue past : List Candidate) (report : DeletionReport) (batch before rest : List Candidate)
    (w : World κ σ) : Prop where
  deletion : w.queues.deletion = queue
  balance : (granted w.history).Perm (queue ++ past)
  confirmed : confirmed w.history = (batch.filter fun c => report.confirms c.location).reverse ++ past
  notices : erased w.history = (before.filter fun c => report.confirms c.location).reverse ++ past
  rest : rest = before.filter fun c => !report.confirms c.location
  erases : ErasesGranted w.history

theorem Books.settling (h : Books w) {n : Nat} {output : Except Fault Value} {report : DeletionReport}
    (hreport : output >>= DeletionReport.ofOutput = .ok report) (cs : List (SendCall κ)) (s : σ) :
    Settling w.queues.deletion (Gateway.confirmed w.history) report (w.queues.deletion.take n) [] []
      (w.answered cs s fun q => .modem q "delete" (Candidate.arguments (w.queues.deletion.take n)) output) := by
  have hsent : Unbooked w (w.sendAll cs) := unbooked_sendAll cs
  constructor
  case deletion => exact hsent.deletion
  case balance => exact hsent.granted ▸ h.balance
  case confirmed =>
    rw [World.history_answered, confirmed_cons, hsent.confirmed, ← hsent.deletion, confirmed_delete hreport]
  case notices => exact hsent.erased.trans h.notices
  case rest => rfl
  case erases => exact h.call n cs s output

section

variable {queue past batch before rest : List Candidate} {report : DeletionReport} {c : Candidate} {n : Nat}

/-- The application hears that a candidate is erased. -/
theorem Settling.confirm (h : Settling queue past report batch before rest w)
    (hc : report.confirms c.location = true) (cs : List (SendCall κ)) (s : σ) :
    Settling queue past report batch (before ++ [c]) rest (w.answered cs s fun _ => .notice (.deleted c)) := by
  have hsent : Unbooked w (w.sendAll cs) := unbooked_sendAll cs
  constructor
  case deletion => exact hsent.deletion.trans h.deletion
  case balance => exact hsent.granted ▸ h.balance
  case confirmed => exact hsent.confirmed.trans h.confirmed
  case notices =>
    have herased : erased (.notice (.deleted c) :: (w.sendAll cs).history) = c :: erased (w.sendAll cs).history := rfl
    rw [World.history_answered, herased, hsent.erased, h.notices]
    simp [hc]
  case rest => simpa [hc] using h.rest
  case erases => exact erasesGranted_cons (by simp) (hsent.erases h.erases)

/-- A candidate stays. -/
theorem Settling.refuse (h : Settling queue past report batch before rest w)
    (hc : report.confirms c.location = false) (e : Log.Entry) :
    Settling queue past report batch (before ++ [c]) (rest ++ [c]) (w.note (.logged e)) := by
  refine ⟨h.deletion, h.balance, h.confirmed, ?_, ?_, (unbooked_logged e).erases h.erases⟩
  · rw [(unbooked_logged e).erased]
    simpa [hc] using h.notices
  · simpa [hc] using h.rest

/-- What is left of a batch goes to the end of the queue; the rest has been confirmed. -/
theorem requeueDeletion_perm (p : Candidate → Bool) (queue past : List Candidate) (n : Nat) :
    (queue ++ past).Perm (queue.drop (queue.take n).length ++ (queue.take n).filter (fun c => !p c) ++
      (((queue.take n).filter p).reverse ++ past)) := by
  have hfront := List.prefix_iff_eq_append.mp (List.take_prefix n queue)
  have hbatch : (queue.take n).Perm ((queue.take n).filter (fun c => !p c) ++ ((queue.take n).filter p).reverse) :=
    calc
      List.Perm _ ((queue.take n).filter p ++ (queue.take n).filter fun c => !p c) :=
        (List.filter_append_perm p _).symm
      List.Perm _ _ := List.perm_append_comm
      List.Perm _ _ := (List.reverse_perm _).symm.append_left _
  rw [← List.append_assoc, List.append_assoc (queue.drop _)]
  refine List.Perm.append_right past ?_
  calc queue
    _ = queue.take n ++ queue.drop (queue.take n).length := hfront.symm
    List.Perm _ _ := List.perm_append_comm
    List.Perm _ _ := hbatch.append_left _

/-- All candidates of the batch have been settled. -/
theorem Settling.books (h : Settling queue past report (queue.take n) (queue.take n) rest w) :
    Books (w.update (requeueDeletion (queue.take n) rest)) := by
  refine ⟨?_, h.notices.trans h.confirmed.symm, h.erases⟩
  rw [World.history_update, World.queues_update, requeueDeletion, h.deletion, h.confirmed, h.rest]
  exact h.balance.trans (requeueDeletion_perm _ queue past n)

end

/-- A deletion settles each candidate of its batch, or none. -/
theorem books_deletePhase (hE : E.Contained) (size : Value) : Keeps E (Books (κ := κ)) (deletePhase size) := by
  intro w hw
  apply ensures_deletePhase hE (Settling w.queues.deletion (confirmed w.history))
  case logged => exact fun e v hv => hv.unbooked (unbooked_logged e)
  case hw => exact hw
  case failed => exact fun n cs s output f _ hf _ => hw.failed hf cs s
  case begun => exact fun n cs s output report _ hreport _ => hw.settling hreport cs s
  case confirmed => exact fun report batch before c rest v cs s _ hv hc _ => hv.confirm hc cs s
  case refused => exact fun report batch before c rest v e _ hv hc => hv.refuse hc e
  case settled => exact fun report n rest v _ hv => hv.books

/-! ## Whole runs -/

theorem books_runCycle (hE : E.Contained) (config : Config) : Keeps E (Books (κ := κ)) (runCycle config) :=
  keeps_runCycle (fun e _ hw => hw.unbooked (unbooked_logged e)) (books_transmitPhase _) (books_receivePhase hE)
    (books_deletePhase hE _)

theorem books_phase (hE : E.Contained) (config : Config) (a : Activity) :
    Keeps E (Books (κ := κ)) (a.phase config) := by
  cases a with
  | transmit => exact books_transmitPhase _
  | receive => exact books_receivePhase hE
  | deliver => exact books_deliverPhase hE
  | delete => exact books_deletePhase hE _
  | cycle => exact (books_runCycle hE config).discard

/-- The books are in order whenever a run rests. -/
theorem books_rests (hE : E.Contained) {config : Config} {s : σ} (h : Rests E config { outside := s } w) : Books w :=
  h.keeps (fun c _ hv => hv.unbooked (unbooked_send c)) (fun e _ hv => hv.unbooked (unbooked_logged e))
    (books_phase hE config) (books_start s)

/-- A candidate is confirmed when a call to erase it succeeds, and reports its place to be erased. -/
theorem mem_confirmed_iff {c : Candidate} : c ∈ confirmed history ↔
    ∃ found arguments output report, .modem found "delete" arguments (.ok output) ∈ history ∧
      DeletionReport.ofOutput output = .ok report ∧ c ∈ found.deletion.take arguments.length ∧
      report.status? c.location = some "ok" := by
  simp only [confirmed, List.mem_flatMap, List.mem_reverse]
  constructor
  · intro ⟨o, ho, hc⟩
    cases o with
    | modem found command arguments output =>
      cases output with
      | error f => cases hc
      | ok output =>
        simp only [Occurrence.confirmed] at hc
        split at hc
        · rename_i report hreport
          split at hc
          · rename_i hcommand
            subst hcommand
            obtain ⟨hbatch, hconfirms⟩ := List.mem_filter.mp hc
            have hstatus : report.status? c.location = some "ok" := by simpa [DeletionReport.confirms] using hconfirms
            exact ⟨found, arguments, output, report, ho, hreport, hbatch, hstatus⟩
          · cases hc
        · cases hc
    | _ => cases hc
  · intro ⟨found, arguments, output, report, ho, hreport, hbatch, hstatus⟩
    refine ⟨_, ho, ?_⟩
    have hreport : Except.ok output >>= DeletionReport.ofOutput = .ok report := hreport
    simp [Occurrence.confirmed, hreport, hbatch, DeletionReport.confirms, hstatus]

theorem mem_taken_iff {m : Message} : m ∈ taken history ↔ ∃ x, .request (.receive m) (.ok x) ∈ history := by
  unfold taken
  rw [List.mem_filterMap]
  constructor
  · intro ⟨o, ho, hm⟩
    split at hm
    · rename_i x
      cases hm
      exact ⟨x, ho⟩
    · cases hm
  · intro ⟨x, ho⟩
    exact ⟨_, ho, rfl⟩

/-- Whatever the modem tool and the handlers answer, whenever a run rests: the places of the messages that
the application has accepted are those of the queue and those that have been confirmed, place by place; a
candidate has been confirmed if a call with it in the batch succeeded and reported the status `ok` for its
place; the application has been told of the confirmed candidates, once of each, and of nothing else; and
each candidate that the modem tool was to erase stood in a batch from the front of the queue, had been
granted once more than it had been confirmed, and belonged to a message that had been accepted. -/
theorem deletions_conserved {config : Config} {w : World κ Unit} (h : Rests .free config { outside := () } w) :
    ((taken w.history).flatMap Message.locations).Perm
      (w.queues.deletion.map Candidate.location ++ (confirmed w.history).map Candidate.location) ∧
    ((taken w.history).flatMap Message.candidates).Perm (w.queues.deletion ++ confirmed w.history) ∧
    (∀ c, c ∈ confirmed w.history ↔
      ∃ found arguments output report, Occurrence.modem found "delete" arguments (.ok output) ∈ w.history ∧
        DeletionReport.ofOutput output = .ok report ∧ c ∈ found.deletion.take arguments.length ∧
        report.status? c.location = some "ok") ∧
    erased w.history = confirmed w.history ∧
    ∀ found arguments output older,
      Occurrence.modem found "delete" arguments output :: older <:+ w.history →
      ∃ batch, batch <+: found.deletion ∧ arguments = Candidate.arguments batch ∧
        (batch ++ confirmed older).Subperm ((taken older).flatMap Message.candidates) ∧
        ∀ c ∈ batch, ∃ m x, Occurrence.request (.receive m) (.ok x) ∈ older ∧ c.message = some m ∧
          c.location ∈ m.locations := by
  have hbooks : Books w := books_rests Surroundings.contained_free h
  refine ⟨?_, hbooks.balance, fun c => mem_confirmed_iff, hbooks.notices, ?_⟩
  · have hlocations : (granted w.history).map Candidate.location = (taken w.history).flatMap Message.locations := by
      simp [granted, List.map_flatMap]
    rw [← hlocations, ← List.map_append]
    exact hbooks.balance.map _
  · intro found arguments output older hsuffix
    obtain ⟨harguments, hperm⟩ := hbooks.erases found arguments output older hsuffix
    have hfront : found.deletion.take arguments.length <+: found.deletion := List.take_prefix _ _
    have hsub : (found.deletion.take arguments.length ++ confirmed older).Subperm (granted older) :=
      (hfront.sublist.append_right _).subperm.trans hperm.symm.subperm
    refine ⟨_, hfront, harguments, hsub, fun c hc => ?_⟩
    obtain ⟨m, hm, hcandidate⟩ := List.mem_flatMap.mp (hsub.subset (List.mem_append_left _ hc))
    obtain ⟨x, hx⟩ := mem_taken_iff.mp hm
    obtain ⟨l, hl, rfl⟩ := List.mem_map.mp hcandidate
    exact ⟨m, x, hx, rfl, hl⟩

/-- The record of one part of a message in two parts. -/
private def noonPart (part place : Int) (text : String) : List (String × Value) :=
  [("from", .text "+1"), ("location", .int place), ("content", .text text), ("total-segments", .int 2),
    ("segment", .int part)]

/-- The device shows the two parts of a message and another message, which the application refuses; of the
two parts only one is erased. -/
def noonReplies : Replies Unit Unit where
  modem _ command _ :=
    (.ok (if command = "retrieve" then .list [.object (noonPart 1 3 "no"), .object (noonPart 2 5 "on"),
      .object [("from", .text "+2"), ("location", .int 4)]]
    else .object [("detail", .object [("3", .text "ok"), ("5", .text "busy")])]), [], ())
  request _ r :=
    (match r with
    | .returnSegments _ => .ok (.items ((Record.message (.object (noonPart 1 3 "no"))).toOption.toList.map .message))
    | .receive m => if m.sender = "+1" then .ok .nothing else .error (.signalled .runtime "full")
    | _ => .ok .nothing, [], ())

theorem noonReplies_allowed : noonReplies.Allowed .free where
  modem _ _ _ := by simp [noonReplies, Surroundings.free]
  request _ r f := by
    cases r with
    | receive m =>
      simp only [noonReplies]
      split
      · simp
      · rintro ⟨⟩
        rfl
    | _ => simp [noonReplies]
  notify _ _ := rfl
  callback _ _ _ _ := rfl

theorem deletions_conserved_noon : ∃ w : World Unit Unit,
    Rests .free {} { outside := () } w ∧
    ((taken w.history).flatMap Message.locations).Perm
      (w.queues.deletion.map Candidate.location ++ (confirmed w.history).map Candidate.location) ∧
    w.queues.deletion.map Candidate.location = [5] ∧ (confirmed w.history).map Candidate.location = [3] := by
  have hstart : Reaches (κ := Unit) .free {} { outside := () } { outside := () } := .start
  have h := Rests.idle (hstart.act .cycle (Replies.runs_run noonReplies_allowed _ _))
  exact ⟨_, h, (deletions_conserved h).1, by rfl, by rfl⟩

end SmsRelay.Gateway
