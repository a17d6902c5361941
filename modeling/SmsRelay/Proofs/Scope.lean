-- SUMMARY: The questions that each phase may ask, and what it therefore keeps.
import SmsRelay.Proofs.Ensures

/-!
# The scope of each phase

Which questions a phase may come to ask. A transmission works on the outbound
queue alone and speaks to the application of outbound messages alone; reception
and deletion leave the outbound queue alone. What no question of a phase
destroys holds after the phase if it holds before.
-/

namespace SmsRelay.Gateway

namespace Phase

variable {κ σ : Type} {α β : Type} {allowed : Ask κ → Prop}

/-- All questions that the phase may come to ask are among the given ones. -/
def Asks (allowed : Ask κ → Prop) (p : Phase κ α) : Prop := Flow.Within (S := signature κ) allowed p.run

/-- What none of its questions destroys holds after a phase if it holds before. -/
theorem Asks.keeps {E : Surroundings κ σ} {I : World κ σ → Prop} {p : Phase κ α} (hp : Asks allowed p)
    (hI : ∀ q, allowed q → ∀ w r w', World.Answers E w q r w' → I w → I w') : Keeps E I p :=
  fun _ hw => ⟨fun h => Flow.Within.keeps hp hI h hw, fun h => Flow.Within.keeps hp hI h hw⟩

theorem Asks.mono {allowed' : Ask κ → Prop} {p : Phase κ α} (hp : Asks allowed p)
    (h : ∀ q, allowed q → allowed' q) : Asks allowed' p := Flow.Within.mono hp h

theorem asks_pure (a : α) : Asks allowed (pure a) := trivial

theorem asks_throw (f : Fault) : Asks allowed (throw f : Phase κ α) := trivial

theorem asks_settled (a : Except Fault α) : Asks allowed (settled a) := trivial

theorem Asks.bind {p : Phase κ α} {f : α → Phase κ β} (hp : Asks allowed p) (hf : ∀ a, Asks allowed (f a)) :
    Asks allowed (p >>= f) := by
  refine Flow.Within.bind hp fun a => ?_
  cases a with
  | ok a => exact hf a
  | error e => trivial

theorem Asks.guarded {p : Phase κ α} (hp : Asks allowed p) : Asks allowed (guarded p) :=
  Flow.Within.bind hp fun _ => trivial

theorem Asks.discard {p : Phase κ α} (hp : Asks allowed p) : Asks allowed (discard p) :=
  Asks.bind hp fun _ => asks_pure _

theorem asks_queues (h : allowed .queues) : Asks allowed queues := ⟨h, fun _ => trivial⟩

theorem asks_update {f : Queues κ → Queues κ} (h : allowed (.update f)) : Asks allowed (update f) :=
  ⟨h, fun _ => trivial⟩

theorem asks_log {level : Log.Level} {source text : String} (h : allowed (.log ⟨level, source, text⟩)) :
    Asks allowed (log level source text) := ⟨h, fun _ => trivial⟩

theorem asks_modem {command : String} {arguments : List String} (h : allowed (.modem command arguments)) :
    Asks allowed (modem command arguments) := ⟨h, fun _ => trivial⟩

theorem asks_request {r : Request κ} (h : allowed (.request r)) : Asks allowed (request r) :=
  ⟨h, fun _ => trivial⟩

theorem asks_attempt {r : Request κ} (h : allowed (.request r)) : Asks allowed (attempt r) := by
  rw [attempt_eq]
  exact (asks_request h).guarded

theorem asks_notify {n : Notice κ} (h : allowed (.notify n)) : Asks allowed (notify n) :=
  ⟨h, fun _ => trivial⟩

theorem asks_callback {k : κ} {m : Outbound κ} {t : TransmitResult} (h : allowed (.callback k m t)) :
    Asks allowed (callback k m t) := ⟨h, fun _ => trivial⟩

theorem asks_foldlM_of_mem {f : β → α → Phase κ β} {xs : List α} (hf : ∀ b, ∀ a ∈ xs, Asks allowed (f b a)) (b : β) :
    Asks allowed (xs.foldlM f b) := by
  induction xs generalizing b with
  | nil => exact asks_pure b
  | cons a xs ih =>
    rw [List.foldlM_cons]
    exact (hf b a List.mem_cons_self).bind fun c => ih (fun b a ha => hf b a (List.mem_cons_of_mem _ ha)) c

theorem asks_foldlM {f : β → α → Phase κ β} (hf : ∀ b a, Asks allowed (f b a)) (xs : List α) (b : β) :
    Asks allowed (xs.foldlM f b) := asks_foldlM_of_mem (fun b a _ => hf b a) b

theorem asks_forM {f : α → Phase κ PUnit} (hf : ∀ a, Asks allowed (f a)) (xs : List α) :
    Asks allowed (xs.forM f) := by
  induction xs with
  | nil => exact asks_pure _
  | cons a xs ih => exact (hf a).bind fun _ => ih

end Phase

open Phase

variable {κ : Type}

/-! ## Transmission -/

/-- Questions about a message that has been sent, or has not. -/
def Ask.OfAnnouncement : Ask κ → Prop
  | .log _ | .callback .. => True
  | .request r => r.event = .transmit
  | .notify n => n.event = .transmitError
  | .queues | .update _ | .modem .. => False

/-- Questions about outbound messages. -/
def Ask.OfTransmission : Ask κ → Prop
  | .queues | .log _ | .callback .. => True
  | .update f => ∀ q, (f q).inbound = q.inbound ∧ (f q).deletion = q.deletion
  | .modem command _ => command = "send"
  | .request r => r.event = .transmit
  | .notify n => n.event = .transmitError

theorem Ask.OfAnnouncement.ofTransmission {q : Ask κ} (h : q.OfAnnouncement) : q.OfTransmission := by
  cases q with
  | queues => trivial
  | log e => trivial
  | callback k m t => trivial
  | request r => exact h
  | notify n => exact h
  | update f => exact h.elim
  | modem command arguments => exact h.elim

theorem asks_announce (m : Outbound κ) (t : TransmitResult) : Asks Ask.OfAnnouncement (announce m t) := by
  unfold announce
  extract_lets rest
  have hrest : ∀ u, Asks Ask.OfAnnouncement (rest u) := by
    intro u
    refine (asks_attempt (by rfl)).bind fun a => ?_
    cases a with
    | ok x => exact asks_pure _
    | error f => exact asks_notify (by rfl)
  split
  · exact (asks_callback trivial).bind hrest
  · exact hrest ()

theorem asks_reconcile (batch : List (Outbound κ)) (sent : List Nat) (t : TransmitResult) :
    Asks Ask.OfAnnouncement (reconcile batch sent t) := by
  have unexpected : ∀ {text : String}, Asks Ask.OfAnnouncement (κ := κ)
      (do log .warning "core.outbound" text; return sent) :=
    (asks_log trivial).bind fun _ => asks_pure _
  unfold reconcile
  dsimp only
  split
  · exact unexpected
  · split
    · exact unexpected
    · split
      · exact unexpected
      · split
        · exact (asks_announce _ _).bind fun _ => asks_pure _
        · exact (asks_notify (by rfl)).bind fun _ => asks_pure _

theorem asks_transmitPhase (size : Value) : Asks Ask.OfTransmission (transmitPhase size : Phase κ Unit) := by
  unfold transmitPhase
  refine (asks_queues trivial).bind fun q => ?_
  split
  · exact asks_pure _
  · refine (asks_settled _).bind fun n => ?_
    refine (asks_modem (by rfl)).bind fun output => ?_
    refine (asks_settled _).bind fun results => ?_
    refine ((asks_foldlM (asks_reconcile _) _ _).mono fun _ => Ask.OfAnnouncement.ofTransmission).bind fun sent => ?_
    refine (asks_update fun q => ⟨rfl, rfl⟩).bind fun _ => ?_
    exact (asks_queues trivial).bind fun _ => asks_log trivial

/-- Surroundings whose state has nothing to do with outbound messages. -/
structure Surroundings.Aloof {σ : Type} (E : Surroundings κ σ) : Prop where
  modem {s s' arguments output} : E.modem s "send" arguments output s' → s' = s
  request {s s' m t answer} : E.request s (.transmit m t) answer s' → s' = s
  notify {s s' m f answer} : E.notify s (.transmitError m f) answer s' → s' = s
  callback {s s' k m t answer} : E.callback s k m t answer s' → s' = s

/-- A transmission leaves such surroundings as they are. -/
theorem Surroundings.Aloof.outside {σ : Type} {E : Surroundings κ σ} (hE : E.Aloof) {w w' : World κ σ} {q : Ask κ}
    (hq : q.OfTransmission) {r : q.Answer} (h : World.Answers E w q r w') : w'.outside = w.outside := by
  cases q with
  | queues =>
    obtain ⟨-, rfl⟩ := h
    rfl
  | update f =>
    obtain rfl := h
    rfl
  | log e =>
    obtain rfl := h
    rfl
  | modem command arguments =>
    obtain ⟨cs, s, hs, rfl⟩ := h
    obtain rfl : command = "send" := hq
    exact hE.modem hs
  | request t =>
    obtain ⟨cs, s, hs, rfl⟩ := h
    cases t with
    | transmit m t => exact hE.request hs
    | _ => cases hq
  | notify n =>
    obtain ⟨cs, s, hs, rfl⟩ := h
    cases n with
    | transmitError m f => exact hE.notify hs
    | _ => cases hq
  | callback k m t =>
    obtain ⟨cs, s, hs, rfl⟩ := h
    exact hE.callback hs

/-! ## Reception and deletion -/

/-- Questions that leave outbound messages alone. -/
def Ask.OffTransmission : Ask κ → Prop
  | .queues | .log _ => True
  | .callback .. => False
  | .update f => ∀ q, (f q).outbound = q.outbound
  | .modem command _ => command ≠ "send"
  | .request r => r.event ≠ .transmit
  | .notify n => n.event ≠ .transmitError

/-- Questions that leave outbound messages and the modem tool alone. -/
def Ask.OffModem (q : Ask κ) : Prop := q.OffTransmission ∧ ∀ command arguments, q ≠ .modem command arguments

theorem offModem_update {f : Queues κ → Queues κ} (h : ∀ q, (f q).outbound = q.outbound) :
    (Ask.update f).OffModem := ⟨h, by simp⟩

theorem offModem_request {r : Request κ} (h : r.event ≠ .transmit) : (Ask.request r).OffModem := ⟨h, by simp⟩

theorem offModem_notify {n : Notice κ} (h : n.event ≠ .transmitError) : (Ask.notify n).OffModem := ⟨h, by simp⟩

theorem offModem_log (e : Log.Entry) : (Ask.log e : Ask κ).OffModem := ⟨trivial, by simp⟩

theorem offModem_queues : (Ask.queues : Ask κ).OffModem := ⟨trivial, by simp⟩

theorem Phase.Asks.offTransmission {α : Type} {p : Phase κ α} (hp : Asks Ask.OffModem p) : Asks Ask.OffTransmission p :=
  hp.mono fun _ h => h.1

/-- Questions about a message that is offered to the application. -/
def Ask.OfDelivery : Ask κ → Prop
  | .log _ => True
  | .update f => ∃ m, f = enqueueDeletion m
  | .request r => r.event = .receive
  | .notify n => ∃ m f, n = .receiveError (.message m) f
  | .queues | .modem .. | .callback .. => False

/-- Questions about a message, or a part of one, that is taken in. -/
def Ask.OfPart : Ask κ → Prop
  | .log _ => True
  | .update f => ∃ m, f = enqueueInbound m
  | .request r => r.event = .receiveSegment ∨ r.event = .returnSegments
  | .notify n => ∃ m f, n = .receiveError (.message m) f
  | .queues | .modem .. | .callback .. => False

/-- Questions about this message that is taken in. -/
def Ask.About (m : Message) : Ask κ → Prop
  | .log _ => True
  | .update f => ∃ whole, f = enqueueInbound whole
  | .request r => r = .receiveSegment m ∨ r = .returnSegments m.key
  | .notify n => ∃ f, n = .receiveError (.message m) f
  | .queues | .modem .. | .callback .. => False

/-- Questions about a record that is taken in. -/
def Ask.OfCollection (q : Ask κ) : Prop := q.OfPart ∨ ∃ record f, q = .notify (.receiveError (.other record) f)

/-- Questions about some records that are taken in: the parts to be kept are parts that they describe. -/
def Ask.OfRecords (records : List Value) (q : Ask κ) : Prop :=
  q.OfCollection ∧ ∀ m, q = .request (.receiveSegment m) → ∃ record ∈ records, Record.message record = .ok m

theorem Ask.About.ofPart {m : Message} {q : Ask κ} (h : q.About m) : q.OfPart := by
  cases q with
  | log e => trivial
  | update f => exact h
  | request r =>
    rcases h with rfl | rfl
    · exact .inl rfl
    · exact .inr rfl
  | notify n =>
    obtain ⟨f, rfl⟩ := h
    exact ⟨m, f, rfl⟩
  | queues => exact h.elim
  | modem command arguments => exact h.elim
  | callback k t r => exact h.elim

theorem Ask.About.ofRecords {m : Message} {record : Value} {records : List Value} (hrecord : record ∈ records)
    (hm : Record.message record = .ok m) {q : Ask κ} (h : q.About m) : q.OfRecords records := by
  refine ⟨.inl h.ofPart, fun a ha => ?_⟩
  subst ha
  rcases h with heq | heq
  · cases heq
    exact ⟨record, hrecord, hm⟩
  · cases heq

theorem Ask.OfDelivery.offModem {q : Ask κ} (h : q.OfDelivery) : q.OffModem := by
  cases q with
  | log e => exact offModem_log e
  | update f =>
    obtain ⟨m, rfl⟩ := h
    exact offModem_update fun q => rfl
  | request r =>
    have hevent : r.event = .receive := h
    exact offModem_request (by simp [hevent])
  | notify n =>
    obtain ⟨m, f, rfl⟩ := h
    exact offModem_notify (by simp [Notice.event])
  | queues => exact h.elim
  | modem command arguments => exact h.elim
  | callback k m t => exact h.elim

theorem Ask.OfPart.offModem {q : Ask κ} (h : q.OfPart) : q.OffModem := by
  cases q with
  | log e => exact offModem_log e
  | update f =>
    obtain ⟨m, rfl⟩ := h
    exact offModem_update fun q => rfl
  | request r =>
    refine offModem_request fun heq => ?_
    simp [OfPart, heq] at h
  | notify n =>
    obtain ⟨m, f, rfl⟩ := h
    exact offModem_notify (by simp [Notice.event])
  | queues => exact h.elim
  | modem command arguments => exact h.elim
  | callback k m t => exact h.elim

theorem Ask.OfCollection.offModem {q : Ask κ} (h : q.OfCollection) : q.OffModem := by
  rcases h with h | ⟨record, f, rfl⟩
  · exact h.offModem
  · exact offModem_notify (by simp [Notice.event])

theorem Phase.Asks.offModem {α : Type} {p : Phase κ α} (hp : Asks Ask.OfCollection p) : Asks Ask.OffModem p :=
  hp.mono fun _ => Ask.OfCollection.offModem

theorem asks_deliver (m : Message) : Asks Ask.OfDelivery (deliver m : Phase κ Unit) := by
  unfold deliver
  refine (asks_attempt (by rfl)).bind fun a => ?_
  split
  · exact asks_update ⟨m, rfl⟩
  · exact asks_notify ⟨m, _, rfl⟩
  · exact asks_log trivial

theorem asks_deliverPhase : Asks Ask.OffModem (deliverPhase : Phase κ Unit) := by
  unfold deliverPhase
  refine (asks_queues offModem_queues).bind fun q => ?_
  refine ((asks_forM asks_deliver _).mono fun _ => Ask.OfDelivery.offModem).bind fun _ => ?_
  exact asks_update (offModem_update fun _ => rfl)

theorem asks_collectPart (m : Message) : Asks (Ask.About m) (collectPart m : Phase κ (Option Message)) := by
  unfold collectPart
  refine (asks_request (.inl rfl)).discard.bind fun _ => ?_
  refine (asks_request (.inr rfl)).bind fun returned => ?_
  exact (asks_settled _).bind fun stored => asks_pure _

theorem asks_receivePart (completed : List String) (m : Message) :
    Asks (Ask.About m) (receivePart completed m : Phase κ (List String)) := by
  unfold receivePart
  split
  · exact asks_pure _
  · refine (asks_collectPart m).guarded.bind fun a => ?_
    split
    · refine (asks_log trivial).bind fun _ => ?_
      exact (asks_notify ⟨_, rfl⟩).bind fun _ => asks_pure _
    · exact asks_pure _
    · refine (asks_update ⟨_, rfl⟩).bind fun _ => ?_
      exact (asks_log trivial).bind fun _ => asks_pure _

theorem asks_readRecord_bind {α : Type} {allowed : Ask κ → Prop} (hlog : ∀ e, allowed (.log e)) {record : Value}
    {f : Except Fault Message → Phase κ α} (hf : Asks allowed (f (Record.message record))) :
    Asks allowed (readRecord record >>= f) := by
  unfold readRecord
  dsimp only
  split
  · exact ⟨hlog _, fun _ => hf⟩
  · exact hf

theorem asks_receiveMessage (completed : List String) (m : Message) :
    Asks (Ask.About m) (do
      if m.isPart then receivePart completed m
      else do
        update (enqueueInbound m)
        return completed : Phase κ (List String)) := by
  split
  · exact asks_receivePart completed m
  · exact (asks_update ⟨m, rfl⟩).bind fun _ => asks_pure _

theorem asks_receiveRecord {records : List Value} {record : Value} (hrecord : record ∈ records)
    (completed : List String) :
    Asks (Ask.OfRecords records) (receiveRecord completed record : Phase κ (List String)) := by
  have hlog : ∀ e, (Ask.log e : Ask κ).OfRecords records := fun e => ⟨.inl trivial, nofun⟩
  unfold receiveRecord
  refine asks_readRecord_bind hlog ?_
  cases hm : Record.message record with
  | ok m => exact (asks_receiveMessage completed m).mono fun _ => Ask.About.ofRecords hrecord hm
  | error f =>
    dsimp only
    split
    · refine (asks_log (hlog _)).bind fun _ => ?_
      exact (asks_notify ⟨.inr ⟨record, f, rfl⟩, nofun⟩).bind fun _ => asks_pure _
    · exact asks_throw f

theorem asks_ofRecords (records : List Value) (completed : List String) :
    Asks (Ask.OfRecords records) (records.foldlM receiveRecord completed : Phase κ (List String)) :=
  asks_foldlM_of_mem (fun completed _ hrecord => asks_receiveRecord hrecord completed) _

theorem asks_receiveRecords (records : List Value) (completed : List String) :
    Asks Ask.OfCollection (records.foldlM receiveRecord completed : Phase κ (List String)) :=
  (asks_ofRecords records completed).mono fun _ h => h.1

theorem asks_receivePhase : Asks Ask.OffTransmission (receivePhase : Phase κ Unit) := by
  unfold receivePhase
  refine (asks_modem (by simp [Ask.OffTransmission])).bind fun output => ?_
  refine (asks_settled _).bind fun records => ?_
  refine (asks_receiveRecords records []).offModem.offTransmission.discard.bind fun _ => ?_
  dsimp only
  split
  · refine (asks_queues trivial).bind fun q => ?_
    exact (asks_log trivial).bind fun _ => asks_deliverPhase.offTransmission
  · exact asks_deliverPhase.offTransmission

/-- Questions about a place that has been erased, or has not. -/
def Ask.OfErasure : Ask κ → Prop
  | .log _ => True
  | .notify n => n.event = .delete
  | .queues | .update _ | .modem .. | .request _ | .callback .. => False

/-- Questions about places to be erased. -/
def Ask.OfDeletion : Ask κ → Prop
  | .queues | .log _ => True
  | .update f => ∀ q, (f q).outbound = q.outbound ∧ (f q).inbound = q.inbound
  | .modem command _ => command = "delete"
  | .notify n => n.event = .delete
  | .request _ | .callback .. => False

theorem Ask.OfErasure.offModem {q : Ask κ} (h : q.OfErasure) : q.OffModem := by
  cases q with
  | log e => exact offModem_log e
  | notify n => exact offModem_notify (by simp [show n.event = .delete from h])
  | queues => exact h.elim
  | update f => exact h.elim
  | modem command arguments => exact h.elim
  | request r => exact h.elim
  | callback k m t => exact h.elim

theorem Ask.OfErasure.ofDeletion {q : Ask κ} (h : q.OfErasure) : q.OfDeletion := by
  cases q with
  | log e => trivial
  | notify n => exact h
  | queues => exact h.elim
  | update f => exact h.elim
  | modem command arguments => exact h.elim
  | request r => exact h.elim
  | callback k m t => exact h.elim

theorem Ask.OfDeletion.offTransmission {q : Ask κ} (h : q.OfDeletion) : q.OffTransmission := by
  cases q with
  | queues => trivial
  | log e => trivial
  | update f => exact fun q => (h q).1
  | modem command arguments => simp [OffTransmission, show command = "delete" from h]
  | notify n => simp [OffTransmission, show n.event = .delete from h]
  | request r => exact h.elim
  | callback k m t => exact h.elim

theorem asks_settle (report : DeletionReport) (failed : List Candidate) (c : Candidate) :
    Asks Ask.OfErasure (settle report failed c : Phase κ (List Candidate)) := by
  unfold settle
  split
  · exact (asks_notify (by rfl)).bind fun _ => asks_pure _
  · exact (asks_log trivial).bind fun _ => asks_pure _

theorem asks_deletePhase (size : Value) : Asks Ask.OfDeletion (deletePhase size : Phase κ Unit) := by
  unfold deletePhase
  refine (asks_queues trivial).bind fun q => ?_
  split
  · exact asks_pure _
  · refine (asks_settled _).bind fun n => ?_
    refine (asks_modem (by rfl)).bind fun output => ?_
    refine (asks_settled _).bind fun report => ?_
    refine ((asks_foldlM (asks_settle report) _ _).mono fun _ => Ask.OfErasure.ofDeletion).bind fun failed => ?_
    refine (asks_update fun _ => ⟨rfl, rfl⟩).bind fun _ => ?_
    exact (asks_queues trivial).bind fun _ => asks_log trivial

end SmsRelay.Gateway
