-- SUMMARY: Records that cannot be read are reported and otherwise change nothing, but for an infinite number.
import SmsRelay.Proofs.Isolation

/-!
# Records that cannot be read

A reception that is shown some records, beside a reception that is shown only
those among them that can be read. Each record that cannot be read is reported
once; otherwise the two go the same way, unless a record stops the first.
-/

namespace SmsRelay

/-- Whether a record describes a message. -/
def Record.isReadable (record : Value) : Bool := (message record).isOk

/-- The report on a record that cannot be read. -/
def Record.complaint? (record : Value) : Option (Value × Fault) :=
  match message record with
  | .ok _ => none
  | .error f => some (record, f)

section

variable {record : Value} {m : Message} {f : Fault}

theorem Record.isReadable_of_ok (h : message record = .ok m) : isReadable record = true := by
  rw [isReadable, h]
  rfl

theorem Record.not_isReadable_of_error (h : message record = .error f) : ¬isReadable record = true := by
  rw [isReadable, h]
  exact Bool.false_ne_true

theorem Record.complaint?_of_ok (h : message record = .ok m) : complaint? record = none := by
  rw [complaint?, h]

theorem Record.complaint?_of_error (h : message record = .error f) : complaint? record = some (record, f) := by
  rw [complaint?, h]

theorem Record.jam?_eq_none : jam? record = none ↔ message record ≠ .error .integerOfInfinity := by
  rw [Option.eq_none_iff_forall_ne_some]
  simp [jam?_eq_some]

/-- Any record with an infinite number for its place stops the retrieval, if there is a sender. -/
theorem Record.message_of_infinite {sender : String} {x : Float} {negative : Bool} (hsender : sender ≠ "")
    (hx : Number.parts x = .infinite negative) :
    message (.object [("from", .text sender), ("location", .float x)]) = .error .integerOfInfinity := by
  have hlocation : readLocation [("from", .text sender), ("location", .float x)] = .error .integerOfInfinity := by
    simp [readLocation, Value.field?, Value.toInteger, Value.integerOfFloat, hx]
  have hsome : readSender [("from", .text sender), ("location", .float x)] = .ok sender := by
    simp [readSender, Value.field?, hsender]
  have hhead : readHead [("from", .text sender), ("location", .float x)] = .error .integerOfInfinity := by
    rw [readHead, hsome, hlocation]
    rfl
  rw [message, read, readFields, hhead]

end

namespace Gateway

open Phase

variable {κ σ : Type} {E E' : Surroundings κ σ} {w w' v v' : World κ σ} {α β : Type}

/-! ## Worlds that are alike -/

/-- The reports on records in a history, the latest first. -/
def complaints (history : List (Occurrence κ)) : List (Value × Fault) :=
  history.filterMap fun
    | .notice (.receiveError (.other record) f) => some (record, f)
    | _ => none

/-- What is said to the application, but for reports on records. -/
def Occurrence.isSaid : Occurrence κ → Bool
  | .request .. => true
  | .notice (.receiveError (.other _) _) => false
  | .notice _ => true
  | _ => false

/-- The worlds hold the same messages and candidates, and the same has been said and answered in them. -/
structure Alike (w v : World κ σ) : Prop where
  inbound : w.queues.inbound = v.queues.inbound
  deletion : w.queues.deletion = v.queues.deletion
  outside : w.outside = v.outside
  said : w.history.filter Occurrence.isSaid = v.history.filter Occurrence.isSaid

namespace Alike

theorem refl (w : World κ σ) : Alike w w := ⟨rfl, rfl, rfl, rfl⟩

theorem symm (h : Alike w v) : Alike v w := ⟨h.inbound.symm, h.deletion.symm, h.outside.symm, h.said.symm⟩

theorem trans {u : World κ σ} (h : Alike w v) (h' : Alike v u) : Alike w u :=
  ⟨h.inbound.trans h'.inbound, h.deletion.trans h'.deletion, h.outside.trans h'.outside, h.said.trans h'.said⟩

end Alike

theorem alike_note {o : Occurrence κ} (ho : o.isSaid = false) : Alike (w.note o) w :=
  ⟨rfl, rfl, rfl, by simp [ho]⟩

theorem alike_sendAll (cs : List (SendCall κ)) : Alike (w.sendAll cs) w := by
  refine World.sendAll_keeps (I := fun v => Alike v w) ?_ cs (.refl w)
  intro c v hv
  unfold World.send
  split
  · exact ⟨hv.inbound, hv.deletion, hv.outside, hv.said⟩
  · exact hv

theorem alike_answered (cs : List (SendCall κ)) {o : Queues κ → Occurrence κ} (ho : ∀ q, (o q).isSaid = false) :
    Alike (w.answered cs w.outside o) w := by
  have hsent : Alike (w.sendAll cs) w := alike_sendAll cs
  refine ⟨hsent.inbound, hsent.deletion, rfl, ?_⟩
  rw [World.history_answered, List.filter_cons_of_neg (by simp [ho])]
  exact hsent.said

/-- The same is answered in both worlds. -/
theorem Alike.answered (h : Alike w v) (cs : List (SendCall κ)) (s : σ) (o : Occurrence κ) :
    Alike (w.answered cs s fun _ => o) (v.answered cs s fun _ => o) := by
  have hsent := ((alike_sendAll cs).trans h).trans (alike_sendAll cs).symm
  refine ⟨hsent.inbound, hsent.deletion, rfl, ?_⟩
  simp only [World.history_answered, List.filter_cons]
  rw [hsent.said]

/-! ## The same questions in both worlds -/

/-- Surroundings whose handlers are the same. -/
structure Surroundings.Agree (E E' : Surroundings κ σ) : Prop where
  request : E.request = E'.request
  notify : E.notify = E'.notify

/-- Questions with the same answers in worlds that are alike. -/
def Ask.Shared : Ask κ → Prop
  | .log _ | .request _ => True
  | .update f => ∀ q q', q.inbound = q'.inbound → q.deletion = q'.deletion →
      (f q).inbound = (f q').inbound ∧ (f q).deletion = (f q').deletion
  | .notify n => ∀ record f, n ≠ .receiveError (.other record) f
  | .queues | .modem .. | .callback .. => False

theorem Ask.OfPart.shared {q : Ask κ} (h : q.OfPart) : q.Shared := by
  cases q with
  | log e => trivial
  | request r => trivial
  | update f =>
    obtain ⟨m, rfl⟩ := h
    intro q q' hinbound hdeletion
    exact ⟨congrArg (· ++ [m]) hinbound, hdeletion⟩
  | notify n =>
    obtain ⟨m, f, rfl⟩ := h
    intro record g
    simp
  | queues => exact h.elim
  | modem command arguments => exact h.elim
  | callback k m t => exact h.elim

theorem Ask.OfDelivery.shared {q : Ask κ} (h : q.OfDelivery) : q.Shared := by
  cases q with
  | log e => trivial
  | request r => trivial
  | update f =>
    obtain ⟨m, rfl⟩ := h
    intro q q' hinbound hdeletion
    exact ⟨hinbound, congrArg (· ++ m.candidates) hdeletion⟩
  | notify n =>
    obtain ⟨m, f, rfl⟩ := h
    intro record g
    simp
  | queues => exact h.elim
  | modem command arguments => exact h.elim
  | callback k m t => exact h.elim

theorem alike_answers (hagree : E.Agree E') {q : Ask κ} (hq : q.Shared) {r : q.Answer} (hwv : Alike w v)
    (h : World.Answers E w q r w') : ∃ v', World.Answers E' v q r v' ∧ Alike w' v' := by
  cases q with
  | log e =>
    obtain rfl := h
    exact ⟨_, rfl, (alike_note rfl).trans (hwv.trans (alike_note rfl).symm)⟩
  | update f =>
    obtain rfl := h
    obtain ⟨hinbound, hdeletion⟩ := hq _ _ hwv.inbound hwv.deletion
    exact ⟨_, rfl, hinbound, hdeletion, hwv.outside, hwv.said⟩
  | request t =>
    obtain ⟨cs, s, hs, rfl⟩ := h
    rw [hagree.request, hwv.outside] at hs
    exact ⟨_, ⟨cs, s, hs, rfl⟩, hwv.answered cs s _⟩
  | notify n =>
    obtain ⟨cs, s, hs, rfl⟩ := h
    rw [hagree.notify, hwv.outside] at hs
    exact ⟨_, ⟨cs, s, hs, rfl⟩, hwv.answered cs s _⟩
  | queues => exact hq.elim
  | modem command arguments => exact hq.elim
  | callback k m t => exact hq.elim

/-- A phase that asks the same in both worlds can go the same way. -/
theorem Phase.Asks.alike {p : Phase κ α} (hp : Asks Ask.Shared p) (hagree : E.Agree E') (hwv : Alike w v)
    {r : Except Fault α} (h : p.Runs E w r w') : ∃ v', p.Runs E' v r v' ∧ Alike w' v' :=
  Flow.Within.matched (S := signature κ) hp (fun _ hq _ _ _ _ hwv h => alike_answers hagree hq hwv h) hwv h

theorem complaints_sendAll (cs : List (SendCall κ)) (w : World κ σ) :
    complaints (w.sendAll cs).history = complaints w.history :=
  World.filterMap_sendAll (fun _ => rfl) cs w

theorem complaints_answers {q : Ask κ} (hq : q.Shared) {r : q.Answer} (h : World.Answers E w q r w') :
    complaints w'.history = complaints w.history := by
  cases q with
  | log e =>
    obtain rfl := h
    rfl
  | update f =>
    obtain rfl := h
    rfl
  | request t =>
    obtain ⟨cs, s, -, rfl⟩ := h
    exact complaints_sendAll cs w
  | notify n =>
    obtain ⟨cs, s, -, rfl⟩ := h
    cases n with
    | receiveError about f =>
      cases about with
      | message m => exact complaints_sendAll cs w
      | other record => exact absurd rfl (hq record f)
    | deleted c => exact complaints_sendAll cs w
    | transmitError m f => exact complaints_sendAll cs w
  | queues => exact hq.elim
  | modem command arguments => exact hq.elim
  | callback k m t => exact hq.elim

/-- No record is reported. -/
theorem keeps_complaints {p : Phase κ α} (hp : Asks Ask.Shared p) (reports : List (Value × Fault)) :
    Keeps E (fun v => complaints v.history = reports) p :=
  hp.keeps fun _ hq _ _ _ h hv => (complaints_answers hq h).trans hv

theorem Phase.Asks.complaints_eq {p : Phase κ α} (hp : Asks Ask.Shared p) {a : α} (h : p.Runs E w (.ok a) w') :
    complaints w'.history = complaints w.history :=
  (keeps_complaints hp _ w rfl).result h

/-! ## One record -/

/-- A record that can be read is taken in by questions about its message. -/
theorem asks_receiveRecord_readable {record : Value} {m : Message} (h : Record.message record = .ok m)
    (completed : List String) : Asks Ask.Shared (receiveRecord completed record : Phase κ (List String)) := by
  unfold receiveRecord
  refine asks_readRecord_bind (fun _ => trivial) ?_
  rw [h]
  exact (asks_receiveMessage completed m).mono fun _ h => h.ofPart.shared

/-- The surroundings stay as they are when an error of reception is reported. -/
def Surroundings.Unmoved (E : Surroundings κ σ) : Prop :=
  ∀ s about f a s', E.notify s (.receiveError about f) a s' → s' = s

/-- A record that cannot be read is reported, and nothing else comes of it. -/
theorem ensures_receiveRecord_unreadable (hE : E.Contained) (hunmoved : E.Unmoved) {record : Value} {f : Fault}
    (hrecord : Record.message record = .error f) (hf : Record.isSkipped f = true) (completed : List String)
    (w : World κ σ) :
    Ensures E (receiveRecord completed record) w (fun keys u => keys = completed ∧ Alike u w ∧
      complaints u.history = (record, f) :: complaints w.history) never := by
  unfold receiveRecord
  refine (ensures_readRecord (I := fun u => Alike u w ∧ complaints u.history = complaints w.history)
    (fun e u hu => ⟨(alike_note rfl).trans hu.1, hu.2⟩) ⟨.refl w, rfl⟩).bind ?_
  intro a u ⟨ha, hu, hcomplaints⟩
  subst ha
  rw [hrecord]
  dsimp only
  rw [if_pos hf]
  refine ensures_log_bind (Ensures.bind (P := fun _ u => Alike u w ∧
    complaints u.history = (record, f) :: complaints w.history) (ensures_notify hE ?_) ?_)
  · intro cs s hs
    obtain rfl := hunmoved _ _ _ _ _ hs
    refine ⟨(alike_answered cs fun _ => rfl).trans ((alike_note rfl).trans hu), ?_⟩
    exact congrArg ((record, f) :: ·) ((complaints_sendAll cs _).trans hcomplaints)
  · exact fun _ _ hv => ensures_pure ⟨rfl, hv⟩

/-! ## All records -/

/-- Records that cannot be read, and do not stop the retrieval, make no difference to the others. -/
theorem matched_receiveRecords (hE : E.Contained) (hunmoved : E.Unmoved) (hagree : E.Agree E') {records : List Value}
    (hrecords : ∀ record ∈ records, Record.jam? record = none) {completed keys : List String} (hwv : Alike w v)
    (h : (records.foldlM receiveRecord completed).Runs E w (.ok keys) w') :
    complaints w'.history = (records.filterMap Record.complaint?).reverse ++ complaints w.history ∧
    ∃ v', ((records.filter Record.isReadable).foldlM receiveRecord completed).Runs E' v (.ok keys) v' ∧
      Alike w' v' := by
  induction records generalizing completed w v with
  | nil =>
    obtain ⟨hkeys, rfl⟩ := h
    exact ⟨rfl, v, ⟨hkeys, rfl⟩, hwv⟩
  | cons record records ih =>
    obtain ⟨hjam, hrecords⟩ := List.forall_mem_cons.mp hrecords
    rw [List.foldlM_cons] at h
    rcases runs_bind.mp h with ⟨keys', u, hrecord, hrest⟩ | ⟨e, he, -⟩
    case inr => cases he
    cases hread : Record.message record with
    | ok m =>
      have hasks : Asks Ask.Shared (κ := κ) (receiveRecord completed record) := asks_receiveRecord_readable hread _
      obtain ⟨u', hrecord', hu⟩ := hasks.alike hagree hwv hrecord
      obtain ⟨hcomplaints, v', hrest', hv'⟩ := ih hrecords hu hrest
      rw [List.filterMap_cons_none (Record.complaint?_of_ok hread),
        List.filter_cons_of_pos (Record.isReadable_of_ok hread), List.foldlM_cons]
      rw [hasks.complaints_eq hrecord] at hcomplaints
      exact ⟨hcomplaints, v', runs_bind.mpr (.inl ⟨keys', u', hrecord', hrest'⟩), hv'⟩
    | error f =>
      have hf : Record.isSkipped f = true := by simpa [Record.jam?, hread] using hjam
      obtain ⟨rfl, hu, hcomplaint⟩ :=
        (ensures_receiveRecord_unreadable hE hunmoved hread hf completed w).result hrecord
      obtain ⟨hcomplaints, hclean⟩ := ih hrecords (hu.trans hwv) hrest
      rw [List.filterMap_cons_some (Record.complaint?_of_error hread),
        List.filter_cons_of_neg (Record.not_isReadable_of_error hread)]
      refine ⟨?_, hclean⟩
      rw [hcomplaints, hcomplaint]
      simp

/-- The other way round: whatever a reception of the readable records comes to, one of all records may come
to as well. -/
theorem rematched_receiveRecords (hE : E.Contained) (hresponsive : E.Responsive) (hunmoved : E.Unmoved)
    (hagree : E'.Agree E) {records : List Value} (hrecords : ∀ record ∈ records, Record.jam? record = none)
    {completed keys : List String} (hwv : Alike w v)
    (h : ((records.filter Record.isReadable).foldlM receiveRecord completed).Runs E' v (.ok keys) v') :
    ∃ w', (records.foldlM receiveRecord completed).Runs E w (.ok keys) w' ∧ Alike w' v' := by
  induction records generalizing completed w v with
  | nil =>
    obtain ⟨hkeys, rfl⟩ := h
    exact ⟨w, ⟨hkeys, rfl⟩, hwv⟩
  | cons record records ih =>
    obtain ⟨hjam, hrecords⟩ := List.forall_mem_cons.mp hrecords
    rw [List.foldlM_cons]
    cases hread : Record.message record with
    | ok m =>
      rw [List.filter_cons_of_pos (Record.isReadable_of_ok hread), List.foldlM_cons] at h
      rcases runs_bind.mp h with ⟨keys', u', hrecord', hrest'⟩ | ⟨e, he, -⟩
      case inr => cases he
      obtain ⟨u, hrecord, hu⟩ := (asks_receiveRecord_readable hread _).alike hagree hwv.symm hrecord'
      obtain ⟨w', hrest, hw'⟩ := ih hrecords hu.symm hrest'
      exact ⟨w', runs_bind.mpr (.inl ⟨keys', u, hrecord, hrest⟩), hw'⟩
    | error f =>
      rw [List.filter_cons_of_neg (Record.not_isReadable_of_error hread)] at h
      have hf : Record.isSkipped f = true := by simpa [Record.jam?, hread] using hjam
      have hskip := ensures_receiveRecord_unreadable hE hunmoved hread hf completed w
      obtain ⟨r, u, hrecord⟩ := hresponsive.runs (receiveRecord completed record) w
      cases r with
      | error e => exact (hskip.fault hrecord).elim
      | ok keys' =>
        obtain ⟨rfl, hu, -⟩ := hskip.result hrecord
        obtain ⟨w', hrest, hw'⟩ := ih hrecords (hu.trans hwv) h
        exact ⟨w', runs_bind.mpr (.inl ⟨keys', u, hrecord, hrest⟩), hw'⟩

/-! ## Delivery -/

theorem asks_offer (ms : List Message) : Asks Ask.Shared (κ := κ) (do
    ms.forM deliver
    update fun q => { q with inbound := q.inbound.drop ms.length }) := by
  refine ((asks_forM asks_deliver ms).mono fun _ => Ask.OfDelivery.shared).bind fun _ => asks_update ?_
  intro q q' hinbound hdeletion
  exact ⟨congrArg (List.drop ms.length) hinbound, hdeletion⟩

theorem matched_deliverPhase (hagree : E.Agree E') (hwv : Alike w v) {r : Except Fault Unit}
    (h : deliverPhase.Runs E w r w') : ∃ v', deliverPhase.Runs E' v r v' ∧ Alike w' v' := by
  unfold deliverPhase at h ⊢
  obtain ⟨v', hv, hv'⟩ := (asks_offer w.queues.inbound).alike hagree hwv (runs_queues_bind.mp h)
  refine ⟨v', runs_queues_bind.mpr ?_, hv'⟩
  rwa [← hwv.inbound]

theorem complaints_deliverPhase (h : deliverPhase.Runs E w (.ok ()) w') :
    complaints w'.history = complaints w.history := by
  unfold deliverPhase at h
  exact (asks_offer w.queues.inbound).complaints_eq (runs_queues_bind.mp h)

/-- How many records have been shown is written to the log at most. -/
theorem runs_afterTaking (E : Surroundings κ σ) (records : List Value) (w : World κ σ) :
    ∃ u, Alike u w ∧ complaints u.history = complaints w.history ∧
      ∀ r w', (afterTaking records).Runs E w r w' ↔ deliverPhase.Runs E u r w' := by
  unfold afterTaking
  dsimp only
  split
  · exact ⟨_, alike_note rfl, rfl, fun _ _ => runs_queues_bind.trans runs_log_bind⟩
  · exact ⟨w, .refl w, rfl, fun _ _ => Iff.rfl⟩

/-! ## Whole receptions -/

/-- The same handlers, with a modem tool that shows some records. -/
def Handlers.showing (H : Handlers κ σ) (records : List Value) : Handlers κ σ :=
  { H with modem := fun s _ _ output s' => output = .ok (.list records) ∧ s' = s }

/-- A reception from the moment on when the records have been shown. -/
def takeIn (records : List Value) : Phase κ Unit := do
  discard (records.foldlM receiveRecord [])
  afterTaking records

theorem runs_takeIn {records : List Value} {r : Except Fault Unit} : (takeIn records).Runs E w r w' ↔
    (∃ keys u, (records.foldlM receiveRecord []).Runs E w (.ok keys) u ∧ (afterTaking records).Runs E u r w') ∨
    ∃ e, r = .error e ∧ (records.foldlM receiveRecord []).Runs E w (.error e) w' := by
  unfold takeIn
  simp only [runs_bind, runs_discard]
  constructor
  · intro h
    rcases h with ⟨_, u, ⟨keys, -, hfold⟩ | ⟨e, he, -⟩, hrest⟩ | ⟨e, hr, ⟨keys, he, -⟩ | ⟨e', he, hfold⟩⟩
    · exact .inl ⟨keys, u, hfold, hrest⟩
    · cases he
    · cases he
    · cases he
      exact .inr ⟨e, hr, hfold⟩
  · intro h
    rcases h with ⟨keys, u, hfold, hrest⟩ | ⟨e, hr, hfold⟩
    · exact .inl ⟨.unit, u, .inl ⟨keys, trivial, hfold⟩, hrest⟩
    · exact .inr ⟨e, hr, .inr ⟨e, rfl, hfold⟩⟩

theorem matched_takeIn (hE : E.Contained) (hunmoved : E.Unmoved) (hagree : E.Agree E') {records : List Value}
    (hrecords : ∀ record ∈ records, Record.jam? record = none) (hwv : Alike w v) {r : Except Fault Unit}
    (h : (takeIn records).Runs E w r w') : r = .ok () ∧
    complaints w'.history = (records.filterMap Record.complaint?).reverse ++ complaints w.history ∧
    ∃ v', (takeIn (records.filter Record.isReadable)).Runs E' v (.ok ()) v' ∧ Alike w' v' := by
  rcases runs_takeIn.mp h with ⟨keys, u, hfold, hrest⟩ | ⟨e, -, hfold⟩
  case inr =>
    have hjam := (ensures_receiveRecords_jam hE records [] w).fault hfold
    rw [List.findSome?_eq_none_iff.mpr hrecords] at hjam
    cases hjam
  obtain ⟨hcomplaints, u', hfold', hu⟩ := matched_receiveRecords hE hunmoved hagree hrecords hwv hfold
  obtain ⟨x, hx, hsame, hafter⟩ := runs_afterTaking E records u
  obtain ⟨x', hx', -, hafter'⟩ := runs_afterTaking E' (records.filter Record.isReadable) u'
  have hdeliver := (hafter r w').mp hrest
  have hr : r = .ok () := by
    cases r with
    | ok a => rfl
    | error e => exact ((completes_deliverPhase hE x).fault hdeliver).elim
  subst hr
  obtain ⟨v', hdeliver', hv'⟩ := matched_deliverPhase hagree ((hx.trans hu).trans hx'.symm) hdeliver
  refine ⟨rfl, (complaints_deliverPhase hdeliver).trans (hsame.trans hcomplaints), v', ?_, hv'⟩
  exact runs_takeIn.mpr (.inl ⟨keys, u', hfold', (hafter' _ _).mpr hdeliver'⟩)

theorem rematched_takeIn (hE : E.Contained) (hresponsive : E.Responsive) (hunmoved : E.Unmoved)
    (hagree : E'.Agree E) {records : List Value} (hrecords : ∀ record ∈ records, Record.jam? record = none)
    (hwv : Alike w v) (h : (takeIn (records.filter Record.isReadable)).Runs E' v (.ok ()) v') :
    ∃ w', (takeIn records).Runs E w (.ok ()) w' ∧ Alike w' v' := by
  rcases runs_takeIn.mp h with ⟨keys, u', hfold', hrest'⟩ | ⟨e, he, -⟩
  case inr => cases he
  obtain ⟨u, hfold, hu⟩ := rematched_receiveRecords hE hresponsive hunmoved hagree hrecords hwv hfold'
  obtain ⟨x, hx, -, hafter⟩ := runs_afterTaking E records u
  obtain ⟨x', hx', -, hafter'⟩ := runs_afterTaking E' (records.filter Record.isReadable) u'
  obtain ⟨w', hdeliver, hw'⟩ :=
    matched_deliverPhase hagree ((hx'.trans hu.symm).trans hx.symm) ((hafter' _ _).mp hrest')
  exact ⟨w', runs_takeIn.mpr (.inl ⟨keys, u, hfold, (hafter _ _).mpr hdeliver⟩), hw'.symm⟩

theorem runs_receivePhase_showing {H : Handlers κ σ} {records : List Value} {r : Except Fault Unit} :
    receivePhase.Runs (H.showing records).surroundings w r w' ↔
      ∃ cs, (takeIn records).Runs (H.showing records).surroundings
        (w.answered cs w.outside fun q => .modem q "retrieve" [] (.ok (.list records))) r w' := by
  rw [receivePhase_eq, runs_bind]
  constructor
  · intro h
    rcases h with ⟨output, u, hmodem, hrest⟩ | ⟨e, -, hmodem⟩
    · obtain ⟨cs, s, ⟨houtput, rfl⟩, rfl⟩ := runs_modem.mp hmodem
      cases houtput
      exact ⟨cs, hrest⟩
    · obtain ⟨cs, s, ⟨houtput, -⟩, -⟩ := runs_modem.mp hmodem
      cases houtput
  · intro ⟨cs, hrest⟩
    exact .inl ⟨_, _, runs_modem.mpr ⟨cs, w.outside, ⟨rfl, rfl⟩, rfl⟩, hrest⟩

/-- Records that cannot be read make no difference, but for the reports on them: a reception of all records
comes to a result, reports each that cannot be read once, and goes as a reception of the others can go; and
each reception of the others can be matched in turn. -/
def Unspoiled (H : Handlers κ σ) (records : List Value) (w : World κ σ) : Prop :=
  (∀ r w', receivePhase.Runs (H.showing records).surroundings w r w' → r = .ok () ∧
    complaints w'.history = (records.filterMap Record.complaint?).reverse ++ complaints w.history ∧
    ∃ v', receivePhase.Runs (H.showing (records.filter Record.isReadable)).surroundings w (.ok ()) v' ∧ Alike w' v') ∧
  ∀ v', receivePhase.Runs (H.showing (records.filter Record.isReadable)).surroundings w (.ok ()) v' →
    ∃ w', receivePhase.Runs (H.showing records).surroundings w (.ok ()) w' ∧ Alike w' v'

section

variable {H : Handlers κ σ} {records : List Value}

theorem Handlers.agree_showing (H : Handlers κ σ) (records records' : List Value) :
    (H.showing records).surroundings.Agree (H.showing records').surroundings := ⟨rfl, rfl⟩

theorem Handlers.Uncancelled.showing (hH : H.Uncancelled) (records : List Value) :
    (H.showing records).Uncancelled where
  modem h := nomatch h.1
  request h := hH.request h
  notice h := hH.notice h
  callback h := hH.callback h

theorem Handlers.Responsive.showing (hH : H.Responsive) (records : List Value) : (H.showing records).Responsive where
  modem s _ _ := ⟨_, s, rfl, rfl⟩
  request := hH.request
  notice := hH.notice
  callback := hH.callback

/-- The handler for errors of reception leaves everything else alone. -/
def Handlers.Unmoved (H : Handlers κ σ) : Prop := ∀ s about f x s', H.notice s (.receiveError about f) x s' → s' = s

theorem Handlers.Unmoved.surroundings (hH : H.Unmoved) : H.surroundings.Unmoved := by
  intro s about f a s' h
  rcases h with ⟨-, x, hx, -⟩ | ⟨-, -, rfl⟩
  · exact hH s about f x s' hx
  · rfl

/-- Without a record that stops the retrieval, no record that cannot be read makes a difference. -/
theorem unspoiled (hH : H.Uncancelled) (hresponsive : H.Responsive) (hunmoved : H.Unmoved)
    (hrecords : ∀ record ∈ records, Record.jam? record = none) (w : World κ σ) : Unspoiled H records w := by
  have hE := (hH.showing records).contained
  have hE' : (H.showing records).surroundings.Unmoved := Handlers.Unmoved.surroundings (H := H.showing records) hunmoved
  -- what the two receptions are shown differs only in what the modem tool prints
  have hshown : ∀ cs rs rs', Alike (w.answered cs w.outside fun q => .modem q "retrieve" [] (.ok (.list rs)))
      (w.answered cs w.outside fun q => .modem q "retrieve" [] (.ok (.list rs'))) := fun cs rs rs' =>
    (alike_answered cs fun _ => rfl).trans (alike_answered cs fun _ => rfl).symm
  refine ⟨fun r w' h => ?_, fun v' h => ?_⟩
  · obtain ⟨cs, h⟩ := runs_receivePhase_showing.mp h
    obtain ⟨hr, hcomplaints, v', hv, hv'⟩ :=
      matched_takeIn hE hE' (H.agree_showing _ _) hrecords (hshown cs _ (records.filter Record.isReadable)) h
    refine ⟨hr, hcomplaints.trans (congrArg _ (complaints_sendAll cs w)), v', ?_, hv'⟩
    exact runs_receivePhase_showing.mpr ⟨cs, hv⟩
  · obtain ⟨cs, h⟩ := runs_receivePhase_showing.mp h
    obtain ⟨w', hw, hw'⟩ := rematched_takeIn hE (hresponsive.showing records).surroundings hE' (H.agree_showing _ _)
      hrecords (hshown cs _ (records.filter Record.isReadable)) h
    exact ⟨w', runs_receivePhase_showing.mpr ⟨cs, hw⟩, hw'⟩

/-- A reception comes to a result only if no record stops the retrieval. -/
theorem jam?_of_runs (hH : H.Uncancelled) (h : receivePhase.Runs (H.showing records).surroundings w (.ok ()) w') :
    ∀ record ∈ records, Record.jam? record = none := by
  obtain ⟨cs, h⟩ := runs_receivePhase_showing.mp h
  rcases runs_takeIn.mp h with ⟨keys, u, hfold, -⟩ | ⟨e, he, -⟩
  · exact List.findSome?_eq_none_iff.mp ((ensures_receiveRecords_jam (hH.showing records).contained _ _ _).result hfold)
  · cases he

end

/-- For all records, and all handlers that return or fail, if the one for errors of reception leaves the
others alone: a reception comes to an end; and records that cannot be read make no difference to it if and
only if none of them is so for an infinite number, as any record is that has one for its place. -/
theorem unspoiled_iff_no_infinity {H : Handlers κ σ} (hH : H.Uncancelled) (hresponsive : H.Responsive)
    (hunmoved : H.Unmoved) (records : List Value) (w : World κ σ) :
    (∃ r w', receivePhase.Runs (H.showing records).surroundings w r w') ∧
    (Unspoiled H records w ↔ ∀ record ∈ records, Record.message record ≠ .error .integerOfInfinity) ∧
    ∀ sender x negative, sender ≠ "" → Number.parts x = .infinite negative →
      Record.message (.object [("from", .text sender), ("location", .float x)]) = .error .integerOfInfinity := by
  have hruns := (hresponsive.showing records).surroundings.runs receivePhase w
  refine ⟨hruns, ?_, fun _ _ _ => Record.message_of_infinite⟩
  constructor
  · intro h record hmem
    obtain ⟨r, w', hr⟩ := hruns
    obtain ⟨rfl, -⟩ := h.1 r w' hr
    exact Record.jam?_eq_none.mp (jam?_of_runs hH hr record hmem)
  · intro h
    exact unspoiled hH hresponsive hunmoved (fun record hmem => Record.jam?_eq_none.mpr (h record hmem)) w

/-- A record without a sender, a list in the place of a record, and a message, before handlers that fail. -/
theorem unspoiled_nameless : failingHandlers.Uncancelled ∧ failingHandlers.Responsive ∧ failingHandlers.Unmoved ∧
    Unspoiled failingHandlers
      [.object [("location", .int 3)], .list [], .object [("from", .text "+2"), ("location", .int 4)]]
      { outside := () } := by
  have hunmoved : failingHandlers.Unmoved := fun _ _ _ _ _ _ => rfl
  refine ⟨uncancelled_failingHandlers, responsive_failingHandlers, hunmoved, ?_⟩
  refine (unspoiled_iff_no_infinity uncancelled_failingHandlers responsive_failingHandlers hunmoved _ _).2.1.mpr ?_
  intro record hrecord
  simp only [List.mem_cons, List.not_mem_nil, or_false] at hrecord
  rcases hrecord with rfl | rfl | rfl <;> intro h <;> cases h

end Gateway

end SmsRelay
