-- SUMMARY: Records that are erased have been acknowledged, as long as no place is both in the batch and behind it.
import SmsRelay.Proofs.Device
import SmsRelay.Proofs.Replay

/-!
# What is erased

A candidate for deletion names nothing but a place. It may be in the queue more
than once, and when the record in its place has been erased another one may
come in there. As long as no place is both in the batch and behind it, each
record that is erased has been acknowledged.
-/

namespace SmsRelay

open Gateway Gateway.Phase

variable {κ : Type}

namespace Site

variable {w w' : World κ Site} {J : Fault → World κ Site → Prop}

/-! ## The course of a cycle -/

/-- From one world to another the device holds the same records. The store may have dropped parts, and
have kept others that are on the device. -/
structure Calm (w w' : World κ Site) : Prop where
  later : w.outside.Later w'.outside
  ready : w.outside.store.ready = true → w'.outside.store.ready = true
  rows : ∀ r ∈ w'.outside.store.segments, r ∈ w.outside.store.segments ∨ ∃ t ∈ w.outside.slots, t.Backs r
  inbound : w'.queues.inbound = w.queues.inbound
  deletion : w'.queues.deletion = w.queues.deletion

theorem calm_of_eq (houtside : w'.outside = w.outside) (hinbound : w'.queues.inbound = w.queues.inbound)
    (hdeletion : w'.queues.deletion = w.queues.deletion) : Calm w w' := by
  refine ⟨.of_slots ?_ ?_, ?_, ?_, hinbound, hdeletion⟩
  · rw [houtside]
  · rw [houtside]
  · rw [houtside]
    exact id
  · rw [houtside]
    exact fun r hr => .inl hr

theorem calm_logged (e : Log.Entry) : Calm w (w.note (.logged e)) := calm_of_eq rfl rfl rfl

theorem calm_answered (cs : List (SendCall κ)) {s : Site} (o : Queues κ → Occurrence κ)
    (hlater : w.outside.Later s) (hready : w.outside.store.ready = true → s.store.ready = true)
    (hrows : ∀ r ∈ s.store.segments, r ∈ w.outside.store.segments ∨ ∃ t ∈ w.outside.slots, t.Backs r) :
    Calm w (w.answered cs s o) :=
  ⟨hlater, hready, hrows, World.inbound_sendAll cs w, World.deletion_sendAll cs w⟩

/-- Nothing has changed at the site. -/
theorem calm_unchanged (cs : List (SendCall κ)) (o : Queues κ → Occurrence κ) :
    Calm w (w.answered cs w.outside o) :=
  calm_of_eq rfl (World.inbound_sendAll cs w) (World.deletion_sendAll cs w)

/-- Each candidate for deletion is at a place whose record may be erased. -/
structure Tidy (w : World κ Site) : Prop where
  sound : w.outside.Sound clean
  queued : ∀ c ∈ w.queues.deletion, w.outside.MayErase c.location

theorem Tidy.calm (h : Tidy w) (hw : Calm w w') : Tidy w' := by
  refine ⟨h.sound.later hw.later (hw.ready h.sound.ready) hw.rows, fun c hc => ?_⟩
  rw [hw.deletion] at hc
  exact hw.later.mayErase (h.queued c hc)

/-- Between the phases. Messages wait to be offered only if they will never be. -/
structure Idle (w : World κ Site) : Prop extends Tidy w where
  inbound : w.queues.inbound = [] ∨ w.outside.Jammed

theorem Idle.calm (h : Idle w) (hw : Calm w w') : Idle w' := by
  refine ⟨h.toTidy.calm hw, ?_⟩
  rw [hw.inbound]
  exact h.inbound.imp_right hw.later.jammed

/-- In the course of a reception, with the given records on the device. -/
structure Receiving (slots : List Slot) (w : World κ Site) : Prop extends Tidy w where
  slots : w.outside.slots = slots
  inbound : (∀ m ∈ w.queues.inbound, w.outside.Locates m) ∨ w.outside.Jammed

variable {slots : List Slot}

theorem Receiving.calm (h : Receiving slots w) (hw : Calm w w') (hslots : w'.outside.slots = w.outside.slots) :
    Receiving slots w' := by
  refine ⟨h.toTidy.calm hw, hslots.trans h.slots, ?_⟩
  rw [hw.inbound]
  exact h.inbound.imp (fun hall m hm => hw.later.locates (hall m hm)) hw.later.jammed

theorem Receiving.logged (h : Receiving slots w) (e : Log.Entry) : Receiving slots (w.note (.logged e)) :=
  h.calm (calm_logged e) rfl

/-- A message has been read, and is to be delivered. -/
theorem Receiving.enqueue (h : Receiving slots w) {m : Message} (hm : w.outside.Locates m) :
    Receiving slots (w.update (enqueueInbound m)) := by
  refine ⟨⟨h.sound, h.queued⟩, h.slots, h.inbound.imp_left ?_⟩
  intro hall a ha
  rcases List.mem_append.mp ha with ha | ha
  · exact hall a ha
  · obtain rfl := List.mem_singleton.mp ha
    exact hm

/-- In the course of a delivery of the given messages. -/
structure Delivering (ms : List Message) (w : World κ Site) : Prop extends Tidy w where
  inbound : w.queues.inbound = ms
  located : ∀ m ∈ ms, w.outside.Locates m

variable {ms : List Message}

theorem Delivering.calm (h : Delivering ms w) (hw : Calm w w') : Delivering ms w' :=
  ⟨h.toTidy.calm hw, hw.inbound.trans h.inbound, fun m hm => hw.later.locates (h.located m hm)⟩

/-! ## Transmission -/

theorem keeps_transmitPhase (size : Value) : Keeps surroundings (Idle (κ := κ)) (transmitPhase size) := by
  apply (asks_transmitPhase size).keeps
  intro q hq w r w' h hw
  have hundisturbed : Undisturbed "" w w' := undisturbed_answers hq h
  exact hw.calm (calm_of_eq (aloof_surroundings.outside hq h) hundisturbed.inbound hundisturbed.deletion)

/-! ## Reception -/

section

variable {t : Slot} {m : Message} {completed : List String}

/-- A part of a record is kept, or not. -/
theorem Tidy.calm_receiveSegment (h : Tidy w) (ht : t ∈ w.outside.slots) (hretrieved : t.retrieved = true)
    (hm : Record.message t.record = .ok m) {answer : Except Fault Returned} {s : Site}
    (hs : (surroundings (κ := κ)).request w.outside (.receiveSegment m) answer s) (cs : List (SendCall κ))
    (o : Queues κ → Occurrence κ) : Calm w (w.answered cs s o) ∧ s.slots = w.outside.slots := by
  obtain ⟨-, now, store, hreply, rfl⟩ := hs
  have hstore := congrArg Prod.snd hreply
  rcases Application.store_reply_receiveSegment (κ := κ) now w.outside.store m with hsame | ⟨row, hupsert, hrow⟩
  · obtain rfl : store = w.outside.store := hstore.trans hsame
    exact ⟨calm_unchanged cs o, rfl⟩
  · obtain rfl : store = _ := hstore.trans hupsert
    refine ⟨calm_answered cs o (.of_slots rfl rfl) id ?_, rfl⟩
    have hparts : ∀ r ∈ w.outside.store.segments, ∃ p, r.part = .int p := by
      intro r hr
      obtain ⟨t', -, -, p, -, hkeeps⟩ := h.sound.toStocked.backed hr
      exact ⟨p.part, hkeeps.part⟩
    intro r hr
    refine (Store.keeps_of_mem_upsert hrow hparts hr).imp_right ?_
    intro hkeeps
    exact ⟨t, ht, hretrieved, m, hm, hkeeps⟩

/-- What is put together is still on the device. -/
theorem ensures_collectPart (h : Receiving slots w) (ht : t ∈ slots) (hretrieved : t.retrieved = true)
    (hm : Record.message t.record = .ok m) : Ensures surroundings (collectPart m) w
      (fun a v => Receiving slots v ∧ ∀ whole, a = some whole → v.outside.Locates whole)
      (fun f v => f.isCancellation = false ∧ Receiving slots v) := by
  have hmem : ∀ {v : World κ Site}, Receiving slots v → t ∈ v.outside.slots := fun hv => hv.slots ▸ ht
  have hkept : ∀ (cs : List (SendCall κ)) s a, (surroundings (κ := κ)).request w.outside (.receiveSegment m) a s →
      Receiving slots (w.answered cs s fun _ => .request (.receiveSegment m) a) := by
    intro cs s a hs
    obtain ⟨hcalm, hslots⟩ := h.calm_receiveSegment (hmem h) hretrieved hm hs cs _
    exact h.calm hcalm hslots
  have hreturned : ∀ {v : World κ Site} (cs : List (SendCall κ)) s a, Receiving slots v →
      (surroundings (κ := κ)).request v.outside (.returnSegments m.key) a s →
      Receiving slots (v.answered cs s fun _ => .request (.returnSegments m.key) a) ∧ s = v.outside := by
    intro v cs s a hv ⟨_, now, store, hreply, hs⟩
    rw [Application.reply_returnSegments] at hreply
    obtain rfl : s = v.outside := by
      rw [hs, (Prod.mk.inj hreply).2]
    exact ⟨hv.calm (calm_unchanged cs _) rfl, rfl⟩
  apply Phase.ensures_collectPart
  case kept => exact fun cs s a hs => hkept cs s _ hs
  case unkept => exact fun cs s f hs => ⟨contained_surroundings.request hs, hkept cs s _ hs⟩
  case returned =>
    intro v cs s a hv hs
    obtain ⟨hu, rfl⟩ := hreturned cs s _ hv hs
    obtain ⟨-, now, store, hreply, -⟩ := hs
    obtain ⟨stored, hload, ha⟩ := Application.returned_of_reply hreply
    refine ⟨stored, ha, hu, fun whole hwhole => ?_⟩
    exact hu.sound.locates_reassembled (hmem hu) hretrieved hm hload hwhole
  case unreturned =>
    intro v cs s f hv hs
    exact ⟨contained_surroundings.request hs, (hreturned cs s _ hv hs).1⟩

theorem ensures_receivePart (h : Receiving slots w) (ht : t ∈ slots) (hretrieved : t.retrieved = true)
    (hm : Record.message t.record = .ok m) :
    Ensures surroundings (receivePart completed m) w (fun _ => Receiving slots) J := by
  apply Phase.ensures_receivePart contained_surroundings (fun _ => Receiving slots)
  case logged => exact fun _ e v hv => hv.logged e
  case refused =>
    intro f v cs s hv ⟨_, heq⟩
    subst heq
    exact hv.calm (calm_unchanged cs _) rfl
  case passed => exact fun _ => h
  case collected =>
    intro _
    refine (ensures_collectPart h ht hretrieved hm).mono ?_ fun _ _ => id
    intro a v ⟨hv, hwhole⟩
    exact ⟨fun _ => hv, fun whole ha => hv.enqueue (hwhole whole ha)⟩

/-- No retrieval ends at the record. -/
def Passed (record : Value) : Prop := ∀ f, Record.message record = .error f → Record.isSkipped f = true

theorem ensures_receiveRecord (h : Receiving slots w) (ht : t ∈ slots) (hretrieved : t.retrieved = true) :
    Ensures surroundings (receiveRecord completed t.record) w (fun _ v => Receiving slots v ∧ Passed t.record)
      (fun _ v => Receiving slots v ∧ v.outside.Jammed) := by
  unfold receiveRecord
  refine (ensures_readRecord (fun e _ hv => hv.logged e) h).bind ?_
  intro a v ⟨heq, hv⟩
  subst heq
  have hmem : t ∈ v.outside.slots := hv.slots ▸ ht
  cases hm : Record.message t.record with
  | ok m =>
    have hpassed : Passed t.record := by
      intro f hf
      rw [hm] at hf
      cases hf
    dsimp only
    split
    · refine (ensures_receivePart (J := never) hv ht hretrieved hm).mono ?_ fun _ _ => False.elim
      exact fun _ u hu => ⟨hu, hpassed⟩
    · exact ensures_update_bind (ensures_pure ⟨hv.enqueue (hv.sound.locates hmem hretrieved hm), hpassed⟩)
  | error f =>
    dsimp only
    split
    · rename_i hskipped
      have hpassed : Passed t.record := by
        intro f' hf'
        rw [hm] at hf'
        cases hf'
        exact hskipped
      refine ensures_log_bind ((ensures_notify contained_surroundings (P := fun _ => Receiving slots) ?_).bind ?_)
      · intro cs s ⟨_, heq⟩
        subst heq
        exact (hv.logged _).calm (calm_unchanged cs _) rfl
      · exact fun _ u hu => ensures_pure ⟨hu, hpassed⟩
    · rename_i hskipped
      exact ensures_throw ⟨hv, t, hmem, f, hm, by simpa using hskipped⟩

/-- All records have been taken in, or one of them can never be. -/
theorem ensures_receiveRecords (h : Receiving slots w) (hretrieved : ∀ t ∈ slots, t.retrieved = true)
    {records : List Value} (hrecords : records.Perm (slots.map Slot.record)) :
    Ensures surroundings (records.foldlM receiveRecord []) w
      (fun _ v => Receiving slots v ∧ ∀ m ∈ v.queues.inbound, v.outside.Locates m)
      (fun _ v => Receiving slots v ∧ v.outside.Jammed) := by
  refine (ensures_foldlM (fun before _ v => Receiving slots v ∧ ∀ record ∈ before, Passed record) ⟨h, by simp⟩ ?_).mono
    ?_ fun _ _ => id
  · intro before record completed v hfront ⟨hv, hbefore⟩
    have hmem : record ∈ slots.map Slot.record := hrecords.mem_iff.mp (hfront.subset (by simp))
    obtain ⟨t, ht, rfl⟩ := List.mem_map.mp hmem
    refine (ensures_receiveRecord hv ht (hretrieved t ht)).mono ?_ fun _ _ => id
    intro _ u ⟨hu, hpassed⟩
    refine ⟨hu, List.forall_mem_append.mpr ⟨hbefore, ?_⟩⟩
    simpa using hpassed
  · intro _ v ⟨hv, hpassed⟩
    refine ⟨hv, hv.inbound.resolve_right ?_⟩
    intro ⟨t, ht, f, hf, hskipped⟩
    have hmem : t.record ∈ records := hrecords.mem_iff.mpr (List.mem_map_of_mem (hv.slots ▸ ht))
    rw [hpassed _ hmem f hf] at hskipped
    cases hskipped

end

/-! ## Delivery -/

theorem ensures_deliver {m : Message} (hm : m ∈ ms) (h : Delivering ms w) :
    Ensures surroundings (deliver m) w (fun _ => Delivering ms) J := by
  apply Phase.ensures_deliver contained_surroundings
  case logged => exact fun e v hv => hv.calm (calm_logged e)
  case noticed =>
    intro f v cs s hv ⟨_, heq⟩
    subst heq
    exact hv.calm (calm_unchanged cs _)
  case accepted =>
    intro cs s x ⟨_, store, hready, hrows, heq⟩
    subst heq
    have hcalm : Calm w (w.answered cs { w.outside.take m with store } fun _ => .request (.receive m) (.ok x)) :=
      calm_answered cs _ (later_take m w.outside) hready.trans fun r hr => .inl (hrows.subset hr)
    have hv := h.calm hcalm
    refine ⟨⟨hv.sound, ?_⟩, hv.inbound, hv.located⟩
    intro c hc
    rcases List.mem_append.mp hc with hc | hc
    · exact hv.queued c hc
    · have hlocation : c.location ∈ m.candidates.map Candidate.location := List.mem_map_of_mem hc
      rw [Message.map_location_candidates] at hlocation
      exact (h.located m hm).take hlocation
  case refused =>
    intro cs s f ⟨_, store, hready, hrows, heq⟩
    subst heq
    exact h.calm (calm_answered cs _ (.of_slots rfl rfl) hready.trans fun r hr => .inl (hrows.subset hr))

/-- After a delivery no message waits to be offered. -/
theorem ensures_deliverPhase (h : Delivering w.queues.inbound w) :
    Ensures surroundings deliverPhase w (fun _ => Idle) J := by
  unfold deliverPhase
  apply ensures_queues_bind
  refine (ensures_forM (fun _ => Delivering w.queues.inbound) h ?_).bind ?_
  · intro before m v hfront hv
    exact ensures_deliver (hfront.subset (by simp)) hv
  · intro _ v hv
    refine ensures_update ⟨⟨hv.sound, hv.queued⟩, .inl ?_⟩
    simp [hv.inbound]

/-- The device shows its records, or nothing. -/
theorem Idle.receiving (h : Idle w) (cs : List (SendCall κ)) (o : Queues κ → Occurrence κ) :
    Receiving w.outside.retrieve.slots (w.answered cs w.outside.retrieve o) := by
  have hcalm : Calm w (w.answered cs w.outside.retrieve o) :=
    calm_answered cs o (later_retrieve _) id fun r hr => .inl hr
  have hidle := h.calm hcalm
  refine ⟨hidle.toTidy, rfl, hidle.inbound.imp_left ?_⟩
  intro hnil m hm
  rw [hnil] at hm
  cases hm

theorem keeps_receivePhase : Keeps surroundings (Idle (κ := κ)) receivePhase := by
  intro w h
  have hretrieved : ∀ t ∈ w.outside.retrieve.slots, t.retrieved = true := by
    intro t ht
    obtain ⟨t, -, rfl⟩ := List.mem_map.mp ht
    rfl
  have hrecords : w.outside.retrieve.slots.map Slot.record = w.outside.slots.map Slot.record := by
    simp [retrieve, Function.comp_def]
  apply ensures_receivePhase
    (fun records v => records.Perm (w.outside.retrieve.slots.map Slot.record) ∧
      Receiving w.outside.retrieve.slots v)
    fun v => Receiving w.outside.retrieve.slots v ∧ ∀ m ∈ v.queues.inbound, v.outside.Locates m
  case nothing =>
    intro cs s output hne hs
    obtain ⟨-, ⟨records, -, rfl, -⟩ | ⟨-, rfl⟩⟩ := hs
    · exact absurd rfl (hne records)
    · exact h.calm (calm_unchanged cs _)
  case shown =>
    intro cs s records hs
    obtain ⟨-, ⟨shown, hperm, houtput, rfl⟩ | ⟨hnothing, -⟩⟩ := hs
    · cases houtput
      rw [hrecords]
      exact ⟨hperm, h.receiving cs _⟩
    · exact absurd rfl (hnothing records)
  case taken =>
    intro records v ⟨hperm, hv⟩
    refine (ensures_receiveRecords hv hretrieved hperm).mono (fun _ _ => id) ?_
    intro f u ⟨hu, hjammed⟩
    exact ⟨hu.toTidy, .inr hjammed⟩
  case logged => exact fun e v ⟨hv, hall⟩ => ⟨hv.logged e, hall⟩
  case delivered => exact fun v ⟨hv, hall⟩ => ensures_deliverPhase ⟨hv.toTidy, rfl, hall⟩

/-! ## Deletion -/

/-- No place is both among the first `n` candidates and behind them. -/
def Separate (n : Nat) (queue : List Candidate) : Prop :=
  ∀ c ∈ queue.take n, ∀ d ∈ queue.drop n, c.location ≠ d.location

/-- In the course of a deletion, when the places of the batch that the report confirms have been erased and
those of the candidates `before` have been settled. The candidates `rest` stay. -/
structure Settling (queue : List Candidate) (n : Nat) (report : DeletionReport) (before rest : List Candidate)
    (w : World κ Site) : Prop where
  sound : w.outside.Sound fun l => (∃ c ∈ queue.take n, c.location = l) ∧ report.confirms l = true ∧
    ∀ c ∈ before, c.location ≠ l
  refused : ∀ c ∈ queue.take n, report.confirms c.location = false → w.outside.MayErase c.location
  behind : ∀ c ∈ queue.drop n, w.outside.MayErase c.location
  rest : ∀ c ∈ rest, c ∈ queue.take n ∧ report.confirms c.location = false
  deletion : w.queues.deletion = queue
  inbound : w.queues.inbound = [] ∨ w.outside.Jammed

variable {queue before rest : List Candidate} {n : Nat} {report : DeletionReport} {c : Candidate}

/-- The places that a report confirms are erased: all of them may be, and what is left may be, too. -/
theorem Idle.settling (h : Idle w) (hseparate : Separate n w.queues.deletion) {output : Except Fault Value}
    (hreport : output >>= DeletionReport.ofOutput = .ok report) (cs : List (SendCall κ)) (o : Queues κ → Occurrence κ) :
    Settling w.queues.deletion n report [] []
      (w.answered cs (w.outside.erase (confirmed (Candidate.arguments (w.queues.deletion.take n)) output)) o) := by
  have hacknowledged : ∀ t ∈ w.outside.slots,
      confirmed (Candidate.arguments (w.queues.deletion.take n)) output t.location = true → t.Acknowledged := by
    intro t ht hconfirmed
    obtain ⟨⟨c, hc, hlocation⟩, -⟩ := (confirmed_iff hreport).mp hconfirmed
    obtain ⟨t', ht', hlocation', hack⟩ := h.queued c (List.mem_of_mem_take hc)
    obtain rfl := h.sound.toStocked.eq_of_location ht' ht (hlocation'.trans hlocation)
    exact hack
  have hkept : ∀ l, (¬ ((∃ c ∈ w.queues.deletion.take n, c.location = l) ∧ report.confirms l = true)) →
      confirmed (Candidate.arguments (w.queues.deletion.take n)) output l = false := by
    intro l hl
    rw [← confirmed_iff hreport] at hl
    exact eq_false_of_ne_true hl
  constructor
  case sound =>
    refine (h.sound.erase hacknowledged).mono ?_
    intro l hl
    obtain ⟨hbatch, hconfirms⟩ := (confirmed_iff hreport).mp (hl.resolve_left id)
    exact ⟨hbatch, hconfirms, by simp⟩
  case refused =>
    intro c hc hrefused
    refine (h.queued c (List.mem_of_mem_take hc)).erase (hkept _ ?_)
    rw [hrefused]
    simp
  case behind =>
    intro d hd
    refine (h.queued d (List.mem_of_mem_drop hd)).erase (hkept _ ?_)
    intro ⟨⟨c, hc, hlocation⟩, _⟩
    exact hseparate c hc d hd hlocation
  case rest => simp
  case deletion => exact World.deletion_sendAll cs w
  case inbound =>
    rw [World.queues_answered, World.inbound_sendAll]
    exact h.inbound.imp_right fun hjammed => hjammed.erase hacknowledged

/-- The application hears that a place has been erased. -/
theorem Settling.confirmed (h : Settling queue n report before rest w) (cs : List (SendCall κ))
    (o : Queues κ → Occurrence κ) :
    Settling queue n report (before ++ [c]) rest
      (w.answered cs { w.outside with store := Application.noted (κ := κ) w.outside.store (.deleted c) } o) := by
  constructor
  case sound =>
    refine (h.sound.noted_deleted (κ := κ) c).mono ?_
    intro l ⟨⟨hbatch, hconfirms, hbefore⟩, hne⟩
    refine ⟨hbatch, hconfirms, List.forall_mem_append.mpr ⟨hbefore, ?_⟩⟩
    simpa using hne.symm
  case refused => exact h.refused
  case behind => exact h.behind
  case rest => exact h.rest
  case deletion => exact (World.deletion_sendAll cs w).trans h.deletion
  case inbound =>
    rw [World.queues_answered, World.inbound_sendAll]
    exact h.inbound

/-- A candidate stays. -/
theorem Settling.refuse (h : Settling queue n report before rest w) (hc : c ∈ queue.take n)
    (hrefused : report.confirms c.location = false) (e : Log.Entry) :
    Settling queue n report (before ++ [c]) (rest ++ [c]) (w.note (.logged e)) := by
  refine ⟨h.sound.mono ?_, h.refused, h.behind, ?_, h.deletion, h.inbound⟩
  · intro l ⟨hbatch, hconfirms, hbefore⟩
    refine ⟨hbatch, hconfirms, List.forall_mem_append.mpr ⟨hbefore, ?_⟩⟩
    intro d hd
    obtain rfl := List.mem_singleton.mp hd
    intro heq
    subst heq
    rw [hrefused] at hconfirms
    cases hconfirms
  · refine List.forall_mem_append.mpr ⟨h.rest, ?_⟩
    intro d hd
    obtain rfl := List.mem_singleton.mp hd
    exact ⟨hc, hrefused⟩

/-- All candidates of the batch have been settled. -/
theorem Settling.idle (h : Settling queue n report (queue.take n) rest w) :
    Idle (w.update (requeueDeletion (queue.take n) rest)) := by
  have hclean : w.outside.Sound clean := by
    refine h.sound.mono ?_
    intro l ⟨⟨c, hc, hlocation⟩, _, hbatch⟩
    exact hbatch c hc hlocation
  refine ⟨⟨hclean, ?_⟩, h.inbound⟩
  intro c hc
  rcases List.mem_append.mp hc with hc | hc
  · rw [h.deletion, List.length_take] at hc
    apply h.behind c
    rcases Nat.le_total n queue.length with hle | hle
    · rwa [Nat.min_eq_left hle] at hc
    · rw [Nat.min_eq_right hle, List.drop_length] at hc
      cases hc
  · obtain ⟨hc, hrefused⟩ := h.rest c hc
    exact h.refused c hc hrefused

theorem ensures_deletePhase {size : Value} (hsize : Config.batchCount size = .ok n) (h : Idle w)
    (hseparate : Separate n w.queues.deletion) :
    Ensures surroundings (deletePhase size) w (fun _ => Idle) (fun _ => Idle) := by
  have hn : ∀ {i}, Config.batchCount size = .ok i → i = n := fun hi => Except.ok.inj (hi.symm.trans hsize)
  apply Phase.ensures_deletePhase contained_surroundings
    fun report batch before rest v => batch = w.queues.deletion.take n ∧
      Settling w.queues.deletion n report before rest v
  case logged => exact fun e v hv => hv.calm (calm_logged e)
  case hw => exact h
  case failed =>
    intro i cs s output f hi hf ⟨_, heq⟩
    subst heq
    rw [confirmed_of_error hf, erase_none]
    exact h.calm (calm_unchanged cs _)
  case begun =>
    intro i cs s output report hi hreport hs
    obtain rfl := hn hi
    obtain ⟨-, rfl⟩ := hs
    exact ⟨rfl, h.settling hseparate hreport cs _⟩
  case confirmed =>
    intro report batch before c rest v cs s hfront hv hconfirms ⟨_, heq⟩
    subst heq
    exact ⟨hv.1, hv.2.confirmed cs _⟩
  case refused =>
    intro report batch before c rest v e hfront hv hrefused
    obtain ⟨rfl, hv⟩ := hv
    exact ⟨rfl, hv.refuse (hfront.subset (by simp)) hrefused e⟩
  case settled =>
    intro report i rest v hi hv
    obtain rfl := hn hi
    exact hv.2.idle

/-! ## Whole runs -/

/-- The queues that the calls to erase something have found, the latest first. -/
def calls (history : List (Occurrence κ)) : List (List Candidate) :=
  history.filterMap fun
    | .modem found command _ _ => if command = "delete" then some found.deletion else none
    | _ => none

theorem mem_calls_of_suffix {older history : List (Occurrence κ)} (h : older <:+ history) {queue : List Candidate}
    (hq : queue ∈ calls older) : queue ∈ calls history := (h.sublist.filterMap _).subset hq

/-- Where there are candidates, and the batch has a size, there is a call. -/
theorem calls_deletePhase {size : Value} (hsize : Config.batchCount size = .ok n) (hne : w.queues.deletion ≠ [])
    {r : Except Fault Unit} (h : (deletePhase size).Runs surroundings w r w') :
    w.queues.deletion ∈ calls w'.history := by
  have hkept : ∀ {v : World κ Site} {α : Type} (p : Phase κ α), w.queues.deletion ∈ calls v.history →
      Ensures surroundings p v (fun _ u => w.queues.deletion ∈ calls u.history)
        (fun _ u => w.queues.deletion ∈ calls u.history) :=
    fun p hv => ⟨fun hr => mem_calls_of_suffix (history_runs hr) hv, fun hr => mem_calls_of_suffix (history_runs hr) hv⟩
  have hcalled : ∀ (cs : List (SendCall κ)) s arguments output, w.queues.deletion ∈ calls
      (w.answered cs s fun q => .modem q "delete" arguments output).history := by
    intro cs s arguments output
    rw [← World.deletion_sendAll cs w]
    exact List.mem_cons_self
  have hensures : Ensures surroundings (deletePhase size) w (fun _ v => w.queues.deletion ∈ calls v.history)
      (fun _ v => w.queues.deletion ∈ calls v.history) := by
    unfold deletePhase
    apply ensures_queues_bind
    rw [if_neg (by simpa using hne), hsize]
    refine ensures_settled_bind ?_ nofun
    intro _ heq
    cases heq
    refine (ensures_modem (P := fun _ v => w.queues.deletion ∈ calls v.history) ?_ ?_).bind ?_
    · exact fun cs s output _ => hcalled cs s _ _
    · exact fun cs s f _ => hcalled cs s _ _
    · exact fun output v hv => hkept _ hv
  cases r with
  | ok u => exact hensures.result h
  | error f => exact hensures.fault h

/-- The worlds that cycles, one after the other, may lead to, while records come in at free places. -/
inductive Visits (config : Config) : World κ Site → Prop where
  | start : Visits config { outside := {} }
  | send {w : World κ Site} (c : SendCall κ) : Visits config w → Visits config (w.send c)
  | arrive {w : World κ Site} {l : Int} {record : Value} : Visits config w → (∀ t ∈ w.outside.slots, t.location ≠ l) →
      (∀ m, Record.message record = .ok m → m.location = l) →
      Visits config { w with outside := w.outside.arrive l record }
  | cycle {w w' : World κ Site} {r : Except Fault CycleReport} : Visits config w →
      (runCycle config).Runs surroundings w r w' → Visits config w'

/-- Every call to erase something has found a queue in which no place was both in the batch and behind it. -/
def Careful (n : Nat) (history : List (Occurrence κ)) : Prop := ∀ queue ∈ calls history, Separate n queue

theorem Careful.older {older history : List (Occurrence κ)} (h : Careful n history) (hsuffix : older <:+ history) :
    Careful n older := fun queue hq => h queue (mem_calls_of_suffix hsuffix hq)

/-- What is tidy in careful histories stays so in a phase that keeps all tidy. -/
theorem keeps_careful {p : Phase κ Unit} (hp : ∀ {w r w'}, p.Runs surroundings w r w' → Careful n w'.history →
    Idle w → Idle w') : Keeps surroundings (fun v => Careful n v.history → Idle v) p := by
  intro w hw
  constructor
  · exact fun hr hcareful => hp hr hcareful (hw (hcareful.older (history_runs hr)))
  · exact fun hr hcareful => hp hr hcareful (hw (hcareful.older (history_runs hr)))

theorem Idle.runs {p : Phase κ Unit} (hp : Ensures surroundings p w (fun _ => Idle) (fun _ => Idle))
    {r : Except Fault Unit} (h : p.Runs surroundings w r w') : Idle w' := by
  cases r with
  | ok u => exact hp.result h
  | error f => exact hp.fault h

theorem keeps_runCycle {config : Config} (hsize : Config.batchCount config.deleteBatch = .ok n) :
    Keeps surroundings (fun v : World κ Site => Careful n v.history → Idle v) (runCycle config) := by
  apply Phase.keeps_runCycle
  case hI =>
    intro e v hv hcareful
    exact (hv (hcareful.older (List.suffix_cons _ _))).calm (calm_logged e)
  case transmit => exact keeps_careful fun hr _ hw => Idle.runs (keeps_transmitPhase _ _ hw) hr
  case receive => exact keeps_careful fun hr _ hw => Idle.runs (keeps_receivePhase _ hw) hr
  case delete =>
    apply keeps_careful
    intro w r w' hr hcareful hw
    have hseparate : Separate n w.queues.deletion := by
      by_cases hnil : w.queues.deletion = []
      · rw [hnil]
        simp [Separate]
      · exact hcareful _ (calls_deletePhase hsize hnil hr)
    exact Idle.runs (ensures_deletePhase hsize hw hseparate) hr

theorem Idle.arrive (h : Idle w) {l : Int} {record : Value} (hfree : ∀ t ∈ w.outside.slots, t.location ≠ l)
    (hlocated : ∀ m, Record.message record = .ok m → m.location = l) :
    Idle { w with outside := w.outside.arrive l record } := by
  refine ⟨⟨h.sound.arrive hfree hlocated, fun c hc => ?_⟩, h.inbound.imp_right ?_⟩
  · obtain ⟨t, ht, hack⟩ := h.queued c hc
    exact ⟨t, List.mem_cons_of_mem _ ht, hack⟩
  · intro ⟨t, ht, hjammed⟩
    exact ⟨t, List.mem_cons_of_mem _ ht, hjammed⟩

/-- In a careful run all is tidy between the cycles. -/
theorem Visits.idle {config : Config} (hsize : Config.batchCount config.deleteBatch = .ok n) (h : Visits config w)
    (hcareful : Careful n w.history) : Idle w := by
  induction h with
  | start => exact ⟨⟨sound_start, by simp⟩, .inl rfl⟩
  | send c _ ih =>
    have hidle := ih (hcareful.older (history_send c))
    exact hidle.calm (calm_of_eq (World.outside_send c _) (World.inbound_send c _) (World.deletion_send c _))
  | arrive _ hfree hlocated ih => exact (ih hcareful).arrive hfree hlocated
  | @cycle w w' r _ hr ih =>
    cases r with
    | ok report => exact (keeps_runCycle hsize w ih).result hr hcareful
    | error f => exact (keeps_runCycle hsize w ih).fault hr hcareful

end Site

end SmsRelay
