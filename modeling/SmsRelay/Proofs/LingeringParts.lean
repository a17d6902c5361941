-- SUMMARY: Parts that stay on the device after their message has been taken make up no message again.
import SmsRelay.Proofs.Acknowledgement
import SmsRelay.Proofs.ArrivalOrder
import SmsRelay.Proofs.SpentGroups

/-!
# Parts that linger

Parts of a message may stay on the device after the message has been taken, and
be shown again in any later cycle. Through whole runs nothing comes of them:
between the phases every group that is spent is dormant, and no message waits
to be offered. The inbox tells the same, since a row comes into it with each
message that is accepted, and with nothing else.
-/

namespace SmsRelay

namespace Gateway

open Phase

variable {κ : Type}

section

variable {device : String → Except Fault Value → Prop} {w w' : World κ Store}

/-! ## Between the phases -/

/-- Nothing has come of spent groups, and no message is to be offered. -/
structure Resting (w : World κ Store) : Prop extends Dormant w where
  inbound : w.queues.inbound = []

theorem Resting.logged (h : Resting w) (e : Log.Entry) : Resting (w.note (.logged e)) :=
  ⟨h.passes_subset (passes_note rfl) h.ready (List.Subset.refl _), h.inbound⟩

theorem keeps_resting {α : Type} {p : Phase κ α} {allowed : Ask κ → Prop} (hp : Asks allowed p)
    (hpassing : ∀ q, allowed q → q.Passing) (hkept : ∀ q, allowed q → ∀ m, q ≠ .request (.receiveSegment m)) :
    Keeps (Application.surroundings device) Resting p := by
  refine hp.keeps fun q hq v r v' hr hv => ⟨?_, (Passes.of_answers (hpassing q hq) hr).inbound.trans hv.inbound⟩
  exact hv.toDormant.answers (hpassing q hq) (fun m heq => absurd heq (hkept q hq m)) hr

theorem resting_transmitPhase (size : Value) :
    Keeps (Application.surroundings device) (Resting (κ := κ)) (transmitPhase size) := by
  refine keeps_resting (asks_transmitPhase size) (fun _ => Ask.OfTransmission.passing) fun q hq m heq => ?_
  subst heq
  cases hq

theorem resting_deletePhase (size : Value) :
    Keeps (Application.surroundings device) (Resting (κ := κ)) (deletePhase size) := by
  refine keeps_resting (asks_deletePhase size) (fun _ => Ask.OfDeletion.passing) fun q hq m heq => ?_
  subst heq
  exact hq.elim

/-! ## Reception -/

/-- In the course of taking in some records: no message of a spent group waits to be offered. -/
structure TakingIn (records : List Value) (w : World κ Store) : Prop extends Dormant w where
  shown : ∀ a ∈ Record.messages records, ShownSince a w
  inbound : ∀ a ∈ w.queues.inbound, Unspent a.key w

variable {records : List Value} {m : Message} {J : Fault → World κ Store → Prop}

theorem TakingIn.answers (h : TakingIn records w) {q : Ask κ} (hq : q.Passing)
    (hkept : ∀ m, q = .request (.receiveSegment m) → m ∈ Record.messages records) {r : q.Answer}
    (hr : World.Answers (Application.surroundings device) w q r w') : TakingIn records w' := by
  have hpasses := Passes.of_answers hq hr
  have hdormant : Dormant w' := h.toDormant.answers hq (fun m heq => h.shown m (hkept m heq)) hr
  refine ⟨hdormant, fun a ha => (h.shown a ha).passes hpasses, ?_⟩
  rw [hpasses.inbound]
  exact fun a ha => (h.inbound a ha).passes hpasses

theorem TakingIn.logged (h : TakingIn records w) (e : Log.Entry) : TakingIn records (w.note (.logged e)) := by
  have hlogged : World.Answers (Application.surroundings fun _ _ => True) w (.log e) () (w.note (.logged e)) := rfl
  exact h.answers (q := .log e) ⟨nofun, nofun⟩ nofun hlogged

theorem TakingIn.told (h : TakingIn records w) {about : Item} {f : Fault} {cs : List (SendCall κ)} {s : Store}
    (hs : (Application.surroundings (κ := κ) device).notify w.outside (.receiveError about f) (.ok ()) s) :
    TakingIn records (w.answered cs s fun _ => .notice (.receiveError about f)) :=
  h.answers (q := .notify (.receiveError about f)) (r := .ok ()) ⟨nofun, nofun⟩ nofun ⟨cs, s, hs, rfl⟩

theorem TakingIn.enqueue (h : TakingIn records w) (hm : Unspent m.key w) :
    TakingIn records (w.update (enqueueInbound m)) := by
  refine ⟨⟨h.ready, h.offers, h.rows⟩, h.shown, fun a ha => ?_⟩
  rcases List.mem_append.mp ha with ha | ha
  · exact h.inbound a ha
  · obtain rfl := List.mem_singleton.mp ha
    exact hm

theorem ensures_collectPart_unspent (h : TakingIn records w) (hm : m ∈ Record.messages records)
    (hpart : m.isPart = true) : Ensures (Application.surroundings device) (collectPart m) w
      (fun a v => TakingIn records v ∧ ∀ whole, a = some whole → Unspent whole.key v)
      (fun f v => f.isCancellation = false ∧ TakingIn records v) := by
  have hkept : ∀ cs s a, (Application.surroundings (κ := κ) device).request w.outside (.receiveSegment m) a s →
      TakingIn records (w.answered cs s fun _ => .request (.receiveSegment m) a) := fun cs s a hs =>
    h.answers (q := .request (.receiveSegment m)) (r := a) ⟨nofun, nofun⟩
      (fun _ heq => by cases heq; exact hm) ⟨cs, s, hs, rfl⟩
  have hreturned : ∀ {v : World κ Store} cs s a, TakingIn records v →
      (Application.surroundings (κ := κ) device).request v.outside (.returnSegments m.key) a s →
      TakingIn records (v.answered cs s fun _ => .request (.returnSegments m.key) a) := fun cs s a hv hs =>
    hv.answers (q := .request (.returnSegments m.key)) (r := a) ⟨nofun, nofun⟩ nofun ⟨cs, s, hs, rfl⟩
  have hcontained := Application.contained_surroundings (κ := κ) device
  apply ensures_collectPart
  case kept => exact fun cs s a hs => hkept cs s _ hs
  case unkept => exact fun cs s f hs => ⟨hcontained.request hs, hkept cs s _ hs⟩
  case returned =>
    intro v cs s a hv hs
    have hu := hreturned cs s _ hv hs
    obtain ⟨now, hreply⟩ := hs
    obtain ⟨stored, hload, ha⟩ := Application.returned_of_reply hreply
    refine ⟨stored, ha, hu, fun whole hwhole => ?_⟩
    have hunspent := hv.unspent_of_reassemble hpart (hv.shown m hm) hload hwhole
    exact hunspent.passes (passes_answered cs s fun _ => rfl)
  case unreturned => exact fun v cs s f hv hs => ⟨hcontained.request hs, hreturned cs s _ hv hs⟩

theorem ensures_receivePart_unspent (h : TakingIn records w) (hm : m ∈ Record.messages records)
    (hpart : m.isPart = true) (completed : List String) :
    Ensures (Application.surroundings device) (receivePart completed m) w (fun _ => TakingIn records) J := by
  apply ensures_receivePart (Application.contained_surroundings device) (fun _ => TakingIn records)
  case logged => exact fun _ e v hv => hv.logged e
  case refused => exact fun f v cs s hv hs => hv.told hs
  case passed => exact fun _ => h
  case collected =>
    intro _
    refine (ensures_collectPart_unspent h hm hpart).mono ?_ fun _ _ => id
    intro a v ⟨hv, hwhole⟩
    exact ⟨fun _ => hv, fun whole ha => hv.enqueue (hwhole whole ha)⟩

/-- A record without an infinite number is taken in or skipped. -/
theorem ensures_receiveRecord_unspent (h : TakingIn records w) {record : Value} (hrecord : record ∈ records)
    (hfinite : Record.message record ≠ .error .integerOfInfinity) (completed : List String) :
    Ensures (Application.surroundings device) (receiveRecord completed record) w (fun _ => TakingIn records) J := by
  unfold receiveRecord
  refine (ensures_readRecord (fun e _ hv => hv.logged e) h).bind ?_
  intro a v ⟨ha, hv⟩
  subst ha
  cases hm : Record.message record with
  | ok m =>
    have hmem : m ∈ Record.messages records := Record.mem_messages.mpr ⟨record, hrecord, hm⟩
    dsimp only
    split
    · rename_i hpart
      exact ensures_receivePart_unspent hv hmem hpart completed
    · rename_i hpart
      have htotal := Record.one_le_total_of_message hm
      have hunspent : Unspent m.key v := unspent_of_single (by omega) (by simpa using hpart)
      exact ensures_update_bind (ensures_pure (hv.enqueue hunspent))
  | error f =>
    dsimp only
    split
    · refine ensures_log_bind ((ensures_notify (Application.contained_surroundings device)
        (P := fun _ => TakingIn records) ?_).bind fun _ _ hu => ensures_pure hu)
      exact fun cs s hs => (hv.logged _).told hs
    · rename_i hskipped
      cases f <;> simp [Record.isSkipped] at hskipped
      exact absurd hm hfinite

theorem ensures_receiveRecords_unspent (h : TakingIn records w)
    (hfinite : ∀ record ∈ records, Record.message record ≠ .error .integerOfInfinity) :
    Ensures (Application.surroundings device) (records.foldlM receiveRecord []) w (fun _ => TakingIn records) J := by
  refine ensures_foldlM (fun _ _ => TakingIn records) h fun before record completed v hfront hv => ?_
  have hmem : record ∈ records := hfront.subset (by simp)
  exact ensures_receiveRecord_unspent hv hmem (hfinite record hmem) completed

/-! ## Delivery -/

/-- No two messages in several parts are of one group, nor is a single one of the group of one of them. -/
theorem Sifts.apart {seen ready : List Message} {intakes : List Intake} {completed : List String}
    (h : Sifts seen intakes ready completed) (hseen : ∀ a ∈ seen, 0 ≤ a.total) :
    ready.Pairwise fun a b => a.isPart = true → a.key ≠ b.key := by
  have hwholes := nodup_key_whole? h.once
  rw [← h.composites] at hwholes
  refine (List.pairwise_filter.mp (List.pairwise_map.mp hwholes)).imp_of_mem fun {a b} _ hb hne ha => ?_
  cases hpart : b.isPart with
  | true => exact hne ha hpart
  | false =>
    intro hkey
    have hsingle : b ∈ seen.filter (!·.isPart) := by
      rw [← h.singles]
      exact List.mem_filter.mpr ⟨hb, by simp [hpart]⟩
    have hmany := Message.isPart_iff.mp ha
    have htotal := Message.total_of_key hkey (by omega) (hseen b (List.mem_filter.mp hsingle).1)
    rw [Message.isPart_iff.mpr (htotal ▸ hmany)] at hpart
    cases hpart

/-- In the course of a delivery of some messages, of which the `rest` are still to be offered. -/
structure HandingOver (ms rest : List Message) (w : World κ Store) : Prop extends Dormant w where
  inbound : w.queues.inbound = ms
  unspent : ∀ a ∈ rest, Unspent a.key w

variable {ms rest : List Message}

theorem HandingOver.answers (h : HandingOver ms rest w) {q : Ask κ} (hq : q.Passing)
    (hkept : ∀ m, q ≠ .request (.receiveSegment m)) {r : q.Answer}
    (hr : World.Answers (Application.surroundings device) w q r w') : HandingOver ms rest w' := by
  have hpasses := Passes.of_answers hq hr
  refine ⟨h.toDormant.answers hq (fun m heq => absurd heq (hkept m)) hr, hpasses.inbound.trans h.inbound, ?_⟩
  exact fun a ha => (h.unspent a ha).passes hpasses

theorem HandingOver.logged (h : HandingOver ms rest w) (e : Log.Entry) :
    HandingOver ms rest (w.note (.logged e)) := by
  have hlogged : World.Answers (Application.surroundings fun _ _ => True) w (.log e) () (w.note (.logged e)) := rfl
  exact h.answers (q := .log e) ⟨nofun, nofun⟩ nofun hlogged

theorem HandingOver.offered (h : HandingOver ms (m :: rest) w) (hrest : ∀ a ∈ rest, m.isPart = true → m.key ≠ a.key)
    {answer : Except Fault Returned} {s : Store}
    (hs : (Application.surroundings (κ := κ) device).request w.outside (.receive m) answer s) (cs : List (SendCall κ)) :
    HandingOver ms rest (w.answered cs s fun _ => .request (.receive m) answer) := by
  obtain ⟨hm, hunspent⟩ := List.forall_mem_cons.mp h.unspent
  obtain ⟨now, hreply⟩ := hs
  have hdormant : Dormant (w.answered cs s fun _ => .request (.receive m) answer) := by
    obtain ⟨-, heq⟩ | ⟨-, f, heq⟩ := Application.reply_receive (κ := κ) now w.outside h.ready m
    · rw [heq] at hreply
      cases hreply
      refine h.toDormant.offered hm ?_ ?_ ?_ cs
      · exact h.ready
      · dsimp only
        split
        · exact List.filter_subset_self _
        · exact List.Subset.refl _
      · intro hpart _ r hr
        rw [if_pos hpart] at hr
        simpa using (List.mem_filter.mp hr).2
    · rw [heq] at hreply
      cases hreply
      exact h.toDormant.offered hm h.ready (List.Subset.refl _) (fun _ ⟨x, hx⟩ => nomatch hx) cs
  refine ⟨hdormant, (World.inbound_sendAll cs w).trans h.inbound, fun a ha => ?_⟩
  exact (hunspent a ha).offered (hrest a ha) cs s answer

theorem ensures_deliver_unspent (h : HandingOver ms (m :: rest) w)
    (hrest : ∀ a ∈ rest, m.isPart = true → m.key ≠ a.key) :
    Ensures (Application.surroundings device) (deliver m) w (fun _ => HandingOver ms rest) J := by
  apply ensures_deliver (Application.contained_surroundings device)
  case logged => exact fun e v hv => hv.logged e
  case noticed =>
    intro f v cs s hv hs
    exact hv.answers (q := .notify (.receiveError (.message m) f)) (r := .ok ()) ⟨nofun, nofun⟩ nofun ⟨cs, s, hs, rfl⟩
  case accepted =>
    intro cs s x hs
    have hv := h.offered hrest hs cs
    exact ⟨⟨hv.ready, hv.offers, hv.rows⟩, hv.inbound, hv.unspent⟩
  case refused => exact fun cs s f hs => h.offered hrest hs cs

theorem ensures_deliverPhase_unspent (h : Dormant w) (hunspent : ∀ a ∈ w.queues.inbound, Unspent a.key w)
    (hapart : w.queues.inbound.Pairwise fun a b => a.isPart = true → a.key ≠ b.key) :
    Ensures (Application.surroundings device) deliverPhase w (fun _ => Resting) J := by
  unfold deliverPhase
  apply ensures_queues_bind
  refine (ensures_forM (fun before v => ∀ rest, before ++ rest = w.queues.inbound →
    HandingOver w.queues.inbound rest v) ?_ ?_).bind ?_
  · rintro rest rfl
    exact ⟨h, rfl, hunspent⟩
  · intro before m v ⟨rest, hrest⟩ hv
    rw [List.append_assoc] at hrest
    have hpairs := (List.pairwise_append.mp (hrest ▸ hapart)).2.1
    refine (ensures_deliver_unspent (hv _ hrest) fun a => List.rel_of_pairwise_cons hpairs).mono ?_ fun _ _ => id
    intro _ u hu after hafter
    rw [List.append_assoc] at hafter
    obtain rfl : after = rest := by simpa using hafter.trans hrest.symm
    exact hu
  · intro _ v hv
    have hv := hv [] (List.append_nil _)
    refine ensures_update ⟨⟨hv.ready, hv.offers, hv.rows⟩, ?_⟩
    simp [hv.inbound]

theorem resting_deliverPhase : Keeps (Application.surroundings device) (Resting (κ := κ)) deliverPhase := by
  intro w h
  apply ensures_deliverPhase_unspent h.toDormant
  · rw [h.inbound]
    nofun
  · rw [h.inbound]
    exact .nil

/-- No record that the device shows stops a retrieval: none has an infinite number in the place of an integer. -/
def Unjammed (device : String → Except Fault Value → Prop) : Prop :=
  ∀ records, device "retrieve" (.ok (.list records)) →
    ∀ record ∈ records, Record.message record ≠ .error .integerOfInfinity

theorem resting_receivePhase (hdevice : Unjammed device) :
    Keeps (Application.surroundings device) (Resting (κ := κ)) receivePhase := by
  intro w h
  have hcalled : ∀ cs s output, (Application.surroundings (κ := κ) device).modem w.outside "retrieve" [] output s →
      Resting (w.answered cs s fun q => .modem q "retrieve" [] output) := by
    intro cs s output hs
    have hpassing : (Ask.modem "retrieve" [] : Ask κ).Passing := ⟨nofun, nofun⟩
    have hr : World.Answers (Application.surroundings device) w (.modem "retrieve" []) output _ := ⟨cs, s, hs, rfl⟩
    refine ⟨h.toDormant.answers (q := .modem "retrieve" []) hpassing nofun hr, ?_⟩
    rw [(Passes.of_answers (q := .modem "retrieve" []) hpassing hr).inbound, h.inbound]
  apply ensures_receivePhase
    (fun records v => (∀ record ∈ records, Record.message record ≠ .error .integerOfInfinity) ∧
      TakingIn records v ∧ v.queues.inbound = [])
    fun v => Dormant v ∧ (∀ a ∈ v.queues.inbound, Unspent a.key v) ∧
      v.queues.inbound.Pairwise fun a b => a.isPart = true → a.key ≠ b.key
  case nothing => exact fun cs s output _ hs => hcalled cs s output hs
  case shown =>
    intro cs s records hs
    have hv := hcalled cs s _ hs
    refine ⟨hdevice records hs.2.1, ⟨hv.toDormant, fun a ha => shownSince_retrieved ha cs s, ?_⟩, hv.inbound⟩
    rw [hv.inbound]
    nofun
  case taken =>
    intro records v ⟨hfinite, hv, hempty⟩
    refine ((ensures_receiveRecords_unspent (J := never) hv hfinite).and
      (ensures_receiveRecords_sifted records v)).mono ?_ fun _ _ h => h.1.elim
    intro completed u ⟨hu, intakes, ready, hsifts, hmoves⟩
    have hready : u.queues.inbound = ready := by rw [hmoves.inbound, hempty, List.nil_append]
    refine ⟨hu.toDormant, hu.inbound, ?_⟩
    rw [hready]
    refine hsifts.apart fun a ha => ?_
    obtain ⟨record, -, hm⟩ := Record.mem_messages.mp ha
    have htotal := Record.one_le_total_of_message hm
    omega
  case logged =>
    intro e v ⟨hv, hunspent, hapart⟩
    have hpasses : Passes v (v.note (.logged e)) := passes_note rfl
    exact ⟨hv.passes_subset hpasses hv.ready (List.Subset.refl _), fun a ha => (hunspent a ha).passes hpasses, hapart⟩
  case delivered =>
    intro v ⟨hv, hunspent, hapart⟩
    exact ensures_deliverPhase_unspent hv hunspent hapart

theorem resting_phase (hdevice : Unjammed device) (config : Config) (a : Activity) :
    Keeps (Application.surroundings device) (Resting (κ := κ)) (a.phase config) := by
  cases a with
  | transmit => exact resting_transmitPhase _
  | receive => exact resting_receivePhase hdevice
  | deliver => exact resting_deliverPhase
  | delete => exact resting_deletePhase _
  | cycle =>
    exact (keeps_runCycle (fun e _ hv => hv.logged e) (resting_transmitPhase _) (resting_receivePhase hdevice)
      (resting_deletePhase _)).discard

/-! ## The inbox -/

/-- The row is of the message. -/
def IsRowOf (row : Store.Received) (m : Message) : Prop := ∃ id now, row = Store.Received.of id now m

/-- The rows that have come into the inbox are of the messages that have been accepted, one of each. -/
structure Filed (inbox : List Store.Received) (w : World κ Store) : Prop where
  ready : w.outside.ready = true
  rows : ∃ rows, w.outside.inbox = rows ++ inbox ∧ List.Forall₂ IsRowOf rows (taken w.history)

variable {inbox : List Store.Received}

/-- The inbox stays as it is, and nothing is accepted. -/
theorem Filed.of_eq (h : Filed inbox w) (hready : w'.outside.ready = w.outside.ready)
    (hinbox : w'.outside.inbox = w.outside.inbox) (htaken : taken w'.history = taken w.history) : Filed inbox w' := by
  obtain ⟨hw, rows, heq, hrows⟩ := h
  exact ⟨hready.trans hw, rows, hinbox.trans heq, htaken ▸ hrows⟩

theorem Filed.send (h : Filed inbox w) (c : SendCall κ) : Filed inbox (w.send c) := by
  refine h.of_eq ?_ ?_ (World.filterMap_sendAll (fun _ => rfl) [c] w)
  · rw [World.outside_send]
  · rw [World.outside_send]

theorem Filed.answers (h : Filed inbox w) {q : Ask κ} {r : q.Answer}
    (hr : World.Answers (Application.surroundings device) w q r w') : Filed inbox w' := by
  have hsent : ∀ cs, taken (w.sendAll cs).history = taken w.history := fun cs =>
    World.filterMap_sendAll (fun _ => rfl) cs w
  cases q with
  | queues =>
    obtain ⟨-, rfl⟩ := hr
    exact h
  | update f =>
    obtain rfl := hr
    exact h.of_eq rfl rfl rfl
  | log e =>
    obtain rfl := hr
    exact h.of_eq rfl rfl rfl
  | modem command arguments =>
    obtain ⟨cs, s, ⟨-, -, rfl⟩, rfl⟩ := hr
    exact h.of_eq rfl rfl (hsent cs)
  | callback k m t =>
    obtain ⟨cs, s, ⟨-, rfl⟩, rfl⟩ := hr
    exact h.of_eq rfl rfl (hsent cs)
  | notify n =>
    obtain ⟨cs, s, ⟨-, rfl⟩, rfl⟩ := hr
    rcases Application.noted_eq w.outside n with hsame | ⟨c, -, hforget⟩
    · rw [hsame]
      exact h.of_eq rfl rfl (hsent cs)
    · rw [hforget]
      exact h.of_eq rfl rfl (hsent cs)
  | request t =>
    obtain ⟨cs, s, ⟨now, hreply⟩, rfl⟩ := hr
    cases t with
    | receive m =>
      obtain ⟨-, heq⟩ | ⟨-, f, heq⟩ := Application.reply_receive (κ := κ) now w.outside h.ready m
      · rw [heq] at hreply
        cases hreply
        obtain ⟨rows, heq, hrows⟩ := h.rows
        refine ⟨h.ready, Store.Received.of w.outside.nextId now m :: rows, congrArg _ heq, .cons ⟨_, now, rfl⟩ ?_⟩
        change List.Forall₂ IsRowOf rows (taken (w.sendAll cs).history)
        rwa [hsent cs]
      · rw [heq] at hreply
        cases hreply
        exact h.of_eq rfl rfl (hsent cs)
    | receiveSegment m =>
      obtain rfl : s = _ := congrArg Prod.snd hreply
      rcases Application.store_reply_receiveSegment (κ := κ) now w.outside m with hsame | ⟨row, hupsert, -⟩
      · rw [hsame]
        exact h.of_eq rfl rfl (hsent cs)
      · rw [hupsert]
        exact h.of_eq rfl rfl (hsent cs)
    | returnSegments key =>
      rw [Application.reply_returnSegments] at hreply
      obtain rfl : s = _ := congrArg Prod.snd hreply
      exact h.of_eq rfl rfl (hsent cs)
    | transmit m t =>
      obtain rfl : s = _ := congrArg Prod.snd hreply
      exact h.of_eq rfl rfl (hsent cs)

theorem filed_reaches {config : Config} {s : Store} (hready : s.ready = true)
    (h : Reaches (Application.surroundings device) config { outside := s } w) : Filed s.inbox w := by
  refine h.keeps (fun c v hv => hv.send c) (fun a => ?_) ⟨hready, [], rfl, .nil⟩
  have hasks : Asks (fun _ => True) (a.phase config : Phase κ Unit) := Flow.within_true _
  exact hasks.keeps fun q _ v r v' hr hv => hv.answers hr

theorem key_ne_of_mem_taken {key : String} {history : List (Occurrence κ)} (hoffers : offers key history = [])
    {a : Message} (ha : a ∈ taken history) : a.key ≠ key := by
  intro hkey
  obtain ⟨x, hx⟩ := mem_taken_iff.mp ha
  have hnone := List.filterMap_eq_nil_iff.mp hoffers _ hx
  simp [hkey] at hnone

/-! ## The run as a whole -/

/-- When a message in several parts has been accepted, and of all that the device has shown since the parts of
its group are fewer than would make up a message, then no message of the group has been offered since, whatever
else has happened; and among the rows that the inbox holds above the row of the message there is none for the
group. -/
theorem lingering_parts_complete_nothing {config : Config} {s : Store} (hready : s.ready = true)
    (hdevice : Unjammed device) (h : Reaches (Application.surroundings device) config { outside := s } w)
    {x : Returned} {newer older : List (Occurrence κ)}
    (haccepted : w.history = newer ++ .request (.receive m) (.ok x) :: older) (hseveral : m.isPart = true)
    (hfew : ((shownNumbers m.key newer).card : Int) < m.total) :
    offers m.key newer = [] ∧
    ∃ later row earlier, w.outside.inbox = later ++ row :: earlier ∧ IsRowOf row m ∧
      List.Forall₂ IsRowOf later (taken newer) ∧ ∀ a ∈ taken newer, a.key ≠ m.key := by
  have hresting : Resting w := by
    refine h.keeps (fun c v hv => ⟨hv.toDormant.send c, ?_⟩) (resting_phase hdevice config) ⟨dormant_start hready, rfl⟩
    rw [World.inbound_send]
    exact hv.inbound
  have hoffers := hresting.offers ⟨⟨x, older, haccepted⟩, hseveral, hfew⟩
  refine ⟨hoffers, ?_⟩
  obtain ⟨-, rows, hinbox, hrows⟩ := filed_reaches hready h
  have htaken : taken w.history = taken newer ++ m :: taken older := by
    rw [haccepted, taken, List.filterMap_append]
    rfl
  rw [htaken] at hrows
  obtain ⟨row, rest, hrow, -, hdrop⟩ := List.forall₂_cons_right_iff.mp (List.forall₂_drop_append _ _ _ hrows)
  refine ⟨_, row, rest ++ s.inbox, ?_, hrow, List.forall₂_take_append _ _ _ hrows, fun a => key_ne_of_mem_taken hoffers⟩
  rw [hinbox, ← List.cons_append, ← hdrop, ← List.append_assoc, List.take_append_drop]

end

/-! ## A part that stays -/

/-- A device that shows records without infinite numbers, and does anything else. -/
def plainDevice (_ : String) (output : Except Fault Value) : Prop :=
  ∀ records, output = .ok (.list records) → ∀ record ∈ records,
    ∃ fields, record = .object fields ∧ Record.NoInfinity fields

theorem unjammed_plainDevice : Unjammed plainDevice := by
  intro records hshown record hrecord
  obtain ⟨fields, rfl, hfields⟩ := hshown records rfl record hrecord
  exact Record.message_ne_infinity hfields

/-- The application with its store, and a device that shows parts of the greeting: their numbers, places and texts. -/
def greetingReplies (parts : List (Int × Int × String)) : Replies Unit Store :=
  Group.showing (parts.map fun p => Group.greetingRecord p.1 p.2.1 p.2.2)

theorem greetingReplies_allowed (parts : List (Int × Int × String)) :
    (greetingReplies parts).Allowed (Application.surroundings plainDevice) where
  modem s command arguments := by
    refine ⟨ordinary_ok _, ?_, rfl⟩
    intro shown heq record hrecord
    have hlist : (if command = "retrieve" then Value.list (parts.map fun p => Group.greetingRecord p.1 p.2.1 p.2.2)
        else .object [("detail", .object [])]) = .list shown := Except.ok.inj heq
    split at hlist
    · cases hlist
      obtain ⟨p, -, rfl⟩ := List.mem_map.mp hrecord
      refine ⟨_, rfl, fun name x negative h => ?_⟩
      obtain ⟨field, hfind, hfloat⟩ := Option.map_eq_some_iff.mp h
      have hfield := List.mem_of_find?_eq_some hfind
      simp only [List.mem_cons, List.not_mem_nil, or_false] at hfield
      rcases hfield with rfl | rfl | rfl | rfl | rfl | rfl <;> cases hfloat
    · cases hlist
  request s r := ⟨"now", rfl⟩
  notify s n := ⟨rfl, rfl⟩
  callback s k m t := ⟨rfl, rfl⟩

/-- The message is taken; then the device shows what is left. -/
def greetingTaken : World Unit Store :=
  ((greetingReplies [(2, 3, "lo"), (1, 4, "hel"), (1, 5, "hel")]).run (Activity.cycle.phase {})
    { outside := Store.initialise {} }).2

def greetingLeft : World Unit Store :=
  ((greetingReplies [(1, 4, "hel"), (1, 5, "hel")]).run (Activity.cycle.phase {}) greetingTaken).2

theorem reaches_greetingLeft :
    Reaches (Application.surroundings plainDevice) {} { outside := Store.initialise {} } greetingLeft := by
  have htaken : Reaches (Application.surroundings plainDevice) {} { outside := Store.initialise {} } greetingTaken :=
    Reaches.start.act .cycle (Replies.runs_run (greetingReplies_allowed _) _ _)
  exact htaken.act .cycle (Replies.runs_run (greetingReplies_allowed _) _ _)

def greetingWhole : Message :=
  (Group.greetingPart 1 4 "hel").compose (Group.greetingPart 1 4 "hel")
    [Group.greetingPart 1 4 "hel", Group.greetingPart 2 3 "lo"]

/-- Two copies of the first part stay on the device when the message has been taken, and are shown again. -/
theorem lingering_parts_complete_nothing_greeting : ∃ (w : World Unit Store) (m : Message)
    (newer older : List (Occurrence Unit)),
    Reaches (Application.surroundings plainDevice) {} { outside := Store.initialise {} } w ∧
    w.history = newer ++ .request (.receive m) (.ok .nothing) :: older ∧ m.text = "hello" ∧
    (retrieved newer).map Message.part = [1, 1] ∧ offers m.key newer = [] ∧
    w.outside.inbox.map Store.Received.text = ["hello"] ∧ w.outside.segments.length = 1 := by
  have hsplit : ∀ {history : List (Occurrence Unit)} {o : Occurrence Unit} {n : Nat}, history[n]? = some o →
      history = history.take n ++ o :: history.drop (n + 1) := by
    intro history o n hget
    obtain ⟨hlt, rfl⟩ := List.getElem?_eq_some_iff.mp hget
    rw [← List.drop_eq_getElem_cons hlt, List.take_append_drop]
  have hshown : retrieved (greetingLeft.history.take 14) =
      [Group.greetingPart 1 4 "hel", Group.greetingPart 1 5 "hel"] := by cbv
  have hnext : greetingLeft.history[14]? = some (.request (.receive greetingWhole) (.ok .nothing)) := by cbv
  have hfew : ((shownNumbers greetingWhole.key (greetingLeft.history.take 14)).card : Int) < greetingWhole.total := by
    rw [shownNumbers, hshown]
    decide +kernel
  have hnothing :=
    lingering_parts_complete_nothing rfl unjammed_plainDevice reaches_greetingLeft (hsplit hnext) rfl hfew
  refine ⟨_, _, _, _, reaches_greetingLeft, hsplit hnext, rfl, ?_, hnothing.1, by cbv, by cbv⟩
  rw [hshown]
  rfl

end Gateway

end SmsRelay
