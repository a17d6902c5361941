-- SUMMARY: One retrieval among whose records are parts of a group: what is kept of them, and when the message is complete.
import SmsRelay.Proofs.Group
import SmsRelay.Proofs.History

/-!
# Gathering the parts of a message

One retrieval reads any records from the device, among them parts of a group.
Each part that is read is kept; the one that was missing last makes the message
complete, and no part that follows in the same retrieval does so again.
-/

namespace SmsRelay

open Gateway Gateway.Phase Message

variable {κ : Type}

namespace Group

/-- The record is one of a part of the group, of another message at another place, or of none. -/
def Admits (g : Group) (record : Value) : Prop :=
  (∃ m, Record.message record = .ok m ∧ (m ∈ g.parts ∨ m.key ≠ g.key ∧ m.location ∉ g.locations)) ∨
  ∃ f, Record.message record = .error f ∧ Record.isSkipped f = true

/-- The application with its store, and a device that holds parts of the group and other messages. -/
def surroundings (g : Group) : Surroundings κ Store :=
  Application.surroundings fun command output =>
    command = "retrieve" → ∀ records, output = .ok (.list records) → ∀ record ∈ records, g.Admits record

theorem contained_surroundings (g : Group) : (g.surroundings (κ := κ)).Contained :=
  Application.contained_surroundings _

/-- All parts are among the messages. -/
def Complete (g : Group) (ms : List Message) : Prop := ∀ m ∈ g.parts, m ∈ ms

/-! ## Before and after the delivery -/

/-- Nothing of the group has been delivered. -/
structure Undelivered (g : Group) (w : World κ Store) : Prop where
  clear : Clear g w.outside
  inbox : w.outside.inbox.filter g.mentions = []
  offers : offers g.key w.history = []
  deletion : ∀ c ∈ w.queues.deletion, c.location ∉ g.locations

/-- The message has been delivered once, and its places have been erased or are to be. -/
structure Delivered (g : Group) (w : World κ Store) : Prop where
  clear : Clear g w.outside
  gone : Holds g (fun _ => False) w.outside
  inbox : ∃ row, w.outside.inbox.filter g.mentions = [row] ∧ row.text = g.text ∧
    row.segments = .int g.parts.length ∧ row.locations = g.locations.map Value.int
  offers : ∃ whole, offers g.key w.history = [(whole, .ok .nothing)] ∧ g.MakesUp whole
  deletion : ∀ l ∈ g.locations, (∃ c ∈ w.queues.deletion, c.location = l) ∨
    ∃ c, .notice (.deleted c) ∈ w.history ∧ c.location = l

variable {g : Group} {w w' : World κ Store}

theorem Undelivered.of_undisturbed (h : Undelivered g w) (hw : Undisturbed g.key w w') (hclear : Clear g w'.outside)
    (hinbox : w'.outside.inbox.filter g.mentions = w.outside.inbox.filter g.mentions) : Undelivered g w' := by
  refine ⟨hclear, hinbox.trans h.inbox, hw.offers.trans h.offers, ?_⟩
  rw [hw.deletion]
  exact h.deletion

theorem Delivered.of_undisturbed (h : Delivered g w) (hw : Undisturbed g.key w w') (hclear : Clear g w'.outside)
    (hgone : Holds g (fun _ => False) w'.outside)
    (hinbox : w'.outside.inbox.filter g.mentions = w.outside.inbox.filter g.mentions) : Delivered g w' := by
  refine ⟨hclear, hgone, ?_, ?_, ?_⟩
  · rw [hinbox]
    exact h.inbox
  · rw [hw.offers]
    exact h.offers
  · intro l hl
    rw [hw.deletion]
    rcases h.deletion l hl with hc | ⟨c, hc, hl⟩
    · exact .inl hc
    · exact .inr ⟨c, hw.history.subset hc, hl⟩

/-! ## While records are taken in -/

/-- Of the group the parts of which `P` holds have been kept, and nothing is to be delivered yet. -/
structure Gathering (g : Group) (P : Message → Prop) (w : World κ Store) : Prop where
  undelivered : Undelivered g w
  inbound : ∀ m ∈ w.queues.inbound, m.key ≠ g.key → g.Apart m
  none : w.queues.inbound.filter (·.key = g.key) = []
  holds : Holds g P w.outside

/-- The message has been put together and is to be delivered. -/
structure Gathered (g : Group) (w : World κ Store) : Prop where
  undelivered : Undelivered g w
  inbound : ∀ m ∈ w.queues.inbound, m.key ≠ g.key → g.Apart m
  one : ∃ whole, w.queues.inbound.filter (·.key = g.key) = [whole] ∧ g.MakesUp whole

/-- The records of the messages `seen` have been taken in, and `completed` are the groups completed. -/
def Collecting (g : Group) (seen : List Message) (completed : List String) (w : World κ Store) : Prop :=
  (¬ Complete g seen ∧ g.key ∉ completed ∧ Gathering g (· ∈ seen) w) ∨
  (Complete g seen ∧ g.key ∈ completed ∧ Gathered g w)

section

variable {P : Message → Prop} {seen : List Message} {completed : List String} {m whole : Message}

theorem Undelivered.spared (h : Undelivered g w) (hw : Undisturbed g.key w w') (hs : Spares g w.outside w'.outside) :
    Undelivered g w' := h.of_undisturbed hw (hs.clear h.clear) hs.inbox

theorem Delivered.spared (h : Delivered g w) (hw : Undisturbed g.key w w') (hs : Spares g w.outside w'.outside) :
    Delivered g w' := h.of_undisturbed hw (hs.clear h.clear) (hs.holds h.gone) hs.inbox

theorem Gathering.spared (h : Gathering g P w) (hw : Undisturbed g.key w w')
    (hs : Spares g w.outside w'.outside) : Gathering g P w' := by
  refine ⟨h.undelivered.spared hw hs, ?_, ?_, hs.holds h.holds⟩
  · rw [hw.inbound]
    exact h.inbound
  · rw [hw.inbound]
    exact h.none

theorem Gathered.spared (h : Gathered g w) (hw : Undisturbed g.key w w') (hs : Spares g w.outside w'.outside) :
    Gathered g w' := by
  refine ⟨h.undelivered.spared hw hs, ?_, ?_⟩
  · rw [hw.inbound]
    exact h.inbound
  · rw [hw.inbound]
    exact h.one

theorem Collecting.spared (h : Collecting g seen completed w) (hw : Undisturbed g.key w w')
    (hs : Spares g w.outside w'.outside) : Collecting g seen completed w' := by
  rcases h with ⟨hc, hk, h⟩ | ⟨hc, hk, h⟩
  · exact .inl ⟨hc, hk, h.spared hw hs⟩
  · exact .inr ⟨hc, hk, h.spared hw hs⟩

theorem Collecting.logged (h : Collecting g seen completed w) (e : Log.Entry) :
    Collecting g seen completed (w.note (.logged e)) := h.spared (undisturbed_logged e) (.refl _ _)

theorem Collecting.undelivered (h : Collecting g seen completed w) : Undelivered g w := by
  rcases h with ⟨-, -, h⟩ | ⟨-, -, h⟩
  · exact h.undelivered
  · exact h.undelivered

/-- Messages that are no parts of the group make no difference. -/
theorem Collecting.append (h : Collecting g seen completed w) {ms : List Message}
    (hms : ∀ a ∈ g.parts, a ∈ ms → a ∈ seen) : Collecting g (seen ++ ms) completed w := by
  have hmem : ∀ a ∈ g.parts, a ∈ seen ↔ a ∈ seen ++ ms := by
    intro a ha
    rw [List.mem_append]
    exact (or_iff_left_of_imp (hms a ha)).symm
  have hcomplete : Complete g seen ↔ Complete g (seen ++ ms) := forall₂_congr hmem
  rcases h with ⟨hc, hk, h⟩ | ⟨hc, hk, h⟩
  · exact .inl ⟨mt hcomplete.mpr hc, hk, h.undelivered, h.inbound, h.none, holds_congr h.holds hmem⟩
  · exact .inr ⟨hcomplete.mp hc, hk, h⟩

/-- Other groups may be completed. -/
theorem Collecting.cons (h : Collecting g seen completed w) {key : String} (hkey : key ≠ g.key) :
    Collecting g seen (key :: completed) w := by
  have hmem : g.key ∈ key :: completed ↔ g.key ∈ completed := by
    rw [List.mem_cons]
    exact or_iff_right hkey.symm
  rcases h with ⟨hc, hk, h⟩ | ⟨hc, hk, h⟩
  · exact .inl ⟨hc, mt hmem.mp hk, h⟩
  · exact .inr ⟨hc, hmem.mpr hk, h⟩

/-- The queues change in nothing but in what is to be delivered. -/
theorem Undelivered.enqueue (h : Undelivered g w) (m : Message) : Undelivered g (w.update (enqueueInbound m)) :=
  ⟨h.clear, h.inbox, h.offers, h.deletion⟩

theorem apart_of_mem_enqueue (h : ∀ a ∈ w.queues.inbound, a.key ≠ g.key → g.Apart a) (hm : m.key ≠ g.key → g.Apart m) :
    ∀ a ∈ (w.update (enqueueInbound m)).queues.inbound, a.key ≠ g.key → g.Apart a := by
  intro a ha
  rcases List.mem_append.mp ha with ha | ha
  · exact h a ha
  · obtain rfl := List.mem_singleton.mp ha
    exact hm

/-- Another message is to be delivered, too. -/
theorem Collecting.enqueue (h : Collecting g seen completed w) (hm : g.Apart m) :
    Collecting g seen completed (w.update (enqueueInbound m)) := by
  have hfilter : (w.queues.inbound ++ [m]).filter (·.key = g.key) = w.queues.inbound.filter (·.key = g.key) := by
    simp [hm.key]
  rcases h with ⟨hc, hk, h⟩ | ⟨hc, hk, h⟩
  · exact .inl ⟨hc, hk, h.undelivered.enqueue m, apart_of_mem_enqueue h.inbound fun _ => hm,
      hfilter.trans h.none, h.holds⟩
  · obtain ⟨whole, hone, hwhole⟩ := h.one
    exact .inr ⟨hc, hk, h.undelivered.enqueue m, apart_of_mem_enqueue h.inbound fun _ => hm, whole,
      hfilter.trans hone, hwhole⟩

/-- The message of the group is to be delivered. -/
theorem Gathering.enqueue (h : Gathering g P w) (hwhole : g.MakesUp whole) :
    Gathered g (w.update (enqueueInbound whole)) := by
  refine ⟨h.undelivered.enqueue whole, apart_of_mem_enqueue h.inbound fun hk => absurd hwhole.key hk, whole, ?_, hwhole⟩
  have hkey : [whole].filter (·.key = g.key) = [whole] := by simp [hwhole.key]
  change (w.queues.inbound ++ [whole]).filter _ = _
  rw [List.filter_append, h.none, hkey]
  rfl

end

/-! ## One part -/

section

variable {P : Message → Prop} {seen : List Message} {completed : List String} {m : Message}
  {J : Fault → World κ Store → Prop}

theorem Collecting.request (h : Collecting g seen completed w) {r : Request κ} {answer : Except Fault Returned}
    {s : Store} (hr : ∀ m, r ≠ .receive m) (hs : ∃ now, (answer, s) = Application.reply now w.outside r)
    (hspares : ∀ now, Spares g w.outside (Application.reply now w.outside r).2) (cs : List (SendCall κ)) :
    Collecting g seen completed (w.answered cs s fun _ => .request r answer) := by
  obtain ⟨now, hnow⟩ := hs
  refine h.spared (undisturbed_answered cs s fun _ => ?_) ?_
  · cases r with
    | receive m => exact absurd rfl (hr m)
    | _ => trivial
  · have hstore : s = (Application.reply now w.outside r).2 := congrArg Prod.snd hnow
    rw [World.outside_answered, hstore]
    exact hspares now

/-- A part of another message is kept, and may complete that message. -/
theorem ensures_collectPart_apart (hm : g.Apart m) (hparts : m.parts = [])
    (h : Collecting g seen completed w) :
    Ensures g.surroundings (collectPart m) w
      (fun r v => Collecting g seen completed v ∧ ∀ whole, r = some whole → g.Apart whole)
      (fun e v => e.isCancellation = false ∧ Collecting g seen completed v) := by
  have hlocation : m.location ∉ g.locations := hm.locations _ (by simp [locations_of_parts_eq_nil hparts])
  have hkept : ∀ (cs : List (SendCall κ)) s a, (g.surroundings (κ := κ)).request w.outside (.receiveSegment m) a s →
      Collecting g seen completed (w.answered cs s fun _ => .request (.receiveSegment m) a) := by
    intro cs s a hs
    exact h.request (by simp) hs (fun now => spares_receiveSegment now hm.key hlocation) cs
  have hreturned : ∀ {v : World κ Store} (cs : List (SendCall κ)) s a, Collecting g seen completed v →
      (g.surroundings (κ := κ)).request v.outside (.returnSegments m.key) a s →
      Collecting g seen completed (v.answered cs s fun _ => .request (.returnSegments m.key) a) := by
    intro v cs s a hv hs
    refine hv.request (by simp) hs (fun now => ?_) cs
    rw [Application.reply_returnSegments]
    exact .refl _ _
  apply ensures_collectPart
  case kept => exact fun cs s a hs => hkept cs s _ hs
  case unkept => exact fun cs s f hs => ⟨g.contained_surroundings.request hs, hkept cs s _ hs⟩
  case returned =>
    intro v cs s a hv hs
    have hu := hreturned cs s _ hv hs
    obtain ⟨now, hnow⟩ := hs
    obtain ⟨ms, hms, ha⟩ := Application.returned_of_reply hnow
    have hoff : ∀ b ∈ ms, b.location ∉ g.locations := hv.undelivered.clear.loadSegments hm.key hms
    refine ⟨ms, ha, hu, fun whole hwhole => ?_⟩
    exact hm.reassemble hparts (fun b hb => hoff b (List.mem_of_mem_filter hb)) hwhole
  case unreturned => exact fun v cs s f hv hs => ⟨g.contained_surroundings.request hs, hreturned cs s _ hv hs⟩

/-- A part of the group is kept, and completes the message if it is the last that was missing. -/
theorem ensures_collectPart_own (hm : m ∈ g.parts) (h : Gathering g (· ∈ seen) w) :
    Ensures g.surroundings (collectPart m) w
      (fun r v => Gathering g (· ∈ seen ++ [m]) v ∧
        (Complete g (seen ++ [m]) → ∃ whole, r = some whole ∧ g.MakesUp whole) ∧
        (¬ Complete g (seen ++ [m]) → r = none)) J := by
  obtain ⟨hkey, -, hstorable⟩ := g.uniform m hm
  apply ensures_collectPart
  case Kept => exact Gathering g (· ∈ seen ++ [m])
  case kept =>
    intro cs s a ⟨now, hs⟩
    rw [Application.reply_receiveSegment_of_storable now _ h.undelivered.clear.ready hstorable] at hs
    cases hs
    have hclear : Clear g { w.outside with segments := Store.upsert (Store.Segment.of m) w.outside.segments } :=
      h.undelivered.clear.upsert fun hne => absurd hkey hne
    have hw : ∀ s, Undisturbed g.key w (w.answered cs s fun _ => .request (.receiveSegment m) (.ok .nothing)) :=
      fun s => undisturbed_answered cs s fun _ => trivial
    refine ⟨h.undelivered.of_undisturbed (hw _) hclear rfl, ?_, ?_, ?_⟩
    · rw [(hw _).inbound]
      exact h.inbound
    · rw [(hw _).inbound]
      exact h.none
    · refine holds_congr (h.holds.upsert hm) fun a _ => ?_
      simp
  case unkept =>
    intro cs s f ⟨now, hs⟩
    rw [Application.reply_receiveSegment_of_storable now _ h.undelivered.clear.ready hstorable] at hs
    cases hs
  case returned =>
    intro v cs s a hv ⟨now, hs⟩
    obtain ⟨stored, hload, hstores⟩ := hv.holds.loadSegments hv.undelivered.clear.ready
    rw [Application.reply_returnSegments, hkey, hload] at hs
    cases hs
    have hall : stored.filter (·.key = m.key) = stored := by
      refine List.filter_eq_self.mpr fun a ha => ?_
      obtain ⟨b, hb, -, rfl⟩ := (hstores a).mp ha
      rw [key_reread, (g.uniform b hb).1, hkey]
      exact decide_eq_true rfl
    refine ⟨stored, rfl, hv.spared (undisturbed_answered cs _ fun _ => trivial) (.refl _ _), ?_⟩
    rw [hall]
    refine ⟨fun hc => ?_, fun hc => ?_⟩
    · exact reassemble_of_all hstores hm fun b hb => .inl (hc b hb)
    · obtain ⟨b, hb, hmissing⟩ := not_forall₂.mp hc
      refine reassemble_of_missing hstores hm hb ?_ hmissing
      intro heq
      subst heq
      exact hmissing (by simp)
  case unreturned =>
    intro v cs s f hv ⟨now, hs⟩
    obtain ⟨stored, hload, -⟩ := hv.holds.loadSegments hv.undelivered.clear.ready
    rw [Application.reply_returnSegments, hkey, hload] at hs
    cases hs

/-- The application hears that something could not be read. -/
theorem Collecting.noticed (h : Collecting g seen completed w) (about : Item) (f : Fault) (cs : List (SendCall κ)) :
    Collecting g seen completed (w.answered cs w.outside fun _ => .notice (.receiveError about f)) :=
  h.spared (undisturbed_answered cs _ fun _ => trivial) (.refl _ _)

theorem ensures_receivePart_apart (hm : g.Apart m) (hparts : m.parts = []) (h : Collecting g seen completed w) :
    Ensures g.surroundings (receivePart completed m) w (Collecting g seen) J := by
  apply ensures_receivePart g.contained_surroundings (Collecting g seen)
  case logged => exact fun _ e v hv => hv.logged e
  case refused =>
    intro f v cs s hv ⟨_, heq⟩
    subst heq
    exact hv.noticed _ f cs
  case passed => exact fun _ => h
  case collected =>
    intro _
    refine (ensures_collectPart_apart hm hparts h).mono ?_ fun _ _ => id
    intro a v ⟨hv, hwhole⟩
    exact ⟨fun _ => hv, fun whole ha => (hv.enqueue (hwhole whole ha)).cons hm.key⟩

theorem ensures_receivePart_own (hm : m ∈ g.parts) (h : Collecting g seen completed w) :
    Ensures g.surroundings (receivePart completed m) w (Collecting g (seen ++ [m])) J := by
  obtain ⟨hkey, -, -⟩ := g.uniform m hm
  apply ensures_receivePart g.contained_surroundings (Collecting g (seen ++ [m]))
  case logged => exact fun _ e v hv => hv.logged e
  case refused =>
    intro f v cs s hv ⟨_, heq⟩
    subst heq
    exact hv.noticed _ f cs
  case passed =>
    intro hmem
    rw [hkey] at hmem
    obtain ⟨hc, hk, h⟩ := h.resolve_left fun hopen => hopen.2.1 hmem
    refine Collecting.append (.inr ⟨hc, hk, h⟩) fun a ha _ => ?_
    exact hc a ha
  case collected =>
    intro hmem
    rw [hkey] at hmem
    obtain ⟨hc, hk, h⟩ := h.resolve_right fun hdone => hmem hdone.2.1
    refine (ensures_collectPart_own (J := never) hm h).mono ?_ fun _ _ => False.elim
    intro a v ⟨hv, hsome, hnone⟩
    by_cases hc' : Complete g (seen ++ [m])
    · obtain ⟨whole, rfl, hwhole⟩ := hsome hc'
      have hdone : g.key ∈ m.key :: completed := by simp [hkey]
      refine ⟨nofun, ?_⟩
      intro _ heq
      cases heq
      exact .inr ⟨hc', hdone, hv.enqueue hwhole⟩
    · obtain rfl := hnone hc'
      exact ⟨fun _ => .inl ⟨hc', hk, hv⟩, nofun⟩

/-! ## All records -/

theorem ensures_receiveRecord {record : Value} (hrecord : g.Admits record) (h : Collecting g seen completed w) :
    Ensures g.surroundings (receiveRecord completed record) w
      (Collecting g (seen ++ Record.messages [record])) J := by
  unfold receiveRecord
  refine (ensures_readRecord (fun e _ hu => hu.logged e) h).bind ?_
  rintro a v ⟨rfl, hv⟩
  rcases hrecord with ⟨m, hm, hadmits⟩ | ⟨f, hf, hskipped⟩
  · have hmessages : Record.messages [record] = [m] := by simp [Record.messages, hm, Except.toOption]
    have hparts := Record.parts_of_message hm
    rw [hm, hmessages]
    dsimp only
    rcases hadmits with hmem | ⟨hkey, hlocation⟩
    · rw [if_pos (isPart_of_mem hmem)]
      exact ensures_receivePart_own hmem hv
    · have hapart : g.Apart m := ⟨hkey, by simpa [locations_of_parts_eq_nil hparts] using hlocation⟩
      have hforeign : ∀ a ∈ g.parts, a ∈ [m] → a ∈ seen := by
        intro a ha hmem
        obtain rfl := List.mem_singleton.mp hmem
        exact absurd (g.uniform a ha).1 hkey
      have hv' := hv.append hforeign
      split
      · exact ensures_receivePart_apart hapart hparts hv'
      · exact ensures_update_bind (ensures_pure (hv'.enqueue hapart))
  · have hmessages : Record.messages [record] = [] := by simp [Record.messages, hf, Except.toOption]
    rw [hf, hmessages, List.append_nil]
    dsimp only
    rw [if_pos hskipped]
    apply ensures_log_bind
    refine (ensures_notify (P := fun _ => Collecting g seen completed) g.contained_surroundings ?_).bind ?_
    · rintro cs s ⟨_, rfl⟩
      exact (hv.logged _).noticed _ f cs
    · exact fun _ u hu => ensures_pure hu

/-- All records of a retrieval are taken in. -/
theorem ensures_receiveRecords {records : List Value} (hrecords : ∀ record ∈ records, g.Admits record)
    (h : Collecting g seen [] w) :
    Ensures g.surroundings (records.foldlM receiveRecord []) w
      (Collecting g (seen ++ Record.messages records)) J := by
  refine ensures_foldlM (fun before => Collecting g (seen ++ Record.messages before)) ?_ ?_
  · simpa [Record.messages] using h
  · intro before record completed v hfront hv
    have hmem : record ∈ records := hfront.subset (by simp)
    have hmessages : Record.messages (before ++ [record]) = Record.messages before ++ Record.messages [record] :=
      List.filterMap_append
    rw [hmessages, ← List.append_assoc]
    exact ensures_receiveRecord (hrecords record hmem) hv

end

end Group

end SmsRelay
