-- SUMMARY: Parts in any order of arrival, over many cycles: the message is delivered once, when the last one is there.
import Mathlib
import SmsRelay.Proofs.Gathering
import SmsRelay.Proofs.Replay

/-!
# Reassembly in any order of arrival

The parts of one message are read from the device in any order, over any number
of cycles, each any number of times, among other messages. As long as one of
them is missing the message is not offered to the application; in the cycle in
which the last one is read it is, once, with its text in order.
-/

namespace SmsRelay

open Gateway Gateway.Phase Message

variable {κ : Type}

namespace Group

variable {g : Group} {w w' : World κ Store} {J : Fault → World κ Store → Prop}

/-! ## Delivery -/

section

variable {m whole : Message} {P : Message → Prop}

theorem Undelivered.erase (h : Undelivered g w) (hm : g.Apart m) : Undelivered g (w.update (enqueueDeletion m)) := by
  refine ⟨h.clear, h.inbox, h.offers, fun c hc => ?_⟩
  rcases List.mem_append.mp hc with hc | hc
  · exact h.deletion c hc
  · obtain ⟨l, hl, rfl⟩ := List.mem_map.mp hc
    exact hm.locations l hl

theorem Delivered.erase (h : Delivered g w) (m : Message) : Delivered g (w.update (enqueueDeletion m)) := by
  refine ⟨h.clear, h.gone, h.inbox, h.offers, fun l hl => ?_⟩
  rcases h.deletion l hl with ⟨c, hc, hl⟩ | hnotice
  · exact .inl ⟨c, List.mem_append_left _ hc, hl⟩
  · exact .inr hnotice

/-- The delivery of another message leaves the group alone. -/
theorem ensures_deliver_apart {I : World κ Store → Prop} (hm : g.Apart m) (clear : ∀ v, I v → Clear g v.outside)
    (spared : ∀ u v, I u → Undisturbed g.key u v → Spares g u.outside v.outside → I v)
    (erase : ∀ v, I v → I (v.update (enqueueDeletion m))) {v : World κ Store} (hI : I v)
    (hv : v.queues.inbound = w.queues.inbound) :
    Ensures g.surroundings (deliver m) v (fun _ u => I u ∧ u.queues.inbound = w.queues.inbound) J := by
  have hspared : ∀ {u u' : World κ Store}, I u ∧ u.queues.inbound = w.queues.inbound → Undisturbed g.key u u' →
      Spares g u.outside u'.outside → I u' ∧ u'.queues.inbound = w.queues.inbound :=
    fun hu hw hs => ⟨spared _ _ hu.1 hw hs, hw.inbound.trans hu.2⟩
  have hoffered : ∀ (cs : List (SendCall κ)) s a, (g.surroundings (κ := κ)).request v.outside (.receive m) a s →
      I (v.answered cs s fun _ => .request (.receive m) a) ∧
      (v.answered cs s fun _ => .request (.receive m) a).queues.inbound = w.queues.inbound := by
    intro cs s a ⟨now, hs⟩
    have hstore : s = (Application.reply now v.outside (.receive m)).2 := congrArg Prod.snd hs
    refine hspared ⟨hI, hv⟩ (undisturbed_offered hm.key cs s a) ?_
    rw [World.outside_answered, hstore]
    exact spares_receive now (clear v hI) hm
  apply ensures_deliver g.contained_surroundings
  case logged => exact fun e u hu => hspared hu (undisturbed_logged e) (.refl _ _)
  case noticed =>
    intro f u cs s hu ⟨_, heq⟩
    subst heq
    exact hspared hu (undisturbed_answered cs _ fun _ => trivial) (.refl _ _)
  case accepted =>
    intro cs s x hs
    obtain ⟨hu, hinbound⟩ := hoffered cs s _ hs
    exact ⟨erase _ hu, hinbound⟩
  case refused => exact fun cs s f hs => hoffered cs s _ hs

/-- The delivery of the message. -/
theorem ensures_deliver_whole (hwhole : g.MakesUp whole) {v : World κ Store} (h : Undelivered g v)
    (hv : v.queues.inbound = w.queues.inbound) :
    Ensures g.surroundings (deliver whole) v (fun _ u => Delivered g u ∧ u.queues.inbound = w.queues.inbound) J := by
  apply ensures_deliver g.contained_surroundings
  case logged => exact fun e u ⟨hd, hu⟩ => ⟨hd.spared (undisturbed_logged e) (.refl _ _), hu⟩
  case noticed =>
    intro f u cs s ⟨hd, hu⟩ ⟨_, heq⟩
    subst heq
    have hw : Undisturbed g.key u (u.answered cs u.outside fun _ => .notice (.receiveError (.message whole) f)) :=
      undisturbed_answered cs _ fun _ => trivial
    exact ⟨hd.spared hw (.refl _ _), hw.inbound.trans hu⟩
  case accepted =>
    intro cs s x ⟨now, hs⟩
    obtain ⟨row, s', hreply, hclear, hgone, hinbox, hmentions, hrow⟩ :=
      reply_receive_of_makesUp (κ := κ) now h.clear hwhole
    rw [hreply] at hs
    cases hs
    have hw : Undisturbed g.key v (v.sendAll cs) := undisturbed_sendAll cs
    have hsame : (v.sendAll cs).queues.inbound = w.queues.inbound := hw.inbound.trans hv
    refine ⟨⟨hclear, hgone, ⟨row, ?_, hrow⟩, ⟨whole, ?_, hwhole⟩, ?_⟩, hsame⟩
    · rw [World.outside_update, World.outside_answered, hinbox, List.filter_cons_of_pos hmentions, h.inbox]
    · have hoffers : offers g.key (v.sendAll cs).history = [] := hw.offers.trans h.offers
      rw [World.history_update, World.history_answered, offers_cons_receive, if_pos hwhole.key, hoffers]
    · intro l hl
      rw [← hwhole.locations] at hl
      exact .inl ⟨⟨l, some whole⟩, List.mem_append_right _ (List.mem_map_of_mem hl), rfl⟩
  case refused =>
    intro cs s f ⟨now, hs⟩
    obtain ⟨row, s', hreply, -⟩ := reply_receive_of_makesUp (κ := κ) now h.clear hwhole
    rw [hreply] at hs
    cases hs

/-- At the end of a delivery the queue of messages is empty. -/
theorem inbound_delivered {v : World κ Store} (h : v.queues.inbound = w.queues.inbound) :
    v.queues.inbound.drop w.queues.inbound.length = [] := by
  rw [h, List.drop_length]

/-- Nothing of the group is to be delivered. -/
theorem ensures_deliverPhase_gathering (h : Gathering g P w) :
    Ensures g.surroundings deliverPhase w
      (fun _ v => Undelivered g v ∧ Holds g P v.outside ∧ v.queues.inbound = []) J := by
  have hapart : ∀ m ∈ w.queues.inbound, g.Apart m := by
    intro m hm
    apply h.inbound m hm
    simpa using List.filter_eq_nil_iff.mp h.none m hm
  unfold deliverPhase
  apply ensures_queues_bind
  refine (ensures_forM (fun _ v => (Undelivered g v ∧ Holds g P v.outside) ∧ v.queues.inbound = w.queues.inbound)
    ⟨⟨h.undelivered, h.holds⟩, rfl⟩ ?_).bind ?_
  · intro before m v hfront ⟨hI, hv⟩
    have hm : g.Apart m := hapart m (hfront.subset (by simp))
    refine ensures_deliver_apart (I := fun v => Undelivered g v ∧ Holds g P v.outside) hm (fun v hI => hI.1.clear)
      ?_ ?_ hI hv
    · intro u v ⟨hu, hP⟩ hw hs
      exact ⟨hu.spared hw hs, hs.holds hP⟩
    · intro v ⟨hu, hP⟩
      exact ⟨hu.erase hm, hP⟩
  · intro _ v ⟨⟨hu, hP⟩, hv⟩
    exact ensures_update ⟨⟨hu.clear, hu.inbox, hu.offers, hu.deletion⟩, hP, inbound_delivered hv⟩

/-- The message is among those to be delivered, once. -/
theorem ensures_deliverPhase_gathered (h : Gathered g w) :
    Ensures g.surroundings deliverPhase w
      (fun _ v => Delivered g v ∧ v.queues.inbound = []) J := by
  obtain ⟨whole, hone, hwhole⟩ := h.one
  unfold deliverPhase
  apply ensures_queues_bind
  -- the message is delivered in its turn, those before it and after it leave the group alone
  refine (ensures_forM (fun before v => ((before.filter (·.key = g.key) = [] ∧ Undelivered g v) ∨
    (before.filter (·.key = g.key) ≠ [] ∧ Delivered g v)) ∧ v.queues.inbound = w.queues.inbound)
    ⟨.inl ⟨rfl, h.undelivered⟩, rfl⟩ ?_).bind ?_
  · intro before m v hfront ⟨hI, hv⟩
    have hfilter := hfront.filter (·.key = g.key)
    rw [hone] at hfilter
    by_cases hm : m.key = g.key
    · have hbefore : (before ++ [m]).filter (·.key = g.key) = before.filter (·.key = g.key) ++ [m] := by
        simp [hm]
      rw [hbefore] at hfilter ⊢
      have hlength := hfilter.length_le
      simp only [List.length_append, List.length_cons, List.length_nil] at hlength
      have hnil : before.filter (·.key = g.key) = [] := List.length_eq_zero_iff.mp (by omega)
      rw [hnil] at hfilter hI
      obtain rfl : m = whole := by simpa using hfilter
      have hu : Undelivered g v := (hI.resolve_right fun hd => hd.1 rfl).2
      refine (ensures_deliver_whole hwhole hu hv).mono ?_ fun _ _ => id
      intro _ u ⟨hd, hu⟩
      exact ⟨.inr ⟨by simp, hd⟩, hu⟩
    · have hapart : g.Apart m := h.inbound m (hfront.subset (by simp)) hm
      have hsame : (before ++ [m]).filter (·.key = g.key) = before.filter (·.key = g.key) := by simp [hm]
      rw [hsame]
      refine ensures_deliver_apart (I := fun v => (before.filter (·.key = g.key) = [] ∧ Undelivered g v) ∨
        (before.filter (·.key = g.key) ≠ [] ∧ Delivered g v)) hapart ?_ ?_ ?_ hI hv
      · intro v hv
        rcases hv with ⟨-, hu⟩ | ⟨-, hd⟩
        · exact hu.clear
        · exact hd.clear
      · intro u v hv hw hs
        rcases hv with ⟨hnil, hu⟩ | ⟨hne, hd⟩
        · exact .inl ⟨hnil, hu.spared hw hs⟩
        · exact .inr ⟨hne, hd.spared hw hs⟩
      · intro v hv
        rcases hv with ⟨hnil, hu⟩ | ⟨hne, hd⟩
        · exact .inl ⟨hnil, hu.erase hapart⟩
        · exact .inr ⟨hne, hd.erase m⟩
  · intro _ v ⟨hI, hv⟩
    rw [hone] at hI
    have hd : Delivered g v := (hI.resolve_left fun hu => absurd hu.1 (by simp)).2
    exact ensures_update ⟨⟨hd.clear, hd.gone, hd.inbox, hd.offers, hd.deletion⟩, inbound_delivered hv⟩

end

/-! ## Cycles -/

/-- Between the phases, as long as a part has not been read. -/
structure Waiting (g : Group) (w : World κ Store) : Prop where
  missing : ¬ Complete g (retrieved w.history)
  undelivered : Undelivered g w
  holds : Holds g (· ∈ retrieved w.history) w.outside
  inbound : w.queues.inbound = []

/-- Between the phases, in the cycle in which the last part has been read. -/
structure Arrived (g : Group) (w : World κ Store) : Prop where
  complete : Complete g (retrieved w.history)
  delivered : Delivered g w

theorem Waiting.spared (h : Waiting g w) (hw : Undisturbed g.key w w') (hs : Spares g w.outside w'.outside) :
    Waiting g w' := by
  refine ⟨?_, h.undelivered.spared hw hs, ?_, hw.inbound.trans h.inbound⟩
  · rw [hw.retrieved]
    exact h.missing
  · rw [hw.retrieved]
    exact hs.holds h.holds

theorem Arrived.spared (h : Arrived g w) (hw : Undisturbed g.key w w') (hs : Spares g w.outside w'.outside) :
    Arrived g w' := by
  refine ⟨?_, h.delivered.spared hw hs⟩
  rw [hw.retrieved]
  exact h.complete

theorem Waiting.logged (h : Waiting g w) (e : Log.Entry) : Waiting g (w.note (.logged e)) :=
  h.spared (undisturbed_logged e) (.refl _ _)

theorem Arrived.logged (h : Arrived g w) (e : Log.Entry) : Arrived g (w.note (.logged e)) :=
  h.spared (undisturbed_logged e) (.refl _ _)

/-- A transmission does nothing about the group. -/
theorem keeps_transmitPhase (size : Value) : Keeps g.surroundings (Waiting (κ := κ) g) (transmitPhase size) := by
  apply (asks_transmitPhase size).keeps
  intro q hq w r w' h hw
  apply hw.spared (undisturbed_answers hq h)
  rw [(Application.aloof_surroundings _).outside hq h]
  exact .refl _ _

/-- What the last retrieval has completed is delivered. -/
theorem ensures_deliverPhase {seen : List Message} {completed : List String} (h : Collecting g seen completed w)
    (hseen : ∀ a, a ∈ seen ↔ a ∈ retrieved w.history) :
    Ensures g.surroundings deliverPhase w (fun _ v => Waiting g v ∨ Arrived g v) J := by
  have hcomplete : Complete g seen ↔ Complete g (retrieved w.history) :=
    forall₂_congr fun a _ => hseen a
  have hshown : Ensures g.surroundings deliverPhase w (fun _ v => retrieved v.history = retrieved w.history)
      (fun _ v => retrieved v.history = retrieved w.history) :=
    keeps_retrieved asks_deliverPhase _ w rfl
  rcases h with ⟨hc, -, h⟩ | ⟨hc, -, h⟩
  · refine ((ensures_deliverPhase_gathering (J := never) h).and hshown).mono ?_ fun _ _ h => h.1.elim
    intro _ v ⟨⟨hu, hP, hi⟩, hr⟩
    refine .inl ⟨?_, hu, ?_, hi⟩
    · rw [hr]
      exact mt hcomplete.mpr hc
    · rw [hr]
      exact holds_congr hP fun a _ => hseen a
  · refine ((ensures_deliverPhase_gathered (J := never) h).and hshown).mono ?_ fun _ _ h => h.1.elim
    intro _ v ⟨⟨hd, hi⟩, hr⟩
    refine .inr ⟨?_, hd⟩
    rw [hr]
    exact hcomplete.mp hc

/-- The device shows nothing. -/
theorem Waiting.unshown (h : Waiting g w) (cs : List (SendCall κ)) {output : Except Fault Value}
    (houtput : ∀ records, output ≠ .ok (.list records)) :
    Waiting g (w.answered cs w.outside fun q => .modem q "retrieve" [] output) := by
  have hw : Undisturbed g.key (w.sendAll cs) (w.answered cs w.outside fun q => .modem q "retrieve" [] output) :=
    ⟨rfl, rfl, retrieved_cons_modem_of_error _ _ _ houtput _, rfl, List.suffix_cons _ _⟩
  exact h.spared ((undisturbed_sendAll cs).trans hw) (.refl _ _)

/-- The device shows some records, and they are to be taken in. -/
theorem Waiting.shown (h : Waiting g w) (cs : List (SendCall κ)) (records : List Value) :
    Collecting g (retrieved w.history) []
      (w.answered cs w.outside fun q => .modem q "retrieve" [] (.ok (.list records))) := by
  have hw : Undisturbed g.key w (w.sendAll cs) := undisturbed_sendAll cs
  have hi : (w.sendAll cs).queues.inbound = [] := hw.inbound.trans h.inbound
  refine .inl ⟨h.missing, List.not_mem_nil, ⟨h.undelivered.clear, h.undelivered.inbox, ?_, ?_⟩, ?_, ?_, h.holds⟩
  · exact hw.offers.trans h.undelivered.offers
  · intro c hc
    apply h.undelivered.deletion c
    rwa [World.queues_answered, hw.deletion] at hc
  · intro m hm
    rw [World.queues_answered, hi] at hm
    cases hm
  · rw [World.queues_answered, hi]
    rfl

/-- A retrieval leaves the group waiting, or completes it. -/
theorem ensures_receivePhase (h : Waiting g w) :
    Ensures g.surroundings receivePhase w (fun _ v => Waiting g v ∨ Arrived g v)
      (fun _ v => Waiting g v ∨ Arrived g v) := by
  apply Phase.ensures_receivePhase
    (fun records v => (∀ record ∈ records, g.Admits record) ∧ Collecting g (retrieved w.history) [] v ∧
      retrieved v.history = Record.messages records ++ retrieved w.history)
    fun v => ∃ seen completed, Collecting g seen completed v ∧ ∀ a, a ∈ seen ↔ a ∈ retrieved v.history
  case nothing =>
    intro cs s output hne ⟨_, _, heq⟩
    subst heq
    exact .inl (h.unshown cs hne)
  case shown =>
    intro cs s records ⟨_, hadmits, heq⟩
    subst heq
    have hw : Undisturbed g.key w (w.sendAll cs) := undisturbed_sendAll cs
    refine ⟨hadmits rfl records rfl, h.shown cs records, ?_⟩
    rw [World.history_answered, retrieved_cons_modem, hw.retrieved]
  case taken =>
    intro records v ⟨hadmits, hv, hshown⟩
    have hfold : Ensures g.surroundings (records.foldlM receiveRecord []) v
        (fun _ u => retrieved u.history = retrieved v.history) (fun _ u => retrieved u.history = retrieved v.history) :=
      keeps_retrieved (asks_receiveRecords _ _).offModem _ v rfl
    refine ((ensures_receiveRecords (J := never) hadmits hv).and hfold).mono ?_ fun _ _ h => h.1.elim
    intro completed u ⟨hu, hr⟩
    refine ⟨retrieved w.history ++ Record.messages records, completed, hu, fun a => ?_⟩
    rw [hr, hshown, List.mem_append, List.mem_append]
    exact or_comm
  case logged => exact fun e v ⟨seen, completed, hv, hseen⟩ => ⟨seen, completed, hv.logged e, hseen⟩
  case delivered => exact fun v ⟨seen, completed, hv, hseen⟩ => ensures_deliverPhase hv hseen

/-- Candidates at other places stay. -/
theorem Waiting.requeue (h : Waiting g w) (batch : List Candidate) {rest : List Candidate}
    (hrest : ∀ c ∈ rest, c.location ∉ g.locations) : Waiting g (w.update (requeueDeletion batch rest)) := by
  refine ⟨h.missing, ⟨h.undelivered.clear, h.undelivered.inbox, h.undelivered.offers, ?_⟩, h.holds, h.inbound⟩
  intro c hc
  rcases List.mem_append.mp hc with hc | hc
  · exact h.undelivered.deletion c (List.mem_of_mem_drop hc)
  · exact hrest c hc

/-- A deletion erases other places only, as long as a part has not been read. -/
theorem keeps_deletePhase_waiting (size : Value) :
    Keeps g.surroundings (Waiting (κ := κ) g) (deletePhase size) := by
  intro w h
  have hanswered : ∀ cs arguments output,
      Waiting g (w.answered cs w.outside fun q => .modem q "delete" arguments output) := fun cs arguments output =>
    h.spared (undisturbed_answered cs _ fun _ => by simp [Occurrence.IsSilent]) (.refl _ _)
  apply ensures_deletePhase g.contained_surroundings fun _ batch _ rest v =>
    Waiting g v ∧ (∀ c ∈ batch, c.location ∉ g.locations) ∧ ∀ c ∈ rest, c.location ∉ g.locations
  case logged => exact fun e v hv => hv.logged e
  case hw => exact h
  case failed =>
    rintro n cs s output f _ _ ⟨_, _, rfl⟩
    exact hanswered cs _ _
  case begun =>
    rintro n cs s output report _ _ ⟨_, _, rfl⟩
    refine ⟨hanswered cs _ _, fun c hc => ?_, by simp⟩
    exact h.undelivered.deletion c (List.mem_of_mem_take hc)
  case confirmed =>
    rintro report batch before c rest v cs s hfront ⟨hv, hbatch, hrest⟩ _ ⟨_, rfl⟩
    refine ⟨hv.spared (undisturbed_answered cs _ fun _ => trivial) (spares_noted fun d hd => ?_), hbatch, hrest⟩
    cases hd
    exact hbatch c (hfront.subset (by simp))
  case refused =>
    rintro report batch before c rest v e hfront ⟨hv, hbatch, hrest⟩ _
    refine ⟨hv.logged e, hbatch, List.forall_mem_append.mpr ⟨hrest, ?_⟩⟩
    simpa using hbatch c (hfront.subset (by simp))
  case settled =>
    rintro report n rest v _ ⟨hv, _, hrest⟩
    exact hv.requeue _ hrest

/-- The application hears that a place has been erased. -/
theorem Arrived.noted (h : Arrived g w) (c : Candidate) (cs : List (SendCall κ)) :
    Arrived g (w.answered cs (Application.noted w.outside (.deleted c : Notice κ)) fun _ => .notice (.deleted c)) := by
  have hw : Undisturbed g.key w
      (w.answered cs (Application.noted w.outside (.deleted c : Notice κ)) fun _ => .notice (.deleted c)) :=
    undisturbed_answered cs _ fun _ => trivial
  obtain ⟨hclear, hgone, hinbox⟩ := noted_of_gone (.deleted c : Notice κ) h.delivered.clear h.delivered.gone
  refine ⟨?_, h.delivered.of_undisturbed hw hclear hgone (congrArg _ hinbox)⟩
  rw [hw.retrieved]
  exact h.complete

/-- The candidates of a batch have been erased, or stay. -/
theorem Arrived.requeue (h : Arrived g w) {n : Nat} {queue rest : List Candidate} (hqueue : w.queues.deletion = queue)
    (hbatch : ∀ c ∈ queue.take n, c ∈ rest ∨ .notice (.deleted c) ∈ w.history) :
    Arrived g (w.update (requeueDeletion (queue.take n) rest)) := by
  subst hqueue
  obtain ⟨hclear, hgone, hinbox, hoffers, hdeletion⟩ := h.delivered
  refine ⟨h.complete, hclear, hgone, hinbox, hoffers, fun l hl => ?_⟩
  rcases hdeletion l hl with ⟨c, hc, hcl⟩ | hnotice
  · rw [← List.prefix_iff_eq_append.mp (List.take_prefix n w.queues.deletion)] at hc
    rcases List.mem_append.mp hc with hc | hc
    · rcases hbatch c hc with hrest | hnotice
      · exact .inl ⟨c, List.mem_append_right _ hrest, hcl⟩
      · exact .inr ⟨c, hnotice, hcl⟩
    · exact .inl ⟨c, List.mem_append_left _ hc, hcl⟩
  · exact .inr hnotice

/-- A deletion erases places of the message, or keeps them in the queue. -/
theorem keeps_deletePhase_arrived (size : Value) :
    Keeps g.surroundings (Arrived (κ := κ) g) (deletePhase size) := by
  intro w h
  have hanswered : ∀ cs arguments output,
      Undisturbed g.key w (w.answered cs w.outside fun q => .modem q "delete" arguments output) :=
    fun cs arguments output => undisturbed_answered cs _ fun _ => by simp [Occurrence.IsSilent]
  apply ensures_deletePhase g.contained_surroundings fun _ _ before rest v =>
    Arrived g v ∧ v.queues.deletion = w.queues.deletion ∧ ∀ c ∈ before, c ∈ rest ∨ .notice (.deleted c) ∈ v.history
  case logged => exact fun e v hv => hv.logged e
  case hw => exact h
  case failed =>
    rintro n cs s output f _ _ ⟨_, _, rfl⟩
    exact h.spared (hanswered cs _ _) (.refl _ _)
  case begun =>
    rintro n cs s output report _ _ ⟨_, _, rfl⟩
    exact ⟨h.spared (hanswered cs _ _) (.refl _ _), (hanswered cs _ output).deletion, by simp⟩
  case confirmed =>
    rintro report batch before c rest v cs s _ ⟨hv, hqueue, hbefore⟩ _ ⟨_, rfl⟩
    have hw : Undisturbed g.key v (v.sendAll cs) := undisturbed_sendAll cs
    refine ⟨hv.noted c cs, hw.deletion.trans hqueue, List.forall_mem_append.mpr ⟨fun d hd => ?_, ?_⟩⟩
    · exact (hbefore d hd).imp_right fun h => List.mem_cons_of_mem _ (hw.history.subset h)
    · intro d hd
      obtain rfl := List.mem_singleton.mp hd
      exact .inr List.mem_cons_self
  case refused =>
    rintro report batch before c rest v e _ ⟨hv, hqueue, hbefore⟩ _
    refine ⟨hv.logged e, hqueue, List.forall_mem_append.mpr ⟨fun d hd => ?_, fun d hd => ?_⟩⟩
    · exact (hbefore d hd).imp (List.mem_append_left _) (List.mem_cons_of_mem _)
    · exact .inl (List.mem_append_right _ hd)
  case settled =>
    rintro report n rest v _ ⟨hv, hqueue, hbatch⟩
    exact hv.requeue hqueue hbatch

/-- A cycle leaves the group waiting, or completes it. -/
theorem ensures_runCycle_waiting (config : Config) (h : Waiting g w) :
    Ensures g.surroundings (runCycle config) w (fun _ v => Waiting g v ∨ Arrived g v)
      (fun _ v => Waiting g v ∨ Arrived g v) := by
  have hsettled : ∀ e v, Waiting (κ := κ) g v ∨ Arrived g v →
      Waiting g (v.note (.logged e)) ∨ Arrived g (v.note (.logged e)) :=
    fun e v hv => hv.imp (fun hw => hw.logged e) fun ha => ha.logged e
  refine (ensures_runCycle (fun e v hv => hv.logged e) hsettled hsettled (keeps_transmitPhase _ w h)
    (fun v hv => ensures_receivePhase hv) fun v hv => ?_).mono (fun _ _ => id) ?_
  · rcases hv with hv | hv
    · exact (keeps_deletePhase_waiting _ v hv).mono (fun _ _ => .inl) fun _ _ => .inl
    · exact (keeps_deletePhase_arrived _ v hv).mono (fun _ _ => .inr) fun _ _ => .inr
  · intro _ v hs
    rcases hs with hv | hv | hv
    · exact .inl hv
    · exact hv
    · exact hv

/-! ## Whole runs -/

theorem ensures_phase (config : Config) (a : Activity) (h : Waiting g w) :
    Ensures g.surroundings (a.phase config) w (fun _ v => Waiting g v ∨ Arrived g v)
      (fun _ v => Waiting g v ∨ Arrived g v) := by
  cases a with
  | transmit => exact (keeps_transmitPhase _ w h).mono (fun _ _ => .inl) fun _ _ => .inl
  | receive => exact ensures_receivePhase h
  | deliver =>
    have hcollecting : Collecting g (retrieved w.history) [] w := by
      refine .inl ⟨h.missing, List.not_mem_nil, h.undelivered, ?_, ?_, h.holds⟩
      · intro m hm
        rw [h.inbound] at hm
        cases hm
      · rw [h.inbound]
        rfl
    exact ensures_deliverPhase hcollecting fun _ => Iff.rfl
  | delete => exact (keeps_deletePhase_waiting _ w h).mono (fun _ _ => .inl) fun _ _ => .inl
  | cycle => exact ensures_discard (ensures_runCycle_waiting config h)

theorem Waiting.send (h : Waiting g w) (c : SendCall κ) : Waiting g (w.send c) :=
  h.spared (undisturbed_send c) (by simpa using .refl _ _)

theorem waiting_start (g : Group) : Waiting (κ := κ) g { outside := Store.initialise {} } := by
  refine ⟨?_, ⟨⟨rfl, by simp [Store.initialise]⟩, rfl, rfl, by simp⟩, ⟨[], rfl, by simp [retrieved]⟩, rfl⟩
  intro hc
  obtain ⟨a, ha⟩ := List.exists_mem_of_length_pos (l := g.parts) (by have := g.several; omega)
  exact List.not_mem_nil (hc a ha)

/-- Throughout a run the group is waiting as long as a part has not been read. -/
theorem waiting_reaches {config : Config}
    (h : Reaches g.surroundings config { outside := Store.initialise {} } w)
    (hmissing : ¬ Complete g (retrieved w.history)) : Waiting g w := by
  induction h with
  | start => exact waiting_start g
  | send c _ ih =>
    refine (ih fun hc => hmissing ?_).send c
    exact fun a ha => retrieved_suffix (history_send c) (hc a ha)
  | @act v v' r a _ hr ih =>
    have hv : Waiting g v := ih fun hc => hmissing fun a ha => retrieved_suffix (history_runs hr) (hc a ha)
    have hv' : Waiting g v' ∨ Arrived g v' := by
      cases r with
      | ok u => exact (ensures_phase config a hv).result hr
      | error e => exact (ensures_phase config a hv).fault hr
    exact hv'.resolve_right fun ha => hmissing ha.complete

/-- Whatever order and whatever cycles the parts of a message are read in, and however often each: while one of
them has not been read nothing of the message has been offered to the application or stands in the inbox. In
the cycle in which the last one is read the message is offered once and accepted, with the texts of its parts
in order; the inbox gains one row of it, no part of it is kept any longer, and its places are erased or
are to be. -/
theorem delivered_when_complete {config : Config} {w w' : World κ Store} {r : Except Fault CycleReport}
    (h : Reaches g.surroundings config { outside := Store.initialise {} } w)
    (hmissing : ¬ Complete g (retrieved w.history)) :
    (offers g.key w.history = [] ∧ w.outside.inbox.filter g.mentions = []) ∧
    ((runCycle config).Runs g.surroundings w r w' → Complete g (retrieved w'.history) →
      (∃ whole, offers g.key w'.history = [(whole, .ok .nothing)] ∧ whole.text = g.text ∧
        whole.locations = g.locations) ∧
      (∃ row, w'.outside.inbox.filter g.mentions = [row] ∧ row.text = g.text ∧
        row.segments = .int g.parts.length ∧ row.locations = g.locations.map Value.int) ∧
      w'.outside.segments.filter (·.key = g.key) = [] ∧
      ∀ l ∈ g.locations, (∃ c ∈ w'.queues.deletion, c.location = l) ∨
        ∃ c, .notice (.deleted c) ∈ w'.history ∧ c.location = l) := by
  have hw : Waiting g w := waiting_reaches h hmissing
  refine ⟨⟨hw.undelivered.offers, hw.undelivered.inbox⟩, fun hr hc => ?_⟩
  have hw' : Waiting g w' ∨ Arrived g w' := by
    cases r with
    | ok report => exact (ensures_runCycle_waiting config hw).result hr
    | error e => exact (ensures_runCycle_waiting config hw).fault hr
  have hd : Delivered g w' := (hw'.resolve_left fun hv => hv.missing hc).delivered
  obtain ⟨whole, hoffers, hwhole⟩ := hd.offers
  obtain ⟨seen, hrows, hseen⟩ := hd.gone
  obtain rfl : seen = [] := List.eq_nil_iff_forall_not_mem.mpr fun a ha => ((hseen a).mp ha).2
  exact ⟨⟨whole, hoffers, hwhole.text, hwhole.locations⟩, hd.inbox, hrows, hd.deletion⟩

/-! ## A message in two parts -/

/-- The record of one part of the message. -/
def greetingRecord (part location : Int) (text : String) : Value :=
  .object [("from", .text "+1"), ("location", .int location), ("content", .text text),
    ("total-segments", .int 2), ("segment", .int part), ("udh", .int 7)]

def greetingPart (part location : Int) (text : String) : Message :=
  { sender := "+1", text, location, total := 2, part, header := .int 7 }

def greeting : Group where
  key := "+1-7-2"
  parts := [greetingPart 1 4 "hel", greetingPart 2 3 "lo"]
  several := by decide
  numbered := by decide
  uniform := by
    intro m hm
    simp only [List.mem_cons, List.not_mem_nil, or_false] at hm
    rcases hm with rfl | rfl
    · exact ⟨rfl, rfl, rfl, rfl, rfl, .inr ⟨7, rfl, rfl⟩, rfl, rfl, .inl rfl⟩
    · exact ⟨rfl, rfl, rfl, rfl, rfl, .inr ⟨7, rfl, rfl⟩, rfl, rfl, .inl rfl⟩

/-- The application with its store, and a device that shows the given records. -/
def showing (records : List Value) : Replies Unit Store where
  modem s command _ := (.ok (if command = "retrieve" then .list records else .object [("detail", .object [])]), [], s)
  request s r := ((Application.reply "now" s r).1, [], (Application.reply "now" s r).2)
  notify s n := ([], Application.noted s n)

theorem showing_allowed {records : List Value} (h : ∀ record ∈ records, g.Admits record) :
    (showing records).Allowed g.surroundings where
  modem s command arguments := by
    refine ⟨ordinary_ok _, ?_, rfl⟩
    intro heq shown hshown
    subst heq
    cases hshown
    exact h
  request s r := ⟨"now", rfl⟩
  notify s n := ⟨rfl, rfl⟩
  callback s k m t := ⟨rfl, rfl⟩

/-- The second part is read first, and again before the other. -/
theorem greeting_delivered : ∃ w w' : World Unit Store, ∃ r,
    Reaches greeting.surroundings {} { outside := Store.initialise {} } w ∧
    (runCycle {}).Runs greeting.surroundings w r w' ∧
    offers greeting.key w.history = [] ∧
    (∃ whole, offers greeting.key w'.history = [(whole, .ok .nothing)] ∧ whole.text = "hello" ∧
      whole.locations = [4, 3]) ∧
    w'.outside.segments.filter (·.key = greeting.key) = [] := by
  have hfirst : greeting.Admits (greetingRecord 1 4 "hel") :=
    .inl ⟨greetingPart 1 4 "hel", by rfl, .inl List.mem_cons_self⟩
  have hsecond : greeting.Admits (greetingRecord 2 3 "lo") :=
    .inl ⟨greetingPart 2 3 "lo", by rfl, .inl (by simp [greeting])⟩
  have hone : (showing [greetingRecord 2 3 "lo"]).Allowed greeting.surroundings :=
    showing_allowed (by simpa using hsecond)
  have hboth : (showing [greetingRecord 2 3 "lo", greetingRecord 1 4 "hel"]).Allowed greeting.surroundings :=
    showing_allowed (by simpa using ⟨hsecond, hfirst⟩)
  have hstart : Reaches (κ := Unit) greeting.surroundings {} { outside := Store.initialise {} }
      { outside := Store.initialise {} } := .start
  have h := hstart.act .cycle (Replies.runs_run hone _ _)
  have hfirstShown : retrieved ((showing [greetingRecord 2 3 "lo"]).run (Activity.cycle.phase {})
      { outside := Store.initialise {} }).2.history = [greetingPart 2 3 "lo"] := by cbv
  have hmissing : ¬ Complete greeting (retrieved ((showing [greetingRecord 2 3 "lo"]).run
      (Activity.cycle.phase {}) { outside := Store.initialise {} }).2.history) := by
    intro hc
    have hmem := hc (greetingPart 1 4 "hel") List.mem_cons_self
    simp [hfirstShown, greetingPart] at hmem
  have hr := Replies.runs_run hboth (runCycle {}) ((showing [greetingRecord 2 3 "lo"]).run
      (Activity.cycle.phase {}) { outside := Store.initialise {} }).2
  have hbothShown : retrieved ((showing [greetingRecord 2 3 "lo", greetingRecord 1 4 "hel"]).run (runCycle {})
      ((showing [greetingRecord 2 3 "lo"]).run (Activity.cycle.phase {})
        { outside := Store.initialise {} }).2).2.history =
      [greetingPart 2 3 "lo", greetingPart 1 4 "hel", greetingPart 2 3 "lo"] := by cbv
  obtain ⟨⟨hnone, -⟩, hall⟩ := delivered_when_complete h hmissing
  obtain ⟨⟨whole, hoffers, htext, hlocations⟩, -, hgone, -⟩ := hall hr (by
    intro m hm
    rw [hbothShown]
    simp only [greeting, List.mem_cons, List.not_mem_nil, or_false] at hm ⊢
    exact hm.symm.imp_right .inl)
  exact ⟨_, _, _, h, hr, hnone, ⟨whole, hoffers, htext, hlocations⟩, hgone⟩

end Group

end SmsRelay
