-- SUMMARY: Groups whose message has been taken: what the store may hold of them, and that no message comes of it.
import Mathlib.Data.Finset.Card
import Mathlib.Data.Finset.Dedup
import SmsRelay.Proofs.GroupKeys
import SmsRelay.Proofs.Handlers
import SmsRelay.Proofs.Intake

/-!
# Spent groups

A group of parts is spent when its message has been taken and the device has
shown too few of its parts since then to make up another. The store has dropped
the parts from before; so what it holds of the group are parts that have been
shown since, and with these no message of the group is put together.
-/

namespace SmsRelay

namespace Message

/-- There are no more parts in order than there are numbers. -/
theorem length_orderParts_le {ps : List Message} {numbers : Finset Int} (h : ∀ a ∈ ps, a.part ∈ numbers) :
    (orderParts ps).length ≤ numbers.card := by
  have hnodup : ((orderParts ps).map part).Nodup :=
    (pairwise_map_part (ascending_orderParts ps)).imp fun h => Int.ne_of_lt h
  rw [← List.length_map (f := part), ← List.toFinset_card_of_nodup hnodup]
  refine Finset.card_le_card fun p hp => ?_
  obtain ⟨a, ha, rfl⟩ := List.mem_map.mp (List.mem_toFinset.mp hp)
  exact h a (mem_of_mem_orderParts ha)

end Message

namespace Gateway

open Phase

variable {κ σ : Type}

/-! ## Since a message has been accepted -/

/-- The numbers of the parts of a group that the device has shown. -/
def shownNumbers (key : String) (history : List (Occurrence κ)) : Finset Int :=
  (((retrieved history).filter (·.key = key)).map Message.part).toFinset

theorem mem_shownNumbers {key : String} {history : List (Occurrence κ)} {p : Int} :
    p ∈ shownNumbers key history ↔ ∃ a ∈ retrieved history, a.key = key ∧ a.part = p := by
  simp [shownNumbers, and_assoc]

theorem shownNumbers_suffix {key : String} {older history : List (Occurrence κ)} (h : older <:+ history) :
    shownNumbers key older ⊆ shownNumbers key history := by
  intro p hp
  obtain ⟨a, ha, hkey⟩ := mem_shownNumbers.mp hp
  exact mem_shownNumbers.mpr ⟨a, retrieved_suffix h ha, hkey⟩

/-- A message in several parts has been accepted. Of what has happened since then, the latest first, the
device has shown too few parts of the group to make up another. -/
structure Spent (m : Message) (newer history : List (Occurrence κ)) : Prop where
  accepted : ∃ x older, history = newer ++ .request (.receive m) (.ok x) :: older
  several : m.isPart = true
  few : ((shownNumbers m.key newer).card : Int) < m.total

variable {m : Message} {newer history : List (Occurrence κ)}

/-- A group that is spent has been so before something else happened, unless that was the acceptance. -/
theorem Spent.of_cons {o : Occurrence κ} (h : Spent m newer (o :: history)) :
    (newer = [] ∧ ∃ x, o = .request (.receive m) (.ok x)) ∨ ∃ newer', newer = o :: newer' ∧ Spent m newer' history := by
  obtain ⟨⟨x, older, heq⟩, hseveral, hfew⟩ := h
  cases newer with
  | nil =>
    obtain ⟨rfl, -⟩ := List.cons.inj heq
    exact .inl ⟨rfl, x, rfl⟩
  | cons o' newer =>
    obtain ⟨rfl, rfl⟩ := List.cons.inj heq
    refine .inr ⟨newer, rfl, ⟨x, older, rfl⟩, hseveral, ?_⟩
    have hsubset : shownNumbers m.key newer ⊆ shownNumbers m.key (o :: newer) :=
      shownNumbers_suffix (List.suffix_cons o newer)
    have hle := Finset.card_le_card hsubset
    omega

/-- Nothing has been offered. -/
def Silent (os : List (Occurrence κ)) : Prop := ∀ o ∈ os, o.passed? = none

theorem Spent.of_append {os : List (Occurrence κ)} (hos : Silent os) (h : Spent m newer (os ++ history)) :
    ∃ newer', newer = os ++ newer' ∧ Spent m newer' history := by
  induction os generalizing newer with
  | nil => exact ⟨newer, rfl, h⟩
  | cons o os ih =>
    obtain ⟨ho, hos⟩ := List.forall_mem_cons.mp hos
    rw [List.cons_append] at h
    rcases h.of_cons with ⟨-, x, rfl⟩ | ⟨newer', rfl, hspent⟩
    · cases ho
    · obtain ⟨newer'', rfl, holder⟩ := ih hos hspent
      exact ⟨newer'', rfl, holder⟩

theorem offers_append {key : String} {os : List (Occurrence κ)} (hos : Silent os) :
    offers key (os ++ history) = offers key history := by
  have hnone : offers key os = [] := by
    refine List.filterMap_eq_nil_iff.mpr fun o ho => ?_
    have hpassed := hos o ho
    cases o with
    | request r a =>
      cases r with
      | receive a => cases hpassed
      | _ => rfl
    | _ => rfl
  rw [offers, List.filterMap_append]
  exact congrArg (· ++ offers key history) hnone

/-! ## Worlds -/

variable {E : Surroundings κ σ} {w w' w'' : World κ σ}

/-- From one world to another nothing has been offered, and no message has come into the queue. -/
structure Passes (w w' : World κ σ) : Prop where
  history : ∃ os, w'.history = os ++ w.history ∧ Silent os
  inbound : w'.queues.inbound = w.queues.inbound

theorem Passes.refl (w : World κ σ) : Passes w w := ⟨⟨[], rfl, List.forall_mem_nil _⟩, rfl⟩

theorem Passes.trans (h : Passes w w') (h' : Passes w' w'') : Passes w w'' := by
  obtain ⟨⟨os, hos, hsilent⟩, hinbound⟩ := h
  obtain ⟨⟨os', hos', hsilent'⟩, hinbound'⟩ := h'
  refine ⟨⟨os' ++ os, by rw [hos', hos, List.append_assoc], ?_⟩, hinbound'.trans hinbound⟩
  exact fun o ho => (List.mem_append.mp ho).elim (hsilent' o) (hsilent o)

theorem passes_note {o : Occurrence κ} (ho : o.passed? = none) : Passes w (w.note o) :=
  ⟨⟨[o], rfl, by simpa [Silent] using ho⟩, rfl⟩

theorem passes_send (c : SendCall κ) : Passes w (w.send c) := by
  unfold World.send
  split
  · rename_i m _
    exact ⟨⟨[.accepted m], rfl, by simp [Silent, Occurrence.passed?]⟩, rfl⟩
  · exact .refl w

theorem passes_sendAll (cs : List (SendCall κ)) : Passes w (w.sendAll cs) :=
  World.sendAll_keeps (I := Passes w) (fun c _ hv => hv.trans (passes_send c)) cs (.refl w)

theorem passes_answered (cs : List (SendCall κ)) (s : σ) {o : Queues κ → Occurrence κ}
    (ho : ∀ q, (o q).passed? = none) : Passes w (w.answered cs s o) := by
  obtain ⟨⟨os, hos, hsilent⟩, hinbound⟩ := (passes_sendAll cs).trans (passes_note (ho (w.sendAll cs).queues))
  exact ⟨⟨os, hos, hsilent⟩, hinbound⟩

/-- Questions by which nothing is offered, and nothing comes into the queue. -/
def Ask.Passing (q : Ask κ) : Prop :=
  (∀ m, q ≠ .request (.receive m)) ∧ ∀ f, q = .update f → ∀ queues, (f queues).inbound = queues.inbound

theorem Passes.of_answers {q : Ask κ} (hq : q.Passing) {r : q.Answer} (h : World.Answers E w q r w') : Passes w w' := by
  constructor
  case history =>
    obtain ⟨os, hos, hcome⟩ := World.history_of_answers h
    refine ⟨os, hos, fun o ho => ?_⟩
    cases o with
    | request t answer =>
      cases t with
      | receive m => exact absurd (hcome _ ho) (hq.1 m)
      | _ => rfl
    | _ => rfl
  case inbound =>
    rcases World.queues_of_answers h with ⟨f, heq, rfl⟩ | ⟨hinbound, -⟩
    · exact hq.2 f heq _
    · exact hinbound

/-! ## Dormant groups -/

/-- Nothing has come of groups that are spent: no message of them has been offered, and the store holds no
parts of them but such as the device has shown since then. -/
structure Dormant (w : World κ Store) : Prop where
  ready : w.outside.ready = true
  offers : ∀ {m newer}, Spent m newer w.history → offers m.key newer = []
  rows : ∀ {m newer}, Spent m newer w.history → ∀ r ∈ w.outside.segments, r.key = m.key →
    ∃ p ∈ shownNumbers m.key newer, r.part = .int p

/-- No group with the key is spent. -/
def Unspent (key : String) (w : World κ σ) : Prop := ∀ ⦃m newer⦄, Spent m newer w.history → m.key ≠ key

/-- The device has shown the message since any group has been spent. -/
def ShownSince (a : Message) (w : World κ σ) : Prop := ∀ ⦃m newer⦄, Spent m newer w.history → a ∈ retrieved newer

theorem Unspent.passes {key : String} (h : Unspent key w) (hw : Passes w w') : Unspent key w' := by
  intro m newer hspent
  obtain ⟨os, hos, hsilent⟩ := hw.history
  obtain ⟨newer', -, holder⟩ := (hos ▸ hspent).of_append hsilent
  exact h holder

/-- A message that is no part, or of another group, may be accepted. -/
theorem Unspent.offered {key : String} (h : Unspent key w) {m : Message} (hm : m.isPart = true → m.key ≠ key)
    (cs : List (SendCall κ)) (s : σ) (answer : Except Fault Returned) :
    Unspent key (w.answered cs s fun _ => .request (.receive m) answer) := by
  intro a newer hspent
  rcases hspent.of_cons with ⟨-, x, heq⟩ | ⟨newer', -, holder⟩
  · cases heq
    exact hm hspent.several
  · exact h.passes (passes_sendAll cs) holder

theorem unspent_start (key : String) (s : σ) : Unspent key ({ outside := s } : World κ σ) := by
  intro m newer hspent
  obtain ⟨x, older, heq⟩ := hspent.accepted
  cases newer <;> cases heq

/-- A single message is of no group that is spent. -/
theorem unspent_of_single {a : Message} (ha : 0 ≤ a.total) (hsingle : a.isPart = false) : Unspent a.key w := by
  intro m newer hspent hkey
  have hm := Message.isPart_iff.mp hspent.several
  have htotal := Message.total_of_key hkey (by omega) ha
  have hpart := Message.isPart_iff.mpr (htotal ▸ hm)
  rw [hsingle] at hpart
  cases hpart

theorem ShownSince.passes {a : Message} (h : ShownSince a w) (hw : Passes w w') : ShownSince a w' := by
  intro m newer hspent
  obtain ⟨os, hos, hsilent⟩ := hw.history
  obtain ⟨newer', rfl, holder⟩ := (hos ▸ hspent).of_append hsilent
  exact retrieved_suffix (List.suffix_append _ _) (h holder)

/-- The device shows some records. -/
theorem shownSince_retrieved {records : List Value} {a : Message} (ha : a ∈ Record.messages records)
    (cs : List (SendCall κ)) (s : σ) :
    ShownSince a (w.answered cs s fun q => .modem q "retrieve" [] (.ok (.list records))) := by
  intro m newer hspent
  rcases hspent.of_cons with ⟨-, x, heq⟩ | ⟨newer', rfl, -⟩
  · cases heq
  · rw [retrieved_cons_modem]
    exact List.mem_append_left _ ha

section

variable {w w' : World κ Store}

theorem dormant_start {s : Store} (hready : s.ready = true) : Dormant ({ outside := s } : World κ Store) where
  ready := hready
  offers hspent := absurd rfl (unspent_start _ s hspent)
  rows hspent := absurd rfl (unspent_start _ s hspent)

/-- Nothing is offered, and the store may drop parts, or keep one that the device has shown since any group
has been spent. -/
theorem Dormant.passes (h : Dormant w) (hw : Passes w w') (hready : w'.outside.ready = true)
    (hrows : ∀ r ∈ w'.outside.segments, (∃ old ∈ w.outside.segments, r.key = old.key ∧ r.part = old.part) ∨
      ∃ a, ShownSince a w ∧ r.key = a.key ∧ r.part = .int a.part) : Dormant w' := by
  obtain ⟨os, hos, hsilent⟩ := hw.history
  refine ⟨hready, fun {m newer} hspent => ?_, fun {m newer} hspent r hr hkey => ?_⟩
  · obtain ⟨newer', rfl, holder⟩ := (hos ▸ hspent).of_append hsilent
    rw [offers_append hsilent]
    exact h.offers holder
  · obtain ⟨newer', rfl, holder⟩ := (hos ▸ hspent).of_append hsilent
    have hsuffix : newer' <:+ os ++ newer' := List.suffix_append _ _
    rcases hrows r hr with ⟨old, hold, hkey', hpart⟩ | ⟨a, hshown, hkey', hpart⟩
    · obtain ⟨p, hp, heq⟩ := h.rows holder old hold (hkey'.symm.trans hkey)
      exact ⟨p, shownNumbers_suffix hsuffix hp, hpart.trans heq⟩
    · have hmem : a.part ∈ shownNumbers m.key newer' :=
        mem_shownNumbers.mpr ⟨a, hshown holder, hkey'.symm.trans hkey, rfl⟩
      exact ⟨a.part, shownNumbers_suffix hsuffix hmem, hpart⟩

/-- Nothing is offered, and the store stays as it is or drops parts. -/
theorem Dormant.passes_subset (h : Dormant w) (hw : Passes w w') (hready : w'.outside.ready = true)
    (hrows : w'.outside.segments ⊆ w.outside.segments) : Dormant w' :=
  h.passes hw hready fun r hr => .inl ⟨r, hrows hr, rfl, rfl⟩

theorem Dormant.send (h : Dormant w) (c : SendCall κ) : Dormant (w.send c) := by
  refine h.passes_subset (passes_send c) ?_ ?_
  · simpa using h.ready
  · simp

/-- A message of a group that is not spent is offered. If it is in several parts and is accepted, the store
drops the parts of its group. -/
theorem Dormant.offered (h : Dormant w) {m : Message} (hm : Unspent m.key w) {s : Store} (hready : s.ready = true)
    {answer : Except Fault Returned} (hrows : s.segments ⊆ w.outside.segments)
    (hdropped : m.isPart = true → (∃ x, answer = .ok x) → ∀ r ∈ s.segments, r.key ≠ m.key) (cs : List (SendCall κ)) :
    Dormant (w.answered cs s fun _ => .request (.receive m) answer) := by
  have hpasses : Passes w { w.sendAll cs with outside := s } :=
    ⟨(passes_sendAll cs).history, (passes_sendAll cs).inbound⟩
  have hsent := h.passes_subset hpasses hready hrows
  refine ⟨hready, fun {a newer} hspent => ?_, fun {a newer} hspent r hr hkey => ?_⟩
  · rcases hspent.of_cons with ⟨rfl, -⟩ | ⟨newer', rfl, holder⟩
    · rfl
    · rw [offers_cons_receive, if_neg fun hkey => hm.passes hpasses holder hkey.symm]
      exact hsent.offers holder
  · rcases hspent.of_cons with ⟨-, x, heq⟩ | ⟨newer', rfl, holder⟩
    · cases heq
      exact absurd hkey (hdropped hspent.several ⟨x, rfl⟩ r hr)
    · obtain ⟨p, hp, hpart⟩ := hsent.rows holder r hr hkey
      exact ⟨p, shownNumbers_suffix (List.suffix_cons _ _) hp, hpart⟩

/-- The parts that the store holds of a spent group are too few, also with one that has been shown since. -/
theorem Dormant.unspent_of_reassemble (h : Dormant w) {a : Message} (ha : a.isPart = true) (hshown : ShownSince a w)
    {stored : List Message} (hload : w.outside.loadSegments (.text a.key) = .ok stored) {whole : Message}
    (hwhole : a.reassemble (stored.filter (·.key = a.key)) = some whole) : Unspent whole.key w := by
  intro m newer hspent hkey
  obtain ⟨first, rfl, hlength⟩ := Message.eq_compose_orderParts hwhole
  rw [Message.key_compose] at hkey
  have htotal : m.total = a.total := by
    have hm := Message.isPart_iff.mp hspent.several
    have ha := Message.isPart_iff.mp ha
    exact Message.total_of_key hkey (by omega) (by omega)
  have hnumbers : ∀ b ∈ stored.filter (·.key = a.key) ++ [a], b.part ∈ shownNumbers m.key newer := by
    intro b hb
    rcases List.mem_append.mp hb with hb | hb
    · obtain ⟨r, hr, hrkey, hmessage⟩ := Store.loadSegments_eq_ok hload b (List.mem_filter.mp hb).1
      obtain ⟨p, hp, hpart⟩ := h.rows hspent r hr (hrkey.trans hkey.symm)
      rwa [Store.part_of_message hpart hmessage]
    · obtain rfl := List.mem_singleton.mp hb
      exact mem_shownNumbers.mpr ⟨b, hshown hspent, hkey.symm, rfl⟩
  have hle := Message.length_orderParts_le hnumbers
  have hfew := hspent.few
  omega

end

/-! ## Questions -/

section

variable {device : String → Except Fault Value → Prop} {w w' : World κ Store}

/-- Nothing comes of spent groups by questions that offer nothing and keep no parts but new copies. -/
theorem Dormant.answers (h : Dormant w) {q : Ask κ} (hq : q.Passing)
    (hkept : ∀ m, q = .request (.receiveSegment m) → ShownSince m w) {r : q.Answer}
    (hr : World.Answers (Application.surroundings device) w q r w') : Dormant w' := by
  have hpasses := Passes.of_answers hq hr
  cases q with
  | queues =>
    obtain ⟨-, rfl⟩ := hr
    exact h
  | update f =>
    obtain rfl := hr
    exact h.passes_subset hpasses h.ready (List.Subset.refl _)
  | log e =>
    obtain rfl := hr
    exact h.passes_subset hpasses h.ready (List.Subset.refl _)
  | modem command arguments =>
    obtain ⟨cs, s, ⟨-, -, rfl⟩, rfl⟩ := hr
    exact h.passes_subset hpasses h.ready (List.Subset.refl _)
  | callback k m t =>
    obtain ⟨cs, s, ⟨-, rfl⟩, rfl⟩ := hr
    exact h.passes_subset hpasses h.ready (List.Subset.refl _)
  | notify n =>
    obtain ⟨cs, s, ⟨-, rfl⟩, rfl⟩ := hr
    rcases Application.noted_eq w.outside n with hsame | ⟨c, -, hforget⟩
    · rw [hsame] at hpasses ⊢
      exact h.passes_subset hpasses h.ready (List.Subset.refl _)
    · rw [hforget] at hpasses ⊢
      exact h.passes_subset hpasses h.ready (List.filter_subset_self _)
  | request t =>
    obtain ⟨cs, s, ⟨now, hreply⟩, rfl⟩ := hr
    obtain rfl : s = _ := congrArg Prod.snd hreply
    cases t with
    | receive m => exact absurd rfl (hq.1 m)
    | returnSegments key =>
      rw [Application.reply_returnSegments] at hpasses ⊢
      exact h.passes_subset hpasses h.ready (List.Subset.refl _)
    | transmit m t => exact h.passes_subset hpasses h.ready (List.Subset.refl _)
    | receiveSegment m =>
      rcases Application.store_reply_receiveSegment (κ := κ) now w.outside m with hsame | ⟨row, hupsert, hrow⟩
      · rw [hsame] at hpasses ⊢
        exact h.passes_subset hpasses h.ready (List.Subset.refl _)
      · rw [hupsert] at hpasses ⊢
        refine h.passes hpasses h.ready fun r hr => ?_
        obtain ⟨old, hold | rfl, hkey, hpart⟩ := Store.part_of_mem_upsert hr
        · exact .inl ⟨old, hold, hkey, hpart⟩
        · exact .inr ⟨m, hkept m rfl, hkey.trans hrow.key, hpart.trans hrow.part⟩

theorem Ask.OfTransmission.passing {q : Ask κ} (h : q.OfTransmission) : q.Passing := by
  refine ⟨fun m heq => ?_, fun f heq queues => ?_⟩
  · subst heq
    cases h
  · subst heq
    exact (h queues).1

theorem Ask.OfDeletion.passing {q : Ask κ} (h : q.OfDeletion) : q.Passing := by
  refine ⟨fun m heq => ?_, fun f heq queues => ?_⟩
  · subst heq
    exact h.elim
  · subst heq
    exact (h queues).2

end

end Gateway

end SmsRelay
