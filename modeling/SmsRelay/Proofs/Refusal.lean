-- SUMMARY: Messages that the application refuses are offered again in the next cycle.
import SmsRelay.Proofs.Reading
import SmsRelay.Proofs.Redelivery

/-!
# Refused messages

A message that the application refuses is not lost. Its places are not queued for
deletion and its parts stay in the store, so in the next cycle it is offered
once more, whatever has become of the other messages. A message of one part
comes back as it was. A composite has its text and its places; it is put
together at the first of its parts that is read, and takes its sender from there.
-/

namespace SmsRelay

open Gateway Gateway.Phase Message Store

variable {κ : Type}

/-! ## Ready messages -/

theorem Message.locations_ne_nil (m : Message) : m.locations ≠ [] := by
  unfold locations
  split
  · simp
  · rename_i h
    simpa using h

/-- A reading of the messages `seen`, with a store that has been `s` before, makes messages ready to be offered. -/
structure Readied (ms seen : List Message) (s : Store) (ready : List Message) : Prop where
  singles : ready.filter (!·.isPart) = seen.filter (!·.isPart)
  keys : ((ready.filter (·.isPart)).map Message.key).Nodup
  wholes : ∀ a ∈ ready, a.isPart = true → ∃ p, Completes ms p a
  first : ∀ p ∈ ms, p.isPart = true → HasAll ms s p →
    ((ready.filter (·.isPart)).filter (·.key = p.key)).map Message.sender =
      ((seen.find? (·.key = p.key)).map Message.sender).toList

namespace Readied

variable {ms seen ready : List Message} {s : Store} {a b m : Message} {l : Int}

theorem mem_seen (h : Readied ms seen s ready) (ha : a ∈ ready) (hsingle : a.isPart = false) : a ∈ seen := by
  have hmem : a ∈ seen.filter (!·.isPart) := by
    rw [← h.singles]
    exact List.mem_filter.mpr ⟨ha, by simp [hsingle]⟩
  exact (List.mem_filter.mp hmem).1

/-- A message that is ready is from the places of messages that have been read. -/
theorem mem_locations (h : Readied ms seen s ready) (hms : Payload ms) (hseen : seen ⊆ ms) (ha : a ∈ ready) :
    l ∈ a.locations ↔ ∃ b ∈ ms, b.location = l ∧ if a.isPart then b.key = a.key else b = a := by
  cases hpart : a.isPart with
  | true =>
    obtain ⟨p, hp⟩ := h.wholes a ha hpart
    rw [hp.mem_locations hms]
    simp [and_comm]
  | false =>
    have hmem := hseen (h.mem_seen ha hpart)
    rw [locations_of_parts_eq_nil (hms.parts_eq_nil hmem), List.mem_singleton]
    constructor
    · intro heq
      exact ⟨a, hmem, heq.symm, by simp⟩
    · intro ⟨b, _, hl, hb⟩
      obtain rfl : b = a := by simpa using hb
      exact hl.symm

theorem nodup (h : Readied ms seen s ready) (hseen : seen.Nodup) : ready.Nodup := by
  refine (List.filter_append_perm (·.isPart) ready).nodup_iff.mp (List.nodup_append.mpr ⟨h.keys.of_map, ?_, ?_⟩)
  · rw [h.singles]
    exact hseen.filter _
  · intro a ha b hb heq
    subst heq
    have hpart := (List.mem_filter.mp ha).2
    have hsingle := (List.mem_filter.mp hb).2
    simp [hpart] at hsingle

/-- Of each group one message is ready at most. -/
theorem eq_of_key (h : Readied ms seen s ready) (hms : Payload ms) (hseen : seen ⊆ ms) (ha : a ∈ ready)
    (hpart : a.isPart = true) (hb : b ∈ ready) (hkey : b.key = a.key) : b = a := by
  obtain ⟨p, hp⟩ := h.wholes a ha hpart
  have hmany : b.isPart = true := by
    by_contra hsingle
    rw [Bool.not_eq_true] at hsingle
    have hmem := hseen (h.mem_seen hb hsingle)
    rw [hms.isPart_of_key hmem hp.mem (hkey.trans hp.key) hp.isPart] at hsingle
    cases hsingle
  exact List.inj_on_of_nodup_map h.keys (List.mem_filter.mpr ⟨hb, hmany⟩) (List.mem_filter.mpr ⟨ha, hpart⟩) hkey

/-- Different messages that are ready are from different places. -/
theorem disjoint (h : Readied ms seen s ready) (hms : Payload ms) (hseen : seen ⊆ ms) (ha : a ∈ ready) (hb : b ∈ ready)
    (hne : a ≠ b) (hl : l ∈ a.locations) : l ∉ b.locations := by
  intro hl'
  obtain ⟨c, hc, hplace, hca⟩ := (h.mem_locations hms hseen ha).mp hl
  obtain ⟨d, hd, hplace', hdb⟩ := (h.mem_locations hms hseen hb).mp hl'
  obtain rfl : c = d := hms.eq_of_location hc hd (hplace.trans hplace'.symm)
  have hmany : ∀ {x}, x ∈ ready → x.isPart = true → c.key = x.key → c.isPart = true := by
    intro x hx hpart hkey
    obtain ⟨p, hp⟩ := h.wholes x hx hpart
    exact hms.isPart_of_key hc hp.mem (hkey.trans hp.key) hp.isPart
  cases hpart : a.isPart with
  | true =>
    rw [hpart, if_pos rfl] at hca
    cases hpart' : b.isPart with
    | true =>
      rw [hpart', if_pos rfl] at hdb
      exact hne (h.eq_of_key hms hseen hb hpart' ha (hca.symm.trans hdb))
    | false =>
      obtain rfl : c = b := by simpa [hpart'] using hdb
      rw [hmany ha hpart hca] at hpart'
      cases hpart'
  | false =>
    obtain rfl : c = a := by simpa [hpart] using hca
    cases hpart' : b.isPart with
    | true =>
      rw [hpart', if_pos rfl] at hdb
      rw [hmany hb hpart' hdb] at hpart
      cases hpart
    | false =>
      obtain rfl : c = b := by simpa [hpart'] using hdb
      exact hne rfl

/-- There is one message that is ready from the places of one that is. -/
theorem filter_meets (h : Readied ms seen s ready) (hms : Payload ms) (hseen : seen ⊆ ms) (hnodup : seen.Nodup)
    (ha : a ∈ ready) (hm : a.locations = m.locations) :
    ready.filter (fun b => ∃ l ∈ b.locations, l ∈ m.locations) = [a] := by
  obtain ⟨l, hl⟩ := List.exists_mem_of_ne_nil _ a.locations_ne_nil
  have hself : a ∈ ready.filter (fun b => ∃ l ∈ b.locations, l ∈ m.locations) :=
    List.mem_filter.mpr ⟨ha, decide_eq_true ⟨l, hl, hm ▸ hl⟩⟩
  have honly : ∀ b ∈ ready.filter (fun b => ∃ l ∈ b.locations, l ∈ m.locations), b = a := by
    intro b hb
    obtain ⟨hb, hmeets⟩ := List.mem_filter.mp hb
    obtain ⟨l, hl, hl'⟩ := of_decide_eq_true hmeets
    by_contra hne
    exact h.disjoint hms hseen hb ha hne hl (hm ▸ hl')
  have honce := (h.nodup hnodup).filter fun b => decide (∃ l ∈ b.locations, l ∈ m.locations)
  have hreplicate := List.eq_replicate_of_mem honly
  rw [hreplicate, List.nodup_replicate] at honce
  rw [hreplicate]
  exact congrArg (List.replicate · a) (Nat.le_antisymm honce (List.length_pos_of_mem hself))

end Readied

/-! ## Delivery -/

section

variable {σ : Type}

theorem mem_offered_iff {m : Message} {history : List (Occurrence κ)} :
    m ∈ offered history ↔ ∃ answer, .request (.receive m) answer ∈ history := by
  rw [offered, List.mem_reverse, List.mem_filterMap]
  constructor
  · rintro ⟨o, ho, hm⟩
    unfold Occurrence.passed? at hm
    split at hm
    · cases hm
      exact ⟨_, ho⟩
    · cases hm
  · rintro ⟨answer, ho⟩
    exact ⟨_, ho, rfl⟩

/-- What has been offered and not accepted has been refused. -/
theorem refused_of_notMem_taken {m : Message} {history : List (Occurrence κ)} (hm : m ∈ offered history)
    (hnot : m ∉ taken history) : ∃ f, .request (.receive m) (.error f) ∈ history := by
  obtain ⟨answer, ho⟩ := mem_offered_iff.mp hm
  cases answer with
  | ok x => exact absurd (mem_taken_iff.mpr ⟨x, ho⟩) hnot
  | error f => exact ⟨f, ho⟩

/-- Nothing has been offered, and the modem tool has not run. -/
def Idle (os : List (Occurrence κ)) : Prop := ∀ o ∈ os, o.passed? = none ∧ o.isModem = false

theorem Idle.silent {os : List (Occurrence κ)} (h : Idle os) : Silent os := fun o ho => (h o ho).1

theorem idle_sendAll (cs : List (SendCall κ)) (w : World κ σ) :
    ∃ os, (w.sendAll cs).history = os ++ w.history ∧ Idle os := by
  refine World.sendAll_keeps (I := fun v => ∃ os, v.history = os ++ w.history ∧ Idle os) (fun c v hv => ?_) cs
    ⟨[], rfl, List.forall_mem_nil _⟩
  obtain ⟨os, hos, hidle⟩ := hv
  unfold World.send
  split
  · exact ⟨_ :: os, congrArg _ hos, List.forall_mem_cons.mpr ⟨⟨rfl, rfl⟩, hidle⟩⟩
  · exact ⟨os, hos, hidle⟩

end

variable {ms seen ready before : List Message} {records : List Value} {m : Message} {w v u : World κ Store}

/-- From the world `w` on some messages have been offered, and `os` has happened. No message has been refused and
accepted; only the places of accepted messages have been queued for deletion, and only rows of accepted groups
have gone. -/
structure Delivering (w : World κ Store) (before : List Message) (os : List (Occurrence κ)) (v : World κ Store) :
    Prop where
  history : v.history = os ++ w.history
  offered : offered os = before
  offTool : ∀ o ∈ os, o.isModem = false
  refused : ∀ m f, .request (.receive m) (.error f) ∈ os → m ∉ taken os
  deletion : ∀ c ∈ v.queues.deletion, c ∈ w.queues.deletion ∨ ∃ m ∈ taken os, c.location ∈ m.locations
  ready : v.outside.ready = w.outside.ready
  rows : ∀ row ∈ v.outside.segments, row ∈ w.outside.segments
  kept : ∀ row ∈ w.outside.segments, (∀ m ∈ taken os, m.key ≠ row.key) → row ∈ v.outside.segments

theorem Delivering.start (w : World κ Store) : Delivering w [] [] w where
  history := rfl
  offered := rfl
  offTool := List.forall_mem_nil _
  refused _ _ h := nomatch h
  deletion _ hc := .inl hc
  ready := rfl
  rows _ hrow := hrow
  kept _ hrow _ := hrow

theorem Delivering.idle {os os' : List (Occurrence κ)} (h : Delivering w before os v) (hos : u.history = os' ++ v.history)
    (hidle : Idle os') (hdeletion : u.queues.deletion = v.queues.deletion) (houtside : u.outside = v.outside) :
    Delivering w before (os' ++ os) u where
  history := by rw [hos, h.history, List.append_assoc]
  offered := by rw [offered_append, offered_of_silent hidle.silent, List.append_nil, h.offered]
  offTool o ho := (List.mem_append.mp ho).elim (fun ho => (hidle o ho).2) (h.offTool o)
  refused m f ho := by
    rw [taken_append, taken_of_silent hidle.silent, List.nil_append]
    rcases List.mem_append.mp ho with ho | ho
    · cases hidle.silent _ ho
    · exact h.refused m f ho
  deletion := by
    rw [taken_append, taken_of_silent hidle.silent, List.nil_append, hdeletion]
    exact h.deletion
  ready := by rw [houtside, h.ready]
  rows := by
    rw [houtside]
    exact h.rows
  kept := by
    rw [taken_append, taken_of_silent hidle.silent, List.nil_append, houtside]
    exact h.kept

/-- A message is offered for the first time, and refused. -/
theorem Delivering.refuse {os : List (Occurrence κ)} (h : Delivering w before os v) (hm : m ∉ before) (f : Fault) :
    Delivering w (before ++ [m]) (.request (.receive m) (.error f) :: os) (v.note (.request (.receive m) (.error f))) where
  history := congrArg _ h.history
  offered := by rw [offered_cons, h.offered]; rfl
  offTool := List.forall_mem_cons.mpr ⟨rfl, h.offTool⟩
  refused a g ho := by
    rcases List.mem_cons.mp ho with heq | ho
    · cases heq
      intro htaken
      obtain ⟨x, hx⟩ := mem_taken_iff.mp htaken
      rcases List.mem_cons.mp hx with heq | hx
      · cases heq
      · exact hm (h.offered ▸ mem_offered_iff.mpr ⟨_, hx⟩)
    · exact h.refused a g ho
  deletion := h.deletion
  ready := h.ready
  rows := h.rows
  kept := h.kept

/-- A message is offered for the first time, and accepted. The store may have dropped the rows of its group. -/
theorem Delivering.accept {os : List (Occurrence κ)} (h : Delivering w before os v) (hm : m ∉ before) (x : Returned)
    {s : Store} (hready : s.ready = v.outside.ready) (hrows : ∀ row ∈ s.segments, row ∈ v.outside.segments)
    (hkept : ∀ row ∈ v.outside.segments, m.key ≠ row.key → row ∈ s.segments) :
    Delivering w (before ++ [m]) (.request (.receive m) (.ok x) :: os)
      (({ v.note (.request (.receive m) (.ok x)) with outside := s } : World κ Store).update (enqueueDeletion m)) where
  history := congrArg _ h.history
  offered := by rw [offered_cons, h.offered]; rfl
  offTool := List.forall_mem_cons.mpr ⟨rfl, h.offTool⟩
  refused a g ho := by
    rcases List.mem_cons.mp ho with heq | hrefused
    · cases heq
    · intro htaken
      rcases List.mem_cons.mp htaken with rfl | htaken
      · exact hm (h.offered ▸ mem_offered_iff.mpr ⟨_, hrefused⟩)
      · exact h.refused a g hrefused htaken
  deletion c hc := by
    rcases List.mem_append.mp hc with hc | hc
    · exact (h.deletion c hc).imp_right fun ⟨a, ha, hl⟩ => ⟨a, List.mem_cons_of_mem _ ha, hl⟩
    · refine .inr ⟨m, List.mem_cons_self, ?_⟩
      rw [← m.map_location_candidates]
      exact List.mem_map_of_mem hc
  ready := hready.trans h.ready
  rows row hrow := h.rows row (hrows row hrow)
  kept row hrow hnone := by
    have hnone' : ∀ a ∈ taken os, a.key ≠ row.key := fun a ha => hnone a (List.mem_cons_of_mem _ ha)
    exact hkept row (h.kept row hrow hnone') (hnone m List.mem_cons_self)

theorem Delivering.sendAll {os : List (Occurrence κ)} (h : Delivering w before os v) (cs : List (SendCall κ)) :
    ∃ os, Delivering w before os (v.sendAll cs) := by
  obtain ⟨os', hos', hidle⟩ := idle_sendAll cs v
  exact ⟨_, h.idle hos' hidle (World.deletion_sendAll cs v) (World.outside_sendAll cs v)⟩

/-- An answer that leaves the store alone is noted after some attempts to send. -/
theorem answered_outside (v : World κ Store) (cs : List (SendCall κ)) (o : Occurrence κ) :
    v.answered cs v.outside (fun _ => o) = (v.sendAll cs).note o := by
  rw [← World.outside_sendAll cs v]
  rfl

/-- What becomes of the store when the application takes a message: rows of its group may go, and no others. -/
theorem Application.store_reply_receive {s : Store} (hready : s.ready = true) (now : String) (m : Message) :
    (reply (κ := κ) now s (.receive m)).2.ready = s.ready ∧
    (∀ row ∈ (reply (κ := κ) now s (.receive m)).2.segments, row ∈ s.segments) ∧
    ∀ row ∈ s.segments, m.key ≠ row.key → row ∈ (reply (κ := κ) now s (.receive m)).2.segments := by
  obtain ⟨-, hreply⟩ | ⟨-, f, hreply⟩ := reply_receive (κ := κ) now s hready m
  · rw [hreply]
    refine ⟨rfl, fun row hrow => ?_, fun row hrow hkey => ?_⟩
    · dsimp only at hrow
      split at hrow
      · exact List.mem_of_mem_filter hrow
      · exact hrow
    · dsimp only
      split
      · exact List.mem_filter.mpr ⟨hrow, by simpa using hkey.symm⟩
      · exact hrow
  · rw [hreply]
    exact ⟨rfl, fun _ => id, fun _ hrow _ => hrow⟩

/-- A message that has not been offered before is offered. -/
theorem ensures_deliver_selective {os : List (Occurrence κ)} (h : Delivering w before os v) (hm : m ∉ before)
    (hready : w.outside.ready = true) (hv : v.queues.inbound = ready) :
    Ensures (Application.selective records) (deliver m) v
      (fun _ u => u.queues.inbound = ready ∧ ∃ os, Delivering w (before ++ [m]) os u) never := by
  have hnoted : ∀ {os before} {u : World κ Store} {o : Occurrence κ}, Delivering w before os u →
      o.passed? = none ∧ o.isModem = false → ∃ os, Delivering w before os (u.note o) := fun hu ho =>
    ⟨_, hu.idle (List.singleton_append.symm : _ = [_] ++ _) (List.forall_mem_cons.mpr ⟨ho, List.forall_mem_nil _⟩) rfl rfl⟩
  apply ensures_deliver contained_selective
  case logged => exact fun e u ⟨hinbound, os, hu⟩ => ⟨hinbound, hnoted hu ⟨rfl, rfl⟩⟩
  case noticed =>
    intro f u cs s ⟨hinbound, os, hu⟩ ⟨_, hs⟩
    obtain rfl : s = u.outside := hs
    obtain ⟨os', hu'⟩ := hu.sendAll cs
    refine ⟨by simpa using hinbound, ?_⟩
    rw [answered_outside]
    exact hnoted hu' ⟨rfl, rfl⟩
  case accepted =>
    intro cs s x ⟨_, hs⟩
    obtain ⟨os', hv'⟩ := h.sendAll cs
    have hstore : s.ready = v.outside.ready ∧ (∀ row ∈ s.segments, row ∈ v.outside.segments) ∧
        ∀ row ∈ v.outside.segments, m.key ≠ row.key → row ∈ s.segments := by
      rcases hs with rfl | ⟨now, y, -, rfl⟩
      · exact ⟨rfl, fun _ => id, fun _ hrow _ => hrow⟩
      · exact Application.store_reply_receive (h.ready.trans hready) now m
    rw [← World.outside_sendAll cs v] at hstore
    exact ⟨(World.inbound_sendAll cs v).trans hv, _, hv'.accept hm x hstore.1 hstore.2.1 hstore.2.2⟩
  case refused =>
    intro cs s f ⟨_, hs⟩
    obtain rfl : s = v.outside := hs.elim id fun ⟨now, y, heq, _⟩ => nomatch heq
    obtain ⟨os', hv'⟩ := h.sendAll cs
    rw [answered_outside]
    exact ⟨(World.inbound_sendAll cs v).trans hv, _, hv'.refuse hm f⟩

/-- All messages in the queue are offered. -/
theorem ensures_deliverPhase_selective (hready : w.outside.ready = true) (hnodup : w.queues.inbound.Nodup) :
    Ensures (Application.selective records) deliverPhase w
      (fun _ v => v.queues.inbound = [] ∧ ∃ os, Delivering w w.queues.inbound os v) never := by
  unfold deliverPhase
  apply ensures_queues_bind
  refine (ensures_forM (fun before v => v.queues.inbound = w.queues.inbound ∧ ∃ os, Delivering w before os v)
    ⟨rfl, [], .start w⟩ ?_).bind ?_
  · intro before m v hfront ⟨hv, os, h⟩
    have hnew : m ∉ before := by
      have hdistinct := hnodup.sublist hfront.sublist
      rw [List.nodup_append] at hdistinct
      exact fun hm => hdistinct.2.2 m hm m (List.mem_singleton_self m) rfl
    exact ensures_deliver_selective h hnew hready hv
  · intro _ v ⟨hv, os, h⟩
    refine ensures_update ⟨?_, os, ⟨h.history, h.offered, h.offTool, h.refused, h.deletion, h.ready, h.rows, h.kept⟩⟩
    rw [World.queues_update, hv, List.drop_length]

/-! ## Transmission and deletion -/

/-- The occurrence offers nothing, and if the modem tool has run, only these candidates were queued. -/
def Gateway.Occurrence.Minds (queued : List Candidate) : Occurrence κ → Prop
  | .modem found _ _ _ => found.deletion ⊆ queued
  | .request (.receive _) _ => False
  | _ => True

/-- From one world to another nothing has been offered or read. Rows have gone at most from places that were queued
for deletion, and no others have been queued. -/
structure Clears (w v : World κ Store) : Prop where
  inbound : v.queues.inbound = w.queues.inbound
  deletion : v.queues.deletion ⊆ w.queues.deletion
  ready : v.outside.ready = w.outside.ready
  rows : v.outside.segments ⊆ w.outside.segments
  kept : ∀ row ∈ w.outside.segments, (∀ c ∈ w.queues.deletion, row.location.same (.int c.location) = false) →
    row ∈ v.outside.segments
  history : ∃ os, v.history = os ++ w.history ∧ ∀ o ∈ os, o.Minds w.queues.deletion

theorem Gateway.Occurrence.Minds.mono {queued queued' : List Candidate} {o : Occurrence κ} (h : o.Minds queued)
    (hle : queued ⊆ queued') : o.Minds queued' := by
  unfold Minds at h ⊢
  split
  · exact List.Subset.trans h hle
  · exact h
  · trivial

theorem Clears.refl (w : World κ Store) : Clears w w :=
  ⟨rfl, fun _ => id, rfl, fun _ => id, fun _ hrow _ => hrow, [], rfl, List.forall_mem_nil _⟩

theorem Clears.trans (h : Clears w v) (h' : Clears v u) : Clears w u where
  inbound := h'.inbound.trans h.inbound
  deletion := List.Subset.trans h'.deletion h.deletion
  ready := h'.ready.trans h.ready
  rows := List.Subset.trans h'.rows h.rows
  kept row hrow hplaces := h'.kept row (h.kept row hrow hplaces) fun c hc => hplaces c (h.deletion hc)
  history := by
    obtain ⟨os, hos, hminds⟩ := h.history
    obtain ⟨os', hos', hminds'⟩ := h'.history
    refine ⟨os' ++ os, by rw [hos', hos, List.append_assoc], fun o ho => ?_⟩
    exact (List.mem_append.mp ho).elim (fun ho => (hminds' o ho).mono h.deletion) (hminds o)

theorem clears_note {o : Occurrence κ} (ho : o.Minds w.queues.deletion) : Clears w (w.note o) :=
  ⟨rfl, fun _ => id, rfl, fun _ => id, fun _ hrow _ => hrow, [o], rfl, List.forall_mem_cons.mpr ⟨ho,
    List.forall_mem_nil _⟩⟩

theorem clears_sendAll (cs : List (SendCall κ)) (w : World κ Store) : Clears w (w.sendAll cs) := by
  refine World.sendAll_keeps (I := Clears w) (fun c v hv => hv.trans ?_) cs (.refl w)
  unfold World.send
  split
  · exact ⟨rfl, fun _ => id, rfl, fun _ => id, fun _ hrow _ => hrow, [_], rfl, List.forall_mem_cons.mpr
      ⟨trivial, List.forall_mem_nil _⟩⟩
  · exact .refl v

/-- The surroundings have answered, and the store is as before. -/
theorem clears_answered (w : World κ Store) (cs : List (SendCall κ)) {o : Queues κ → Occurrence κ}
    (ho : ∀ found : Queues κ, found.deletion = w.queues.deletion → (o found).Minds w.queues.deletion) :
    Clears w (w.answered cs w.outside o) := by
  have hsent := clears_sendAll cs w
  have hqueued : (w.sendAll cs).queues.deletion = w.queues.deletion := World.deletion_sendAll cs w
  have hnoted : Clears (w.sendAll cs) ((w.sendAll cs).note (o (w.sendAll cs).queues)) :=
    clears_note (hqueued.symm ▸ ho _ hqueued)
  have h := hsent.trans hnoted
  exact ⟨h.inbound, h.deletion, rfl, fun _ => id, fun _ hrow _ => hrow, h.history⟩

theorem clears_of_transmission {q : Ask κ} (hq : q.OfTransmission) {r : q.Answer}
    (h : World.Answers (Application.selective records) w q r v) : Clears w v := by
  cases q with
  | queues =>
    obtain ⟨-, rfl⟩ := h
    exact .refl _
  | update f =>
    obtain rfl := h
    obtain ⟨hinbound, hdeletion⟩ := hq w.queues
    exact ⟨hinbound, hdeletion ▸ fun _ => id, rfl, fun _ => id, fun _ hrow _ => hrow, [], rfl, List.forall_mem_nil _⟩
  | log e =>
    obtain rfl := h
    exact clears_note trivial
  | modem command arguments =>
    obtain ⟨cs, s, ⟨-, -, rfl⟩, rfl⟩ := h
    exact clears_answered w cs fun found hfound => hfound ▸ fun _ => id
  | request t =>
    cases t with
    | transmit m t =>
      obtain ⟨cs, s, ⟨-, rfl⟩, rfl⟩ := h
      exact clears_answered w cs fun _ _ => trivial
    | _ => cases hq
  | notify n =>
    cases n with
    | transmitError m f =>
      obtain ⟨cs, s, ⟨-, hs⟩, rfl⟩ := h
      obtain rfl : s = w.outside := hs
      exact clears_answered w cs fun _ _ => trivial
    | _ => cases hq
  | callback k m t =>
    obtain ⟨cs, s, ⟨-, rfl⟩, rfl⟩ := h
    exact clears_answered w cs fun _ _ => trivial

/-- A transmission leaves the store alone. -/
theorem keeps_transmitPhase_clears (size : Value) (w : World κ Store) :
    Keeps (Application.selective records) (fun v => Clears w v ∧ v.outside = w.outside) (transmitPhase size) :=
  (asks_transmitPhase size).keeps fun _ hq _ _ _ h hv =>
    ⟨hv.1.trans (clears_of_transmission hq h), (aloof_selective.outside hq h).trans hv.2⟩

/-- A deletion has the store forget what comes from places that were queued. -/
theorem ensures_deletePhase_clears (size : Value) (w : World κ Store) :
    Ensures (Application.selective records) (deletePhase size) w (fun _ => Clears w) (fun _ => Clears w) := by
  have hcalled : ∀ cs arguments output,
      Clears w (w.answered cs w.outside fun q => .modem q "delete" arguments output) := fun cs arguments output =>
    clears_answered w cs fun found hfound => hfound ▸ fun _ => id
  apply ensures_deletePhase contained_selective fun _ batch _ rest v =>
    Clears w v ∧ batch ⊆ w.queues.deletion ∧ rest ⊆ w.queues.deletion
  case logged => exact fun e v hv => hv.trans (clears_note trivial)
  case hw => exact .refl w
  case failed =>
    rintro n cs s output f _ _ ⟨-, -, rfl⟩
    exact hcalled cs _ _
  case begun =>
    rintro n cs s output report _ _ ⟨-, -, rfl⟩
    exact ⟨hcalled cs _ _, List.take_subset _ _, List.nil_subset _⟩
  case confirmed =>
    rintro report batch before' c rest v cs s hfront ⟨hv, hbatch, hrest⟩ _ ⟨-, rfl⟩
    have hc : c ∈ w.queues.deletion := hbatch (hfront.subset (by simp))
    refine ⟨?_, hbatch, hrest⟩
    have hnoticed := hv.trans (clears_answered v cs (o := fun _ => .notice (.deleted c)) fun _ _ => trivial)
    rcases Application.noted_eq v.outside (.deleted c : Notice κ) with hsame | ⟨c', hc', hforgot⟩
    · rw [hsame]
      exact hnoticed
    · cases hc'
      rw [hforgot]
      refine ⟨hnoticed.inbound, hnoticed.deletion, hnoticed.ready, ?_, fun row hrow hplaces => ?_, hnoticed.history⟩
      · exact fun row hrow => hv.rows (List.mem_of_mem_filter hrow)
      · exact List.mem_filter.mpr ⟨hv.kept row hrow hplaces, by rw [hplaces c hc]; rfl⟩
  case refused =>
    intro report batch before' c rest v e hfront ⟨hv, hbatch, hrest⟩ _
    refine ⟨hv.trans (clears_note trivial), hbatch, List.append_subset.mpr ⟨hrest, ?_⟩⟩
    intro c' hc'
    obtain rfl := List.mem_singleton.mp hc'
    exact hbatch (hfront.subset (by simp))
  case settled =>
    intro report n rest v _ ⟨hv, _, hrest⟩
    refine ⟨hv.inbound, ?_, hv.ready, hv.rows, hv.kept, hv.history⟩
    refine List.append_subset.mpr ⟨List.Subset.trans (List.drop_subset _ _) hv.deletion, hrest⟩

/-! ## Cycles -/

/-- The candidate was queued when the cycle began, or is from a place of a message that has been accepted. -/
def Due (w : World κ Store) (os : List (Occurrence κ)) (c : Candidate) : Prop :=
  c ∈ w.queues.deletion ∨ ∃ m ∈ taken os, c.location ∈ m.locations

/-- A cycle has begun in the world `w`, the messages that are ready have been offered in it, and `os` has happened.
Unless places of theirs were queued before, all parts of a composite that has not been accepted are still in the
store. -/
structure Offered (ms seen : List Message) (w : World κ Store) (ready : List Message) (os : List (Occurrence κ))
    (v : World κ Store) : Prop where
  readied : Readied ms seen w.outside ready
  inbound : v.queues.inbound = []
  tables : Tables ms v.outside
  history : v.history = os ++ w.history
  offered : offered os = ready
  refused : ∀ m f, .request (.receive m) (.error f) ∈ os → m ∉ taken os
  deletion : ∀ c ∈ v.queues.deletion, Due w os c
  found : ∀ found command arguments output, .modem found command arguments output ∈ os →
    ∀ c ∈ found.deletion, Due w os c
  held : (∀ c ∈ w.queues.deletion, ∀ b ∈ ms, c.location ≠ b.location) → ∀ a ∈ ready, a.isPart = true →
    a ∉ taken os → ∃ p, Completes ms p a ∧ HasAll ms v.outside p

section

variable {os : List (Occurrence κ)}

theorem Offered.mem_ready (h : Offered ms seen w ready os v) (hm : m ∈ taken os) : m ∈ ready := by
  rw [← h.offered]
  exact List.mem_reverse.mp ((taken_sublist os).subset hm)

/-- No candidate is due from a place of a message that has not been accepted. -/
theorem Offered.not_due (h : Offered ms seen w ready os v) (hms : Payload ms) (hseen : seen ⊆ ms)
    (hclear : ∀ c ∈ w.queues.deletion, ∀ b ∈ ms, c.location ≠ b.location) (hm : m ∈ ready) (hnot : m ∉ taken os)
    {c : Candidate} (hc : Due w os c) : c.location ∉ m.locations := by
  intro hl
  rcases hc with hc | ⟨a, ha, hl'⟩
  · obtain ⟨b, hb, hplace, -⟩ := (h.readied.mem_locations hms hseen hm).mp hl
    exact hclear c hc b hb hplace.symm
  · have hne : m ≠ a := by
      intro heq
      subst heq
      exact hnot ha
    exact h.readied.disjoint hms hseen hm (h.mem_ready ha) hne hl hl'

theorem passed_of_minds {queued : List Candidate} {o : Occurrence κ} (h : o.Minds queued) : o.passed? = none := by
  cases o with
  | request r a =>
    cases r with
    | receive m => exact h.elim
    | _ => rfl
  | _ => rfl

theorem Offered.clears (h : Offered ms seen w ready os v) (hms : Payload ms) (hseen : seen ⊆ ms) (hu : Clears v u) :
    ∃ os, Offered ms seen w ready os u := by
  obtain ⟨os', hos', hminds⟩ := hu.history
  have hsilent : Silent os' := fun o ho => passed_of_minds (hminds o ho)
  have htaken : taken (os' ++ os) = taken os := by rw [taken_append, taken_of_silent hsilent, List.nil_append]
  have hdue : ∀ {c}, Due w os c → Due w (os' ++ os) c := by
    intro c hc
    rw [Due, htaken]
    exact hc
  refine ⟨os' ++ os, h.readied, hu.inbound.trans h.inbound, ⟨hu.ready.trans h.tables.ready, ?_⟩, ?_, ?_, ?_, ?_, ?_, ?_⟩
  · exact fun row hrow => h.tables.rows row (hu.rows hrow)
  · rw [hos', h.history, List.append_assoc]
  · rw [offered_append, offered_of_silent hsilent, List.append_nil, h.offered]
  · intro m f ho
    rw [htaken]
    rcases List.mem_append.mp ho with ho | ho
    · exact (hminds _ ho).elim
    · exact h.refused m f ho
  · exact fun c hc => hdue (h.deletion c (hu.deletion hc))
  · intro found command arguments output ho c hc
    rcases List.mem_append.mp ho with ho | ho
    · exact hdue (h.deletion c (hminds _ ho hc))
    · exact hdue (h.found found command arguments output ho c hc)
  · intro hclear a ha hpart hnot
    rw [htaken] at hnot
    obtain ⟨p, hcompletes, hall⟩ := h.held hclear a ha hpart hnot
    refine ⟨p, hcompletes, fun n hn => ?_⟩
    obtain ⟨b, hb, hkey, hnumber, row, hrow, hb'⟩ := hall n hn
    refine ⟨b, hb, hkey, hnumber, row, hu.kept row hrow fun c hc => ?_, hb'⟩
    have hplace : b.location ∈ a.locations :=
      (hcompletes.mem_locations hms).mpr ⟨b, hb, hkey.trans hcompletes.key.symm, rfl⟩
    rw [(ofPart_eq_ok hb').location, Cell.same_int, decide_eq_false_iff_not]
    intro hsame
    exact h.not_due hms hseen hclear ha hnot (h.deletion c hc) (hsame ▸ hplace)

/-- Some records have been read in a cycle that has begun in the world `w`, and nothing has been offered. -/
def Taken (ms seen : List Message) (w v : World κ Store) : Prop :=
  ∃ u completed os, Clears w u ∧ u.outside = w.outside ∧ Reading ms u seen completed v ∧
    v.queues.deletion = u.queues.deletion ∧ v.history = os ++ u.history ∧ Idle os

/-- Questions about records that are read offer nothing. -/
theorem idle_answers {σ : Type} {E : Surroundings κ σ} {w v : World κ σ} {q : Ask κ} (hq : q.OfCollection)
    {r : q.Answer} (h : World.Answers E w q r v) :
    v.queues.deletion = w.queues.deletion ∧ ∃ os, v.history = os ++ w.history ∧ Idle os := by
  constructor
  · rcases World.queues_of_answers h with ⟨f, rfl, rfl⟩ | ⟨-, hdeletion⟩
    · rcases hq with ⟨m, rfl⟩ | ⟨record, f, heq⟩
      · rfl
      · cases heq
    · exact hdeletion
  · obtain ⟨os, hos, hcome⟩ := World.history_of_answers h
    refine ⟨os, hos, fun o ho => ?_⟩
    have hof := hcome o ho
    cases o with
    | modem found command arguments output => exact absurd hof (hq.offModem.2 command arguments)
    | request r a =>
      cases r with
      | receive m =>
        obtain rfl : q = .request (.receive m) := hof
        rcases hq with (heq | heq) | ⟨record, f, heq⟩
        · cases heq
        · cases heq
        · cases heq
      | _ => exact ⟨rfl, rfl⟩
    | _ => exact ⟨rfl, rfl⟩

theorem Idle.append {os os' : List (Occurrence κ)} (h : Idle os) (h' : Idle os') : Idle (os ++ os') :=
  fun o ho => (List.mem_append.mp ho).elim (h o) (h' o)

/-- The messages that have been read are offered. -/
theorem Taken.delivered (h : Taken ms seen w v) (hms : Payload ms) (hseen : seen ⊆ ms) (hnodup : seen.Nodup) :
    Ensures (Application.selective records) deliverPhase v
      (fun _ u => ∃ ready os, Offered ms seen w ready os u) never := by
  obtain ⟨u, completed, os, hclears, houtside, hreading, hdeletion, hhistory, hidle⟩ := h
  have hreadied : Readied ms seen w.outside v.queues.inbound := by
    refine ⟨hreading.singles, ?_, fun a ha hpart => ?_, houtside ▸ hreading.first⟩
    · rw [hreading.keys, List.nodup_reverse]
      exact hreading.once
    · obtain ⟨p, hp, -⟩ := hreading.wholes a ha hpart
      exact ⟨p, hp⟩
  refine (ensures_deliverPhase_selective hreading.tables.ready (hreadied.nodup hnodup)).mono ?_ fun _ _ => id
  intro _ x ⟨hempty, os', hx⟩
  obtain ⟨os'', hos'', hminds⟩ := hclears.history
  have hsilent : Silent (os ++ os'') := fun o ho =>
    (List.mem_append.mp ho).elim (hidle.silent o) fun ho => passed_of_minds (hminds o ho)
  have htaken : taken (os' ++ (os ++ os'')) = taken os' := by
    rw [taken_append, taken_of_silent hsilent, List.append_nil]
  refine ⟨v.queues.inbound, os' ++ (os ++ os''), hreadied, hempty, ⟨hx.ready.trans hreading.tables.ready, ?_⟩,
    ?_, ?_, ?_, ?_, ?_, ?_⟩
  · exact fun row hrow => hreading.tables.rows row (hx.rows row hrow)
  · rw [hx.history, hhistory, hos'', List.append_assoc, List.append_assoc]
  · rw [offered_append, offered_of_silent hsilent, List.nil_append, hx.offered]
  · intro m f ho
    rw [htaken]
    rcases List.mem_append.mp ho with ho | ho
    · exact hx.refused m f ho
    · cases hsilent _ ho
  · intro c hc
    rw [Due, htaken]
    exact (hx.deletion c hc).imp_left fun hc => hclears.deletion (hdeletion ▸ hc)
  · intro found command arguments output ho c hc
    rcases List.mem_append.mp ho with ho | ho
    · cases hx.offTool _ ho
    · rcases List.mem_append.mp ho with ho | ho
      · cases (hidle _ ho).2
      · exact .inl (hminds _ ho hc)
  · intro _ a ha hpart hnot
    rw [htaken] at hnot
    obtain ⟨p, hp, hall⟩ := hreading.wholes a ha hpart
    refine ⟨p, hp, fun n hn => ?_⟩
    obtain ⟨b, hb, hkey, hnumber, row, hrow, hb'⟩ := hall n hn
    refine ⟨b, hb, hkey, hnumber, row, hx.kept row hrow fun m hm heq => hnot ?_, hb'⟩
    have hmem : m ∈ v.queues.inbound := by
      rw [← hx.offered]
      exact List.mem_reverse.mp ((taken_sublist os').subset hm)
    have hsame : m.key = a.key := heq.trans ((ofPart_eq_ok hb').key.trans (hkey.trans hp.key.symm))
    obtain rfl := hreadied.eq_of_key hms hseen ha hpart hmem hsame
    exact hm

/-- A reception offers every message that it has made ready. -/
theorem ensures_receivePhase_offered (hms : Payload ms) (hseen : Record.messages records ⊆ ms)
    (hreadable : ∀ record ∈ records, ∃ m, Record.message record = .ok m) (hnodup : (Record.messages records).Nodup)
    (hw : Tables ms w.outside) (hempty : w.queues.inbound = []) (hv : Clears w v ∧ v.outside = w.outside) :
    Ensures (Application.selective records) receivePhase v
      (fun _ u => ∃ ready os, Offered ms (Record.messages records) w ready os u)
      (fun _ u => ∃ ready os, Offered ms (Record.messages records) w ready os u) := by
  apply Phase.ensures_receivePhase
    (fun shown u => shown = records ∧ Clears w u ∧ u.outside = w.outside)
    (Taken ms (Record.messages records) w)
  case nothing =>
    intro cs s output hne ⟨_, houtput, _⟩
    exact absurd (houtput rfl) (hne records)
  case shown =>
    intro cs s shown ⟨_, houtput, hs⟩
    obtain rfl : s = v.outside := hs
    cases houtput rfl
    refine ⟨rfl, hv.1.trans (clears_answered v cs fun found hfound => hfound ▸ fun _ => id), ?_⟩
    exact hv.2
  case taken =>
    intro shown u ⟨hshown, hclears, houtside⟩
    subst hshown
    have hread : Ensures (Application.selective shown) (shown.foldlM receiveRecord []) u
        (Reading ms u (Record.messages shown)) never :=
      ensures_receiveRecords_reading hms ?_ (houtside ▸ hw) (hclears.inbound.trans hempty)
    · have hidle := (asks_receiveRecords shown []).keeps (E := Application.selective (κ := κ) shown)
        (I := fun x => x.queues.deletion = u.queues.deletion ∧ ∃ os, x.history = os ++ u.history ∧ Idle os) ?_ u
        ⟨rfl, [], rfl, List.forall_mem_nil _⟩
      · refine (hread.and hidle).mono ?_ fun _ _ h => h.1.elim
        intro completed x ⟨hx, hdeletion, os, hos, hos'⟩
        exact ⟨u, completed, os, hclears, houtside, hx, hdeletion, hos, hos'⟩
      · intro q hq x r y h ⟨hdeletion, os, hos, hidle⟩
        obtain ⟨hdeletion', os', hos', hidle'⟩ := idle_answers hq h
        exact ⟨hdeletion'.trans hdeletion, os' ++ os, by rw [hos', hos, List.append_assoc], hidle'.append hidle⟩
    · intro record hrecord
      obtain ⟨m, hm⟩ := hreadable record hrecord
      exact ⟨m, hseen (Record.mem_messages.mpr ⟨record, hrecord, hm⟩), hm⟩
  case logged =>
    intro e x ⟨u, completed, os, hclears, houtside, hx, hdeletion, hos, hidle⟩
    refine ⟨u, completed, .logged e :: os, hclears, houtside, hx.stored (stored_note hx.tables _), hdeletion,
      congrArg _ hos, List.forall_mem_cons.mpr ⟨⟨rfl, rfl⟩, hidle⟩⟩
  case delivered =>
    intro x hx
    exact (hx.delivered hms hseen hnodup).mono (fun _ _ => id) nofun

/-- A cycle comes to a report where nothing is cancelled. -/
theorem ensures_runCycle_reported {σ : Type} {E : Surroundings κ σ} (hE : E.Contained) {I I' : World κ σ → Prop}
    (hI : ∀ e w, I w → I (w.note (.logged e))) (hI' : ∀ e w, I' w → I' (w.note (.logged e))) {config : Config}
    {w : World κ σ} (transmit : Ensures E (transmitPhase config.transmitBatch) w (fun _ => I) (fun _ => I))
    (receive : ∀ v, I v → Ensures E receivePhase v (fun _ => I') (fun _ => I'))
    (delete : ∀ v, I' v → Ensures E (deletePhase config.deleteBatch) v (fun _ => I') (fun _ => I')) :
    Ensures E (runCycle config) w (fun _ => I') never := by
  have htransmit : Ensures E (transmitPhase config.transmitBatch) w (fun _ _ => True)
      (fun f _ => f.isCancellation = false) := by
    rw [transmitPhase_eq]
    exact (ensures_workThrough hE TransmitResult.ordinary_ofOutput (completes_afterSending hE) asks_afterSending w).mono
      (fun _ _ _ => trivial) fun _ _ h => h.1
  have hdelete : ∀ v, Ensures E (deletePhase config.deleteBatch) v (fun _ _ => True)
      (fun f _ => f.isCancellation = false) := by
    intro v
    rw [deletePhase_eq]
    exact (ensures_workThrough hE DeletionReport.ordinary_ofOutput (completes_afterErasing hE) asks_afterErasing v).mono
      (fun _ _ _ => trivial) fun _ _ h => h.1
  have hreported : ∀ {name p J v}, Ensures E p v (fun _ => J) (fun _ => J) →
      Ensures E p v (fun _ _ => True) (fun f _ => f.isCancellation = false) → (∀ e u, J u → J (u.note (.logged e))) →
      Ensures E (runPhase name p) v (fun _ => J) never := by
    intro name p J v hkeeps hfault hJ
    refine ensures_runPhase ((hkeeps.and hfault).mono (fun _ _ h => h.1) ?_) fun _ => hJ
    exact fun f u h => ⟨h.2, h.1⟩
  unfold runCycle
  refine (hreported transmit htransmit hI).bind fun t v hv => ?_
  refine (hreported (receive v hv) ?_ hI').bind fun r v hv => ?_
  · exact (ensures_receivePhase_received hE v).mono (fun _ _ _ => trivial) fun _ _ h => h.1
  · refine (hreported (delete v hv) (hdelete v) hI').bind fun d v hv => ?_
    dsimp only
    split
    · exact ensures_log_bind (ensures_pure (hI' _ v hv))
    · exact ensures_pure hv

/-- A cycle offers every message that it has made ready, and comes to a report. -/
theorem ensures_runCycle_offered (config : Config) (hms : Payload ms) (hseen : Record.messages records ⊆ ms)
    (hreadable : ∀ record ∈ records, ∃ m, Record.message record = .ok m) (hnodup : (Record.messages records).Nodup)
    (hw : Tables ms w.outside) (hempty : w.queues.inbound = []) :
    Ensures (Application.selective records) (runCycle config) w
      (fun _ u => ∃ ready os, Offered ms (Record.messages records) w ready os u) never := by
  have hclears : ∀ {v u}, (∃ ready os, Offered ms (Record.messages records) w ready os v) → Clears v u →
      ∃ ready os, Offered ms (Record.messages records) w ready os u := by
    intro v u ⟨ready, os, hv⟩ hu
    exact ⟨ready, hv.clears hms hseen hu⟩
  apply ensures_runCycle_reported contained_selective (I := fun v => Clears w v ∧ v.outside = w.outside)
  · exact fun e v hv => ⟨hv.1.trans (clears_note trivial), hv.2⟩
  · exact fun e v hv => hclears hv (clears_note trivial)
  · exact keeps_transmitPhase_clears config.transmitBatch w w ⟨.refl w, rfl⟩
  · exact fun v hv => ensures_receivePhase_offered hms hseen hreadable hnodup hw hempty hv
  · intro v hv
    refine (ensures_deletePhase_clears config.deleteBatch v).mono ?_ ?_
    · exact fun _ u hu => hclears hv hu
    · exact fun _ u hu => hclears hv hu

/-! ## Two cycles -/

theorem Application.responsive_selective (records : List Value) : (selective (κ := κ) records).Responsive where
  modem s command arguments := ⟨.ok (.list records), s, ordinary_ok _, fun _ => rfl, rfl⟩
  request s r := by
    cases r with
    | receive m => exact ⟨.ok .nothing, s, ordinary_ok _, .inl rfl⟩
    | transmit m t => exact ⟨.ok .nothing, s, ordinary_ok _, rfl⟩
    | receiveSegment m => exact ⟨_, _, "", rfl⟩
    | returnSegments key => exact ⟨_, _, "", rfl⟩
  notify s n := ⟨_, _, rfl, rfl⟩
  callback s k m t := ⟨_, _, rfl, rfl⟩

/-- What a message that has been refused comes back as. -/
structure Returns (shown : List Message) (m again : Message) : Prop where
  key : again.key = m.key
  text : again.text = m.text
  locations : again.locations = m.locations
  single : m.isPart = false → again = m
  /-- A composite has the sender of the first of its parts that is shown. -/
  first : m.isPart = true → ∃ p, shown.find? (·.key = m.key) = some p ∧ again.sender = p.sender

/-- A message that a cycle has not accepted is ready once more when the same records are read again. -/
theorem Offered.again {shown ready' : List Message} (h : Offered ms seen w ready os v) (hms : Payload ms)
    (hseen : seen ⊆ ms) (hclear : ∀ c ∈ w.queues.deletion, ∀ b ∈ ms, c.location ≠ b.location)
    (h' : Readied ms shown v.outside ready') (hshown : shown.Perm ms) (hm : m ∈ ready) (hnot : m ∉ taken os) :
    ∃ again, ready'.filter (fun a => ∃ l ∈ a.locations, l ∈ m.locations) = [again] ∧ Returns shown m again := by
  have hnodup : shown.Nodup := hshown.nodup_iff.mpr hms.nodup
  have hmeets : ∀ {again}, again ∈ ready' → again.locations = m.locations →
      ready'.filter (fun a => ∃ l ∈ a.locations, l ∈ m.locations) = [again] :=
    fun hmem hl => h'.filter_meets hms hshown.subset hnodup hmem hl
  cases hpart : m.isPart with
  | false =>
    have hmem : m ∈ shown.filter (!·.isPart) :=
      List.mem_filter.mpr ⟨hshown.mem_iff.mpr (hseen (h.readied.mem_seen hm hpart)), by simp [hpart]⟩
    rw [← h'.singles] at hmem
    refine ⟨m, hmeets (List.mem_filter.mp hmem).1 rfl, rfl, rfl, rfl, fun _ => rfl, fun heq => ?_⟩
    rw [hpart] at heq
    cases heq
  | true =>
    obtain ⟨p, hp, hall⟩ := h.held hclear m hm hpart hnot
    have hfirst := h'.first p hp.mem hp.isPart hall
    obtain ⟨q, hq⟩ : ∃ q, shown.find? (·.key = p.key) = some q := by
      rw [← Option.isSome_iff_exists, List.find?_isSome]
      exact ⟨p, hshown.mem_iff.mpr hp.mem, by simp⟩
    rw [hq] at hfirst
    obtain ⟨again, hagain, hsender⟩ := List.map_eq_singleton_iff.mp hfirst
    have hmem : again ∈ (ready'.filter (·.isPart)).filter (·.key = p.key) := by
      rw [hagain]
      exact List.mem_singleton_self again
    obtain ⟨hmem, hkey⟩ := List.mem_filter.mp hmem
    obtain ⟨hmem, hmany⟩ := List.mem_filter.mp hmem
    obtain ⟨p', hp'⟩ := h'.wholes again hmem hmany
    have hsame : again.key = m.key := (of_decide_eq_true hkey).trans hp.key.symm
    obtain ⟨htext, hlocations⟩ := hp'.same hp hms hsame
    refine ⟨again, hmeets hmem hlocations, hsame, htext, hlocations, fun heq => ?_, fun _ => ⟨q, ?_, hsender⟩⟩
    · rw [hpart] at heq
      cases heq
    · rw [hp.key]
      exact hq

/-- The device shows messages from different places, and of each group every part at most once. Whatever the
application refuses, no candidate is queued from a place of a message that has been refused, neither while the
modem tool runs nor after the cycle, and no message waits to be offered. When the device shows the same records
again in the next cycle, in any order, the message is offered again: once, with its key, its text and its places.
A single message comes back as it was; a composite with the sender of the first of its parts that is shown, and
so with its own if all parts have the same. -/
theorem refused_offered_again {config : Config} {records : List Value} {w : World κ Store}
    (hreadable : ∀ record ∈ records, ∃ m, Record.message record = .ok m) (hms : Payload (Record.messages records))
    (hready : w.outside.ready = true) (hsegments : w.outside.segments = []) (hinbound : w.queues.inbound = [])
    (hclear : ∀ c ∈ w.queues.deletion, ∀ b ∈ Record.messages records, c.location ≠ b.location) :
    (∃ r v, (runCycle config).Runs (Application.selective records) w r v) ∧
    ∀ r v, (runCycle config).Runs (Application.selective records) w r v →
      (∃ report, r = .ok report) ∧ v.queues.inbound = [] ∧
      ∃ newer, v.history = newer ++ w.history ∧ ∀ m f, .request (.receive m) (.error f) ∈ newer →
        (∀ c ∈ v.queues.deletion, c.location ∉ m.locations) ∧
        (∀ found command arguments output, .modem found command arguments output ∈ newer →
          ∀ c ∈ found.deletion, c.location ∉ m.locations) ∧
        ∀ records' cs, records'.Perm records →
          (∃ r' u, (runCycle config).Runs (Application.selective records') (v.sendAll cs) r' u) ∧
          ∀ r' u, (runCycle config).Runs (Application.selective records') (v.sendAll cs) r' u →
            ∃ newer' again, u.history = newer' ++ (v.sendAll cs).history ∧
              (offered newer').filter (fun a => ∃ l ∈ a.locations, l ∈ m.locations) = [again] ∧
              Returns (Record.messages records') m again ∧
              ((∀ b ∈ Record.messages records, b.key = m.key → b.sender = m.sender) → again.sender = m.sender) := by
  refine ⟨(Application.responsive_selective records).runs _ w, fun r v hr => ?_⟩
  have htables : Tables (Record.messages records) w.outside := ⟨hready, by simp [hsegments]⟩
  have hcycle := ensures_runCycle_offered config hms (List.Subset.refl _) hreadable hms.nodup htables hinbound
  cases r with
  | error f => exact (hcycle.fault hr).elim
  | ok report =>
    obtain ⟨ready, os, h⟩ := hcycle.result hr
    refine ⟨⟨report, rfl⟩, h.inbound, os, h.history, fun m f hm => ?_⟩
    have hmem : m ∈ ready := h.offered ▸ mem_offered_iff.mpr ⟨_, hm⟩
    have hnot := h.refused m f hm
    have hdue : ∀ {c}, Due w os c → c.location ∉ m.locations := h.not_due hms (List.Subset.refl _) hclear hmem hnot
    refine ⟨fun c hc => hdue (h.deletion c hc), fun found command arguments output ho c hc =>
      hdue (h.found found command arguments output ho c hc), fun records' cs hperm => ?_⟩
    refine ⟨(Application.responsive_selective records').runs _ _, fun r' u hr' => ?_⟩
    have hshown : (Record.messages records').Perm (Record.messages records) := hperm.filterMap _
    have hcycle' := ensures_runCycle_offered config (w := v.sendAll cs) hms hshown.subset
      (fun record hrecord => hreadable record (hperm.subset hrecord)) (hshown.nodup_iff.mpr hms.nodup)
      (World.outside_sendAll cs v ▸ h.tables) ((World.inbound_sendAll cs v).trans h.inbound)
    cases r' with
    | error f' => exact (hcycle'.fault hr').elim
    | ok report' =>
      obtain ⟨ready', os', h'⟩ := hcycle'.result hr'
      obtain ⟨again, hagain, hreturns⟩ := h.again hms (List.Subset.refl _) hclear
        (World.outside_sendAll cs v ▸ h'.readied) hshown hmem hnot
      refine ⟨os', again, h'.history, h'.offered ▸ hagain, hreturns, fun huniform => ?_⟩
      cases hpart : m.isPart with
      | false => rw [hreturns.single hpart]
      | true =>
        obtain ⟨p, hp, hsender⟩ := hreturns.first hpart
        have hkey := List.find?_some hp
        rw [hsender]
        exact huniform p (hshown.subset (List.mem_of_find?_eq_some hp)) (of_decide_eq_true hkey)

/-- Rows in the order of their parts. Up to two of them are compared by hand, as sorting does not reduce. -/
def inOrder : List Segment → List Segment
  | [] => []
  | [a] => [a]
  | [a, b] => if a.part.le b.part then [a, b] else [b, a]
  | rows => rows.mergeSort fun a b => a.part.le b.part

theorem inOrder_eq (rows : List Segment) : inOrder rows = rows.mergeSort fun a b => a.part.le b.part := by
  unfold inOrder
  split <;> simp [List.mergeSort, List.merge]

/-- A device that shows the records, and an application that refuses every message. -/
def obstinate (records : List Value) : Replies Unit Store where
  modem s _ _ := (.ok (.list records), [], s)
  request s r :=
    match r with
    | .receive _ => (.error .typeMismatch, [], s)
    | .transmit .. => (.ok .nothing, [], s)
    | .receiveSegment m => ((Application.reply (κ := Unit) "" s (.receiveSegment m)).1, [],
        (Application.reply (κ := Unit) "" s (.receiveSegment m)).2)
    | .returnSegments key => ((do
        s.require "segments"
        let _ ← Cell.ofText key
        let ms ← (inOrder (s.segments.filter (·.key = key))).mapM Segment.message
        return .items (ms.map .message)), [], s)
  notify s n := ([], Application.noted s n)

theorem obstinate_allowed (records : List Value) : (obstinate records).Allowed (Application.selective records) where
  modem s command arguments := ⟨ordinary_ok _, fun _ => rfl, rfl⟩
  request s r := by
    cases r with
    | receive m => exact ⟨ordinary_error rfl, .inl rfl⟩
    | transmit m t => exact ⟨ordinary_ok _, rfl⟩
    | receiveSegment m => exact ⟨"", rfl⟩
    | returnSegments key =>
      refine ⟨"", ?_⟩
      rw [Application.reply_returnSegments]
      refine Prod.ext ?_ rfl
      simp only [obstinate, Store.loadSegments, group, inOrder_eq, Cell.ofValue_text]
      cases s.require "segments" with
      | error f => rfl
      | ok u =>
        cases hkey : Cell.ofText key with
        | error f => rfl
        | ok c =>
          obtain ⟨-, rfl⟩ := Cell.ofText_eq_ok.mp hkey
          rfl
  notify s n := ⟨rfl, rfl⟩
  callback s k m t := ⟨rfl, rfl⟩

/-- The world after a cycle in which every message has been refused. -/
def afterRefusing (records : List Value) (w : World Unit Store) : World Unit Store :=
  ((obstinate records).run (runCycle {}) w).2

theorem runs_afterRefusing (records : List Value) (w : World Unit Store) :
    (runCycle {}).Runs (Application.selective records) w ((obstinate records).run (runCycle {}) w).1
      (afterRefusing records w) := Replies.runs_run (obstinate_allowed records) _ w

def fresh : World Unit Store := { outside := ({} : Store).initialise }

/-- A single message between the two parts of another. -/
def harbourRecords : List Value :=
  [.object [("from", .text "+1"), ("location", .int 4), ("content", .text "bour"), ("total-segments", .int 2),
      ("segment", .int 2), ("udh", .int 7)],
    .object [("from", .text "+2"), ("location", .int 5), ("content", .text "quay")],
    .object [("from", .text "+1"), ("location", .int 6), ("content", .text "har"), ("total-segments", .int 2),
      ("segment", .int 1), ("udh", .int 7)]]

theorem readable_harbourRecords : ∀ record ∈ harbourRecords, ∃ m, Record.message record = .ok m := by
  simp only [harbourRecords, List.forall_mem_cons, List.not_mem_nil, false_imp_iff, implies_true, and_true]
  exact ⟨⟨_, rfl⟩, ⟨_, rfl⟩, ⟨_, rfl⟩⟩

theorem payload_harbourRecords : Payload (Record.messages harbourRecords) where
  described m hm := by
    obtain ⟨record, -, hrecord⟩ := Record.mem_messages.mp hm
    exact ⟨record, hrecord⟩
  places := by decide +kernel
  numbered := by decide +kernel
  parts := by decide +kernel

/-- The message that the two parts make up. -/
def harbour : Message :=
  let part (n l : Int) (text : String) : Message :=
    { sender := "+1", text, location := l, total := 2, part := n, header := .int 7 }
  { part 1 6 "harbour" with parts := [part 1 6 "har", part 2 4 "bour"] }

/-- Everything is refused; in the next cycle the device shows the same records the other way round, and the message is
offered again. -/
theorem refused_offered_again_harbour : ∃ (v u : World Unit Store) (again : Message) (f : Fault)
    (newer' : List (Occurrence Unit)),
    (∃ r, (runCycle {}).Runs (Application.selective harbourRecords) fresh r v) ∧
    (∃ r, (runCycle {}).Runs (Application.selective harbourRecords.reverse) v r u) ∧
    .request (.receive harbour) (.error f) ∈ v.history ∧ u.history = newer' ++ v.history ∧
    (offered newer').filter (fun a => ∃ l ∈ a.locations, l ∈ harbour.locations) = [again] ∧
    Returns (Record.messages harbourRecords.reverse) harbour again := by
  have hrun := runs_afterRefusing harbourRecords fresh
  have hrun' := runs_afterRefusing harbourRecords.reverse (afterRefusing harbourRecords fresh)
  obtain ⟨-, -, newer, hnewer, hrefused⟩ := (refused_offered_again readable_harbourRecords payload_harbourRecords rfl rfl
    rfl (by simp [fresh])).2 _ _ hrun
  have hhistory : (afterRefusing harbourRecords fresh).history = newer := hnewer.trans (List.append_nil _)
  have hoffered : offered (afterRefusing harbourRecords fresh).history =
      [{ sender := "+2", text := "quay", location := 5 }, harbour] := by rfl
  have htaken : taken (afterRefusing harbourRecords fresh).history = [] := by rfl
  have hrefusal : ∃ f, .request (.receive harbour) (.error f) ∈ (afterRefusing harbourRecords fresh).history :=
    refused_of_notMem_taken (by simp [hoffered]) (by simp [htaken])
  obtain ⟨f, hm⟩ := hrefusal
  obtain ⟨-, -, hnext⟩ := hrefused _ _ (hhistory ▸ hm)
  obtain ⟨newer', again, hnewer', hagain, hreturns, -⟩ := (hnext _ [] (List.reverse_perm _)).2 _ _ hrun'
  exact ⟨_, _, again, _, newer', ⟨_, hrun⟩, ⟨_, hrun'⟩, hm, hnewer', hagain, hreturns⟩

/-- Two parts with one key from different senders: the hyphen of the key may belong to the sender or to the header. -/
def hyphenRecords : List Value :=
  [.object [("from", .text "a-"), ("location", .int 1), ("content", .text "x"), ("total-segments", .int 2),
      ("segment", .int 1), ("udh", .int 1)],
    .object [("from", .text "a"), ("location", .int 2), ("content", .text "y"), ("total-segments", .int 2),
      ("segment", .int 2), ("udh", .int (-1))]]

/-- What the two parts make up, if the one from the given sender completes it. -/
def hyphenated (sender : String) (header : Int) : Message :=
  { sender, text := "xy", location := 1, total := 2, header := .int header, parts :=
    [{ sender := "a-", text := "x", location := 1, total := 2, part := 1, header := .int 1 },
      { sender := "a", text := "y", location := 2, total := 2, part := 2, header := .int (-1) }] }

/-- A composite that has been refused may come back with another sender, if parts from other senders have its key. -/
theorem refused_from_other_sender : ∃ (v u : World Unit Store) (f : Fault),
    (∀ record ∈ hyphenRecords, ∃ m, Record.message record = .ok m) ∧ Payload (Record.messages hyphenRecords) ∧
    (∃ r, (runCycle {}).Runs (Application.selective hyphenRecords) fresh r v) ∧
    (∃ r, (runCycle {}).Runs (Application.selective hyphenRecords) v r u) ∧
    .request (.receive (hyphenated "a" (-1))) (.error f) ∈ v.history ∧
    offered u.history = [hyphenated "a" (-1), hyphenated "a-" 1] ∧
    (hyphenated "a-" 1).key = (hyphenated "a" (-1)).key ∧
    (hyphenated "a-" 1).locations = (hyphenated "a" (-1)).locations ∧
    (hyphenated "a-" 1).sender ≠ (hyphenated "a" (-1)).sender := by
  have hreadable : ∀ record ∈ hyphenRecords, ∃ m, Record.message record = .ok m := by
    simp only [hyphenRecords, List.forall_mem_cons, List.not_mem_nil, false_imp_iff, implies_true, and_true]
    exact ⟨⟨_, rfl⟩, ⟨_, rfl⟩⟩
  have hpayload : Payload (Record.messages hyphenRecords) := by
    refine ⟨fun m hm => ?_, by decide +kernel, by decide +kernel, by decide +kernel⟩
    obtain ⟨record, -, hrecord⟩ := Record.mem_messages.mp hm
    exact ⟨record, hrecord⟩
  have hoffered : offered (afterRefusing hyphenRecords fresh).history = [hyphenated "a" (-1)] := by rfl
  have htaken : taken (afterRefusing hyphenRecords fresh).history = [] := by rfl
  have hrefusal : ∃ f, .request (.receive (hyphenated "a" (-1))) (.error f) ∈
      (afterRefusing hyphenRecords fresh).history := refused_of_notMem_taken (by simp [hoffered]) (by simp [htaken])
  obtain ⟨f, hm⟩ := hrefusal
  have hagain : offered (afterRefusing hyphenRecords (afterRefusing hyphenRecords fresh)).history =
      [hyphenated "a" (-1), hyphenated "a-" 1] := by rfl
  exact ⟨_, _, f, hreadable, hpayload, ⟨_, runs_afterRefusing _ _⟩, ⟨_, runs_afterRefusing _ _⟩, hm, hagain, rfl, rfl,
    by decide⟩

end

end SmsRelay
