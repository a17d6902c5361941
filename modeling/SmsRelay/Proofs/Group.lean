-- SUMMARY: A message in several parts, and what the store holds of it while they come in.
import Mathlib.Data.List.Nodup
import SmsRelay.Proofs.Handlers
import SmsRelay.Proofs.Parts

/-!
# Groups of parts

A message that comes in several parts, and what the store holds of it while it
comes in. Other messages may come and go at other places meanwhile.
-/

namespace SmsRelay

/-- A message in several parts: one copy of each part, in order, all under one key. -/
structure Group where
  key : String
  parts : List Message
  several : 2 ≤ parts.length
  numbered : parts.map Message.part = Message.numbers parts.length
  uniform : ∀ m ∈ parts, m.key = key ∧ m.total = parts.length ∧ m.Storable

namespace Group

open Message Store

variable (g : Group)

/-- The places of the parts on the device. -/
def locations : List Int := g.parts.map Message.location

/-- The text of the whole message. -/
def text : String := String.join (g.parts.map Message.text)

/-- The message has nothing to do with the group, and is at other places. -/
structure Apart (m : Message) : Prop where
  key : m.key ≠ g.key
  locations : ∀ l ∈ m.locations, l ∉ g.locations

/-- The message is made up of the parts of the group. -/
structure MakesUp (whole : Message) : Prop where
  key : whole.key = g.key
  text : whole.text = g.text
  locations : whole.locations = g.locations
  total : whole.total = g.parts.length

variable {g}

section

variable {a b m : Message}

theorem eq_of_part (ha : a ∈ g.parts) (hb : b ∈ g.parts) (h : a.part = b.part) : a = b := by
  have hnodup : (g.parts.map Message.part).Nodup := by
    rw [g.numbered]
    exact (pairwise_numbers _).imp fun h => Int.ne_of_lt h
  exact List.inj_on_of_nodup_map hnodup ha hb h

theorem part_mem_numbers (hm : m ∈ g.parts) : m.part ∈ numbers g.parts.length := by
  rw [← g.numbered]
  exact List.mem_map_of_mem hm

theorem isPart_of_mem (hm : m ∈ g.parts) : m.isPart = true := by
  have htotal := (g.uniform m hm).2.1
  have hseveral := g.several
  rw [isPart_iff]
  omega

theorem isPart_of_makesUp (h : g.MakesUp m) : m.isPart = true := by
  have htotal := h.total
  have hseveral := g.several
  rw [isPart_iff]
  omega

theorem isWhole_key (g : Group) : Text.isWhole g.key = true := by
  have hseveral := g.several
  obtain ⟨a, ha⟩ := List.exists_mem_of_length_pos (l := g.parts) (by omega)
  obtain ⟨hkey, -, hstorable⟩ := g.uniform a ha
  exact hkey ▸ hstorable.isWhole_key

theorem isWhole_text (g : Group) : Text.isWhole g.text = true := by
  refine Text.isWhole_join fun s hs => ?_
  obtain ⟨a, ha, rfl⟩ := List.mem_map.mp hs
  exact (g.uniform a ha).2.2.text

theorem fits_total_of_makesUp (h : g.MakesUp m) : Cell.fits m.total = true := by
  have hseveral := g.several
  obtain ⟨a, ha⟩ := List.exists_mem_of_length_pos (l := g.parts) (by omega)
  obtain ⟨-, htotal, hstorable⟩ := g.uniform a ha
  rw [h.total, ← htotal]
  exact hstorable.total

/-- What is made up of parts that can be stored can be entered into the inbox. -/
theorem isEnterable_of_makesUp (h : g.MakesUp m) : m.isEnterable = true := by
  have hkey : Text.isWhole m.key = true := h.key ▸ g.isWhole_key
  have htext : Text.isWhole m.text = true := h.text ▸ g.isWhole_text
  rw [isEnterable, fits_total_of_makesUp h, isWhole_of_isWhole_groupKey hkey, htext, hkey, Bool.or_true]
  rfl

end

/-! ## Putting the parts together -/

section

variable {m : Message} {stored : List Message} {P : Message → Prop}

/-- The stored parts are those parts of the group that have come. -/
def Stores (g : Group) (P : Message → Prop) (stored : List Message) : Prop :=
  ∀ a, a ∈ stored ↔ ∃ b ∈ g.parts, P b ∧ a = b.reread

/-- Each copy at hand is one of a part of the group. -/
theorem exists_copy (h : Stores g P stored) (hm : m ∈ g.parts) {a : Message} (ha : a ∈ stored ++ [m]) :
    ∃ b ∈ g.parts, a.part = b.part ∧ a.text = b.text ∧ a.location = b.location := by
  rcases List.mem_append.mp ha with ha | ha
  · obtain ⟨b, hb, -, rfl⟩ := (h a).mp ha
    exact ⟨b, hb, rfl, rfl, rfl⟩
  · obtain rfl := List.mem_singleton.mp ha
    exact ⟨a, hm, rfl, rfl, rfl⟩

theorem reassemble_of_missing (h : Stores g P stored) (hm : m ∈ g.parts) {b : Message} (hb : b ∈ g.parts)
    (hne : b ≠ m) (hP : ¬ P b) : m.reassemble stored = none := by
  refine reassemble_eq_none (g.uniform m hm).2.1 ?_ (part_mem_numbers hb) ?_
  · intro a ha
    obtain ⟨c, hc, hpart, -⟩ := exists_copy h hm ha
    rw [hpart]
    exact part_mem_numbers hc
  · intro hpart
    obtain ⟨a, ha, hab⟩ := List.mem_map.mp hpart
    rcases List.mem_append.mp ha with ha | ha
    · obtain ⟨c, hc, hPc, rfl⟩ := (h a).mp ha
      obtain rfl := eq_of_part hc hb hab
      exact hP hPc
    · obtain rfl := List.mem_singleton.mp ha
      exact hne (eq_of_part hb hm hab.symm)

/-- Lists of copies with the same numbers agree in what the copies agree in. -/
theorem map_eq_of_map_part {β : Type} (f : Message → β) {ps : List Message}
    (hpart : ps.map Message.part = g.parts.map Message.part)
    (hcopy : ∀ a ∈ ps, ∃ b ∈ g.parts, a.part = b.part ∧ f a = f b) : ps.map f = g.parts.map f := by
  refine Message.map_congr_of_map_part f hpart fun a ha c hc hac => ?_
  obtain ⟨b, hb, hab, hf⟩ := hcopy a ha
  rw [hf, eq_of_part hb hc (hab.symm.trans hac)]

theorem reassemble_of_all (h : Stores g P stored) (hm : m ∈ g.parts) (hall : ∀ b ∈ g.parts, P b ∨ b = m) :
    ∃ whole, m.reassemble stored = some whole ∧ g.MakesUp whole := by
  obtain ⟨hkey, htotal, -⟩ := g.uniform m hm
  have hnumbers : ∀ p, p ∈ (stored ++ [m]).map Message.part ↔ p ∈ numbers g.parts.length := by
    intro p
    constructor
    · intro hp
      obtain ⟨a, ha, rfl⟩ := List.mem_map.mp hp
      obtain ⟨b, hb, hpart, -⟩ := exists_copy h hm ha
      rw [hpart]
      exact part_mem_numbers hb
    · intro hp
      rw [← g.numbered] at hp
      obtain ⟨b, hb, rfl⟩ := List.mem_map.mp hp
      refine List.mem_map.mpr ?_
      rcases hall b hb with hP | rfl
      · exact ⟨b.reread, List.mem_append_left _ ((h _).mpr ⟨b, hb, hP, rfl⟩), rfl⟩
      · exact ⟨b, by simp, rfl⟩
  obtain ⟨first, parts, hsome, hpart, hne, hmem⟩ := reassemble_eq_some htotal hnumbers
  rw [← g.numbered] at hpart
  refine ⟨_, hsome, hkey, ?_, ?_, htotal⟩
  · refine congrArg String.join (map_eq_of_map_part _ hpart fun a ha => ?_)
    obtain ⟨b, hb, hab, htext, -⟩ := exists_copy h hm (hmem a ha)
    exact ⟨b, hb, hab, htext⟩
  · rw [locations_of_parts_ne_nil hne]
    refine map_eq_of_map_part _ hpart fun a ha => ?_
    obtain ⟨b, hb, hab, -, hlocation⟩ := exists_copy h hm (hmem a ha)
    exact ⟨b, hb, hab, hlocation⟩

end

/-! ## The store while the parts come in -/

/-- The store is in use, and what it keeps of other groups is at other places. -/
structure Clear (g : Group) (s : Store) : Prop where
  ready : s.ready = true
  others : ∀ r ∈ s.segments, r.key ≠ g.key → ∃ l, r.location = .int l ∧ l ∉ g.locations

/-- Of the parts of the group the store keeps those of which `P` holds. -/
def Holds (g : Group) (P : Message → Prop) (s : Store) : Prop :=
  ∃ seen : List Message, s.segments.filter (·.key = g.key) = seen.map Segment.of ∧
    ∀ m, m ∈ seen ↔ m ∈ g.parts ∧ P m

/-- The row of the inbox is of a message from a place of the group. -/
def mentions (g : Group) (row : Received) : Bool :=
  row.locations.any fun
    | .int l => g.locations.contains l
    | _ => false

section

variable {P : Message → Prop} {s : Store} {row : Segment} {m : Message}

theorem holds_congr {Q : Message → Prop} (h : Holds g P s) (hPQ : ∀ a ∈ g.parts, P a ↔ Q a) : Holds g Q s := by
  obtain ⟨seen, hrows, hseen⟩ := h
  refine ⟨seen, hrows, fun a => ?_⟩
  rw [hseen]
  exact and_congr_right fun ha => hPQ a ha

theorem Clear.upsert (h : Clear g s) (hrow : row.key ≠ g.key → ∃ l, row.location = .int l ∧ l ∉ g.locations) :
    Clear g { s with segments := upsert row s.segments } := by
  refine ⟨h.ready, fun r hr hkey => ?_⟩
  rcases of_mem_upsert hr with hr | ⟨hk, hl⟩
  · exact h.others r hr hkey
  · rw [hl]
    exact hrow (hk ▸ hkey)

theorem Clear.filter (h : Clear g s) (p : Segment → Bool) (inbox : List Received) :
    Clear g { s with segments := s.segments.filter p, inbox } :=
  ⟨h.ready, fun r hr => h.others r (List.mem_of_mem_filter hr)⟩

theorem Holds.upsert_other (h : Holds g P s) (hrow : row.key ≠ g.key) :
    Holds g P { s with segments := upsert row s.segments } := by
  obtain ⟨seen, hrows, hseen⟩ := h
  exact ⟨seen, by rw [filter_upsert_of_ne hrow, hrows], hseen⟩

/-- Another part is kept. -/
theorem Holds.upsert (h : Holds g P s) (hm : m ∈ g.parts) :
    Holds g (fun a => P a ∨ a = m) { s with segments := Store.upsert (Segment.of m) s.segments } := by
  obtain ⟨seen, hrows, hseen⟩ := h
  have hkey : (Segment.of m).key = g.key := (g.uniform m hm).1
  have hfilter : (Store.upsert (Segment.of m) s.segments).filter (·.key = g.key) =
      Store.upsert (Segment.of m) (s.segments.filter (·.key = g.key)) := filter_upsert_of_eq hkey
  rw [hrows] at hfilter
  by_cases hmem : m ∈ seen
  · refine ⟨seen, hfilter.trans (upsert_of_mem hmem ?_), fun a => ?_⟩
    · intro a ha _ hpart
      exact eq_of_part ((hseen a).mp ha).1 hm hpart
    · rw [hseen]
      refine and_congr_right fun _ => (or_iff_left_of_imp ?_).symm
      intro heq
      subst heq
      exact ((hseen a).mp hmem).2
  · refine ⟨seen ++ [m], hfilter.trans (upsert_of_new ?_), fun a => ?_⟩
    · intro a ha hpart
      obtain rfl := eq_of_part ((hseen a).mp ha).1 hm hpart
      exact hmem ha
    · rw [List.mem_append, List.mem_singleton, hseen, and_or_left]
      refine or_congr_right ⟨?_, And.right⟩
      intro heq
      subst heq
      exact ⟨hm, rfl⟩

/-- Rows that are dropped for another reason leave the group alone. -/
theorem Holds.filter (h : Holds g P s) {p : Segment → Bool} (inbox : List Received)
    (hp : ∀ a ∈ g.parts, p (Segment.of a) = true) :
    Holds g P { s with segments := s.segments.filter p, inbox } := by
  obtain ⟨seen, hrows, hseen⟩ := h
  refine ⟨seen, ?_, hseen⟩
  simp only
  rw [List.filter_comm, hrows, List.filter_map]
  refine congrArg _ (List.filter_eq_self.mpr fun a ha => ?_)
  exact hp a ((hseen a).mp ha).1

/-- The parts that come back from the store are those that it holds. -/
theorem Holds.loadSegments (hready : s.ready = true) (h : Holds g P s) :
    ∃ stored, s.loadSegments (.text g.key) = .ok stored ∧ Stores g P stored := by
  obtain ⟨seen, hrows, hseen⟩ := h
  obtain ⟨ordered, hperm, hload⟩ := loadSegments_of hready g.isWhole_key hrows
    fun m hm => (g.uniform m ((hseen m).mp hm).1).2.2
  refine ⟨ordered.map Message.reread, hload, fun a => ?_⟩
  constructor
  · intro ha
    obtain ⟨b, hb, rfl⟩ := List.mem_map.mp ha
    obtain ⟨hmem, hP⟩ := (hseen b).mp (hperm.mem_iff.mp hb)
    exact ⟨b, hmem, hP, rfl⟩
  · intro ⟨b, hmem, hP, heq⟩
    subst heq
    exact List.mem_map_of_mem (hperm.mem_iff.mpr ((hseen b).mpr ⟨hmem, hP⟩))

/-- Parts of other groups that come back from the store are from other places. -/
theorem Clear.loadSegments (h : Clear g s) {k : String} (hk : k ≠ g.key) {ms : List Message}
    (hload : s.loadSegments (.text k) = .ok ms) : ∀ a ∈ ms, a.location ∉ g.locations := by
  intro a ha
  obtain ⟨r, hr, rfl, hmessage⟩ := loadSegments_eq_ok hload a ha
  obtain ⟨l, hl, hoff⟩ := h.others r hr hk
  rw [location_of_message hl hmessage]
  exact hoff

/-- What is put together from other places has nothing to do with the group. -/
theorem Apart.reassemble (h : g.Apart m) (hparts : m.parts = []) {stored : List Message}
    (hstored : ∀ a ∈ stored, a.location ∉ g.locations) {whole : Message} (hwhole : m.reassemble stored = some whole) :
    g.Apart whole := by
  obtain ⟨first, parts, rfl, hne, hmem⟩ := eq_compose_of_reassemble hwhole
  refine ⟨h.key, fun l hl => ?_⟩
  rw [locations_of_parts_ne_nil hne] at hl
  obtain ⟨a, ha, rfl⟩ := List.mem_map.mp hl
  rcases List.mem_append.mp (hmem a ha) with ha | ha
  · exact hstored a ha
  · obtain rfl := List.mem_singleton.mp ha
    exact h.locations _ (by simp [locations_of_parts_eq_nil hparts])

/-! ## Delivery into the inbox -/

theorem mentions_of (id : Nat) (now : String) (a : Message) :
    g.mentions (Received.of id now a) = true ↔ ∃ l ∈ a.locations, l ∈ g.locations := by
  simp [mentions, Received.of]

/-- The message that is made up of the parts is taken into the inbox, and the parts wait no longer. -/
theorem reply_receive_of_makesUp {κ : Type} (now : String) (h : Clear g s) (hm : g.MakesUp m) :
    ∃ row s', Application.reply (κ := κ) now s (.receive m) = (.ok .nothing, s') ∧ Clear g s' ∧
      Holds g (fun _ => False) s' ∧ s'.inbox = row :: s.inbox ∧ g.mentions row = true ∧ row.text = g.text ∧
      row.segments = .int g.parts.length ∧ row.locations = g.locations.map Value.int := by
  have hreply := ((Application.reply_receive (κ := κ) now s h.ready m).resolve_right fun hrefused => by
    rw [isEnterable_of_makesUp hm] at hrefused
    cases hrefused.1).2
  rw [isPart_of_makesUp hm] at hreply
  refine ⟨Received.of s.nextId now m, _, hreply, h.filter _ _, ⟨[], ?_, by simp⟩, rfl, ?_, hm.text, ?_, ?_⟩
  · rw [hm.key]
    simp
  · obtain ⟨a, ha⟩ := List.exists_mem_of_length_pos (l := g.parts) (by have := g.several; omega)
    rw [mentions_of, hm.locations]
    exact ⟨a.location, List.mem_map_of_mem ha, List.mem_map_of_mem ha⟩
  · rw [← hm.total]
    rfl
  · rw [← hm.locations]
    rfl

/-! ## Changes that spare the group -/

/-- From one store to the other nothing has changed about the group. -/
structure Spares (g : Group) (s s' : Store) : Prop where
  clear : Clear g s → Clear g s'
  holds {P : Message → Prop} : Holds g P s → Holds g P s'
  inbox : s'.inbox.filter g.mentions = s.inbox.filter g.mentions

theorem Spares.refl (g : Group) (s : Store) : Spares g s s := ⟨id, id, rfl⟩

section

variable {κ : Type} (now : String)

/-- Another message is offered. -/
theorem spares_receive (h : Clear g s) (hm : g.Apart m) :
    Spares g s (Application.reply (κ := κ) now s (.receive m)).2 := by
  obtain ⟨-, hreply⟩ | ⟨-, f, hreply⟩ := Application.reply_receive (κ := κ) now s h.ready m
  · rw [hreply]
    have hmentions : g.mentions (Received.of s.nextId now m) = false := by
      rw [← Bool.not_eq_true, mentions_of]
      intro ⟨l, hl, hmem⟩
      exact hm.locations l hl hmem
    have hinbox : (Received.of s.nextId now m :: s.inbox).filter g.mentions = s.inbox.filter g.mentions := by
      rw [List.filter_cons, hmentions]
      rfl
    cases m.isPart with
    | false => exact ⟨fun h => ⟨h.ready, h.others⟩, fun hP => hP, hinbox⟩
    | true =>
      refine ⟨fun h => h.filter _ _, fun hP => hP.filter _ fun a ha => ?_, hinbox⟩
      rw [Segment.key_of, (g.uniform a ha).1]
      exact decide_eq_true hm.key.symm
  · rw [hreply]
    exact .refl g s

/-- A part of another message is kept. -/
theorem spares_receiveSegment (hkey : m.key ≠ g.key) (hlocation : m.location ∉ g.locations) :
    Spares g s (Application.reply (κ := κ) now s (.receiveSegment m)).2 := by
  rcases Application.store_reply_receiveSegment (κ := κ) now s m with h | ⟨row, h, hrow⟩
  · rw [h]
    exact .refl g s
  · rw [h]
    have hother : row.key ≠ g.key := hrow.key ▸ hkey
    exact ⟨fun hs => hs.upsert fun _ => ⟨_, hrow.location, hlocation⟩, fun hP => hP.upsert_other hother, rfl⟩

/-- Notice is taken of something else than that a place of the group has been erased. -/
theorem spares_noted {n : Gateway.Notice κ} (hn : ∀ c, n = .deleted c → c.location ∉ g.locations) :
    Spares g s (Application.noted s n) := by
  rcases Application.noted_eq s n with h | ⟨c, rfl, h⟩
  · rw [h]
    exact .refl g s
  · rw [h]
    refine ⟨fun hs => hs.filter _ _, fun hP => hP.filter _ fun a ha => ?_, rfl⟩
    have hne : a.location ≠ c.location := by
      intro hl
      exact hn c rfl (hl ▸ List.mem_map_of_mem ha)
    simp [hne]

/-- When nothing of the group is kept any more, notice of any kind changes nothing about it. -/
theorem noted_of_gone (n : Gateway.Notice κ) (h : Clear g s) (hgone : Holds g (fun _ => False) s) :
    Clear g (Application.noted s n) ∧ Holds g (fun _ => False) (Application.noted s n) ∧
      (Application.noted s n).inbox = s.inbox := by
  rcases Application.noted_eq s n with hs | ⟨c, -, hs⟩
  · rw [hs]
    exact ⟨h, hgone, rfl⟩
  · rw [hs]
    obtain ⟨seen, hrows, hseen⟩ := hgone
    obtain rfl : seen = [] := List.eq_nil_iff_forall_not_mem.mpr fun a ha => ((hseen a).mp ha).2
    refine ⟨h.filter _ _, ⟨[], ?_, hseen⟩, rfl⟩
    simp only
    rw [List.filter_comm, hrows]
    rfl

end

end

end Group

end SmsRelay
