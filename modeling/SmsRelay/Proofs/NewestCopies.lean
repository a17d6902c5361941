-- SUMMARY: When the newest copy of a part comes back whole from the store.
import SmsRelay.Proofs.Archive
import SmsRelay.Proofs.GroupKeys
import SmsRelay.Proofs.History

/-!
# The newest copy of a part

What comes back of a part that is kept once more. A row that is there already
takes place, text and timestamp of the new copy; sender, header and service
centre stay those of the first one. So the newest copy comes back whole if it
is the first or agrees with the one before in these three, which the key of the
group does not see to: it says nothing of the service centre, and a missing
header and zero, or sender and header on either side of a sign, may share it.
-/

namespace SmsRelay

/-- Place, part and number of parts are numbers; everything else may be any value. -/
def Message.Unchecked.Numbered (u : Message.Unchecked) : Prop :=
  ∃ location part total : Int, u.location = .int location ∧ u.part = .int part ∧ u.total = .int total

namespace Store

/-- The states of a store after any calls. -/
inductive Reached : Store → Prop
  | fresh : Reached ({} : Store).initialise
  | saveSegment {s s' : Store} {u : Message.Unchecked} (h : Reached s) (hu : u.Numbered)
      (hs : s.saveSegment u = .ok s') : Reached s'
  | forget {s s' : Store} {l : Value} {n : Nat} (h : Reached s) (hs : s.forget l = .ok (n, s')) : Reached s'
  | saveReceived {s s' : Store} {now : String} {u : Message.Unchecked} {id : Nat} (h : Reached s)
      (hs : s.saveReceived now u = .ok (id, s')) : Reached s'

/-! ## Rows that can be read -/

/-- The numbers of the row are numbers, and the key ends in the number of parts. -/
structure Segment.Legible (r : Segment) : Prop where
  part : ∃ n, r.part = .int n
  location : ∃ n, r.location = .int n
  total : ∃ n stem, r.total = .int n ∧ r.key = stem ++ "-" ++ toString n

/-- The number in a cell. -/
def Cell.number : Cell → Int
  | .int n => n
  | _ => 0

/-- The message that a row holds, if its numbers are numbers. -/
def Segment.copy (r : Segment) : Message where
  sender := r.sender
  text := r.text
  location := r.location.number
  timestamp := r.timestamp.bind fun s => Timestamp.Iso.read s.toList
  total := r.total.number
  part := r.part.number
  header := r.header.toValue
  smsc := (r.smsc.map Value.text).getD .null

namespace Segment

variable {r row : Segment}

theorem Legible.message (h : r.Legible) : r.message = .ok r.copy := by
  obtain ⟨⟨part, hpart⟩, ⟨location, hlocation⟩, ⟨total, stem, htotal, -⟩⟩ := h
  simp only [Segment.message, copy, hpart, hlocation, htotal]
  rfl

theorem Legible.refresh (h : r.Legible) (hrow : row.Legible) : (r.refresh row).Legible :=
  ⟨h.part, hrow.location, h.total⟩

theorem legible_ofMessage {u : Message.Unchecked} {timestamp : Option String} (hu : u.Numbered)
    (h : ofMessage timestamp u = .ok row) : row.Legible := by
  obtain ⟨l, p, t, hl, hp, ht⟩ := hu
  rw [ofMessage, hl, hp, ht] at h
  simp only [bind_eq_ok] at h
  obtain ⟨key, -, part, h2, location, h3, sender, -, text, -, header, -, total, h7, smsc, -, h⟩ := h
  obtain ⟨part', hpart, location', hlocation, sender', -, text', -, total', htotal, h⟩ := h
  obtain ⟨-, rfl⟩ := ofValue_int_eq_ok.mp h2
  obtain ⟨-, rfl⟩ := ofValue_int_eq_ok.mp h3
  obtain ⟨-, rfl⟩ := ofValue_int_eq_ok.mp h7
  rw [integerCell_int] at hpart hlocation htotal
  cases hpart
  cases hlocation
  cases htotal
  cases h
  exact ⟨⟨p, rfl⟩, ⟨l, rfl⟩, t, _, rfl, by rw [Message.Unchecked.key, ht, Value.plain_int]⟩

/-- Rows that can be read are for the same part if group and number are the same. -/
theorem Legible.samePart_iff (h : r.Legible) (hrow : row.Legible) :
    r.samePart row = true ↔ r.key = row.key ∧ r.copy.part = row.copy.part := by
  obtain ⟨n, hn⟩ := h.part
  obtain ⟨p, hp⟩ := hrow.part
  rw [Store.samePart_iff, copy, copy, hn, hp, Cell.same_int, decide_eq_true_iff]
  rfl

/-- What a row holds after another copy has come. -/
theorem copy_refresh (r row : Segment) : (r.refresh row).copy = r.copy.refresh row.copy := rfl

theorem copy_of {m : Message} (hm : m.Storable) : (Segment.of m).copy = m.reread := by
  have hlegible : (Segment.of m).Legible := ⟨⟨_, rfl⟩, ⟨_, rfl⟩, _, _, rfl, rfl⟩
  exact Except.ok.inj (hlegible.message.symm.trans (message_of hm))

end Segment

/-! ## States -/

/-- The store has its tables, no two rows for one part, and rows that can be read. -/
structure Consistent (s : Store) : Prop where
  ready : s.ready = true
  distinct : s.segments.Pairwise fun a b => ¬ a.samePart b = true
  legible : ∀ r ∈ s.segments, r.Legible

namespace Consistent

variable {s : Store}

theorem filter (h : s.Consistent) (p : Segment → Bool) (inbox : List Received) :
    Consistent { s with segments := s.segments.filter p, inbox } :=
  ⟨h.ready, h.distinct.sublist List.filter_sublist, fun r hr => h.legible r (List.mem_of_mem_filter hr)⟩

theorem upsert (h : s.Consistent) {row : Segment} (hrow : row.Legible) :
    Consistent { s with segments := upsert row s.segments } := by
  refine ⟨h.ready, pairwise_upsert h.distinct, fun r hr => ?_⟩
  unfold Store.upsert at hr
  split at hr
  · obtain ⟨old, hold, rfl⟩ := List.mem_map.mp hr
    split
    · exact (h.legible old hold).refresh hrow
    · exact h.legible old hold
  · rcases List.mem_append.mp hr with hr | hr
    · exact h.legible r hr
    · exact List.mem_singleton.mp hr ▸ hrow

/-- The parts of a group come back, each from its row. -/
theorem loadSegments (h : s.Consistent) {k : String} (hk : Text.isWhole k = true) :
    ∃ ms, s.loadSegments (.text k) = .ok ms ∧ ms.Perm ((s.segments.filter (·.key = k)).map Segment.copy) := by
  have hmapM : ∀ {rows : List Segment}, (∀ r ∈ rows, r.Legible) →
      rows.mapM Segment.message = .ok (rows.map Segment.copy) := by
    intro rows hrows
    induction rows with
    | nil => rfl
    | cons r rows ih =>
      rw [List.mapM_cons, (hrows r List.mem_cons_self).message, ih fun a ha => hrows a (List.mem_cons_of_mem _ ha)]
      rfl
  have hgroup : (s.group k).Perm (s.segments.filter (·.key = k)) := List.mergeSort_perm _ _
  have hlegible : ∀ r ∈ s.group k, r.Legible :=
    fun r hr => h.legible r (List.mem_of_mem_filter (hgroup.mem_iff.mp hr))
  refine ⟨(s.group k).map Segment.copy, ?_, hgroup.map _⟩
  rw [loadSegments_of_isWhole h.ready hk]
  exact hmapM hlegible

end Consistent

theorem Reached.consistent {s : Store} (h : s.Reached) : s.Consistent := by
  induction h with
  | fresh => exact ⟨rfl, List.Pairwise.nil, by simp [initialise]⟩
  | saveSegment _ hu hs ih =>
    rw [Store.saveSegment, bind_eq_ok] at hs
    obtain ⟨timestamp, -, hs⟩ := hs
    obtain ⟨-, -, hs⟩ := bind_eq_ok.mp hs
    obtain ⟨row, hrow, hs⟩ := bind_eq_ok.mp hs
    cases hs
    exact ih.upsert (Segment.legible_ofMessage hu hrow)
  | forget _ hs ih =>
    rw [Store.forget, bind_eq_ok] at hs
    obtain ⟨-, -, hs⟩ := hs
    obtain ⟨c, -, hs⟩ := bind_eq_ok.mp hs
    simp only [List.partition_eq_filter_filter, pure, Except.pure] at hs
    cases hs
    exact ih.filter _ _
  | saveReceived _ hs ih =>
    rw [Store.saveReceived, bind_eq_ok] at hs
    obtain ⟨locations, -, hs⟩ := hs
    obtain ⟨timestamp, -, hs⟩ := bind_eq_ok.mp hs
    obtain ⟨-, -, hs⟩ := bind_eq_ok.mp hs
    obtain ⟨row, -, hs⟩ := bind_eq_ok.mp hs
    obtain ⟨segments, hsegments, hs⟩ := bind_eq_ok.mp hs
    cases hs
    rw [stillWaiting, bind_eq_ok] at hsegments
    obtain ⟨several, -, hsegments⟩ := hsegments
    cases several with
    | false =>
      cases hsegments
      exact ⟨ih.ready, ih.distinct, ih.legible⟩
    | true =>
      obtain ⟨-, -, hsegments⟩ := bind_eq_ok.mp hsegments
      cases hsegments
      exact ih.filter _ _

/-! ## Copies of one part -/

section

variable {rows : List Segment} {row : Segment}

/-- Rows that can be read hold one copy of a part. -/
theorem filter_samePart_of_mem (hdistinct : rows.Pairwise fun a b => ¬ a.samePart b = true)
    (hlegible : ∀ r ∈ rows, r.Legible) (hrow : row.Legible) {old : Segment} (hold : old ∈ rows)
    (hsame : old.samePart row = true) : rows.filter (·.samePart row) = [old] := by
  have hmem : old ∈ rows.filter (·.samePart row) := List.mem_filter.mpr ⟨hold, hsame⟩
  cases hfilter : rows.filter (·.samePart row) with
  | nil =>
    rw [hfilter] at hmem
    cases hmem
  | cons a rest =>
    cases rest with
    | nil =>
      rw [hfilter] at hmem
      rw [List.mem_singleton.mp hmem]
    | cons b rest =>
      have hpair := hdistinct.sublist (List.filter_sublist (p := (·.samePart row)))
      rw [hfilter] at hpair
      have hcopies : ∀ r ∈ a :: b :: rest, r.Legible ∧ r.key = row.key ∧ r.copy.part = row.copy.part := by
        intro r hr
        rw [← hfilter] at hr
        obtain ⟨hr, hsame⟩ := List.mem_filter.mp hr
        exact ⟨hlegible r hr, ((hlegible r hr).samePart_iff hrow).mp hsame⟩
      obtain ⟨ha, hakey, hapart⟩ := hcopies a List.mem_cons_self
      obtain ⟨hb, hbkey, hbpart⟩ := hcopies b (List.mem_cons_of_mem _ List.mem_cons_self)
      refine absurd ((ha.samePart_iff hb).mpr ⟨hakey.trans hbkey.symm, hapart.trans hbpart.symm⟩) ?_
      exact List.rel_of_pairwise_cons hpair List.mem_cons_self

theorem mem_upsert_refresh {old : Segment} (hold : old ∈ rows) (hsame : old.samePart row = true) :
    old.refresh row ∈ upsert row rows := by
  unfold upsert
  rw [if_pos (List.any_eq_true.mpr ⟨old, hold, hsame⟩)]
  exact List.mem_map.mpr ⟨old, hold, if_pos hsame⟩

theorem mem_upsert_new (hnew : ∀ r ∈ rows, ¬ r.samePart row = true) : row ∈ upsert row rows := by
  unfold upsert
  rw [if_neg fun hany => by obtain ⟨r, hr, hsame⟩ := List.any_eq_true.mp hany; exact hnew r hr hsame]
  simp

end

/-- A row that comes into the table refreshes the one row that there is for its part, or is the first. -/
theorem Consistent.filter_upsert {s : Store} (h : s.Consistent) {row : Segment} (hrow : row.Legible) :
    (s.segments.filter (·.samePart row) = [] ∧ (Store.upsert row s.segments).filter (·.samePart row) = [row]) ∨
    ∃ old, old.Legible ∧ old.key = row.key ∧ old.copy.part = row.copy.part ∧
      s.segments.filter (·.samePart row) = [old] ∧
      (Store.upsert row s.segments).filter (·.samePart row) = [old.refresh row] := by
  have hafter := h.upsert hrow
  by_cases hseen : ∃ old ∈ s.segments, old.samePart row = true
  · obtain ⟨old, hold, hsame⟩ := hseen
    obtain ⟨hkey, hpart⟩ := ((h.legible old hold).samePart_iff hrow).mp hsame
    exact .inr ⟨old, h.legible old hold, hkey, hpart,
      filter_samePart_of_mem h.distinct h.legible hrow hold hsame,
      filter_samePart_of_mem hafter.distinct hafter.legible hrow (mem_upsert_refresh hold hsame) hsame⟩
  · have hnew : ∀ r ∈ s.segments, ¬ r.samePart row = true := fun r hr hsame => hseen ⟨r, hr, hsame⟩
    have hself : row.samePart row = true := (hrow.samePart_iff hrow).mpr ⟨rfl, rfl⟩
    exact .inl ⟨List.filter_eq_nil_iff.mpr hnew,
      filter_samePart_of_mem hafter.distinct hafter.legible hrow (mem_upsert_new hnew) hself⟩

/-- The copies of a part that come back are those of the rows for it. -/
theorem Consistent.loadSegments_part {s : Store} (h : s.Consistent) {row : Segment} (hrow : row.Legible)
    (hkey : Text.isWhole row.key = true) :
    ∃ ms, s.loadSegments (.text row.key) = .ok ms ∧
      (ms.filter (·.part = row.copy.part)).Perm ((s.segments.filter (·.samePart row)).map Segment.copy) := by
  obtain ⟨ms, hms, hperm⟩ := h.loadSegments hkey
  refine ⟨ms, hms, (hperm.filter _).trans ?_⟩
  rw [List.filter_map, List.filter_filter]
  refine .of_eq (congrArg _ (List.filter_congr fun r hr => ?_))
  rw [Bool.eq_iff_iff, (h.legible r hr).samePart_iff hrow]
  simp [and_comm]

end Store

/-! ## Messages as they are read -/

namespace Message

variable {m old : Message}

theorem timestamp_reread (m : Message) : m.reread.timestamp = m.timestamp.map Timestamp.settled :=
  congrArg Kept.timestamp m.kept_reread

/-- A message as it is read comes back from its row whole. -/
theorem reread_of_record {record : Value} (h : Record.message record = .ok m) : m.reread = m := by
  have htimestamp : (m.timestamp.map Timestamp.iso).bind (fun s => Timestamp.Iso.read s.toList) = m.timestamp :=
    m.timestamp_reread.trans (Record.settled_of_message h)
  rw [reread, htimestamp, ← Record.parts_of_message h]
  cases m
  rfl

/-- The older copy with the newer one is the newer one if they agree in what is not refreshed. -/
theorem refresh_eq_iff (htotal : old.total = m.total) (hpart : old.part = m.part) (hparts : old.parts = m.parts) :
    old.refresh m = m ↔ old.sender = m.sender ∧ old.header = m.header ∧ old.smsc = m.smsc := by
  obtain ⟨⟩ := m
  obtain ⟨⟩ := old
  cases htotal
  cases hpart
  cases hparts
  simp [refresh]

end Message

/-- A row with the key of a message as it is read has its number of parts. -/
theorem Store.Segment.Legible.total_of_record {r : Segment} (h : r.Legible) {record : Value} {m : Message}
    (hrecord : Record.message record = .ok m) (hkey : r.key = m.key) : r.copy.total = m.total := by
  obtain ⟨n, stem, hn, hstem⟩ := h.total
  have hpos := Record.one_le_total_of_message hrecord
  have htotal : r.copy.total = n := by rw [copy, hn]; rfl
  obtain ⟨u, hu⟩ : ∃ u : Option Int, m.header = u.elim .null .int := by
    obtain hnull | ⟨n, hint⟩ := Record.header_of_message hrecord
    · exact ⟨none, hnull⟩
    · exact ⟨some n, hint⟩
  have hkeys : stem ++ "-" ++ toString n = groupKey m.sender (u.elim .null .int) m.total := by
    rw [← hstem, hkey, Message.key, hu]
  exact htotal.trans (total_of_groupKey hkeys (by omega))

/-! ## The newest copy -/

namespace Store

/-- What comes back of a part that is kept: its message, if it is the first copy, and otherwise what is there with its
place, text and timestamp. -/
theorem Consistent.newest_copy {s : Store} (h : s.Consistent) {record : Value} {m : Message}
    (hrecord : Record.message record = .ok m) (hm : m.Storable) :
    ∃ before s' after copy, s.loadSegments (.text m.key) = .ok before ∧ s.saveSegment m.unchecked = .ok s' ∧
      s'.loadSegments (.text m.key) = .ok after ∧ after.filter (·.part = m.part) = [copy] ∧
      (copy.text = m.text ∧ copy.location = m.location ∧ copy.timestamp = m.timestamp ∧ copy.total = m.total) ∧
      (∀ e ∈ before, e.part = m.part → copy = e.refresh m) ∧
      (copy = m ↔ ∀ e ∈ before, e.part = m.part → e.sender = m.sender ∧ e.header = m.header ∧ e.smsc = m.smsc) := by
  have hcopy : (Segment.of m).copy = m := (Segment.copy_of hm).trans (Message.reread_of_record hrecord)
  have hrow : (Segment.of m).Legible := ⟨⟨_, rfl⟩, ⟨_, rfl⟩, _, _, rfl, rfl⟩
  obtain ⟨before, hloaded, hold⟩ := h.loadSegments_part hrow hm.isWhole_key
  obtain ⟨after, hreloaded, hnew⟩ := (h.upsert hrow).loadSegments_part hrow hm.isWhole_key
  have hsaved := saveSegment_of_storable h.ready hm
  rw [hcopy] at hold hnew
  have hmem : ∀ e, e ∈ before ∧ e.part = m.part ↔ e ∈ before.filter (·.part = m.part) := by simp
  obtain ⟨hnone, hrows⟩ | ⟨old, hlegible, hkey, hpart, hseen, hrows⟩ := h.filter_upsert hrow
  · rw [hnone, List.map_nil, List.perm_nil] at hold
    rw [hrows, List.map_singleton, hcopy, List.perm_singleton] at hnew
    have hfirst : ∀ e ∈ before, e.part ≠ m.part := by
      intro e he hep
      simpa [hold] using (hmem e).mp ⟨he, hep⟩
    exact ⟨before, _, after, m, hloaded, hsaved, hreloaded, hnew, ⟨rfl, rfl, rfl, rfl⟩,
      fun e he hep => absurd hep (hfirst e he), fun _ e he hep => absurd hep (hfirst e he), fun _ => rfl⟩
  · rw [hseen, List.map_singleton, List.perm_singleton] at hold
    rw [hrows, List.map_singleton, Segment.copy_refresh, hcopy, List.perm_singleton] at hnew
    rw [hcopy] at hpart
    have htotal := hlegible.total_of_record hrecord hkey
    have honly : ∀ e, e ∈ before ∧ e.part = m.part ↔ e = old.copy := by
      intro e
      rw [hmem, hold, List.mem_singleton]
    refine ⟨before, _, after, old.copy.refresh m, hloaded, hsaved, hreloaded, hnew, ⟨rfl, rfl, rfl, htotal⟩, ?_, ?_⟩
    · intro e he hep
      rw [(honly e).mp ⟨he, hep⟩]
    · rw [Message.refresh_eq_iff htotal hpart (Record.parts_of_message hrecord).symm]
      constructor
      · intro hagree e he hep
        rwa [(honly e).mp ⟨he, hep⟩]
      · intro hagree
        obtain ⟨he, hep⟩ := (honly old.copy).mpr rfl
        exact hagree _ he hep

/-- Whatever has been kept before, exactly one copy of a part comes back after a message as it is read has been kept.
It has place, text and timestamp of the message, and the rest from the copy before, if there is one. So it is the
message itself, unless the copy before differs in sender, header or service centre. A message with half of a surrogate
pair in a text is not kept at all. -/
theorem newest_copy_whole_iff {s : Store} (hs : s.Reached) {record : Value} {m : Message}
    (hrecord : Record.message record = .ok m) (hm : m.Fits) :
    (m.isWhole = true → ∃ before s' after copy, s.loadSegments (.text m.key) = .ok before ∧
      s.saveSegment m.unchecked = .ok s' ∧ s'.loadSegments (.text m.key) = .ok after ∧
      after.filter (·.part = m.part) = [copy] ∧
      (copy.text = m.text ∧ copy.location = m.location ∧ copy.timestamp = m.timestamp ∧ copy.total = m.total) ∧
      (∀ e ∈ before, e.part = m.part → copy = e.refresh m) ∧
      (copy = m ↔ ∀ e ∈ before, e.part = m.part → e.sender = m.sender ∧ e.header = m.header ∧ e.smsc = m.smsc)) ∧
    (m.isWhole = false → ∃ place codes, s.saveSegment m.unchecked = .error (.loneSurrogates place codes)) := by
  have hconsistent := hs.consistent
  exact ⟨fun hwhole => hconsistent.newest_copy hrecord (hm.storable hwhole),
    fun hbroken => saveSegment_of_not_isWhole hconsistent.ready hm hbroken⟩

/-- The record of a part that a service centre has handed over. -/
def roamingRecord (location : Int) (smsc : String) : Value :=
  .object [("from", .text "+1"), ("location", .int location), ("content", .text "a"), ("segment", .int 1),
    ("total-segments", .int 2), ("udh", .int 7), ("smsc", .text smsc)]

/-- Its message. -/
def roamingPart (location : Int) (smsc : String) : Message :=
  { sender := "+1", text := "a", location, total := 2, header := .int 7, smsc := .text smsc }

/-- A part comes a second time, from another place and another service centre. -/
theorem newest_copy_whole_iff_roaming : ∃ s : Store,
    ({} : Store).initialise.saveSegment (roamingPart 1 "+49").unchecked = .ok s ∧ s.Reached ∧
      Record.message (roamingRecord 2 "+44") = .ok (roamingPart 2 "+44") ∧ (roamingPart 2 "+44").Fits ∧
      (roamingPart 2 "+44").isWhole = true ∧
      ∃ s' after copy, s.saveSegment (roamingPart 2 "+44").unchecked = .ok s' ∧
        s'.loadSegments (.text "+1-7-2") = .ok after ∧ after.filter (·.part = 1) = [copy] ∧
        copy ≠ roamingPart 2 "+44" := by
  have hfirst : ({} : Store).initialise.saveSegment (roamingPart 1 "+49").unchecked =
      .ok { ({} : Store).initialise with segments := [Segment.of (roamingPart 1 "+49")] } := rfl
  have hreached := Reached.saveSegment .fresh ⟨1, 1, 2, rfl, rfl, rfl⟩ hfirst
  have hrecord : Record.message (roamingRecord 2 "+44") = .ok (roamingPart 2 "+44") := rfl
  have hfits : ∀ location smsc, Cell.fits location = true → (roamingPart location smsc).Fits :=
    fun location smsc hlocation => ⟨rfl, hlocation, rfl, .inr ⟨7, rfl, rfl⟩, .inr ⟨smsc, rfl⟩⟩
  refine ⟨_, hfirst, hreached, hrecord, hfits 2 "+44" rfl, rfl, ?_⟩
  obtain ⟨before, s', after, copy, hbefore, hs', hafter, hcopy, -, -, hwhole⟩ :=
    (newest_copy_whole_iff hreached hrecord (hfits 2 "+44" rfl)).1 rfl
  refine ⟨s', after, copy, hs', hafter, hcopy, fun heq => ?_⟩
  have hseen : ∀ m ∈ [roamingPart 1 "+49"], m.Storable := by
    intro m hm
    exact List.mem_singleton.mp hm ▸ (hfits 1 "+49" rfl).storable rfl
  have hfound : before = [roamingPart 1 "+49"] := by
    rw [loadSegments_sorted rfl rfl rfl hseen, List.mergeSort_singleton] at hbefore
    exact (Except.ok.inj hbefore).symm
  have hagree := hwhole.mp heq (roamingPart 1 "+49") (hfound ▸ List.mem_cons_self) rfl
  exact absurd (Value.text.inj hagree.2.2) (by decide)

end Store

end SmsRelay
