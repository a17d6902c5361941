-- SUMMARY: Retrievals with parts at hand already: rows of the store, and the parts at which messages are complete.
import SmsRelay.Proofs.Payload

/-!
# Reading with parts at hand

The application may have kept parts of the messages that the device shows. The
store puts each part into its own row, so a part that is read once more changes
nothing; and a group of which every part is kept is put together at the first of
its parts that is read.
-/

namespace SmsRelay

open Gateway Gateway.Phase Message

variable {κ : Type}

/-! ## The table of parts -/

namespace Store

variable {ms : List Message} {s s' : Store} {m p b : Message} {row : Segment}

/-- What comes back from the row of a message is a copy of it. -/
theorem copy_of_ofPart (hheader : m.header = .null ∨ ∃ n, m.header = .int n)
    (h : Segment.ofPart m = .ok row) : ∃ a, row.message = .ok a ∧ a.CopyOf m := by
  have hsender : m.unchecked.sender = .text m.sender := by cases m; rfl
  have htext : m.unchecked.text = .text m.text := by cases m; rfl
  have htotal : m.unchecked.total = .int m.total := by cases m; rfl
  have hhead : m.unchecked.header = m.header := by cases m; rfl
  have hkeeps := ofPart_eq_ok h
  rw [Segment.ofPart, Segment.ofMessage, hsender, htext, htotal, hhead] at h
  simp only [bind_eq_ok] at h
  obtain ⟨key, -, part, -, location, -, sender, h4, text, -, header, h6, total, h7, smsc, -, h⟩ := h
  obtain ⟨part', -, location', -, sender', hs, text', -, total', ht, h⟩ := h
  obtain ⟨-, rfl⟩ := Cell.ofText_eq_ok.mp h4
  cases hs
  obtain ⟨-, rfl⟩ := ofValue_int_eq_ok.mp h7
  rw [integerCell_int] at ht
  cases ht
  have hvalue : header.inIntegerColumn.toValue = m.header := by
    rcases hheader with hnull | ⟨n, hn⟩
    · rw [hnull] at h6 ⊢
      cases h6
      rfl
    · rw [hn] at h6 ⊢
      obtain ⟨-, rfl⟩ := ofValue_int_eq_ok.mp h6
      rfl
  cases h
  have hpart : part' = .int m.part := hkeeps.part
  have hlocation : location' = .int m.location := hkeeps.location
  subst hpart
  subst hlocation
  refine ⟨_, rfl, ?_, rfl, hkeeps.text, rfl⟩
  rw [Message.key, Message.key, hvalue]

/-- The row of the message is in the table. -/
def Has (s : Store) (m : Message) : Prop := ∃ row ∈ s.segments, Segment.ofPart m = .ok row

theorem Has.isWhole_key (h : s.Has m) : Text.isWhole m.key = true := by
  obtain ⟨row, -, hrow⟩ := h
  exact (ofPart_eq_ok hrow).whole

/-- The table holds rows of parts among the messages, and nothing else. -/
structure Tables (ms : List Message) (s : Store) : Prop where
  ready : s.ready = true
  rows : ∀ row ∈ s.segments, ∃ m ∈ ms, m.isPart = true ∧ Segment.ofPart m = .ok row

/-- All parts of the group of the part are in the table. -/
def HasAll (ms : List Message) (s : Store) (p : Message) : Prop :=
  ∀ n ∈ numbers p.total.toNat, ∃ b ∈ ms, b.key = p.key ∧ b.part = n ∧ s.Has b

theorem HasAll.mono (h : HasAll ms s p) (hle : ∀ b, s.Has b → s'.Has b) : HasAll ms s' p := by
  intro n hn
  obtain ⟨b, hb, hkey, hpart, hhas⟩ := h n hn
  exact ⟨b, hb, hkey, hpart, hle b hhas⟩

theorem HasAll.congr (h : HasAll ms s p) (hms : Payload ms) (hp : p ∈ ms) (hm : m ∈ ms) (hkey : m.key = p.key) :
    HasAll ms s m := by
  unfold HasAll
  rw [hms.total_eq hm hp hkey, hkey]
  exact h

theorem HasAll.has (h : HasAll ms s p) (hms : Payload ms) (hp : p ∈ ms) (hpart : p.isPart = true) (hb : b ∈ ms)
    (hkey : b.key = p.key) : s.Has b := by
  have hmany := hms.isPart_of_key hb hp hkey hpart
  have hnumber := hms.part_mem_numbers hb hmany
  rw [hms.total_eq hb hp hkey] at hnumber
  obtain ⟨b', hb', hkey', hpart', hhas⟩ := h b.part hnumber
  obtain rfl : b' = b := hms.eq_of_part hb' hb hmany (hkey'.trans hkey.symm) hpart'
  exact hhas

/-- A row for a part of the messages is added if it is not there, and changes nothing if it is. -/
theorem Tables.mem_upsert (h : Tables ms s) (hms : Payload ms) (hm : m ∈ ms) (hpart : m.isPart = true)
    (hrow : Segment.ofPart m = .ok row) {r : Segment} :
    r ∈ upsert row s.segments ↔ r ∈ s.segments ∨ r = row := by
  have hsame : ∀ old ∈ s.segments, old.samePart row = true → old = row := by
    intro old hold hsame
    obtain ⟨a, ha, -, holdrow⟩ := h.rows old hold
    have hkeeps := ofPart_eq_ok hrow
    have hkeeps' := ofPart_eq_ok holdrow
    obtain ⟨hkey, hnumber⟩ := samePart_iff.mp hsame
    rw [hkeeps.part, hkeeps'.part, Cell.same_int, decide_eq_true_iff] at hnumber
    obtain rfl : a = m := hms.eq_of_part ha hm hpart (hkeeps'.key.symm.trans (hkey.trans hkeeps.key)) hnumber
    exact Except.ok.inj (holdrow.symm.trans hrow)
  unfold upsert
  split
  · rename_i hany
    obtain ⟨old, hold, holdsame⟩ := List.any_eq_true.mp hany
    obtain rfl := hsame old hold holdsame
    have hunchanged : s.segments.map (fun r => if r.samePart old then r.refresh old else r) = s.segments := by
      refine (List.map_congr_left fun r hr => ?_).trans (List.map_id _)
      split
      · rename_i hrsame
        obtain rfl := hsame r hr hrsame
        rfl
      · rfl
    rw [hunchanged]
    exact ⟨.inl, fun hr => hr.elim id fun heq => heq ▸ hold⟩
  · simp

/-- All rows of a table come back. -/
theorem mapM_message {rows : List Segment} (h : ∀ r ∈ rows, ∃ a, r.message = .ok a) :
    ∃ as, rows.mapM Segment.message = .ok as ∧ ∀ r ∈ rows, ∃ a ∈ as, r.message = .ok a := by
  induction rows with
  | nil => exact ⟨[], rfl, by simp⟩
  | cons r rows ih =>
    obtain ⟨⟨a, ha⟩, hrows⟩ := List.forall_mem_cons.mp h
    obtain ⟨as, has, hmem⟩ := ih hrows
    refine ⟨a :: as, by rw [List.mapM_cons, ha, has]; rfl, List.forall_mem_cons.mpr ⟨⟨a, List.mem_cons_self, ha⟩, ?_⟩⟩
    intro r' hr'
    obtain ⟨a', ha', hmessage⟩ := hmem r' hr'
    exact ⟨a', List.mem_cons_of_mem _ ha', hmessage⟩

/-- What comes back of a group is copies of the parts of it that are in the table. -/
theorem Tables.loadSegments (h : Tables ms s) (hms : Payload ms) {key : String} (hkey : Text.isWhole key = true) :
    ∃ stored, s.loadSegments (.text key) = .ok stored ∧
      (∀ a ∈ stored, ∃ b ∈ ms, b.key = key ∧ s.Has b ∧ a.CopyOf b) ∧
      ∀ b ∈ ms, b.key = key → s.Has b → ∃ a ∈ stored, a.CopyOf b := by
  have hcopy : ∀ r ∈ s.segments, ∃ b ∈ ms, Segment.ofPart b = .ok r ∧ ∃ a, r.message = .ok a ∧
      a.CopyOf b := by
    intro r hr
    obtain ⟨b, hb, -, hrow⟩ := h.rows r hr
    obtain ⟨record, hrecord⟩ := hms.described b hb
    exact ⟨b, hb, hrow, copy_of_ofPart (Record.header_of_message hrecord) hrow⟩
  have hgroup : ∀ r, r ∈ s.group key ↔ r ∈ s.segments ∧ r.key = key := by
    intro r
    rw [group, List.mem_mergeSort, List.mem_filter, decide_eq_true_iff]
  have hreads : ∀ r ∈ s.group key, ∃ a, r.message = .ok a := by
    intro r hr
    obtain ⟨b, -, -, a, ha, -⟩ := hcopy r ((hgroup r).mp hr).1
    exact ⟨a, ha⟩
  obtain ⟨stored, hstored, hall⟩ := mapM_message hreads
  have hload : s.loadSegments (.text key) = .ok stored := (loadSegments_of_isWhole h.ready hkey).trans hstored
  refine ⟨stored, hload, fun a ha => ?_, fun b hb hkey hhas => ?_⟩
  · obtain ⟨r, hr, hkey, hmessage⟩ := loadSegments_eq_ok hload a ha
    obtain ⟨b, hb, hrow, a', ha', hcopied⟩ := hcopy r hr
    obtain rfl : a' = a := Except.ok.inj (ha'.symm.trans hmessage)
    exact ⟨b, hb, (ofPart_eq_ok hrow).key.symm.trans hkey, ⟨r, hr, hrow⟩, hcopied⟩
  · obtain ⟨row, hrow, hb'⟩ := hhas
    obtain ⟨a, ha, hmessage⟩ := hall row ((hgroup row).mpr ⟨hrow, (ofPart_eq_ok hb').key.trans hkey⟩)
    obtain ⟨record, hrecord⟩ := hms.described b hb
    obtain ⟨a', ha', hcopied⟩ := copy_of_ofPart (Record.header_of_message hrecord) hb'
    obtain rfl : a' = a := Except.ok.inj (ha'.symm.trans hmessage)
    exact ⟨a', ha, hcopied⟩

/-- A part that is kept is in the table from then on. One that is not kept has no row. -/
theorem Tables.reply_receiveSegment (h : Tables ms s) (hms : Payload ms) (hm : m ∈ ms) (hpart : m.isPart = true)
    {now : String} {answer : Except Fault Returned}
    (hreply : (answer, s') = Application.reply (κ := κ) now s (.receiveSegment m)) :
    Tables ms s' ∧ (∀ b, s.Has b → s'.Has b) ∧
      ((∃ f, answer = .error f ∧ ¬ s.Has m) ∨ ∃ x, answer = .ok x ∧ s'.Has m) := by
  simp only [Application.reply, Application.handle, saveSegment_ofPart h.ready] at hreply
  cases hrow : Segment.ofPart m with
  | error f =>
    rw [hrow] at hreply
    cases hreply
    refine ⟨h, fun b => id, .inl ⟨f, rfl, ?_⟩⟩
    rintro ⟨row, -, hok⟩
    rw [hrow] at hok
    cases hok
  | ok row =>
    rw [hrow] at hreply
    cases hreply
    have hmem : ∀ r, r ∈ upsert row s.segments ↔ r ∈ s.segments ∨ r = row := fun r => h.mem_upsert hms hm hpart hrow
    refine ⟨⟨h.ready, fun r hr => ?_⟩, ?_, .inr ⟨.nothing, rfl, row, (hmem row).mpr (.inr rfl), hrow⟩⟩
    · rcases (hmem r).mp hr with hr | rfl
      · exact h.rows r hr
      · exact ⟨m, hm, hpart, hrow⟩
    · rintro b ⟨r, hr, hb⟩
      exact ⟨r, (hmem r).mpr (.inl hr), hb⟩

end Store

open Store

/-! ## An application that is selective about messages -/

/-- Surroundings in which the modem tool shows the given records whenever it is to retrieve, and the application
keeps parts in its store, and forgets them, as ever. Which messages it accepts is left open. A message that it
refuses leaves the store alone; one that it accepts may be taken into the inbox, or go elsewhere. -/
def Application.selective (records : List Value) : Surroundings κ Store where
  modem s command _ output s' := Ordinary output ∧ (command = "retrieve" → output = .ok (.list records)) ∧ s' = s
  request s r answer s' :=
    match r with
    | .receive m => Ordinary answer ∧
        (s' = s ∨ ∃ now x, answer = .ok x ∧ s' = (reply (κ := κ) now s (.receive m)).2)
    | .transmit .. => Ordinary answer ∧ s' = s
    | r => ∃ now, (answer, s') = reply now s r
  notify s n answer s' := answer = .ok () ∧ s' = noted s n
  callback s _ _ _ answer s' := answer = .ok () ∧ s' = s

section

open Application

variable {records : List Value}

theorem contained_selective : (selective (κ := κ) records).Contained where
  modem h := h.1 _ rfl
  request := by
    intro s s' r f h
    cases r with
    | receive m => exact h.1 f rfl
    | transmit m t => exact h.1 f rfl
    | receiveSegment m =>
      obtain ⟨now, h⟩ := h
      exact ordinary_reply now s _ f (congrArg Prod.fst h).symm
    | returnSegments key =>
      obtain ⟨now, h⟩ := h
      exact ordinary_reply now s _ f (congrArg Prod.fst h).symm
  notify h := h.1
  callback h := h.1

theorem aloof_selective : (selective (κ := κ) records).Aloof where
  modem h := h.2.2
  request h := h.2
  notify h := h.2
  callback h := h.2

/-! ## Taking in records -/

variable {ms seen : List Message} {m : Message} {completed : List String} {w v u : World κ Store}

/-- The queue of received messages is as before, and the table has lost nothing. -/
structure Stored (ms : List Message) (w v : World κ Store) : Prop where
  inbound : v.queues.inbound = w.queues.inbound
  tables : Tables ms v.outside
  grows : ∀ b, w.outside.Has b → v.outside.Has b

/-- A part completes its message if the table has all others, and only then. -/
theorem ensures_collectPart_stored (hms : Payload ms) (hm : m ∈ ms) (hpart : m.isPart = true)
    (hw : Tables ms w.outside) : Ensures (selective records) (collectPart m) w
      (fun a v => Stored ms w v ∧ (a = none → ¬ HasAll ms w.outside m) ∧
        ∀ whole, a = some whole → Completes ms m whole ∧ HasAll ms v.outside m)
      (fun f v => f.isCancellation = false ∧ Stored ms w v ∧ ¬ HasAll ms w.outside m) := by
  apply ensures_collectPart
  case Kept => exact fun v => Stored ms w v ∧ v.outside.Has m
  case kept =>
    intro cs s a ⟨now, hs⟩
    obtain ⟨htables, hgrows, ⟨f, heq, -⟩ | ⟨x, -, hhas⟩⟩ := hw.reply_receiveSegment hms hm hpart hs
    · cases heq
    · exact ⟨⟨by simp, htables, hgrows⟩, hhas⟩
  case unkept =>
    intro cs s f ⟨now, hs⟩
    obtain ⟨htables, hgrows, ⟨g, heq, hhas⟩ | ⟨x, heq, -⟩⟩ := hw.reply_receiveSegment hms hm hpart hs
    · refine ⟨ordinary_reply now _ _ f (congrArg Prod.fst hs).symm, ⟨by simp, htables, hgrows⟩, fun hall => hhas ?_⟩
      exact hall.has hms hm hpart hm rfl
    · cases heq
  case returned =>
    intro v cs s a ⟨hv, hhas⟩ ⟨now, hs⟩
    obtain ⟨stored, hload, hcopies, hheld⟩ := hv.tables.loadSegments hms hhas.isWhole_key
    rw [reply_returnSegments, hload] at hs
    cases hs
    refine ⟨stored, rfl, ⟨by simpa using hv.inbound, hv.tables, hv.grows⟩, ?_⟩
    have hfilter : stored.filter (·.key = m.key) = stored := by
      refine List.filter_eq_self.mpr fun a ha => decide_eq_true ?_
      obtain ⟨b, -, hkey, -, hcopy⟩ := hcopies a ha
      exact hcopy.key.trans hkey
    rw [hfilter]
    obtain ⟨hcomplete, hincomplete⟩ := hms.reassemble hm hpart fun a ha => by
      obtain ⟨b, hb, hkey, -, hcopy⟩ := hcopies a ha
      exact ⟨b, hb, hkey, hcopy⟩
    have hall : HasAll ms v.outside m ↔ ∀ n ∈ numbers m.total.toNat, n ∈ (stored ++ [m]).map part := by
      refine forall₂_congr fun n _ => ?_
      rw [List.map_append, List.mem_append, List.map_singleton, List.mem_singleton, List.mem_map]
      constructor
      · intro ⟨b, hb, hkey, hn, hhas⟩
        obtain ⟨a, ha, hcopy⟩ := hheld b hb hkey hhas
        exact .inl ⟨a, ha, hcopy.part.trans hn⟩
      · rintro (⟨a, ha, rfl⟩ | rfl)
        · obtain ⟨b, hb, hkey, hhas, hcopy⟩ := hcopies a ha
          exact ⟨b, hb, hkey, hcopy.part.symm, hhas⟩
        · exact ⟨m, hm, rfl, rfl, hhas⟩
    by_cases h : HasAll ms v.outside m
    · obtain ⟨whole, hwhole, hcompletes⟩ := hcomplete (hall.mp h)
      rw [hwhole]
      refine ⟨nofun, fun whole' heq => ?_⟩
      cases heq
      exact ⟨hcompletes, h⟩
    · rw [hincomplete (by simpa using mt hall.mpr h)]
      exact ⟨fun _ hall => h (hall.mono hv.grows), nofun⟩
  case unreturned =>
    intro v cs s f ⟨hv, hhas⟩ ⟨now, hs⟩
    obtain ⟨stored, hload, -⟩ := hv.tables.loadSegments hms hhas.isWhole_key
    rw [reply_returnSegments, hload] at hs
    cases hs

/-- From the world `w` on some messages have been read. Those that are no parts are in the queue as they have come.
Each composite in the queue is complete, of another group, and its parts are in the table. Of a group that
has been in the table from the start there is one as soon as a part has been read, with the sender of the first. -/
structure Reading (ms : List Message) (w : World κ Store) (seen : List Message) (completed : List String)
    (v : World κ Store) : Prop where
  tables : Tables ms v.outside
  grows : ∀ b, w.outside.Has b → v.outside.Has b
  singles : v.queues.inbound.filter (!·.isPart) = seen.filter (!·.isPart)
  keys : (v.queues.inbound.filter (·.isPart)).map Message.key = completed.reverse
  once : completed.Nodup
  wholes : ∀ a ∈ v.queues.inbound, a.isPart = true → ∃ p, Completes ms p a ∧ HasAll ms v.outside p
  first : ∀ p ∈ ms, p.isPart = true → HasAll ms w.outside p →
    ((v.queues.inbound.filter (·.isPart)).filter (·.key = p.key)).map Message.sender =
      ((seen.find? (·.key = p.key)).map Message.sender).toList

theorem Reading.stored (h : Reading ms w seen completed v) (hu : Stored ms v u) : Reading ms w seen completed u where
  tables := hu.tables
  grows b hb := hu.grows b (h.grows b hb)
  singles := by rw [hu.inbound, h.singles]
  keys := by rw [hu.inbound, h.keys]
  once := h.once
  wholes a ha hpart := by
    rw [hu.inbound] at ha
    obtain ⟨p, hcompletes, hall⟩ := h.wholes a ha hpart
    exact ⟨p, hcompletes, hall.mono hu.grows⟩
  first p hp hpart hall := by rw [hu.inbound, h.first p hp hpart hall]

theorem stored_note (hw : Tables ms w.outside) (o : Occurrence κ) : Stored ms w (w.note o) := ⟨rfl, hw, fun _ => id⟩

theorem stored_answered (hw : Tables ms w.outside) (cs : List (SendCall κ)) {s : Store} (hs : s = w.outside)
    (o : Queues κ → Occurrence κ) : Stored ms w (w.answered cs s o) := by
  subst hs
  exact ⟨by simp, hw, fun _ => id⟩

/-- A single message comes into the queue. -/
theorem Reading.single (h : Reading ms w seen completed v) (hms : Payload ms) (hm : m ∈ ms) (hsingle : m.isPart = false) :
    Reading ms w (seen ++ [m]) completed (v.update (enqueueInbound m)) where
  tables := h.tables
  grows := h.grows
  singles := by simp [enqueueInbound, h.singles, hsingle]
  keys := by simp [enqueueInbound, h.keys, hsingle]
  once := h.once
  wholes a ha hpart := by
    rcases List.mem_append.mp ha with ha | ha
    · exact h.wholes a ha hpart
    · obtain rfl := List.mem_singleton.mp ha
      rw [hsingle] at hpart
      cases hpart
  first p hp hpart hall := by
    have hkey : m.key ≠ p.key := by
      intro hkey
      rw [hms.isPart_of_key hm hp hkey hpart] at hsingle
      cases hsingle
    have hqueued : (v.queues.inbound ++ [m]).filter (·.isPart) = v.queues.inbound.filter (·.isPart) := by
      simp [hsingle]
    have hseen : (seen ++ [m]).find? (·.key = p.key) = seen.find? (·.key = p.key) := by
      simp [List.find?_append, hkey]
    simp only [World.queues_update, enqueueInbound, hqueued, hseen, h.first p hp hpart hall]

/-- A part is passed over, since its group has been completed, or is kept without completing its group. -/
theorem Reading.part (h : Reading ms w seen completed v) (hm : m.isPart = true)
    (hkey : m.key ∈ completed ∨ ∀ p ∈ ms, p.isPart = true → HasAll ms w.outside p → m.key ≠ p.key) :
    Reading ms w (seen ++ [m]) completed v where
  tables := h.tables
  grows := h.grows
  singles := by simp [h.singles, hm]
  keys := h.keys
  once := h.once
  wholes := h.wholes
  first p hp hpart hall := by
    have hfirst := h.first p hp hpart hall
    rw [hfirst, List.find?_append]
    by_cases hsame : m.key = p.key
    · rcases hkey with hkey | hother
      · -- the composite of the group is in the queue, so a part of it has been read before
        have hqueued : m.key ∈ (v.queues.inbound.filter (·.isPart)).map Message.key := by
          rw [h.keys, List.mem_reverse]
          exact hkey
        obtain ⟨a, ha, hakey⟩ := List.mem_map.mp hqueued
        have hfound : a ∈ (v.queues.inbound.filter (·.isPart)).filter (·.key = p.key) :=
          List.mem_filter.mpr ⟨ha, by simpa using hakey.trans hsame⟩
        cases hfind : seen.find? (·.key = p.key) with
        | some b => rfl
        | none =>
          rw [hfind] at hfirst
          rw [List.map_eq_nil_iff.mp hfirst] at hfound
          cases hfound
      · exact absurd hsame (hother p hp hpart hall)
    · simp [hsame]

/-- A part completes its group. -/
theorem Reading.complete (h : Reading ms w seen completed v) {whole : Message} (hwhole : Completes ms m whole)
    (hall : HasAll ms v.outside m) (hkey : m.key ∉ completed) :
    Reading ms w (seen ++ [m]) (m.key :: completed) (v.update (enqueueInbound whole)) where
  tables := h.tables
  grows := h.grows
  singles := by simp [enqueueInbound, h.singles, hwhole.several, hwhole.isPart]
  keys := by simp [enqueueInbound, h.keys, hwhole.several, hwhole.key]
  once := List.nodup_cons.mpr ⟨hkey, h.once⟩
  wholes a ha hpart := by
    rcases List.mem_append.mp ha with ha | ha
    · exact h.wholes a ha hpart
    · obtain rfl := List.mem_singleton.mp ha
      exact ⟨m, hwhole, hall⟩
  first p hp hpart hheld := by
    have hfirst := h.first p hp hpart hheld
    have hqueued : (v.queues.inbound ++ [whole]).filter (·.isPart) = v.queues.inbound.filter (·.isPart) ++ [whole] := by
      simp [hwhole.several]
    simp only [World.queues_update, enqueueInbound, hqueued]
    by_cases hsame : m.key = p.key
    · have hnone : (v.queues.inbound.filter (·.isPart)).filter (·.key = p.key) = [] := by
        refine List.filter_eq_nil_iff.mpr fun a ha hakey => hkey ?_
        rw [hsame, ← of_decide_eq_true hakey, ← List.mem_reverse, ← h.keys]
        exact List.mem_map_of_mem ha
      rw [hnone, List.map_nil] at hfirst
      have hunseen : seen.find? (·.key = p.key) = none := by simpa using hfirst.symm
      rw [List.filter_append, hnone, List.find?_append, hunseen]
      simp [hwhole.key, hsame, hwhole.sender]
    · rw [List.filter_append, List.map_append, hfirst, List.find?_append]
      simp [hwhole.key, hsame]

/-- A record is taken in. -/
theorem ensures_receiveRecord_reading (h : Reading ms w seen completed v) (hms : Payload ms) (hm : m ∈ ms)
    {record : Value} (hrecord : Record.message record = .ok m) :
    Ensures (selective records) (receiveRecord completed record) v (Reading ms w (seen ++ [m])) never := by
  have hnoted : ∀ {seen completed} {v : World κ Store}, Reading ms w seen completed v → ∀ o,
      Reading ms w seen completed (v.note o) := fun hv o => hv.stored (stored_note hv.tables o)
  unfold receiveRecord
  refine (ensures_readRecord (I := Reading ms w seen completed) (fun e v hv => hnoted hv _) h).bind ?_
  intro a u ⟨ha, hu⟩
  subst ha
  rw [hrecord]
  dsimp only
  split
  · rename_i hpart
    apply ensures_receivePart contained_selective (Reading ms w (seen ++ [m]))
    case logged => exact fun keys e v hv => hnoted hv _
    case refused =>
      intro f v cs s hv ⟨_, hs⟩
      exact hv.stored (stored_answered hv.tables cs hs _)
    case passed => exact fun hkey => hu.part hpart (.inl hkey)
    case collected =>
      intro hkey
      have hother : ¬ HasAll ms u.outside m → ∀ p ∈ ms, p.isPart = true → HasAll ms w.outside p → m.key ≠ p.key :=
        fun hnone p hp _ hall heq => hnone ((hall.mono hu.grows).congr hms hp hm heq)
      refine (ensures_collectPart_stored hms hm hpart hu.tables).mono ?_ ?_
      · intro a x ⟨hx, hincomplete, hcomplete⟩
        refine ⟨fun hnone => (hu.part hpart (.inr (hother (hincomplete hnone)))).stored hx, fun whole hwhole => ?_⟩
        obtain ⟨hcompletes, hall⟩ := hcomplete whole hwhole
        exact (hu.stored hx).complete hcompletes hall hkey
      · intro f x ⟨hf, hx, hnone⟩
        exact ⟨hf, (hu.part hpart (.inr (hother hnone))).stored hx⟩
  · rename_i hsingle
    exact ensures_update_bind (ensures_pure (hu.single hms hm (by simpa using hsingle)))

/-- All records are taken in. -/
theorem ensures_receiveRecords_reading {shown : List Value} (hms : Payload ms)
    (hshown : ∀ record ∈ shown, ∃ m ∈ ms, Record.message record = .ok m) (hw : Tables ms w.outside)
    (hinbound : w.queues.inbound = []) : Ensures (selective records) (shown.foldlM receiveRecord []) w
      (Reading ms w (Record.messages shown)) never := by
  have hstart : Reading ms w [] [] w := by
    refine ⟨hw, fun _ => id, ?_, ?_, List.nodup_nil, ?_, ?_⟩ <;> simp [hinbound]
  refine ensures_foldlM (fun before completed => Reading ms w (Record.messages before) completed) hstart ?_
  intro before record completed v hfront hv
  obtain ⟨m, hm, hrecord⟩ := hshown record (hfront.subset (by simp))
  have happend : Record.messages (before ++ [record]) = Record.messages before ++ [m] := by
    simp [Record.messages, hrecord, Except.toOption]
  rw [happend]
  exact ensures_receiveRecord_reading hv hms hm hrecord

end

end SmsRelay
