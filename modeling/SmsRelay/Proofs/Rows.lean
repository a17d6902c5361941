-- SUMMARY: What the operations of the store do to its rows, for messages that fit them.
import SmsRelay.Application
import SmsRelay.Proofs.GroupKeys

/-!
# Rows of the store

What the operations of the store do to the rows of its tables, for messages as
they are read from the device. A message whose fields fit the columns comes
back as it was kept; only its timestamp makes a detour through a text.
-/

namespace SmsRelay

/-! ## Faults of the store -/

/-- The outcome is no cancellation. -/
def Ordinary {α : Type} (x : Except Fault α) : Prop := ∀ f, x = .error f → f.isCancellation = false

section

variable {α β : Type}

theorem ordinary_ok (a : α) : Ordinary (.ok a) := by
  intro f h
  cases h

theorem ordinary_error {f : Fault} (h : f.isCancellation = false) : Ordinary (.error f : Except Fault α) := by
  intro g hg
  cases hg
  exact h

theorem Ordinary.bind {x : Except Fault α} {f : α → Except Fault β} (hx : Ordinary x)
    (hf : ∀ a, Ordinary (f a)) : Ordinary (x >>= f) := by
  cases x with
  | ok a => exact hf a
  | error e => exact ordinary_error (hx e rfl)

/-- What follows on an outcome comes to a result only through a result. -/
theorem bind_eq_ok {x : Except Fault α} {f : α → Except Fault β} {b : β} :
    x >>= f = .ok b ↔ ∃ a, x = .ok a ∧ f a = .ok b := by
  cases x with
  | ok a => simp [bind, Except.bind]
  | error e => simp [bind, Except.bind]

/-- What follows on an outcome comes to a fault through a fault, or after a result. -/
theorem bind_eq_error {x : Except Fault α} {f : α → Except Fault β} {e : Fault} :
    x >>= f = .error e ↔ x = .error e ∨ ∃ a, x = .ok a ∧ f a = .error e := by
  cases x with
  | ok a => simp [bind, Except.bind]
  | error e => simp [bind, Except.bind]

theorem toOption_eq_some {x : Except Fault α} {a : α} : x.toOption = some a ↔ x = .ok a := by
  cases x <;> simp [Except.toOption]

theorem ordinary_mapM {f : α → Except Fault β} (hf : ∀ a, Ordinary (f a)) (xs : List α) :
    Ordinary (xs.mapM f) := by
  induction xs with
  | nil => exact ordinary_ok []
  | cons a xs ih =>
    rw [List.mapM_cons]
    exact (hf a).bind fun b => ih.bind fun bs => ordinary_ok _

theorem ordinary_toInteger (v : Value) : Ordinary v.toInteger := by
  intro f h
  unfold Value.toInteger at h
  split at h
  · cases h
  · cases h
  · unfold Value.integerOfFloat at h
    split at h <;> cases h <;> rfl
  · unfold Except.mapError at h
    split at h
    · cases h
      dsimp only
      split <;> rfl
    · cases h
  · cases h
    rfl

theorem ordinary_exceedsOne (v : Value) : Ordinary v.exceedsOne := by
  intro f h
  unfold Value.exceedsOne at h
  split at h <;> cases h
  rfl

end

namespace Store

theorem ordinary_ofText (t : String) : Ordinary (Cell.ofText t) := by
  intro f h
  unfold Cell.ofText at h
  split at h <;> cases h
  rfl

theorem ordinary_ofValue (position : Nat) (v : Value) : Ordinary (Cell.ofValue position v) := by
  intro f h
  unfold Cell.ofValue at h
  split at h <;> try cases h
  · split at h <;> cases h
    rfl
  · exact ordinary_ofText _ f h
  · rfl

theorem ordinary_iso? (t : Message.Stamp) : Ordinary t.iso? := by
  intro f h
  unfold Message.Stamp.iso? at h
  split at h
  · cases h
  · split at h <;> cases h
    rfl

theorem ordinary_locations (m : Message.Unchecked) : Ordinary m.locations := by
  intro f h
  unfold Message.Unchecked.locations at h
  split at h
  · cases h
  · cases h
  · split at h <;> cases h
    unfold Message.Parts.fault
    split <;> rfl

theorem ordinary_notNull {α : Type} (table column : String) (a : Option α) : Ordinary (notNull table column a) := by
  cases a with
  | none => exact ordinary_error rfl
  | some a => exact ordinary_ok a

theorem ordinary_require (s : Store) (table : String) : Ordinary (s.require table) := by
  unfold require
  split
  · exact ordinary_ok ()
  · exact ordinary_error rfl

theorem ordinary_integerCell (table column : String) (c : Cell) : Ordinary (integerCell table column c) :=
  ordinary_notNull _ _ _

theorem ordinary_ofMessage (timestamp : Option String) (m : Message.Unchecked) :
    Ordinary (Segment.ofMessage timestamp m) := by
  unfold Segment.ofMessage
  refine (ordinary_ofText _).bind fun _ => ?_
  refine (ordinary_ofValue _ _).bind fun part => ?_
  refine (ordinary_ofValue _ _).bind fun location => ?_
  refine (ordinary_ofValue _ _).bind fun sender => ?_
  refine (ordinary_ofValue _ _).bind fun text => ?_
  refine (ordinary_ofValue _ _).bind fun header => ?_
  refine (ordinary_ofValue _ _).bind fun total => ?_
  refine (ordinary_ofValue _ _).bind fun smsc => ?_
  refine (ordinary_integerCell _ _ _).bind fun part => ?_
  refine (ordinary_integerCell _ _ _).bind fun location => ?_
  refine (ordinary_notNull _ _ _).bind fun sender => ?_
  refine (ordinary_notNull _ _ _).bind fun text => ?_
  exact (ordinary_integerCell _ _ _).bind fun total => ordinary_ok _

theorem ordinary_saveSegment (s : Store) (m : Message.Unchecked) : Ordinary (s.saveSegment m) := by
  unfold saveSegment
  refine (ordinary_iso? _).bind fun timestamp => ?_
  refine (ordinary_require _ _).bind fun _ => ?_
  exact (ordinary_ofMessage _ m).bind fun row => ordinary_ok _

theorem ordinary_message (r : Segment) : Ordinary r.message := by
  unfold Segment.message
  refine (ordinary_toInteger _).bind fun location => ?_
  refine (ordinary_toInteger _).bind fun total => ?_
  exact (ordinary_toInteger _).bind fun part => ordinary_ok _

theorem ordinary_loadSegments (s : Store) (key : Value) : Ordinary (s.loadSegments key) := by
  unfold loadSegments
  refine (ordinary_require _ _).bind fun _ => ?_
  refine (ordinary_ofValue _ _).bind fun key => ?_
  split
  · exact ordinary_mapM ordinary_message _
  · exact ordinary_ok _

theorem ordinary_stillWaiting (s : Store) (m : Message.Unchecked) : Ordinary (s.stillWaiting m) := by
  unfold stillWaiting
  refine (ordinary_exceedsOne _).bind fun several => ?_
  split
  · exact (ordinary_ofText _).bind fun _ => ordinary_ok _
  · exact ordinary_ok _

theorem ordinary_saveReceived (s : Store) (now : String) (m : Message.Unchecked) :
    Ordinary (s.saveReceived now m) := by
  unfold saveReceived Received.ofMessage
  refine (ordinary_locations m).bind fun locations => ?_
  refine (ordinary_iso? _).bind fun timestamp => ?_
  refine (ordinary_require _ _).bind fun _ => ?_
  refine Ordinary.bind ?_ fun row => ?_
  · refine (ordinary_ofValue _ _).bind fun sender => ?_
    refine (ordinary_ofValue _ _).bind fun text => ?_
    refine (ordinary_ofValue _ _).bind fun total => ?_
    refine (ordinary_notNull _ _ _).bind fun sender => ?_
    refine (ordinary_notNull _ _ _).bind fun text => ?_
    exact (ordinary_integerCell _ _ _).bind fun total => ordinary_ok _
  · refine (ordinary_stillWaiting s m).bind fun segments => ordinary_ok _

end Store

/-! ## Rows for parts -/

/-- The columns of the store hold the fields of the message as they are: numbers of 64 bits, and texts without
halves of surrogate pairs. -/
structure Message.Storable (m : Message) : Prop where
  part : Store.Cell.fits m.part = true
  location : Store.Cell.fits m.location = true
  total : Store.Cell.fits m.total = true
  header : m.header = .null ∨ ∃ n, m.header = .int n ∧ Store.Cell.fits n = true
  sender : Text.isWhole m.sender = true
  text : Text.isWhole m.text = true
  smsc : m.smsc = .null ∨ ∃ s, m.smsc = .text s ∧ Text.isWhole s = true

/-- The numbers of the message fit the columns of the store, and where there may be a number or a text there is nothing
else. -/
structure Message.Fits (m : Message) : Prop where
  part : Store.Cell.fits m.part = true
  location : Store.Cell.fits m.location = true
  total : Store.Cell.fits m.total = true
  header : m.header = .null ∨ ∃ n, m.header = .int n ∧ Store.Cell.fits n = true
  smsc : m.smsc = .null ∨ ∃ s, m.smsc = .text s

/-- No text of the message holds half of a surrogate pair. -/
def Message.isWhole (m : Message) : Bool :=
  Text.isWhole m.sender && Text.isWhole m.text && match m.smsc with
    | .text s => Text.isWhole s
    | _ => true

theorem Message.Fits.storable {m : Message} (h : m.Fits) (hwhole : m.isWhole = true) : m.Storable := by
  simp only [isWhole, Bool.and_eq_true] at hwhole
  obtain ⟨⟨hsender, htext⟩, hcentre⟩ := hwhole
  refine ⟨h.part, h.location, h.total, h.header, hsender, htext, h.smsc.imp_right fun ⟨t, ht⟩ => ⟨t, ht, ?_⟩⟩
  rwa [ht] at hcentre

theorem Message.Storable.isWhole_key {m : Message} (h : m.Storable) : Text.isWhole m.key = true :=
  isWhole_groupKey (h.header.imp_right fun ⟨n, hn, _⟩ => ⟨n, hn⟩) m.total h.sender

/-- The message can be entered into the inbox: the columns hold its number of parts and its texts, and the parts of its
group can be asked for if it is one of several parts. -/
def Message.isEnterable (m : Message) : Bool :=
  Store.Cell.fits m.total && Text.isWhole m.sender && Text.isWhole m.text && (!m.isPart || Text.isWhole m.key)

/-- The message as it comes back from the store: its timestamp has been written out and read. -/
def Message.reread (m : Message) : Message :=
  { m with timestamp := (m.timestamp.map Timestamp.iso).bind fun s => Timestamp.Iso.read s.toList, parts := [] }

@[simp] theorem Message.key_reread (m : Message) : m.reread.key = m.key := rfl

@[simp] theorem Message.part_reread (m : Message) : m.reread.part = m.part := rfl

@[simp] theorem Message.text_reread (m : Message) : m.reread.text = m.text := rfl

@[simp] theorem Message.location_reread (m : Message) : m.reread.location = m.location := rfl

namespace Store

/-- The row for a message, if the columns hold its fields as they are. -/
def Segment.of (m : Message) : Segment where
  key := m.key
  part := .int m.part
  location := .int m.location
  sender := m.sender
  text := m.text
  header := match m.header with
    | .int n => .int n
    | _ => .null
  total := .int m.total
  timestamp := m.timestamp.map Timestamp.iso
  smsc := match m.smsc with
    | .text s => some s
    | _ => none

@[simp] theorem Segment.key_of (m : Message) : (Segment.of m).key = m.key := rfl

@[simp] theorem Segment.part_of (m : Message) : (Segment.of m).part = .int m.part := rfl

@[simp] theorem Segment.location_of (m : Message) : (Segment.of m).location = .int m.location := rfl

/-- The row for a message as it is, if there can be one. -/
def Segment.ofPart (m : Message) : Except Fault Segment := Segment.ofMessage (m.timestamp.map Timestamp.iso) m.unchecked

theorem ofPart_of_storable {m : Message} (h : m.Storable) : Segment.ofPart m = .ok (Segment.of m) := by
  have hkey := Cell.ofText_of_isWhole h.isWhole_key
  obtain ⟨hpart, hlocation, htotal, hheader, hsender, htext, hsmsc⟩ := h
  rw [Segment.ofPart, Segment.ofMessage, Message.key_unchecked, hkey]
  obtain ⟨sender, text, location, timestamp, total, part, header, smsc, parts⟩ := m
  simp only at hpart hlocation htotal hheader hsender htext hsmsc
  rcases hheader with rfl | ⟨n, rfl, hn⟩ <;> rcases hsmsc with rfl | ⟨t, rfl, ht⟩ <;>
    simp [Message.unchecked, Cell.ofValue_int, Cell.ofText_of_isWhole, *, bind, Except.bind, pure, Except.pure, notNull,
      Segment.of, Cell.inIntegerColumn, Cell.inTextColumn]

/-- There is no row for a message with half of a surrogate pair in a text, wherever it stands. -/
theorem ofPart_of_not_isWhole {m : Message} (h : m.Fits) (hbroken : m.isWhole = false) :
    ∃ place codes, Segment.ofPart m = .error (.loneSurrogates place codes) := by
  rw [Segment.ofPart, Segment.ofMessage, Message.key_unchecked]
  cases hkey : Text.isWhole m.key with
  | false =>
    obtain ⟨place, codes, hf⟩ := Cell.ofText_of_not_isWhole hkey
    exact ⟨place, codes, by rw [hf]; rfl⟩
  | true =>
    have hsender := isWhole_of_isWhole_groupKey hkey
    rw [Cell.ofText_of_isWhole hkey]
    obtain ⟨hpart, hlocation, htotal, hheader, hsmsc⟩ := h
    obtain ⟨sender, text, location, timestamp, total, part, header, smsc, parts⟩ := m
    simp only at hpart hlocation htotal hheader hsmsc hsender
    have hcell : ∃ c, Cell.ofValue 6 header = .ok c := by
      obtain rfl | ⟨n, rfl, hn⟩ := hheader
      · exact ⟨.null, rfl⟩
      · exact ⟨.int n, Cell.ofValue_int hn⟩
    obtain ⟨c, hc⟩ := hcell
    simp only [Message.unchecked, Cell.ofValue_int, Cell.ofValue_text, Cell.ofText_of_isWhole, hpart, hlocation, htotal,
      hsender, hc, bind, Except.bind]
    cases htext : Text.isWhole text with
    | false =>
      obtain ⟨place, codes, hf⟩ := Cell.ofText_of_not_isWhole htext
      exact ⟨place, codes, by rw [hf]⟩
    | true =>
      rw [Cell.ofText_of_isWhole htext]
      simp only [Message.isWhole, hsender, htext, Bool.true_and] at hbroken
      obtain rfl | ⟨t, rfl⟩ := hsmsc
      · cases hbroken
      · obtain ⟨place, codes, hf⟩ := Cell.ofText_of_not_isWhole hbroken
        exact ⟨place, codes, by rw [Cell.ofValue_text, hf]⟩

theorem ofValue_int_eq_ok {position : Nat} {n : Int} {c : Cell} :
    Cell.ofValue position (.int n) = .ok c ↔ Cell.fits n = true ∧ c = .int n := by
  unfold Cell.ofValue
  dsimp only
  split
  · rename_i h
    simp [h, eq_comm]
  · rename_i h
    simp [h]

/-- The row keeps the message: which part of which group it is, what it says, and where it is. -/
structure Segment.Keeps (row : Segment) (m : Message) : Prop where
  key : row.key = m.key
  whole : Text.isWhole m.key = true
  part : row.part = .int m.part
  text : row.text = m.text
  location : row.location = .int m.location
  fits : Cell.fits m.location = true

theorem ofPart_eq_ok {m : Message} {row : Segment} (h : Segment.ofPart m = .ok row) : row.Keeps m := by
  have hpart : m.unchecked.part = .int m.part := by cases m; rfl
  have hlocation : m.unchecked.location = .int m.location := by cases m; rfl
  have htext : m.unchecked.text = .text m.text := by cases m; rfl
  rw [Segment.ofPart, Segment.ofMessage, hpart, hlocation, htext, Message.key_unchecked] at h
  simp only [bind_eq_ok] at h
  obtain ⟨key, h1, part, h2, location, h3, sender, -, text, h5, header, -, total, -, smsc, -, h⟩ := h
  obtain ⟨part', hp, location', hl, sender', -, text', ht, total', -, h⟩ := h
  obtain ⟨-, rfl⟩ := ofValue_int_eq_ok.mp h2
  obtain ⟨hf, rfl⟩ := ofValue_int_eq_ok.mp h3
  obtain ⟨-, rfl⟩ := Cell.ofText_eq_ok.mp h5
  rw [integerCell_int] at hp hl
  cases hp
  cases hl
  cases ht
  cases h
  exact ⟨rfl, (Cell.ofText_eq_ok.mp h1).1, rfl, rfl, rfl, hf⟩

theorem message_of {m : Message} (h : m.Storable) : (Segment.of m).message = .ok m.reread := by
  obtain ⟨-, -, -, hheader, -, -, hsmsc⟩ := h
  obtain ⟨sender, text, location, timestamp, total, part, header, smsc, parts⟩ := m
  simp only at hheader hsmsc
  rcases hheader with rfl | ⟨n, rfl, hn⟩ <;> rcases hsmsc with rfl | ⟨t, rfl, -⟩ <;>
    simp [Segment.message, Segment.of, Message.reread, Cell.toValue, bind, Except.bind, pure, Except.pure]

/-! ## The table of parts -/

section

variable {row : Segment} {rows : List Segment} {k : String}

theorem samePart_iff {a b : Segment} : a.samePart b = true ↔ a.key = b.key ∧ a.part.same b.part = true := by
  simp [Segment.samePart]

theorem samePart_of {a b : Message} :
    (Segment.of a).samePart (Segment.of b) = true ↔ a.key = b.key ∧ a.part = b.part := by
  simp [samePart_iff]

/-- After a row has been put into the table a row of it is an old one, or has the place of the new one. -/
theorem of_mem_upsert {r : Segment} (h : r ∈ upsert row rows) :
    r ∈ rows ∨ (r.key = row.key ∧ r.location = row.location) := by
  unfold upsert at h
  split at h
  · obtain ⟨old, hold, rfl⟩ := List.mem_map.mp h
    split
    · rename_i hsame
      exact .inr ⟨(samePart_iff.mp hsame).1, rfl⟩
    · exact .inl hold
  · rcases List.mem_append.mp h with h | h
    · exact .inl h
    · obtain rfl := List.mem_singleton.mp h
      exact .inr ⟨rfl, rfl⟩

/-- A row of the table is for the part of an old row, or for that of the new one. -/
theorem part_of_mem_upsert {r : Segment} (h : r ∈ upsert row rows) :
    ∃ old, (old ∈ rows ∨ old = row) ∧ r.key = old.key ∧ r.part = old.part := by
  unfold upsert at h
  split at h
  · obtain ⟨old, hold, rfl⟩ := List.mem_map.mp h
    refine ⟨old, .inl hold, ?_⟩
    split <;> exact ⟨rfl, rfl⟩
  · refine ⟨r, ?_, rfl, rfl⟩
    exact (List.mem_append.mp h).imp_right List.mem_singleton.mp

/-- Refreshing rows changes nothing about which group they are of. -/
theorem filter_map_refresh :
    (rows.map fun r => if r.samePart row then r.refresh row else r).filter (·.key = k) =
      (rows.filter (·.key = k)).map fun r => if r.samePart row then r.refresh row else r := by
  rw [List.filter_map]
  refine congrArg _ (List.filter_congr fun r _ => ?_)
  rw [Function.comp_apply]
  split <;> rfl

/-- A row of one group leaves the rows of another group alone. -/
theorem filter_upsert_of_ne (h : row.key ≠ k) :
    (upsert row rows).filter (·.key = k) = rows.filter (·.key = k) := by
  unfold upsert
  split
  · rw [filter_map_refresh]
    refine (List.map_congr_left fun r hr => ?_).trans (List.map_id _)
    have hk : r.key = k := by simpa using (List.mem_filter.mp hr).2
    have hsame : ¬ r.samePart row = true := by
      intro hsame
      exact h ((samePart_iff.mp hsame).1.symm.trans hk)
    rw [if_neg hsame, id]
  · simp [h]

/-- The rows of a group with another row of it are what the row makes of the rows of the group. -/
theorem filter_upsert_of_eq (h : row.key = k) :
    (upsert row rows).filter (·.key = k) = upsert row (rows.filter (·.key = k)) := by
  have hany : (rows.filter (·.key = k)).any (·.samePart row) = rows.any (·.samePart row) := by
    rw [List.any_filter]
    refine congrArg rows.any (funext fun r => ?_)
    rw [Segment.samePart, h]
    cases decide (r.key = k) <;> rfl
  unfold upsert
  rw [hany]
  split
  · exact filter_map_refresh
  · simp [h]

/-- In the table no two rows are for the same part. -/
theorem pairwise_upsert (h : rows.Pairwise fun a b => ¬ a.samePart b = true) :
    (upsert row rows).Pairwise fun a b => ¬ a.samePart b = true := by
  have hrefresh : ∀ r : Segment, (if r.samePart row then r.refresh row else r).key = r.key ∧
      (if r.samePart row then r.refresh row else r).part = r.part := by
    intro r
    split <;> exact ⟨rfl, rfl⟩
  unfold upsert
  split
  · refine List.pairwise_map.mpr (h.imp fun {a b} hne => ?_)
    rwa [samePart_iff, (hrefresh a).1, (hrefresh a).2, (hrefresh b).1, (hrefresh b).2, ← samePart_iff]
  · rename_i hany
    refine List.pairwise_append.mpr ⟨h, List.pairwise_singleton _ _, fun a ha b hb => ?_⟩
    obtain rfl := List.mem_singleton.mp hb
    exact fun hsame => hany (List.any_eq_true.mpr ⟨a, ha, hsame⟩)

/-- The same copy of a part once more changes nothing. -/
theorem upsert_of_mem {m : Message} {seen : List Message} (hm : m ∈ seen)
    (unique : ∀ a ∈ seen, a.key = m.key → a.part = m.part → a = m) :
    upsert (Segment.of m) (seen.map Segment.of) = seen.map Segment.of := by
  have hany : (seen.map Segment.of).any (·.samePart (Segment.of m)) = true :=
    List.any_eq_true.mpr ⟨Segment.of m, List.mem_map_of_mem hm, samePart_of.mpr ⟨rfl, rfl⟩⟩
  unfold upsert
  rw [if_pos hany, List.map_map]
  refine List.map_congr_left fun a ha => ?_
  rw [Function.comp_apply]
  split
  · rename_i hsame
    obtain ⟨hkey, hpart⟩ := samePart_of.mp hsame
    obtain rfl := unique a ha hkey hpart
    rfl
  · rfl

/-- A new part is added. -/
theorem upsert_of_new {m : Message} {seen : List Message} (new : ∀ a ∈ seen, a.part ≠ m.part) :
    upsert (Segment.of m) (seen.map Segment.of) = (seen ++ [m]).map Segment.of := by
  have hany : ¬ (seen.map Segment.of).any (·.samePart (Segment.of m)) = true := by
    intro h
    obtain ⟨r, hr, hsame⟩ := List.any_eq_true.mp h
    obtain ⟨a, ha, rfl⟩ := List.mem_map.mp hr
    exact new a ha (samePart_of.mp hsame).2
  unfold upsert
  rw [if_neg hany, List.map_append, List.map_singleton]

end

variable {s : Store}

theorem mapM_message_of {ms : List Message} (h : ∀ m ∈ ms, m.Storable) :
    (ms.map Segment.of).mapM Segment.message = .ok (ms.map Message.reread) := by
  induction ms with
  | nil => rfl
  | cons m ms ih =>
    rw [List.map_cons, List.mapM_cons, message_of (h m List.mem_cons_self),
      ih fun a ha => h a (List.mem_cons_of_mem _ ha)]
    rfl

/-- The rows of a group are read one by one. -/
theorem loadSegments_of_isWhole (hready : s.ready = true) {k : String} (hk : Text.isWhole k = true) :
    s.loadSegments (.text k) = (s.group k).mapM Segment.message := by
  simp [loadSegments, require, hready, Cell.ofText_of_isWhole hk, bind, Except.bind]

/-- The parts of a group come back in the order of their numbers. -/
theorem loadSegments_sorted (hready : s.ready = true) {k : String} (hk : Text.isWhole k = true) {seen : List Message}
    (hrows : s.segments.filter (·.key = k) = seen.map Segment.of) (hseen : ∀ m ∈ seen, m.Storable) :
    s.loadSegments (.text k) = .ok ((seen.mergeSort fun a b => decide (a.part ≤ b.part)).map Message.reread) := by
  have hgroup : s.group k = (seen.mergeSort fun a b => decide (a.part ≤ b.part)).map Segment.of := by
    rw [group, hrows, List.map_mergeSort]
    intro a _ b _
    rfl
  have hall : ∀ m ∈ seen.mergeSort fun a b => decide (a.part ≤ b.part), m.Storable :=
    fun m hm => hseen m (List.mem_mergeSort.mp hm)
  rw [loadSegments_of_isWhole hready hk, hgroup, mapM_message_of hall]

/-- The parts of a group come back, in some order. -/
theorem loadSegments_of (hready : s.ready = true) {k : String} (hk : Text.isWhole k = true) {seen : List Message}
    (hrows : s.segments.filter (·.key = k) = seen.map Segment.of) (hseen : ∀ m ∈ seen, m.Storable) :
    ∃ ordered : List Message, ordered.Perm seen ∧
      s.loadSegments (.text k) = .ok (ordered.map Message.reread) :=
  ⟨_, List.mergeSort_perm _ _, loadSegments_sorted hready hk hrows hseen⟩

/-- Each part that comes back is the message of a row of the group. -/
theorem loadSegments_eq_ok {k : String} {ms : List Message} (h : s.loadSegments (.text k) = .ok ms) :
    ∀ a ∈ ms, ∃ r ∈ s.segments, r.key = k ∧ r.message = .ok a := by
  have hmapM : ∀ {rows : List Segment} {ms : List Message}, rows.mapM Segment.message = .ok ms →
      ∀ a ∈ ms, ∃ r ∈ rows, r.message = .ok a := by
    intro rows
    induction rows with
    | nil =>
      intro ms h a ha
      cases h
      cases ha
    | cons r rows ih =>
      intro ms h a ha
      rw [List.mapM_cons, bind_eq_ok] at h
      obtain ⟨b, hb, h⟩ := h
      obtain ⟨bs, hbs, h⟩ := bind_eq_ok.mp h
      cases h
      rcases List.mem_cons.mp ha with rfl | ha
      · exact ⟨r, List.mem_cons_self, hb⟩
      · obtain ⟨r', hr', hmessage⟩ := ih hbs a ha
        exact ⟨r', List.mem_cons_of_mem _ hr', hmessage⟩
  intro a ha
  rw [loadSegments, bind_eq_ok] at h
  obtain ⟨-, -, h⟩ := h
  obtain ⟨c, hc, h⟩ := bind_eq_ok.mp h
  obtain ⟨-, rfl⟩ := Cell.ofText_eq_ok.mp hc
  obtain ⟨r, hr, hmessage⟩ := hmapM h a ha
  obtain ⟨hmem, hkey⟩ := List.mem_filter.mp (List.mem_mergeSort.mp hr)
  exact ⟨r, hmem, by simpa using hkey, hmessage⟩

theorem location_of_message {r : Segment} {l : Int} (hl : r.location = .int l) {a : Message}
    (h : r.message = .ok a) : a.location = l := by
  rw [Segment.message, hl, bind_eq_ok] at h
  obtain ⟨location, hlocation, h⟩ := h
  obtain ⟨total, -, h⟩ := bind_eq_ok.mp h
  obtain ⟨part, -, h⟩ := bind_eq_ok.mp h
  cases hlocation
  cases h
  rfl

theorem part_of_message {r : Segment} {p : Int} (hp : r.part = .int p) {a : Message} (h : r.message = .ok a) :
    a.part = p := by
  rw [Segment.message, hp, bind_eq_ok] at h
  obtain ⟨location, -, h⟩ := h
  obtain ⟨total, -, h⟩ := bind_eq_ok.mp h
  obtain ⟨part, hpart, h⟩ := bind_eq_ok.mp h
  cases hpart
  cases h
  rfl

/-- What comes back from a row is a copy of what the row keeps. -/
theorem Segment.Keeps.copy {r : Segment} {m a : Message} (h : r.Keeps m) (ha : r.message = .ok a) :
    a.part = m.part ∧ a.text = m.text ∧ a.location = m.location := by
  refine ⟨part_of_message h.part ha, ?_, location_of_message h.location ha⟩
  rw [Segment.message, bind_eq_ok] at ha
  obtain ⟨location, -, ha⟩ := ha
  obtain ⟨total, -, ha⟩ := bind_eq_ok.mp ha
  obtain ⟨part, -, ha⟩ := bind_eq_ok.mp ha
  cases ha
  exact h.text

/-- Rows are put into the table as they are, or refresh an older row with their own place and text. -/
theorem keeps_of_mem_upsert {row r : Segment} {rows : List Segment} {m : Message} (hrow : row.Keeps m)
    (hrows : ∀ r ∈ rows, ∃ p, r.part = .int p) (h : r ∈ upsert row rows) : r ∈ rows ∨ r.Keeps m := by
  unfold upsert at h
  split at h
  · obtain ⟨old, hold, rfl⟩ := List.mem_map.mp h
    split
    · rename_i hsame
      obtain ⟨hkey, hpart⟩ := samePart_iff.mp hsame
      obtain ⟨p, hp⟩ := hrows old hold
      rw [hp, hrow.part, Cell.same_int, decide_eq_true_iff] at hpart
      exact .inr ⟨hkey.trans hrow.key, hrow.whole, hp.trans (congrArg Cell.int hpart), hrow.text, hrow.location,
        hrow.fits⟩
    · exact .inl hold
  · rcases List.mem_append.mp h with h | h
    · exact .inl h
    · obtain rfl := List.mem_singleton.mp h
      exact .inr hrow

/-! ## Changes to the tables -/

/-- A part is kept if there can be a row for it. -/
theorem saveSegment_ofPart (hready : s.ready = true) (m : Message) :
    s.saveSegment m.unchecked = (Segment.ofPart m).map fun row => { s with segments := upsert row s.segments } := by
  rw [saveSegment, Message.iso?_unchecked, require, if_pos hready]
  change (Segment.ofPart m >>= fun row => _) = _
  cases Segment.ofPart m <;> rfl

/-- A part with half of a surrogate pair in a text is refused. -/
theorem saveSegment_of_not_isWhole (hready : s.ready = true) {m : Message} (h : m.Fits) (hbroken : m.isWhole = false) :
    ∃ place codes, s.saveSegment m.unchecked = .error (.loneSurrogates place codes) := by
  obtain ⟨place, codes, hrow⟩ := ofPart_of_not_isWhole h hbroken
  exact ⟨place, codes, by rw [saveSegment_ofPart hready, hrow]; rfl⟩

theorem saveSegment_of_storable (hready : s.ready = true) {m : Message} (h : m.Storable) :
    s.saveSegment m.unchecked = .ok { s with segments := upsert (Segment.of m) s.segments } := by
  rw [saveSegment_ofPart hready, ofPart_of_storable h]
  rfl

/-- A part that is kept has a row. -/
theorem saveSegment_eq_ok {m : Message} {s' : Store} (h : s.saveSegment m.unchecked = .ok s') :
    ∃ row : Segment, s' = { s with segments := upsert row s.segments } ∧ row.Keeps m := by
  rw [saveSegment, Message.iso?_unchecked, bind_eq_ok] at h
  obtain ⟨timestamp, htimestamp, h⟩ := h
  cases htimestamp
  obtain ⟨-, -, h⟩ := bind_eq_ok.mp h
  obtain ⟨row, hrow, h⟩ := bind_eq_ok.mp h
  cases h
  exact ⟨row, rfl, ofPart_eq_ok hrow⟩

/-- The store without the parts from one place. -/
theorem forget_eq_ok {l : Int} {n : Nat} {s' : Store} (h : s.forget (.int l) = .ok (n, s')) :
    s' = { s with segments := s.segments.filter fun r => !r.location.same (.int l) } := by
  rw [forget, bind_eq_ok] at h
  obtain ⟨-, -, h⟩ := h
  obtain ⟨c, hc, h⟩ := bind_eq_ok.mp h
  obtain ⟨-, rfl⟩ := ofValue_int_eq_ok.mp hc
  simp only [Cell.inIntegerColumn_int, List.partition_eq_filter_filter, pure, Except.pure] at h
  cases h
  rfl

/-- The row of the inbox for a message. -/
def Received.of (id : Nat) (now : String) (m : Message) : Received where
  id
  sender := m.sender
  text := m.text
  segments := .int m.total
  locations := m.locations.map Value.int
  timestamp := m.timestamp.map Timestamp.iso
  receivedAt := now

theorem stillWaiting_unchecked (m : Message) :
    ((!m.isPart || Text.isWhole m.key) = true ∧ s.stillWaiting m.unchecked =
      .ok (if m.isPart then s.segments.filter (·.key ≠ m.key) else s.segments)) ∨
    ((!m.isPart || Text.isWhole m.key) = false ∧ ∃ f, s.stillWaiting m.unchecked = .error f) := by
  rw [stillWaiting, Message.isPart_unchecked, Message.key_unchecked]
  cases m.isPart with
  | false => exact .inl ⟨rfl, rfl⟩
  | true =>
    cases hkey : Text.isWhole m.key with
    | true => exact .inl ⟨rfl, by rw [Cell.ofText_of_isWhole hkey]; rfl⟩
    | false =>
      obtain ⟨place, codes, hf⟩ := Cell.ofText_of_not_isWhole hkey
      exact .inr ⟨rfl, _, by rw [hf]; rfl⟩

/-- The store takes every message that can be entered, and no other. -/
theorem saveReceived_unchecked (hready : s.ready = true) (now : String) (m : Message) :
    (m.isEnterable = true ∧ s.saveReceived now m.unchecked = .ok (s.nextId, { s with
      segments := if m.isPart then s.segments.filter (·.key ≠ m.key) else s.segments
      inbox := Received.of s.nextId now m :: s.inbox })) ∨
    (m.isEnterable = false ∧ ∃ f, s.saveReceived now m.unchecked = .error f) := by
  have hsender : m.unchecked.sender = .text m.sender := by cases m; rfl
  have htext : m.unchecked.text = .text m.text := by cases m; rfl
  have htotal : m.unchecked.total = .int m.total := by cases m; rfl
  simp only [saveReceived, require, hready, Received.ofMessage, hsender, htext, htotal, Message.isEnterable,
    Message.iso?_unchecked, Message.locations_unchecked, Cell.ofValue_text, if_true, bind, Except.bind, pure, Except.pure]
  cases hs : Text.isWhole m.sender with
  | false =>
    obtain ⟨place, codes, hf⟩ := Cell.ofText_of_not_isWhole hs
    exact .inr ⟨by simp, _, by rw [hf]⟩
  | true =>
    rw [Cell.ofText_of_isWhole hs]
    cases ht : Text.isWhole m.text with
    | false =>
      obtain ⟨place, codes, hf⟩ := Cell.ofText_of_not_isWhole ht
      exact .inr ⟨by simp, _, by rw [hf]⟩
    | true =>
      rw [Cell.ofText_of_isWhole ht]
      cases hfits : Cell.fits m.total with
      | false => exact .inr ⟨by simp, .wideInteger, by simp [Cell.ofValue, hfits]⟩
      | true =>
        rw [Cell.ofValue_int hfits]
        obtain ⟨hkey, hwaiting⟩ | ⟨hkey, f, hwaiting⟩ := stillWaiting_unchecked (s := s) m
        · exact .inl ⟨by simpa using hkey, by rw [hwaiting]; rfl⟩
        · exact .inr ⟨by simpa using hkey, f, by rw [hwaiting]; rfl⟩

end Store

end SmsRelay
