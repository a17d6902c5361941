-- SUMMARY: A device with slots beside the gateway: its histories, and what the application has taken of each record.
import Mathlib
import SmsRelay.Proofs.Handlers
import SmsRelay.Proofs.History
import SmsRelay.Proofs.Parts

/-!
# A device with slots

A device that holds at most one record in each place. Records come in at free
places, and stay until they are erased. Of each record it is known whether the
device has shown it, and which messages the application has taken since then;
and so it is known, of a record that is erased, whether it has been
acknowledged.
-/

namespace SmsRelay

open Gateway

variable {κ : Type}

/-! ## Records in messages -/

/-- One message is a copy of the other: the same part of the same group, with the same text, from the same
place. -/
structure Message.Copies (a b : Message) : Prop where
  key : a.key = b.key
  part : a.part = b.part
  text : a.text = b.text
  location : a.location = b.location

/-- The message is the one that the record describes, or has a copy of it for one of its parts. -/
def Message.Contains (m : Message) (record : Value) : Prop :=
  ∃ p, Record.message record = .ok p ∧ (m = p ∨ ∃ a ∈ m.parts, a.Copies p)

/-- What a place on the device holds. -/
structure Slot where
  location : Int
  record : Value
  /-- Whether the device has shown the record. -/
  retrieved : Bool := false
  /-- The messages that the application has taken since then. -/
  taken : List Message := []

namespace Slot

/-- The device has shown the record, and the application has taken a message with the record in it. -/
def Acknowledged (t : Slot) : Prop := t.retrieved = true ∧ ∃ m ∈ t.taken, m.Contains t.record

/-- The row keeps the record, and the device has shown it. -/
def Backs (t : Slot) (r : Store.Segment) : Prop :=
  t.retrieved = true ∧ ∃ p, Record.message t.record = .ok p ∧ r.Keeps p

/-- The slot with the same record at a later time. -/
structure Becomes (t t' : Slot) : Prop where
  location : t'.location = t.location
  record : t'.record = t.record
  retrieved : t.retrieved = true → t'.retrieved = true
  taken : t.taken ⊆ t'.taken

variable {t t' : Slot}

theorem Becomes.refl (t : Slot) : t.Becomes t := ⟨rfl, rfl, id, List.Subset.refl _⟩

theorem Becomes.acknowledged (h : t.Becomes t') (ht : t.Acknowledged) : t'.Acknowledged := by
  obtain ⟨hretrieved, m, hm, hcontains⟩ := ht
  refine ⟨h.retrieved hretrieved, m, h.taken hm, ?_⟩
  rw [h.record]
  exact hcontains

theorem Becomes.backs (h : t.Becomes t') {r : Store.Segment} (ht : t.Backs r) : t'.Backs r := by
  obtain ⟨hretrieved, p, hp, hr⟩ := ht
  refine ⟨h.retrieved hretrieved, p, ?_, hr⟩
  rw [h.record]
  exact hp

end Slot

/-- A device, and the store of the application. -/
structure Site where
  slots : List Slot := []
  /-- What the device has erased, as it was then. -/
  erased : List Slot := []
  store : Store := ({} : Store).initialise

namespace Site

/-! ## What happens at a site -/

/-- A record comes in. -/
def arrive (location : Int) (record : Value) (s : Site) : Site := { s with slots := { location, record } :: s.slots }

/-- The device shows all its records. -/
def retrieve (s : Site) : Site := { s with slots := s.slots.map fun t => { t with retrieved := true } }

/-- The application takes a message. -/
def take (m : Message) (s : Site) : Site :=
  { s with slots := s.slots.map fun t => if t.retrieved then { t with taken := m :: t.taken } else t }

/-- The device erases the records in some places. -/
def erase (places : Int → Bool) (s : Site) : Site :=
  { s with
    slots := s.slots.filter fun t => !places t.location
    erased := (s.slots.filter fun t => places t.location) ++ s.erased }

/-- The places that the modem tool has been asked to erase and reports as erased. -/
def confirmed (arguments : List String) (output : Except Fault Value) (location : Int) : Bool :=
  match output >>= DeletionReport.ofOutput with
  | .ok report => arguments.contains (toString location) && report.confirms location
  | .error _ => false

/-- The device shows all its records, in some order, or none. -/
def Shows (s : Site) (output : Except Fault Value) (s' : Site) : Prop :=
  (∃ records : List Value, records.Perm (s.slots.map Slot.record) ∧ output = .ok (.list records) ∧ s' = s.retrieve) ∨
  ((∀ records, output ≠ .ok (.list records)) ∧ s' = s)

/-- The modem tool at work on the device, and the application with its store. It may take any message or
refuse it; then it may drop parts from the store, but adds none. -/
def surroundings : Surroundings κ Site where
  modem s command arguments output s' := Ordinary output ∧
    if command = "retrieve" then s.Shows output s'
    else if command = "delete" then s' = s.erase (confirmed arguments output)
    else s' = s
  request s r answer s' := Ordinary answer ∧
    match r with
    | .receive m => ∃ store : Store, store.ready = s.store.ready ∧ store.segments.Sublist s.store.segments ∧
        s' = { (if answer.isOk then s.take m else s) with store }
    | .transmit .. => s' = s
    | r => ∃ now store, (answer, store) = Application.reply now s.store r ∧ s' = { s with store }
  notify s n answer s' := answer = .ok () ∧ s' = { s with store := Application.noted s.store n }
  callback s _ _ _ answer s' := answer = .ok () ∧ s' = s

theorem contained_surroundings : (surroundings (κ := κ)).Contained where
  modem h := h.1 _ rfl
  request h := h.1 _ rfl
  notify h := h.1
  callback h := h.1

theorem aloof_surroundings : (surroundings (κ := κ)).Aloof where
  modem h := h.2
  request h := h.2
  notify h := h.2
  callback h := h.2

/-- The handler that takes messages into the inbox is one of those that are allowed. -/
theorem request_receive {s : Site} (hready : s.store.ready = true) {now : String} {m : Message}
    {answer : Except Fault Returned} {store : Store}
    (h : (answer, store) = Application.reply (κ := κ) now s.store (.receive m)) :
    (surroundings (κ := κ)).request s (.receive m) answer { (if answer.isOk then s.take m else s) with store } := by
  have hordinary := Application.ordinary_reply (κ := κ) now s.store (.receive m)
  rw [← h] at hordinary
  obtain ⟨-, hreply⟩ | ⟨-, f, hreply⟩ := Application.reply_receive (κ := κ) now s.store hready m
  · rw [hreply] at h
    obtain ⟨rfl, rfl⟩ := Prod.mk.inj h
    refine ⟨hordinary, _, ?_, ?_, rfl⟩
    · rfl
    · dsimp only
      split
      · exact List.filter_sublist
      · exact .refl _
  · rw [hreply] at h
    obtain ⟨rfl, rfl⟩ := Prod.mk.inj h
    exact ⟨hordinary, s.store, rfl, .refl _, rfl⟩

/-! ## What a site makes sure of -/

variable {s s' : Site} {stale : Int → Prop} {l : Int} {m : Message}

/-- The record in the place may be erased. -/
def MayErase (s : Site) (l : Int) : Prop := ∃ t ∈ s.slots, t.location = l ∧ t.Acknowledged

/-- In each place of the message there is a record that the device has shown and that the message contains. -/
def Locates (s : Site) (m : Message) : Prop :=
  ∀ l ∈ m.locations, ∃ t ∈ s.slots, t.location = l ∧ t.retrieved = true ∧ m.Contains t.record

/-- There is a record at which every retrieval ends with a fault. -/
def Jammed (s : Site) : Prop :=
  ∃ t ∈ s.slots, ∃ f, Record.message t.record = .error f ∧ Record.isSkipped f = false

/-- Places hold one record each, and records say where they are. The store keeps only parts that are still
on the device, apart from some stale places. -/
structure Stocked (stale : Int → Prop) (s : Site) : Prop where
  distinct : (s.slots.map Slot.location).Nodup
  located : ∀ t ∈ s.slots, ∀ m, Record.message t.record = .ok m → m.location = t.location
  ready : s.store.ready = true
  rows : ∀ r ∈ s.store.segments, (∃ t ∈ s.slots, t.Backs r) ∨
    ∃ l, stale l ∧ r.location = .int l ∧ Store.Cell.fits l = true

/-- Apart from that, what has been erased was acknowledged. -/
structure Sound (stale : Int → Prop) (s : Site) : Prop extends s.Stocked stale where
  erased : ∀ t ∈ s.erased, t.Acknowledged

/-- No place is stale. -/
abbrev clean : Int → Prop := fun _ => False

theorem sound_start : Sound clean {} where
  distinct := .nil
  located := by simp
  ready := rfl
  rows := by simp [Store.initialise]
  erased := by simp

theorem Stocked.mono {stale' : Int → Prop} (h : s.Stocked stale) (hle : ∀ l, stale l → stale' l) :
    s.Stocked stale' := by
  refine ⟨h.distinct, h.located, h.ready, fun r hr => (h.rows r hr).imp_right ?_⟩
  intro ⟨l, hl, hlocation⟩
  exact ⟨l, hle l hl, hlocation⟩

theorem Sound.mono {stale' : Int → Prop} (h : s.Sound stale) (hle : ∀ l, stale l → stale' l) : s.Sound stale' :=
  ⟨h.toStocked.mono hle, h.erased⟩

/-- A place holds one record. -/
theorem Stocked.eq_of_location (h : s.Stocked stale) {t t' : Slot} (ht : t ∈ s.slots) (ht' : t' ∈ s.slots)
    (heq : t.location = t'.location) : t = t' :=
  List.inj_on_of_nodup_map h.distinct ht ht' heq

/-- What the store keeps is on the device, if no place is stale. -/
theorem Stocked.backed (h : s.Stocked clean) {r : Store.Segment} (hr : r ∈ s.store.segments) :
    ∃ t ∈ s.slots, t.Backs r := (h.rows r hr).resolve_right fun hstale => hstale.choose_spec.1

/-! ## Messages and the records they contain -/

theorem Sound.locates (h : s.Sound stale) {t : Slot} (ht : t ∈ s.slots) (hretrieved : t.retrieved = true)
    (hm : Record.message t.record = .ok m) : s.Locates m := by
  intro l hl
  rw [Message.locations_of_parts_eq_nil (Record.parts_of_message hm), List.mem_singleton] at hl
  exact ⟨t, ht, (h.located t ht m hm).symm.trans hl.symm, hretrieved, m, hm, .inl rfl⟩

/-- A message that is put together from a record and from what the store keeps. -/
theorem Sound.locates_reassembled (h : s.Sound clean) {t : Slot} (ht : t ∈ s.slots) (hretrieved : t.retrieved = true)
    (hm : Record.message t.record = .ok m) {stored : List Message}
    (hload : s.store.loadSegments (.text m.key) = .ok stored)
    {whole : Message} (hwhole : m.reassemble (stored.filter (·.key = m.key)) = some whole) : s.Locates whole := by
  obtain ⟨first, parts, rfl, hne, hmem⟩ := Message.eq_compose_of_reassemble hwhole
  intro l hl
  rw [Message.locations_of_parts_ne_nil hne] at hl
  obtain ⟨a, ha, rfl⟩ := List.mem_map.mp hl
  rcases List.mem_append.mp (hmem a ha) with hstored | hown
  · -- the part comes from the store, and so from a record that is still on the device
    obtain ⟨hstored, hkey⟩ := List.mem_filter.mp hstored
    obtain ⟨r, hr, hrkey, hmessage⟩ := Store.loadSegments_eq_ok hload a hstored
    obtain ⟨t', ht', hretrieved', p, hp, hkeeps⟩ := h.backed hr
    obtain ⟨hpart, htext, hlocation⟩ := hkeeps.copy hmessage
    have hcopies : a.Copies p :=
      ⟨(of_decide_eq_true hkey).trans (hrkey.symm.trans hkeeps.key), hpart, htext, hlocation⟩
    have hplace : t'.location = a.location := (h.located t' ht' p hp).symm.trans hlocation.symm
    exact ⟨t', ht', hplace, hretrieved', p, hp, .inr ⟨a, ha, hcopies⟩⟩
  · obtain rfl := List.mem_singleton.mp hown
    exact ⟨t, ht, (h.located t ht a hm).symm, hretrieved, a, hm, .inr ⟨a, ha, ⟨rfl, rfl, rfl, rfl⟩⟩⟩

/-! ## Later -/

/-- The site with the same records at a later time. -/
def Later (s s' : Site) : Prop :=
  s'.erased = s.erased ∧ ∃ f : Slot → Slot, (∀ t : Slot, t.Becomes (f t)) ∧ s'.slots = s.slots.map f

theorem Later.slot (h : s.Later s') {t : Slot} (ht : t ∈ s.slots) : ∃ t' ∈ s'.slots, t.Becomes t' := by
  obtain ⟨-, f, hf, hslots⟩ := h
  exact ⟨f t, hslots ▸ List.mem_map_of_mem ht, hf t⟩

theorem Later.of_slots (hslots : s'.slots = s.slots) (herased : s'.erased = s.erased) : s.Later s' :=
  ⟨herased, id, Slot.Becomes.refl, by rw [hslots, List.map_id]⟩

theorem later_retrieve (s : Site) : s.Later s.retrieve :=
  ⟨rfl, fun t => { t with retrieved := true }, fun _ => ⟨rfl, rfl, fun _ => rfl, List.Subset.refl _⟩, rfl⟩

theorem later_take (m : Message) (s : Site) : s.Later (s.take m) := by
  refine ⟨rfl, fun t => if t.retrieved then { t with taken := m :: t.taken } else t, fun t => ?_, rfl⟩
  dsimp only
  split
  · exact ⟨rfl, rfl, id, List.subset_cons_self _ _⟩
  · exact .refl t

theorem Later.mayErase (h : s.Later s') (hl : s.MayErase l) : s'.MayErase l := by
  obtain ⟨t, ht, rfl, hack⟩ := hl
  obtain ⟨t', ht', hbecomes⟩ := h.slot ht
  exact ⟨t', ht', hbecomes.location, hbecomes.acknowledged hack⟩

theorem Later.locates (h : s.Later s') (hm : s.Locates m) : s'.Locates m := by
  intro l hl
  obtain ⟨t, ht, rfl, hretrieved, hcontains⟩ := hm l hl
  obtain ⟨t', ht', hbecomes⟩ := h.slot ht
  refine ⟨t', ht', hbecomes.location, hbecomes.retrieved hretrieved, ?_⟩
  rw [hbecomes.record]
  exact hcontains

theorem Later.jammed (h : s.Later s') (hs : s.Jammed) : s'.Jammed := by
  obtain ⟨t, ht, f, hf, hskipped⟩ := hs
  obtain ⟨t', ht', hbecomes⟩ := h.slot ht
  refine ⟨t', ht', f, ?_, hskipped⟩
  rw [hbecomes.record]
  exact hf

/-- Time may pass, and the store may drop parts and keep others that are on the device. -/
theorem Stocked.later (h : s.Stocked stale) (hlater : s.Later s') (hready : s'.store.ready = true)
    (hrows : ∀ r ∈ s'.store.segments, r ∈ s.store.segments ∨ ∃ t ∈ s.slots, t.Backs r) : s'.Stocked stale := by
  have hbacked : ∀ r, (∃ t ∈ s.slots, t.Backs r) → ∃ t ∈ s'.slots, t.Backs r := by
    intro r ⟨t, ht, hr⟩
    obtain ⟨t', ht', hbecomes⟩ := hlater.slot ht
    exact ⟨t', ht', hbecomes.backs hr⟩
  obtain ⟨-, f, hf, hslots⟩ := hlater
  constructor
  case distinct =>
    have hlocations : s'.slots.map Slot.location = s.slots.map Slot.location := by
      rw [hslots, List.map_map]
      exact List.map_congr_left fun t _ => (hf t).location
    rw [hlocations]
    exact h.distinct
  case located =>
    intro t' ht' m hm
    rw [hslots] at ht'
    obtain ⟨t, ht, rfl⟩ := List.mem_map.mp ht'
    rw [(hf t).record] at hm
    rw [(hf t).location]
    exact h.located t ht m hm
  case ready => exact hready
  case rows =>
    intro r hr
    rcases hrows r hr with hr | hr
    · exact (h.rows r hr).imp_left (hbacked r)
    · exact .inl (hbacked r hr)

theorem Sound.later (h : s.Sound stale) (hlater : s.Later s') (hready : s'.store.ready = true)
    (hrows : ∀ r ∈ s'.store.segments, r ∈ s.store.segments ∨ ∃ t ∈ s.slots, t.Backs r) : s'.Sound stale := by
  refine ⟨h.toStocked.later hlater hready hrows, ?_⟩
  rw [hlater.1]
  exact h.erased

/-- A message has been taken, and so its records may be erased. -/
theorem Locates.take (h : s.Locates m) (hl : l ∈ m.locations) : (s.take m).MayErase l := by
  obtain ⟨t, ht, rfl, hretrieved, hcontains⟩ := h l hl
  refine ⟨{ t with taken := m :: t.taken }, ?_, rfl, hretrieved, m, List.mem_cons_self, hcontains⟩
  refine List.mem_map.mpr ⟨t, ht, ?_⟩
  rw [if_pos hretrieved]

/-! ## Arrivals and erasures -/

/-- A record comes in at a free place. -/
theorem Stocked.arrive (h : s.Stocked stale) {record : Value} (hfree : ∀ t ∈ s.slots, t.location ≠ l)
    (hlocated : ∀ m, Record.message record = .ok m → m.location = l) : (s.arrive l record).Stocked stale := by
  constructor
  case distinct =>
    refine List.nodup_cons.mpr ⟨?_, h.distinct⟩
    intro hmem
    obtain ⟨t, ht, heq⟩ := List.mem_map.mp hmem
    exact hfree t ht heq
  case located => exact List.forall_mem_cons.mpr ⟨hlocated, h.located⟩
  case ready => exact h.ready
  case rows =>
    intro r hr
    refine (h.rows r hr).imp_left ?_
    intro ⟨t, ht, hbacks⟩
    exact ⟨t, List.mem_cons_of_mem _ ht, hbacks⟩

theorem Sound.arrive (h : s.Sound stale) {record : Value} (hfree : ∀ t ∈ s.slots, t.location ≠ l)
    (hlocated : ∀ m, Record.message record = .ok m → m.location = l) : (s.arrive l record).Sound stale :=
  ⟨h.toStocked.arrive hfree hlocated, h.erased⟩

variable {places : Int → Bool}

theorem mem_slots_erase {t : Slot} : t ∈ (s.erase places).slots ↔ t ∈ s.slots ∧ places t.location = false := by
  simp [erase]

/-- Records are erased. What the store keeps of them is stale. -/
theorem Stocked.erase (h : s.Stocked stale) (places : Int → Bool) :
    (s.erase places).Stocked fun l => stale l ∨ places l = true := by
  constructor
  case distinct => exact h.distinct.sublist (List.filter_sublist.map _)
  case located => exact fun t ht => h.located t (mem_slots_erase.mp ht).1
  case ready => exact h.ready
  case rows =>
    intro r hr
    rcases h.rows r hr with ⟨t, ht, hbacks⟩ | ⟨l, hl, hlocation⟩
    · cases hp : places t.location with
      | false => exact .inl ⟨t, mem_slots_erase.mpr ⟨ht, hp⟩, hbacks⟩
      | true =>
        obtain ⟨-, p, hm, hkeeps⟩ := hbacks
        rw [← h.located t ht p hm] at hp
        exact .inr ⟨p.location, .inr hp, hkeeps.location, hkeeps.fits⟩
    · exact .inr ⟨l, .inl hl, hlocation⟩

/-- Records that may be erased are erased. -/
theorem Sound.erase (h : s.Sound stale) (hplaces : ∀ t ∈ s.slots, places t.location = true → t.Acknowledged) :
    (s.erase places).Sound fun l => stale l ∨ places l = true := by
  refine ⟨h.toStocked.erase places, fun t ht => ?_⟩
  rcases List.mem_append.mp ht with ht | ht
  · obtain ⟨ht, hp⟩ := List.mem_filter.mp ht
    exact hplaces t ht hp
  · exact h.erased t ht

theorem MayErase.erase (h : s.MayErase l) (hl : places l = false) : (s.erase places).MayErase l := by
  obtain ⟨t, ht, rfl, hack⟩ := h
  exact ⟨t, mem_slots_erase.mpr ⟨ht, hl⟩, rfl, hack⟩

/-- A record that cannot be read is not acknowledged. -/
theorem Jammed.erase (h : s.Jammed) (hplaces : ∀ t ∈ s.slots, places t.location = true → t.Acknowledged) :
    (s.erase places).Jammed := by
  obtain ⟨t, ht, f, hf, hskipped⟩ := h
  refine ⟨t, mem_slots_erase.mpr ⟨ht, ?_⟩, f, hf, hskipped⟩
  by_contra hp
  obtain ⟨-, m, -, p, hp, -⟩ := hplaces t ht (eq_true_of_ne_false hp)
  rw [hf] at hp
  cases hp

/-- The store is told that a place has been erased, and keeps nothing of it any more. -/
theorem Stocked.noted_deleted (h : s.Stocked stale) (c : Candidate) :
    Stocked (fun l => stale l ∧ l ≠ c.location)
      { s with store := Application.noted (κ := κ) s.store (.deleted c) } := by
  obtain ⟨hready, hrows⟩ := Application.noted_deleted (κ := κ) h.ready c
  refine ⟨h.distinct, h.located, hready, ?_⟩
  intro r hr
  obtain ⟨hr, hne⟩ := hrows r hr
  refine (h.rows r hr).imp_right ?_
  intro ⟨l, hl, hlocation, hfits⟩
  refine ⟨l, ⟨hl, ?_⟩, hlocation, hfits⟩
  intro heq
  subst heq
  exact hne hfits hlocation

theorem Sound.noted_deleted (h : s.Sound stale) (c : Candidate) :
    Sound (fun l => stale l ∧ l ≠ c.location)
      { s with store := Application.noted (κ := κ) s.store (.deleted c) } :=
  ⟨h.toStocked.noted_deleted c, h.erased⟩

/-! ## Confirmed places -/

/-- The text of a place tells which place it is. -/
theorem toString_injective {a b : Int} (h : toString a = toString b) : a = b := Int.repr_injective h

theorem confirmed_iff {batch : List Candidate} {output : Except Fault Value} {report : DeletionReport}
    (h : output >>= DeletionReport.ofOutput = .ok report) :
    confirmed (Candidate.arguments batch) output l = true ↔
      (∃ c ∈ batch, c.location = l) ∧ report.confirms l = true := by
  unfold confirmed
  rw [h]
  simp only [Bool.and_eq_true, List.contains_iff_mem, Candidate.arguments, List.mem_map]
  refine and_congr_left fun _ => exists_congr fun c => and_congr_right fun _ => ?_
  exact ⟨toString_injective, congrArg toString⟩

theorem confirmed_of_error {arguments : List String} {output : Except Fault Value} {f : Fault}
    (h : output >>= DeletionReport.ofOutput = .error f) : confirmed arguments output = fun _ => false := by
  funext l
  unfold confirmed
  rw [h]

/-- Where nothing is confirmed nothing is erased. -/
theorem erase_none (s : Site) : s.erase (fun _ => false) = s := by
  simp [erase]

/-! ## Cycles at a site -/

/-- The worlds that cycles, one after the other, may lead to, while records come in at free places. -/
inductive Cycles (E : Surroundings κ Site) (config : Config) (w₀ : World κ Site) : World κ Site → Prop where
  | start : Cycles E config w₀ w₀
  | send {w : World κ Site} (c : SendCall κ) : Cycles E config w₀ w → Cycles E config w₀ (w.send c)
  | arrive {w : World κ Site} {l : Int} {record : Value} : Cycles E config w₀ w →
      (∀ t ∈ w.outside.slots, t.location ≠ l) → (∀ m, Record.message record = .ok m → m.location = l) →
      Cycles E config w₀ { w with outside := w.outside.arrive l record }
  | cycle {w w' : World κ Site} {r : Except Fault CycleReport} : Cycles E config w₀ w →
      (runCycle config).Runs E w r w' → Cycles E config w₀ w'

end Site

end SmsRelay
