-- SUMMARY: The table of parts beside the device: rows belong to records that are there, but for erasures not yet heard of.
import SmsRelay.Proofs.StaleCandidates

/-!
# The table of parts and the device

What the application keeps of parts, beside what the device holds. A row of
the table is put in when a record has been read, and moves with the latest copy
of its part; it goes when its message is taken, or when its place has been
erased. Between an erasure and the news of it the table is behind the device;
at all other times it tells only of records that are there.
-/

namespace SmsRelay

open Gateway Gateway.Phase Store

variable {κ : Type}

namespace Site

/-- The modem tool at work on the device, and the application that keeps its messages in the store. -/
def application : Surroundings κ Site where
  modem := (surroundings (κ := κ)).modem
  request s r answer s' := ∃ now store, (answer, store) = Application.reply now s.store r ∧ s' = { s with store }
  notify s n answer s' := answer = .ok () ∧ s' = { s with store := Application.noted s.store n }
  callback s _ _ _ answer s' := answer = .ok () ∧ s' = s

theorem contained_application : (application (κ := κ)).Contained where
  modem h := h.1 _ rfl
  request := by
    intro s s' r f ⟨now, store, h, _⟩
    exact Application.ordinary_reply now s.store r f (congrArg Prod.fst h).symm
  notify h := h.1
  callback h := h.1

theorem aloof_application : (application (κ := κ)).Aloof where
  modem h := h.2
  request := by
    intro s s' m t answer ⟨now, store, h, heq⟩
    obtain rfl : store = s.store := congrArg Prod.snd h
    exact heq
  notify h := h.2
  callback h := h.2

/-! ## The table -/

variable {s s' : Site} {stale : Int → Prop}

/-- The table tells of what is on the device, apart from some stale places, and of each part once. -/
structure Tabled (stale : Int → Prop) (s : Site) : Prop extends Stocked stale s where
  single : s.store.segments.Pairwise fun a b => ¬ a.samePart b = true

theorem tabled_start : Tabled clean {} := by
  refine ⟨sound_start.toStocked, ?_⟩
  simp [Store.initialise]

theorem Tabled.mono {stale' : Int → Prop} (h : s.Tabled stale) (hle : ∀ l, stale l → stale' l) : s.Tabled stale' :=
  ⟨h.toStocked.mono hle, h.single⟩

theorem Tabled.retrieve (h : s.Tabled stale) : s.retrieve.Tabled stale :=
  ⟨h.toStocked.later (later_retrieve s) h.ready fun _ hr => .inl hr, h.single⟩

theorem Tabled.arrive (h : s.Tabled stale) {l : Int} {record : Value} (hfree : ∀ t ∈ s.slots, t.location ≠ l)
    (hlocated : ∀ m, Record.message record = .ok m → m.location = l) : (s.arrive l record).Tabled stale :=
  ⟨h.toStocked.arrive hfree hlocated, h.single⟩

theorem Tabled.erase (h : s.Tabled stale) (places : Int → Bool) :
    (s.erase places).Tabled fun l => stale l ∨ places l = true := ⟨h.toStocked.erase places, h.single⟩

/-- Rows go. -/
theorem Tabled.sublist (h : s.Tabled stale) {store : Store} (hready : store.ready = true)
    (hrows : store.segments.Sublist s.store.segments) : Tabled stale { s with store } :=
  ⟨h.toStocked.later (.of_slots rfl rfl) hready fun _ hr => .inl (hrows.subset hr), h.single.sublist hrows⟩

theorem Tabled.noted (h : s.Tabled stale) (n : Notice κ) :
    Tabled stale { s with store := Application.noted s.store n } := by
  rcases Application.noted_eq s.store n with hsame | ⟨c, -, hforget⟩
  · rw [hsame]
    exact h
  · rw [hforget]
    exact h.sublist h.ready List.filter_sublist

theorem Tabled.noted_deleted (h : s.Tabled stale) (c : Candidate) :
    Tabled (fun l => stale l ∧ l ≠ c.location)
      { s with store := Application.noted (κ := κ) s.store (.deleted c) } :=
  ⟨h.toStocked.noted_deleted c, (h.noted (.deleted c)).single⟩

/-- A part of a record on the device is kept, or not. -/
theorem Tabled.receiveSegment (h : s.Tabled clean) {t : Slot} (ht : t ∈ s.slots) (hretrieved : t.retrieved = true)
    {m : Message} (hm : Record.message t.record = .ok m) (now : String) :
    Tabled clean { s with store := (Application.reply (κ := κ) now s.store (.receiveSegment m)).2 } := by
  rcases Application.store_reply_receiveSegment (κ := κ) now s.store m with hsame | ⟨row, hupsert, hrow⟩
  · rw [hsame]
    exact h
  · rw [hupsert]
    have hparts : ∀ r ∈ s.store.segments, ∃ p, r.part = .int p := by
      intro r hr
      obtain ⟨t', -, -, p, -, hkeeps⟩ := h.backed hr
      exact ⟨p.part, hkeeps.part⟩
    refine ⟨h.toStocked.later (.of_slots rfl rfl) h.ready fun r hr => ?_, pairwise_upsert h.single⟩
    exact (keeps_of_mem_upsert hrow hparts hr).imp_right fun hkeeps => ⟨t, ht, hretrieved, m, hm, hkeeps⟩

/-- Any other request drops rows at most. -/
theorem Tabled.reply (h : s.Tabled stale) (now : String) {r : Request κ} (hr : ∀ m, r ≠ .receiveSegment m) :
    Tabled stale { s with store := (Application.reply now s.store r).2 } := by
  cases r with
  | receive m =>
    obtain ⟨-, hreply⟩ | ⟨-, f, hreply⟩ := Application.reply_receive (κ := κ) now s.store h.ready m
    · rw [hreply]
      refine h.sublist h.ready ?_
      dsimp only
      split
      · exact List.filter_sublist
      · exact .refl _
    · rw [hreply]
      exact h
  | receiveSegment m => exact absurd rfl (hr m)
  | returnSegments key =>
    rw [Application.reply_returnSegments]
    exact h
  | transmit m t => exact h

/-- In different places there are different parts. -/
theorem Tabled.location_ne (h : s.Tabled clean) : s.store.segments.Pairwise fun a b => a.location ≠ b.location := by
  refine h.single.imp_of_mem fun {a b} ha hb hne heq => hne ?_
  obtain ⟨t, ht, -, p, hp, hkeeps⟩ := h.backed ha
  obtain ⟨t', ht', -, p', hp', hkeeps'⟩ := h.backed hb
  have hplace : p.location = p'.location := by
    have hcell := hkeeps.location.symm.trans (heq.trans hkeeps'.location)
    exact Cell.int.inj hcell
  obtain rfl : t = t' := by
    refine h.eq_of_location ht ht' ?_
    rw [← h.located t ht p hp, ← h.located t' ht' p' hp', hplace]
  obtain rfl : p = p' := Except.ok.inj (hp.symm.trans hp')
  rw [samePart_iff, hkeeps.part, hkeeps'.part]
  exact ⟨hkeeps.key.trans hkeeps'.key.symm, by simp⟩

/-! ## Phases -/

variable {w w' : World κ Site}

/-- Questions of a reception that has read some records: no part is to be kept but those of the records, and
nothing is erased. -/
def Reads (records : List Value) (q : Ask κ) : Prop :=
  (∀ command arguments, q ≠ .modem command arguments) ∧ (∀ c, q ≠ .notify (.deleted c)) ∧
    ∀ m, q = .request (.receiveSegment m) → ∃ record ∈ records, Record.message record = .ok m

/-- The records are on the device, and it has shown them. -/
def Holds (records : List Value) (s : Site) : Prop :=
  ∀ record ∈ records, ∃ t ∈ s.slots, t.record = record ∧ t.retrieved = true

theorem tabled_answers {records : List Value} {q : Ask κ} (hq : Reads records q) {r : q.Answer}
    (h : World.Answers application w q r w') (hw : w.outside.Tabled clean ∧ w.outside.Holds records) :
    w'.outside.Tabled clean ∧ w'.outside.Holds records := by
  cases q with
  | queues =>
    obtain ⟨-, rfl⟩ := h
    exact hw
  | update f =>
    obtain rfl := h
    exact hw
  | log e =>
    obtain rfl := h
    exact hw
  | modem command arguments => exact absurd rfl (hq.1 command arguments)
  | callback k m t =>
    obtain ⟨cs, s, ⟨-, rfl⟩, rfl⟩ := h
    exact hw
  | notify n =>
    obtain ⟨cs, s, ⟨-, rfl⟩, rfl⟩ := h
    exact ⟨hw.1.noted n, hw.2⟩
  | request put =>
    obtain ⟨cs, s, ⟨now, store, hreply, rfl⟩, rfl⟩ := h
    obtain rfl : store = _ := congrArg Prod.snd hreply
    refine ⟨?_, hw.2⟩
    cases put with
    | receiveSegment m =>
      obtain ⟨record, hrecord, hm⟩ := hq.2.2 m rfl
      obtain ⟨t, ht, rfl, hretrieved⟩ := hw.2 record hrecord
      exact hw.1.receiveSegment ht hretrieved hm now
    | receive m => exact hw.1.reply now nofun
    | returnSegments key => exact hw.1.reply now nofun
    | transmit m t => exact hw.1.reply now nofun

theorem keeps_reads {α : Type} {records : List Value} {p : Phase κ α} (hp : Asks (Reads records) p) :
    Keeps application (fun v => v.outside.Tabled clean ∧ v.outside.Holds records) p :=
  hp.keeps fun _ hq _ _ _ h hw => tabled_answers hq h hw

theorem reads_ofRecords {records : List Value} {q : Ask κ} (h : q.OfRecords records) : Reads records q := by
  refine ⟨h.1.offModem.2, fun c heq => ?_, h.2⟩
  subst heq
  rcases h.1 with ⟨m, f, heq⟩ | ⟨record, f, heq⟩
  · cases heq
  · cases heq

theorem asks_reads_deliverPhase : Asks (Reads []) (deliverPhase : Phase κ Unit) := by
  unfold deliverPhase
  refine (asks_queues ⟨nofun, nofun, nofun⟩).bind fun q => ?_
  refine ((asks_forM asks_deliver _).mono fun q hq => ?_).bind fun _ => asks_update ⟨nofun, nofun, nofun⟩
  refine ⟨hq.offModem.2, fun c heq => ?_, fun m heq => ?_⟩
  · subst heq
    obtain ⟨m, f, heq⟩ := hq
    cases heq
  · subst heq
    cases hq

theorem keeps_tabled_transmitPhase (size : Value) :
    Keeps application (fun v : World κ Site => v.outside.Tabled clean) (transmitPhase size) := by
  refine (asks_transmitPhase size).keeps fun q hq v r v' h hv => ?_
  rw [aloof_application.outside hq h]
  exact hv

theorem keeps_tabled_receivePhase :
    Keeps application (fun v : World κ Site => v.outside.Tabled clean) receivePhase := by
  intro w hw
  apply Phase.ensures_receivePhase (fun records v => v.outside.Tabled clean ∧ v.outside.Holds records)
    fun v => v.outside.Tabled clean
  case nothing =>
    intro cs s output hne ⟨_, hs⟩
    obtain ⟨records, -, rfl, -⟩ | ⟨-, rfl⟩ := hs
    · exact absurd rfl (hne records)
    · exact hw
  case shown =>
    intro cs s records ⟨_, hs⟩
    obtain ⟨shown, hperm, houtput, rfl⟩ | ⟨hnothing, -⟩ := hs
    · cases houtput
      refine ⟨hw.retrieve, fun record hrecord => ?_⟩
      obtain ⟨t, ht, rfl⟩ := List.mem_map.mp (hperm.mem_iff.mp hrecord)
      exact ⟨_, List.mem_map_of_mem ht, rfl, rfl⟩
    · exact absurd rfl (hnothing records)
  case taken =>
    intro records v hv
    have hasks : Asks (Reads records) (records.foldlM receiveRecord [] : Phase κ (List String)) :=
      (asks_ofRecords records []).mono fun _ => reads_ofRecords
    exact (keeps_reads hasks v hv).mono (fun _ _ h => h.1) fun _ _ h => h.1
  case logged => exact fun e v hv => hv
  case delivered =>
    intro v hv
    have hholds : v.outside.Holds [] := nofun
    exact (keeps_reads asks_reads_deliverPhase v ⟨hv, hholds⟩).mono (fun _ _ h => h.1) fun _ _ h => h.1

/-- In a deletion the places that are confirmed are stale, until the application has heard of each. -/
theorem keeps_tabled_deletePhase (size : Value) :
    Keeps application (fun v : World κ Site => v.outside.Tabled clean) (deletePhase size) := by
  intro w hw
  apply Phase.ensures_deletePhase contained_application fun report batch before _ v => v.outside.Tabled fun l =>
    (∃ c ∈ batch, c.location = l) ∧ report.confirms l = true ∧ ∀ c ∈ before, c.location ≠ l
  case logged => exact fun e v hv => hv
  case hw => exact hw
  case failed =>
    intro n cs s output f _ hf ⟨_, heq⟩
    subst heq
    rw [World.outside_answered]
    rwa [confirmed_of_error hf, erase_none]
  case begun =>
    intro n cs s output report _ hreport ⟨_, heq⟩
    subst heq
    refine (hw.erase _).mono fun l hl => ?_
    obtain ⟨hbatch, hconfirms⟩ := (confirmed_iff hreport).mp (hl.resolve_left id)
    exact ⟨hbatch, hconfirms, by simp⟩
  case confirmed =>
    intro report batch before c rest v cs s _ hv _ ⟨_, heq⟩
    subst heq
    refine (hv.noted_deleted (κ := κ) c).mono fun l ⟨⟨hbatch, hconfirms, hbefore⟩, hne⟩ => ?_
    exact ⟨hbatch, hconfirms, List.forall_mem_append.mpr ⟨hbefore, by simpa using hne.symm⟩⟩
  case refused =>
    intro report batch before c rest v e _ hv hrefused
    refine hv.mono fun l ⟨hbatch, hconfirms, hbefore⟩ => ⟨hbatch, hconfirms, List.forall_mem_append.mpr ⟨hbefore, ?_⟩⟩
    rw [List.forall_mem_singleton]
    intro heq
    subst heq
    rw [hrefused] at hconfirms
    cases hconfirms
  case settled =>
    intro report n rest v _ hv
    exact hv.mono fun l ⟨⟨c, hc, hlocation⟩, _, hbatch⟩ => hbatch c hc hlocation

/-! ## Whole runs -/

theorem Cycles.tabled {config : Config} {w₀ : World κ Site} (h : Cycles application config w₀ w)
    (hw₀ : w₀.outside.Tabled clean) : w.outside.Tabled clean := by
  induction h with
  | start => exact hw₀
  | send c _ ih =>
    rw [World.outside_send]
    exact ih
  | arrive _ hfree hlocated ih => exact ih.arrive hfree hlocated
  | @cycle w w' r _ hr ih =>
    have hcycle : Keeps application (fun v : World κ Site => v.outside.Tabled clean) (runCycle config) :=
      Phase.keeps_runCycle (fun _ _ hv => hv) (keeps_tabled_transmitPhase _) keeps_tabled_receivePhase
        (keeps_tabled_deletePhase _)
    cases r with
    | ok report => exact (hcycle w ih).result hr
    | error f => exact (hcycle w ih).fault hr

/-- Whatever comes in and whatever the modem tool fails at, after each cycle every row of the table has a place
at which the device holds a record of that part of that group, and no two rows have the same place. -/
theorem segments_on_device {config : Config} (h : Cycles application config { outside := {} } w) :
    (∀ r ∈ w.outside.store.segments, ∃ t ∈ w.outside.slots, r.location = .int t.location ∧
      ∃ m, Record.message t.record = .ok m ∧ r.key = m.key ∧ r.part = .int m.part) ∧
    w.outside.store.segments.Pairwise fun a b => a.location ≠ b.location := by
  have htabled := h.tabled tabled_start
  refine ⟨fun r hr => ?_, htabled.location_ne⟩
  obtain ⟨t, ht, -, m, hm, hkeeps⟩ := htabled.backed hr
  refine ⟨t, ht, ?_, m, hm, hkeeps.key, hkeeps.part⟩
  rw [hkeeps.location, htabled.located t ht m hm]

/-- A modem tool that erases the first place and no other, and the application. -/
def storing : Replies κ Site where
  modem := (replies true true).modem
  request s r := ((Application.reply "" s.store r).1, [], { s with store := (Application.reply "" s.store r).2 })
  notify s n := ([], { s with store := Application.noted s.store n })

theorem storing_allowed : (storing (κ := κ)).Allowed application where
  modem := (replies_allowed true true).modem
  request _ _ := ⟨"", _, rfl, rfl⟩
  notify _ _ := ⟨rfl, rfl⟩
  callback _ _ _ _ := ⟨rfl, rfl⟩

/-- One of two parts of a message. -/
private def halfRecord (sender : String) (place : Int) : Value :=
  .object [("from", .text sender), ("location", .int place), ("content", .text "half"), ("total-segments", .int 2)]

/-- A message is taken and erased, beside a part of another; then a part of a third one comes in in its place. -/
theorem segments_on_device_reuse : ∃ w : World Unit Site, Cycles application {} { outside := {} } w ∧
    (∀ r ∈ w.outside.store.segments, ∃ t ∈ w.outside.slots, r.location = .int t.location ∧
      ∃ m, Record.message t.record = .ok m ∧ r.key = m.key ∧ r.part = .int m.part) ∧
    w.outside.store.inbox.length = 1 ∧ w.outside.erased.map Slot.location = [1] ∧
    w.outside.store.segments.length = 2 := by
  have harrive : ∀ {w : World Unit Site} (record : Value) (l : Int),
      Cycles application {} { outside := {} } w → w.outside.slots.all (·.location ≠ l) = true →
      (Record.message record).toOption.map Message.location = some l →
      Cycles application {} { outside := {} } { w with outside := w.outside.arrive l record } := by
    intro w record l h hfree hplace
    refine h.arrive (fun t ht => of_decide_eq_true (List.all_eq_true.mp hfree t ht)) fun m hm => ?_
    rw [hm] at hplace
    exact Option.some.inj hplace
  have hfirst := harrive firstRecord 1 .start rfl rfl
  have hsecond := harrive (halfRecord "+3" 2) 2 hfirst rfl rfl
  have herased := hsecond.cycle (Replies.runs_run storing_allowed _ _)
  have hreused := harrive (halfRecord "+4" 1) 1 herased (by decide +kernel) rfl
  have h := hreused.cycle (Replies.runs_run storing_allowed _ _)
  exact ⟨_, h, (segments_on_device h).1, by decide +kernel, by decide +kernel, by decide +kernel⟩

end Site

end SmsRelay
