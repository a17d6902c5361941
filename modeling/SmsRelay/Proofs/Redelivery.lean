-- SUMMARY: Messages that are still on the device are offered again; how often their places are queued.
import SmsRelay.Proofs.Acknowledgement
import SmsRelay.Proofs.Isolation
import SmsRelay.Proofs.SpentGroups
import SmsRelay.Proofs.StaleCandidates

/-!
# Messages that are offered again

A message that has been accepted stays on the device until its place is erased,
and a reception does not ask what has been accepted before. So whenever the
device shows its records, each single message that is still there is offered
once more; and whenever the application accepts it, or a message that has been
put together with a part from its place, the place is queued once more.
-/

namespace SmsRelay

open Gateway Gateway.Phase

variable {κ : Type}

/-! ## Single messages -/

/-- The message is in one part, and comes from the place. -/
def Message.isSingleAt (l : Int) (m : Message) : Bool := !m.isPart && m.location = l

/-- The places of messages: those of single messages from one place, and those of messages put together from
parts. -/
theorem Message.count_flatMap_locations {ms : List Message} (hms : ∀ m ∈ ms, m.isPart = false → m.parts = [])
    (l : Int) : (ms.flatMap locations).count l =
      (ms.filter (·.isSingleAt l)).length + ((ms.filter isPart).flatMap locations).count l := by
  induction ms with
  | nil => rfl
  | cons m ms ih =>
    obtain ⟨hm, hms⟩ := List.forall_mem_cons.mp hms
    rw [List.flatMap_cons, List.count_append, ih hms]
    cases hpart : m.isPart with
    | true =>
      rw [List.filter_cons_of_pos hpart, List.filter_cons_of_neg (by simp [isSingleAt, hpart]), List.flatMap_cons,
        List.count_append]
      omega
    | false =>
      have hskip : (m :: ms).filter isPart = ms.filter isPart := List.filter_cons_of_neg (by simp [hpart])
      rw [hskip, locations_of_parts_eq_nil (hm hpart), List.count_singleton, List.filter_cons]
      by_cases hlocation : m.location = l
      · simp [isSingleAt, hpart, hlocation]
        omega
      · simp [isSingleAt, hpart, hlocation]

namespace Gateway

variable {σ : Type} {E : Surroundings κ σ} {w w' : World κ σ}

/-- The device has shown records. -/
def Occurrence.isShowing : Occurrence κ → Bool
  | .modem _ command _ (.ok (.list _)) => command = "retrieve"
  | _ => false

/-- How often the device has shown its records. -/
def showings (history : List (Occurrence κ)) : Nat := history.countP Occurrence.isShowing

theorem showings_append (newer older : List (Occurrence κ)) :
    showings (newer ++ older) = showings newer + showings older := List.countP_append

theorem offered_append (newer older : List (Occurrence κ)) :
    offered (newer ++ older) = offered older ++ offered newer := by simp [offered]

theorem taken_append (newer older : List (Occurrence κ)) : taken (newer ++ older) = taken newer ++ taken older :=
  List.filterMap_append

/-- What has been accepted has been offered. -/
theorem taken_sublist (history : List (Occurrence κ)) : (taken history).Sublist (offered history).reverse := by
  rw [offered, List.reverse_reverse]
  induction history with
  | nil => exact .refl _
  | cons o history ih =>
    cases o with
    | request r answer =>
      cases r with
      | receive m =>
        cases answer with
        | ok x => exact ih.cons_cons m
        | error f => exact ih.cons m
      | _ => exact ih
    | _ => exact ih

theorem offered_of_silent {os : List (Occurrence κ)} (h : Silent os) : offered os = [] :=
  List.reverse_eq_nil_iff.mpr (List.filterMap_eq_nil_iff.mpr h)

theorem taken_of_silent {os : List (Occurrence κ)} (h : Silent os) : taken os = [] := by
  have hsublist := taken_sublist os
  rw [offered_of_silent h] at hsublist
  exact List.sublist_nil.mp hsublist

theorem Passes.offered (h : Passes w w') : offered w'.history = offered w.history := by
  obtain ⟨os, hos, hsilent⟩ := h.history
  rw [hos, offered_append, offered_of_silent hsilent, List.append_nil]

theorem showings_sendAll (cs : List (SendCall κ)) (w : World κ σ) :
    showings (w.sendAll cs).history = showings w.history := by
  refine World.sendAll_keeps (I := fun v => showings v.history = showings w.history) (fun c v hv => ?_) cs rfl
  unfold World.send
  split
  · exact hv
  · exact hv

/-- A retrieval has come to nothing. -/
theorem showings_nothing {output : Except Fault Value} (h : ∀ records, output ≠ .ok (.list records))
    (cs : List (SendCall κ)) (w : World κ σ) (s : σ) :
    showings (w.answered cs s fun q => .modem q "retrieve" [] output).history = showings w.history := by
  have hnot : ∀ found, ¬ (Occurrence.modem (κ := κ) found "retrieve" [] output).isShowing = true := by
    intro found hshowing
    unfold Occurrence.isShowing at hshowing
    split at hshowing
    · rename_i heq
      cases heq
      exact h _ rfl
    · cases hshowing
  rw [World.history_answered, showings, List.countP_cons_of_neg (hnot _)]
  exact showings_sendAll cs w

theorem showings_records (records : List Value) (cs : List (SendCall κ)) (w : World κ σ) (s : σ) :
    showings (w.answered cs s fun q => .modem q "retrieve" [] (.ok (.list records))).history =
      showings w.history + 1 := by
  rw [World.history_answered, showings, List.countP_cons_of_pos (by rfl)]
  exact congrArg (· + 1) (showings_sendAll cs w)

/-- Only a retrieval shows records. -/
theorem showings_answers {q : Ask κ} (hq : ∀ arguments, q ≠ .modem "retrieve" arguments) {r : q.Answer}
    (h : World.Answers E w q r w') : showings w'.history = showings w.history := by
  obtain ⟨os, hos, hcome⟩ := World.history_of_answers h
  have hnone : showings os = 0 := by
    refine List.countP_eq_zero.mpr fun o ho hshowing => ?_
    unfold Occurrence.isShowing at hshowing
    split at hshowing
    · rename_i arguments _
      obtain rfl := of_decide_eq_true hshowing
      exact hq arguments (hcome _ ho)
    · cases hshowing
  rw [hos, showings_append, hnone, Nat.zero_add]

/-- Only a deletion confirms candidates. -/
theorem confirmed_answers {q : Ask κ} (hq : ∀ arguments, q ≠ .modem "delete" arguments) {r : q.Answer}
    (h : World.Answers E w q r w') : confirmed w'.history = confirmed w.history := by
  obtain ⟨os, hos, hcome⟩ := World.history_of_answers h
  have hnone : confirmed os = [] := by
    refine List.flatMap_eq_nil_iff.mpr fun o ho => List.reverse_eq_nil_iff.mpr ?_
    cases o with
    | modem found command arguments output =>
      have hne : command ≠ "delete" := by
        intro heq
        subst heq
        exact hq arguments (hcome _ ho)
      exact confirmed_of_offBooks hne
    | _ => rfl
  rw [hos, confirmed, List.flatMap_append]
  exact congrArg (· ++ confirmed w.history) hnone

/-- Of the messages that are accepted, one candidate for each of their places is queued or has been confirmed. -/
theorem Books.count_deletion (h : Books w) (l : Int) :
    (w.queues.deletion.map Candidate.location).count l + ((confirmed w.history).filter (·.location = l)).length =
      ((taken w.history).flatMap Message.locations).count l := by
  have hgranted : (granted w.history).map Candidate.location = (taken w.history).flatMap Message.locations := by
    rw [granted, List.map_flatMap]
    exact List.flatMap_congr fun m _ => Message.map_location_candidates m
  rw [← hgranted, (h.balance.map Candidate.location).count_eq, List.map_append, List.count_append,
    Nat.add_left_cancel_iff, ← List.countP_eq_length_filter, List.count_eq_countP, List.countP_map]
  exact List.countP_congr fun c _ => by simp

end Gateway

namespace Site

/-! ## Surroundings -/

/-- The modem tool at work on the device, none of whose records stops a retrieval. The application gives any
answers. -/
def offering : Surroundings κ Site where
  modem s command arguments output s' := (surroundings (κ := κ)).modem s command arguments output s' ∧
    (command = "retrieve" → ∀ records, output = .ok (.list records) → ∀ record ∈ records, Record.jam? record = none)
  request s _ answer s' := Ordinary answer ∧ s' = s
  notify s _ answer s' := answer = .ok () ∧ s' = s
  callback s _ _ _ answer s' := answer = .ok () ∧ s' = s

theorem contained_offering : (offering (κ := κ)).Contained where
  modem h := h.1.1 _ rfl
  request h := h.1 _ rfl
  notify h := h.1
  callback h := h.1

variable {s s' : Site} {stale : Int → Prop} {l : Int} {m : Message} {w v u : World κ Site}

/-- A place holds the record. -/
def Has (l : Int) (record : Value) (s : Site) : Prop := ∃ t ∈ s.slots, t.location = l ∧ t.record = record

/-- The records that have been erased from a place. -/
def erasedAt (l : Int) (s : Site) : List Slot := s.erased.filter (·.location = l)

/-- Of the single messages that a device shows one is from each place that holds one. -/
theorem Stocked.filter_messages (h : s.Stocked stale) {record : Value} (hhas : s.Has l record)
    (hm : Record.message record = .ok m) (hsingle : m.isPart = false) :
    (Record.messages (s.slots.map Slot.record)).filter (·.isSingleAt l) = [m] := by
  obtain ⟨t, ht, rfl, rfl⟩ := hhas
  obtain ⟨before, after, heq⟩ := List.append_of_mem ht
  have hdistinct := h.distinct
  rw [heq, List.map_append, List.map_cons, List.nodup_middle, ← List.map_append, List.nodup_cons,
    List.mem_map] at hdistinct
  have hother : ∀ ts ⊆ before ++ after,
      (Record.messages (ts.map Slot.record)).filter (·.isSingleAt t.location) = [] := by
    intro ts hts
    refine List.filter_eq_nil_iff.mpr fun a ha hsingle => hdistinct.1 ?_
    obtain ⟨record, hrecord, hmessage⟩ := Record.mem_messages.mp ha
    obtain ⟨t', ht', rfl⟩ := List.mem_map.mp hrecord
    have hmem : t' ∈ s.slots := by
      rw [heq]
      exact ((List.sublist_cons_self t after).append_left before).subset (hts ht')
    have hplace : a.location = t.location := by simp_all [Message.isSingleAt]
    exact ⟨t', hts ht', (h.located t' hmem a hmessage).symm.trans hplace⟩
  have hself : Record.messages [t.record] = [m] := by simp [Record.messages, hm, Except.toOption]
  have happend : ∀ xs ys, Record.messages (xs ++ ys) = Record.messages xs ++ Record.messages ys :=
    fun _ _ => List.filterMap_append
  rw [heq, List.map_append, List.map_cons, ← List.singleton_append, happend, happend, hself, List.filter_append,
    List.filter_append, hother before (List.subset_append_left _ _), hother after (List.subset_append_right _ _)]
  simp [Message.isSingleAt, hsingle, h.located t ht m hm]

/-! ## Phases that leave the device alone -/

/-- From one world to another the device has shown nothing, and nothing has been erased. -/
structure Unmoved (w w' : World κ Site) : Prop where
  outside : w'.outside = w.outside
  showings : showings w'.history = showings w.history
  confirmed : Gateway.confirmed w'.history = Gateway.confirmed w.history

theorem Unmoved.refl (w : World κ Site) : Unmoved w w := ⟨rfl, rfl, rfl⟩

theorem Unmoved.trans (h : Unmoved w v) (h' : Unmoved v u) : Unmoved w u :=
  ⟨h'.outside.trans h.outside, h'.showings.trans h.showings, h'.confirmed.trans h.confirmed⟩

/-- Questions that have nothing to do with what is on the device. -/
def OffDevice (q : Ask κ) : Prop :=
  ∀ command arguments, q = .modem command arguments → command ≠ "retrieve" ∧ command ≠ "delete"

theorem offDevice_of_offTool {q : Ask κ} (h : q.OffTool) : OffDevice q :=
  fun command arguments heq => absurd heq (h command arguments)

theorem offDevice_of_ofTransmission {q : Ask κ} (h : q.OfTransmission) : OffDevice q := by
  intro command arguments heq
  subst heq
  simp [show command = "send" from h]

theorem unmoved_answers {q : Ask κ} (hq : OffDevice q) {r : q.Answer} (h : World.Answers offering w q r v) :
    Unmoved w v := by
  constructor
  case showings => exact showings_answers (fun arguments heq => (hq _ arguments heq).1 rfl) h
  case confirmed => exact confirmed_answers (fun arguments heq => (hq _ arguments heq).2 rfl) h
  case outside =>
    cases q with
    | queues =>
      obtain ⟨-, rfl⟩ := h
      rfl
    | update f =>
      obtain rfl := h
      rfl
    | log e =>
      obtain rfl := h
      rfl
    | modem command arguments =>
      obtain ⟨hretrieve, hdelete⟩ := hq command arguments rfl
      obtain ⟨cs, s, ⟨⟨-, hs⟩, -⟩, rfl⟩ := h
      rwa [if_neg hretrieve, if_neg hdelete] at hs
    | request t =>
      obtain ⟨cs, s, ⟨-, hs⟩, rfl⟩ := h
      exact hs
    | notify n =>
      obtain ⟨cs, s, ⟨-, hs⟩, rfl⟩ := h
      exact hs
    | callback k m t =>
      obtain ⟨cs, s, ⟨-, hs⟩, rfl⟩ := h
      exact hs

theorem keeps_unmoved {α : Type} {p : Phase κ α} (hp : Asks OffDevice p) (w : World κ Site) :
    Ensures offering p w (fun _ => Unmoved w) (fun _ => Unmoved w) :=
  hp.keeps (fun _ hq _ _ _ h hv => hv.trans (unmoved_answers hq h)) w (.refl w)

/-! ## From cycle to cycle -/

/-- Between the phases. No message waits to be offered. -/
structure Steady (w : World κ Site) : Prop where
  stocked : w.outside.Stocked fun _ => True
  inbound : w.queues.inbound = []
  parts : ∀ m ∈ offered w.history, m.isPart = false → m.parts = []

/-- From one world to another the single message in a place has been offered whenever the device has shown its
records. No candidate for the place has been confirmed. -/
structure Repeats (l : Int) (m : Message) (w v : World κ Site) : Prop where
  offered : ∃ n, showings v.history = showings w.history + n ∧
    (offered v.history).filter (·.isSingleAt l) = (offered w.history).filter (·.isSingleAt l) ++ List.replicate n m
  confirmed : (Gateway.confirmed v.history).filter (·.location = l) =
    (Gateway.confirmed w.history).filter (·.location = l)

theorem Repeats.trans (h : Repeats l m w v) (h' : Repeats l m v u) : Repeats l m w u := by
  obtain ⟨⟨n, hshowings, hoffered⟩, hconfirmed⟩ := h
  obtain ⟨⟨n', hshowings', hoffered'⟩, hconfirmed'⟩ := h'
  refine ⟨⟨n + n', by rw [hshowings', hshowings, Nat.add_assoc], ?_⟩, hconfirmed'.trans hconfirmed⟩
  rw [hoffered', hoffered, List.append_assoc, List.replicate_append_replicate]

theorem repeats_of_eq (hshowings : showings v.history = showings w.history)
    (hoffered : offered v.history = offered w.history)
    (hconfirmed : (Gateway.confirmed v.history).filter (·.location = l) =
      (Gateway.confirmed w.history).filter (·.location = l)) : Repeats l m w v :=
  ⟨⟨0, hshowings, by rw [hoffered, List.replicate_zero, List.append_nil]⟩, hconfirmed⟩

/-- One world comes after another: each place from which nothing has been erased meanwhile holds what it has
held, and if that is a single message it has been offered whenever the device has shown its records. -/
structure Onward (w v : World κ Site) : Prop where
  steady : Steady v
  erased l : w.outside.erasedAt l <:+ v.outside.erasedAt l
  repeats {l record m} : v.outside.erasedAt l = w.outside.erasedAt l → w.outside.Has l record →
    Record.message record = .ok m → m.isPart = false → v.outside.Has l record ∧ Repeats l m w v

theorem Steady.onward (hw : Steady w) : Onward w w :=
  ⟨hw, fun _ => List.suffix_rfl, fun _ hhas _ _ => ⟨hhas, repeats_of_eq rfl rfl rfl⟩⟩

theorem Onward.trans (h : Onward w v) (h' : Onward v u) : Onward w u := by
  refine ⟨h'.steady, fun l => (h.erased l).trans (h'.erased l), fun {l record m} herased hhas hm hsingle => ?_⟩
  have hmiddle : v.outside.erasedAt l = w.outside.erasedAt l :=
    ((h.erased l).eq_of_length_le (herased ▸ (h'.erased l).length_le)).symm
  obtain ⟨hhas', hrepeats⟩ := h.repeats hmiddle hhas hm hsingle
  obtain ⟨hhas'', hrepeats'⟩ := h'.repeats (herased.trans hmiddle.symm) hhas' hm hsingle
  exact ⟨hhas'', hrepeats.trans hrepeats'⟩

/-- Nothing has happened on the device, and nothing has been offered. -/
theorem Steady.onward_of_passes (hw : Steady w) (hunmoved : Unmoved w v) (hpasses : Passes w v) : Onward w v := by
  have hoffered := hpasses.offered
  refine ⟨⟨?_, hpasses.inbound.trans hw.inbound, ?_⟩, fun l => ?_, fun _ hhas _ _ => ⟨?_, ?_⟩⟩
  · rw [hunmoved.outside]
    exact hw.stocked
  · rw [hoffered]
    exact hw.parts
  · rw [hunmoved.outside]
  · rwa [hunmoved.outside]
  · exact repeats_of_eq hunmoved.showings hoffered (congrArg _ hunmoved.confirmed)

theorem ensures_transmitPhase_onward (hw : Steady w) (size : Value) : Ensures offering (transmitPhase size) w
    (fun _ v => Onward w v ∧ showings v.history = showings w.history)
    (fun _ v => Onward w v ∧ showings v.history = showings w.history) := by
  have hasks := asks_transmitPhase (κ := κ) size
  have hpasses := hasks.keeps (E := offering) (I := Passes w)
    (fun _ hq _ _ _ h hv => hv.trans (.of_answers hq.passing h)) w (.refl w)
  have hunmoved := keeps_unmoved (hasks.mono fun _ => offDevice_of_ofTransmission) w
  refine (hunmoved.and hpasses).mono ?_ ?_
  · exact fun _ v ⟨hv, hv'⟩ => ⟨hw.onward_of_passes hv hv', hv.showings⟩
  · exact fun _ v ⟨hv, hv'⟩ => ⟨hw.onward_of_passes hv hv', hv.showings⟩

/-! ## Reception -/

/-- The device has shown its records. Some messages stand in the queue, and some have been offered. -/
structure Displays (w : World κ Site) (records : List Value) (ready passed : List Message) (v : World κ Site) :
    Prop where
  perm : records.Perm (w.outside.slots.map Slot.record)
  outside : v.outside = w.outside.retrieve
  showings : showings v.history = showings w.history + 1
  confirmed : Gateway.confirmed v.history = Gateway.confirmed w.history
  inbound : v.queues.inbound = ready
  offered : offered v.history = offered w.history ++ passed

section

variable {records : List Value} {ready passed arrived passed' : List Message} {dealt : List (Occurrence κ)}

theorem Displays.moves (h : Displays w records ready passed v) (hunmoved : Unmoved v u)
    (hmoves : Moves arrived dealt passed' v u) : Displays w records (ready ++ arrived) (passed ++ passed') u where
  perm := h.perm
  outside := hunmoved.outside.trans h.outside
  showings := hunmoved.showings.trans h.showings
  confirmed := hunmoved.confirmed.trans h.confirmed
  inbound := by rw [hmoves.inbound, h.inbound]
  offered := by rw [hmoves.offered, h.offered, List.append_assoc]

/-- All that was ready has been offered. -/
theorem Displays.onward (h : Displays w records [] ready v) (hw : Steady w)
    (hsingles : ready.filter (!·.isPart) = (Record.messages records).filter (!·.isPart)) : Onward w v := by
  constructor
  case steady =>
    refine ⟨?_, h.inbound, fun a ha hsingle => ?_⟩
    · rw [h.outside]
      exact hw.stocked.later (later_retrieve _) hw.stocked.ready fun _ hr => .inl hr
    · rw [h.offered] at ha
      rcases List.mem_append.mp ha with ha | ha
      · exact hw.parts a ha hsingle
      · have hmem : a ∈ ready.filter (!·.isPart) := List.mem_filter.mpr ⟨ha, by simp [hsingle]⟩
        rw [hsingles] at hmem
        obtain ⟨record, -, hrecord⟩ := Record.mem_messages.mp (List.mem_filter.mp hmem).1
        exact Record.parts_of_message hrecord
  case erased =>
    intro l
    rw [h.outside]
    exact List.suffix_rfl
  case repeats =>
    intro l record m _ hhas hm hsingle
    refine ⟨?_, ⟨1, h.showings, ?_⟩, congrArg _ h.confirmed⟩
    · obtain ⟨t, ht, hlocation, hrecord⟩ := hhas
      rw [h.outside]
      exact ⟨_, List.mem_map_of_mem ht, hlocation, hrecord⟩
    · have hfilter : ∀ ms : List Message,
          ms.filter (·.isSingleAt l) = (ms.filter (!·.isPart)).filter (·.location = l) := by
        intro ms
        rw [List.filter_filter]
        exact List.filter_congr fun a _ => Bool.and_comm _ _
      have hperm : (ready.filter (·.isSingleAt l)).Perm [m] := by
        rw [hfilter, hsingles, ← hfilter, ← hw.stocked.filter_messages hhas hm hsingle]
        exact (h.perm.filterMap _).filter _
      rw [h.offered, List.filter_append, List.perm_singleton.mp hperm]
      rfl

/-- The device shows nothing, or all that it shows is offered. -/
theorem ensures_receivePhase_onward (hw : Steady w) : Ensures offering receivePhase w
    (fun _ v => Onward w v ∧ showings v.history ≤ showings w.history + 1)
    (fun _ v => Onward w v ∧ showings v.history ≤ showings w.history + 1) := by
  have hconfirmed : ∀ cs s output, Gateway.confirmed (w.answered cs s fun q => .modem q "retrieve" [] output).history =
      Gateway.confirmed w.history :=
    fun cs s output => (unbooked_answered cs s fun _ => by simp [Occurrence.OffBooks]).confirmed
  apply Phase.ensures_receivePhase
    (fun records v => Displays w records [] [] v ∧ records.findSome? Record.jam? = none)
    (fun v => ∃ records ready, Displays w records ready [] v ∧ (∀ m ∈ ready, m.isPart = true → m.parts ≠ []) ∧
      ready.filter (!·.isPart) = (Record.messages records).filter (!·.isPart))
  case nothing =>
    rintro cs s output hnothing ⟨⟨-, hs⟩, -⟩
    rcases hs with ⟨records, -, rfl, -⟩ | ⟨-, rfl⟩
    · exact absurd rfl (hnothing records)
    · have hshowings := showings_nothing hnothing cs w w.outside
      have hunmoved : Unmoved w (w.answered cs w.outside fun q => .modem q "retrieve" [] output) :=
        ⟨rfl, hshowings, hconfirmed cs _ output⟩
      exact ⟨hw.onward_of_passes hunmoved (passes_answered cs _ fun _ => rfl), hshowings.le.trans (Nat.le_succ _)⟩
  case shown =>
    rintro cs s records ⟨⟨-, hs⟩, hjam⟩
    rcases hs with ⟨shown, hperm, houtput, rfl⟩ | ⟨hnothing, -⟩
    · cases houtput
      have hpasses : Passes w
          (w.answered cs w.outside.retrieve fun q => .modem q "retrieve" [] (.ok (.list records))) :=
        passes_answered cs _ fun _ => rfl
      refine ⟨⟨hperm, rfl, showings_records records cs w _, hconfirmed cs _ _, hpasses.inbound.trans hw.inbound, ?_⟩,
        List.findSome?_eq_none_iff.mpr (hjam rfl _ rfl)⟩
      rw [hpasses.offered, List.append_nil]
    · exact absurd rfl (hnothing records)
  case taken =>
    rintro records v ⟨hv, hjam⟩
    have hasks : Asks OffDevice (records.foldlM receiveRecord [] : Phase κ (List String)) :=
      (asks_receiveRecords records []).mono fun _ h => offDevice_of_offTool h.offModem.2
    have htaken := (ensures_receiveRecords_sifted records v).and
      ((ensures_receiveRecords_jam contained_offering records [] v).and (keeps_unmoved hasks v))
    refine htaken.mono ?_ ?_
    · rintro completed u ⟨⟨intakes, ready, hsifts, hmoves⟩, _, hunmoved⟩
      exact ⟨records, ready, hv.moves hunmoved hmoves, fun m => hsifts.parts_ne_nil, hsifts.singles⟩
    · rintro f u ⟨_, hf, _⟩
      rw [hjam] at hf
      cases hf
  case logged =>
    rintro e v ⟨records, ready, hv, hready⟩
    exact ⟨records, ready, ⟨hv.perm, hv.outside, hv.showings, hv.confirmed, hv.inbound, hv.offered⟩, hready⟩
  case delivered =>
    rintro v ⟨records, ready, hv, hparts, hsingles⟩
    have hasks : Asks OffDevice (deliverPhase : Phase κ Unit) :=
      asks_deliverPhase.mono fun _ h => offDevice_of_offTool h.2
    have hdelivered := (ensures_deliverPhase_offered (hv.inbound ▸ hparts)).and
      ((completes_deliverPhase contained_offering v).and (keeps_unmoved hasks v))
    refine hdelivered.mono ?_ ?_
    · rintro _ u ⟨⟨v', hmoves, rfl⟩, _, hunmoved⟩
      rw [hv.inbound] at hmoves
      have hv' := hv.moves (u := v') ⟨hunmoved.outside, hunmoved.showings, hunmoved.confirmed⟩ hmoves
      have hu : Displays w records [] ready (v'.update fun q => { q with inbound := [] }) :=
        ⟨hv'.perm, hv'.outside, hv'.showings, hv'.confirmed, rfl, hv'.offered⟩
      exact ⟨hu.onward hw hsingles, hu.showings.le⟩
    · exact fun _ _ h => h.2.1.elim

end

/-! ## Deletion -/

/-- The device has erased some places. No candidate for any other has been confirmed. -/
def Erases (w v : World κ Site) : Prop :=
  ∃ places, v.outside = w.outside.erase places ∧ ∀ l, places l = false →
    (Gateway.confirmed v.history).filter (·.location = l) = (Gateway.confirmed w.history).filter (·.location = l)

/-- A call to erase a batch erases the places whose candidates it confirms. -/
theorem erases_answered (n : Nat) (cs : List (SendCall κ)) (output : Except Fault Value) :
    Erases w (w.answered cs (w.outside.erase (confirmed (Candidate.arguments (w.queues.deletion.take n)) output))
      fun q => .modem q "delete" (Candidate.arguments (w.queues.deletion.take n)) output) := by
  have hsent : Unbooked w (w.sendAll cs) := unbooked_sendAll cs
  refine ⟨_, rfl, fun l hl => ?_⟩
  rw [World.history_answered, confirmed_cons, List.filter_append, hsent.confirmed]
  suffices h : ((Occurrence.modem (w.sendAll cs).queues "delete" (Candidate.arguments (w.queues.deletion.take n))
      output).confirmed).filter (·.location = l) = [] by
    rw [List.filter_reverse, h, List.reverse_nil, List.nil_append]
  cases hreport : output >>= DeletionReport.ofOutput with
  | error f => rw [Gateway.confirmed_of_error hreport, List.filter_nil]
  | ok report =>
    rw [← hsent.deletion, confirmed_delete hreport, hsent.deletion]
    refine List.filter_eq_nil_iff.mpr fun c hc hlocation => ?_
    obtain ⟨hbatch, hconfirms⟩ := List.mem_filter.mp hc
    obtain rfl := of_decide_eq_true hlocation
    rw [(confirmed_iff hreport).mpr ⟨⟨c, hbatch, rfl⟩, hconfirms⟩] at hl
    cases hl

theorem ensures_deletePhase_erases (w : World κ Site) (size : Value) :
    Ensures offering (deletePhase size) w (fun _ => Erases w) (fun _ => Erases w) := by
  apply Phase.ensures_deletePhase contained_offering fun _ _ _ _ => Erases w
  case logged => exact fun e v hv => hv
  case hw => exact ⟨fun _ => false, (erase_none _).symm, fun _ _ => rfl⟩
  case failed =>
    rintro n cs s output f _ _ ⟨⟨-, rfl⟩, -⟩
    exact erases_answered n cs output
  case begun =>
    rintro n cs s output report _ _ ⟨⟨-, rfl⟩, -⟩
    exact erases_answered n cs output
  case confirmed =>
    rintro report batch before c rest v cs s _ ⟨places, hplaces, hconfirmed⟩ _ ⟨-, rfl⟩
    have hsent : Unbooked v (v.sendAll cs) := unbooked_sendAll cs
    exact ⟨places, hplaces, fun l hl => (congrArg _ hsent.confirmed).trans (hconfirmed l hl)⟩
  case refused => exact fun report batch before c rest v e _ hv _ => hv
  case settled => exact fun report n rest v _ hv => hv

/-- Places have been erased, and nothing has been offered. -/
theorem Steady.onward_of_erases (hw : Steady w) (herases : Erases w v) (hpasses : Passes w v)
    (hshowings : showings v.history = showings w.history) : Onward w v := by
  obtain ⟨places, houtside, hconfirmed⟩ := herases
  have hoffered := hpasses.offered
  have herasedAt : ∀ l, v.outside.erasedAt l =
      (w.outside.slots.filter fun t => places t.location).filter (·.location = l) ++ w.outside.erasedAt l := by
    intro l
    rw [houtside]
    exact List.filter_append _ _
  constructor
  case steady =>
    refine ⟨?_, hpasses.inbound.trans hw.inbound, hoffered ▸ hw.parts⟩
    rw [houtside]
    exact (hw.stocked.erase places).mono fun _ _ => trivial
  case erased => exact fun l => ⟨_, (herasedAt l).symm⟩
  case repeats =>
    intro l record m heq ⟨t, ht, hlocation, hrecord⟩ _ _
    have hplace : places l = false := by
      rw [herasedAt, List.append_left_eq_self] at heq
      have hkept := List.filter_eq_nil_iff.mp heq t
      simpa [ht, hlocation] using hkept
    refine ⟨⟨t, ?_, hlocation, hrecord⟩, repeats_of_eq hshowings hoffered (hconfirmed l hplace)⟩
    rw [houtside, mem_slots_erase, hlocation]
    exact ⟨ht, hplace⟩

theorem ensures_deletePhase_onward (hw : Steady w) (size : Value) : Ensures offering (deletePhase size) w
    (fun _ v => Onward w v ∧ showings v.history = showings w.history)
    (fun _ v => Onward w v ∧ showings v.history = showings w.history) := by
  have hkeeps := (asks_deletePhase size).keeps (E := offering)
    (I := fun v => Passes w v ∧ showings v.history = showings w.history) ?_ w ⟨.refl w, rfl⟩
  · refine ((ensures_deletePhase_erases w size).and hkeeps).mono ?_ ?_
    · exact fun _ v ⟨herases, hpasses, hshowings⟩ => ⟨hw.onward_of_erases herases hpasses hshowings, hshowings⟩
    · exact fun _ v ⟨herases, hpasses, hshowings⟩ => ⟨hw.onward_of_erases herases hpasses hshowings, hshowings⟩
  · intro q hq v r v' h ⟨hpasses, hshowings⟩
    refine ⟨hpasses.trans (.of_answers hq.passing h), (showings_answers ?_ h).trans hshowings⟩
    intro arguments heq
    subst heq
    exact absurd (show "retrieve" = "delete" from hq) (by decide)

/-! ## Cycles -/

theorem ensures_runCycle_onward (hw : Steady w) (config : Config) : Ensures offering (runCycle config) w
    (fun _ v => Onward w v ∧ showings v.history ≤ showings w.history + 1)
    (fun _ v => Onward w v ∧ showings v.history ≤ showings w.history + 1) := by
  have hlogged : ∀ (n : Nat → Prop) e v, Onward w v ∧ n (showings v.history) →
      Onward w (v.note (.logged e)) ∧ n (showings (v.note (.logged e)).history) := by
    intro n e v ⟨hv, hn⟩
    exact ⟨hv.trans (hv.steady.onward_of_passes ⟨rfl, rfl, rfl⟩ (passes_note rfl)), hn⟩
  have hcycle := Phase.ensures_runCycle (w := w) (hlogged (· = showings w.history))
    (hlogged (· ≤ showings w.history + 1)) (hlogged (· ≤ showings w.history + 1))
    (ensures_transmitPhase_onward hw config.transmitBatch) ?_ ?_
  · refine hcycle.mono (fun _ _ => id) fun _ v hv => ?_
    rcases hv with ⟨hv, hn⟩ | hv | hv
    · exact ⟨hv, hn.le.trans (Nat.le_succ _)⟩
    · exact hv
    · exact hv
  · intro v ⟨hv, hn⟩
    rw [← hn]
    refine (ensures_receivePhase_onward hv.steady).mono ?_ ?_
    · exact fun _ u ⟨hu, hle⟩ => ⟨hv.trans hu, hle⟩
    · exact fun _ u ⟨hu, hle⟩ => ⟨hv.trans hu, hle⟩
  · intro v ⟨hv, hn⟩
    refine (ensures_deletePhase_onward hv.steady _).mono ?_ ?_
    · exact fun _ u ⟨hu, heq⟩ => ⟨hv.trans hu, heq ▸ hn⟩
    · exact fun _ u ⟨hu, heq⟩ => ⟨hv.trans hu, heq ▸ hn⟩

theorem Steady.arrive (hw : Steady w) {record : Value} (hfree : ∀ t ∈ w.outside.slots, t.location ≠ l)
    (hlocated : ∀ m, Record.message record = .ok m → m.location = l) :
    Onward w { w with outside := w.outside.arrive l record } := by
  refine ⟨⟨hw.stocked.arrive hfree hlocated, hw.inbound, hw.parts⟩, fun _ => List.suffix_rfl, fun _ hhas _ _ => ?_⟩
  obtain ⟨t, ht, hat⟩ := hhas
  exact ⟨⟨t, List.mem_cons_of_mem _ ht, hat⟩, repeats_of_eq rfl rfl rfl⟩

theorem Cycles.onward {config : Config} (h : Cycles offering config w v) (hw : Steady w) : Onward w v := by
  induction h with
  | start => exact hw.onward
  | @send v c _ ih =>
    have hpasses : Passes v (v.send c) := passes_send c
    have hunmoved : Unmoved v (v.send c) :=
      ⟨World.outside_send c v, showings_sendAll [c] v, (unbooked_send c).confirmed⟩
    exact ih.trans (ih.steady.onward_of_passes hunmoved hpasses)
  | arrive _ hfree hlocated ih => exact ih.trans (ih.steady.arrive hfree hlocated)
  | @cycle v v' r _ hr ih =>
    have hcycle := ensures_runCycle_onward ih.steady config
    cases r with
    | ok report => exact ih.trans (hcycle.result hr).1
    | error f => exact ih.trans (hcycle.fault hr).1

/-- Histories grow, and the books stay in order. -/
theorem Cycles.books {E : Surroundings κ Site} (hE : E.Contained) {config : Config} (h : Cycles E config w v)
    (hw : Books w) : Books v ∧ w.history <:+ v.history := by
  induction h with
  | start => exact ⟨hw, List.suffix_rfl⟩
  | send c _ ih => exact ⟨ih.1.unbooked (unbooked_send c), ih.2.trans (history_send c)⟩
  | arrive _ _ _ ih => exact ⟨⟨ih.1.balance, ih.1.notices, ih.1.erases⟩, ih.2⟩
  | @cycle v v' r _ hr ih =>
    have hcycle := books_runCycle hE config v ih.1
    refine ⟨?_, ih.2.trans (history_runs hr)⟩
    cases r with
    | ok report => exact hcycle.result hr
    | error f => exact hcycle.fault hr

/-- A place from which nothing is erased is queued once more for each message from there that is accepted. -/
theorem Repeats.count_deletion (h : Repeats l m w v) (hbooks : Books w) (hbooks' : Books v)
    {newer : List (Occurrence κ)} (hnewer : newer ++ w.history = v.history) :
    (v.queues.deletion.map Candidate.location).count l = (w.queues.deletion.map Candidate.location).count l +
      ((taken newer).flatMap Message.locations).count l := by
  have hfirst := hbooks.count_deletion l
  have hlast := hbooks'.count_deletion l
  rw [h.confirmed, ← hnewer, taken_append, List.flatMap_append, List.count_append] at hlast
  omega

theorem steady_start : Steady ({ outside := {} } : World κ Site) where
  stocked := sound_start.toStocked.mono fun _ _ => trivial
  inbound := rfl
  parts := by simp [offered]

/-- The device holds one record at most in each place, shows all of them or none, and erases what it reports as
erased or nothing; none of its records stops a retrieval, and the application gives any answers. As long as a
single message is on the device it is offered once whenever the device shows its records, which it does
once in a cycle at most, whether or not it has been accepted before and is to be erased. Its place is queued
once more whenever it is accepted, and once more for each part from there of a message that has been put
together and is accepted, and at no other time. -/
theorem offered_at_each_showing {config : Config} (hw : Cycles offering config { outside := {} } w)
    (hv : Cycles offering config w v) {t : Slot} (ht : t ∈ w.outside.slots)
    (hm : Record.message t.record = .ok m) (hsingle : m.isPart = false)
    (hkept : v.outside.erasedAt t.location = w.outside.erasedAt t.location) :
    (∃ newer, v.history = newer ++ w.history ∧
      (offered newer).filter (·.isSingleAt t.location) = List.replicate (showings newer) m ∧
      ∃ n ≤ showings newer, (taken newer).filter (·.isSingleAt t.location) = List.replicate n m ∧
        (v.queues.deletion.map Candidate.location).count t.location =
          (w.queues.deletion.map Candidate.location).count t.location + n +
            (((taken newer).filter Message.isPart).flatMap Message.locations).count t.location) ∧
    ∀ r u, (runCycle config).Runs offering v r u → showings u.history ≤ showings v.history + 1 := by
  have hsteady := (hw.onward steady_start).steady
  have honward := hv.onward hsteady
  obtain ⟨hbooks, -⟩ := hw.books contained_offering (books_start _)
  obtain ⟨hbooks', newer, hnewer⟩ := hv.books contained_offering hbooks
  obtain ⟨-, hrepeats⟩ := honward.repeats hkept ⟨t, ht, rfl, rfl⟩ hm hsingle
  have hqueued := hrepeats.count_deletion hbooks hbooks' hnewer
  obtain ⟨⟨n, hshowings, hoffered⟩, -⟩ := hrepeats
  refine ⟨⟨newer, hnewer.symm, ?_⟩, fun r u hr => ?_⟩
  · rw [← hnewer, showings_append, Nat.add_comm, Nat.add_left_cancel_iff] at hshowings
    rw [← hnewer, offered_append, List.filter_append, List.append_cancel_left_eq] at hoffered
    subst hshowings
    refine ⟨hoffered, ?_⟩
    -- what has been accepted is among what has been offered, and so it is copies of the message
    have hsublist := (taken_sublist newer).filter (·.isSingleAt t.location)
    rw [List.filter_reverse, hoffered, List.reverse_replicate] at hsublist
    obtain ⟨k, hk, htaken⟩ := List.sublist_replicate_iff.mp hsublist
    refine ⟨k, hk, htaken, ?_⟩
    have hparts : ∀ m ∈ taken newer, m.isPart = false → m.parts = [] := by
      intro m hm
      refine honward.steady.parts m ?_
      rw [← hnewer, offered_append]
      exact List.mem_append_right _ (List.mem_reverse.mp ((taken_sublist newer).subset hm))
    rw [hqueued, Message.count_flatMap_locations hparts, htaken, List.length_replicate, Nat.add_assoc]
  · have hcycle := ensures_runCycle_onward honward.steady config
    cases r with
    | ok report => exact (hcycle.result hr).2
    | error f => exact (hcycle.fault hr).2

/-- A modem tool that shows what is on the device, if nothing there stops a retrieval, and never erases. The
application accepts everything. -/
def refusing : Replies κ Site where
  modem s command arguments :=
    (replies (s.slots.all fun t => (Record.jam? t.record).isNone) false).modem s command arguments
  request s _ := (.ok .nothing, [], s)

theorem refusing_allowed : (refusing (κ := κ)).Allowed offering where
  modem s command arguments := by
    refine ⟨(replies_allowed _ false).modem s command arguments, fun hretrieve records houtput record hrecord => ?_⟩
    subst hretrieve
    simp only [refusing, replies, if_pos] at houtput
    split at houtput
    · rename_i hall
      cases houtput
      obtain ⟨t, ht, rfl⟩ := List.mem_map.mp hrecord
      exact Option.isNone_iff_eq_none.mp (List.all_eq_true.mp hall t ht)
    · cases houtput
  request _ _ := ⟨ordinary_ok _, rfl⟩
  notify _ _ := ⟨rfl, rfl⟩
  callback _ _ _ _ := ⟨rfl, rfl⟩

/-- A record has come in, and there have been some cycles. -/
def afterCycles : Nat → World Unit Site
  | 0 => { outside := ({} : Site).arrive 1 firstRecord }
  | n + 1 => (refusing.run (runCycle {}) (afterCycles n)).2

theorem cycles_afterCycles (n : Nat) : Cycles offering {} { outside := {} } (afterCycles n) := by
  induction n with
  | zero =>
    refine .arrive .start (by simp) fun m hm => ?_
    cases hm
    rfl
  | succ n ih => exact ih.cycle (Replies.runs_run refusing_allowed _ _)

theorem cycles_afterCycles_add (k n : Nat) : Cycles offering {} (afterCycles k) (afterCycles (k + n)) := by
  induction n with
  | zero => exact .start
  | succ n ih => exact ih.cycle (Replies.runs_run refusing_allowed _ _)

/-- The message is accepted in the first cycle, and offered and accepted again in each of two more. -/
theorem offered_at_each_showing_refused :
    (∃ newer, (afterCycles 3).history = newer ++ (afterCycles 1).history ∧
      (offered newer).filter (·.isSingleAt 1) = List.replicate (showings newer) firstMessage ∧
      ∃ n ≤ showings newer, (taken newer).filter (·.isSingleAt 1) = List.replicate n firstMessage ∧
        ((afterCycles 3).queues.deletion.map Candidate.location).count 1 =
          ((afterCycles 1).queues.deletion.map Candidate.location).count 1 + n +
            (((taken newer).filter Message.isPart).flatMap Message.locations).count 1) ∧
    showings (afterCycles 1).history = 1 ∧ showings (afterCycles 3).history = 3 ∧
    (afterCycles 3).queues.deletion.map Candidate.location = [1, 1, 1] := by
  have hslot : (⟨1, firstRecord, true, []⟩ : Slot) ∈ (afterCycles 1).outside.slots := .head _
  have hshowing := offered_at_each_showing (m := firstMessage)
    (cycles_afterCycles 1) (cycles_afterCycles_add 1 2) hslot rfl rfl rfl
  exact ⟨hshowing.1, rfl, rfl, rfl⟩

/-- A single message that has been accepted, is still on the device and is still to be erased is offered again in the
next cycle, and its place is queued a second time. -/
theorem accepted_offered_again : ∃ (w v : World Unit Site) (t : Slot) (m : Message),
    Cycles offering {} { outside := {} } w ∧ (∃ r, (runCycle {}).Runs offering w r v) ∧
    Record.message t.record = .ok m ∧ m.isPart = false ∧ m ∈ taken w.history ∧
    w.outside.slots = [t] ∧ v.outside.slots = [t] ∧ v.outside.erased = [] ∧
    w.queues.deletion.map Candidate.location = [t.location] ∧ offered w.history = [m] ∧
    v.queues.deletion.map Candidate.location = [t.location, t.location] ∧ offered v.history = [m, m] :=
  ⟨afterCycles 1, afterCycles 2, ⟨1, firstRecord, true, []⟩, firstMessage, cycles_afterCycles 1,
    ⟨_, Replies.runs_run refusing_allowed _ _⟩, rfl, rfl, .head _, rfl, rfl, rfl, rfl, rfl, rfl, rfl⟩

end Site

end SmsRelay
