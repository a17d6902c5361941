-- SUMMARY: What a history tells of the messages of a group: which have been shown, and which have been offered.
import SmsRelay.Proofs.IsoText
import SmsRelay.Proofs.Reach
import SmsRelay.Proofs.Rows
import SmsRelay.Proofs.Scope

/-!
# What a history tells of reception

Which messages the device has shown, and which messages of a group have been
offered to the application. A history only grows, and most of what happens
leaves both alone.
-/

namespace SmsRelay

/-- The messages that the readable ones among some records describe. -/
def Record.messages (records : List Value) : List Message :=
  records.filterMap fun r => (Record.message r).toOption

/-- A message is what comes before the timestamp of its record, with a timestamp, a header and a service centre. -/
theorem Record.eq_head_of_message {record : Value} {m : Message} (h : Record.message record = .ok m) :
    ∃ fields head header smsc, Record.readHead fields = .ok head ∧
      Record.readHeader (Value.fieldOr fields "udh" .null) = .ok header ∧
      m = { head with timestamp := Timestamp.ofValue? (Value.fieldOr fields "timestamp" .null), header, smsc } := by
  cases record with
  | object fields =>
    have hread : (Record.readFields fields).result = .ok m := h
    unfold Record.readFields at hread
    cases hhead : Record.readHead fields with
    | error f =>
      rw [hhead] at hread
      cases hread
    | ok head =>
      rw [hhead] at hread
      dsimp only at hread
      cases hheader : Record.readHeader (Value.fieldOr fields "udh" .null) with
      | error f =>
        rw [hheader] at hread
        cases hread
      | ok header =>
        rw [hheader] at hread
        cases hread
        exact ⟨fields, head, _, _, hhead, hheader, rfl⟩
  | _ => cases h

/-- What comes before the timestamp of a record speaks of one part at least, and holds none. -/
theorem Record.spec_readHead {fields : List (String × Value)} {head : Message} (h : Record.readHead fields = .ok head) :
    1 ≤ head.total ∧ head.parts = [] := by
  unfold Record.readHead at h
  obtain ⟨sender, -, h⟩ := bind_eq_ok.mp h
  obtain ⟨total, -, h⟩ := bind_eq_ok.mp h
  obtain ⟨part, -, h⟩ := bind_eq_ok.mp h
  obtain ⟨location, -, h⟩ := bind_eq_ok.mp h
  cases h
  exact ⟨Int.le_max_right _ _, rfl⟩

/-- A message as it is read has no parts. -/
theorem Record.parts_of_message {record : Value} {m : Message} (h : Record.message record = .ok m) : m.parts = [] := by
  obtain ⟨fields, head, header, smsc, hhead, -, rfl⟩ := eq_head_of_message h
  exact (spec_readHead hhead).2

theorem Record.one_le_total_of_message {record : Value} {m : Message} (h : Record.message record = .ok m) :
    1 ≤ m.total := by
  obtain ⟨fields, head, header, smsc, hhead, -, rfl⟩ := eq_head_of_message h
  exact (spec_readHead hhead).1

/-- A header as it is read is a number, if there is one. -/
theorem Record.header_of_message {record : Value} {m : Message} (h : Record.message record = .ok m) :
    m.header = .null ∨ ∃ n, m.header = .int n := by
  obtain ⟨fields, head, header, smsc, -, hheader, rfl⟩ := eq_head_of_message h
  generalize Value.fieldOr fields "udh" .null = v at hheader
  unfold readHeader at hheader
  split at hheader
  · exact .inl (Except.ok.inj hheader).symm
  · exact .inl (Except.ok.inj hheader).symm
  · cases hn : v.toInteger with
    | error f =>
      rw [hn] at hheader
      cases hheader
    | ok n =>
      rw [hn] at hheader
      exact .inr ⟨n, (Except.ok.inj hheader).symm⟩

/-- The timestamp of a message as it is read comes back from its text. -/
theorem Record.settled_of_message {record : Value} {m : Message} (h : Record.message record = .ok m) :
    m.timestamp.map Timestamp.settled = m.timestamp := by
  obtain ⟨fields, head, header, smsc, -, -, rfl⟩ := eq_head_of_message h
  dsimp only
  cases hread : Timestamp.ofValue? (Value.fieldOr fields "timestamp" .null) with
  | none => rfl
  | some t => exact congrArg some (Timestamp.settled_of_ofValue? hread)

/-- A message as it is read is a part, or all of the message. -/
theorem Record.total_of_message {record : Value} {m : Message} (h : Record.message record = .ok m)
    (hm : m.isPart = false) : m.total = 1 := by
  have hle := one_le_total_of_message h
  have hgt : ¬ 1 < m.total := by simpa [Message.isPart] using hm
  omega

theorem Record.mem_messages {records : List Value} {m : Message} :
    m ∈ Record.messages records ↔ ∃ record ∈ records, Record.message record = .ok m := by
  simp [Record.messages, toOption_eq_some]

namespace Gateway

variable {κ σ : Type}

/-- The messages that the device has shown. -/
def retrieved (history : List (Occurrence κ)) : List Message :=
  history.flatMap fun
    | .modem _ command _ (.ok (.list records)) => if command = "retrieve" then Record.messages records else []
    | _ => []

/-- The messages with a key that have been offered to the application, and its answers. -/
def offers (key : String) (history : List (Occurrence κ)) : List (Message × Except Fault Returned) :=
  history.filterMap fun
    | .request (.receive m) answer => if m.key = key then some (m, answer) else none
    | _ => none

/-- Neither has the device shown anything nor has the application been offered a message. -/
def Occurrence.IsSilent : Occurrence κ → Prop
  | .modem _ command _ _ => command ≠ "retrieve"
  | .request (.receive _) _ => False
  | _ => True

theorem retrieved_cons_of_isSilent {o : Occurrence κ} (h : o.IsSilent) (history : List (Occurrence κ)) :
    retrieved (o :: history) = retrieved history := by
  unfold retrieved
  rw [List.flatMap_cons]
  split
  · rename_i command _ _
    rw [if_neg h]
    rfl
  · rfl

/-- The device shows some records. -/
theorem retrieved_cons_modem (found : Queues κ) (arguments : List String) (records : List Value)
    (history : List (Occurrence κ)) :
    retrieved (.modem found "retrieve" arguments (.ok (.list records)) :: history) =
      Record.messages records ++ retrieved history := by
  simp [retrieved]

/-- The modem tool fails, or prints something else than records. -/
theorem retrieved_cons_modem_of_error (found : Queues κ) (command : String) (arguments : List String)
    {output : Except Fault Value} (h : ∀ records, output ≠ .ok (.list records)) (history : List (Occurrence κ)) :
    retrieved (.modem found command arguments output :: history) = retrieved history := by
  unfold retrieved
  rw [List.flatMap_cons]
  split
  · rename_i records heq
    cases heq
    exact absurd rfl (h records)
  · rfl

theorem offers_cons_of_isSilent {o : Occurrence κ} (h : o.IsSilent) (key : String)
    (history : List (Occurrence κ)) : offers key (o :: history) = offers key history := by
  cases o with
  | request r a =>
    cases r with
    | receive m => exact h.elim
    | _ => rfl
  | _ => rfl

theorem offers_cons_receive (key : String) (m : Message) (a : Except Fault Returned)
    (history : List (Occurrence κ)) : offers key (.request (.receive m) a :: history) =
      if m.key = key then (m, a) :: offers key history else offers key history := by
  unfold offers
  rw [List.filterMap_cons]
  dsimp only
  split <;> rename_i h <;> split at h <;> simp_all

theorem retrieved_suffix {older history : List (Occurrence κ)} (h : older <:+ history) {m : Message}
    (hm : m ∈ retrieved older) : m ∈ retrieved history := by
  obtain ⟨newer, rfl⟩ := h
  rw [retrieved, List.flatMap_append]
  exact List.mem_append_right _ hm

/-! ## Worlds that differ in other things only -/

/-- From one world to another the history has grown, but queues and news of reception are the same. -/
structure Undisturbed (key : String) (w w' : World κ σ) : Prop where
  inbound : w'.queues.inbound = w.queues.inbound
  deletion : w'.queues.deletion = w.queues.deletion
  retrieved : retrieved w'.history = retrieved w.history
  offers : offers key w'.history = offers key w.history
  history : w.history <:+ w'.history

variable {key : String} {w w' w'' : World κ σ}

theorem Undisturbed.refl (key : String) (w : World κ σ) : Undisturbed key w w :=
  ⟨rfl, rfl, rfl, rfl, List.suffix_rfl⟩

theorem Undisturbed.trans (h : Undisturbed key w w') (h' : Undisturbed key w' w'') : Undisturbed key w w'' :=
  ⟨h'.inbound.trans h.inbound, h'.deletion.trans h.deletion, h'.retrieved.trans h.retrieved,
    h'.offers.trans h.offers, h.history.trans h'.history⟩

theorem undisturbed_note {o : Occurrence κ} (ho : o.IsSilent) : Undisturbed key w (w.note o) :=
  ⟨rfl, rfl, retrieved_cons_of_isSilent ho _, offers_cons_of_isSilent ho _ _, List.suffix_cons _ _⟩

theorem undisturbed_logged (e : Log.Entry) : Undisturbed key w (w.note (.logged e)) :=
  undisturbed_note (by trivial)

theorem undisturbed_send (c : SendCall κ) : Undisturbed key w (w.send c) := by
  unfold World.send
  split
  · exact ⟨rfl, rfl, rfl, rfl, List.suffix_cons _ _⟩
  · exact .refl _ _

theorem undisturbed_sendAll (cs : List (SendCall κ)) : Undisturbed key w (w.sendAll cs) :=
  World.sendAll_keeps (I := Undisturbed key w) (fun c _ hv => hv.trans (undisturbed_send c)) cs (.refl key w)

theorem undisturbed_answered (cs : List (SendCall κ)) (s : σ) {o : Queues κ → Occurrence κ}
    (ho : ∀ q, (o q).IsSilent) : Undisturbed key w (w.answered cs s o) :=
  (undisturbed_sendAll cs).trans
    ⟨rfl, rfl, retrieved_cons_of_isSilent (ho _) _, offers_cons_of_isSilent (ho _) _ _, List.suffix_cons _ _⟩

/-- A message with another key is offered. -/
theorem undisturbed_offered {m : Message} (hm : m.key ≠ key) (cs : List (SendCall κ)) (s : σ)
    (a : Except Fault Returned) : Undisturbed key w (w.answered cs s fun _ => .request (.receive m) a) := by
  apply (undisturbed_sendAll cs).trans
  refine ⟨rfl, rfl, rfl, ?_, List.suffix_cons _ _⟩
  rw [World.history_answered, offers_cons_receive, if_neg hm]

theorem undisturbed_answers {E : Surroundings κ σ} {q : Ask κ} (hq : q.OfTransmission) {r : q.Answer}
    (h : World.Answers E w q r w') : Undisturbed key w w' := by
  cases q with
  | queues =>
    obtain ⟨-, rfl⟩ := h
    exact .refl _ _
  | update f =>
    obtain rfl := h
    exact ⟨(hq w.queues).1, (hq w.queues).2, rfl, rfl, List.suffix_rfl⟩
  | log e =>
    obtain rfl := h
    exact undisturbed_note trivial
  | modem command arguments =>
    obtain ⟨cs, s, -, rfl⟩ := h
    obtain rfl : command = "send" := hq
    exact undisturbed_answered cs s fun _ => by simp [Occurrence.IsSilent]
  | request t =>
    obtain ⟨cs, s, -, rfl⟩ := h
    refine undisturbed_answered cs s fun _ => ?_
    cases t with
    | receive m => cases hq
    | _ => trivial
  | notify n =>
    obtain ⟨cs, s, -, rfl⟩ := h
    exact undisturbed_answered cs s fun _ => trivial
  | callback k m t =>
    obtain ⟨cs, s, -, rfl⟩ := h
    exact undisturbed_answered cs s fun _ => trivial

/-- Only the modem tool shows anything. -/
theorem retrieved_answers {E : Surroundings κ σ} {q : Ask κ} (hq : q.OffModem) {r : q.Answer}
    (h : World.Answers E w q r w') : retrieved w'.history = retrieved w.history := by
  obtain ⟨os, hos, hcome⟩ := World.history_of_answers h
  have hnone : retrieved os = [] := by
    refine List.flatMap_eq_nil_iff.mpr fun o ho => ?_
    cases o with
    | modem found command arguments output => exact absurd (hcome _ ho) (hq.2 command arguments)
    | _ => rfl
  rw [hos, retrieved, List.flatMap_append]
  exact congrArg (· ++ retrieved w.history) hnone

/-- Questions to the application show nothing. -/
theorem keeps_retrieved {E : Surroundings κ σ} {α : Type} {p : Phase κ α} (hp : Phase.Asks Ask.OffModem p)
    (R : List Message) : Phase.Keeps E (fun v => retrieved v.history = R) p :=
  hp.keeps fun _ hq _ _ _ h hv => (retrieved_answers hq h).trans hv

/-! ## Growth -/

theorem history_send (c : SendCall κ) : w.history <:+ (w.send c).history := by
  unfold World.send
  split
  · exact List.suffix_cons _ _
  · exact List.suffix_rfl

theorem history_answers {E : Surroundings κ σ} {q : Ask κ} {r : q.Answer} (h : World.Answers E w q r w') :
    w.history <:+ w'.history := by
  obtain ⟨os, hos, -⟩ := World.history_of_answers h
  exact ⟨os, hos.symm⟩

/-- A history only grows. -/
theorem history_runs {E : Surroundings κ σ} {α : Type} {p : Phase κ α} {r : Except Fault α}
    (h : p.Runs E w r w') : w.history <:+ w'.history := by
  have hkeeps := Flow.Within.keeps (S := signature κ) (I := fun v : World κ σ => w.history <:+ v.history)
    (Flow.within_true p.run) (fun q _ v a v' hans hv => hv.trans (history_answers hans)) h
  exact hkeeps List.suffix_rfl

end Gateway

end SmsRelay
