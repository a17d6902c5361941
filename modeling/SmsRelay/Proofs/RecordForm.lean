-- SUMMARY: The grammar of message records: which values describe a message.
import SmsRelay.Proofs.History
import SmsRelay.Proofs.Numerals

/-!
# The form of message records

Which values describe a message, by the form of their fields. Six fields decide
about that; all others may hold anything. Of the others, the timestamp is read
apart from the rest of the message.
-/

namespace SmsRelay.Record

/-! ## Well-formed records -/

/-- The fields describe a message: there is a sender and a place, and the numbers are integral where they are given. -/
structure WellFormed (fields : List (String × Value)) : Prop where
  sender : ∃ s, Value.field? fields "from" = some (.text s) ∧ s ≠ ""
  location : ∃ v, Value.field? fields "location" = some v ∧ v.Integral
  /-- Of the two spellings the first counts, if it is there at all. -/
  total : ∀ v, (Value.field? fields "total-segments").or (Value.field? fields "total_segments") = some v →
    v.isGiven = true → v.Integral
  part : ∀ v, Value.field? fields "segment" = some v → v.isGiven = true → v.Integral
  /-- A zero or an empty text is no missing header. -/
  header : ∀ v, Value.field? fields "udh" = some v → v = .null ∨ v = .bool false ∨ v.Integral

/-- The fields that decide whether a record describes a message. -/
def decisive : List String := ["from", "location", "total-segments", "total_segments", "segment", "udh"]

/-! ## Reading fields -/

section

variable {α : Type} {fields fields' : List (String × Value)}

theorem exists_map_eq_ok {β : Type} {x : Except Fault α} {f : α → β} :
    (∃ b, x.map f = .ok b) ↔ ∃ a, x = .ok a := by
  cases x with
  | ok a => exact ⟨fun _ => ⟨a, rfl⟩, fun _ => ⟨f a, rfl⟩⟩
  | error e => exact ⟨nofun, nofun⟩

/-- What comes after a reading may depend on what has been read, but not whether it succeeds. -/
theorem exists_bind_eq_ok {β : Type} {x : Except Fault α} {f : α → Except Fault β} {P : Prop}
    (hf : ∀ a, (∃ b, f a = .ok b) ↔ P) : (∃ b, (x >>= f) = .ok b) ↔ (∃ a, x = .ok a) ∧ P := by
  cases x with
  | ok a => exact (hf a).trans ⟨fun h => ⟨⟨a, rfl⟩, h⟩, And.right⟩
  | error e => exact ⟨nofun, nofun⟩

theorem map_bind_eq {β γ : Type} (x : Except Fault α) (f : α → Except Fault β) (g : β → γ) :
    (x >>= f).map g = x >>= fun a => (f a).map g := by cases x <;> rfl

theorem map_map_eq {β γ : Type} (x : Except Fault α) (f : α → β) (g : β → γ) :
    (x.map f).map g = x.map (g ∘ f) := by cases x <;> rfl

theorem exists_readSender : (∃ s, readSender fields = .ok s) ↔
    ∃ s, Value.field? fields "from" = some (.text s) ∧ s ≠ "" := by
  unfold readSender
  split
  · simp [*]
  · rename_i s hs
    by_cases hempty : s = ""
    · simp [hs, hempty]
    · simp [hs, hempty]
  · rename_i v hv hfrom
    simp only [hfrom, reduceCtorEq, exists_const, false_iff]
    rintro ⟨s, hs, -⟩
    exact hv s (Option.some.inj hs)

theorem exists_readLocation : (∃ n, readLocation fields = .ok n) ↔
    ∃ v, Value.field? fields "location" = some v ∧ v.Integral := by
  unfold readLocation
  split
  · simp [*]
  · rename_i v hv
    simp [hv, Value.integral_iff]

/-- A number that is not given counts as one. -/
theorem exists_readCount {v : Option Value} :
    (∃ n, readCount v = .ok n) ↔ ∀ u, v = some u → u.isGiven = true → u.Integral := by
  unfold readCount
  cases v with
  | none => simp
  | some u =>
    rw [Option.getD_some, Value.orElse]
    split
    · rename_i hgiven
      simp [hgiven, Value.integral_iff]
    · rename_i hgiven
      simp [hgiven]

theorem exists_readHeader {v : Option Value} : (∃ h, readHeader (v.getD .null) = .ok h) ↔
    ∀ u, v = some u → u = .null ∨ u = .bool false ∨ u.Integral := by
  cases v with
  | none => exact ⟨nofun, fun _ => ⟨.null, rfl⟩⟩
  | some u =>
    rw [Option.getD_some]
    unfold readHeader
    split
    · simp
    · simp
    · rename_i hnull hfalse
      rw [exists_map_eq_ok, ← Value.integral_iff]
      refine ⟨fun h v hv => .inr (.inr (Option.some.inj hv ▸ h)), fun h => ?_⟩
      exact (h u rfl).elim (absurd · hnull) fun h => h.elim (absurd · hfalse) id

/-! ## Whole records -/

/-- The message of an object: the head, then the timestamp, then the header. -/
theorem message_object : message (.object fields) = readHead fields >>= fun head =>
    (readHeader (Value.fieldOr fields "udh" .null)).map fun header =>
      { head with
        timestamp := Timestamp.ofValue? (Value.fieldOr fields "timestamp" .null)
        header
        smsc := (Value.fieldOr fields "smsc" .null).orElse .null } := by
  rw [message, read, readFields]
  cases readHead fields <;> rfl

theorem exists_readHead : (∃ head, readHead fields = .ok head) ↔ (∃ s, readSender fields = .ok s) ∧
    (∃ n, readCount (firstField? fields "total-segments" "total_segments") = .ok n) ∧
    (∃ n, readCount (Value.field? fields "segment") = .ok n) ∧ ∃ n, readLocation fields = .ok n :=
  exists_bind_eq_ok fun _ => exists_bind_eq_ok fun _ => exists_bind_eq_ok fun _ =>
    (exists_bind_eq_ok fun _ => ⟨fun _ => trivial, fun _ => ⟨_, rfl⟩⟩).trans (and_iff_left trivial)

/-- An object describes a message exactly if its fields are well formed. -/
theorem exists_message_object : (∃ m, message (.object fields) = .ok m) ↔ WellFormed fields := by
  rw [message_object, exists_bind_eq_ok fun _ => exists_map_eq_ok, exists_readHead, exists_readSender, exists_readCount,
    exists_readCount, exists_readLocation, Value.fieldOr, exists_readHeader]
  constructor
  · rintro ⟨⟨hsender, htotal, hpart, hlocation⟩, hheader⟩
    exact ⟨hsender, hlocation, htotal, hpart, hheader⟩
  · rintro ⟨hsender, hlocation, htotal, hpart, hheader⟩
    exact ⟨⟨hsender, htotal, hpart, hlocation⟩, hheader⟩

theorem exists_message {record : Value} :
    (∃ m, message record = .ok m) ↔ ∃ fields, record = .object fields ∧ WellFormed fields := by
  cases record with
  | object fields => simp [exists_message_object]
  | _ => exact ⟨nofun, nofun⟩

/-! ## Fields that do not matter -/

/-- Two records with the same decisive fields are both read, or are refused for the same fault. -/
theorem outcome_congr (h : ∀ name ∈ decisive, Value.field? fields name = Value.field? fields' name) :
    (message (.object fields)).map (fun _ => ()) = (message (.object fields')).map fun _ => () := by
  have hcount : firstField? fields "total-segments" "total_segments" =
      firstField? fields' "total-segments" "total_segments" := by
    rw [firstField?, firstField?, h "total-segments" (by decide), h "total_segments" (by decide)]
  have houtcome : ∀ fields, (message (.object fields)).map (fun _ => ()) = (do
      let _ ← readSender fields
      let _ ← readCount (firstField? fields "total-segments" "total_segments")
      let _ ← readCount (Value.field? fields "segment")
      let _ ← readLocation fields
      (readHeader (Value.fieldOr fields "udh" .null)).map fun _ => ()) := by
    intro fields
    rw [message_object, readHead]
    simp only [map_bind_eq, map_map_eq, bind_assoc, pure_bind]
  rw [houtcome, houtcome, hcount, readSender, readSender, readLocation, readLocation, Value.fieldOr, Value.fieldOr,
    h "from" (by decide), h "segment" (by decide), h "location" (by decide), h "udh" (by decide)]

/-- Two records that differ in their timestamps alone describe messages that differ in their timestamps alone. -/
theorem message_retimed (h : ∀ name, name ≠ "timestamp" → Value.field? fields name = Value.field? fields' name) :
    message (.object fields') = (message (.object fields)).map fun m =>
      { m with timestamp := Timestamp.ofValue? (Value.fieldOr fields' "timestamp" .null) } := by
  have hhead : readHead fields' = readHead fields := by
    simp only [readHead, readSender, readLocation, readText, firstField?, h _ (show "from" ≠ "timestamp" by decide),
      h _ (show "total-segments" ≠ "timestamp" by decide), h _ (show "total_segments" ≠ "timestamp" by decide),
      h _ (show "segment" ≠ "timestamp" by decide), h _ (show "location" ≠ "timestamp" by decide),
      h _ (show "content" ≠ "timestamp" by decide), h _ (show "text" ≠ "timestamp" by decide)]
  have hrest : ∀ name, name ≠ "timestamp" → Value.fieldOr fields' name .null = Value.fieldOr fields name .null :=
    fun name hname => congrArg (·.getD .null) (h name hname).symm
  rw [message_object, message_object, hhead, hrest "udh" (by decide), hrest "smsc" (by decide)]
  cases readHead fields with
  | error f => rfl
  | ok head => cases readHeader (Value.fieldOr fields "udh" .null) <;> rfl

end

/-- A message as it is read has a sender. -/
theorem sender_of_message {record : Value} {m : Message} (h : message record = .ok m) : m.sender ≠ "" := by
  obtain ⟨fields, head, header, smsc, hhead, -, rfl⟩ := eq_head_of_message h
  unfold readHead at hhead
  obtain ⟨sender, hsender, hhead⟩ := bind_eq_ok.mp hhead
  obtain ⟨total, -, hhead⟩ := bind_eq_ok.mp hhead
  obtain ⟨part, -, hhead⟩ := bind_eq_ok.mp hhead
  obtain ⟨location, -, hhead⟩ := bind_eq_ok.mp hhead
  cases hhead
  unfold readSender at hsender
  split at hsender
  · cases hsender
  · split at hsender
    · cases hsender
    · cases hsender
      assumption
  · cases hsender

/-! ## What describes a message -/

/-- A record describes a message exactly if it is an object whose fields are well formed; all else is refused. Fields
that are not decisive do not change whether, or for which fault, a record is refused. The timestamp changes nothing of
the message but its timestamp. A message that is read has a sender, at least one part, and none at hand. -/
theorem describes_message_iff (record : Value) (fields fields' : List (String × Value)) :
    ((∃ m, message record = .ok m) ↔ ∃ fs, record = .object fs ∧ WellFormed fs) ∧
      ((∃ f, message record = .error f) ↔ ¬∃ fs, record = .object fs ∧ WellFormed fs) ∧
      ((∀ name ∈ decisive, Value.field? fields name = Value.field? fields' name) →
        (message (.object fields)).map (fun _ => ()) = (message (.object fields')).map fun _ => ()) ∧
      ((∀ name, name ≠ "timestamp" → Value.field? fields name = Value.field? fields' name) →
        message (.object fields') = (message (.object fields)).map fun m =>
          { m with timestamp := Timestamp.ofValue? (Value.fieldOr fields' "timestamp" .null) }) ∧
      ∀ m, message record = .ok m → m.sender ≠ "" ∧ 1 ≤ m.total ∧ m.parts = [] := by
  have hrefused : (∃ f, message record = .error f) ↔ ¬∃ m, message record = .ok m := by
    cases message record <;> simp
  refine ⟨exists_message, hrefused.trans (not_congr exists_message), outcome_congr, message_retimed, fun m hm => ?_⟩
  exact ⟨sender_of_message hm, one_le_total_of_message hm, parts_of_message hm⟩

/-- A record with numbers in several spellings. -/
def padded (timestamp : Value) : List (String × Value) :=
  [("from", .text "+15550100"), ("location", .text " 1_2 "), ("total-segments", .null), ("total_segments", .text "x"),
    ("segment", .text ""), ("udh", .bool false), ("content", .list []), ("timestamp", timestamp)]

/-- A timestamp that is no date is left out, and nothing else changes. -/
theorem describes_message_iff_padded : ∃ m,
    message (.object (padded (.text "2024-02-29 10:00:00"))) = .ok m ∧ m.location = 12 ∧ m.timestamp.isSome = true ∧
      (∀ name ∈ decisive, Value.field? (padded (.text "2024-02-29 10:00:00")) name =
        Value.field? (padded (.text "2023-02-29 10:00:00")) name) ∧
      (∀ name, name ≠ "timestamp" → Value.field? (padded (.text "2024-02-29 10:00:00")) name =
        Value.field? (padded (.text "2023-02-29 10:00:00")) name) ∧
      (∃ m', message (.object (padded (.text "2023-02-29 10:00:00"))) = .ok m') ∧
      message (.object (padded (.text "2023-02-29 10:00:00"))) = .ok { m with timestamp := none } ∧
      m.sender ≠ "" ∧ 1 ≤ m.total ∧ m.parts = [] := by
  have hread : ∃ m, message (.object (padded (.text "2024-02-29 10:00:00"))) = .ok m ∧ m.location = 12 ∧
      m.timestamp.isSome = true := ⟨_, rfl, rfl, rfl⟩
  obtain ⟨m, hm, hlocation, htimestamp⟩ := hread
  have hother : ∀ name, name ≠ "timestamp" → Value.field? (padded (.text "2024-02-29 10:00:00")) name =
      Value.field? (padded (.text "2023-02-29 10:00:00")) name := by
    intro name hname
    simp [padded, Value.field?, List.find?_cons, hname.symm]
  have hdecisive := fun name (hname : name ∈ decisive) => hother name (by rintro rfl; revert hname; decide)
  obtain ⟨-, -, hcongr, hretimed, hform⟩ := describes_message_iff (.object (padded (.text "2024-02-29 10:00:00")))
    (padded (.text "2024-02-29 10:00:00")) (padded (.text "2023-02-29 10:00:00"))
  have hnone : message (.object (padded (.text "2023-02-29 10:00:00"))) = .ok { m with timestamp := none } := by
    rw [hretimed hother, hm]
    rfl
  have houtcome := hcongr hdecisive
  rw [hm] at houtcome
  exact ⟨m, hm, hlocation, htimestamp, hdecisive, hother, exists_map_eq_ok.mp ⟨(), houtcome.symm⟩, hnone, hform m hm⟩

end SmsRelay.Record
