-- SUMMARY: What one retrieval may show, and what is put together of it whatever the order.
import SmsRelay.Proofs.SpentGroups

/-!
# The messages of a retrieval

What the device shows at one time: messages from different places, and of each
group every part at most once. A message that is put together of such parts has
the same text and the same places, whichever part has completed it and in
whatever order the parts have come. Only its sender is that of the part that
has completed it.
-/

namespace SmsRelay

namespace Message

/-- The message is the same part of the same group, says the same, and is from the same place. -/
structure CopyOf (a b : Message) : Prop where
  key : a.key = b.key
  part : a.part = b.part
  text : a.text = b.text
  location : a.location = b.location

theorem CopyOf.refl (m : Message) : m.CopyOf m := ⟨rfl, rfl, rfl, rfl⟩

end Message

open Message

/-- The messages have been read from records and are from different places; the parts among them have numbers up to
that of all parts, and no two parts of a group have the same. -/
structure Payload (ms : List Message) : Prop where
  described : ∀ m ∈ ms, ∃ record, Record.message record = .ok m
  places : ms.Pairwise fun a b => a.location ≠ b.location
  numbered : ∀ m ∈ ms, m.isPart = true → 1 ≤ m.part ∧ m.part ≤ m.total
  parts : ms.Pairwise fun a b => a.isPart = true → b.isPart = true → a.key = b.key → a.part ≠ b.part

namespace Payload

variable {ms ms' : List Message} {a b m : Message}

theorem nodup (h : Payload ms) : ms.Nodup := h.places.imp fun hne heq => hne (congrArg location heq)

theorem one_le_total (h : Payload ms) (hm : m ∈ ms) : 1 ≤ m.total := by
  obtain ⟨record, hrecord⟩ := h.described m hm
  exact Record.one_le_total_of_message hrecord

theorem parts_eq_nil (h : Payload ms) (hm : m ∈ ms) : m.parts = [] := by
  obtain ⟨record, hrecord⟩ := h.described m hm
  exact Record.parts_of_message hrecord

theorem total_eq (h : Payload ms) (ha : a ∈ ms) (hb : b ∈ ms) (hkey : a.key = b.key) : a.total = b.total := by
  have hone := h.one_le_total ha
  have hone' := h.one_le_total hb
  exact total_of_key hkey (by omega) (by omega)

/-- A message of the group of a part is a part as well. -/
theorem isPart_of_key (h : Payload ms) (ha : a ∈ ms) (hb : b ∈ ms) (hkey : a.key = b.key) (hpart : b.isPart = true) :
    a.isPart = true := by
  rw [isPart_iff] at hpart ⊢
  rwa [h.total_eq ha hb hkey]

theorem eq_of_location (h : Payload ms) (ha : a ∈ ms) (hb : b ∈ ms) (hlocation : a.location = b.location) : a = b := by
  refine List.Pairwise.forall_of_forall_of_flip (R := fun a b => a.location = b.location → a = b) (fun _ _ _ => rfl)
    (h.places.imp ?_) (h.places.imp ?_) ha hb hlocation
  · exact fun hne heq => absurd heq hne
  · exact fun hne heq => absurd heq.symm hne

theorem eq_of_part (h : Payload ms) (ha : a ∈ ms) (hb : b ∈ ms) (hmany : b.isPart = true) (hkey : a.key = b.key)
    (hpart : a.part = b.part) : a = b := by
  refine List.Pairwise.forall_of_forall_of_flip
    (R := fun a b => a.isPart = true → b.isPart = true → a.key = b.key → a.part = b.part → a = b)
    (fun _ _ _ _ _ _ => rfl) (h.parts.imp ?_) (h.parts.imp ?_) ha hb (h.isPart_of_key ha hb hkey hmany) hmany hkey hpart
  · exact fun hne ha hb hkey hpart => absurd hpart (hne ha hb hkey)
  · exact fun hne hb ha hkey hpart => absurd hpart.symm (hne ha hb hkey.symm)

theorem part_mem_numbers (h : Payload ms) (hm : m ∈ ms) (hpart : m.isPart = true) :
    m.part ∈ numbers m.total.toNat := by
  obtain ⟨hone, htotal⟩ := h.numbered m hm hpart
  rw [mem_numbers]
  omega

end Payload

/-! ## Messages put together -/

/-- The part `p` has completed a message: it holds one copy each of all parts of the group, in order. -/
structure Message.Completes (ms : List Message) (p whole : Message) : Prop where
  mem : p ∈ ms
  isPart : p.isPart = true
  key : whole.key = p.key
  sender : whole.sender = p.sender
  total : whole.total = p.total
  numbers : whole.parts.map part = Message.numbers p.total.toNat
  copies : ∀ a ∈ whole.parts, ∃ b ∈ ms, b.key = p.key ∧ a.CopyOf b
  text : whole.text = String.join (whole.parts.map Message.text)

namespace Message.Completes

variable {ms : List Message} {p p' whole whole' : Message}

theorem several (h : Completes ms p whole) : whole.isPart = true := by
  rw [isPart_iff, h.total, ← isPart_iff]
  exact h.isPart

theorem locations_eq (h : Completes ms p whole) : whole.locations = whole.parts.map location := by
  refine locations_of_parts_ne_nil fun hnil => ?_
  have hlength := congrArg List.length h.numbers
  have hseveral := isPart_iff.mp h.isPart
  rw [hnil, length_numbers, List.map_nil, List.length_nil] at hlength
  omega

/-- Whichever part has completed it, the message says the same and is from the same places. -/
theorem same (h : Completes ms p whole) (h' : Completes ms p' whole') (hms : Payload ms)
    (hkey : whole.key = whole'.key) : whole.text = whole'.text ∧ whole.locations = whole'.locations := by
  have hgroup : p.key = p'.key := h.key.symm.trans (hkey.trans h'.key)
  have hnumbers : whole.parts.map part = whole'.parts.map part := by
    rw [h.numbers, h'.numbers, hms.total_eq h.mem h'.mem hgroup]
  have hcopies : ∀ a ∈ whole.parts, ∀ a' ∈ whole'.parts, a.part = a'.part →
      a.text = a'.text ∧ a.location = a'.location := by
    intro a ha a' ha' hpart
    obtain ⟨b, hb, hbkey, hcopy⟩ := h.copies a ha
    obtain ⟨b', hb', hbkey', hcopy'⟩ := h'.copies a' ha'
    have hmany : b'.isPart = true := hms.isPart_of_key hb' h'.mem hbkey' h'.isPart
    obtain rfl : b = b' := hms.eq_of_part hb hb' hmany (hbkey.trans (hgroup.trans hbkey'.symm))
      (hcopy.part.symm.trans (hpart.trans hcopy'.part))
    exact ⟨hcopy.text.trans hcopy'.text.symm, hcopy.location.trans hcopy'.location.symm⟩
  constructor
  · rw [h.text, h'.text]
    exact congrArg _ (map_congr_of_map_part _ hnumbers fun a ha b hb hpart => (hcopies a ha b hb hpart).1)
  · rw [h.locations_eq, h'.locations_eq]
    exact map_congr_of_map_part _ hnumbers fun a ha b hb hpart => (hcopies a ha b hb hpart).2

/-- The message is from the places of the parts of its group. -/
theorem mem_locations (h : Completes ms p whole) (hms : Payload ms) {l : Int} :
    l ∈ whole.locations ↔ ∃ b ∈ ms, b.key = whole.key ∧ b.location = l := by
  rw [h.locations_eq, List.mem_map, h.key]
  constructor
  · intro ⟨a, ha, hl⟩
    obtain ⟨b, hb, hkey, hcopy⟩ := h.copies a ha
    exact ⟨b, hb, hkey, hcopy.location.symm.trans hl⟩
  · intro ⟨b, hb, hkey, hl⟩
    have hmany := hms.isPart_of_key hb h.mem hkey h.isPart
    have hnumber : b.part ∈ whole.parts.map part := by
      rw [h.numbers, ← hms.total_eq hb h.mem hkey]
      exact hms.part_mem_numbers hb hmany
    obtain ⟨a, ha, hpart⟩ := List.mem_map.mp hnumber
    obtain ⟨b', hb', hkey', hcopy⟩ := h.copies a ha
    obtain rfl : b' = b := hms.eq_of_part hb' hb hmany (hkey'.trans hkey.symm) (hcopy.part.symm.trans hpart)
    exact ⟨a, ha, hcopy.location.trans hl⟩

end Message.Completes

/-- A part makes up its message with copies of parts at hand exactly if each number is there. -/
theorem Payload.reassemble {ms stored : List Message} {p : Message} (hms : Payload ms) (hp : p ∈ ms)
    (hpart : p.isPart = true) (hstored : ∀ a ∈ stored, ∃ b ∈ ms, b.key = p.key ∧ a.CopyOf b) :
    ((∀ n ∈ numbers p.total.toNat, n ∈ (stored ++ [p]).map part) →
      ∃ whole, p.reassemble stored = some whole ∧ Message.Completes ms p whole) ∧
    ((∃ n ∈ numbers p.total.toNat, n ∉ (stored ++ [p]).map part) → p.reassemble stored = none) := by
  have hcopies : ∀ a ∈ stored ++ [p], ∃ b ∈ ms, b.key = p.key ∧ a.CopyOf b := by
    intro a ha
    rcases List.mem_append.mp ha with ha | ha
    · exact hstored a ha
    · obtain rfl := List.mem_singleton.mp ha
      exact ⟨a, hp, rfl, .refl a⟩
  have hwithin : ∀ a ∈ stored ++ [p], a.part ∈ numbers p.total.toNat := by
    intro a ha
    obtain ⟨b, hb, hkey, hcopy⟩ := hcopies a ha
    rw [hcopy.part, ← hms.total_eq hb hp hkey]
    exact hms.part_mem_numbers hb (hms.isPart_of_key hb hp hkey hpart)
  have htotal : p.total = p.total.toNat := by
    have hone := hms.one_le_total hp
    omega
  constructor
  · intro hall
    have hnumbers : ∀ n, n ∈ (stored ++ [p]).map part ↔ n ∈ numbers p.total.toNat := by
      refine fun n => ⟨fun hn => ?_, hall n⟩
      obtain ⟨a, ha, rfl⟩ := List.mem_map.mp hn
      exact hwithin a ha
    obtain ⟨first, parts, hsome, hordered, -, hmem⟩ := reassemble_eq_some htotal hnumbers
    exact ⟨_, hsome, hp, hpart, rfl, rfl, rfl, hordered, fun a ha => hcopies a (hmem a ha), rfl⟩
  · intro ⟨n, hn, hmissing⟩
    exact reassemble_eq_none htotal hwithin hn hmissing

end SmsRelay
