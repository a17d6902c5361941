-- SUMMARY: A message is put together of the last copy of each of its parts.
import Mathlib.Data.Finset.Card
import SmsRelay.Proofs.Parts

/-!
# The last copies of parts

Of the copies of a part that are at hand the last one counts. A message is put
together once there are as many numbers as it has parts, whatever the numbers
are; it then holds the last copy for each number, in ascending order. Which
copies those are does not depend on the order in which they have been kept, as
long as no number has been kept twice.
-/

namespace SmsRelay.Message

/-- The last of the copies at hand of the part with the number `k`. -/
def lastCopy? (ps : List Message) (k : Int) : Option Message := ps.reverse.find? (·.part = k)

variable {m a : Message} {ps qs stored : List Message} {k : Int}

/-- A copy that comes later replaces the one before. -/
theorem lastCopy?_append_singleton (ps : List Message) (m : Message) (k : Int) :
    lastCopy? (ps ++ [m]) k = if m.part = k then some m else lastCopy? ps k := by
  simp only [lastCopy?, List.reverse_append, List.reverse_singleton, List.singleton_append, List.find?_cons]
  by_cases h : m.part = k <;> simp [h]

/-- If no number is there twice, each copy is the last one. -/
theorem lastCopy?_eq_some_iff (h : (ps.map part).Nodup) : lastCopy? ps k = some a ↔ a ∈ ps ∧ a.part = k := by
  have hlast : ∀ {b}, lastCopy? ps k = some b → b ∈ ps ∧ b.part = k := by
    intro b hb
    exact ⟨List.mem_reverse.mp (List.mem_of_find?_eq_some hb), by simpa using List.find?_some hb⟩
  constructor
  · exact hlast
  · intro ⟨ha, hk⟩
    cases hb : lastCopy? ps k with
    | none => exact absurd hk (by simpa using List.find?_eq_none.mp hb a (List.mem_reverse.mpr ha))
    | some b =>
      obtain ⟨hbmem, hbk⟩ := hlast hb
      rw [List.inj_on_of_nodup_map h hbmem ha (hbk.trans hk.symm)]

theorem lastCopy?_perm (hperm : ps.Perm qs) (h : (ps.map part).Nodup) (k : Int) : lastCopy? ps k = lastCopy? qs k := by
  have h' : (qs.map part).Nodup := (hperm.map part).nodup_iff.mp h
  refine Option.ext fun a => ?_
  rw [lastCopy?_eq_some_iff h, lastCopy?_eq_some_iff h', hperm.mem_iff]

/-! ## Copies in order -/

theorem mem_insertPart_iff (h : Ascending ps) : a ∈ insertPart m ps ↔ a = m ∨ a.part ≠ m.part ∧ a ∈ ps := by
  induction ps with
  | nil => simp
  | cons p ps ih =>
    obtain ⟨hp, hps⟩ := List.pairwise_cons.mp h
    -- a number that is greater than that of the first part is not among the first parts
    have hlater : m.part ≤ p.part → ∀ b ∈ ps, b.part ≠ m.part := by
      intro hle b hb heq
      have hlt := hp b hb
      omega
    unfold insertPart
    split
    · rename_i hlt
      have hne : p.part ≠ m.part := by omega
      grind
    · split
      · rename_i heq
        grind
      · rename_i hne
        rw [List.mem_cons, ih hps, List.mem_cons]
        grind

/-- Parts in order are the last copies of the parts at hand. -/
theorem mem_orderParts_iff : a ∈ orderParts ps ↔ lastCopy? ps a.part = some a := by
  induction ps using List.reverseRecOn with
  | nil => simp [lastCopy?]
  | append_singleton ps m ih =>
    rw [orderParts_append_singleton, mem_insertPart_iff (ascending_orderParts ps), ih, lastCopy?_append_singleton]
    by_cases h : m.part = a.part
    · simp [h, eq_comm]
    · have hne : a ≠ m := fun heq => h (congrArg part heq.symm)
      simp [h, hne, Ne.symm h]

/-- Parts with the same last copies come to the same order. -/
theorem orderParts_congr (h : ∀ k, lastCopy? ps k = lastCopy? qs k) : orderParts ps = orderParts qs := by
  have hperm : (orderParts ps).Perm (orderParts qs) := by
    have hnodup : ∀ rs, (orderParts rs).Nodup := fun rs =>
      (ascending_orderParts rs).imp fun hlt heq => absurd (congrArg part heq) (Int.ne_of_lt hlt)
    refine (List.perm_ext_iff_of_nodup (hnodup ps) (hnodup qs)).mpr fun a => ?_
    rw [mem_orderParts_iff, mem_orderParts_iff, h]
  exact hperm.eq_of_pairwise (fun a b _ _ hab hba => absurd hab (Int.lt_asymm hba)) (ascending_orderParts ps)
    (ascending_orderParts qs)

/-- There is one part in order for each number at hand. -/
theorem length_orderParts (ps : List Message) : (orderParts ps).length = (ps.map part).toFinset.card := by
  have hnodup : ((orderParts ps).map part).Nodup :=
    (pairwise_map_part (ascending_orderParts ps)).imp fun h => Int.ne_of_lt h
  have hsame : ((orderParts ps).map part).toFinset = (ps.map part).toFinset := by
    ext k
    rw [List.mem_toFinset, List.mem_toFinset, map_part_orderParts]
  rw [← hsame, List.toFinset_card_of_nodup hnodup, List.length_map]

/-! ## Reassembly -/

theorem reassemble_eq_none_iff :
    m.reassemble stored = none ↔ ((orderParts (stored ++ [m])).length : Int) < m.total := by
  unfold reassemble
  split
  · rename_i hnil
    rw [orderParts_append_singleton] at hnil
    exact absurd hnil (insertPart_ne_nil _ _)
  · rename_i hcons
    rw [hcons]
    split <;> simp_all

/-- Only the last copies count. -/
theorem reassemble_congr {stored' : List Message} (h : ∀ k, lastCopy? stored k = lastCopy? stored' k) :
    m.reassemble stored = m.reassemble stored' := by
  have horder : orderParts (stored ++ [m]) = orderParts (stored' ++ [m]) :=
    orderParts_congr fun k => by rw [lastCopy?_append_singleton, lastCopy?_append_singleton, h]
  rw [reassemble, horder, ← reassemble]

/-- If all numbers at hand are those of the parts of the message, it is put together when all of them are
there, and then it holds one part for each. -/
theorem reassemble_within {n : Nat} (htotal : m.total = n) (hwithin : ∀ a ∈ stored ++ [m], 1 ≤ a.part ∧ a.part ≤ n) :
    ((∃ whole, m.reassemble stored = some whole) ↔ ∀ k : Int, 1 ≤ k → k ≤ n → k ∈ (stored ++ [m]).map part) ∧
    ∀ whole, m.reassemble stored = some whole → whole.parts.map part = numbers n := by
  have hnumbers : ∀ a ∈ stored ++ [m], a.part ∈ numbers n := fun a ha => mem_numbers.mpr (hwithin a ha)
  have hall : ∀ {whole}, m.reassemble stored = some whole → ∀ k ∈ numbers n, k ∈ (stored ++ [m]).map part := by
    intro whole hwhole k hk
    by_contra hmissing
    rw [reassemble_eq_none htotal hnumbers hk hmissing] at hwhole
    cases hwhole
  have hput : (∀ k ∈ numbers n, k ∈ (stored ++ [m]).map part) →
      ∃ first parts, m.reassemble stored = some (m.compose first parts) ∧ parts.map part = numbers n := by
    intro hall
    have hsame : ∀ k, k ∈ (stored ++ [m]).map part ↔ k ∈ numbers n := by
      refine fun k => ⟨fun hk => ?_, hall k⟩
      obtain ⟨a, ha, rfl⟩ := List.mem_map.mp hk
      exact hnumbers a ha
    obtain ⟨first, parts, hwhole, hparts, -⟩ := reassemble_eq_some htotal hsame
    exact ⟨first, parts, hwhole, hparts⟩
  refine ⟨⟨?_, ?_⟩, ?_⟩
  · intro ⟨whole, hwhole⟩ k hone hn
    exact hall hwhole k (mem_numbers.mpr ⟨hone, hn⟩)
  · intro hall
    obtain ⟨first, parts, hwhole, -⟩ := hput fun k hk => hall k (mem_numbers.mp hk).1 (mem_numbers.mp hk).2
    exact ⟨_, hwhole⟩
  · intro whole hwhole
    obtain ⟨first, parts, hwhole', hparts⟩ := hput (hall hwhole)
    rw [hwhole] at hwhole'
    cases hwhole'
    exact hparts

/-- A message is put together as soon as there are as many numbers as it has parts, and it then holds the
part that has come last and the last copies of the others, in ascending order. If all numbers are those of
its parts, this is the case when all of them are there; and the order of the copies that are kept does not
matter if no number is kept twice. -/
theorem reassembled_from_last_copies (m : Message) (stored : List Message) :
    (m.reassemble stored = none ↔ (((stored ++ [m]).map part).toFinset.card : Int) < m.total) ∧
    (∀ whole, m.reassemble stored = some whole →
      whole.parts.Pairwise (fun a b => a.part < b.part) ∧
      (∀ k, k ∈ whole.parts.map part ↔ k = m.part ∨ k ∈ stored.map part) ∧
      (∀ a, a ∈ whole.parts ↔ a = m ∨ a.part ≠ m.part ∧ lastCopy? stored a.part = some a) ∧
      whole.text = String.join (whole.parts.map text) ∧
      whole.locations = whole.parts.map location ∧
      whole.key = m.key) ∧
    (∀ n : Nat, m.total = n → (∀ a ∈ stored ++ [m], 1 ≤ a.part ∧ a.part ≤ n) →
      ((∃ whole, m.reassemble stored = some whole) ↔
        ∀ k : Int, 1 ≤ k → k ≤ n → k ∈ (stored ++ [m]).map part) ∧
      ∀ whole, m.reassemble stored = some whole → whole.parts.map part = numbers n) ∧
    ∀ stored', stored'.Perm stored → (stored.map part).Nodup → m.reassemble stored' = m.reassemble stored := by
  refine ⟨?_, ?_, ?_, ?_⟩
  · rw [reassemble_eq_none_iff, length_orderParts]
  · intro whole hwhole
    obtain ⟨first, rfl, -⟩ := eq_compose_orderParts hwhole
    have hne : orderParts (stored ++ [m]) ≠ [] := by
      rw [orderParts_append_singleton]
      exact insertPart_ne_nil _ _
    refine ⟨ascending_orderParts _, fun k => ?_, fun a => ?_, rfl, locations_of_parts_ne_nil hne, rfl⟩
    · refine map_part_orderParts.trans ?_
      simp [or_comm, eq_comm]
    · refine mem_orderParts_iff.trans ?_
      rw [lastCopy?_append_singleton]
      by_cases h : m.part = a.part
      · simp [h, eq_comm]
      · have hne : a ≠ m := fun heq => h (congrArg part heq.symm)
        simp [h, hne, Ne.symm h]
  · intro n htotal hwithin
    exact reassemble_within htotal hwithin
  · intro stored' hperm hnodup
    exact reassemble_congr fun k => (lastCopy?_perm hperm.symm hnodup k).symm

/-- A part of a greeting in two parts. -/
private def greetingCopy (part : Int) (text : String) : Message :=
  { sender := "+1", text, location := part, total := 2, part }

/-- Two copies of the first part are kept, and one of the second, which comes once more. -/
theorem reassembled_from_last_copies_greeting : ∃ whole,
    (greetingCopy 2 "there").reassemble [greetingCopy 1 "hi ", greetingCopy 2 "all", greetingCopy 1 "hello "] =
      some whole ∧
    whole.parts.map part = numbers 2 ∧ whole.parts.map text = ["hello ", "there"] := by
  have hwithin := (reassembled_from_last_copies (greetingCopy 2 "there")
    [greetingCopy 1 "hi ", greetingCopy 2 "all", greetingCopy 1 "hello "]).2.2.1 2 rfl (by simp [greetingCopy])
  obtain ⟨whole, hwhole⟩ := hwithin.1.mpr (by simp [greetingCopy]; omega)
  refine ⟨whole, hwhole, hwithin.2 whole hwhole, ?_⟩
  cases hwhole
  rfl

end SmsRelay.Message
