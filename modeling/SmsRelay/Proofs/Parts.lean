-- SUMMARY: Ordering parts: one copy for each number, in ascending order, and complete when every number is there.
import Mathlib.Data.List.Induction
import Mathlib.Data.List.Perm.Subperm
import Mathlib.Data.List.Sort
import SmsRelay.Message.Reassembly

/-!
# Parts in order

Ordering the copies of parts at hand leaves one copy for each number, in
ascending order. They make up the message exactly when every number is there.
-/

namespace SmsRelay.Message

/-- Parts stand in ascending order, and no number stands twice. -/
def Ascending (ps : List Message) : Prop := ps.Pairwise fun a b => a.part < b.part

/-- Lists of messages with the same numbers agree in what messages with the same number agree in. -/
theorem map_congr_of_map_part {β : Type} (f : Message → β) {ps qs : List Message}
    (hpart : ps.map part = qs.map part) (hf : ∀ a ∈ ps, ∀ b ∈ qs, a.part = b.part → f a = f b) :
    ps.map f = qs.map f := by
  induction ps generalizing qs with
  | nil =>
    obtain rfl := List.map_eq_nil_iff.mp hpart.symm
    rfl
  | cons a ps ih =>
    cases qs with
    | nil => cases hpart
    | cons b qs =>
      obtain ⟨hab, hrest⟩ := List.cons.inj hpart
      rw [List.map_cons, List.map_cons, hf a List.mem_cons_self b List.mem_cons_self hab]
      exact congrArg _ (ih hrest fun a ha b hb => hf a (List.mem_cons_of_mem _ ha) b (List.mem_cons_of_mem _ hb))

/-! ## One part -/

theorem mem_insertPart {m a : Message} {ps : List Message} (h : a ∈ insertPart m ps) : a = m ∨ a ∈ ps := by
  induction ps with
  | nil => exact .inl (List.mem_singleton.mp h)
  | cons p ps ih =>
    unfold insertPart at h
    split at h
    · simpa using h
    · split at h
      · rcases List.mem_cons.mp h with rfl | h
        · exact .inl rfl
        · exact .inr (List.mem_cons_of_mem _ h)
      · rcases List.mem_cons.mp h with rfl | h
        · exact .inr List.mem_cons_self
        · exact (ih h).imp_right (List.mem_cons_of_mem _)

theorem ascending_insertPart (m : Message) {ps : List Message} (h : Ascending ps) :
    Ascending (insertPart m ps) := by
  induction ps with
  | nil => exact List.pairwise_singleton _ _
  | cons p ps ih =>
    obtain ⟨hp, hps⟩ := List.pairwise_cons.mp h
    unfold insertPart
    split
    · rename_i hlt
      refine List.pairwise_cons.mpr ⟨?_, h⟩
      intro a ha
      rcases List.mem_cons.mp ha with rfl | ha
      · exact hlt
      · exact hlt.trans (hp a ha)
    · split
      · rename_i heq
        exact List.pairwise_cons.mpr ⟨fun a ha => heq ▸ hp a ha, hps⟩
      · refine List.pairwise_cons.mpr ⟨?_, ih hps⟩
        intro a ha
        rcases mem_insertPart ha with rfl | ha
        · omega
        · exact hp a ha

/-- The numbers at hand are those from before and the one that has come. -/
theorem map_part_insertPart {m : Message} {ps : List Message} {n : Int} :
    n ∈ (insertPart m ps).map part ↔ n = m.part ∨ n ∈ ps.map part := by
  induction ps with
  | nil => simp
  | cons p ps ih =>
    unfold insertPart
    split
    · simp
    · split
      · rename_i heq
        simp [heq]
      · rw [List.map_cons, List.mem_cons, ih, List.map_cons, List.mem_cons]
        exact or_left_comm

/-! ## All parts -/

theorem ascending_orderParts (ps : List Message) : Ascending (orderParts ps) := by
  induction ps using List.reverseRecOn with
  | nil => exact List.Pairwise.nil
  | append_singleton ps m ih =>
    rw [orderParts_append_singleton]
    exact ascending_insertPart m ih

theorem mem_of_mem_orderParts {a : Message} {ps : List Message} (h : a ∈ orderParts ps) : a ∈ ps := by
  induction ps using List.reverseRecOn with
  | nil => exact h
  | append_singleton ps m ih =>
    rw [orderParts_append_singleton] at h
    rcases mem_insertPart h with rfl | h
    · simp
    · exact List.mem_append_left _ (ih h)

theorem map_part_orderParts {ps : List Message} {n : Int} :
    n ∈ (orderParts ps).map part ↔ n ∈ ps.map part := by
  induction ps using List.reverseRecOn with
  | nil => rfl
  | append_singleton ps m ih =>
    rw [orderParts_append_singleton, map_part_insertPart, ih]
    simp [or_comm]

/-! ## Reassembly -/

/-- The numbers of the parts of a message in `n` parts. -/
def numbers (n : Nat) : List Int := (List.range n).map fun i : Nat => (i : Int) + 1

theorem pairwise_numbers (n : Nat) : (numbers n).Pairwise (· < ·) := by
  refine List.pairwise_map.mpr (List.pairwise_lt_range.imp ?_)
  intro a b h
  omega

@[simp] theorem length_numbers (n : Nat) : (numbers n).length = n := by simp [numbers]

theorem mem_numbers {n : Nat} {p : Int} : p ∈ numbers n ↔ 1 ≤ p ∧ p ≤ n := by
  simp only [numbers, List.mem_map, List.mem_range]
  constructor
  · intro ⟨i, hi, heq⟩
    omega
  · intro h
    exact ⟨(p - 1).toNat, by omega, by omega⟩

theorem pairwise_map_part {ps : List Message} (h : Ascending ps) : (ps.map part).Pairwise (· < ·) :=
  List.pairwise_map.mpr h

/-- While a number is missing there are fewer parts than the message has. -/
theorem length_orderParts_lt {ps : List Message} {n : Nat} (within : ∀ a ∈ ps, a.part ∈ numbers n) {p : Int}
    (hp : p ∈ numbers n) (missing : p ∉ ps.map part) : (orderParts ps).length < n := by
  have hnodup : (p :: (orderParts ps).map part).Nodup := by
    refine List.nodup_cons.mpr ⟨?_, (pairwise_map_part (ascending_orderParts ps)).imp fun h => Int.ne_of_lt h⟩
    rwa [map_part_orderParts]
  have hsubset : p :: (orderParts ps).map part ⊆ numbers n := by
    intro q hq
    rcases List.mem_cons.mp hq with rfl | hq
    · exact hp
    · obtain ⟨a, ha, rfl⟩ := List.mem_map.mp hq
      exact within a (mem_of_mem_orderParts ha)
  have hlength := (hnodup.subperm hsubset).length_le
  simpa [Nat.add_one_le_iff] using hlength

/-- If no number is missing there is one part for each. -/
theorem map_part_orderParts_eq {ps : List Message} {n : Nat} (all : ∀ p, p ∈ ps.map part ↔ p ∈ numbers n) :
    (orderParts ps).map part = numbers n := by
  refine (pairwise_map_part (ascending_orderParts ps)).eq_of_mem_iff (pairwise_numbers n) fun p => ?_
  rw [map_part_orderParts, all]

variable {m : Message} {stored : List Message} {n : Nat}

theorem reassemble_eq_none (total : m.total = n) (within : ∀ a ∈ stored ++ [m], a.part ∈ numbers n) {p : Int}
    (hp : p ∈ numbers n) (missing : p ∉ (stored ++ [m]).map part) : m.reassemble stored = none := by
  have hlength := length_orderParts_lt within hp missing
  unfold reassemble
  split
  · rfl
  · rename_i first rest horder
    rw [horder] at hlength
    rw [if_pos]
    omega

/-- The message that all its parts make up holds one copy of each, in order. -/
theorem reassemble_eq_some (total : m.total = n) (all : ∀ p, p ∈ (stored ++ [m]).map part ↔ p ∈ numbers n) :
    ∃ first parts, m.reassemble stored = some (m.compose first parts) ∧ parts.map part = numbers n ∧
      parts ≠ [] ∧ ∀ a ∈ parts, a ∈ stored ++ [m] := by
  have horder := map_part_orderParts_eq all
  have hmem : ∀ a ∈ orderParts (stored ++ [m]), a ∈ stored ++ [m] := fun a => mem_of_mem_orderParts
  unfold reassemble
  split
  · rename_i hnil
    rw [orderParts_append_singleton] at hnil
    exact absurd hnil (insertPart_ne_nil _ _)
  · rename_i first rest hcons
    rw [hcons] at horder hmem
    have hlength : (first :: rest).length = n := by
      rw [← List.length_map (f := part), horder, length_numbers]
    refine ⟨first, first :: rest, ?_, horder, List.cons_ne_nil _ _, hmem⟩
    rw [if_neg]
    omega

/-- A message that is put together holds the parts at hand in order, and there are enough of them. -/
theorem eq_compose_orderParts {whole : Message} (h : m.reassemble stored = some whole) :
    ∃ first, whole = m.compose first (orderParts (stored ++ [m])) ∧
      m.total ≤ (orderParts (stored ++ [m])).length := by
  unfold reassemble at h
  split at h
  · cases h
  · rename_i first rest hcons
    split at h
    · cases h
    · rename_i hlength
      cases h
      rw [hcons]
      exact ⟨first, rfl, Int.not_lt.mp hlength⟩

/-- A message that is put together is made of copies that were at hand. -/
theorem eq_compose_of_reassemble {whole : Message} (h : m.reassemble stored = some whole) :
    ∃ first parts, whole = m.compose first parts ∧ parts ≠ [] ∧ ∀ a ∈ parts, a ∈ stored ++ [m] := by
  obtain ⟨first, rfl, -⟩ := eq_compose_orderParts h
  refine ⟨first, _, rfl, ?_, fun a => mem_of_mem_orderParts⟩
  rw [orderParts_append_singleton]
  exact insertPart_ne_nil _ _

/-- A complete message in several parts: all of its own group, in ascending order and enough of them, and
their texts in a row are its text. -/
structure Composite (whole : Message) : Prop where
  several : 1 < whole.total
  keys : ∀ p ∈ whole.parts, p.key = whole.key
  ascending : Ascending whole.parts
  enough : whole.total ≤ whole.parts.length
  text : whole.text = String.join (whole.parts.map text)

theorem Composite.parts_ne_nil {whole : Message} (h : whole.Composite) : whole.parts ≠ [] := by
  intro hnil
  have hseveral := h.several
  have henough := h.enough
  rw [hnil, List.length_nil] at henough
  omega

/-- Whatever parts of its group are at hand, what a part makes up with them is complete. -/
theorem composite_of_reassemble (hpart : m.isPart = true) (hstored : ∀ a ∈ stored, a.key = m.key) {whole : Message}
    (h : m.reassemble stored = some whole) : whole.Composite := by
  obtain ⟨first, rfl, hlength⟩ := eq_compose_orderParts h
  refine ⟨isPart_iff.mp hpart, fun p hp => ?_, ascending_orderParts _, hlength, rfl⟩
  rcases List.mem_append.mp (mem_of_mem_orderParts hp) with hp | hp
  · exact hstored p hp
  · obtain rfl := List.mem_singleton.mp hp
    rfl

end SmsRelay.Message
