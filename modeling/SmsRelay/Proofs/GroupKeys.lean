-- SUMMARY: When two messages have the same key, and what a key tells of sender, header and number of parts.
import Mathlib.Data.List.TakeWhile
import SmsRelay.Message
import SmsRelay.Text.Lone

/-!
# Keys of groups

When messages have the same key. A key joins sender, header and number of parts
with hyphens, and a sender may hold hyphens too, as may the header for its sign.
Read from the right a key comes apart all the same: the number of parts stands
behind the last hyphen, the digits of the header behind the one before. Only the
sign of a header cannot be told from a hyphen at the end of the sender.
-/

namespace SmsRelay

/-! ## Numerals -/

theorem toList_toString {n : Int} (h : 0 ≤ n) : (toString n).toList = Nat.toDigits 10 n.toNat := by
  rw [Int.toString_eq_repr, Int.repr_eq_if, if_pos h, Nat.toList_repr]

/-- The text of a number: a sign if it is negative, and the digits. -/
theorem toList_toString_eq (n : Int) :
    (toString n).toList = (if n < 0 then ['-'] else []) ++ Nat.toDigits 10 n.natAbs := by
  by_cases h : n < 0
  · rw [Int.toString_eq_repr, Int.repr_eq_if, if_neg (by omega), if_pos h, String.toList_append,
      Nat.toList_repr, show (-n).toNat = n.natAbs by omega]
    rfl
  · rw [toList_toString (by omega), if_neg h, List.nil_append, show n.toNat = n.natAbs by omega]

theorem hyphen_notMem_toDigits (n : Nat) : '-' ∉ Nat.toDigits 10 n := by
  intro hmem
  exact absurd (Nat.isDigit_of_mem_toDigits (by decide) (by decide) hmem) (by decide)

theorem mark_notMem_toString (n : Int) : Text.mark ∉ (toString n).toList := by
  rw [toList_toString_eq, List.mem_append]
  rintro (hsign | hdigit)
  · split at hsign
    · exact absurd (List.mem_singleton.mp hsign) (by decide)
    · cases hsign
  · exact absurd (Nat.isDigit_of_mem_toDigits (by decide) (by decide) hdigit) (by decide)

theorem toDigits_injective {m n : Nat} (h : Nat.toDigits 10 m = Nat.toDigits 10 n) : m = n := by
  have hdigits := congrArg (Nat.ofDigitChars 10 · 0) h
  simpa only [Nat.ofDigitChars_toDigits (show 1 < 10 by decide) (Nat.le_refl 10)] using hdigits

/-! ## Texts that end in a numeral -/

section

variable {xs ys as bs : List Char}

/-- What stands behind the last hyphen of a text. -/
theorem eq_of_append_hyphen (h : xs ++ '-' :: as = ys ++ '-' :: bs) (ha : '-' ∉ as) (hb : '-' ∉ bs) : as = bs := by
  have hlast : ∀ {xs as : List Char}, '-' ∉ as → (xs ++ '-' :: as).reverse.takeWhile (· ≠ '-') = as.reverse := by
    intro xs as ha
    have hall : ∀ c ∈ as.reverse, decide (c ≠ '-') = true := by
      intro c hc
      refine decide_eq_true fun heq => ha ?_
      rwa [heq, List.mem_reverse] at hc
    rw [List.reverse_append, List.reverse_cons, List.append_assoc, List.takeWhile_append_of_pos hall]
    simp
  rw [← List.reverse_inj, ← hlast ha, ← hlast hb, h]

/-- A text comes apart at the last hyphen into what is in front of it and the number behind it. -/
theorem append_hyphen_toDigits_inj {m n : Nat} :
    xs ++ '-' :: Nat.toDigits 10 m = ys ++ '-' :: Nat.toDigits 10 n ↔ xs = ys ∧ m = n := by
  constructor
  · intro h
    have hdigits := eq_of_append_hyphen h (hyphen_notMem_toDigits m) (hyphen_notMem_toDigits n)
    rw [hdigits] at h
    exact ⟨List.append_cancel_right h, toDigits_injective hdigits⟩
  · rintro ⟨rfl, rfl⟩
    rfl

end

/-! ## Keys -/

/-- What stands in a key in front of the digits of the header and their hyphen: the sender, and a hyphen for the sign
of a negative header. -/
def keyStem (sender : String) (header : Int) : List Char := sender.toList ++ if header < 0 then ['-'] else []

/-- The key of a group holds halves of surrogate pairs only if the sender does. -/
theorem isWhole_groupKey {sender : String} {header : Value} (hheader : header = .null ∨ ∃ n, header = .int n)
    (total : Int) (h : Text.isWhole sender = true) : Text.isWhole (groupKey sender header total) = true := by
  have hnumber : ∀ n : Int, Text.isWhole (toString n) = true := fun n =>
    Text.isWhole_of_unmarked (mark_notMem_toString n)
  have hhyphen : ∀ {s : String}, Text.isWhole s = true → Text.isWhole (s ++ "-") = true := fun hs =>
    (Text.isWhole_append hs).trans (by decide)
  have hheaderText : Text.isWhole (headerText header) = true := by
    obtain rfl | ⟨n, rfl⟩ := hheader
    · decide
    · rw [headerText_int]
      exact hnumber n
  have hstem : Text.isWhole (sender ++ "-" ++ headerText header) = true := by
    rw [Text.isWhole_append (hhyphen h), hheaderText]
  rw [groupKey, Text.isWhole_append (hhyphen hstem), hnumber]

/-- A key without halves of surrogate pairs is that of a sender without. -/
theorem isWhole_of_isWhole_groupKey {sender : String} {header : Value} {total : Int}
    (h : Text.isWhole (groupKey sender header total) = true) : Text.isWhole sender = true := by
  rw [groupKey, String.append_assoc, String.append_assoc, String.append_assoc] at h
  exact Text.isWhole_of_append (by simp [Text.mark]) h

theorem headerText_elim (u : Option Int) : headerText (u.elim .null .int) = toString (u.getD 0) := by
  cases u with
  | none => rfl
  | some n => exact headerText_int n

/-- A key from the left to the right: sender and sign, the digits of the header, and those of the number of parts. -/
theorem toList_groupKey (sender : String) (u : Option Int) {total : Int} (htotal : 0 ≤ total) :
    (groupKey sender (u.elim .null .int) total).toList =
      (keyStem sender (u.getD 0) ++ '-' :: Nat.toDigits 10 (u.getD 0).natAbs) ++
        '-' :: Nat.toDigits 10 total.toNat := by
  rw [groupKey, headerText_elim]
  simp only [String.toList_append, toList_toString htotal, toList_toString_eq (u.getD 0), keyStem]
  by_cases h : u.getD 0 < 0 <;> simp [h]

/-- The key of a group tells how many parts its message has. -/
theorem Message.total_of_key {a b : Message} (h : a.key = b.key) (ha : 0 ≤ a.total) (hb : 0 ≤ b.total) :
    a.total = b.total := by
  have hchars : (a.sender ++ "-" ++ headerText a.header).toList ++ '-' :: (toString a.total).toList =
      (b.sender ++ "-" ++ headerText b.header).toList ++ '-' :: (toString b.total).toList := by
    have hlists := congrArg String.toList h
    simpa [key, groupKey] using hlists
  rw [toList_toString ha, toList_toString hb, append_hyphen_toDigits_inj] at hchars
  omega

/-- Whatever stands in front of it, a number at the end of the key of a message as it is read is the number of its
parts: it is not negative, for there is a digit in front of its hyphen. -/
theorem total_of_groupKey {stem sender : String} {u : Option Int} {t total : Int}
    (h : stem ++ "-" ++ toString t = groupKey sender (u.elim .null .int) total) (htotal : 0 ≤ total) : t = total := by
  have hchars : stem.toList ++ '-' :: (toString t).toList =
      (keyStem sender (u.getD 0) ++ '-' :: Nat.toDigits 10 (u.getD 0).natAbs) ++
        '-' :: Nat.toDigits 10 total.toNat := by
    rw [← toList_groupKey sender u htotal, ← h, String.toList_append, String.toList_append, List.append_assoc]
    rfl
  by_cases hneg : t < 0
  · rw [toList_toString_eq, if_pos hneg, List.append_cons] at hchars
    have hdigits := eq_of_append_hyphen (append_hyphen_toDigits_inj.mp hchars).1 List.not_mem_nil
      (hyphen_notMem_toDigits _)
    exact absurd hdigits.symm Nat.toDigits_ne_nil
  · rw [toList_toString (Int.not_lt.mp hneg)] at hchars
    have htotals := (append_hyphen_toDigits_inj.mp hchars).2
    omega

/-- Two keys are the same if the numbers of parts are, the headers but for the sign, and what is in front of them. -/
theorem groupKey_eq_iff_stem (s₁ s₂ : String) (u₁ u₂ : Option Int) {t₁ t₂ : Int} (ht₁ : 0 ≤ t₁) (ht₂ : 0 ≤ t₂) :
    groupKey s₁ (u₁.elim .null .int) t₁ = groupKey s₂ (u₂.elim .null .int) t₂ ↔
      t₁ = t₂ ∧ (u₁.getD 0).natAbs = (u₂.getD 0).natAbs ∧ keyStem s₁ (u₁.getD 0) = keyStem s₂ (u₂.getD 0) := by
  rw [← String.toList_inj, toList_groupKey s₁ u₁ ht₁, toList_groupKey s₂ u₂ ht₂, append_hyphen_toDigits_inj,
    append_hyphen_toDigits_inj]
  constructor
  · intro ⟨⟨hstem, hheader⟩, htotal⟩
    exact ⟨by omega, hheader, hstem⟩
  · intro ⟨htotal, hheader, hstem⟩
    exact ⟨⟨hstem, hheader⟩, by omega⟩

theorem keyStem_eq_iff {s₁ s₂ : String} {h₁ h₂ : Int} : keyStem s₁ h₁ = keyStem s₂ h₂ ↔
    (s₁ = s₂ ∧ (h₁ < 0 ↔ h₂ < 0)) ∨ (h₁ < 0 ∧ 0 ≤ h₂ ∧ s₂ = s₁ ++ "-") ∨ (h₂ < 0 ∧ 0 ≤ h₁ ∧ s₁ = s₂ ++ "-") := by
  have hyphen : ∀ {a b : String}, a.toList = b.toList ++ ['-'] ↔ a = b ++ "-" := by
    intro a b
    rw [← String.toList_inj, String.toList_append]
    rfl
  by_cases hneg₁ : h₁ < 0 <;> by_cases hneg₂ : h₂ < 0
  · simp [keyStem, hneg₁, hneg₂, Int.not_le.mpr hneg₁, Int.not_le.mpr hneg₂, String.toList_inj]
  · rw [eq_comm]
    simp [keyStem, hneg₁, hneg₂, hyphen, Int.not_lt.mp hneg₂]
  · simp [keyStem, hneg₁, hneg₂, hyphen, Int.not_lt.mp hneg₁]
  · simp [keyStem, hneg₁, hneg₂, String.toList_inj]

/-- Which messages have the same key: those with the same number of parts, sender and header, if a missing header
counts as zero; and those with opposite headers if the sender that belongs to the positive one is the other sender
with a hyphen at its end. So headers that are not negative make the key tell sender, header and number of parts. -/
theorem groupKey_eq_iff (s₁ s₂ : String) (u₁ u₂ : Option Int) {t₁ t₂ : Int} (ht₁ : 1 ≤ t₁) (ht₂ : 1 ≤ t₂) :
    (groupKey s₁ (u₁.elim .null .int) t₁ = groupKey s₂ (u₂.elim .null .int) t₂ ↔
      t₁ = t₂ ∧ ((s₁ = s₂ ∧ u₁.getD 0 = u₂.getD 0) ∨
        (u₁.getD 0 < 0 ∧ u₂.getD 0 = -u₁.getD 0 ∧ s₂ = s₁ ++ "-") ∨
        (u₂.getD 0 < 0 ∧ u₁.getD 0 = -u₂.getD 0 ∧ s₁ = s₂ ++ "-"))) ∧
    (0 ≤ u₁.getD 0 → 0 ≤ u₂.getD 0 →
      (groupKey s₁ (u₁.elim .null .int) t₁ = groupKey s₂ (u₂.elim .null .int) t₂ ↔
        s₁ = s₂ ∧ u₁.getD 0 = u₂.getD 0 ∧ t₁ = t₂)) := by
  have hkeys := groupKey_eq_iff_stem s₁ s₂ u₁ u₂ (show 0 ≤ t₁ by omega) (show 0 ≤ t₂ by omega)
  rw [keyStem_eq_iff] at hkeys
  generalize u₁.getD 0 = h₁ at *
  generalize u₂.getD 0 = h₂ at *
  constructor
  · rw [hkeys]
    refine and_congr_right fun _ => ?_
    constructor
    · rintro ⟨habs, ⟨rfl, hsign⟩ | ⟨hneg, hpos, hs⟩ | ⟨hneg, hpos, hs⟩⟩
      · exact .inl ⟨rfl, by omega⟩
      · exact .inr (.inl ⟨hneg, by omega, hs⟩)
      · exact .inr (.inr ⟨hneg, by omega, hs⟩)
    · rintro (⟨rfl, rfl⟩ | ⟨hneg, heq, hs⟩ | ⟨hneg, heq, hs⟩)
      · exact ⟨rfl, .inl ⟨rfl, Iff.rfl⟩⟩
      · exact ⟨by omega, .inr (.inl ⟨hneg, by omega, hs⟩)⟩
      · exact ⟨by omega, .inr (.inr ⟨hneg, by omega, hs⟩)⟩
  · intro hpos₁ hpos₂
    rw [hkeys]
    constructor
    · rintro ⟨htotal, habs, ⟨rfl, -⟩ | ⟨hneg, -⟩ | ⟨hneg, -⟩⟩
      · exact ⟨rfl, by omega, htotal⟩
      · omega
      · omega
    · rintro ⟨rfl, rfl, rfl⟩
      exact ⟨rfl, rfl, .inl ⟨rfl, Iff.rfl⟩⟩

/-- The sender `a-` with header 1 and the sender `a` with header -1. -/
theorem groupKey_eq_opposite : groupKey "a-" (.int 1) 2 = groupKey "a" (.int (-1)) 2 :=
  (groupKey_eq_iff "a-" "a" (some 1) (some (-1)) (show (1 : Int) ≤ 2 by decide) (by decide)).1.mpr
    ⟨rfl, .inr (.inr ⟨by decide, rfl, rfl⟩)⟩

end SmsRelay
