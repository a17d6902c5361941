-- SUMMARY: Masking: no number is left, nothing else is changed, and nothing is masked twice.
import Mathlib.Order.Basic
import SmsRelay.Log.Mask
import SmsRelay.Log.Template

/-!
# What masking leaves of a text

A text is read as a row of numbers, of shorter runs of digits, and of characters
that are no digits. Masking keeps all of it but the numbers, of which it shows
the last four digits. What it shows holds no number, so there is nothing to mask
in it.
-/

namespace SmsRelay.Log

open Text

/-! ## Texts and what is shown of them -/

/-- Digits only. -/
def AllDigits (run : List Char) : Prop := ∀ c ∈ run, isDigit c = true

/-- A run of digits that stands before this text ends there. -/
def EndsRun (rest : List Char) : Prop := ∀ c ∈ rest.head?, isDigit c = false

/-- How many digits a text starts with. -/
def leading (cs : List Char) : Nat := (cs.takeWhile isDigit).length

/-- What is shown of a text. A run of digits is taken as a whole; if it has six digits or more it is a number, and three
asterisks and its last four digits are shown for it and for a plus sign before it. All else is shown as it stands. -/
inductive Masked : List Char → List Char → Prop
  | nil : Masked [] []
  | kept {c : Char} {rest shown : List Char} : isDigit c = false → (c = '+' → leading rest < 6) →
      Masked rest shown → Masked (c :: rest) (c :: shown)
  | short {run rest shown : List Char} : AllDigits run → run.length < 6 → EndsRun rest →
      Masked rest shown → Masked (run ++ rest) (run ++ shown)
  | number {plus front last rest shown : List Char} : plus = [] ∨ plus = ['+'] → AllDigits (front ++ last) →
      6 ≤ (front ++ last).length → last.length = 4 → EndsRun rest →
      Masked rest shown → Masked (plus ++ (front ++ last) ++ rest) (['*', '*', '*'] ++ last ++ shown)

/-! ## Runs of digits -/

section

variable {c : Char} {cs run rest : List Char}

theorem endsRun_dropWhile (cs : List Char) : EndsRun (cs.dropWhile isDigit) := by
  intro c hc
  have hfirst := List.head?_dropWhile_not isDigit cs
  rw [Option.mem_def.mp hc] at hfirst
  exact hfirst

theorem allDigits_takeWhile (cs : List Char) : AllDigits (cs.takeWhile isDigit) := fun _ hc =>
  List.all_eq_true.mp List.all_takeWhile _ hc

theorem takeWhile_of_run (hrun : AllDigits run) (hrest : EndsRun rest) : (run ++ rest).takeWhile isDigit = run := by
  rw [List.takeWhile_append_of_pos hrun]
  cases rest with
  | nil => exact List.append_nil run
  | cons c cs => rw [List.takeWhile_cons_of_neg (by simp [hrest c rfl]), List.append_nil]

theorem dropWhile_of_run (hrun : AllDigits run) (hrest : EndsRun rest) : (run ++ rest).dropWhile isDigit = rest := by
  rw [List.dropWhile_append_of_pos hrun]
  cases rest with
  | nil => rfl
  | cons c cs => exact List.dropWhile_cons_of_neg (by simp [hrest c rfl])

theorem leading_of_run (hrun : AllDigits run) (hrest : EndsRun rest) : leading (run ++ rest) = run.length :=
  congrArg List.length (takeWhile_of_run hrun hrest)

theorem leading_cons_lt (hc : isDigit c = false) : leading (c :: cs) < 6 := by
  rw [leading, List.takeWhile_cons_of_neg (by simp [hc])]
  decide

/-! ## Masking, piece by piece -/

/-- A character is kept if no number starts with it or after it as a plus sign. -/
theorem mask_kept (hplus : c = '+' → leading cs < 6) (hrun : leading (c :: cs) < 6) :
    mask (c :: cs) = c :: mask cs := by
  rw [mask]
  by_cases hc : c = '+'
  · simp only [if_pos hc]
    exact if_neg (Nat.not_le.mpr (hplus hc))
  · simp only [if_neg hc]
    exact if_neg (Nat.not_le.mpr hrun)

theorem mask_short (hrun : AllDigits run) (hlength : run.length < 6) (hrest : EndsRun rest) :
    mask (run ++ rest) = run ++ mask rest := by
  induction run with
  | nil => rfl
  | cons c run ih =>
    have hdigits := List.forall_mem_cons.mp hrun
    have hlt : run.length < 6 := Nat.lt_of_succ_lt hlength
    have hplus : c = '+' → leading (run ++ rest) < 6 := fun _ => (leading_of_run hdigits.2 hrest).trans_lt hlt
    have hwhole : leading (c :: (run ++ rest)) < 6 := (leading_of_run hrun hrest).trans_lt hlength
    rw [List.cons_append, mask_kept hplus hwhole, ih hdigits.2 hlt, List.cons_append]

theorem mask_number (hrun : AllDigits run) (hlength : 6 ≤ run.length) (hrest : EndsRun rest) :
    mask (run ++ rest) = maskedNumber run ++ mask rest := by
  cases run with
  | nil => cases hlength
  | cons c run =>
    have hdigits := List.forall_mem_cons.mp hrun
    have hc : c ≠ '+' := by
      rintro rfl
      exact absurd hdigits.1 (by decide)
    have htake : (c :: (run ++ rest)).takeWhile isDigit = c :: run := takeWhile_of_run hrun hrest
    rw [List.cons_append, mask]
    simp only [if_neg hc, htake, dropWhile_of_run hdigits.2 hrest]
    exact if_pos hlength

theorem mask_plus_number (hrun : AllDigits run) (hlength : 6 ≤ run.length) (hrest : EndsRun rest) :
    mask ('+' :: (run ++ rest)) = maskedNumber run ++ mask rest := by
  rw [mask]
  simp only [if_pos, takeWhile_of_run hrun hrest, dropWhile_of_run hrun hrest]
  exact if_pos hlength

end

theorem maskedNumber_append {front last : List Char} (h : last.length = 4) :
    maskedNumber (front ++ last) = ['*', '*', '*'] ++ last := by
  rw [maskedNumber, lastFour, List.length_append, h, Nat.add_sub_cancel, List.drop_left]

/-- No other text is shown than the masked one. -/
theorem mask_of_masked {cs shown : List Char} (h : Masked cs shown) : mask cs = shown := by
  induction h with
  | nil => exact mask_nil
  | kept hc hplus _ ih => rw [mask_kept hplus (leading_cons_lt hc), ih]
  | short hrun hlength hrest _ ih => rw [mask_short hrun hlength hrest, ih]
  | number hplus hrun hlength hlast hrest _ ih =>
    rcases hplus with rfl | rfl
    · rw [List.nil_append, mask_number hrun hlength hrest, maskedNumber_append hlast, ih]
    · rw [List.append_assoc, List.singleton_append, mask_plus_number hrun hlength hrest, maskedNumber_append hlast, ih]

/-- A number is shown by its last four digits. -/
theorem masked_number {plus run rest shown : List Char} (hplus : plus = [] ∨ plus = ['+']) (hrun : AllDigits run)
    (hlength : 6 ≤ run.length) (hrest : EndsRun rest) (h : Masked rest shown) :
    ∃ shown, Masked (plus ++ run ++ rest) shown := by
  have hsplit : run.take (run.length - 4) ++ run.drop (run.length - 4) = run := List.take_append_drop _ run
  have hlast : (run.drop (run.length - 4)).length = 4 := by
    rw [List.length_drop]
    omega
  have hnumber := Masked.number hplus (hsplit.symm ▸ hrun) (hsplit.symm ▸ hlength) hlast hrest h
  rw [hsplit] at hnumber
  exact ⟨_, hnumber⟩

/-- Every text can be read as a row of numbers, shorter runs and characters that are no digits. -/
theorem exists_masked (cs : List Char) : ∃ shown, Masked cs shown := by
  match cs with
  | [] => exact ⟨[], .nil⟩
  | c :: cs =>
    have hsuffix : (cs.dropWhile isDigit).length ≤ cs.length := (List.dropWhile_suffix isDigit).length_le
    obtain ⟨rest, hrest⟩ := exists_masked (cs.dropWhile isDigit)
    have hcs : cs.takeWhile isDigit ++ cs.dropWhile isDigit = cs := List.takeWhile_append_dropWhile
    by_cases hc : isDigit c = true
    · -- the text starts with a run of digits
      have hrun : AllDigits (c :: cs.takeWhile isDigit) := List.forall_mem_cons.mpr ⟨hc, allDigits_takeWhile cs⟩
      have heq : c :: cs = (c :: cs.takeWhile isDigit) ++ cs.dropWhile isDigit := by rw [List.cons_append, hcs]
      rw [heq]
      by_cases hlength : (c :: cs.takeWhile isDigit).length < 6
      · exact ⟨_, .short hrun hlength (endsRun_dropWhile cs) hrest⟩
      · exact masked_number (.inl rfl) hrun (Nat.not_lt.mp hlength) (endsRun_dropWhile cs) hrest
    · by_cases hplus : c = '+' ∧ 6 ≤ leading cs
      · obtain ⟨rfl, hlength⟩ := hplus
        have hnumber := masked_number (.inr rfl) (allDigits_takeWhile cs) hlength (endsRun_dropWhile cs) hrest
        rwa [List.append_assoc, hcs] at hnumber
      · obtain ⟨shown, hshown⟩ := exists_masked cs
        refine ⟨c :: shown, .kept (by simpa using hc) (fun hc => ?_) hshown⟩
        exact Nat.not_le.mp fun hlength => hplus ⟨hc, hlength⟩
termination_by cs.length

/-- What is shown of a text is the masked text. -/
theorem masked_iff {cs shown : List Char} : Masked cs shown ↔ mask cs = shown := by
  refine ⟨mask_of_masked, fun h => ?_⟩
  obtain ⟨shown', hshown⟩ := exists_masked cs
  rwa [← h, mask_of_masked hshown]

/-! ## Texts without numbers -/

/-- No six digits stand in a row. -/
def NoNumber (cs : List Char) : Prop := ∀ rest, rest <:+ cs → leading rest < 6

section

variable {c : Char} {cs run rest : List Char}

theorem noNumber_nil : NoNumber [] := by
  intro rest hrest
  rw [List.suffix_nil.mp hrest]
  exact Nat.succ_pos 5

theorem noNumber_cons (h : leading (c :: cs) < 6) (hcs : NoNumber cs) : NoNumber (c :: cs) := by
  intro rest hrest
  rcases List.suffix_cons_iff.mp hrest with rfl | hrest
  · exact h
  · exact hcs rest hrest

theorem NoNumber.tail (h : NoNumber (c :: cs)) : NoNumber cs := fun rest hrest =>
  h rest (hrest.trans (List.suffix_cons c cs))

/-- A short run that ends before a text without numbers. -/
theorem noNumber_append (hrun : AllDigits run) (hlength : run.length < 6) (hrest : EndsRun rest) (h : NoNumber rest) :
    NoNumber (run ++ rest) := by
  induction run with
  | nil => exact h
  | cons c run ih =>
    have hwhole : leading (c :: (run ++ rest)) < 6 := (leading_of_run hrun hrest).trans_lt hlength
    exact noNumber_cons hwhole (ih (List.forall_mem_cons.mp hrun).2 (Nat.lt_of_succ_lt hlength))

theorem noNumber_asterisk (h : NoNumber cs) : NoNumber ('*' :: cs) :=
  noNumber_cons (leading_cons_lt (by decide)) h

theorem NoNumber.length_lt (h : NoNumber cs) (hwithin : run <:+: cs) (hrun : AllDigits run) : run.length < 6 := by
  obtain ⟨front, back, rfl⟩ := hwithin
  have hle : run.length ≤ leading (run ++ back) := by
    rw [leading, List.takeWhile_append_of_pos hrun, List.length_append]
    exact Nat.le_add_right _ _
  have hsuffix : run ++ back <:+ front ++ run ++ back := by
    rw [List.append_assoc]
    exact List.suffix_append front (run ++ back)
  exact Nat.lt_of_le_of_lt hle (h (run ++ back) hsuffix)

/-- In a text without numbers there is nothing to mask. -/
theorem NoNumber.mask_eq (h : NoNumber cs) : mask cs = cs := by
  induction cs with
  | nil => exact mask_nil
  | cons c cs ih =>
    rw [mask_kept (fun _ => h cs (List.suffix_cons c cs)) (h _ (List.suffix_refl _)), ih h.tail]

end

/-- What is shown of a text that starts with no digit starts with none. -/
theorem Masked.endsRun {cs shown : List Char} (h : Masked cs shown) (hcs : EndsRun cs) : EndsRun shown := by
  induction h with
  | nil => exact hcs
  | kept _ _ _ _ => exact hcs
  | @short run rest shown hrun _ _ _ ih =>
    cases run with
    | nil => exact ih hcs
    | cons c run => exact hcs
  | number =>
    intro c hc
    obtain rfl : '*' = c := Option.some.inj hc
    decide

/-- What is shown of a text holds no number. -/
theorem Masked.noNumber {cs shown : List Char} (h : Masked cs shown) : NoNumber shown := by
  induction h with
  | nil => exact noNumber_nil
  | kept hc _ _ ih => exact noNumber_cons (leading_cons_lt hc) ih
  | short hrun hlength hrest hshown ih => exact noNumber_append hrun hlength (hshown.endsRun hrest) ih
  | number _ hrun _ hlast hrest hshown ih =>
    have hdigits := (List.forall_mem_append.mp hrun).2
    have hend := noNumber_append hdigits (hlast.trans_lt (by decide)) (hshown.endsRun hrest) ih
    exact noNumber_asterisk (noNumber_asterisk (noNumber_asterisk hend))

theorem noNumber_mask (cs : List Char) : NoNumber (mask cs) := (masked_iff.mpr rfl).noNumber

/-! ## Log lines -/

/-- A log line, with the report of an error after it if there is one, holds no six digits in a row once it is masked. To
mask it again changes nothing. It is the line itself, but for the numbers: of each, and of a plus sign before it, three
asterisks and the last four digits are left. -/
theorem masked_line (line : String) (report : Option String) :
    (∀ run, run <:+: (maskIf true (withReport line report)).toList → (∀ c ∈ run, isDigit c = true) → run.length < 6) ∧
      maskIf true (maskIf true (withReport line report)) = maskIf true (withReport line report) ∧
      ∀ shown, Masked (maskIf false (withReport line report)).toList shown ↔
        (maskIf true (withReport line report)).toList = shown := by
  have hmask : ∀ s : String, (maskIf true s).toList = mask s.toList := fun s => String.toList_ofList
  have hnone := noNumber_mask (withReport line report).toList
  refine ⟨fun run hrun hdigits => ?_, ?_, fun shown => ?_⟩
  · rw [hmask] at hrun
    exact hnone.length_lt hrun hdigits
  · rw [← String.toList_inj, hmask, hmask]
    exact hnone.mask_eq
  · rw [hmask, maskIf_false]
    exact masked_iff

/-- Five digits stay, and a number in another script is masked as well. -/
theorem masked_line_call :
    maskIf true (withReport "+15550001234 to 12345" (some "KeyError: ०१२३४५६७")) =
      "***1234 to 12345\nKeyError: ***४५६७" ∧
    ("12345".toList <:+: "***1234 to 12345\nKeyError: ***४५६७".toList ∧ (∀ c ∈ "12345".toList, isDigit c = true) ∧
      "12345".toList.length < 6) ∧
    maskIf true "***1234 to 12345\nKeyError: ***४५६७" = "***1234 to 12345\nKeyError: ***४५६७" ∧
    Masked (withReport "+15550001234 to 12345" (some "KeyError: ०१२३४५६७")).toList
      "***1234 to 12345\nKeyError: ***४५६७".toList := by
  have hshown : maskIf true (withReport "+15550001234 to 12345" (some "KeyError: ०१२३४५६७")) =
      "***1234 to 12345\nKeyError: ***४५६७" := by decide +kernel
  have hwithin : "12345".toList <:+: "***1234 to 12345\nKeyError: ***४५६७".toList :=
    ⟨"***1234 to ".toList, "\nKeyError: ***४५६७".toList, by decide +kernel⟩
  have hdigits : ∀ c ∈ "12345".toList, isDigit c = true := List.all_eq_true.mp (by decide +kernel)
  obtain ⟨hshort, hagain, hmasked⟩ := masked_line "+15550001234 to 12345" (some "KeyError: ०१२३४५६७")
  rw [hshown] at hshort hagain hmasked
  exact ⟨hshown, ⟨hwithin, hdigits, hshort _ hwithin hdigits⟩, hagain, (hmasked _).mpr rfl⟩

end SmsRelay.Log
