-- SUMMARY: Halves of surrogate pairs in a text: how they are spelled, and texts that are free of them.
/-!
# Surrogates that stand alone

JSON can spell half of a surrogate pair on its own. No string of characters
holds such a half, and no database stores it, but a text may carry it from a
record to a message. So texts spell it with two characters, a mark and one that
carries the code, and spell the mark itself twice. A text without such halves
is whole.
-/

namespace SmsRelay.Text

/-- The character before the code of half of a surrogate pair. In other texts it stands for no
character at all. -/
def mark : Char := '\uFDD0'

/-- One code point of a text. -/
inductive Letter where
  | char (c : Char)
  /-- Half of a surrogate pair, by its code. -/
  | lone (code : Nat)
  deriving DecidableEq

namespace Letter

/-- How a text spells the letter. -/
def spelling : Letter → List Char
  | char c => if c = mark then [mark, mark] else [c]
  | lone code => [mark, Char.ofNat (code + 0x800)]

def isLone : Letter → Bool
  | char _ => false
  | lone _ => true

def char? : Letter → Option Char
  | char c => some c
  | lone _ => none

def code? : Letter → Option Nat
  | char _ => none
  | lone code => some code

end Letter

/-- The letters of a text. A mark with nothing after it counts as half of a pair. -/
def letters : List Char → List Letter
  | [] => []
  | [c] => [if c = mark then .lone 0xD800 else .char c]
  | c :: d :: cs =>
    if c = mark then (if d = mark then .char mark else .lone (d.toNat - 0x800)) :: letters cs
    else .char c :: letters (d :: cs)

/-- The text holds no half of a surrogate pair. -/
def isWhole (s : String) : Bool := !(letters s.toList).any Letter.isLone

/-- The first halves of pairs that stand in a row: the place of the first among the letters, and
their codes. -/
def firstLone? (s : String) : Option (Nat × List Nat) :=
  let ls := letters s.toList
  let codes := ((ls.dropWhile (!·.isLone)).takeWhile Letter.isLone).filterMap Letter.code?
  if codes.isEmpty then none else some ((ls.takeWhile (!·.isLone)).length, codes)

/-- A text that is half of a surrogate pair. -/
def loneHalf : String := String.ofList (Letter.lone 0xD83D).spelling

section

variable {cs ds : List Char} {s t : String}

theorem letters_of_unmarked (h : mark ∉ cs) : letters cs = cs.map .char := by
  fun_induction letters cs with
  | case1 => rfl
  | case2 c =>
    rw [if_neg (by simpa [eq_comm] using h), List.map_singleton]
  | case3 d cs ih => exact absurd List.mem_cons_self h
  | case4 c d cs hc ih => rw [ih fun hmem => h (List.mem_cons_of_mem _ hmem), ← List.map_cons]

/-- What follows on a text without halves of pairs does not change its letters. -/
theorem letters_append (h : (letters cs).any Letter.isLone = false) : letters (cs ++ ds) = letters cs ++ letters ds := by
  fun_induction letters cs with
  | case1 => rfl
  | case2 c =>
    by_cases hc : c = mark
    · simp [hc, Letter.isLone] at h
    · cases ds with
      | nil => rfl
      | cons d ds => simp [letters, hc]
  | case3 d cs ih =>
    rw [List.any_cons, Bool.or_eq_false_iff] at h
    rw [List.cons_append, List.cons_append, letters, if_pos rfl, ih h.2, List.cons_append]
  | case4 c d cs hc ih =>
    rw [List.any_cons, Bool.or_eq_false_iff] at h
    rw [List.cons_append, List.cons_append, letters, if_neg hc, ← List.cons_append, ih h.2, List.cons_append]

/-- What stands before another text holds no halves of pairs if the two together hold none. -/
theorem letters_of_append (hds : ds.head? ≠ some mark) (h : (letters (cs ++ ds)).any Letter.isLone = false) :
    (letters cs).any Letter.isLone = false := by
  fun_induction letters cs with
  | case1 => rfl
  | case2 c =>
    by_cases hc : c = mark
    · subst hc
      cases ds with
      | nil => simp [letters, Letter.isLone] at h
      | cons d ds =>
        have hd : d ≠ mark := fun heq => hds (congrArg some heq)
        simp [letters, hd, Letter.isLone] at h
    · simp [hc, Letter.isLone]
  | case3 d cs ih =>
    rw [List.cons_append, List.cons_append, letters, if_pos rfl, List.any_cons, Bool.or_eq_false_iff] at h
    rw [List.any_cons, h.1, ih h.2, Bool.or_self]
  | case4 c d cs hc ih =>
    rw [List.cons_append, List.cons_append, letters, if_neg hc, List.any_cons, Bool.or_eq_false_iff] at h
    rw [List.any_cons, h.1, ih h.2, Bool.or_self]

theorem isWhole_iff : isWhole s = true ↔ (letters s.toList).any Letter.isLone = false := by
  rw [isWhole, Bool.not_eq_true']

theorem isWhole_of_unmarked (h : mark ∉ s.toList) : isWhole s = true := by
  rw [isWhole_iff, letters_of_unmarked h]
  simp [Letter.isLone, List.any_map]

/-- A text after one without halves of pairs. -/
theorem isWhole_append (h : isWhole s = true) : isWhole (s ++ t) = isWhole t := by
  rw [isWhole_iff] at h
  rw [isWhole, String.toList_append, letters_append h, List.any_append, h, Bool.false_or, isWhole]

theorem isWhole_of_append (ht : t.toList.head? ≠ some mark) (h : isWhole (s ++ t) = true) : isWhole s = true := by
  rw [isWhole_iff, String.toList_append] at h
  exact isWhole_iff.mpr (letters_of_append ht h)

theorem isWhole_join {ss : List String} (h : ∀ s ∈ ss, isWhole s = true) : isWhole (String.join ss) = true := by
  induction ss with
  | nil => rfl
  | cons s ss ih =>
    obtain ⟨hs, hss⟩ := List.forall_mem_cons.mp h
    rw [String.join_cons, isWhole_append hs, ih hss]

theorem firstLone?_eq_none_iff : firstLone? s = none ↔ isWhole s = true := by
  rw [isWhole_iff]
  unfold firstLone?
  induction letters s.toList with
  | nil => simp
  | cons l ls ih =>
    cases l with
    | char c => simpa [Letter.isLone] using ih
    | lone code => simp [List.takeWhile_cons, Letter.isLone, Letter.code?]

end

end SmsRelay.Text
