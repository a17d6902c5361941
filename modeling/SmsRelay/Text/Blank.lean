-- SUMMARY: Blank characters, and texts stripped of them.
/-!
# Blanks

Which characters count as blank space. A device and its tool pad what they
print, so text is stripped of Unicode blanks before it is read. A numeral is
read by a narrower rule: the four ASCII separator characters belong to text,
not to numbers.
-/

namespace SmsRelay.Text

/-- Unicode white space, the separators U+001C to U+001F included. -/
def isBlank (c : Char) : Bool :=
  let n := c.toNat
  (0x09 ≤ n && n ≤ 0x0D) || (0x1C ≤ n && n ≤ 0x20) || n == 0x85 || n == 0xA0 || n == 0x1680 ||
    (0x2000 ≤ n && n ≤ 0x200A) || n == 0x2028 || n == 0x2029 || n == 0x202F || n == 0x205F ||
    n == 0x3000

/-- Blank space that may surround a numeral: all of it but U+001C to U+001F. -/
def isNumeralBlank (c : Char) : Bool :=
  isBlank c && !(0x1C ≤ c.toNat && c.toNat ≤ 0x1F)

/-- Drop the leading and trailing characters that satisfy `p`. -/
def trimBoth (p : Char → Bool) (cs : List Char) : List Char :=
  ((cs.dropWhile p).reverse.dropWhile p).reverse

/-- Text without the blanks around it. -/
def strip (s : String) : String :=
  String.ofList (trimBoth isBlank s.toList)

@[simp] theorem trimBoth_nil (p : Char → Bool) : trimBoth p [] = [] := rfl

section

variable {p : Char → Bool} {front back core : List Char}

/-- What is dropped on either side satisfies `p`. -/
theorem exists_trimBoth (p : Char → Bool) (cs : List Char) : ∃ front back, cs = front ++ trimBoth p cs ++ back ∧
    (∀ c ∈ front, p c = true) ∧ ∀ c ∈ back, p c = true := by
  have hall : ∀ cs : List Char, ∀ c ∈ cs.takeWhile p, p c = true := fun cs =>
    List.all_eq_true.mp List.all_takeWhile
  refine ⟨cs.takeWhile p, ((cs.dropWhile p).reverse.takeWhile p).reverse, ?_, hall cs, fun c hc => ?_⟩
  · rw [trimBoth, List.append_assoc, ← List.reverse_append, List.takeWhile_append_dropWhile, List.reverse_reverse,
      List.takeWhile_append_dropWhile]
  · exact hall _ c (List.mem_reverse.mp hc)

/-- A text whose ends do not satisfy `p` is left of a text that has it between characters that do. -/
theorem trimBoth_append (hfront : ∀ c ∈ front, p c = true) (hback : ∀ c ∈ back, p c = true) (hne : core ≠ [])
    (hhead : ∀ c ∈ core.head?, p c = false) (hlast : ∀ c ∈ core.getLast?, p c = false) :
    trimBoth p (front ++ core ++ back) = core := by
  have hstop : ∀ {cs : List Char}, cs ≠ [] → (∀ c ∈ cs.head?, p c = false) → ∀ rest,
      (cs ++ rest).dropWhile p = cs ++ rest := by
    intro cs hne hhead rest
    cases cs with
    | nil => exact absurd rfl hne
    | cons c cs => exact List.dropWhile_cons_of_neg (by simp [hhead c rfl])
  rw [trimBoth, List.append_assoc, List.dropWhile_append_of_pos hfront, hstop hne hhead, List.reverse_append,
    List.dropWhile_append_of_pos fun c hc => hback c (List.mem_reverse.mp hc)]
  have hreverse : (core.reverse ++ []).dropWhile p = core.reverse ++ [] :=
    hstop (by simpa using hne) (by simpa using hlast) []
  rw [List.append_nil] at hreverse
  rw [hreverse, List.reverse_reverse]

end

end SmsRelay.Text
