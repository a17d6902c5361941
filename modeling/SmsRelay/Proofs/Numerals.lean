-- SUMMARY: The grammar of integer numerals, and its agreement with how they are read.
import SmsRelay.Value.Number

/-!
# Integer numerals

The texts that can be read as integers, given by their form, and the values that
can be. Reading a text and recognising its form come to the same.
-/

namespace SmsRelay

open Text

namespace Number

/-! ## Digits with underscores -/

/-- So many digits of any script, with single underscores between some of them. -/
inductive Digits : Nat → List Char → Prop
  | one {c : Char} : isDigit c = true → Digits 1 [c]
  | next {n : Nat} {c : Char} {cs : List Char} : isDigit c = true → Digits n cs → Digits (n + 1) (c :: cs)
  | apart {n : Nat} {c : Char} {cs : List Char} : isDigit c = true → Digits n cs → Digits (n + 1) (c :: '_' :: cs)

section

variable {n : Nat} {c : Char} {cs : List Char}

/-- Digits start with a digit. -/
theorem Digits.head (h : Digits n cs) : ∃ c rest, cs = c :: rest ∧ isDigit c = true := by
  cases h with
  | one hc => exact ⟨_, _, rfl, hc⟩
  | next hc _ => exact ⟨_, _, rfl, hc⟩
  | apart hc _ => exact ⟨_, _, rfl, hc⟩

/-- Digits end with a digit. -/
theorem Digits.getLast? (h : Digits n cs) : ∃ c, cs.getLast? = some c ∧ isDigit c = true := by
  induction h with
  | one hc => exact ⟨_, rfl, hc⟩
  | next _ h ih =>
    obtain ⟨c, rest, rfl, -⟩ := h.head
    exact ih
  | apart _ h ih =>
    obtain ⟨c, rest, rfl, -⟩ := h.head
    exact ih

theorem exists_digit (hc : isDigit c = true) : ∃ d, digit? c = some d := Option.isSome_iff_exists.mp hc

/-- A whole text of digits is scanned to its end. -/
theorem Digits.scan (h : Digits n cs) : ∃ ds, scanDigits cs = some (ds, []) ∧ ds.length = n := by
  induction h with
  | one hc =>
    obtain ⟨d, hd⟩ := exists_digit hc
    exact ⟨[d], by simp [scanDigits, hd], rfl⟩
  | next hc h ih =>
    obtain ⟨d, hd⟩ := exists_digit hc
    obtain ⟨ds, hds, hlength⟩ := ih
    obtain ⟨c', rest, rfl, hc'⟩ := h.head
    have hne : c' = '_' → False := by
      rintro rfl
      exact absurd hc' (by decide)
    refine ⟨d :: ds, ?_, congrArg (· + 1) hlength⟩
    simp [scanDigits, hd, hc', hds]
  | apart hc _ ih =>
    obtain ⟨d, hd⟩ := exists_digit hc
    obtain ⟨ds, hds, hlength⟩ := ih
    refine ⟨d :: ds, ?_, congrArg (· + 1) hlength⟩
    simp [scanDigits, hd, hds]

/-- Only digits are scanned to their end. -/
theorem digits_of_scan {ds : List Nat} (h : scanDigits cs = some (ds, [])) : Digits ds.length cs := by
  fun_induction scanDigits cs generalizing ds with
  | case1 => cases h
  | case2 => cases h
  | case3 c d hd =>
    cases h
    exact .one (Option.isSome_iff_exists.mpr ⟨d, hd⟩)
  | case4 c d cs hd ih =>
    obtain ⟨⟨ds', rest⟩, hscan, heq⟩ := Option.map_eq_some_iff.mp h
    cases heq
    exact .apart (Option.isSome_iff_exists.mpr ⟨d, hd⟩) (ih hscan)
  | case5 c d c' cs _ hd hc' ih =>
    obtain ⟨⟨ds', rest⟩, hscan, heq⟩ := Option.map_eq_some_iff.mp h
    cases heq
    exact .next (Option.isSome_iff_exists.mpr ⟨d, hd⟩) (ih hscan)
  | case6 => cases h

end

/-! ## Numerals -/

/-- Blanks, a sign if there is one, digits, and blanks again. There are at most 4300 digits. -/
inductive Numeral : List Char → Prop
  | intro {n : Nat} {front sign digits back : List Char} : (∀ c ∈ front, isNumeralBlank c = true) →
      sign = [] ∨ sign = ['+'] ∨ sign = ['-'] → Digits n digits → n ≤ 4300 →
      (∀ c ∈ back, isNumeralBlank c = true) → Numeral (front ++ (sign ++ digits) ++ back)

theorem isNumeralBlank_of_isDigit {c : Char} (hc : isDigit c = true) : isNumeralBlank c = false := by
  have htable : ∀ z ∈ digitZeros, ∀ k < 10, ∀ c : Char, c.toNat = z + k → isBlank c = false := by
    intro z hz k hk c hc
    simp only [isBlank, hc]
    clear hc
    revert z k
    decide +kernel
  obtain ⟨d, hd⟩ := exists_digit hc
  obtain ⟨z, hz, -⟩ := Option.map_eq_some_iff.mp hd
  have hrange := List.find?_some hz
  simp only [Bool.and_eq_true, decide_eq_true_eq] at hrange
  have hblank := htable z (List.mem_of_find?_eq_some hz) (c.toNat - z) (by omega) c (by omega)
  rw [isNumeralBlank, hblank, Bool.false_and]

section

variable {n : Nat} {sign body : List Char}

theorem splitSign_append (hsign : sign = [] ∨ sign = ['+'] ∨ sign = ['-'])
    (hhead : ∀ c ∈ body.head?, c ≠ '+' ∧ c ≠ '-') : (splitSign (sign ++ body)).2 = body := by
  rcases hsign with rfl | rfl | rfl
  · rw [List.nil_append, splitSign]
    · rintro rest rfl
      exact (hhead _ rfl).2 rfl
    · rintro rest rfl
      exact (hhead _ rfl).1 rfl
  · rfl
  · rfl

theorem exists_sign (cs : List Char) :
    ∃ sign, cs = sign ++ (splitSign cs).2 ∧ (sign = [] ∨ sign = ['+'] ∨ sign = ['-']) := by
  unfold splitSign
  split
  · exact ⟨['-'], rfl, .inr (.inr rfl)⟩
  · exact ⟨['+'], rfl, .inr (.inl rfl)⟩
  · exact ⟨[], rfl, .inl rfl⟩

/-- Nothing is blank at either end of what has a sign and no blanks at its ends. -/
theorem trimBoth_signed {front back : List Char} (hfront : ∀ c ∈ front, isNumeralBlank c = true)
    (hsign : sign = [] ∨ sign = ['+'] ∨ sign = ['-']) (hne : body ≠ [])
    (hhead : ∀ c ∈ body.head?, isNumeralBlank c = false) (hlast : ∀ c ∈ body.getLast?, isNumeralBlank c = false)
    (hback : ∀ c ∈ back, isNumeralBlank c = true) :
    trimBoth isNumeralBlank (front ++ (sign ++ body) ++ back) = sign ++ body := by
  refine trimBoth_append hfront hback (by simp [hne]) (fun c hc => ?_) fun c hc => ?_
  · rcases hsign with rfl | rfl | rfl
    · exact hhead c hc
    · obtain rfl := Option.some.inj hc
      decide
    · obtain rfl := Option.some.inj hc
      decide
  · rw [List.getLast?_append, List.getLast?_eq_some_getLast hne] at hc
    exact hlast c (List.getLast?_eq_some_getLast hne ▸ hc)

theorem trimBoth_digits {front back : List Char} (h : Digits n body) (hfront : ∀ c ∈ front, isNumeralBlank c = true)
    (hsign : sign = [] ∨ sign = ['+'] ∨ sign = ['-']) (hback : ∀ c ∈ back, isNumeralBlank c = true) :
    trimBoth isNumeralBlank (front ++ (sign ++ body) ++ back) = sign ++ body := by
  obtain ⟨first, rest, rfl, hfirst⟩ := h.head
  obtain ⟨last, hlast, hdigit⟩ := h.getLast?
  refine trimBoth_signed hfront hsign nofun (fun c hc => ?_) (fun c hc => ?_) hback
  · exact isNumeralBlank_of_isDigit (Option.some.inj hc ▸ hfirst)
  · exact isNumeralBlank_of_isDigit (Option.some.inj (hlast.symm.trans hc) ▸ hdigit)

theorem splitSign_digits (h : Digits n body) (hsign : sign = [] ∨ sign = ['+'] ∨ sign = ['-']) :
    (splitSign (sign ++ body)).2 = body := by
  obtain ⟨first, rest, rfl, hfirst⟩ := h.head
  refine splitSign_append hsign fun c hc => ?_
  obtain rfl := Option.some.inj hc
  constructor <;> rintro rfl <;> exact absurd hfirst (by decide)

/-- The numerals are the texts that can be read as integers. -/
theorem numeral_iff {s : String} : Numeral s.toList ↔ ∃ n, readInteger s = .ok n := by
  unfold readInteger
  constructor
  · intro h
    generalize s.toList = cs at h
    cases h with
    | intro hfront hsign h hlimit hback =>
      obtain ⟨ds, hscan, hlength⟩ := h.scan
      rw [trimBoth_digits h hfront hsign hback]
      dsimp only
      rw [splitSign_digits h hsign, hscan]
      have hle : ¬ digitLimit < ds.length := Nat.not_lt.mpr (hlength ▸ hlimit)
      exact ⟨_, if_neg hle⟩
  · rintro ⟨n, hn⟩
    obtain ⟨front, back, hcs, hfront, hback⟩ := exists_trimBoth isNumeralBlank s.toList
    obtain ⟨sign, hcore, hsign⟩ := exists_sign (trimBoth isNumeralBlank s.toList)
    dsimp only at hn
    cases hscan : scanDigits (splitSign (trimBoth isNumeralBlank s.toList)).2 with
    | none =>
      rw [hscan] at hn
      cases hn
    | some scanned =>
      obtain ⟨ds, rest⟩ := scanned
      rw [hscan] at hn
      dsimp only at hn
      split at hn
      · cases hn
      · rename_i hlimit
        split at hn
        · rename_i hrest
          obtain rfl := List.isEmpty_iff.mp hrest
          rw [hcs, hcore]
          exact .intro hfront hsign (digits_of_scan hscan) (Nat.not_lt.mp hlimit) hback
        · cases hn

end

end Number

/-! ## Integral values -/

/-- Truth values, integers, floats but infinities and what is no number, and numerals. -/
inductive Value.Integral : Value → Prop
  | bool (b : Bool) : Integral (.bool b)
  | int (n : Int) : Integral (.int n)
  | float {x : Float} {negative : Bool} {mantissa : Nat} {exponent : Int} :
      Number.parts x = .finite negative mantissa exponent → Integral (.float x)
  | text {s : String} : Number.Numeral s.toList → Integral (.text s)

/-- The integral values are those that can be converted to integers. -/
theorem Value.integral_iff {v : Value} : v.Integral ↔ ∃ n, v.toInteger = .ok n := by
  constructor
  · intro h
    cases h with
    | bool b => exact ⟨_, rfl⟩
    | int n => exact ⟨n, rfl⟩
    | float hx => exact ⟨_, by rw [toInteger, integerOfFloat, hx]⟩
    | text hs =>
      obtain ⟨n, hn⟩ := Number.numeral_iff.mp hs
      exact ⟨n, by rw [toInteger, hn]; rfl⟩
  · rintro ⟨n, hn⟩
    cases v with
    | bool b => exact .bool b
    | int n => exact .int n
    | float x =>
      rw [toInteger, integerOfFloat] at hn
      split at hn
      · cases hn
      · cases hn
      · exact .float ‹_›
    | text s =>
      rw [toInteger] at hn
      cases hread : Number.readInteger s with
      | ok m => exact .text (Number.numeral_iff.mpr ⟨m, hread⟩)
      | error e =>
        rw [hread] at hn
        cases hn
    | null => cases hn
    | list items => cases hn
    | object fields => cases hn

end SmsRelay
