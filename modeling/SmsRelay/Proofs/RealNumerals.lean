-- SUMMARY: Which values are read as no number, and how such a float compares with zero.
import Mathlib
import SmsRelay.Proofs.IsoText
import SmsRelay.Proofs.Numerals

/-!
# Real numerals

Which texts and values are read as no number at all, and what a comparison with
zero tells of a `Float` that has been read. Rounding never makes a number into
what is none: only a name does.
-/

namespace SmsRelay

open Float.Model (UnpackedFloat)
open Text

namespace Number

/-! ## Floats that are no number -/

/-- Sign apart, the bits of what is no number are above those of infinity. -/
theorem isNaNBits_iff (b : UInt64) :
    @UnpackedFloat.isNaNBits .binary64 b.toBitVec = true ↔ 2047 * leadBit < b.toNat % signBit := by
  have hexponent : (@UnpackedFloat.unpackExponent .binary64 b.toBitVec).toNat = b.toNat / 2 ^ 52 % 2 ^ 11 := by
    simp [UnpackedFloat.unpackExponent_def, Nat.shiftRight_eq_div_pow]
  have hmantissa : (@UnpackedFloat.unpackMantissa .binary64 b.toBitVec).toNat = b.toNat % 2 ^ 52 := by
    simp [UnpackedFloat.unpackMantissa_def]
  rw [UnpackedFloat.isNaNBits, decide_eq_true_iff, ne_eq, ← BitVec.toNat_inj, ← BitVec.toNat_inj, hexponent, hmantissa]
  simp only [BitVec.toNat_neg, BitVec.toNat_ofNat, signBit, leadBit]
  omega

theorem isNaN_ofBits (b : UInt64) : (Float.ofBits b).isNaN = true ↔ 2047 * leadBit < b.toNat % signBit := by
  -- The bits stay as they are, but those of what is no number all become the same.
  have hbits : (Float.ofBits b).toModel.toBits.toBitVec =
      if @UnpackedFloat.isNaNBits .binary64 b.toBitVec then UnpackedFloat.packedNaN .binary64 else b.toBitVec :=
    @UnpackedFloat.pack_unpack .binary64 b.toBitVec (by decide)
  rw [← isNaNBits_iff, Float.isNaN, Float.Model.isNaN, Float.Model.unpack,
    UnpackedFloat.isNaN_unpack_iff_of_valid (Float.ofBits b).toModel.valid, hbits]
  split
  · simp [*]
  · rename_i hnumber
    constructor
    · intro heq
      exact absurd (heq ▸ UnpackedFloat.isNaNBits_packedNaN) hnumber
    · intro hnan
      exact absurd hnan hnumber

/-- No ratio is rounded beyond infinity. -/
theorem Ratio.bits_le (r : Ratio) : r.bits ≤ 2047 * leadBit := by
  unfold Ratio.bits
  simp only [leadBit]
  grind

theorem isNaN_nearest (negative : Bool) (r : Ratio) : (nearest negative r).isNaN = false := by
  have hbits : (if r.num = 0 then 0 else r.bits) ≤ 2047 * leadBit := by
    split
    · exact Nat.zero_le _
    · exact r.bits_le
  rw [Bool.eq_false_iff, nearest, ne_eq, isNaN_ofBits, UInt64.toNat_ofNat']
  generalize (if r.num = 0 then 0 else r.bits) = bits at hbits
  simp only [signBit, leadBit] at *
  cases negative <;> simp <;> omega

theorem isNaN_ofDecimal (negative : Bool) (mantissa : Nat) (exponent : Int) :
    (ofDecimal negative mantissa exponent).isNaN = false := by
  unfold ofDecimal
  dsimp only
  split
  · exact isNaN_nearest _ _
  · split <;> exact isNaN_nearest _ _

/-! ## Comparison with zero -/

section

variable {x : Float}

theorem isNaN_iff : x.isNaN = true ↔ x.toModel.unpack = .notANumber := UnpackedFloat.isNaN_iff

theorem zero_lt_iff : 0.0 < x ↔ UnpackedFloat.compare (.zero .positive) x.toModel.unpack = some .lt := by
  show Float.lt 0.0 x = true ↔ _
  rw [Float.lt, decide_eq_true_iff]
  show UnpackedFloat.lt (.zero .positive) x.toModel.unpack = true ↔ _
  rw [UnpackedFloat.lt, beq_iff_eq]

theorem le_zero_iff :
    x ≤ 0.0 ↔ (UnpackedFloat.compare x.toModel.unpack (.zero .positive)).any Ordering.isLE = true := by
  show Float.le x 0.0 = true ↔ _
  rw [Float.le, decide_eq_true_iff]
  rfl

/-- What is not at most zero is above zero, or it is no number: of that neither is true. -/
theorem not_le_zero_iff : ¬ x ≤ 0.0 ↔ x.isNaN = true ∨ 0.0 < x := by
  rw [le_zero_iff, zero_lt_iff, isNaN_iff]
  -- Against zero only the kind of the value and its sign count, not its digits.
  cases x.toModel.unpack with
  | notANumber => simp [UnpackedFloat.compare]
  | infinity s => cases s <;> simp [UnpackedFloat.compare]
  | zero s => simp [UnpackedFloat.compare]
  | finite s m e h => cases s <;> simp [UnpackedFloat.compare]

theorem not_zero_lt_of_isNaN (h : x.isNaN = true) : ¬ 0.0 < x := by
  rw [zero_lt_iff, isNaN_iff.mp h]
  exact nofun

end

/-! ## Names of no number -/

/-- Blanks, a sign if there is one, the three letters in either case, and blanks again. -/
inductive NaNName : List Char → Prop
  | intro {front sign word back : List Char} : (∀ c ∈ front, isNumeralBlank c = true) →
      sign = [] ∨ sign = ['+'] ∨ sign = ['-'] → word.map Char.toLower = ['n', 'a', 'n'] →
      (∀ c ∈ back, isNumeralBlank c = true) → NaNName (front ++ (sign ++ word) ++ back)

section

variable {cs ds : List Char}

/-- Only an underscore before a digit is left out, and the digit stays. -/
theorem eq_of_plainNumeral?_go {afterDigit : Bool} (h : plainNumeral?.go afterDigit cs = some ds)
    (hds : ∀ c ∈ ds, asciiDigit? c = none) : cs = ds := by
  fun_induction plainNumeral?.go afterDigit cs generalizing ds with
  | case1 => exact Option.some.inj h
  | case2 afterDigit c rest hc ih =>
    obtain ⟨ds', -, rfl⟩ := Option.map_eq_some_iff.mp h
    simp [hds c List.mem_cons_self] at hc
  | case3 => cases h
  | case4 => cases h
  | case5 afterDigit c cs hc ih =>
    obtain ⟨ds', hds', rfl⟩ := Option.map_eq_some_iff.mp h
    rw [ih hds' fun c hc => hds c (List.mem_cons_of_mem _ hc)]

theorem plainNumeral?_go_of_not_mem (afterDigit : Bool) (h : '_' ∉ cs) :
    plainNumeral?.go afterDigit cs = some cs := by
  induction cs generalizing afterDigit with
  | nil => rfl
  | cons c cs ih =>
    rw [List.mem_cons, not_or] at h
    rw [plainNumeral?.go, ih _ h.2]
    · rfl
    · rintro rfl
      exact h.1 rfl

/-- A text that comes out without digits went in as it is. -/
theorem eq_of_plainNumeral? (h : plainNumeral? cs = some ds) (hds : ∀ c ∈ ds, asciiDigit? c = none) : cs = ds := by
  have heq := eq_of_plainNumeral?_go h hds
  rw [← heq]
  refine (List.map_id cs).symm.trans (List.map_congr_left fun c hc => ?_)
  cases hdigit : digit? c with
  | none => rfl
  | some d =>
    have hmem : Nat.digitChar d ∈ ds := by
      rw [← heq]
      exact List.mem_map.mpr ⟨c, hc, by rw [hdigit]; rfl⟩
    have hnone := hds _ hmem
    rw [asciiDigit?_digitChar (digit?_lt hdigit)] at hnone
    cases hnone

theorem plainNumeral?_of_plain (h : ∀ c ∈ cs, isDigit c = false ∧ c ≠ '_') : plainNumeral? cs = some cs := by
  have hsame : cs.map (fun c => ((digit? c).map Nat.digitChar).getD c) = cs := by
    refine (List.map_congr_left fun c hc => ?_).trans (List.map_id cs)
    rw [Option.not_isSome_iff_eq_none.mp (Bool.eq_false_iff.mp (h c hc).1)]
    rfl
  rw [plainNumeral?, hsame]
  exact plainNumeral?_go_of_not_mem false fun hmem => (h '_' hmem).2 rfl

/-- Of all that follows a sign, one word is read as no number. The others are infinities, and a mantissa is rounded. -/
theorem isNaN_readReal {s : String} (h : plainNumeral? (trimBoth isNumeralBlank s.toList) = some cs) :
    (∃ x, readReal s = some x ∧ x.isNaN = true) ↔ (splitSign cs).2.map Char.toLower = ['n', 'a', 'n'] := by
  have hname : ∀ (word : List Char) (name : String), String.ofList word = name ↔ word = name.toList := by
    intro word name
    rw [← String.toList_inj, String.toList_ofList]
  simp only [readReal, h, Option.bind_eq_bind, Option.bind_some, hname]
  split
  · rename_i hinf
    have hne : (splitSign cs).2.map Char.toLower ≠ ['n', 'a', 'n'] := by
      rcases hinf with hinf | hinf <;> rw [hinf] <;> decide
    refine ⟨?_, fun hnan => absurd hnan hne⟩
    rintro ⟨x, hx, hnan⟩
    obtain rfl := Option.some.inj hx
    cases hsign : (splitSign cs).1 <;> rw [hsign] at hnan <;> exact absurd hnan (by decide)
  · split
    · rename_i hnan
      exact ⟨fun _ => hnan, fun _ => ⟨0.0 / 0.0, rfl, by decide⟩⟩
    · rename_i hne
      refine ⟨?_, fun hnan => absurd hnan hne⟩
      rintro ⟨x, hx, hnan⟩
      obtain ⟨⟨m, e⟩, -, hx⟩ := Option.bind_eq_some_iff.mp hx
      obtain rfl := Option.some.inj hx
      exact absurd hnan (Bool.eq_false_iff.mp (isNaN_ofDecimal _ m e))

end

theorem letter_of_toLower {c : Char} (h : c.toLower ∈ ['n', 'a', 'n']) : c = 'n' ∨ c = 'N' ∨ c = 'a' ∨ c = 'A' := by
  have htable : ∀ n < 91, (Char.ofNat n).toLower ∈ ['n', 'a', 'n'] →
      Char.ofNat n = 'n' ∨ Char.ofNat n = 'N' ∨ Char.ofNat n = 'a' ∨ Char.ofNat n = 'A' := by decide
  by_cases hc : c.toNat < 91
  · have hletter := htable c.toNat hc
    rw [Char.ofNat_toNat] at hletter
    exact hletter h
  · have hsame : c.toLower = c := dif_neg fun hupper => hc (Nat.lt_succ_of_le hupper.2)
    rw [hsame] at h
    simp only [List.mem_cons, List.not_mem_nil, or_false] at h
    rcases h with rfl | rfl | rfl <;> simp

section

variable {sign word : List Char} {c : Char}

theorem toLower_mem (hword : word.map Char.toLower = ['n', 'a', 'n']) (hc : c ∈ word) :
    c.toLower ∈ ['n', 'a', 'n'] := hword ▸ List.mem_map_of_mem hc

/-- The letters of the name are neither blanks nor signs. -/
theorem letter_plain (hword : word.map Char.toLower = ['n', 'a', 'n']) (hc : c ∈ word) :
    isNumeralBlank c = false ∧ c ≠ '+' ∧ c ≠ '-' := by
  rcases letter_of_toLower (toLower_mem hword hc) with rfl | rfl | rfl | rfl <;> decide

/-- In the name and its sign are neither digits nor underscores. -/
theorem name_plain (hsign : sign = [] ∨ sign = ['+'] ∨ sign = ['-'])
    (hword : word.map Char.toLower = ['n', 'a', 'n']) (hc : c ∈ sign ++ word) :
    (isDigit c = false ∧ c ≠ '_') ∧ asciiDigit? c = none := by
  rcases List.mem_append.mp hc with hc | hc
  · rcases hsign with rfl | rfl | rfl
    · cases hc
    · obtain rfl := List.mem_singleton.mp hc
      decide
    · obtain rfl := List.mem_singleton.mp hc
      decide
  · rcases letter_of_toLower (toLower_mem hword hc) with rfl | rfl | rfl | rfl <;> decide

end

/-- A text is read as no number if and only if it is a name of none. -/
theorem nanName_iff {s : String} : NaNName s.toList ↔ ∃ x, readReal s = some x ∧ x.isNaN = true := by
  constructor
  · intro h
    generalize hs : s.toList = text at h
    cases h with
    | @intro front sign word back hfront hsign hword hback =>
      have hne : word ≠ [] := by
        rintro rfl
        cases hword
      have htrim : trimBoth isNumeralBlank s.toList = sign ++ word := by
        rw [hs]
        exact trimBoth_signed hfront hsign hne (fun c hc => (letter_plain hword (List.mem_of_mem_head? hc)).1)
          (fun c hc => (letter_plain hword (List.mem_of_mem_getLast? hc)).1) hback
      have hplain : plainNumeral? (sign ++ word) = some (sign ++ word) :=
        plainNumeral?_of_plain fun c hc => (name_plain hsign hword hc).1
      refine (isNaN_readReal (htrim ▸ hplain)).mpr ?_
      rwa [htrim, splitSign_append hsign fun c hc => (letter_plain hword (List.mem_of_mem_head? hc)).2]
  · rintro ⟨x, hx, hnan⟩
    obtain ⟨cs, hcs, -⟩ := Option.bind_eq_some_iff.mp hx
    have hword := (isNaN_readReal hcs).mp ⟨x, hx, hnan⟩
    obtain ⟨sign, heq, hsign⟩ := exists_sign cs
    obtain ⟨front, back, hs, hfront, hback⟩ := exists_trimBoth isNumeralBlank s.toList
    -- Nothing in the name was a digit of another script, or had an underscore before it.
    have htrim : trimBoth isNumeralBlank s.toList = cs :=
      eq_of_plainNumeral? hcs fun c hc => (name_plain hsign hword (heq ▸ hc)).2
    rw [hs, htrim, heq]
    exact .intro hfront hsign hword hback

end Number

/-! ## Values that are no number -/

/-- Floats that are no number, and names of what is none. -/
inductive Value.NotANumber : Value → Prop
  | float {x : Float} : x.isNaN = true → NotANumber (.float x)
  | text {s : String} : Number.NaNName s.toList → NotANumber (.text s)

/-- These are the values that are converted to what is no number. -/
theorem Value.notANumber_iff {v : Value} : v.NotANumber ↔ ∃ x, v.toReal = .ok x ∧ x.isNaN = true := by
  constructor
  · intro h
    cases h with
    | float hx => exact ⟨_, rfl, hx⟩
    | text hs =>
      obtain ⟨x, hx, hnan⟩ := Number.nanName_iff.mp hs
      exact ⟨x, by rw [toReal, hx], hnan⟩
  · rintro ⟨x, hx, hnan⟩
    cases v with
    | bool b =>
      obtain rfl := Except.ok.inj hx
      cases b <;> exact absurd hnan (by decide)
    | int n =>
      rw [toReal] at hx
      split at hx
      · obtain rfl := Except.ok.inj hx
        exact absurd hnan (Bool.eq_false_iff.mp (Number.isNaN_nearest _ _))
      · cases hx
    | float y =>
      obtain rfl := Except.ok.inj hx
      exact .float hnan
    | text s =>
      rw [toReal] at hx
      split at hx
      · obtain rfl := Except.ok.inj hx
        exact .text (Number.nanName_iff.mpr ⟨_, ‹_›, hnan⟩)
      · cases hx
    | null => cases hx
    | list items => cases hx
    | object fields => cases hx

end SmsRelay
