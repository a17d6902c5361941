-- SUMMARY: The stored form of a timestamp reads back as the timestamp.
import Mathlib.Algebra.Group.Nat.Defs
import SmsRelay.Timestamp.Device

/-!
# Timestamps written and read

The stored form of a timestamp reads back as the timestamp. There is one
exception: an offset of less than a second is written out like any other, and
is read as universal time. No timestamp that has been read has such an offset.
-/

namespace SmsRelay

/-! ## Digits -/

/-- A decimal digit of ASCII. -/
def IsNumeral (c : Char) : Prop := ∃ d < 10, c = Nat.digitChar d

theorem isNumeral_of_mem {c : Char} {w n : Nat} (h : c ∈ decimalDigits w n) : IsNumeral c := by
  induction w generalizing n with
  | zero => cases h
  | succ w ih =>
    rw [decimalDigits_succ] at h
    rcases List.mem_append.mp h with h | h
    · exact ih h
    · exact ⟨n % 10, Nat.mod_lt _ (by decide), List.mem_singleton.mp h⟩

theorem IsNumeral.toNat_lt {c : Char} (h : IsNumeral c) : c.toNat < 0x80 := by
  obtain ⟨d, hd, rfl⟩ := h
  decide +revert

theorem IsNumeral.startsOffset {c : Char} (h : IsNumeral c) : Timestamp.Iso.startsOffset c = false := by
  obtain ⟨d, hd, rfl⟩ := h
  decide +revert

theorem IsNumeral.ne_week {c : Char} (h : IsNumeral c) : c ≠ 'W' := by
  obtain ⟨d, hd, rfl⟩ := h
  decide +revert

theorem asciiDigit?_digitChar {d : Nat} (h : d < 10) : Text.asciiDigit? (Nat.digitChar d) = some d := by
  decide +revert

/-- What the last digits of a number spell. -/
theorem ofDigits_decimalDigits (w n : Nat) :
    ((decimalDigits w n).mapM Text.asciiDigit?).map Text.ofDigits = some (n % 10 ^ w) := by
  induction w generalizing n with
  | zero => simp [Nat.mod_one]
  | succ w ih =>
    obtain ⟨ds, hds, hn⟩ := Option.map_eq_some_iff.mp (ih (n / 10))
    rw [decimalDigits_succ, List.mapM_append, hds, List.mapM_cons,
      asciiDigit?_digitChar (Nat.mod_lt n (by decide)), List.mapM_nil]
    have hvalue : Text.ofDigits (ds ++ [n % 10]) = n % 10 ^ (w + 1) := by
      rw [Text.ofDigits_append_singleton, hn, Nat.pow_succ', Nat.mod_mul]
      omega
    exact congrArg some hvalue

namespace Timestamp.Iso

theorem digits?_decimalDigits {w n : Nat} (h : n < 10 ^ w) (rest : List Char) :
    digits? w (decimalDigits w n ++ rest) = some (n, rest) := by
  have hlength : (decimalDigits w n).length = w := length_decimalDigits w n
  have htake : (decimalDigits w n ++ rest).take w = decimalDigits w n := List.take_left' hlength
  have hdrop : (decimalDigits w n ++ rest).drop w = rest := List.drop_left' hlength
  have hlt : ¬ (decimalDigits w n ++ rest).length < w := by
    rw [List.length_append, hlength]
    omega
  rw [digits?, if_neg hlt, htake, hdrop, ofDigits_decimalDigits, Nat.mod_eq_of_lt h, Option.map_some]

/-! ## Times -/

theorem fraction?_digits {micro : Nat} (h : micro < 10 ^ 6) {rest : List Char}
    (hrest : Text.asciiDigit? (next rest) = none) :
    fraction? 6 (decimalDigits 6 micro ++ rest) = some (micro, decide (next rest = '\x00')) := by
  have hdrop : (rest.dropWhile fun c => (Text.asciiDigit? c).isSome) = rest := by
    cases rest with
    | nil => rfl
    | cons c cs => rw [List.dropWhile_cons_of_neg (by simpa using hrest)]
  rw [fraction?, Nat.min_self, digits?_decimalDigits h]
  simp [hdrop]

variable {n v room : Nat} {colons : Option Bool} {rest : List Char}

/-- The last field of a time without a fraction. -/
theorem fields?_last (hv : v < 10 ^ 2) (hroom : room ≤ 3) :
    fields? (n + 1) colons room (decimalDigits 2 v ++ rest) = some ([v], 0, decide (next rest = '\x00')) := by
  rw [fields?, digits?_decimalDigits hv]
  simp [hroom]

/-- A field with a colon after it. -/
theorem fields?_colon (hv : v < 10 ^ 2) (hroom : 3 < room) (hcolons : colons ≠ some false) :
    fields? (n + 1) colons room (decimalDigits 2 v ++ ':' :: rest) =
      (fields? n (some true) (room - 3) rest).map fun f => (v :: f.1, f.2) := by
  have hgetD : colons.getD true = true := by
    cases colons with
    | none => rfl
    | some b => cases b <;> simp_all
  rw [fields?, digits?_decimalDigits hv]
  simp only [Option.bind_eq_bind, Option.bind_some, next_cons, decide_true, hgetD, Nat.not_le.mpr hroom,
    if_false, Bool.and_self, if_true, List.drop_succ_cons, List.drop_zero]
  cases fields? n (some true) (room - 3) rest <;> rfl

/-- The last field of a time with a fraction. -/
theorem fields?_point (hv : v < 10 ^ 2) {micro : Nat} (hmicro : micro < 10 ^ 6)
    (hrest : Text.asciiDigit? (next rest) = none) :
    fields? (n + 1) (some true) 9 (decimalDigits 2 v ++ '.' :: (decimalDigits 6 micro ++ rest)) =
      some ([v], micro, decide (next rest = '\x00')) := by
  rw [fields?, digits?_decimalDigits hv]
  simp only [Option.bind_eq_bind, Option.bind_some, next_cons, Option.getD_some, List.drop_succ_cons,
    List.drop_zero, fields?, fraction?_digits hmicro hrest]
  simp

/-- Hours and minutes alone. -/
theorem clock?_minutes {h m : Nat} (hh : h < 10 ^ 2) (hm : m < 10 ^ 2) :
    clock? 5 (decimalDigits 2 h ++ ':' :: decimalDigits 2 m) = some ⟨h, m, 0, 0, true⟩ := by
  have hlast : fields? 2 (some true) 2 (decimalDigits 2 m ++ []) = some ([m], 0, true) :=
    fields?_last hm (by decide)
  rw [List.append_nil] at hlast
  rw [clock?, fields?_colon hh (by decide) (by simp), hlast]
  rfl

/-- Hours, minutes, seconds and a fraction, with something after them that is no digit. -/
theorem clock?_seconds {h m s micro : Nat} (hh : h < 10 ^ 2) (hm : m < 10 ^ 2) (hs : s < 10 ^ 2)
    (hmicro : micro < 10 ^ 6) (hrest : Text.asciiDigit? (next rest) = none) :
    clock? (8 + (fractionChars micro).length)
        (decimalDigits 2 h ++ ':' :: (decimalDigits 2 m ++ ':' :: (decimalDigits 2 s ++
          (fractionChars micro ++ rest)))) =
      some ⟨h, m, s, micro, decide (next rest = '\x00')⟩ := by
  by_cases hz : micro = 0
  · subst hz
    have hlast : fields? 1 (some true) 2 (decimalDigits 2 s ++ rest) = some ([s], 0, decide (next rest = '\x00')) :=
      fields?_last hs (by decide)
    rw [show fractionChars 0 = [] from rfl, List.length_nil, List.nil_append, clock?,
      fields?_colon hh (by decide) (by simp), fields?_colon hm (by decide) (by simp), hlast]
    rfl
  · have hchars : fractionChars micro = '.' :: decimalDigits 6 micro := by rw [fractionChars, if_neg hz]
    have hlast := @fields?_point 0 s rest hs micro hmicro hrest
    rw [hchars, List.length_cons, length_decimalDigits, clock?, fields?_colon hh (by decide) (by simp),
      fields?_colon hm (by decide) (by simp), List.cons_append, hlast]
    rfl

/-! ## Offsets -/

end Timestamp.Iso

/-- The offset as it is read back: one of less than a second counts as none. -/
def Offset.settled (o : Offset) : Offset := if o.micros < 1000000 then Offset.zero else o

theorem Offset.settled_eq {o : Offset} (h : o.micros < 1000000 → o.micros = 0) : o.settled = o := by
  rw [settled]
  split
  · rename_i hlt
    obtain ⟨behind, micros, valid⟩ := o
    obtain rfl := h hlt
    obtain rfl := valid.2 rfl
    rfl
  · rfl

namespace Timestamp.Iso

/-- What an offset is read as, once its numbers have been read. -/
theorem offset?_of_clock {o : Offset} {cs : List Char} {hour minute second micro : Nat}
    (hclock : clock? cs.length cs = some ⟨hour, minute, second, micro, true⟩)
    (hmicros : (hour * 3600 + minute * 60 + second) * 1000000 + micro = o.micros) (hmicro : micro < 1000000) :
    offset? o.behind cs = some o.settled := by
  rw [offset?, hclock]
  by_cases hz : hour * 3600 + minute * 60 + second = 0
  · rw [Offset.settled, if_pos (by omega)]
    exact if_pos hz
  · rw [Offset.settled, if_neg (by omega), ← Offset.of?_fields o, ← hmicros]
    exact if_neg hz

theorem offset?_isoChars (o : Offset) : offset? o.behind o.isoChars.tail = some o.settled := by
  have hday : o.micros < 86400 * 1000000 := o.valid.1
  have hh : o.micros / 1000000 / 3600 < 10 ^ 2 := by omega
  have hm : o.micros / 1000000 / 60 % 60 < 10 ^ 2 := by omega
  have hs : o.micros / 1000000 % 60 < 10 ^ 2 := by omega
  have hmicro : o.micros % 1000000 < 10 ^ 6 := Nat.mod_lt _ (by decide)
  rw [Offset.isoChars, List.tail_cons]
  by_cases hz : o.micros / 1000000 % 60 = 0 ∧ o.micros % 1000000 = 0
  · have hlength : (decimalDigits 2 (o.micros / 1000000 / 3600) ++ ':' ::
        decimalDigits 2 (o.micros / 1000000 / 60 % 60)).length = 5 := by simp
    rw [if_pos hz, List.append_nil]
    exact offset?_of_clock (hlength ▸ clock?_minutes hh hm) (by omega) (by decide)
  · have hlength : (decimalDigits 2 (o.micros / 1000000 / 3600) ++ ':' ::
        (decimalDigits 2 (o.micros / 1000000 / 60 % 60) ++ ':' ::
          (decimalDigits 2 (o.micros / 1000000 % 60) ++ (fractionChars (o.micros % 1000000) ++ [])))).length =
          8 + (fractionChars (o.micros % 1000000)).length := by
      simp
      omega
    rw [if_neg hz, ← List.append_nil (fractionChars _)]
    exact offset?_of_clock (hlength ▸ clock?_seconds hh hm hs hmicro rfl) (by omega) hmicro

end Timestamp.Iso

/-! ## The characters of a text -/

theorem isNumeral_of_mem_fractionChars {c : Char} {micro : Nat} (h : c ∈ fractionChars micro) :
    IsNumeral c ∨ c = '.' := by
  rw [fractionChars] at h
  split at h
  · cases h
  · exact (List.mem_cons.mp h).symm.imp_left isNumeral_of_mem

theorem Date.mem_isoChars {d : Date} {c : Char} (h : c ∈ d.isoChars) : IsNumeral c ∨ c = '-' := by
  simp only [isoChars, List.mem_append, List.mem_cons] at h
  rcases h with h | h | h | h | h
  · exact .inl (isNumeral_of_mem h)
  · exact .inr h
  · exact .inl (isNumeral_of_mem h)
  · exact .inr h
  · exact .inl (isNumeral_of_mem h)

theorem Time.mem_isoChars {t : Time} {c : Char} (h : c ∈ t.isoChars) : IsNumeral c ∨ c = ':' ∨ c = '.' := by
  simp only [isoChars, List.mem_append, List.mem_cons] at h
  rcases h with h | h | h | h | h | h
  · exact .inl (isNumeral_of_mem h)
  · exact .inr (.inl h)
  · exact .inl (isNumeral_of_mem h)
  · exact .inr (.inl h)
  · exact .inl (isNumeral_of_mem h)
  · exact (isNumeral_of_mem_fractionChars h).imp_right .inr

theorem Offset.mem_isoChars {o : Offset} {c : Char} (h : c ∈ o.isoChars) :
    IsNumeral c ∨ c = ':' ∨ c = '.' ∨ c = '+' ∨ c = '-' := by
  simp only [isoChars, List.mem_append, List.mem_cons] at h
  rcases h with h | h | h | h | h
  · split at h <;> simp [h]
  · exact .inl (isNumeral_of_mem h)
  · exact .inr (.inl h)
  · exact .inl (isNumeral_of_mem h)
  · split at h
    · cases h
    · simp only [List.mem_append, List.mem_cons] at h
      rcases h with h | h | h
      · exact .inr (.inl h)
      · exact .inl (isNumeral_of_mem h)
      · exact (isNumeral_of_mem_fractionChars h).imp_right fun h => .inr (.inl h)

theorem Time.startsOffset_isoChars {t : Time} {c : Char} (h : c ∈ t.isoChars) :
    Timestamp.Iso.startsOffset c = false := by
  rcases mem_isoChars h with h | rfl | rfl
  · exact h.startsOffset
  · rfl
  · rfl

namespace Timestamp

/-- The time of day and the offset, as they stand in the stored form. -/
def clockChars (t : Timestamp) : List Char := t.time.isoChars ++ t.offset.elim [] Offset.isoChars

theorem isoChars_eq (t : Timestamp) : t.isoChars = t.date.isoChars ++ 'T' :: t.clockChars := rfl

theorem ascii_clockChars {t : Timestamp} {c : Char} (h : c ∈ t.clockChars) : c.toNat < 0x80 := by
  rcases List.mem_append.mp h with h | h
  · rcases Time.mem_isoChars h with h | rfl | rfl
    · exact h.toNat_lt
    · decide
    · decide
  · cases ho : t.offset with
    | none =>
      rw [ho] at h
      cases h
    | some o =>
      rw [ho] at h
      rcases Offset.mem_isoChars h with h | rfl | rfl | rfl | rfl
      · exact h.toNat_lt
      all_goals decide

theorem ascii_isoChars {t : Timestamp} {c : Char} (h : c ∈ t.isoChars) : c.toNat < 0x80 := by
  rw [isoChars_eq, List.mem_append, List.mem_cons] at h
  rcases h with h | rfl | h
  · rcases Date.mem_isoChars h with h | rfl
    · exact h.toNat_lt
    · decide
  · decide
  · exact ascii_clockChars h

/-! ## Whole timestamps -/

/-- The timestamp as it is read back. -/
def settled (t : Timestamp) : Timestamp := { t with offset := t.offset.map Offset.settled }

namespace Iso

theorem plainChars?_of_ascii {cs : List Char} (h : ∀ c ∈ cs, c.toNat < 0x80) : plainChars? cs = some cs :=
  plainChars?_of_unmarked fun hmem => absurd (h _ hmem) (by decide)

theorem units_of_ascii {cs : List Char} (h : ∀ c ∈ cs, c.toNat < 0x80) : units cs = cs := by
  induction cs with
  | nil => rfl
  | cons c cs ih =>
    rw [units, List.flatMap_cons, if_pos (h c List.mem_cons_self)]
    exact congrArg (c :: ·) (ih fun d hd => h d (List.mem_cons_of_mem _ hd))

/-- A time of day, with something after it that is no digit. -/
theorem clock?_isoChars (t : Time) {rest : List Char} (hrest : Text.asciiDigit? (next rest) = none) :
    clock? t.isoChars.length (t.isoChars ++ rest) =
      some ⟨t.hour, t.minute, t.second, t.micro, decide (next rest = '\x00')⟩ := by
  obtain ⟨hh, hm, hs, hmicro⟩ := t.valid
  have hlength : t.isoChars.length = 8 + (fractionChars t.micro).length := by
    simp [Time.isoChars]
    omega
  have hclock := @clock?_seconds rest t.hour t.minute t.second t.micro (by omega) (by omega) (by omega) hmicro hrest
  rw [hlength, Time.isoChars, ← hclock]
  simp only [List.append_assoc, List.cons_append]

theorem takeWhile_isoChars (t : Time) {rest : List Char} (hrest : ∀ c ∈ rest.head?, startsOffset c = true) :
    ((t.isoChars ++ rest).takeWhile fun c => !startsOffset c) = t.isoChars := by
  rw [List.takeWhile_append_of_pos fun c hc => by simp [Time.startsOffset_isoChars hc]]
  cases rest with
  | nil => exact List.append_nil _
  | cons c cs =>
    rw [List.takeWhile_cons_of_neg (by simp [hrest c rfl]), List.append_nil]

/-- A number starts with a digit. -/
theorem isNumeral_next {w : Nat} (n : Nat) (rest : List Char) :
    IsNumeral (next (decimalDigits (w + 1) n ++ rest)) := by
  cases h : decimalDigits (w + 1) n with
  | nil => simp at h
  | cons c cs => exact isNumeral_of_mem (h ▸ List.mem_cons_self)

theorem timeAndOffset?_clockChars (t : Timestamp) :
    timeAndOffset? t.clockChars = some (t.time, t.settled.offset) := by
  rw [timeAndOffset?, clockChars, settled]
  cases t.offset with
  | none =>
    have hnothing : ∀ c ∈ ([] : List Char).head?, startsOffset c = true := by simp
    rw [Option.elim_none, takeWhile_isoChars t.time hnothing, clock?_isoChars t.time rfl, List.drop_left]
    simp
  | some o =>
    have hsign : o.isoChars = (if o.behind then '-' else '+') :: o.isoChars.tail := rfl
    have hoffset := offset?_isoChars o
    have hstarts : startsOffset (if o.behind then '-' else '+') = true := by cases o.behind <;> rfl
    have hdigit : Text.asciiDigit? (if o.behind then '-' else '+') = none := by cases o.behind <;> rfl
    rw [Option.elim_some, Option.map_some, hsign, takeWhile_isoChars t.time (by simpa using hstarts),
      clock?_isoChars t.time (by simpa using hdigit), List.drop_left]
    cases hbehind : o.behind <;> simp [hbehind ▸ hoffset]

/-- A date of digits and hyphens ends after ten characters, unless seven are all there are. -/
theorem dateLength?_digits (year month : Nat) {rest : List Char} (hrest : rest ≠ []) :
    dateLength? (decimalDigits 4 year ++ '-' :: (decimalDigits 2 month ++ rest)) = some 10 := by
  have hlength : (decimalDigits 4 year ++ '-' :: (decimalDigits 2 month ++ rest)).length ≠ 7 := by
    simpa using hrest
  have hyear : unitAt (decimalDigits 4 year ++ '-' :: (decimalDigits 2 month ++ rest)) 4 = '-' := rfl
  have hmonth : unitAt (decimalDigits 4 year ++ '-' :: (decimalDigits 2 month ++ rest)) 5 ≠ 'W' :=
    (isNumeral_next (w := 1) month rest).ne_week
  rw [dateLength?, if_neg hlength, if_pos hyear, if_pos hmonth]

/-- Of numbers with hyphens between them a date is read, if there is one. -/
theorem date?_digits {year month day : Nat} (hyear : year < 10 ^ 4) (hmonth : month < 10 ^ 2) (hday : day < 10 ^ 2)
    (rest : List Char) :
    date? 10 (decimalDigits 4 year ++ '-' :: (decimalDigits 2 month ++ '-' :: (decimalDigits 2 day ++ rest))) =
      Date.of? year month day := by
  have hweek : ∀ rest, next (decimalDigits 2 month ++ rest) ≠ 'W' := fun rest => (isNumeral_next month rest).ne_week
  rw [date?, digits?_decimalDigits hyear]
  simp only [Option.bind_eq_bind, Option.bind_some, next_cons, decide_true, if_true, List.drop_succ_cons,
    List.drop_zero, hweek, if_false]
  rw [digits?_decimalDigits hmonth]
  simp only [Option.bind_some, next_cons, List.drop_succ_cons, List.drop_zero]
  rw [digits?_decimalDigits hday]
  rfl

/-- The date in front of a text. -/
theorem isoChars_append (d : Date) (rest : List Char) : d.isoChars ++ rest = decimalDigits 4 d.year ++
    '-' :: (decimalDigits 2 d.month ++ '-' :: (decimalDigits 2 d.day ++ rest)) := by
  simp only [Date.isoChars, List.append_assoc, List.cons_append]

theorem dateLength?_isoChars (t : Timestamp) : dateLength? t.isoChars = some 10 := by
  rw [Timestamp.isoChars_eq, isoChars_append]
  exact dateLength?_digits _ _ (List.cons_ne_nil _ _)

theorem date?_isoChars (t : Timestamp) : date? 10 t.isoChars = some t.date := by
  obtain ⟨-, hyear, -, hmonth, -, hday⟩ := t.date.valid
  have hdays := daysInMonth_le t.date.year t.date.month
  rw [Timestamp.isoChars_eq, isoChars_append, date?_digits (by omega) (by omega) (by omega)]
  exact Date.of?_fields t.date

/-- The stored form of a timestamp reads back as the timestamp. -/
theorem read_isoChars (t : Timestamp) : read t.isoChars = some t.settled := by
  have hunits : units t.isoChars = t.isoChars := units_of_ascii fun c => ascii_isoChars
  have hdrop : t.isoChars.drop 10 = 'T' :: t.clockChars := List.drop_left' (by simp [Date.isoChars])
  rw [read, plainChars?_of_ascii fun c => ascii_isoChars, Option.bind_some, readChars, hunits, dateLength?_isoChars, Option.bind_eq_bind, Option.bind_some, date?_isoChars,
    Option.bind_eq_bind, Option.bind_some, hdrop]
  dsimp only
  rw [units_of_ascii fun c => ascii_clockChars, timeAndOffset?_clockChars]
  rfl

/-! ## Timestamps as they are read -/

/-- An offset that has been read is none, or a second and more. -/
theorem settled_of_offset? {behind : Bool} {cs : List Char} {o : Offset} (h : offset? behind cs = some o) :
    o.settled = o := by
  unfold offset? at h
  obtain ⟨c, -, h⟩ := Option.bind_eq_some_iff.mp h
  split at h
  · cases h
  · dsimp only at h
    split at h
    · cases h
      rfl
    · rename_i hseconds
      unfold Offset.of? at h
      split at h
      · cases h
        exact Offset.settled_eq fun hlt => by dsimp only at hlt ⊢; omega
      · cases h

/-- A timestamp that has been read is written out and read as it is. -/
theorem settled_of_read {cs : List Char} {t : Timestamp} (h : read cs = some t) : t.settled = t := by
  obtain ⟨plain, -, h⟩ := Option.bind_eq_some_iff.mp h
  obtain ⟨length, -, h⟩ := Option.bind_eq_some_iff.mp h
  obtain ⟨date, -, h⟩ := Option.bind_eq_some_iff.mp h
  split at h
  · cases h
    rfl
  · obtain ⟨⟨time, offset⟩, hclock, h⟩ := Option.bind_eq_some_iff.mp h
    cases h
    unfold timeAndOffset? at hclock
    obtain ⟨c, -, hclock⟩ := Option.bind_eq_some_iff.mp hclock
    obtain ⟨time', -, hclock⟩ := Option.bind_eq_some_iff.mp hclock
    split at hclock
    · split at hclock <;> cases hclock
      rfl
    · split at hclock
      · split at hclock <;> cases hclock
        rfl
      · obtain ⟨o, ho, heq⟩ := Option.map_eq_some_iff.mp hclock
        cases heq
        exact congrArg (Timestamp.mk date time) (congrArg some (settled_of_offset? ho))

end Iso

theorem Device.settled_of_read {cs : List Char} {t : Timestamp} (h : Device.read cs = some t) : t.settled = t := by
  unfold Device.read at h
  simp only [Option.bind_eq_bind, Option.bind_eq_some_iff] at h
  obtain ⟨year, -, _, -, month, -, _, -, day, -, _, -, hour, -, _, -, minute, -, _, -, second, -, h⟩ := h
  split at h
  · cases h
  · obtain ⟨date, -, h⟩ := Option.bind_eq_some_iff.mp h
    obtain ⟨time, -, h⟩ := Option.bind_eq_some_iff.mp h
    cases h
    rfl

theorem settled_of_read? {cs : List Char} {t : Timestamp} (h : read? cs = some t) : t.settled = t := by
  rw [read?, Option.orElse_eq_orElse, Option.orElse_eq_or, Option.or_eq_some_iff] at h
  rcases h with h | ⟨-, h⟩
  · exact Device.settled_of_read h
  · exact Iso.settled_of_read h

/-- The timestamp that a field gives, in either form, is written out and read as it is. -/
theorem settled_of_ofValue? {v : Value} {t : Timestamp} (h : ofValue? v = some t) : t.settled = t := by
  unfold ofValue? reading at h
  split at h
  · dsimp only at h
    split at h
    · rename_i hread
      cases h
      exact settled_of_read? hread
    · cases h
  · cases h

end Timestamp

end SmsRelay
