-- SUMMARY: Which moments a device's timestamp spells, and that stored timestamps read back.
import SmsRelay.Proofs.IsoText

/-!
# Timestamps as devices print them

A field that gives a timestamp gives it again once the timestamp has been
stored, and a device's own text gives the date and the time that it spells, or
nothing where the calendar or the clock has no such moment. A text may be in
the form of the device and in the stored form at once; then both say the same.
-/

namespace SmsRelay

theorem isNumeral_digitChar (n : Nat) : IsNumeral (Nat.digitChar (n % 10)) := ⟨n % 10, Nat.mod_lt _ (by decide), rfl⟩

theorem IsNumeral.not_blank {c : Char} (h : IsNumeral c) : Text.isBlank c = false := by
  obtain ⟨d, hd, rfl⟩ := h
  decide +revert

theorem IsNumeral.isDigit {c : Char} (h : IsNumeral c) : c.isDigit = true := by
  obtain ⟨d, hd, rfl⟩ := h
  decide +revert

theorem not_isNumeral {c : Char} (h : c.isDigit = false) : ¬IsNumeral c := fun hc =>
  Bool.false_ne_true (h.symm.trans hc.isDigit)

theorem digit?_digitChar {d : Nat} (h : d < 10) : Text.digit? (Nat.digitChar d) = some d := by
  decide +revert

theorem Date.of?_eq_some {year month day : Nat} {d : Date} :
    Date.of? year month day = some d ↔ d.year = year ∧ d.month = month ∧ d.day = day := by
  constructor
  · intro h
    unfold Date.of? at h
    split at h
    · cases h
      exact ⟨rfl, rfl, rfl⟩
    · cases h
  · rintro ⟨rfl, rfl, rfl⟩
    exact Date.of?_fields d

theorem Time.of?_eq_some {hour minute second micro : Nat} {t : Time} : Time.of? hour minute second micro = some t ↔
    t.hour = hour ∧ t.minute = minute ∧ t.second = second ∧ t.micro = micro := by
  constructor
  · intro h
    unfold Time.of? at h
    split at h
    · cases h
      exact ⟨rfl, rfl, rfl, rfl⟩
    · cases h
  · rintro ⟨rfl, rfl, rfl, rfl⟩
    exact Time.of?_fields t

namespace Timestamp

/-! ## Device texts -/

/-- The numbers in the text of a device. -/
structure DeviceFields where
  year : Fin 10000
  month : Fin 100
  day : Fin 100
  hour : Fin 100
  minute : Fin 100
  second : Fin 100

namespace DeviceFields

/-- `HH:MM:SS`. -/
def clockChars (f : DeviceFields) : List Char :=
  decimalDigits 2 f.hour ++ ':' :: (decimalDigits 2 f.minute ++ ':' :: decimalDigits 2 f.second)

/-- `YYYY-MM-DD HH:MM:SS`. -/
def chars (f : DeviceFields) : List Char :=
  decimalDigits 4 f.year ++ '-' :: (decimalDigits 2 f.month ++ '-' :: (decimalDigits 2 f.day ++ ' ' :: f.clockChars))

def text (f : DeviceFields) : String := String.ofList f.chars

/-- There is such a day in the calendar and such a time of day. -/
structure Possible (f : DeviceFields) : Prop where
  year : 1 ≤ f.year.val
  month : 1 ≤ f.month.val ∧ f.month.val ≤ 12
  day : 1 ≤ f.day.val ∧ f.day.val ≤ daysInMonth f.year f.month
  hour : f.hour.val < 24
  minute : f.minute.val < 60
  second : f.second.val < 60

/-- A moment in these numbers, without a fraction of a second and without an offset. -/
structure Names (f : DeviceFields) (t : Timestamp) : Prop where
  year : t.date.year = f.year
  month : t.date.month = f.month
  day : t.date.day = f.day
  hour : t.time.hour = f.hour
  minute : t.time.minute = f.minute
  second : t.time.second = f.second
  micro : t.time.micro = 0
  offset : t.offset = none

/-- The moment that the numbers name, if there is one. -/
def moment? (f : DeviceFields) : Option Timestamp :=
  (Date.of? f.year f.month f.day).bind fun date =>
    (Time.of? f.hour f.minute f.second 0).map fun time => ⟨date, time, none⟩

variable {f : DeviceFields} {t : Timestamp}

theorem moment?_eq_some : f.moment? = some t ↔ f.Names t := by
  constructor
  · intro h
    obtain ⟨date, hdate, h⟩ := Option.bind_eq_some_iff.mp h
    obtain ⟨time, htime, rfl⟩ := Option.map_eq_some_iff.mp h
    obtain ⟨hyear, hmonth, hday⟩ := Date.of?_eq_some.mp hdate
    obtain ⟨hhour, hminute, hsecond, hmicro⟩ := Time.of?_eq_some.mp htime
    exact ⟨hyear, hmonth, hday, hhour, hminute, hsecond, hmicro, rfl⟩
  · intro h
    have hdate : Date.of? f.year f.month f.day = some t.date := Date.of?_eq_some.mpr ⟨h.year, h.month, h.day⟩
    have htime : Time.of? f.hour f.minute f.second 0 = some t.time :=
      Time.of?_eq_some.mpr ⟨h.hour, h.minute, h.second, h.micro⟩
    rw [moment?, hdate, Option.bind_some, htime, Option.map_some, ← h.offset]

theorem Possible.exists_names (h : f.Possible) : ∃ t, f.Names t :=
  ⟨⟨⟨f.year, f.month, f.day, h.year, by omega, h.month.1, h.month.2, h.day.1, h.day.2⟩,
    ⟨f.hour, f.minute, f.second, 0, h.hour, h.minute, h.second, by decide⟩, none⟩,
    rfl, rfl, rfl, rfl, rfl, rfl, rfl, rfl⟩

theorem Names.possible (h : f.Names t) : f.Possible := by
  obtain ⟨hyear, -, hfirst, hmonth, hday, hdays⟩ := t.date.valid
  obtain ⟨hhour, hminute, hsecond, -⟩ := t.time.valid
  rw [h.year] at hyear hdays
  rw [h.month] at hfirst hmonth hdays
  rw [h.day] at hday hdays
  exact ⟨hyear, ⟨hfirst, hmonth⟩, ⟨hday, hdays⟩, h.hour ▸ hhour, h.minute ▸ hminute, h.second ▸ hsecond⟩

theorem mem_clockChars {c : Char} (h : c ∈ f.clockChars) : IsNumeral c ∨ c = ':' := by
  simp only [clockChars, List.mem_append, List.mem_cons] at h
  rcases h with h | h | h | h | h
  · exact .inl (isNumeral_of_mem h)
  · exact .inr h
  · exact .inl (isNumeral_of_mem h)
  · exact .inr h
  · exact .inl (isNumeral_of_mem h)

theorem mem_chars {c : Char} (h : c ∈ f.chars) : IsNumeral c ∨ c = '-' ∨ c = ' ' ∨ c = ':' := by
  simp only [chars, List.mem_append, List.mem_cons] at h
  rcases h with h | h | h | h | h | h | h
  · exact .inl (isNumeral_of_mem h)
  · exact .inr (.inl h)
  · exact .inl (isNumeral_of_mem h)
  · exact .inr (.inl h)
  · exact .inl (isNumeral_of_mem h)
  · exact .inr (.inr (.inl h))
  · exact (mem_clockChars h).imp_right fun h => .inr (.inr h)

theorem ascii_clockChars {c : Char} (h : c ∈ f.clockChars) : c.toNat < 0x80 := by
  rcases mem_clockChars h with h | rfl
  · exact h.toNat_lt
  · decide

theorem ascii_chars {c : Char} (h : c ∈ f.chars) : c.toNat < 0x80 := by
  rcases mem_chars h with h | rfl | rfl | rfl
  · exact h.toNat_lt
  all_goals decide

theorem startsOffset_clockChars {c : Char} (h : c ∈ f.clockChars) : Iso.startsOffset c = false := by
  rcases mem_clockChars h with h | rfl
  · exact h.startsOffset
  · rfl

end DeviceFields

/-! ## Read as the stored form -/

namespace Iso

theorem timeAndOffset?_deviceClock (f : DeviceFields) : timeAndOffset? f.clockChars =
    (Time.of? f.hour f.minute f.second 0).map fun time => (time, none) := by
  have hclock : clock? 8 f.clockChars = some ⟨f.hour, f.minute, f.second, 0, true⟩ := by
    have h := @clock?_seconds [] f.hour f.minute f.second 0 f.hour.isLt f.minute.isLt f.second.isLt (by decide) rfl
    rw [show fractionChars 0 = [] from rfl, List.append_nil] at h
    exact h
  have hall : (f.clockChars.takeWhile fun c => !startsOffset c) = f.clockChars := by
    have h : ∀ c ∈ f.clockChars, (!startsOffset c) = true := fun c hc => by
      rw [DeviceFields.startsOffset_clockChars hc, Bool.not_false]
    have htake : (f.clockChars ++ []).takeWhile (fun c => !startsOffset c) = f.clockChars ++ [] :=
      List.takeWhile_append_of_pos h
    rwa [List.append_nil] at htake
  have hlength : f.clockChars.length = 8 := by simp [DeviceFields.clockChars]
  rw [timeAndOffset?, hall, hlength, hclock, Option.bind_eq_bind, Option.bind_some,
    List.drop_of_length_le (Nat.le_of_eq hlength)]
  cases Time.of? f.hour f.minute f.second 0 <;> rfl

/-- In the text of a device the reader of the stored form finds the same numbers. -/
theorem read_device (f : DeviceFields) : read f.chars = f.moment? := by
  have hunits : units f.chars = f.chars := units_of_ascii fun c => DeviceFields.ascii_chars
  have hclock : units f.clockChars = f.clockChars := units_of_ascii fun c => DeviceFields.ascii_clockChars
  have hlength : dateLength? f.chars = some 10 := dateLength?_digits _ _ (List.cons_ne_nil _ _)
  have hdate : date? 10 f.chars = Date.of? f.year f.month f.day :=
    date?_digits f.year.isLt f.month.isLt f.day.isLt _
  have hdrop : f.chars.drop 10 = ' ' :: f.clockChars := rfl
  rw [read, plainChars?_of_ascii fun c => DeviceFields.ascii_chars, Option.bind_some, readChars, hunits, hlength,
    Option.bind_eq_bind, Option.bind_some, hdate, hdrop, DeviceFields.moment?]
  dsimp only
  rw [hclock, timeAndOffset?_deviceClock]
  cases Date.of? f.year f.month f.day with
  | none => rfl
  | some date => cases Time.of? f.hour f.minute f.second 0 <;> rfl

end Iso

/-! ## Read as the text of a device -/

namespace Device

variable {two : Char → Char → Bool} {one : Char → Bool} {n year month day : Nat} {rest after : List Char}
  {t : Timestamp}

theorem pair_digits (a b : Nat) : pair (Nat.digitChar (a % 10)) (Nat.digitChar (b % 10)) =
    some (10 * (a % 10) + b % 10) := by
  rw [pair, digit?_digitChar (Nat.mod_lt _ (by decide)), digit?_digitChar (Nat.mod_lt _ (by decide))]
  rfl

theorem mark?_eq_some {c : Char} {cs : List Char} : mark? c cs = some rest ↔ cs = c :: rest := by
  cases cs with
  | nil => simp [mark?]
  | cons x xs =>
    by_cases hx : x = c
    · simp [mark?, hx]
    · simp [mark?, hx]

/-- Of two digits both are read, or the second is left. -/
theorem field?_digits (hn : n < 100) {m : Nat} (h : field? two one (decimalDigits 2 n ++ rest) = some (m, after)) :
    (m = n ∧ after = rest) ∨ ∃ c cs, after = c :: cs ∧ IsNumeral c := by
  have hchars : decimalDigits 2 n ++ rest = Nat.digitChar (n / 10 % 10) :: Nat.digitChar (n % 10) :: rest := rfl
  rw [hchars, field?] at h
  split at h
  · rw [pair_digits] at h
    obtain ⟨rfl, rfl⟩ := Prod.mk.inj (Option.some.inj h)
    exact .inl ⟨by omega, rfl⟩
  · split at h
    · obtain ⟨_, -, h⟩ := Option.map_eq_some_iff.mp h
      obtain ⟨-, rfl⟩ := Prod.mk.inj h
      exact .inr ⟨_, _, rfl, isNumeral_digitChar n⟩
    · cases h

/-- A number of two digits that ends where something else follows. -/
theorem eq_of_field? (hn : n < 100) {m : Nat} (h : field? two one (decimalDigits 2 n ++ rest) = some (m, after))
    (hafter : ∀ c cs, after = c :: cs → ¬IsNumeral c) : m = n ∧ after = rest :=
  (field?_digits hn h).resolve_right fun ⟨c, cs, hcs, hc⟩ => hafter c cs hcs hc

theorem not_isNumeral_head {c : Char} {cs : List Char} (hc : c.isDigit = false) :
    ∀ x xs, c :: cs = x :: xs → ¬IsNumeral x := by
  intro x xs h
  obtain ⟨rfl, -⟩ := List.cons.inj h
  exact not_isNumeral hc

theorem not_isNumeral_of_mark? {c : Char} (hc : c.isDigit = false) {cs : List Char} (h : mark? c cs = some rest) :
    ∀ x xs, cs = x :: xs → ¬IsNumeral x := by
  rw [mark?_eq_some.mp h]
  exact not_isNumeral_head hc

theorem not_isNumeral_of_blanks? {cs : List Char} (h : blanks? cs = some rest) :
    ∀ x xs, cs = x :: xs → ¬IsNumeral x := by
  rintro x xs rfl hx
  simp [blanks?, hx.not_blank] at h

/-- A day of two digits has no blank in front. -/
theorem exists_field?_of_day? {m : Nat} (h : day? (decimalDigits 2 n ++ rest) = some (m, after)) :
    ∃ two one, field? two one (decimalDigits 2 n ++ rest) = some (m, after) := by
  have hdigit : Text.isBlank (Nat.digitChar (n / 10 % 10)) = false := (isNumeral_digitChar _).not_blank
  unfold day? at h
  split at h
  · rename_i b cs hchars
    have hblank : Text.isBlank (Nat.digitChar (n / 10 % 10)) = true := by
      obtain ⟨heq, -⟩ := List.cons.inj hchars
      exact heq ▸ rfl
    rw [hdigit] at hblank
    cases hblank
  · exact ⟨_, _, h⟩

theorem year?_digits (hn : n < 10000) : year? (decimalDigits 4 n ++ rest) = some (n, rest) := by
  have hchars : decimalDigits 4 n ++ rest = Nat.digitChar (n / 10 / 10 / 10 % 10) :: Nat.digitChar (n / 10 / 10 % 10) ::
    Nat.digitChar (n / 10 % 10) :: Nat.digitChar (n % 10) :: rest := rfl
  rw [hchars, year?, pair_digits, pair_digits]
  simp
  omega

/-- A date of digits and hyphens is read as a whole, and blanks follow it. -/
theorem exists_of_read (hyear : year < 10000) (hmonth : month < 100) (hday : day < 100)
    (h : read (decimalDigits 4 year ++ '-' :: (decimalDigits 2 month ++ '-' :: (decimalDigits 2 day ++ rest))) =
      some t) : ∃ clock hour minute second afterHour afterMinute, blanks? rest = some clock ∧
      hour? clock = some (hour, ':' :: afterHour) ∧ minute? afterHour = some (minute, ':' :: afterMinute) ∧
      second? afterMinute = some (second, []) ∧ Date.of? year month day = some t.date ∧
      Time.of? hour minute second 0 = some t.time ∧ t = ⟨t.date, t.time, none⟩ := by
  unfold read at h
  simp only [year?_digits hyear, Option.bind_eq_bind, Option.bind_some, Option.bind_eq_some_iff] at h
  obtain ⟨afterYear, hyear, ⟨m, afterMonth⟩, hm, afterHyphen, hhyphen, ⟨d, afterDay⟩, hd, clock, hclock,
    ⟨hour, afterHour⟩, hhour, afterColon, hcolon, ⟨minute, afterMinute⟩, hminute, afterColon', hcolon',
    ⟨second, left⟩, hsecond, h⟩ := h
  obtain ⟨-, rfl⟩ := List.cons.inj (mark?_eq_some.mp hyear)
  obtain ⟨rfl, rfl⟩ := eq_of_field? hmonth hm (not_isNumeral_of_mark? (by decide) hhyphen)
  obtain ⟨-, rfl⟩ := List.cons.inj (mark?_eq_some.mp hhyphen)
  obtain ⟨_, _, hd⟩ := exists_field?_of_day? hd
  obtain ⟨rfl, rfl⟩ := eq_of_field? hday hd (not_isNumeral_of_blanks? hclock)
  obtain rfl := mark?_eq_some.mp hcolon
  obtain rfl := mark?_eq_some.mp hcolon'
  split at h
  · cases h
  · rename_i hleft
    obtain ⟨date, hdate, h⟩ := Option.bind_eq_some_iff.mp h
    obtain ⟨time, htime, h⟩ := Option.bind_eq_some_iff.mp h
    obtain rfl := Option.some.inj h
    obtain rfl : left = [] := by simpa using hleft
    exact ⟨clock, hour, minute, second, _, _, hclock, hhour, hminute, hsecond, hdate, htime, rfl⟩

/-- In its own text the reader for devices finds no other numbers than these. -/
theorem moment?_of_read {f : DeviceFields} (h : read f.chars = some t) : f.moment? = some t := by
  obtain ⟨clock, hour, minute, second, afterHour, afterMinute, hclock, hhour, hminute, hsecond, hdate, htime, ht⟩ :=
    exists_of_read f.year.isLt f.month.isLt f.day.isLt h
  have hstart : Text.isBlank (Nat.digitChar (f.hour / 10 % 10)) = false := (isNumeral_digitChar _).not_blank
  have hkeep : f.clockChars.dropWhile Text.isBlank = f.clockChars :=
    List.dropWhile_cons_of_neg (l := f.clockChars.tail) (by simp [hstart])
  obtain rfl : f.clockChars = clock := by
    rw [blanks?, if_pos (by rfl), hkeep] at hclock
    exact Option.some.inj hclock
  obtain ⟨rfl, hcs⟩ := eq_of_field? f.hour.isLt hhour (not_isNumeral_head (by decide))
  obtain ⟨-, rfl⟩ := List.cons.inj hcs
  obtain ⟨rfl, hcs⟩ := eq_of_field? f.minute.isLt hminute (not_isNumeral_head (by decide))
  obtain ⟨-, rfl⟩ := List.cons.inj hcs
  have hend : second? (decimalDigits 2 f.second ++ []) = some (second, []) := hsecond
  obtain ⟨rfl, -⟩ := eq_of_field? f.second.isLt hend nofun
  rw [DeviceFields.moment?, hdate, Option.bind_some, htime, Option.map_some, ht]

/-- The stored form is none of a device: no blank stands after the day. -/
theorem read_isoChars (t : Timestamp) : read t.isoChars = none := by
  obtain ⟨-, hyear, -, hmonth, -, hday⟩ := t.date.valid
  have hdays := daysInMonth_le t.date.year t.date.month
  rw [Option.eq_none_iff_forall_ne_some]
  intro t' h
  rw [isoChars_eq, Iso.isoChars_append] at h
  obtain ⟨clock, _, _, _, _, _, hclock, -⟩ := exists_of_read (by omega) (by omega) (by omega) h
  simp [blanks?, Text.isBlank] at hclock

end Device

/-! ## Fields -/

theorem read?_device (f : DeviceFields) : read? f.chars = f.moment? := by
  rw [read?, Iso.read_device]
  cases h : Device.read f.chars with
  | none => rfl
  | some t => exact (Device.moment?_of_read h).symm

theorem read?_isoChars (t : Timestamp) : read? t.isoChars = some t.settled := by
  rw [read?, Device.read_isoChars, Iso.read_isoChars]
  rfl

theorem ofValue?_of_isGiven {v : Value} (h : v.isGiven = true) : ofValue? v = read? (Text.strip v.plain).toList := by
  rw [ofValue?, reading, if_pos h]
  dsimp only
  cases read? (Text.strip v.plain).toList <;> rfl

/-- Text that neither starts nor ends with a blank is read as it stands. -/
theorem ofValue?_text {cs : List Char} (hne : cs ≠ []) (hhead : ∀ c ∈ cs.head?, Text.isBlank c = false)
    (hlast : ∀ c ∈ cs.getLast?, Text.isBlank c = false) : ofValue? (.text (String.ofList cs)) = read? cs := by
  have htrim : Text.trimBoth Text.isBlank cs = cs := by
    have h : Text.trimBoth Text.isBlank ([] ++ cs ++ []) = cs := Text.trimBoth_append nofun nofun hne hhead hlast
    simpa using h
  have hgiven : (Value.text (String.ofList cs)).isGiven = true := by
    simpa [Value.isGiven, ← String.toList_inj] using hne
  rw [ofValue?_of_isGiven hgiven, Value.plain, Text.strip, String.toList_ofList, String.toList_ofList, htrim]

theorem ofValue?_device (f : DeviceFields) : ofValue? (.text f.text) = f.moment? := by
  have hhead : f.chars.head? = some (Nat.digitChar (f.year / 10 / 10 / 10 % 10)) := rfl
  have hlast : f.chars.getLast? = some (Nat.digitChar (f.second % 10)) := rfl
  have hblank : ∀ n, Text.isBlank (Nat.digitChar (n % 10)) = false := fun n => (isNumeral_digitChar n).not_blank
  rw [DeviceFields.text, ofValue?_text (by simp [DeviceFields.chars]) (by simp [hhead, hblank])
    (by simp [hlast, hblank]), read?_device]

theorem not_blank_isoChars {t : Timestamp} {c : Char} (h : c ∈ t.isoChars) : Text.isBlank c = false := by
  rw [isoChars_eq, clockChars, List.mem_append, List.mem_cons, List.mem_append] at h
  rcases h with h | rfl | h | h
  · rcases Date.mem_isoChars h with h | rfl
    · exact h.not_blank
    · rfl
  · rfl
  · rcases Time.mem_isoChars h with h | rfl | rfl
    · exact h.not_blank
    · rfl
    · rfl
  · cases ho : t.offset with
    | none =>
      rw [ho] at h
      cases h
    | some o =>
      rw [ho] at h
      rcases Offset.mem_isoChars h with h | rfl | rfl | rfl | rfl
      · exact h.not_blank
      all_goals rfl

theorem ofValue?_iso (t : Timestamp) : ofValue? (.text t.iso) = some t.settled := by
  rw [iso, ofValue?_text (by simp [isoChars]) (fun c hc => not_blank_isoChars (List.mem_of_mem_head? hc))
    (fun c hc => not_blank_isoChars (List.mem_of_mem_getLast? hc)), read?_isoChars]

theorem ofValue?_eq_none {v : Value} : ofValue? v = none ↔ v.isGiven = false ∨
    Device.read (Text.strip v.plain).toList = none ∧ Iso.read (Text.strip v.plain).toList = none := by
  cases hgiven : v.isGiven with
  | false => simp [ofValue?, reading, hgiven, Reading.toOption]
  | true =>
    rw [ofValue?_of_isGiven hgiven, read?, Option.orElse_eq_orElse, Option.orElse_eq_or, Option.or_eq_none_iff]
    simp

/-- A timestamp that a field gives is given by its stored form, in a field and in the store. A field without one is not
given, or spells none in either form. The text of a device gives the moment that it names, and none if there is no such
moment. -/
theorem ofValue?_stable (v : Value) (f : DeviceFields) :
    (∀ t, ofValue? v = some t → ofValue? (.text t.iso) = some t ∧ Iso.read t.iso.toList = some t) ∧
    (ofValue? v = none ↔ v.isGiven = false ∨
      Device.read (Text.strip v.plain).toList = none ∧ Iso.read (Text.strip v.plain).toList = none) ∧
    (f.Possible → ∃ t, f.Names t ∧ ofValue? (.text f.text) = some t) ∧
    (¬f.Possible → ofValue? (.text f.text) = none) := by
  refine ⟨fun t ht => ?_, ofValue?_eq_none, fun hf => ?_, fun hf => ?_⟩
  · have hsettled : t.settled = t := settled_of_ofValue? ht
    rw [ofValue?_iso, toList_iso, Iso.read_isoChars, hsettled]
    exact ⟨rfl, rfl⟩
  · obtain ⟨t, ht⟩ := hf.exists_names
    exact ⟨t, ht, by rw [ofValue?_device, DeviceFields.moment?_eq_some.mpr ht]⟩
  · rw [ofValue?_device, Option.eq_none_iff_forall_ne_some]
    exact fun t ht => hf (DeviceFields.moment?_eq_some.mp ht).possible

/-- A weekday with a fraction of a second and an offset, and a leap day. -/
theorem ofValue?_stable_week : ∃ t : Timestamp, ∃ f : DeviceFields,
    t.iso = "2021-01-03T23:59:59.500000-05:30" ∧ f.text = "2024-02-29 23:59:59" ∧
    ofValue? (.text " 2020-W53-7T23:59:59.5-0530") = some t ∧ ofValue? (.text t.iso) = some t ∧
    Iso.read t.iso.toList = some t ∧ f.Possible ∧ ∃ t, f.Names t ∧ ofValue? (.text f.text) = some t := by
  have hread : ofValue? (.text " 2020-W53-7T23:59:59.5-0530") = some
      ⟨⟨2021, 1, 3, by decide⟩, ⟨23, 59, 59, 500000, by decide⟩, some ⟨true, 19800000000, by decide⟩⟩ := by
    decide +kernel
  have hpossible : (⟨2024, 2, 29, 23, 59, 59⟩ : DeviceFields).Possible := by constructor <;> decide
  obtain ⟨hstable, -, hdevice, -⟩ :=
    ofValue?_stable (.text " 2020-W53-7T23:59:59.5-0530") ⟨2024, 2, 29, 23, 59, 59⟩
  obtain ⟨hfield, hstored⟩ := hstable _ hread
  exact ⟨_, _, by decide +kernel, by decide +kernel, hread, hfield, hstored, hpossible, hdevice hpossible⟩

end Timestamp

end SmsRelay
