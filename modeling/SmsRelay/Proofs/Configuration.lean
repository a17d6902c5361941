-- SUMMARY: Which sections of the configuration are usable, and what is known of their interval.
import SmsRelay.Config
import SmsRelay.Proofs.RealNumerals
import SmsRelay.Proofs.Rows

/-!
# Usable configurations

Which sections of the configuration file are accepted, and what is then known of
the settings. The check refuses what is at most zero, and an interval that is no
number is not: it passes with those above zero, though it is not one of them.
-/

namespace SmsRelay

/-- The value is converted to a real number above zero. -/
def Value.AboveZero (v : Value) : Prop := ∃ x, v.toReal = .ok x ∧ 0.0 < x

/-- The value is converted to an integer that is at least one. -/
def Value.AtLeastOne (v : Value) : Prop := ∃ n, v.toInteger = .ok n ∧ 1 ≤ n

theorem Value.isGiven_orElse {v d : Value} (hd : d.isGiven = true) : (v.orElse d).isGiven = true := by
  unfold orElse
  split
  · assumption
  · exact hd

namespace Config

/-! ## The check -/

section

variable {name : String}

theorem requirePositive_eq_ok {v : Value} : requirePositive name v = .ok () ↔ v.isAtMostZero = .ok false := by
  unfold requirePositive
  rw [bind_eq_ok]
  constructor
  · rintro ⟨b, hb, hok⟩
    cases b with
    | true => cases hok
    | false => exact hb
  · intro h
    exact ⟨false, h, rfl⟩

theorem requirePositive_int {n : Int} : requirePositive name (.int n) = .ok () ↔ 1 ≤ n := by
  rw [requirePositive_eq_ok, Value.isAtMostZero, Except.ok.injEq, decide_eq_false_iff_not]
  omega

/-- What is no number passes with all that is above zero. -/
theorem requirePositive_float {x : Float} : requirePositive name (.float x) = .ok () ↔ 0.0 < x ∨ x.isNaN = true := by
  rw [requirePositive_eq_ok, Value.isAtMostZero, Except.ok.injEq, decide_eq_false_iff_not, Number.not_le_zero_iff,
    or_comm]

theorem check_eq_ok {c c' : Config} : check c = .ok c' ↔
    requirePositive "poll_interval_seconds" c.interval = .ok () ∧
      requirePositive "transmit_batch_size" c.transmitBatch = .ok () ∧
      requirePositive "delete_batch_size" c.deleteBatch = .ok () ∧ c.executable.isGiven = true ∧ c' = c := by
  unfold check
  simp only [bind_eq_ok]
  constructor
  · rintro ⟨⟨⟩, hinterval, ⟨⟩, htransmit, ⟨⟩, hdelete, h⟩
    cases hgiven : c.executable.isGiven with
    | true =>
      rw [hgiven] at h
      exact ⟨hinterval, htransmit, hdelete, rfl, (Except.ok.inj h).symm⟩
    | false =>
      rw [hgiven] at h
      cases h
  · rintro ⟨hinterval, htransmit, hdelete, hgiven, rfl⟩
    rw [hgiven]
    exact ⟨(), hinterval, (), htransmit, (), hdelete, rfl⟩

end

/-! ## Sections -/

/-- The interval that the fields of a section give, or the standard one. -/
def intervalField (fields : List (String × Value)) : Value :=
  Value.fieldOr fields "poll_interval_seconds" (.int 10)

/-- The size of a transmission that they give, or the standard one. -/
def transmitField (fields : List (String × Value)) : Value :=
  Value.fieldOr fields "transmit_batch_size" (.int 64)

/-- The size of a deletion that they give, or the standard one. -/
def deleteField (fields : List (String × Value)) : Value :=
  Value.fieldOr fields "delete_batch_size" (.int 1024)

/-- The settings of a section whose numbers have been converted. -/
def ofNumbers (fields : List (String × Value)) (interval : Float) (transmitBatch deleteBatch : Int) : Config where
  interval := .float interval
  transmitBatch := .int transmitBatch
  deleteBatch := .int deleteBatch
  home := (Value.fieldOr fields "prefix" .null).orElse .null
  executable := (Value.fieldOr fields "executable" .null).orElse (.text "gammu-json")

section

variable {fields : List (String × Value)} {c : Config}

theorem ofValue_object : ofValue (.object fields) = ofFields fields := by
  cases fields <;> rfl

/-- A section is accepted if its numbers can be converted and pass the check, and gives those numbers. -/
theorem ofValue_object_eq_ok : ofValue (.object fields) = .ok c ↔
    ∃ x, (intervalField fields).toReal = .ok x ∧ ∃ m, (transmitField fields).toInteger = .ok m ∧
      ∃ n, (deleteField fields).toInteger = .ok n ∧
        (0.0 < x ∨ x.isNaN = true) ∧ 1 ≤ m ∧ 1 ≤ n ∧ c = ofNumbers fields x m n := by
  have hcheck : ∀ x m n, check (ofNumbers fields x m n) = .ok c ↔
      (0.0 < x ∨ x.isNaN = true) ∧ 1 ≤ m ∧ 1 ≤ n ∧ c = ofNumbers fields x m n := by
    intro x m n
    have htool : (ofNumbers fields x m n).executable.isGiven = true := Value.isGiven_orElse rfl
    rw [check_eq_ok]
    simp only [htool, true_and]
    simp only [ofNumbers, requirePositive_float, requirePositive_int]
  rw [ofValue_object, ofFields]
  simp only [bind_eq_ok]
  exact exists_congr fun x => and_congr_right fun _ => exists_congr fun m => and_congr_right fun _ =>
    exists_congr fun n => and_congr_right fun _ => hcheck x m n

end

/-! ## Usable settings -/

/-- What the check sees to: no number is at most zero, and the modem tool has a name. -/
structure Checked (c : Config) : Prop where
  interval : ∃ x, c.interval = .float x ∧ ¬ x ≤ 0.0
  transmitBatch : ∃ n, c.transmitBatch = .int n ∧ 1 ≤ n
  deleteBatch : ∃ n, c.deleteBatch = .int n ∧ 1 ≤ n
  executable : c.executable.isGiven = true

/-- All that, and an interval above zero. -/
structure Usable (c : Config) : Prop extends Checked c where
  aboveZero : ∃ x, c.interval = .float x ∧ 0.0 < x

section

variable {fields : List (String × Value)} {x : Float} {m n : Int}

theorem checked_ofNumbers (hx : 0.0 < x ∨ x.isNaN = true) (hm : 1 ≤ m) (hn : 1 ≤ n) :
    (ofNumbers fields x m n).Checked where
  interval := ⟨x, rfl, Number.not_le_zero_iff.mpr hx.symm⟩
  transmitBatch := ⟨m, rfl, hm⟩
  deleteBatch := ⟨n, rfl, hn⟩
  executable := Value.isGiven_orElse rfl

theorem usable_ofNumbers_iff (hx : 0.0 < x ∨ x.isNaN = true) (hm : 1 ≤ m) (hn : 1 ≤ n) :
    (ofNumbers fields x m n).Usable ↔ ¬ x.isNaN = true := by
  constructor
  · rintro ⟨-, y, hy, hpositive⟩ hnan
    obtain rfl := Value.float.inj hy
    exact Number.not_zero_lt_of_isNaN hnan hpositive
  · intro hnumber
    exact ⟨checked_ofNumbers hx hm hn, x, rfl, hx.resolve_right hnumber⟩

end

/-- For all sections: one is accepted if and only if its interval is a number above zero, or is no number at all, and
its sizes are integers of at least one. The settings are then as the check says; and they can be used if and only if
the interval is not what is no number. -/
theorem usable_iff_interval_is_number (fields : List (String × Value)) :
    ((∃ c, ofValue (.object fields) = .ok c) ↔
      ((intervalField fields).AboveZero ∨ (intervalField fields).NotANumber) ∧
        (transmitField fields).AtLeastOne ∧ (deleteField fields).AtLeastOne) ∧
    ∀ c, ofValue (.object fields) = .ok c → c.Checked ∧ (c.Usable ↔ ¬ (intervalField fields).NotANumber) := by
  constructor
  · constructor
    · rintro ⟨c, hc⟩
      obtain ⟨x, hx, m, hm, n, hn, hpositive, hm', hn', -⟩ := ofValue_object_eq_ok.mp hc
      exact ⟨hpositive.imp (fun h => ⟨x, hx, h⟩) fun h => Value.notANumber_iff.mpr ⟨x, hx, h⟩,
        ⟨m, hm, hm'⟩, ⟨n, hn, hn'⟩⟩
    · rintro ⟨hinterval, ⟨m, hm, hm'⟩, ⟨n, hn, hn'⟩⟩
      have hread : ∃ x, (intervalField fields).toReal = .ok x ∧ (0.0 < x ∨ x.isNaN = true) := by
        rcases hinterval with ⟨x, hx, hpositive⟩ | hnan
        · exact ⟨x, hx, .inl hpositive⟩
        · obtain ⟨x, hx, hnan⟩ := Value.notANumber_iff.mp hnan
          exact ⟨x, hx, .inr hnan⟩
      obtain ⟨x, hx, hpositive⟩ := hread
      exact ⟨_, ofValue_object_eq_ok.mpr ⟨x, hx, m, hm, n, hn, hpositive, hm', hn', rfl⟩⟩
  · intro c hc
    obtain ⟨x, hx, m, hm, n, hn, hpositive, hm', hn', rfl⟩ := ofValue_object_eq_ok.mp hc
    have hnumber : (intervalField fields).NotANumber ↔ x.isNaN = true := by
      rw [Value.notANumber_iff, hx]
      simp only [Except.ok.injEq, exists_eq_left']
    rw [hnumber]
    exact ⟨checked_ofNumbers hpositive hm' hn', usable_ofNumbers_iff hpositive hm' hn'⟩

/-- A section whose interval is the name of no number, with a sign and blanks around it. -/
def namelessSection : List (String × Value) :=
  [("poll_interval_seconds", .text " -NaN\n"), ("transmit_batch_size", .text "1_6"),
    ("delete_batch_size", .bool true), ("executable", .text "")]

theorem notANumber_namelessSection : (intervalField namelessSection).NotANumber := by
  refine .text (?_ : Number.NaNName ([' '] ++ (['-'] ++ ['N', 'a', 'N']) ++ ['\n']))
  exact .intro (List.forall_mem_singleton.mpr rfl) (.inr (.inr rfl)) rfl (List.forall_mem_singleton.mpr rfl)

/-- It is accepted, and cannot be used. -/
theorem usable_iff_interval_is_number_nameless :
    ∃ c, ofValue (.object namelessSection) = .ok c ∧ c.Checked ∧ ¬ c.Usable := by
  obtain ⟨haccepted, hknown⟩ := usable_iff_interval_is_number namelessSection
  obtain ⟨c, hc⟩ := haccepted.mpr ⟨.inr notANumber_namelessSection, ⟨16, rfl, by decide⟩, ⟨1, rfl, by decide⟩⟩
  obtain ⟨hchecked, husable⟩ := hknown c hc
  exact ⟨c, hc, hchecked, fun h => husable.mp h notANumber_namelessSection⟩

end Config

end SmsRelay
