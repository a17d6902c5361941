-- SUMMARY: The application with its store as surroundings of a gateway.
import SmsRelay.Proofs.Rows
import SmsRelay.Proofs.Scope

/-!
# The application with its store

The handlers of the application as surroundings of a gateway: each answer
depends on the store, and may change it. A handler that fails changes nothing.
-/

namespace SmsRelay.Application

open Gateway Store

variable {κ : Type}

/-- The answer to a request that comes at the time `now`, and the store after it. -/
def reply (now : String) (s : Store) (r : Request κ) : Except Fault Returned × Store :=
  match handle now s r with
  | .ok done => (.ok done.answer, done.store)
  | .error f => (.error f, s)

/-- The store after notice has been taken. -/
def noted (s : Store) (n : Notice κ) : Store :=
  match observe s n with
  | .ok done => done.store
  | .error _ => s

/-- Surroundings in which the application keeps its messages in a store, and the modem tool gives any
output that the device allows for the command. -/
def surroundings (device : String → Except Fault Value → Prop) : Surroundings κ Store where
  modem s command _ output s' := Ordinary output ∧ device command output ∧ s' = s
  request s r answer s' := ∃ now, (answer, s') = reply now s r
  notify s n answer s' := answer = .ok () ∧ s' = noted s n
  callback s _ _ _ answer s' := answer = .ok () ∧ s' = s

theorem ordinary_handle (now : String) (s : Store) (r : Request κ) : Ordinary (handle now s r) := by
  cases r with
  | receive m => exact (ordinary_saveReceived _ _ _).bind fun x => ordinary_ok _
  | receiveSegment m => exact (ordinary_saveSegment _ _).bind fun x => ordinary_ok _
  | returnSegments key => exact (ordinary_loadSegments _ _).bind fun x => ordinary_ok _
  | transmit m t => exact ordinary_ok _

theorem ordinary_reply (now : String) (s : Store) (r : Request κ) : Ordinary (reply now s r).1 := by
  unfold reply
  split
  · exact ordinary_ok _
  · rename_i f hf
    exact ordinary_error (ordinary_handle now s r f hf)

theorem contained_surroundings (device : String → Except Fault Value → Prop) :
    (surroundings (κ := κ) device).Contained where
  modem := by
    intro s s' command arguments f ⟨hf, _⟩
    exact hf f rfl
  request := by
    intro s s' r f ⟨now, h⟩
    exact ordinary_reply now s r f (congrArg Prod.fst h).symm
  notify h := h.1
  callback h := h.1

theorem aloof_surroundings (device : String → Except Fault Value → Prop) :
    (surroundings (κ := κ) device).Aloof where
  modem h := h.2.2
  request := by
    intro s s' m t answer ⟨now, h⟩
    exact congrArg Prod.snd h
  notify h := h.2
  callback h := h.2

/-! ## One event at a time -/

section

variable (now : String) (s : Store)

/-- A message that can be entered is received, and any other is refused. -/
theorem reply_receive (hready : s.ready = true) (m : Message) :
    (m.isEnterable = true ∧ reply (κ := κ) now s (.receive m) = (.ok .nothing, { s with
      segments := if m.isPart then s.segments.filter (·.key ≠ m.key) else s.segments
      inbox := Received.of s.nextId now m :: s.inbox })) ∨
    (m.isEnterable = false ∧ ∃ f, reply (κ := κ) now s (.receive m) = (.error f, s)) := by
  simp only [reply, handle]
  obtain ⟨henter, hsave⟩ | ⟨henter, f, hsave⟩ := saveReceived_unchecked hready now m
  · exact .inl ⟨henter, by rw [hsave]; rfl⟩
  · exact .inr ⟨henter, f, by rw [hsave]; rfl⟩

theorem reply_receiveSegment_of_storable (hready : s.ready = true) {m : Message} (h : m.Storable) :
    reply (κ := κ) now s (.receiveSegment m) =
      (.ok .nothing, { s with segments := upsert (Segment.of m) s.segments }) := by
  simp only [reply, handle, saveSegment_of_storable hready h]
  rfl

/-- A part that is kept has a row; one that is not leaves the store alone. -/
theorem store_reply_receiveSegment (m : Message) :
    (reply (κ := κ) now s (.receiveSegment m)).2 = s ∨
    ∃ row : Segment, (reply (κ := κ) now s (.receiveSegment m)).2 = { s with segments := upsert row s.segments } ∧
      row.Keeps m := by
  simp only [reply, handle]
  cases h : s.saveSegment m.unchecked with
  | error f => exact .inl rfl
  | ok s' =>
    obtain ⟨row, rfl, hrow⟩ := saveSegment_eq_ok h
    exact .inr ⟨row, rfl, hrow⟩

/-- Reading the parts of a group changes nothing. -/
theorem reply_returnSegments (key : String) :
    reply (κ := κ) now s (.returnSegments key) = ((s.loadSegments (.text key)).map fun ms =>
      .items (ms.map .message), s) := by
  simp only [reply, handle]
  cases s.loadSegments (.text key) with
  | error f => rfl
  | ok ms => rfl

/-- What the application returns of a group is what it has loaded. -/
theorem returned_of_reply {now : String} {s s' : Store} {key : String} {a : Returned}
    (h : (.ok a, s') = reply (κ := κ) now s (.returnSegments key)) :
    ∃ ms, s.loadSegments (.text key) = .ok ms ∧ a = .items (ms.map .message) := by
  rw [reply_returnSegments] at h
  cases hload : s.loadSegments (.text key) with
  | error f =>
    rw [hload] at h
    cases h
  | ok ms =>
    rw [hload] at h
    cases h
    exact ⟨ms, rfl, rfl⟩

/-- Only news of an erased place changes the store: the parts from there are forgotten. -/
theorem noted_eq (n : Notice κ) : noted s n = s ∨
    ∃ c, n = .deleted c ∧
      noted s n = { s with segments := s.segments.filter fun r => !r.location.same (.int c.location) } := by
  cases n with
  | deleted c =>
    simp only [noted, observe]
    cases h : s.forget (.int c.location) with
    | error f => exact .inl rfl
    | ok x => exact .inr ⟨c, rfl, forget_eq_ok h⟩
  | _ => exact .inl rfl

/-- Nothing is kept any more of a place that has been erased. -/
theorem noted_deleted {s : Store} (hready : s.ready = true) (c : Candidate) :
    (noted (κ := κ) s (.deleted c)).ready = true ∧ ∀ r ∈ (noted (κ := κ) s (.deleted c)).segments,
      r ∈ s.segments ∧ (Cell.fits c.location = true → r.location ≠ .int c.location) := by
  have hforget : noted (κ := κ) s (.deleted c) = if Cell.fits c.location then
      { s with segments := s.segments.filter fun r => !r.location.same (.int c.location) } else s := by
    unfold noted observe forget require
    rw [hready]
    by_cases hfits : Cell.fits c.location = true
    · simp [Cell.ofValue_int hfits, hfits, bind, Except.bind, pure, Except.pure, List.partition_eq_filter_filter,
        Function.comp_def]
    · simp [Cell.ofValue, hfits, bind, Except.bind]
  rw [hforget]
  split
  · refine ⟨hready, fun r hr => ?_⟩
    obtain ⟨hr, hne⟩ := List.mem_filter.mp hr
    refine ⟨hr, fun _ heq => ?_⟩
    simp [heq] at hne
  · rename_i hfits
    exact ⟨hready, fun r hr => ⟨hr, fun h => absurd h hfits⟩⟩

end

end SmsRelay.Application
