-- SUMMARY: What a reception makes of parts, whatever the application answers: the calls, their order, and the messages put together.
import SmsRelay.Proofs.Completion
import SmsRelay.Proofs.History
import SmsRelay.Proofs.Parts
import SmsRelay.Proofs.Replay

/-!
# The intake of parts

What a reception says to the application about parts of messages, and what it
makes of the answers. Nothing is known of the application: it may keep parts
or refuse them, return anything when it is asked for them, and cancel the
reception. Each part leads to an intake, and the intakes in a row say what has
been asked, in which order, and which messages have been put together.
-/

namespace SmsRelay

/-! ## Collections of messages -/

/-- The application returns a collection of the given messages. No answer at all is a collection of none. -/
inductive Returned.Collects : Returned → List Message → Prop where
  | nothing : Collects (.value .null) []
  | empty : Collects (.value (.list [])) []
  | items (ms : List Message) : Collects (.items (ms.map .message)) ms

theorem Returned.selectParts_eq_ok {key : String} {items : List Item} {stored : List Message}
    (h : selectParts key items = .ok stored) :
    ∃ ms : List Message, items = ms.map .message ∧ stored = ms.filter (·.key = key) := by
  induction items generalizing stored with
  | nil =>
    cases h
    exact ⟨[], rfl, rfl⟩
  | cons item items ih =>
    cases item with
    | message m =>
      obtain ⟨rest, hrest, h⟩ := bind_eq_ok.mp h
      obtain ⟨ms, rfl, rfl⟩ := ih hrest
      refine ⟨m :: ms, rfl, ?_⟩
      cases h
      rw [List.filter_cons]
      simp
    | other v => cases h

/-- Parts are taken from collections of messages and from nothing else: those with the key that was asked for. -/
theorem Returned.storedParts_eq_ok {key : String} {returned : Returned} {stored : List Message} :
    returned.storedParts key = .ok stored ↔ ∃ ms, returned.Collects ms ∧ stored = ms.filter (·.key = key) := by
  constructor
  · intro h
    unfold storedParts at h
    split at h
    · cases h
      exact ⟨[], .nothing, rfl⟩
    · rename_i vs
      obtain ⟨ms, hms, rfl⟩ := selectParts_eq_ok h
      cases vs with
      | nil =>
        obtain rfl := List.map_eq_nil_iff.mp hms.symm
        exact ⟨[], .empty, rfl⟩
      | cons v vs => cases ms <;> cases hms
    · obtain ⟨ms, rfl, rfl⟩ := selectParts_eq_ok h
      exact ⟨ms, .items ms, rfl⟩
    · cases h
  · intro ⟨ms, hms, heq⟩
    subst heq
    cases hms with
    | nothing => rfl
    | empty => rfl
    | items => exact selectParts_messages key ms

namespace Gateway

open Phase

variable {κ σ : Type}

/-! ## Intakes -/

/-- How the application has dealt with a part: it has not kept it; it has kept it, but not answered for the
rest of its group; or it has kept it and returned something. -/
inductive Intake where
  | unkept (m : Message) (f : Fault)
  | unreturned (m : Message) (kept : Returned) (f : Fault)
  | returned (m : Message) (kept answer : Returned)

namespace Intake

def part : Intake → Message
  | unkept m _ | unreturned m _ _ | returned m _ _ => m

/-- What the part comes to. -/
def outcome : Intake → Except Fault (Option Message)
  | unkept _ f | unreturned _ _ f => .error f
  | returned m _ answer => (answer.storedParts m.key).map m.reassemble

/-- The message that the part completes. -/
def whole? (i : Intake) : Option Message :=
  match i.outcome with
  | .ok whole => whole
  | .error _ => none

/-- What the application has been asked. -/
def questions : Intake → List (Occurrence κ)
  | unkept m f => [.request (.receiveSegment m) (.error f)]
  | unreturned m kept f => [.request (.receiveSegment m) (.ok kept), .request (.returnSegments m.key) (.error f)]
  | returned m kept answer =>
    [.request (.receiveSegment m) (.ok kept), .request (.returnSegments m.key) (.ok answer)]

/-- What the application has been told afterwards: of a failure, unless it is a cancellation. -/
def complaint (i : Intake) : List (Occurrence κ) :=
  match i.outcome with
  | .ok _ => []
  | .error f => if f.isCancellation then [] else [.notice (.receiveError (.message i.part) f)]

def trace (i : Intake) : List (Occurrence κ) := i.questions ++ i.complaint

theorem complaint_of_error {i : Intake} {f : Fault} (h : i.outcome = .error f) (hf : f.isCancellation = false) :
    i.complaint (κ := κ) = [.notice (.receiveError (.message i.part) f)] := by
  simp [complaint, h, hf]

theorem trace_of_ok {i : Intake} {a : Option Message} (h : i.outcome = .ok a) : i.trace (κ := κ) = i.questions := by
  simp [trace, complaint, h]

theorem trace_of_cancelled {i : Intake} {f : Fault} (h : i.outcome = .error f) (hf : f.isCancellation = true) :
    i.trace (κ := κ) = i.questions := by
  simp [trace, complaint, h, hf]

theorem whole?_of_ok {i : Intake} {a : Option Message} (h : i.outcome = .ok a) : i.whole? = a := by
  simp [whole?, h]

theorem whole?_of_error {i : Intake} {f : Fault} (h : i.outcome = .error f) : i.whole? = none := by
  simp [whole?, h]

/-- A part completes a message only with parts of its group from a collection of messages. -/
theorem whole?_eq_some {i : Intake} {whole : Message} (h : i.whole? = some whole) :
    ∃ ms : List Message, i.part.reassemble (ms.filter (·.key = i.part.key)) = some whole := by
  cases i with
  | unkept m f => cases h
  | unreturned m kept f => cases h
  | returned m kept answer =>
    cases hstored : answer.storedParts m.key with
    | error f => simp [whole?, outcome, hstored, Except.map] at h
    | ok stored =>
      obtain ⟨ms, -, rfl⟩ := Returned.storedParts_eq_ok.mp hstored
      rw [whole?, outcome, hstored] at h
      exact ⟨ms, h⟩

theorem key_whole? {i : Intake} {whole : Message} (h : i.whole? = some whole) : whole.key = i.part.key := by
  obtain ⟨ms, hms⟩ := whole?_eq_some h
  obtain ⟨first, rfl, -⟩ := Message.eq_compose_orderParts hms
  exact Message.key_compose _ _ _

/-- Whatever the application returns, the message that a part completes is complete. -/
theorem composite_whole? {i : Intake} (hpart : i.part.isPart = true) {whole : Message} (h : i.whole? = some whole) :
    whole.Composite := by
  obtain ⟨ms, hms⟩ := whole?_eq_some h
  refine Message.composite_of_reassemble hpart (fun a ha => ?_) hms
  simpa using (List.mem_filter.mp ha).2

/-- If what is returned is no collection of messages, no message is put together and one failure is told. -/
theorem trace_returned {m : Message} {kept answer : Returned} (h : ∀ ms, ¬ answer.Collects ms) :
    (returned m kept answer).whole? = none ∧ ∃ f, (returned m kept answer).trace (κ := κ) =
      [.request (.receiveSegment m) (.ok kept), .request (.returnSegments m.key) (.ok answer),
        .notice (.receiveError (.message m) f)] := by
  cases hstored : answer.storedParts m.key with
  | ok stored =>
    obtain ⟨ms, hms, -⟩ := Returned.storedParts_eq_ok.mp hstored
    exact absurd hms (h ms)
  | error f =>
    have houtcome : (returned m kept answer).outcome = .error f := by simp [outcome, hstored, Except.map]
    refine ⟨whole?_of_error houtcome, f, ?_⟩
    rw [trace, complaint_of_error houtcome (answer.ordinary_storedParts m.key f hstored)]
    rfl

end Intake

/-! ## Reception in a history -/

/-- The application is asked about a part of a message, or told that one could not be taken in. A message that
is put together is no part. -/
def Occurrence.isOfPart : Occurrence κ → Bool
  | .request (.receiveSegment _) _ | .request (.returnSegments _) _ => true
  | .notice (.receiveError (.message m) _) => m.isPart && m.parts.isEmpty
  | _ => false

/-- What has been said about parts of messages, in order. -/
def dealings (history : List (Occurrence κ)) : List (Occurrence κ) := (history.filter Occurrence.isOfPart).reverse

def Occurrence.passed? : Occurrence κ → Option Message
  | .request (.receive m) _ => some m
  | _ => none

/-- The messages that have been offered to the application, in order. -/
def offered (history : List (Occurrence κ)) : List Message := (history.filterMap Occurrence.passed?).reverse

def Occurrence.isModem : Occurrence κ → Bool
  | .modem .. => true
  | _ => false

theorem dealings_cons (o : Occurrence κ) (history : List (Occurrence κ)) :
    dealings (o :: history) = dealings history ++ [o].filter Occurrence.isOfPart := by
  cases h : o.isOfPart <;> simp [dealings, h]

theorem offered_cons (o : Occurrence κ) (history : List (Occurrence κ)) :
    offered (o :: history) = offered history ++ [o].filterMap Occurrence.passed? := by
  cases h : o.passed? <;> simp [offered, h]

/-- The modem tool does not run; the application is spoken to about parts, or offered messages. -/
def Occurrence.Says (o : Occurrence κ) (dealt : List (Occurrence κ)) (passed : List Message) : Prop :=
  o.isModem = false ∧ [o].filter isOfPart = dealt ∧ [o].filterMap passed? = passed

/-- From one world to another messages have arrived in the queue, the application has been spoken to about
parts, and messages have been offered to it; the device has shown nothing. -/
structure Moves (arrived : List Message) (dealt : List (Occurrence κ)) (passed : List Message)
    (w w' : World κ σ) : Prop where
  inbound : w'.queues.inbound = w.queues.inbound ++ arrived
  retrieved : retrieved w'.history = retrieved w.history
  dealings : dealings w'.history = dealings w.history ++ dealt
  offered : offered w'.history = offered w.history ++ passed

section

variable {w w' w'' : World κ σ} {arrived arrived' passed passed' : List Message} {dealt dealt' : List (Occurrence κ)}

theorem Moves.refl (w : World κ σ) : Moves [] [] [] w w := by constructor <;> simp

theorem Moves.trans (h : Moves arrived dealt passed w w') (h' : Moves arrived' dealt' passed' w' w'') :
    Moves (arrived ++ arrived') (dealt ++ dealt') (passed ++ passed') w w'' where
  inbound := by rw [h'.inbound, h.inbound, List.append_assoc]
  retrieved := h'.retrieved.trans h.retrieved
  dealings := by rw [h'.dealings, h.dealings, List.append_assoc]
  offered := by rw [h'.offered, h.offered, List.append_assoc]

theorem moves_note {o : Occurrence κ} (ho : o.Says dealt passed) : Moves [] dealt passed w (w.note o) where
  inbound := (List.append_nil _).symm
  retrieved := by
    cases o with
    | modem found command arguments output => cases ho.1
    | _ => rfl
  dealings := by rw [World.history_note, dealings_cons, ho.2.1]
  offered := by rw [World.history_note, offered_cons, ho.2.2]

theorem Moves.note (h : Moves arrived dealt passed w w') {o : Occurrence κ} (ho : o.Says dealt' passed') :
    Moves arrived (dealt ++ dealt') (passed ++ passed') w (w'.note o) := by
  simpa using h.trans (moves_note ho)

theorem Moves.logged (h : Moves arrived dealt passed w w') (e : Log.Entry) :
    Moves arrived dealt passed w (w'.note (.logged e)) := by
  have hsays : (Occurrence.logged e : Occurrence κ).Says [] [] := ⟨rfl, rfl, rfl⟩
  simpa using h.note hsays

theorem moves_send (c : SendCall κ) : Moves [] [] [] w (w.send c) := by
  unfold World.send
  split
  · rename_i m _
    have hsays : (Occurrence.accepted m).Says [] [] := ⟨rfl, rfl, rfl⟩
    have h := moves_note (w := w) hsays
    exact ⟨h.inbound, h.retrieved, h.dealings, h.offered⟩
  · exact .refl w

theorem moves_sendAll (cs : List (SendCall κ)) : Moves [] [] [] w (w.sendAll cs) :=
  World.sendAll_keeps (I := Moves [] [] [] w) (fun c _ hv => hv.trans (moves_send c)) cs (.refl w)

theorem Moves.answered (h : Moves arrived dealt passed w w') (cs : List (SendCall κ)) (s : σ) {o : Occurrence κ}
    (ho : o.Says dealt' passed') :
    Moves arrived (dealt ++ dealt') (passed ++ passed') w (w'.answered cs s fun _ => o) := by
  have h := (h.trans (moves_sendAll cs)).note ho
  simp only [List.append_nil] at h
  exact ⟨h.inbound, h.retrieved, h.dealings, h.offered⟩

theorem Moves.enqueue (h : Moves arrived dealt passed w w') (m : Message) :
    Moves (arrived ++ [m]) dealt passed w (w'.update (enqueueInbound m)) :=
  ⟨by simp [enqueueInbound, h.inbound], h.retrieved, h.dealings, h.offered⟩

theorem Moves.enqueueDeletion (h : Moves arrived dealt passed w w') (m : Message) :
    Moves arrived dealt passed w (w'.update (enqueueDeletion m)) :=
  ⟨h.inbound, h.retrieved, h.dealings, h.offered⟩

end

/-! ## One part -/

variable {E : Surroundings κ σ}

/-- To collect a part is to ask for an intake of it. -/
theorem ensures_collectPart_intake (m : Message) (w : World κ σ) : Ensures E (collectPart m) w
    (fun a v => ∃ i : Intake, i.part = m ∧ i.outcome = .ok a ∧ Moves [] i.questions [] w v)
    (fun f v => ∃ i : Intake, i.part = m ∧ i.outcome = .error f ∧ Moves [] i.questions [] w v) := by
  unfold collectPart
  refine Ensures.bind (P := fun _ v => ∃ kept, Moves [] [.request (.receiveSegment m) (.ok kept)] [] w v)
    (ensures_discard (ensures_request ?_ ?_)) ?_
  · exact fun cs s kept _ => ⟨kept, (Moves.refl w).answered cs s ⟨rfl, rfl, rfl⟩⟩
  · exact fun cs s f _ => ⟨.unkept m f, rfl, rfl, (Moves.refl w).answered cs s ⟨rfl, rfl, rfl⟩⟩
  · intro _ v ⟨kept, hkept⟩
    refine Ensures.bind (P := fun answer u => Moves [] (Intake.returned m kept answer).questions [] w u)
      (ensures_request ?_ ?_) ?_
    · exact fun cs s answer _ => hkept.answered cs s ⟨rfl, rfl, rfl⟩
    · exact fun cs s f _ => ⟨.unreturned m kept f, rfl, rfl, hkept.answered cs s ⟨rfl, rfl, rfl⟩⟩
    · intro answer u hu
      refine ensures_settled_bind (fun stored hstored => ensures_pure ?_) fun f hf => ?_
      · exact ⟨.returned m kept answer, rfl, by simp [Intake.outcome, hstored, Except.map], hu⟩
      · exact ⟨.returned m kept answer, rfl, by simp [Intake.outcome, hf, Except.map], hu⟩

/-- A part of a completed group is passed over. Any other is taken in; the message that it completes, if it
completes one, comes into the queue. -/
theorem ensures_receivePart_intake {m : Message} (hpart : m.isPart = true) (hparts : m.parts = [])
    (completed : List String) (w : World κ σ) : Ensures E (receivePart completed m) w
      (fun keys v => (m.key ∈ completed ∧ keys = completed ∧ v = w) ∨
        (m.key ∉ completed ∧ ∃ i : Intake, i.part = m ∧ Moves i.whole?.toList i.trace [] w v ∧
          keys = if i.whole?.isSome then m.key :: completed else completed))
      (fun _ v => m.key ∉ completed ∧ ∃ i : Intake, i.part = m ∧ i.whole? = none ∧ Moves [] i.trace [] w v) := by
  unfold receivePart
  split
  · rename_i hkey
    exact ensures_pure (.inl ⟨hkey, rfl, rfl⟩)
  · rename_i hkey
    refine Ensures.bind (P := fun a v => ∃ i : Intake, i.part = m ∧ i.outcome = a ∧ Moves [] i.questions [] w v ∧
      ∀ f, a = .error f → f.isCancellation = false) (ensures_guarded_or_cancelled ?_) ?_
    · refine (ensures_collectPart_intake m w).mono ?_ ?_
      · intro a v ⟨i, hi, houtcome, hmoves⟩
        exact ⟨i, hi, houtcome, hmoves, nofun⟩
      · intro f v ⟨i, hi, houtcome, hmoves⟩
        constructor
        · intro hf
          refine ⟨i, hi, houtcome, hmoves, fun g hg => ?_⟩
          cases hg
          exact hf
        · intro hf
          refine ⟨hkey, i, hi, Intake.whole?_of_error houtcome, ?_⟩
          rwa [Intake.trace_of_cancelled houtcome hf]
    · intro a v ⟨i, hi, houtcome, hmoves, hordinary⟩
      subst hi
      cases a with
      | error f =>
        have hwhole := Intake.whole?_of_error houtcome
        have htold : ∀ {v}, Moves [] i.questions [] w v → ∀ cs s,
            Moves [] i.trace [] w (v.answered cs s fun _ => .notice (.receiveError (.message i.part) f)) := by
          intro v hv cs s
          rw [Intake.trace, Intake.complaint_of_error houtcome (hordinary f rfl)]
          exact hv.answered cs s ⟨rfl, by simp [Occurrence.isOfPart, hpart, hparts], rfl⟩
        refine ensures_log_bind (Ensures.bind (P := fun _ v => Moves [] i.trace [] w v)
          (ensures_notify_or_cancelled ?_ ?_) ?_)
        · exact fun cs s _ => htold (hmoves.logged _) cs s
        · exact fun cs s _ _ => ⟨hkey, i, rfl, hwhole, htold (hmoves.logged _) cs s⟩
        · intro _ u hu
          refine ensures_pure (.inr ⟨hkey, i, rfl, ?_, ?_⟩)
          · rwa [hwhole]
          · rw [hwhole]
            rfl
      | ok a =>
        have hwhole := Intake.whole?_of_ok houtcome
        cases a with
        | none =>
          refine ensures_pure (.inr ⟨hkey, i, rfl, ?_, ?_⟩)
          · rwa [hwhole, Intake.trace_of_ok houtcome]
          · rw [hwhole]
            rfl
        | some whole =>
          refine ensures_update_bind (ensures_log_bind (ensures_pure (.inr ⟨hkey, i, rfl, ?_, ?_⟩)))
          · rw [hwhole, Intake.trace_of_ok houtcome]
            exact (hmoves.enqueue whole).logged _
          · rw [hwhole]
            rfl

/-! ## All records -/

/-- The messages of some records have been sifted: those that are no parts stand in the queue as they have
come; the others, but for those of groups that had been completed, have led to an intake each, and the
messages that they have completed stand in the queue as well. `completed` holds the keys of these. -/
structure Sifts (seen : List Message) (intakes : List Intake) (ready : List Message) (completed : List String) :
    Prop where
  parts : ∀ i ∈ intakes, i.part ∈ seen ∧ i.part.isPart = true
  singles : ready.filter (!·.isPart) = seen.filter (!·.isPart)
  composites : ready.filter (·.isPart) = intakes.filterMap Intake.whole?
  completed : ∀ key, key ∈ completed ↔ ∃ i ∈ intakes, i.whole?.isSome = true ∧ i.part.key = key
  once : intakes.Pairwise fun i j => i.whole?.isSome = true → j.part.key ≠ i.part.key

section

variable {seen ready : List Message} {intakes : List Intake} {completed : List String} {m : Message}

theorem sifts_nil : Sifts [] [] [] [] := ⟨by simp, rfl, rfl, by simp, List.Pairwise.nil⟩

theorem Sifts.single (h : Sifts seen intakes ready completed) (hm : m.isPart = false) :
    Sifts (seen ++ [m]) intakes (ready ++ [m]) completed where
  parts i hi := (h.parts i hi).imp_left (List.mem_append_left _)
  singles := by simp [h.singles, hm]
  composites := by simp [h.composites, hm]
  completed := h.completed
  once := h.once

theorem Sifts.passedOver (h : Sifts seen intakes ready completed) (hm : m.isPart = true) :
    Sifts (seen ++ [m]) intakes ready completed where
  parts i hi := (h.parts i hi).imp_left (List.mem_append_left _)
  singles := by simp [h.singles, hm]
  composites := h.composites
  completed := h.completed
  once := h.once

theorem Sifts.intake (h : Sifts seen intakes ready completed) {i : Intake} (hpart : i.part.isPart = true)
    (hnew : i.part.key ∉ completed) : Sifts (seen ++ [i.part]) (intakes ++ [i]) (ready ++ i.whole?.toList)
      (if i.whole?.isSome then i.part.key :: completed else completed) where
  parts j hj := by
    rcases List.mem_append.mp hj with hj | hj
    · exact (h.parts j hj).imp_left (List.mem_append_left _)
    · obtain rfl := List.mem_singleton.mp hj
      exact ⟨List.mem_append_right _ (List.mem_singleton_self _), hpart⟩
  singles := by
    cases hwhole : i.whole? with
    | none => simp [h.singles, hpart]
    | some whole =>
      have := Message.isPart_iff.mpr (i.composite_whole? hpart hwhole).several
      simp [h.singles, hpart, this]
  composites := by
    cases hwhole : i.whole? with
    | none => simp [h.composites, hwhole]
    | some whole =>
      have := Message.isPart_iff.mpr (i.composite_whole? hpart hwhole).several
      simp [h.composites, hwhole, this]
  completed key := by
    cases hwhole : i.whole? with
    | none => simp [h.completed, hwhole]
    | some whole =>
      simp only [Option.isSome_some, if_true, List.mem_cons, h.completed, List.mem_append, List.not_mem_nil, or_false]
      constructor
      · intro hkey
        rcases hkey with rfl | ⟨j, hj, hkey⟩
        · exact ⟨i, .inr rfl, by simp [hwhole], rfl⟩
        · exact ⟨j, .inl hj, hkey⟩
      · rintro ⟨j, hj | rfl, hkey⟩
        · exact .inr ⟨j, hj, hkey⟩
        · exact .inl hkey.2.symm
  once := by
    refine List.pairwise_append.mpr ⟨h.once, List.pairwise_singleton _ _, fun j hj k hk hwhole hkey => ?_⟩
    obtain rfl := List.mem_singleton.mp hk
    exact hnew ((h.completed _).mpr ⟨j, hj, hwhole, hkey.symm⟩)

/-- Messages that are put together in one reception are of different groups. -/
theorem nodup_key_whole? (h : intakes.Pairwise fun i j => i.whole?.isSome = true → j.part.key ≠ i.part.key) :
    ((intakes.filterMap Intake.whole?).map Message.key).Nodup := by
  refine List.pairwise_map.mpr (List.pairwise_filterMap.mpr (h.imp ?_))
  intro i j hne whole hi whole' hj heq
  rw [i.key_whole? hi, j.key_whole? hj] at heq
  exact hne (by simp [hi]) heq.symm

end

/-- From the world `w` on some messages have been sifted. -/
def Sifted (w : World κ σ) (seen : List Message) (completed : List String) (w' : World κ σ) : Prop :=
  ∃ intakes ready, Sifts seen intakes ready completed ∧ Moves ready (intakes.flatMap Intake.trace) [] w w'

section

variable {w v : World κ σ} {seen : List Message} {completed : List String}

theorem Sifted.moves (h : Sifted w seen completed v) {v' : World κ σ} (hv : Moves [] [] [] v v') :
    Sifted w seen completed v' := by
  obtain ⟨intakes, ready, hsifts, hmoves⟩ := h
  exact ⟨intakes, ready, hsifts, by simpa using hmoves.trans hv⟩

theorem Sifted.intake (h : Sifted w seen completed v) {i : Intake} (hpart : i.part.isPart = true)
    (hnew : i.part.key ∉ completed) {v' : World κ σ} (hv : Moves i.whole?.toList i.trace [] v v') :
    Sifted w (seen ++ [i.part]) (if i.whole?.isSome then i.part.key :: completed else completed) v' := by
  obtain ⟨intakes, ready, hsifts, hmoves⟩ := h
  exact ⟨_, _, hsifts.intake hpart hnew, by simpa using hmoves.trans hv⟩

/-- A record is taken in or skipped, unless the reception ends with it. -/
theorem ensures_receiveRecord_sifted (h : Sifted w seen completed v) (record : Value) :
    Ensures E (receiveRecord completed record) v (fun keys => Sifted w (seen ++ Record.messages [record]) keys)
      (fun _ v' => ∃ keys, Sifted w (seen ++ Record.messages [record]) keys v') := by
  unfold receiveRecord
  refine (ensures_readRecord (I := Sifted w seen completed) (fun e _ hv => hv.moves (.logged (.refl _) e)) h).bind ?_
  rintro a u ⟨rfl, hu⟩
  cases hrecord : Record.message record with
  | ok m =>
    have hseen : Record.messages [record] = [m] := by simp [Record.messages, hrecord, Except.toOption]
    rw [hseen]
    dsimp only
    split
    · rename_i hpart
      refine (ensures_receivePart_intake hpart (Record.parts_of_message hrecord) completed u).mono ?_ ?_
      · intro keys v' hv'
        rcases hv' with ⟨-, rfl, rfl⟩ | ⟨hkey, i, rfl, hmoves, rfl⟩
        · obtain ⟨intakes, ready, hsifts, hmoves⟩ := hu
          exact ⟨intakes, ready, hsifts.passedOver hpart, hmoves⟩
        · exact hu.intake hpart hkey hmoves
      · rintro _ v' ⟨hkey, i, rfl, hwhole, hmoves⟩
        exact ⟨_, hu.intake hpart hkey (by rwa [hwhole])⟩
    · rename_i hpart
      obtain ⟨intakes, ready, hsifts, hmoves⟩ := hu
      exact ensures_update_bind (ensures_pure ⟨intakes, _, hsifts.single (by simpa using hpart), hmoves.enqueue m⟩)
  | error f =>
    have hseen : Record.messages [record] = [] := by simp [Record.messages, hrecord, Except.toOption]
    rw [hseen, List.append_nil]
    dsimp only
    split
    · have hsays : (Occurrence.notice (.receiveError (.other record) f) : Occurrence κ).Says [] [] := ⟨rfl, rfl, rfl⟩
      have htold : ∀ e cs s, Sifted w seen completed
          ((u.note (.logged e)).answered cs s fun _ => .notice (.receiveError (.other record) f)) := fun e cs s =>
        hu.moves (((Moves.refl u).logged e).answered cs s hsays)
      refine ensures_log_bind (Ensures.bind (P := fun _ => Sifted w seen completed)
        (ensures_notify_or_cancelled ?_ ?_) fun _ _ => ensures_pure)
      · exact fun cs s _ => htold _ cs s
      · exact fun cs s _ _ => ⟨completed, htold _ cs s⟩
    · exact ensures_throw ⟨completed, hu⟩

/-- Records are sifted up to the last, or up to one with which the reception ends. -/
theorem ensures_receiveRecords_sifted (records : List Value) (w : World κ σ) :
    Ensures E (records.foldlM receiveRecord []) w (fun completed => Sifted w (Record.messages records) completed)
      (fun _ v => ∃ seen completed, seen <+: Record.messages records ∧ Sifted w seen completed v) := by
  refine ensures_foldlM (fun before completed => Sifted w (Record.messages before) completed)
    ⟨[], [], sifts_nil, .refl w⟩ fun before record completed v hfront hv => ?_
  have happend : Record.messages before ++ Record.messages [record] = Record.messages (before ++ [record]) := by
    simp [Record.messages]
  refine (ensures_receiveRecord_sifted hv record).mono ?_ ?_
  · intro keys v' hv'
    rwa [happend] at hv'
  · rintro _ v' ⟨keys, hv'⟩
    rw [happend] at hv'
    exact ⟨_, keys, hfront.filterMap _, hv'⟩

end

/-! ## Delivery -/

/-- To deliver a message is to offer it, whatever comes of it. -/
theorem ensures_deliver_offered {m : Message} (hm : m.isPart = true → m.parts ≠ []) (w : World κ σ) :
    Ensures E (deliver m) w (fun _ => Moves [] [] [m] w) (fun _ => Moves [] [] [m] w) := by
  unfold deliver
  refine Ensures.bind (P := fun _ => Moves [] [] [m] w) (ensures_attempt_or_cancelled ?_ ?_) ?_
  · exact fun cs s _ _ _ => (Moves.refl w).answered cs s ⟨rfl, rfl, rfl⟩
  · exact fun cs s _ _ _ => (Moves.refl w).answered cs s ⟨rfl, rfl, rfl⟩
  · intro a v hv
    split
    · exact ensures_update (hv.enqueueDeletion m)
    · rename_i e
      have hwhole : (Occurrence.notice (.receiveError (.message m) (.noListener e)) : Occurrence κ).Says [] [] :=
        ⟨rfl, by simpa [Occurrence.isOfPart] using hm, rfl⟩
      refine ensures_notify_or_cancelled ?_ ?_
      · exact fun cs s _ => by simpa using hv.answered cs s hwhole
      · exact fun cs s _ _ => by simpa using hv.answered cs s hwhole
    · exact ensures_log (hv.logged _)

/-- A delivery offers every message in the queue, and empties the queue; or it ends with one of them. -/
theorem ensures_deliverPhase_offered {w : World κ σ} (hw : ∀ m ∈ w.queues.inbound, m.isPart = true → m.parts ≠ []) :
    Ensures E deliverPhase w
      (fun _ w' => ∃ v, Moves [] [] w.queues.inbound w v ∧ w' = v.update fun q => { q with inbound := [] })
      (fun _ w' => ∃ passed, passed <+: w.queues.inbound ∧ Moves [] [] passed w w') := by
  unfold deliverPhase
  refine ensures_queues_bind (Ensures.bind (P := fun _ => Moves [] [] w.queues.inbound w) ?_ ?_)
  · refine ensures_forM (fun before v => Moves [] [] before w v) (.refl w) fun before m v hfront hv => ?_
    have hm : m ∈ w.queues.inbound := hfront.subset (by simp)
    refine (ensures_deliver_offered (hw m hm) v).mono ?_ ?_
    · exact fun _ v' hv' => hv.trans hv'
    · exact fun _ v' hv' => ⟨_, hfront, hv.trans hv'⟩
  · intro _ v hv
    refine ensures_update ⟨v, hv, ?_⟩
    simp [World.update, hv.inbound]

/-! ## Reception -/

/-- The device has shown some messages, and nothing else has happened in the matter of reception. -/
structure Shows (seen : List Message) (w w' : World κ σ) : Prop where
  inbound : w'.queues.inbound = w.queues.inbound
  retrieved : retrieved w'.history = seen ++ retrieved w.history
  dealings : dealings w'.history = dealings w.history
  offered : offered w'.history = offered w.history

section

variable {w : World κ σ} (cs : List (SendCall κ)) (s : σ)

theorem shows_answered {seen : List Message} {output : Except Fault Value}
    (h : ∀ found : Queues κ, ∀ history, retrieved (.modem found "retrieve" [] output :: history) =
      seen ++ retrieved history) :
    Shows seen w (w.answered cs s fun q => .modem q "retrieve" [] output) := by
  have hsends := moves_sendAll cs (w := w)
  refine ⟨by simp, ?_, ?_, ?_⟩
  · rw [World.history_answered, h, hsends.retrieved]
  · rw [World.history_answered, dealings_cons, hsends.dealings]
    simp [Occurrence.isOfPart]
  · rw [World.history_answered, offered_cons, hsends.offered]
    simp [Occurrence.passed?]

theorem shows_records (records : List Value) : Shows (Record.messages records) w
    (w.answered cs s fun q => .modem q "retrieve" [] (.ok (.list records))) :=
  shows_answered cs s fun found history => retrieved_cons_modem found [] records history

theorem shows_nothing {output : Except Fault Value} (h : ∀ records, output ≠ .ok (.list records)) :
    Shows [] w (w.answered cs s fun q => .modem q "retrieve" [] output) :=
  shows_answered cs s fun found history => retrieved_cons_modem_of_error found "retrieve" [] h history

end

/-- A reception has added to a history. The device has shown the messages `seen`; of the messages that are
`ready` to be offered some have been offered, in order. -/
structure Reception (seen : List Message) (intakes : List Intake) (ready passed : List Message)
    (older newer : List (Occurrence κ)) : Prop where
  described : ∀ m ∈ seen, ∃ record, Record.message record = .ok m
  retrieved : retrieved newer = seen ++ retrieved older
  dealings : dealings newer = dealings older ++ intakes.flatMap Intake.trace
  offered : offered newer = offered older ++ passed
  passed : passed <+: ready
  parts : ∀ i ∈ intakes, i.part ∈ seen ∧ i.part.isPart = true
  singles : ready.filter (!·.isPart) <+: seen.filter (!·.isPart)
  composites : ready.filter (·.isPart) = intakes.filterMap Intake.whole?
  once : intakes.Pairwise fun i j => i.whole?.isSome = true → j.part.key ≠ i.part.key

section

variable {seen seen' ready passed : List Message} {intakes : List Intake} {completed : List String}

/-- A message that is ready is a single one that the device has shown, or has been put together. -/
theorem Reception.of_mem_ready {older newer : List (Occurrence κ)} (h : Reception seen intakes ready passed older newer)
    {m : Message} (hm : m ∈ ready) : (m ∈ seen ∧ m.total = 1 ∧ m.parts = []) ∨
      (m.Composite ∧ ∃ i ∈ intakes, i.part.key = m.key ∧ i.whole? = some m) := by
  cases hpart : m.isPart with
  | false =>
    have hsingle : m ∈ seen.filter (!·.isPart) := h.singles.subset (List.mem_filter.mpr ⟨hm, by simp [hpart]⟩)
    obtain ⟨hseen, -⟩ := List.mem_filter.mp hsingle
    obtain ⟨record, hrecord⟩ := h.described m hseen
    exact .inl ⟨hseen, Record.total_of_message hrecord hpart, Record.parts_of_message hrecord⟩
  | true =>
    have hwhole : m ∈ intakes.filterMap Intake.whole? := by
      rw [← h.composites]
      exact List.mem_filter.mpr ⟨hm, hpart⟩
    obtain ⟨i, hi, hwhole⟩ := List.mem_filterMap.mp hwhole
    exact .inr ⟨i.composite_whole? (h.parts i hi).2 hwhole, i, hi, (i.key_whole? hwhole).symm, hwhole⟩

variable {w w' u v : World κ σ}

/-- The device has shown some messages, the first of them have been sifted, and some of those that were ready
then have been offered. -/
theorem Sifts.reception (hsifts : Sifts seen' intakes ready completed) (hfront : seen' <+: seen)
    (hdescribed : ∀ m ∈ seen, ∃ record, Record.message record = .ok m) (hshows : Shows seen w u)
    (htaken : Moves ready (intakes.flatMap Intake.trace) [] u v) (hoffered : Moves [] [] passed v w')
    (hpassed : passed <+: ready) : Reception seen intakes ready passed w.history w'.history where
  described := hdescribed
  retrieved := by rw [hoffered.retrieved, htaken.retrieved, hshows.retrieved]
  dealings := by rw [hoffered.dealings, htaken.dealings, hshows.dealings, List.append_nil]
  offered := by rw [hoffered.offered, htaken.offered, hshows.offered, List.append_nil]
  passed := hpassed
  parts i hi := (hsifts.parts i hi).imp_left fun h => hfront.subset h
  singles := by
    rw [hsifts.singles]
    exact hfront.filter _
  composites := hsifts.composites
  once := hsifts.once

theorem Shows.reception (h : Shows [] w w') : Reception [] [] [] [] w.history w'.history :=
  sifts_nil.reception List.prefix_rfl (by simp) h (.refl w') (.refl w') List.prefix_rfl

/-- What is put together of parts has parts. -/
theorem Sifts.parts_ne_nil (h : Sifts seen intakes ready completed) {m : Message} (hm : m ∈ ready)
    (hpart : m.isPart = true) : m.parts ≠ [] := by
  have hwhole : m ∈ intakes.filterMap Intake.whole? := by
    rw [← h.composites]
    exact List.mem_filter.mpr ⟨hm, hpart⟩
  obtain ⟨i, hi, hwhole⟩ := List.mem_filterMap.mp hwhole
  exact (i.composite_whole? (h.parts i hi).2 hwhole).parts_ne_nil

/-- A reception that comes to a result has offered every message that was ready, and all single messages that
the device has shown are among these. -/
theorem ensures_receivePhase_reception {w : World κ σ} (hempty : w.queues.inbound = []) : Ensures E receivePhase w
    (fun _ w' => ∃ seen intakes ready, Reception seen intakes ready ready w.history w'.history ∧
      ready.filter (!·.isPart) = seen.filter (!·.isPart) ∧ w'.queues.inbound = [])
    (fun _ w' => ∃ seen intakes ready passed, Reception seen intakes ready passed w.history w'.history) := by
  unfold receivePhase
  refine Ensures.bind (P := fun output v => ((∀ records, output ≠ .list records) → Shows [] w v) ∧
    ∀ records, output = .list records → Shows (Record.messages records) w v) (ensures_modem ?_ ?_) ?_
  · intro cs s output _
    refine ⟨fun hne => shows_nothing cs s fun records heq => hne records (Except.ok.inj heq), ?_⟩
    intro records heq
    subst heq
    exact shows_records cs s records
  · intro cs s f _
    have hnothing : ∀ records, Except.error f ≠ .ok (Value.list records) := nofun
    exact ⟨[], [], [], [], (shows_nothing cs s hnothing).reception⟩
  · intro output u ⟨hnothing, hshown⟩
    refine ensures_settled_bind ?_ ?_
    · intro records hout
      obtain rfl : output = .list records := by
        unfold Record.ofOutput at hout
        split at hout <;> cases hout
        rfl
      have hshows := hshown records rfl
      have hdescribed : ∀ m ∈ Record.messages records, ∃ record, Record.message record = .ok m := by
        intro m hm
        obtain ⟨record, -, hrecord⟩ := Record.mem_messages.mp hm
        exact ⟨record, hrecord⟩
      refine (ensures_discard (P := fun _ v => ∃ completed, Sifted u (Record.messages records) completed v)
        ((ensures_receiveRecords_sifted records u).mono (fun completed v hv => ⟨completed, hv⟩) ?_)).bind ?_
      · intro _ v ⟨seen, completed, hfront, intakes, ready, hsifts, hmoves⟩
        exact ⟨_, intakes, ready, [], hsifts.reception hfront hdescribed hshows hmoves (.refl v) (List.nil_prefix)⟩
      · intro _ v ⟨completed, hv⟩
        have hdeliver : ∀ {v}, Sifted u (Record.messages records) completed v → Ensures E deliverPhase v
            (fun _ w' => ∃ seen intakes ready, Reception seen intakes ready ready w.history w'.history ∧
              ready.filter (!·.isPart) = seen.filter (!·.isPart) ∧ w'.queues.inbound = [])
            (fun _ w' => ∃ seen intakes ready passed, Reception seen intakes ready passed w.history w'.history) := by
          intro v ⟨intakes, ready, hsifts, hmoves⟩
          have hready : v.queues.inbound = ready := by rw [hmoves.inbound, hshows.inbound, hempty, List.nil_append]
          have hwhole : ∀ m ∈ v.queues.inbound, m.isPart = true → m.parts ≠ [] := by
            rw [hready]
            exact fun m => hsifts.parts_ne_nil
          refine (ensures_deliverPhase_offered hwhole).mono ?_ ?_
          · intro _ w' ⟨v', hv', heq⟩
            subst heq
            rw [hready] at hv'
            have hreception := hsifts.reception List.prefix_rfl hdescribed hshows hmoves hv' List.prefix_rfl
            exact ⟨_, intakes, ready, hreception, hsifts.singles, rfl⟩
          · intro _ w' ⟨passed, hpassed, hv'⟩
            rw [hready] at hpassed
            exact ⟨_, intakes, ready, passed,
              hsifts.reception List.prefix_rfl hdescribed hshows hmoves hv' hpassed⟩
        dsimp only
        split
        · exact ensures_queues_bind (ensures_log_bind (hdeliver (hv.moves (.logged (.refl v) _))))
        · exact hdeliver hv
    · intro f hf
      refine ⟨[], [], [], [], (hnothing ?_).reception⟩
      intro records heq
      subst heq
      cases hf

/-- Whatever the device shows, whatever the application does, and however a reception ends that has begun with
an empty queue: each message that it has offered is a single one that the device has shown, or it is complete
and has been put together from a part that the device has shown. What has been said about parts is what the
intakes say, one after the other: each part is put to the application and its group is asked for, at most
one message of each group is put together, and after that the group is not spoken of again. An answer that is
no collection of messages completes nothing, and one failure is told of the part. -/
theorem reception_complete {r : Except Fault Unit} (h : receivePhase.Runs E w r w') (hempty : w.queues.inbound = []) :
    ∃ (seen : List Message) (intakes : List Intake) (passed : List Message),
      retrieved w'.history = seen ++ retrieved w.history ∧
      dealings w'.history = dealings w.history ++ intakes.flatMap Intake.trace ∧
      offered w'.history = offered w.history ++ passed ∧
      (∀ m ∈ passed, (m ∈ seen ∧ m.total = 1 ∧ m.parts = []) ∨
        (m.Composite ∧ ∃ i ∈ intakes, i.part.key = m.key ∧ i.whole? = some m)) ∧
      (∀ i ∈ intakes, i.part ∈ seen ∧ i.part.isPart = true) ∧
      passed.filter (·.isPart) <+: intakes.filterMap Intake.whole? ∧
      ((intakes.filterMap Intake.whole?).map Message.key).Nodup ∧
      intakes.Pairwise (fun i j => i.whole?.isSome = true → j.part.key ≠ i.part.key) ∧
      ∀ m kept answer, Intake.returned m kept answer ∈ intakes → (∀ ms, ¬ answer.Collects ms) →
        (Intake.returned m kept answer).whole? = none ∧
        ∃ f, (Intake.returned m kept answer).trace (κ := κ) =
          [.request (.receiveSegment m) (.ok kept), .request (.returnSegments m.key) (.ok answer),
            .notice (.receiveError (.message m) f)] := by
  have hreception : ∃ seen intakes ready passed, Reception seen intakes ready passed w.history w'.history := by
    have hensures := ensures_receivePhase_reception (E := E) hempty
    cases r with
    | ok _ =>
      obtain ⟨seen, intakes, ready, hreception, -⟩ := hensures.result h
      exact ⟨seen, intakes, ready, ready, hreception⟩
    | error f => exact hensures.fault h
  obtain ⟨seen, intakes, ready, passed, hreception⟩ := hreception
  refine ⟨seen, intakes, passed, hreception.retrieved, hreception.dealings, hreception.offered, ?_, hreception.parts,
    ?_, nodup_key_whole? hreception.once, hreception.once, fun m kept answer _ => Intake.trace_returned⟩
  · exact fun m hm => hreception.of_mem_ready (hreception.passed.subset hm)
  · rw [← hreception.composites]
    exact hreception.passed.filter _

/-- One of two parts of a message. -/
private def duskPart (sender : String) (part place : Int) (text : String) : List (String × Value) :=
  [("from", .text sender), ("location", .int place), ("content", .text text), ("total-segments", .int 2),
    ("segment", .int part)]

/-- The device shows a part before and after the other part of its message, a single message, and a part of
another message. The application returns a part twice and one of another group with it, and for the other
message something that is no collection. -/
def duskReplies : Replies Unit Unit where
  modem _ _ _ := (.ok (.list [.object (duskPart "+1" 1 3 "du"), .object [("from", .text "+2"), ("location", .int 4)],
    .object (duskPart "+1" 2 5 "sk"), .object (duskPart "+1" 1 3 "du"), .object (duskPart "+3" 1 6 "no")]), [], ())
  request _ r :=
    (match r with
    | .returnSegments "+1-0-2" =>
      let first : Message := { sender := "+1", text := "du", location := 3, total := 2, part := 1 }
      .ok (.items [.message first, .message { first with sender := "+9" }, .message first])
    | .returnSegments _ => .ok .stream
    | _ => .ok .nothing, [], ())

theorem duskReplies_allowed : duskReplies.Allowed .free where
  modem _ _ _ := by simp [duskReplies, Surroundings.free]
  request _ r f := by
    simp only [duskReplies]
    split <;> simp
  notify _ _ := rfl
  callback _ _ _ _ := rfl

theorem reception_complete_dusk : ∃ w' : World Unit Unit, receivePhase.Runs .free { outside := () } (.ok ()) w' ∧
    (∃ (seen : List Message) (intakes : List Intake) (passed : List Message),
      dealings w'.history = intakes.flatMap Intake.trace ∧ offered w'.history = passed ∧
      ∀ m ∈ passed, (m ∈ seen ∧ m.total = 1 ∧ m.parts = []) ∨
        (m.Composite ∧ ∃ i ∈ intakes, i.part.key = m.key ∧ i.whole? = some m)) ∧
    (offered w'.history).map Message.text = ["", "dusk"] ∧ (dealings w'.history).length = 7 := by
  have h := Replies.runs_run duskReplies_allowed receivePhase { outside := () }
  refine ⟨_, h, ?_, by rfl, by rfl⟩
  obtain ⟨seen, intakes, passed, -, hdealings, hoffered, hcomplete, -⟩ := reception_complete h rfl
  exact ⟨seen, intakes, passed, hdealings, hoffered, hcomplete⟩

end

end Gateway

end SmsRelay
