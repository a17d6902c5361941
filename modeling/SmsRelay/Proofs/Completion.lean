-- SUMMARY: The faults with which a phase may end when nobody cancels it.
import SmsRelay.Proofs.Rows
import SmsRelay.Proofs.Scope

/-!
# Phases that complete

Which faults a phase may come to when nothing cancels it. What a phase says to
the application never makes it fail; all that does is the modem tool, its
output, and a batch size that is no number of entries.
-/

namespace SmsRelay

/-! ## Faults of readers -/

theorem Config.ordinary_batchCount (size : Value) : Ordinary (batchCount size) := by
  intro f h
  unfold batchCount at h
  split at h <;> cases h
  rfl

theorem TransmitResult.ordinary_ofOutput (output : Value) : Ordinary (ofOutput output) := by
  have hindex : ∀ v, Ordinary (readIndex v) := by
    intro v f h
    unfold readIndex at h
    split at h <;> cases h <;> rfl
  have hentry : ∀ entry, Ordinary (ofEntry entry) := by
    intro entry
    unfold ofEntry
    dsimp only
    split
    · split
      · exact ordinary_error rfl
      · exact (hindex _).bind fun _ => ordinary_ok _
    · exact ordinary_error rfl
  unfold ofOutput
  split
  · exact ordinary_mapM hentry _
  · exact ordinary_error rfl

theorem DeletionReport.ordinary_ofOutput (output : Value) : Ordinary (ofOutput output) := by
  unfold ofOutput
  split
  · split
    · exact ordinary_ok _
    · exact ordinary_error rfl
  · exact ordinary_error rfl

theorem Returned.ordinary_storedParts (key : String) (returned : Returned) : Ordinary (returned.storedParts key) := by
  have hparts : ∀ items : List Item, Ordinary (selectParts key items) := by
    intro items
    induction items with
    | nil => exact ordinary_ok []
    | cons item items ih =>
      cases item with
      | message m => exact ih.bind fun _ => ordinary_ok _
      | other v => exact ordinary_error rfl
  unfold storedParts
  split
  · exact ordinary_ok []
  · exact hparts _
  · exact hparts _
  · exact ordinary_error rfl

/-- Only an infinite number has no integer for the reason that it is infinite. -/
theorem Value.toInteger_eq_infinity {v : Value} (h : v.toInteger = .error .integerOfInfinity) :
    ∃ x negative, v = .float x ∧ Number.parts x = .infinite negative := by
  unfold toInteger at h
  split at h
  · cases h
  · cases h
  · rename_i x
    unfold integerOfFloat at h
    split at h <;> cases h
    exact ⟨x, _, rfl, ‹_›⟩
  · unfold Except.mapError at h
    split at h
    · rename_i f _
      cases f <;> cases h
    · cases h
  · cases h

namespace Record

theorem ordinary_ofOutput (output : Value) : Ordinary (ofOutput output) := by
  unfold ofOutput
  split
  · exact ordinary_ok _
  · exact ordinary_error rfl

/-- The fault of a record that stops the whole retrieval, if it is such a record. -/
def jam? (record : Value) : Option Fault :=
  match message record with
  | .ok _ => none
  | .error f => if isSkipped f then none else some f

theorem jam?_eq_some {record : Value} {f : Fault} :
    jam? record = some f ↔ message record = .error .integerOfInfinity ∧ f = .integerOfInfinity := by
  unfold jam?
  split
  · rename_i h
    simp [h]
  · rename_i g h
    cases g <;> simp [h, isSkipped, eq_comm]

theorem eq_of_findSome?_jam? {records : List Value} {f : Fault} (h : records.findSome? jam? = some f) :
    f = .integerOfInfinity := by
  obtain ⟨record, -, hrecord⟩ := List.exists_of_findSome?_eq_some h
  exact (jam?_eq_some.mp hrecord).2

/-! ## Records without infinite numbers -/

/-- No field holds an infinite number. -/
def NoInfinity (fields : List (String × Value)) : Prop :=
  ∀ name x negative, Value.field? fields name = some (.float x) → Number.parts x ≠ .infinite negative

section

variable {fields : List (String × Value)}

theorem NoInfinity.toInteger_ne (h : NoInfinity fields) {name : String} {v : Value}
    (hv : Value.field? fields name = some v) : v.toInteger ≠ .error .integerOfInfinity := by
  intro herror
  obtain ⟨x, negative, rfl, hx⟩ := Value.toInteger_eq_infinity herror
  exact h name x negative hv hx

theorem NoInfinity.readCount_ne (h : NoInfinity fields) {v : Option Value}
    (hv : ∀ u, v = some u → ∃ name, Value.field? fields name = some u) : readCount v ≠ .error .integerOfInfinity := by
  intro herror
  obtain ⟨x, negative, heq, hx⟩ := Value.toInteger_eq_infinity herror
  cases v with
  | none => cases heq
  | some u =>
    obtain ⟨name, hu⟩ := hv u rfl
    rw [Option.getD_some, Value.orElse] at heq
    split at heq
    · exact h name x negative (heq ▸ hu) hx
    · cases heq

theorem NoInfinity.readHead_ne (h : NoInfinity fields) : readHead fields ≠ .error .integerOfInfinity := by
  have hnamed : ∀ {name u}, Value.field? fields name = some u → ∃ name, Value.field? fields name = some u :=
    fun hu => ⟨_, hu⟩
  unfold readHead
  intro herror
  rcases bind_eq_error.mp herror with hsender | ⟨sender, -, herror⟩
  · unfold readSender at hsender
    split at hsender
    · cases hsender
    · split at hsender <;> cases hsender
    · cases hsender
  rcases bind_eq_error.mp herror with htotal | ⟨total, -, herror⟩
  · exact h.readCount_ne (fun u hu => (Option.or_eq_some_iff.mp hu).elim hnamed fun h => hnamed h.2) htotal
  rcases bind_eq_error.mp herror with hpart | ⟨part, -, herror⟩
  · exact h.readCount_ne (fun u => hnamed) hpart
  rcases bind_eq_error.mp herror with hlocation | ⟨location, -, herror⟩
  · unfold readLocation at hlocation
    split at hlocation
    · cases hlocation
    · exact h.toInteger_ne ‹_› hlocation
  · cases herror

theorem NoInfinity.readHeader_ne (h : NoInfinity fields) (name : String) :
    readHeader (Value.fieldOr fields name .null) ≠ .error .integerOfInfinity := by
  rw [Value.fieldOr]
  cases hv : Value.field? fields name with
  | none => exact nofun
  | some v =>
    intro herror
    unfold readHeader at herror
    split at herror
    · cases herror
    · cases herror
    · rw [Option.getD_some] at herror
      cases hinteger : v.toInteger with
      | ok n =>
        rw [hinteger] at herror
        cases herror
      | error f =>
        rw [hinteger] at herror
        cases herror
        exact h.toInteger_ne hv hinteger

/-- A record without infinite numbers does not stop a retrieval. -/
theorem message_ne_infinity (h : NoInfinity fields) : message (.object fields) ≠ .error .integerOfInfinity := by
  intro herror
  rw [message, read, readFields] at herror
  split at herror
  · rename_i f hf
    cases herror
    exact h.readHead_ne hf
  · cases hheader : readHeader (Value.fieldOr fields "udh" .null) with
    | ok header =>
      simp only [hheader] at herror
      cases herror
    | error f =>
      simp only [hheader] at herror
      cases herror
      exact h.readHeader_ne "udh" hheader

end

end Record

namespace Gateway.Phase

variable {κ σ : Type} {α β : Type} {E : Surroundings κ σ}

/-- The phase comes to a result, whatever the world is like. -/
def Completes (E : Surroundings κ σ) (p : Phase κ α) : Prop := ∀ w, Ensures E p w (fun _ _ => True) never

/-! ## Rules -/

theorem completes_pure (a : α) : Completes E (pure a) := fun _ => ensures_pure trivial

theorem Completes.bind {p : Phase κ α} {f : α → Phase κ β} (hp : Completes E p) (hf : ∀ a, Completes E (f a)) :
    Completes E (p >>= f) := fun w => (hp w).bind fun a v _ => hf a v

theorem completes_queues : Completes E (queues : Phase κ (Queues κ)) :=
  fun _ => ⟨fun _ => trivial, fun h => nomatch (runs_queues.mp h).1⟩

theorem completes_update (f : Queues κ → Queues κ) : Completes E (update f) := fun _ => ensures_update trivial

theorem completes_log (level : Log.Level) (source text : String) : Completes E (log level source text) :=
  fun _ => ensures_log trivial

theorem completes_attempt (hE : E.Contained) (r : Request κ) : Completes E (attempt r) :=
  fun _ => ensures_attempt hE fun _ _ _ _ => trivial

theorem completes_notify (hE : E.Contained) (n : Notice κ) : Completes E (notify n) :=
  fun _ => ensures_notify hE fun _ _ _ => trivial

theorem completes_callback (hE : E.Contained) (k : κ) (m : Outbound κ) (t : TransmitResult) :
    Completes E (callback k m t) := by
  intro w
  refine ⟨fun _ => trivial, fun h => ?_⟩
  obtain ⟨a, cs, s, heq, hs, -⟩ := runs_callback.mp h
  obtain rfl := hE.callback hs
  cases heq

theorem completes_foldlM {f : β → α → Phase κ β} (hf : ∀ b a, Completes E (f b a)) (xs : List α) (b : β) :
    Completes E (xs.foldlM f b) :=
  fun _ => ensures_foldlM (fun _ _ _ => True) trivial fun _ a b v _ _ => hf b a v

theorem completes_forM {f : α → Phase κ PUnit} (hf : ∀ a, Completes E (f a)) (xs : List α) : Completes E (xs.forM f) :=
  fun _ => ensures_forM (fun _ _ => True) trivial fun _ a v _ _ => hf a v

/-- A phase that completes keeps what none of its questions destroys. -/
theorem Completes.ensures {p : Phase κ α} (hp : Completes E p) {I : World κ σ → Prop} (hI : Keeps E I p)
    {w : World κ σ} (hw : I w) : Ensures E p w (fun _ => I) never :=
  ((hp w).and (hI w hw)).mono (fun _ _ h => h.2) fun _ _ h => h.1

/-! ## What is said to the application -/

theorem completes_announce (hE : E.Contained) (m : Outbound κ) (t : TransmitResult) : Completes E (announce m t) := by
  unfold announce
  extract_lets rest
  have hrest : ∀ u, Completes E (rest u) := by
    intro u
    refine (completes_attempt hE _).bind fun a => ?_
    cases a with
    | ok x => exact completes_pure _
    | error f => exact completes_notify hE _
  split
  · exact (completes_callback hE _ _ _).bind hrest
  · exact hrest ()

theorem completes_reconcile (hE : E.Contained) (batch : List (Outbound κ)) (sent : List Nat) (t : TransmitResult) :
    Completes E (reconcile batch sent t) := by
  have unexpected : ∀ {text : String}, Completes E (do log .warning "core.outbound" text; return sent) :=
    (completes_log _ _ _).bind fun _ => completes_pure _
  unfold reconcile
  dsimp only
  split
  · exact unexpected
  · split
    · exact unexpected
    · split
      · exact unexpected
      · split
        · exact (completes_announce hE _ _).bind fun _ => completes_pure _
        · exact (completes_notify hE _).bind fun _ => completes_pure _

/-- A part comes to a result or to a fault that can be reported, whatever the application returns. -/
theorem ensures_collectPart_ordinary (hE : E.Contained) (m : Message) (w : World κ σ) :
    Ensures E (collectPart m) w (fun _ _ => True) (fun f _ => f.isCancellation = false) := by
  have hrequest : ∀ r v, Ensures E (request r) v (fun _ _ => True) (fun f _ => f.isCancellation = false) :=
    fun r v => ensures_request (fun _ _ _ _ => trivial) fun _ _ _ hs => hE.request hs
  unfold collectPart
  refine (ensures_discard (P := fun _ _ => True) (hrequest _ w)).bind fun _ v _ => ?_
  refine (hrequest _ v).bind fun returned u _ => ?_
  exact ensures_settled_bind (fun _ _ => ensures_pure trivial) (returned.ordinary_storedParts m.key)

theorem completes_receivePart (hE : E.Contained) (completed : List String) (m : Message) :
    Completes E (receivePart completed m) := by
  intro w
  refine ensures_receivePart hE (fun _ _ => True) (fun _ _ _ _ => trivial) (fun _ _ _ _ _ _ => trivial)
    (fun _ => trivial) fun _ => ?_
  exact (ensures_collectPart_ordinary hE m w).mono (fun _ _ _ => ⟨fun _ => trivial, fun _ _ => trivial⟩)
    fun _ _ h => ⟨h, trivial⟩

/-- A record is taken in or skipped, unless it stops the retrieval. -/
theorem ensures_receiveRecord_jam (hE : E.Contained) (completed : List String) (record : Value) (w : World κ σ) :
    Ensures E (receiveRecord completed record) w (fun _ _ => Record.jam? record = none)
      (fun f _ => Record.jam? record = some f) := by
  unfold receiveRecord
  refine (ensures_readRecord (I := fun _ => True) (fun _ _ _ => trivial) trivial).bind fun a v ⟨ha, _⟩ => ?_
  subst ha
  cases hrecord : Record.message record with
  | ok m =>
    have hnone : Record.jam? record = none := by simp [Record.jam?, hrecord]
    dsimp only
    split
    · exact (completes_receivePart hE completed m v).mono (fun _ _ _ => hnone) nofun
    · exact ensures_update_bind (ensures_pure hnone)
  | error f =>
    dsimp only
    split
    · rename_i hf
      have hnone : Record.jam? record = none := by simp [Record.jam?, hrecord, hf]
      have hskip := (completes_notify hE (.receiveError (.other record) f)).bind fun _ => completes_pure completed
      exact ensures_log_bind ((hskip _).mono (fun _ _ _ => hnone) nofun)
    · rename_i hf
      exact ensures_throw (by simp [Record.jam?, hrecord, hf])

/-- Records are taken in up to the first that stops the retrieval. -/
theorem ensures_receiveRecords_jam (hE : E.Contained) (records : List Value) (completed : List String)
    (w : World κ σ) : Ensures E (records.foldlM receiveRecord completed) w
      (fun _ _ => records.findSome? Record.jam? = none) (fun f _ => records.findSome? Record.jam? = some f) := by
  refine ensures_foldlM (fun before _ _ => before.findSome? Record.jam? = none) rfl ?_
  intro before record b v hfront hbefore
  refine (ensures_receiveRecord_jam hE b record v).mono ?_ ?_
  · intro _ _ h
    simp [hbefore, h]
  · intro f _ h
    obtain ⟨rest, hrest⟩ := hfront
    rw [← hrest]
    simp [hbefore, h]

theorem completes_deliver (hE : E.Contained) (m : Message) : Completes E (deliver m : Phase κ Unit) := by
  unfold deliver
  refine (completes_attempt hE _).bind fun a => ?_
  split
  · exact completes_update _
  · exact completes_notify hE _
  · exact completes_log _ _ _

theorem completes_deliverPhase (hE : E.Contained) : Completes E (deliverPhase : Phase κ Unit) := by
  intro w
  unfold deliverPhase
  exact ensures_queues_bind (((completes_forM (completes_deliver hE) _).bind fun _ => completes_update _) w)

theorem completes_settle (hE : E.Contained) (report : DeletionReport) (failed : List Candidate) (c : Candidate) :
    Completes E (settle report failed c) := by
  unfold settle
  split
  · exact (completes_notify hE _).bind fun _ => completes_pure _
  · exact (completes_log _ _ _).bind fun _ => completes_pure _

end Gateway.Phase

end SmsRelay
