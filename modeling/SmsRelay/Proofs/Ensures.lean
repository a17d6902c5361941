-- SUMMARY: A logic of partial correctness for phases, with a rule for each question and each way of composition.
import SmsRelay.Proofs.Laws

/-!
# What a phase ensures

Statements about all executions of a phase from a world: what holds of its
result, and what holds if it ends with a fault. There is one rule for each
question, and one for each way of putting phases together. The rules for
questions to handlers are for surroundings that do not cancel.
-/

namespace SmsRelay.Gateway.Phase

variable {κ σ : Type} {α β : Type} {E : Surroundings κ σ} {w : World κ σ}

/-- However the phase runs from the world `w`: if it comes to a result, `P` holds of it and of the world
then, and if it comes to a fault, `J` does. -/
structure Ensures (E : Surroundings κ σ) (p : Phase κ α) (w : World κ σ) (P : α → World κ σ → Prop)
    (J : Fault → World κ σ → Prop) : Prop where
  result : ∀ {a w'}, Runs E p w (.ok a) w' → P a w'
  fault : ∀ {e w'}, Runs E p w (.error e) w' → J e w'

/-- No fault may come. -/
abbrev never : Fault → World κ σ → Prop := fun _ _ => False

/-! ## Rules -/

variable {P : α → World κ σ → Prop} {Q : β → World κ σ → Prop} {J : Fault → World κ σ → Prop}

theorem Ensures.mono {p : Phase κ α} {P' : α → World κ σ → Prop} {J' : Fault → World κ σ → Prop}
    (h : Ensures E p w P J) (hP : ∀ a v, P a v → P' a v) (hJ : ∀ e v, J e v → J' e v) : Ensures E p w P' J' :=
  ⟨fun hr => hP _ _ (h.result hr), fun hr => hJ _ _ (h.fault hr)⟩

theorem Ensures.and {p : Phase κ α} {P' : α → World κ σ → Prop} {J' : Fault → World κ σ → Prop}
    (h : Ensures E p w P J) (h' : Ensures E p w P' J') :
    Ensures E p w (fun a v => P a v ∧ P' a v) (fun e v => J e v ∧ J' e v) :=
  ⟨fun hr => ⟨h.result hr, h'.result hr⟩, fun hr => ⟨h.fault hr, h'.fault hr⟩⟩

theorem Ensures.bind {p : Phase κ α} {f : α → Phase κ β} (hp : Ensures E p w P J)
    (hf : ∀ a v, P a v → Ensures E (f a) v Q J) : Ensures E (p >>= f) w Q J := by
  constructor
  · intro b w' h
    rcases runs_bind.mp h with ⟨a, v, ha, h⟩ | ⟨e, he, -⟩
    · exact (hf a v (hp.result ha)).result h
    · cases he
  · intro e w' h
    rcases runs_bind.mp h with ⟨a, v, ha, h⟩ | ⟨e', he, h⟩
    · exact (hf a v (hp.result ha)).fault h
    · cases he
      exact hp.fault h

theorem ensures_pure {a : α} (h : P a w) : Ensures E (pure a) w P J := by
  constructor
  · intro b w' ⟨hb, heq⟩
    subst heq
    cases hb
    exact h
  · intro e w' ⟨he, _⟩
    cases he

theorem ensures_throw {f : Fault} (h : J f w) : Ensures E (throw f : Phase κ α) w P J := by
  constructor
  · intro b w' ⟨hb, _⟩
    cases hb
  · intro e w' ⟨he, heq⟩
    subst heq
    cases he
    exact h

theorem ensures_settled {a : Except Fault α} (hP : ∀ b, a = .ok b → P b w) (hJ : ∀ e, a = .error e → J e w) :
    Ensures E (settled a) w P J := by
  constructor
  · intro b w' ⟨heq, heq'⟩
    subst heq
    subst heq'
    exact hP b rfl
  · intro e w' ⟨heq, heq'⟩
    subst heq
    subst heq'
    exact hJ e rfl

theorem ensures_settled_bind {a : Except Fault α} {f : α → Phase κ β}
    (hQ : ∀ b, a = .ok b → Ensures E (f b) w Q J) (hJ : ∀ e, a = .error e → J e w) :
    Ensures E (settled a >>= f) w Q J := by
  refine (ensures_settled (P := fun b v => a = .ok b ∧ v = w) (fun b hb => ⟨hb, rfl⟩) hJ).bind ?_
  intro b v ⟨hb, heq⟩
  subst heq
  exact hQ b hb

theorem ensures_queues_bind {f : Queues κ → Phase κ β} (h : Ensures E (f w.queues) w Q J) :
    Ensures E (queues >>= f) w Q J :=
  ⟨fun hr => h.result (runs_queues_bind.mp hr), fun hr => h.fault (runs_queues_bind.mp hr)⟩

theorem ensures_update {g : Queues κ → Queues κ} {P : Unit → World κ σ → Prop} (h : P () (w.update g)) :
    Ensures E (update g) w P J := by
  constructor
  · intro u w' hr
    obtain ⟨-, rfl⟩ := runs_update.mp hr
    exact h
  · intro e w' hr
    cases (runs_update.mp hr).1

theorem ensures_log {level : Log.Level} {source text : String} {P : Unit → World κ σ → Prop}
    (h : P () (w.note (.logged ⟨level, source, text⟩))) : Ensures E (log level source text) w P J := by
  constructor
  · intro u w' hr
    obtain ⟨-, rfl⟩ := runs_log.mp hr
    exact h
  · intro e w' hr
    cases (runs_log.mp hr).1

theorem ensures_update_bind {g : Queues κ → Queues κ} {f : Unit → Phase κ β}
    (h : Ensures E (f ()) (w.update g) Q J) : Ensures E (update g >>= f) w Q J :=
  ⟨fun hr => h.result (runs_update_bind.mp hr), fun hr => h.fault (runs_update_bind.mp hr)⟩

theorem ensures_log_bind {level : Log.Level} {source text : String} {f : Unit → Phase κ β}
    (h : Ensures E (f ()) (w.note (.logged ⟨level, source, text⟩)) Q J) :
    Ensures E (log level source text >>= f) w Q J :=
  ⟨fun hr => h.result (runs_log_bind.mp hr), fun hr => h.fault (runs_log_bind.mp hr)⟩

theorem ensures_modem {command : String} {arguments : List String} {P : Value → World κ σ → Prop}
    (hP : ∀ cs s v, E.modem w.outside command arguments (.ok v) s →
      P v (w.answered cs s fun q => .modem q command arguments (.ok v)))
    (hJ : ∀ cs s e, E.modem w.outside command arguments (.error e) s →
      J e (w.answered cs s fun q => .modem q command arguments (.error e))) :
    Ensures E (modem command arguments) w P J := by
  constructor
  · intro v w' hr
    obtain ⟨cs, s, h, rfl⟩ := runs_modem.mp hr
    exact hP cs s v h
  · intro e w' hr
    obtain ⟨cs, s, h, rfl⟩ := runs_modem.mp hr
    exact hJ cs s e h

theorem ensures_request {q : Request κ} {P : Returned → World κ σ → Prop}
    (hP : ∀ cs s a, E.request w.outside q (.ok a) s → P a (w.answered cs s fun _ => .request q (.ok a)))
    (hJ : ∀ cs s e, E.request w.outside q (.error e) s → J e (w.answered cs s fun _ => .request q (.error e))) :
    Ensures E (request q) w P J := by
  constructor
  · intro v w' hr
    obtain ⟨cs, s, h, rfl⟩ := runs_request.mp hr
    exact hP cs s v h
  · intro e w' hr
    obtain ⟨cs, s, h, rfl⟩ := runs_request.mp hr
    exact hJ cs s e h

/-- Notice is taken, or cancels the phase. -/
theorem ensures_notify_or_cancelled {n : Notice κ} {P : Unit → World κ σ → Prop}
    (hP : ∀ cs s, E.notify w.outside n (.ok ()) s → P () (w.answered cs s fun _ => .notice n))
    (hJ : ∀ cs s c, E.notify w.outside n (.error c) s → J (.cancelled c.text) (w.answered cs s fun _ => .notice n)) :
    Ensures E (notify n) w P J := by
  constructor
  · intro u w' hr
    obtain ⟨a, cs, s, ha, hs, rfl⟩ := runs_notify.mp hr
    cases a with
    | ok u => exact hP cs s hs
    | error c => cases ha
  · intro e w' hr
    obtain ⟨a, cs, s, ha, hs, rfl⟩ := runs_notify.mp hr
    cases a with
    | ok u => cases ha
    | error c =>
      cases ha
      exact hJ cs s c hs

/-- A callback returns, or cancels the phase. -/
theorem ensures_callback_or_cancelled {k : κ} {m : Outbound κ} {t : TransmitResult} {P : Unit → World κ σ → Prop}
    (hP : ∀ cs s, E.callback w.outside k m t (.ok ()) s → P () (w.answered cs s fun _ => .callback k m t))
    (hJ : ∀ cs s c, E.callback w.outside k m t (.error c) s →
      J (.cancelled c.text) (w.answered cs s fun _ => .callback k m t)) :
    Ensures E (callback k m t) w P J := by
  constructor
  · intro u w' hr
    obtain ⟨a, cs, s, ha, hs, rfl⟩ := runs_callback.mp hr
    cases a with
    | ok u => exact hP cs s hs
    | error c => cases ha
  · intro e w' hr
    obtain ⟨a, cs, s, ha, hs, rfl⟩ := runs_callback.mp hr
    cases a with
    | ok u => cases ha
    | error c =>
      cases ha
      exact hJ cs s c hs

/-- What a guarded phase comes to: a cancellation gets through. -/
theorem ensures_guarded_or_cancelled {p : Phase κ α} {P : Except Fault α → World κ σ → Prop}
    (h : Ensures E p w (fun a v => P (.ok a) v) fun e v =>
      (e.isCancellation = false → P (.error e) v) ∧ (e.isCancellation = true → J e v)) :
    Ensures E (guarded p) w P J := by
  constructor
  · intro a w' hr
    rcases runs_guarded.mp hr with ⟨b, hb, hp, hf⟩ | ⟨f, hf, -⟩
    · cases hb
      cases a with
      | ok a => exact h.result hp
      | error e => exact (h.fault hp).1 (hf e rfl)
    · cases hf
  · intro e w' hr
    rcases runs_guarded.mp hr with ⟨b, hb, -⟩ | ⟨f, hf, hp, hcancelled⟩
    · cases hb
    · cases hf
      exact (h.fault hp).2 hcancelled

/-- What an attempt to put a request comes to: a cancellation gets through. -/
theorem ensures_attempt_or_cancelled {q : Request κ} {P : Except Fault Returned → World κ σ → Prop}
    (hP : ∀ cs s a, E.request w.outside q a s → (∀ f, a = .error f → f.isCancellation = false) →
      P a (w.answered cs s fun _ => .request q a))
    (hJ : ∀ cs s f, E.request w.outside q (.error f) s → f.isCancellation = true →
      J f (w.answered cs s fun _ => .request q (.error f))) :
    Ensures E (attempt q) w P J := by
  rw [attempt_eq]
  apply ensures_guarded_or_cancelled
  apply ensures_request
  · exact fun cs s a hs => hP cs s (.ok a) hs nofun
  · intro cs s f hs
    refine ⟨fun hf => hP cs s (.error f) hs ?_, hJ cs s f hs⟩
    intro g hg
    cases hg
    exact hf

/-- What a guarded phase comes to, when no fault of it is a cancellation. -/
theorem ensures_guarded {p : Phase κ α} {P : Except Fault α → World κ σ → Prop}
    (h : Ensures E p w (fun a v => P (.ok a) v) (fun e v => e.isCancellation = false ∧ P (.error e) v)) :
    Ensures E (guarded p) w P J := by
  refine ensures_guarded_or_cancelled (h.mono (fun _ _ => id) fun e v ⟨he, hv⟩ => ⟨fun _ => hv, fun hcancelled => ?_⟩)
  rw [he] at hcancelled
  cases hcancelled

theorem ensures_attempt (hE : E.Contained) {q : Request κ} {P : Except Fault Returned → World κ σ → Prop}
    (h : ∀ cs s a, E.request w.outside q a s → P a (w.answered cs s fun _ => .request q a)) :
    Ensures E (attempt q) w P J := by
  refine ensures_attempt_or_cancelled (fun cs s a hs _ => h cs s a hs) fun cs s f hs hcancelled => ?_
  rw [hE.request hs] at hcancelled
  cases hcancelled

theorem ensures_notify (hE : E.Contained) {n : Notice κ} {P : Unit → World κ σ → Prop}
    (h : ∀ cs s, E.notify w.outside n (.ok ()) s → P () (w.answered cs s fun _ => .notice n)) :
    Ensures E (notify n) w P J :=
  ensures_notify_or_cancelled h fun _ _ _ hs => nomatch hE.notify hs

theorem ensures_callback (hE : E.Contained) {k : κ} {m : Outbound κ} {t : TransmitResult} {P : Unit → World κ σ → Prop}
    (h : ∀ cs s, E.callback w.outside k m t (.ok ()) s → P () (w.answered cs s fun _ => .callback k m t)) :
    Ensures E (callback k m t) w P J :=
  ensures_callback_or_cancelled h fun _ _ _ hs => nomatch hE.callback hs

theorem ensures_discard {p : Phase κ α} {P : PUnit → World κ σ → Prop}
    (h : Ensures E p w (fun _ v => P .unit v) J) : Ensures E (discard p) w P J := by
  constructor
  · intro a w' hr
    rcases runs_discard.mp hr with ⟨b, -, hp⟩ | ⟨e, he, -⟩
    · exact h.result hp
    · cases he
  · intro e w' hr
    rcases runs_discard.mp hr with ⟨b, hb, -⟩ | ⟨e', he, hp⟩
    · cases hb
    · cases he
      exact h.fault hp

/-- What each turn of a loop carries on holds after the loop. The invariant may speak of the entries that
are done. -/
theorem ensures_foldlM {f : β → α → Phase κ β} (I : List α → β → World κ σ → Prop) {xs : List α} {b : β}
    (hI : I [] b w)
    (turn : ∀ before a b v, before ++ [a] <+: xs → I before b v → Ensures E (f b a) v (I (before ++ [a])) J) :
    Ensures E (xs.foldlM f b) w (I xs) J := by
  suffices H : ∀ ys before b w, before ++ ys = xs → I before b w → Ensures E (ys.foldlM f b) w (I xs) J from
    H xs [] b w rfl hI
  intro ys
  induction ys with
  | nil =>
    intro before b w heq hI
    subst heq
    rw [List.append_nil]
    exact ensures_pure hI
  | cons a ys ih =>
    intro before b w hxs hI
    rw [List.foldlM_cons]
    have ha : before ++ [a] <+: xs := ⟨ys, by simp [← hxs]⟩
    exact (turn before a b w ha hI).bind fun c v hv => ih (before ++ [a]) c v (by simp [← hxs]) hv

/-- A loop without a result carries on what each of its turns carries on. -/
theorem ensures_forM {f : α → Phase κ PUnit} (I : List α → World κ σ → Prop) {xs : List α} (hI : I [] w)
    (turn : ∀ before a v, before ++ [a] <+: xs → I before v →
      Ensures E (f a) v (fun _ v' => I (before ++ [a]) v') J) :
    Ensures E (xs.forM f) w (fun _ v => I xs v) J := by
  suffices H : ∀ ys before w, before ++ ys = xs → I before w →
      Ensures E (ys.forM f) w (fun _ v => I xs v) J from H xs [] w rfl hI
  intro ys
  induction ys with
  | nil =>
    intro before w heq hI
    subst heq
    rw [List.append_nil]
    exact ensures_pure hI
  | cons a ys ih =>
    intro before w hxs hI
    have ha : before ++ [a] <+: xs := ⟨ys, by simp [← hxs]⟩
    exact (turn before a w ha hI).bind fun _ v hv => ih (before ++ [a]) v (by simp [← hxs]) hv

/-! ## Reception -/

/-- To read a record is to find what it describes, and to write to the log at most. -/
theorem ensures_readRecord {I : World κ σ → Prop} (hI : ∀ e v, I v → I (v.note (.logged e))) {record : Value}
    (hw : I w) : Ensures E (readRecord record) w (fun a v => a = Record.message record ∧ I v) J := by
  unfold readRecord
  dsimp only
  split
  · exact ensures_log_bind (ensures_pure ⟨rfl, hI _ _ hw⟩)
  · exact ensures_pure ⟨rfl, hw⟩

/-- A part goes to the application, and comes back with what else is kept of its message. -/
theorem ensures_collectPart {m : Message} {Kept : World κ σ → Prop} {P : Option Message → World κ σ → Prop}
    (kept : ∀ cs s a, E.request w.outside (.receiveSegment m) (.ok a) s →
      Kept (w.answered cs s fun _ => .request (.receiveSegment m) (.ok a)))
    (unkept : ∀ cs s f, E.request w.outside (.receiveSegment m) (.error f) s →
      J f (w.answered cs s fun _ => .request (.receiveSegment m) (.error f)))
    (returned : ∀ v cs s a, Kept v → E.request v.outside (.returnSegments m.key) (.ok a) s →
      ∃ ms : List Message, a = .items (ms.map .message) ∧ P (m.reassemble (ms.filter (·.key = m.key)))
        (v.answered cs s fun _ => .request (.returnSegments m.key) (.ok a)))
    (unreturned : ∀ v cs s f, Kept v → E.request v.outside (.returnSegments m.key) (.error f) s →
      J f (v.answered cs s fun _ => .request (.returnSegments m.key) (.error f))) :
    Ensures E (collectPart m) w P J := by
  unfold collectPart
  refine Ensures.bind (P := fun _ => Kept) (ensures_discard (ensures_request kept unkept)) ?_
  intro _ v hv
  refine Ensures.bind (P := fun a u => ∃ ms : List Message, a = .items (ms.map .message) ∧
    P (m.reassemble (ms.filter (·.key = m.key))) u) (ensures_request ?_ ?_) ?_
  · exact fun cs s a hs => returned v cs s a hv hs
  · exact fun cs s f hs => unreturned v cs s f hv hs
  · intro a u ⟨ms, heq, hu⟩
    subst heq
    have hparts : (Returned.items (ms.map .message)).storedParts m.key = .ok (ms.filter (·.key = m.key)) :=
      Returned.selectParts_messages m.key ms
    rw [hparts]
    refine ensures_settled_bind ?_ nofun
    intro parts heq
    cases heq
    exact ensures_pure hu

/-- A part that is taken in adds nothing, or completes its message. -/
theorem ensures_receivePart (hE : E.Contained) (I : List String → World κ σ → Prop) {completed : List String}
    {m : Message} (logged : ∀ keys e v, I keys v → I keys (v.note (.logged e)))
    (refused : ∀ f v cs s, I completed v → E.notify v.outside (.receiveError (.message m) f) (.ok ()) s →
      I completed (v.answered cs s fun _ => .notice (.receiveError (.message m) f)))
    (passed : m.key ∈ completed → I completed w)
    (collected : m.key ∉ completed → Ensures E (collectPart m) w
      (fun a v => (a = none → I completed v) ∧
        ∀ whole, a = some whole → I (m.key :: completed) (v.update (enqueueInbound whole)))
      (fun f v => f.isCancellation = false ∧ I completed v)) :
    Ensures E (receivePart completed m) w I J := by
  unfold receivePart
  split
  · rename_i hkey
    exact ensures_pure (passed hkey)
  · rename_i hkey
    refine Ensures.bind (P := fun a v => (∀ f, a = .error f → I completed v) ∧ (a = .ok none → I completed v) ∧
      ∀ whole, a = .ok (some whole) → I (m.key :: completed) (v.update (enqueueInbound whole))) (ensures_guarded ?_) ?_
    · refine (collected hkey).mono ?_ ?_
      · intro a v ⟨hnone, hsome⟩
        refine ⟨nofun, fun ha => hnone (Except.ok.inj ha), fun whole ha => ?_⟩
        exact hsome whole (Except.ok.inj ha)
      · intro f v ⟨hf, hv⟩
        exact ⟨hf, fun _ _ => hv, nofun, nofun⟩
    · intro a v ⟨herror, hnone, hsome⟩
      split
      · refine ensures_log_bind ((ensures_notify hE (P := fun _ => I completed) ?_).bind fun _ u hu => ensures_pure hu)
        intro cs s hs
        exact refused _ _ cs s (logged _ _ v (herror _ rfl)) hs
      · exact ensures_pure (hnone rfl)
      · rename_i whole
        exact ensures_update_bind (ensures_log_bind (ensures_pure (logged _ _ _ (hsome whole rfl))))

/-- A message that is offered is accepted and may be erased, or stays. -/
theorem ensures_deliver (hE : E.Contained) {I : World κ σ → Prop} {m : Message}
    (logged : ∀ e v, I v → I (v.note (.logged e)))
    (noticed : ∀ f v cs s, I v → E.notify v.outside (.receiveError (.message m) f) (.ok ()) s →
      I (v.answered cs s fun _ => .notice (.receiveError (.message m) f)))
    (accepted : ∀ cs s x, E.request w.outside (.receive m) (.ok x) s →
      I ((w.answered cs s fun _ => .request (.receive m) (.ok x)).update (enqueueDeletion m)))
    (refused : ∀ cs s f, E.request w.outside (.receive m) (.error f) s →
      I (w.answered cs s fun _ => .request (.receive m) (.error f))) :
    Ensures E (deliver m) w (fun _ => I) J := by
  unfold deliver
  refine Ensures.bind (P := fun a v => (∀ x, a = .ok x → I (v.update (enqueueDeletion m))) ∧ ∀ f, a = .error f → I v)
    (ensures_attempt hE ?_) ?_
  · intro cs s a hs
    cases a with
    | ok x => exact ⟨fun _ _ => accepted cs s x hs, nofun⟩
    | error f => exact ⟨nofun, fun _ _ => refused cs s f hs⟩
  · intro a v ⟨haccepted, hrefused⟩
    split
    · exact ensures_update (haccepted _ rfl)
    · apply ensures_notify hE
      intro cs s hs
      exact noticed _ v cs s (hrefused _ rfl) hs
    · exact ensures_log (logged _ v (hrefused _ rfl))

/-- A retrieval shows nothing, or records that are taken in; then the messages that have been read are
delivered. -/
theorem ensures_receivePhase {I : World κ σ → Prop} (Shown : List Value → World κ σ → Prop) (Taken : World κ σ → Prop)
    (nothing : ∀ cs s output, (∀ records, output ≠ .ok (.list records)) → E.modem w.outside "retrieve" [] output s →
      I (w.answered cs s fun q => .modem q "retrieve" [] output))
    (shown : ∀ cs s records, E.modem w.outside "retrieve" [] (.ok (.list records)) s →
      Shown records (w.answered cs s fun q => .modem q "retrieve" [] (.ok (.list records))))
    (taken : ∀ records v, Shown records v →
      Ensures E (records.foldlM receiveRecord []) v (fun _ => Taken) (fun _ => I))
    (logged : ∀ e v, Taken v → Taken (v.note (.logged e)))
    (delivered : ∀ v, Taken v → Ensures E deliverPhase v (fun _ => I) (fun _ => I)) :
    Ensures E receivePhase w (fun _ => I) (fun _ => I) := by
  unfold receivePhase
  refine Ensures.bind (P := fun output v => ((∀ records, output ≠ .list records) → I v) ∧
    ∀ records, output = .list records → Shown records v) (ensures_modem ?_ ?_) ?_
  · intro cs s output hs
    refine ⟨fun hne => nothing cs s _ (fun records heq => hne records (Except.ok.inj heq)) hs, ?_⟩
    intro records heq
    subst heq
    exact shown cs s records hs
  · exact fun cs s f hs => nothing cs s _ nofun hs
  · intro output v ⟨hnothing, hshown⟩
    refine ensures_settled_bind ?_ ?_
    · intro records hout
      obtain rfl : output = .list records := by
        unfold Record.ofOutput at hout
        split at hout <;> cases hout
        rfl
      refine (ensures_discard (P := fun _ => Taken) (taken records v (hshown records rfl))).bind ?_
      intro _ u hu
      split
      · exact ensures_queues_bind (ensures_log_bind (delivered _ (logged _ u hu)))
      · exact delivered u hu
    · intro f hf
      apply hnothing
      intro records heq
      subst heq
      cases hf

/-! ## Deletions -/

/-- A candidate is confirmed, or stays. -/
theorem ensures_settle (hE : E.Contained) {report : DeletionReport} {failed : List Candidate} {c : Candidate}
    {P : List Candidate → World κ σ → Prop}
    (confirmed : report.confirms c.location = true → ∀ cs s, E.notify w.outside (.deleted c) (.ok ()) s →
      P failed (w.answered cs s fun _ => .notice (.deleted c)))
    (refused : report.confirms c.location = false → ∀ e, P (failed ++ [c]) (w.note (.logged e))) :
    Ensures E (settle report failed c) w P J := by
  unfold settle
  split
  · rename_i h
    refine (ensures_notify hE (P := fun _ => P failed) (confirmed h)).bind fun _ v hv => ?_
    exact ensures_pure hv
  · rename_i h
    exact ensures_log_bind (ensures_pure (refused (by simpa using h) _))

/-- A deletion erases nothing, or settles each candidate of a batch in turn. -/
theorem ensures_deletePhase (hE : E.Contained) {size : Value} {I : World κ σ → Prop}
    (Settling : DeletionReport → List Candidate → List Candidate → List Candidate → World κ σ → Prop)
    (logged : ∀ e v, I v → I (v.note (.logged e))) (hw : I w)
    (failed : ∀ n cs s output f, Config.batchCount size = .ok n → output >>= DeletionReport.ofOutput = .error f →
      E.modem w.outside "delete" (Candidate.arguments (w.queues.deletion.take n)) output s →
      I (w.answered cs s fun q => .modem q "delete" (Candidate.arguments (w.queues.deletion.take n)) output))
    (begun : ∀ n cs s output report, Config.batchCount size = .ok n →
      output >>= DeletionReport.ofOutput = .ok report →
      E.modem w.outside "delete" (Candidate.arguments (w.queues.deletion.take n)) output s →
      Settling report (w.queues.deletion.take n) [] []
        (w.answered cs s fun q => .modem q "delete" (Candidate.arguments (w.queues.deletion.take n)) output))
    (confirmed : ∀ report batch before c rest v cs s, before ++ [c] <+: batch → Settling report batch before rest v →
      report.confirms c.location = true → E.notify v.outside (.deleted c) (.ok ()) s →
      Settling report batch (before ++ [c]) rest (v.answered cs s fun _ => .notice (.deleted c)))
    (refused : ∀ report batch before c rest v e, before ++ [c] <+: batch → Settling report batch before rest v →
      report.confirms c.location = false →
      Settling report batch (before ++ [c]) (rest ++ [c]) (v.note (.logged e)))
    (settled : ∀ report n rest v, Config.batchCount size = .ok n →
      Settling report (w.queues.deletion.take n) (w.queues.deletion.take n) rest v →
      I (v.update (requeueDeletion (w.queues.deletion.take n) rest))) :
    Ensures E (deletePhase size) w (fun _ => I) (fun _ => I) := by
  unfold deletePhase
  apply ensures_queues_bind
  split
  · exact ensures_pure hw
  · refine ensures_settled_bind (fun n hn => ?_) fun _ _ => hw
    refine Ensures.bind (P := fun output v =>
      (∀ f, DeletionReport.ofOutput output = .error f → I v) ∧
      ∀ report, DeletionReport.ofOutput output = .ok report → Settling report (w.queues.deletion.take n) [] [] v)
      (ensures_modem ?_ ?_) ?_
    · intro cs s output hs
      exact ⟨fun f hf => failed n cs s _ f hn hf hs, fun report hr => begun n cs s _ report hn hr hs⟩
    · intro cs s f hs
      exact failed n cs s _ f hn rfl hs
    · intro output v ⟨hfailed, hbegun⟩
      refine ensures_settled_bind (fun report hr => ?_) hfailed
      refine (ensures_foldlM (fun before rest u => Settling report (w.queues.deletion.take n) before rest u)
        (hbegun report hr) ?_).bind ?_
      · intro before c rest u hfront hu
        refine ensures_settle hE ?_ ?_
        · intro hc cs s hs
          exact confirmed report _ before c rest u cs s hfront hu hc hs
        · intro hc e
          exact refused report _ before c rest u e hfront hu hc
      · intro rest u hu
        exact ensures_update_bind (ensures_queues_bind (ensures_log (logged _ _ (settled report n rest u hn hu))))

/-! ## Cycles -/

section

variable {I I' : World κ σ → Prop}

/-- What holds after a phase in any case holds after the phase is guarded. -/
theorem Ensures.guarded {p : Phase κ α} (hp : Ensures E p w (fun _ => I) (fun _ => I)) :
    Ensures E (guarded p) w (fun _ => I) (fun _ => I) :=
  ensures_guarded_or_cancelled (hp.mono (fun _ _ => id) fun _ _ hv => ⟨fun _ => hv, fun _ => hv⟩)

/-- What holds after a phase in any case holds after the phase is reported on. -/
theorem Ensures.runPhase (hI : ∀ e w, I w → I (w.note (.logged e))) {name : String} {p : Phase κ Unit}
    (hp : Ensures E p w (fun _ => I) (fun _ => I)) :
    Ensures E (runPhase name p) w (fun _ => I) (fun _ => I) := by
  unfold Gateway.runPhase
  refine hp.guarded.bind fun a v hv => ?_
  cases a with
  | ok u => exact ensures_pure hv
  | error f => exact ensures_log_bind (ensures_pure (hI _ v hv))

/-- A cycle leads from one invariant over another to a third, as its phases do. -/
theorem ensures_runCycle {I'' : World κ σ → Prop} (hI : ∀ e w, I w → I (w.note (.logged e)))
    (hI' : ∀ e w, I' w → I' (w.note (.logged e))) (hI'' : ∀ e w, I'' w → I'' (w.note (.logged e))) {config : Config}
    (transmit : Ensures E (transmitPhase config.transmitBatch) w (fun _ => I) (fun _ => I))
    (receive : ∀ v, I v → Ensures E receivePhase v (fun _ => I') (fun _ => I'))
    (delete : ∀ v, I' v → Ensures E (deletePhase config.deleteBatch) v (fun _ => I'') (fun _ => I'')) :
    Ensures E (runCycle config) w (fun _ => I'') (fun _ v => I v ∨ I' v ∨ I'' v) := by
  unfold runCycle
  refine ((transmit.runPhase hI).mono (fun _ _ => id) fun _ _ => .inl).bind fun t v hv => ?_
  refine (((receive v hv).runPhase hI').mono (fun _ _ => id) fun _ _ h => .inr (.inl h)).bind fun r v hv => ?_
  refine (((delete v hv).runPhase hI'').mono (fun _ _ => id) fun _ _ h => .inr (.inr h)).bind fun d v hv => ?_
  dsimp only
  split
  · exact ensures_log_bind (ensures_pure (hI'' _ v hv))
  · exact ensures_pure hv

end

/-! ## Invariants -/

/-- The phase keeps what holds of the world, whether it ends with a result or a fault. -/
def Keeps (E : Surroundings κ σ) (I : World κ σ → Prop) (p : Phase κ α) : Prop :=
  ∀ w, I w → Ensures E p w (fun _ => I) (fun _ => I)

section

variable {I : World κ σ → Prop}

theorem Keeps.discard {p : Phase κ α} (hp : Keeps E I p) : Keeps E I (discard p) :=
  fun w hw => ensures_discard (hp w hw)

/-- A cycle keeps what its phases keep. -/
theorem keeps_runCycle (hI : ∀ e w, I w → I (w.note (.logged e))) {config : Config}
    (transmit : Keeps E I (transmitPhase config.transmitBatch)) (receive : Keeps E I receivePhase)
    (delete : Keeps E I (deletePhase config.deleteBatch)) : Keeps E I (runCycle config) := by
  intro w hw
  refine (ensures_runCycle hI hI hI (transmit w hw) receive delete).mono (fun _ _ => id) ?_
  rintro _ v (h | h | h) <;> exact h

end

end SmsRelay.Gateway.Phase
