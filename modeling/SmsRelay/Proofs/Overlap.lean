-- SUMMARY: Cycles that overlap: when messages are kept, and how two transmissions lose one.
import SmsRelay.Proofs.Conservation

/-!
# Overlapping cycles

Nothing keeps a cycle from starting while another one waits for the modem tool
or for a handler. As long as at most one of the cycles is at its transmission
no message gets lost. Two transmissions at once can take the same batch, and
the second to end then drops messages that nobody has sent.
-/

namespace SmsRelay.Gateway

open Phase

variable {κ σ : Type}

/-! ## Cycles underway -/

/-- Whether a cycle gives way to others until the question is answered. -/
def Ask.waits : Ask κ → Bool
  | .modem .. | .request _ => true
  | _ => false

/-- Whether a cycle that waits for the answer is at its transmission. -/
def Ask.transmits : Ask κ → Bool
  | .modem command _ => command = "send"
  | .request (.transmit ..) => true
  | _ => false

theorem Ask.waits_of_transmits {q : Ask κ} (h : q.transmits = true) : q.waits = true := by
  cases q with
  | modem command arguments => rfl
  | request r => rfl
  | _ => cases h

theorem Ask.transmits_of_waits {q : Ask κ} (hq : q.OfTransmission) (h : q.waits = true) : q.transmits = true := by
  cases q with
  | modem command arguments => exact decide_eq_true hq
  | request r =>
    cases r with
    | transmit m t => rfl
    | _ => cases hq
  | _ => cases h

theorem Ask.not_transmits {q : Ask κ} (hq : q.OffTransmission) : q.transmits = false := by
  cases q with
  | modem command arguments => exact decide_eq_false hq
  | request r =>
    cases r with
    | transmit m t => exact absurd rfl hq
    | _ => rfl
  | _ => rfl

/-- What is left of a cycle. -/
abbrev Course (κ : Type) := Flow (signature κ) (Except Fault CycleReport)

namespace Course

/-- The cycle waits for an answer, and is at its transmission. -/
def transmits : Course κ → Bool
  | .done _ => false
  | .ask q _ => Ask.transmits q

def isDone : Course κ → Bool
  | .done _ => true
  | .ask .. => false

/-- A cycle goes on, until it has to wait for an answer or is done. -/
def Advances (E : Surroundings κ σ) : Course κ → World κ σ → Course κ → World κ σ → Prop
  | .done a, w, c, w' => c = .done a ∧ w' = w
  | .ask q next, w, c, w' =>
    if Ask.waits q then c = .ask q next ∧ w' = w
    else ∃ r v, World.Answers E w q r v ∧ Advances E (next r) v c w'

end Course

/-- A gateway, and what is left of the cycles that have begun. -/
structure Traffic (κ σ : Type) where
  world : World κ σ
  courses : List (Course κ) := []

/-- What may happen next: a message is sent, a cycle begins, or one of the cycles that wait gets its answer. -/
inductive Traffic.Step (E : Surroundings κ σ) (config : Config) (t : Traffic κ σ) : Traffic κ σ → Prop where
  | send (c : SendCall κ) : Step E config t { t with world := t.world.send c }
  | begin {c : Course κ} {w : World κ σ} : Course.Advances E (runCycle config).run t.world c w →
      Step E config t ⟨w, c :: t.courses⟩
  | resume {q : Ask κ} {next : q.Answer → Course κ} {others : List (Course κ)} {r : q.Answer} {v w : World κ σ}
      {c : Course κ} : t.courses.Perm (.ask q next :: others) → World.Answers E t.world q r v →
      Course.Advances E (next r) v c w → Step E config t ⟨w, c :: others⟩

/-- The states that a gateway may come to while no more than `k` cycles are at their transmissions at once. -/
inductive Traffic.Meets (E : Surroundings κ σ) (config : Config) (k : Nat) (s : σ) : Traffic κ σ → Prop where
  | start : Meets E config k s { world := { outside := s } }
  | step {t t' : Traffic κ σ} : Meets E config k s t → Traffic.Step E config t t' →
      t'.courses.countP Course.transmits ≤ k → Meets E config k s t'

theorem Traffic.Meets.mono {E : Surroundings κ σ} {config : Config} {k n : Nat} {s : σ} {t : Traffic κ σ}
    (h : Traffic.Meets E config k s t) (hle : k ≤ n) : Traffic.Meets E config n s t := by
  induction h with
  | start => exact .start
  | step _ hstep hcount ih => exact .step ih hstep (Nat.le_trans hcount hle)

/-! ## One transmission at a time -/

section

variable {E : Surroundings κ σ} {i : Stage κ} {w w' : World κ σ} {c d : Course κ}

/-- The cycle is past its transmission. -/
def Course.Steady (c : Course κ) : Prop := Flow.Within (S := signature κ) Ask.OffTransmission c

/-- The cycle waits at a stage of its transmission. -/
def Course.Sends (E : Surroundings κ σ) (i : Stage κ) (c : Course κ) : Prop :=
  c.transmits = true ∧ ∃ (p : Flow (signature κ) (Except Fault (Option Fault))) (f : _ → Course κ),
    c = p.bind f ∧ p.Follows (World.Answers E) Owes (fun j _ => j = .idle) i ∧
    Flow.Within (S := signature κ) Ask.OfTransmission p ∧ ∀ a, (f a).Steady

theorem Course.Steady.not_transmits (hc : c.Steady) : c.transmits = false := by
  cases c with
  | done a => rfl
  | ask q next => exact Ask.not_transmits hc.1

/-- A cycle that is past its transmission leaves the transmission of another one alone. -/
theorem Course.Steady.advances (hc : c.Steady) (h : c.Advances E w d w') (hw : Owes i w) :
    d.Steady ∧ Owes i w' := by
  induction c generalizing w with
  | done a =>
    obtain ⟨rfl, rfl⟩ := h
    exact ⟨hc, hw⟩
  | ask q next ih =>
    unfold Course.Advances at h
    split at h
    · obtain ⟨rfl, rfl⟩ := h
      exact ⟨hc, hw⟩
    · obtain ⟨r, v, hans, h⟩ := h
      exact ih r (hc.2 r) h (owes_answers hc.1 hans hw)

/-- A cycle at its transmission comes to a later stage of it, or gets past it. -/
theorem advances_bind {p : Flow (signature κ) (Except Fault (Option Fault))} {f : _ → Course κ}
    (hp : p.Follows (World.Answers E) Owes (fun j _ => j = .idle) i)
    (hwithin : Flow.Within (S := signature κ) Ask.OfTransmission p) (hf : ∀ a, (f a).Steady) (hw : Owes i w)
    (h : Course.Advances E (p.bind f) w d w') :
    (d.Steady ∧ Owes .idle w') ∨ ∃ j, Owes j w' ∧ d.Sends E j := by
  induction p generalizing i w with
  | done a =>
    obtain rfl : i = .idle := hp
    exact .inl ((hf a).advances h hw)
  | ask q next ih =>
    by_cases hwaits : Ask.waits q = true
    · rw [Flow.ask_bind, Course.Advances, if_pos hwaits] at h
      obtain ⟨rfl, rfl⟩ := h
      have htransmits : Ask.transmits q = true := Ask.transmits_of_waits hwithin.1 hwaits
      exact .inr ⟨i, hw, htransmits, .ask q next, f, rfl, hp, hwithin, hf⟩
    · rw [Flow.ask_bind, Course.Advances, if_neg hwaits] at h
      obtain ⟨r, v, hans, h⟩ := h
      obtain ⟨j, hj, hnext⟩ := hp w r v hw hans
      exact ih r hnext (hwithin.2 r) hj h

/-! ## The beginning of a cycle -/

/-- What follows the transmission in a cycle. -/
def afterTransmission (config : Config) (transmit : Option Fault) : Phase κ CycleReport := do
  let receive ← runPhase "Receive" receivePhase
  let delete ← runPhase "Delete" (deletePhase config.deleteBatch)
  let report : CycleReport := { transmit, receive, delete }
  if !report.isClean then log .warning "core.gateway" "Polling cycle finished with errors"
  return report

theorem asks_runPhase {name : String} {p : Phase κ Unit} (hp : Asks Ask.OffTransmission p) :
    Asks Ask.OffTransmission (runPhase name p) := by
  unfold runPhase
  refine hp.guarded.bind fun a => ?_
  split
  · exact asks_pure _
  · exact (asks_log trivial).bind fun _ => asks_pure _

theorem asks_afterTransmission (config : Config) (transmit : Option Fault) :
    Asks Ask.OffTransmission (afterTransmission config transmit : Phase κ CycleReport) := by
  unfold afterTransmission
  refine (asks_runPhase asks_receivePhase).bind fun receive => ?_
  refine (asks_runPhase ((asks_deletePhase _).mono fun _ => Ask.OfDeletion.offTransmission)).bind fun delete => ?_
  dsimp only
  split
  · exact (asks_log trivial).bind fun _ => asks_pure _
  · exact asks_pure _

theorem steady_afterTransmission (config : Config) (a : Except Fault (Option Fault)) :
    Course.Steady (κ := κ) (ExceptT.bindCont (afterTransmission config) a) := by
  cases a with
  | ok transmit => exact asks_afterTransmission config transmit
  | error e => trivial

/-- A transmission that is reported on goes through the same stages. -/
theorem follows_runPhase (hE : E.Contained) (size : Value) :
    Flow.Follows (S := signature κ) (World.Answers E) Owes (fun j _ => j = .idle)
      (runPhase "Transmit" (transmitPhase size)).run .idle := by
  have hguarded : Flow.Follows (S := signature κ) (World.Answers E) Owes (fun j _ => j = .idle)
      (guarded (transmitPhase size)).run .idle := by
    apply Flow.Follows.bind (follows_transmitPhase hE)
    intro j a ha
    cases a with
    | ok u => exact ha
    | error e => exact ha
  apply Flow.Follows.bind hguarded
  intro j a hj
  cases a with
  | error e => exact hj
  | ok r =>
    cases r with
    | ok u => exact hj
    | error f =>
      intro w r w' hw heq
      subst heq
      exact ⟨j, Owes.note hw (by trivial), hj⟩

theorem within_runPhase (size : Value) :
    Flow.Within (S := signature κ) Ask.OfTransmission (runPhase "Transmit" (transmitPhase size) : Phase κ _).run := by
  have hasks : Asks Ask.OfTransmission (runPhase "Transmit" (transmitPhase size) : Phase κ _) := by
    unfold runPhase
    refine (asks_transmitPhase size).guarded.bind fun a => ?_
    split
    · exact asks_pure _
    · exact (asks_log trivial).bind fun _ => asks_pure _
  exact hasks

/-- A cycle that begins when no other is at its transmission. -/
theorem advances_runCycle (hE : E.Contained) {config : Config} (hw : Owes .idle w)
    (h : Course.Advances E (runCycle config).run w d w') :
    (d.Steady ∧ Owes .idle w') ∨ ∃ j, Owes j w' ∧ d.Sends E j :=
  advances_bind (follows_runPhase hE _) (within_runPhase _) (steady_afterTransmission config) hw h

/-- Until the flow has to wait it only looks at the queues and writes to the log; then it is at its
transmission. -/
def Opens {α : Type} : Flow (signature κ) α → Prop
  | .done _ => True
  | .ask q next => Ask.transmits q = true ∨ (((∃ e, q = .log e) ∨ q = .queues) ∧ ∀ r, Opens (next r))

theorem Opens.bind {α β : Type} {p : Flow (signature κ) α} {f : α → Flow (signature κ) β} (hp : Opens p)
    (hf : ∀ a, Opens (f a)) : Opens (p.bind f) := by
  induction p with
  | done a => exact hf a
  | ask q next ih => exact hp.imp_right fun h => ⟨h.1, fun r => ih r (h.2 r)⟩

theorem opens_transmitPhase (size : Value) : Opens (transmitPhase size : Phase κ Unit).run := by
  have hqueues : ∀ f : Queues κ → Phase κ Unit, (∀ q, Opens (f q).run) → Opens (queues >>= f).run :=
    fun f hf => .inr ⟨.inr rfl, hf⟩
  unfold transmitPhase
  apply hqueues
  intro q
  split
  · trivial
  · cases Config.batchCount size with
    | error e => trivial
    | ok n => exact .inl rfl

theorem opens_runPhase (size : Value) : Opens (runPhase "Transmit" (transmitPhase size) : Phase κ _).run := by
  apply Opens.bind
  · exact (opens_transmitPhase size).bind fun a => trivial
  · intro a
    cases a with
    | error e => trivial
    | ok r =>
      cases r with
      | ok u => trivial
      | error f => exact .inr ⟨.inl ⟨_, rfl⟩, fun _ => trivial⟩

/-- A cycle that begins when another one is at its transmission: it comes to its own, or gets past it at once. -/
theorem advances_runCycle_amid {p : Flow (signature κ) (Except Fault (Option Fault))} {f : _ → Course κ}
    (hp : Opens p) (hf : ∀ a, (f a).Steady) (hw : Owes i w) (h : Course.Advances E (p.bind f) w d w') :
    d.transmits = true ∨ (d.Steady ∧ Owes i w') := by
  induction p generalizing w with
  | done a => exact .inr ((hf a).advances h hw)
  | ask q next ih =>
    rcases hp with htransmits | ⟨hq, hnext⟩
    · rw [Flow.ask_bind, Course.Advances, if_pos (Ask.waits_of_transmits htransmits)] at h
      obtain ⟨rfl, rfl⟩ := h
      exact .inl htransmits
    · rcases hq with ⟨e, rfl⟩ | rfl
      · obtain ⟨r, v, rfl, h⟩ := h
        exact ih r (hnext r) (Owes.note hw (by trivial)) h
      · obtain ⟨r, v, ⟨rfl, rfl⟩, h⟩ := h
        exact ih _ (hnext _) hw h

/-! ## What all steps keep -/

/-- At most one of the cycles is at its transmission, and the ledger is at the stage of that one. -/
inductive Traffic.Orderly (E : Surroundings κ σ) (t : Traffic κ σ) : Prop where
  | idle : Owes .idle t.world → (∀ d ∈ t.courses, d.Steady) → Orderly E t
  | busy {i : Stage κ} {c : Course κ} {others : List (Course κ)} : t.courses.Perm (c :: others) →
      Owes i t.world → c.Sends E i → (∀ d ∈ others, d.Steady) → Orderly E t

namespace Traffic.Orderly

variable {t : Traffic κ σ} {others : List (Course κ)}

theorem send (ht : t.Orderly E) (call : SendCall κ) : Traffic.Orderly E { t with world := t.world.send call } := by
  cases ht with
  | idle howes hsteady => exact .idle (howes.send call) hsteady
  | busy hperm howes hsends hsteady => exact .busy hperm (howes.send call) hsends hsteady

theorem begin (hE : E.Contained) {config : Config} (ht : t.Orderly E)
    (h : Course.Advances E (runCycle config).run t.world d w')
    (hcount : (d :: t.courses).countP Course.transmits ≤ 1) : Traffic.Orderly E ⟨w', d :: t.courses⟩ := by
  cases ht with
  | idle howes hsteady =>
    rcases advances_runCycle hE howes h with ⟨hd, hw'⟩ | ⟨j, hw', hd⟩
    · exact .idle hw' (List.forall_mem_cons.mpr ⟨hd, hsteady⟩)
    · exact .busy (.refl _) hw' hd hsteady
  | @busy i c others hperm howes hsends hsteady =>
    have hamid : d.transmits = true ∨ (d.Steady ∧ Owes i w') :=
      advances_runCycle_amid (opens_runPhase _) (steady_afterTransmission config) howes h
    rcases hamid with hd | ⟨hd, hw'⟩
    · -- there would be two transmissions at once
      rw [List.countP_cons_of_pos hd, hperm.countP_eq, List.countP_cons_of_pos hsends.1] at hcount
      omega
    · have hswap : (d :: t.courses).Perm (c :: d :: others) := (hperm.cons d).trans (.swap _ _ _)
      exact .busy hswap hw' hsends (List.forall_mem_cons.mpr ⟨hd, hsteady⟩)

/-- The cycle that goes on is past its transmission. -/
theorem resume_steady {q : Ask κ} {next : q.Answer → Course κ} {r : q.Answer} {v : World κ σ} (hw : Owes i w)
    (hc : Course.Steady (.ask q next)) (hans : World.Answers E w q r v) (h : Course.Advances E (next r) v d w') :
    d.Steady ∧ Owes i w' := by
  have hv : Owes i v := owes_answers hc.1 hans hw
  exact Course.Steady.advances (hc.2 r) h hv

/-- The cycle that goes on is at its transmission. -/
theorem resume_sends {q : Ask κ} {next : q.Answer → Course κ} {r : q.Answer} {v : World κ σ} (hw : Owes i w)
    (hc : Course.Sends E i (.ask q next)) (hans : World.Answers E w q r v)
    (h : Course.Advances E (next r) v d w') :
    (d.Steady ∧ Owes .idle w') ∨ ∃ j, Owes j w' ∧ d.Sends E j := by
  obtain ⟨htransmits, p, f, heq, hp, hwithin, hf⟩ := hc
  cases p with
  | done a =>
    -- what follows the transmission is not at it
    have hsteady : Course.Steady (.ask q next) := heq ▸ hf a
    rw [hsteady.not_transmits] at htransmits
    contradiction
  | ask q' next' =>
    obtain ⟨rfl, rfl⟩ := Flow.ask.inj heq
    obtain ⟨j, hv, hnext⟩ := hp w r v hw hans
    exact advances_bind hnext (hwithin.2 r) hf hv h

theorem resume {q : Ask κ} {next : q.Answer → Course κ} {r : q.Answer} {v : World κ σ} (ht : t.Orderly E)
    (hperm : t.courses.Perm (.ask q next :: others)) (hans : World.Answers E t.world q r v)
    (h : Course.Advances E (next r) v d w') : Traffic.Orderly E ⟨w', d :: others⟩ := by
  cases ht with
  | idle howes hsteady =>
    have hall : ∀ e ∈ .ask q next :: others, e.Steady := fun e he => hsteady e (hperm.mem_iff.mpr he)
    obtain ⟨hd, hw'⟩ := resume_steady howes (hall _ List.mem_cons_self) hans h
    exact .idle hw' (List.forall_mem_cons.mpr ⟨hd, (List.forall_mem_cons.mp hall).2⟩)
  | @busy i c rest hperm' howes hsends hsteady =>
    have hboth : (.ask q next :: others).Perm (c :: rest) := hperm.symm.trans hperm'
    by_cases hc : .ask q next = c
    · -- the cycle at its transmission goes on
      obtain rfl := hc
      have hothers : ∀ e ∈ others, e.Steady := fun e he => hsteady e (hboth.cons_inv.mem_iff.mp he)
      rcases resume_sends howes hsends hans h with ⟨hd, hw'⟩ | ⟨j, hw', hd⟩
      · exact .idle hw' (List.forall_mem_cons.mpr ⟨hd, hothers⟩)
      · exact .busy (.refl _) hw' hd hothers
    · -- another one goes on
      have hmem : .ask q next ∈ rest := List.mem_of_ne_of_mem hc (hboth.mem_iff.mp List.mem_cons_self)
      obtain ⟨front, back, rfl⟩ := List.append_of_mem hmem
      obtain ⟨hd, hw'⟩ := resume_steady howes (hsteady _ hmem) hans h
      have hothers : others.Perm (c :: (front ++ back)) := by
        apply List.Perm.cons_inv (a := .ask q next)
        refine hboth.trans ((List.perm_middle.cons c).trans ?_)
        exact .swap _ _ _
      have hswap : (d :: others).Perm (c :: d :: (front ++ back)) := (hothers.cons d).trans (.swap _ _ _)
      refine .busy hswap hw' hsends (List.forall_mem_cons.mpr ⟨hd, ?_⟩)
      intro e he
      apply hsteady e
      exact List.perm_middle.mem_iff.mpr (List.mem_cons_of_mem _ he)

end Traffic.Orderly

/-- As long as at most one cycle is at its transmission the cycles stay in order. -/
theorem Traffic.Meets.orderly (hE : E.Contained) {config : Config} {s : σ} {t : Traffic κ σ}
    (h : Traffic.Meets E config 1 s t) : t.Orderly E := by
  induction h with
  | start => exact .idle (owes_start s) (by simp)
  | step _ hstep hcount ih =>
    cases hstep with
    | send c => exact ih.send c
    | begin hadvances => exact ih.begin hE hadvances hcount
    | resume hperm hans hadvances => exact ih.resume hperm hans hadvances

/-- Under free surroundings, as long as at most one cycle is at its transmission, each accepted message is
in the queue or has been announced once no cycle is underway, and what has been announced was reported. -/
theorem Traffic.Meets.accounted {config : Config} {k : Nat} {t : Traffic κ Unit}
    (h : Traffic.Meets .free config k () t) (hk : k ≤ 1) (hdone : ∀ c ∈ t.courses, c.isDone = true) :
    (accepted t.world.history).Perm (t.world.queues.outbound ++ announced t.world.history) ∧
      ∀ m ∈ announced t.world.history, ReportedSent t.world.history m := by
  cases (h.mono hk).orderly Surroundings.contained_free with
  | idle howes hsteady => exact ⟨howes.perm, howes.credits⟩
  | @busy i c others hperm howes hsends hsteady =>
    -- a cycle that is done is at no transmission
    have hc : c.isDone = true := hdone c (hperm.mem_iff.mpr List.mem_cons_self)
    have htransmits : c.transmits = true := hsends.1
    cases c with
    | done a => cases htransmits
    | ask q next => cases hc

/-! ## Two transmissions at once -/

namespace Course

/-- Let a cycle go on with replayed answers until it has to wait for one. -/
def advance (R : Replies κ σ) : Course κ → World κ σ → Course κ × World κ σ
  | .done a, w => (.done a, w)
  | .ask q next, w =>
    if Ask.waits q then (.ask q next, w)
    else advance R (next (R.answer q w).1) (R.answer q w).2

theorem advances_advance {R : Replies κ σ} (hR : R.Allowed E) (c : Course κ) (w : World κ σ) :
    c.Advances E w (c.advance R w).1 (c.advance R w).2 := by
  induction c generalizing w with
  | done a => exact ⟨rfl, rfl⟩
  | ask q next ih =>
    unfold Advances advance
    split
    · exact ⟨rfl, rfl⟩
    · exact ⟨(R.answer q w).1, (R.answer q w).2, R.answers_answer hR q w, ih _ _⟩

end Course

/-- The modem tool answers, but has nothing to report. -/
def Replies.vacant : Replies κ Unit where
  modem _ _ _ := (.ok (.list []), [], ())
  request _ _ := (.ok (.items []), [], ())

theorem Replies.vacant_allowed : (Replies.vacant (κ := κ)).Allowed .free where
  modem _ _ _ := by simp [vacant, Surroundings.free]
  request _ _ := by simp [vacant, Surroundings.free]
  notify _ _ := rfl
  callback _ _ _ _ := rfl

/-- A cycle to which the modem tool has nothing to report waits with its batch, puts it at the end of the
queue, waits at its reception, and is done. -/
theorem advance_vacant {config : Config} {n : Nat} (hsize : Config.batchCount config.transmitBatch = .ok n)
    {w : World κ Unit} (hw : w.queues.outbound ≠ []) :
    ∃ next, Course.advance .vacant (runCycle config).run w =
        (.ask (.modem "send" (Outbound.arguments (w.queues.outbound.take n))) next, w) ∧
      ∀ v, ∃ next' e, Course.advance .vacant (next (.ok (.list []))) v =
          (.ask (.modem "retrieve" []) next',
            (v.update (requeueOutbound (w.queues.outbound.take n) [])).note (.logged e)) ∧
        ∀ u : World κ Unit, u.queues.inbound = [] → u.queues.deletion = [] → ∃ report,
          Course.advance .vacant (next' (.ok (.list []))) u = (.done report, u) := by
  obtain ⟨⟨outbound, inbound, deletion⟩, outside, history⟩ := w
  cases outbound with
  | nil => exact absurd rfl hw
  | cons m rest =>
    unfold runCycle runPhase transmitPhase
    rw [hsize]
    refine ⟨_, rfl, fun v => ⟨_, _, rfl, ?_⟩⟩
    intro ⟨⟨outbound', inbound', deletion'⟩, outside', history'⟩ hinbound hdeletion
    obtain rfl : inbound' = [] := hinbound
    obtain rfl : deletion' = [] := hdeletion
    exact ⟨_, rfl⟩

/-- The modem tool has answered, and reported nothing. -/
def World.heard (command : String) (arguments : List String) (w : World κ Unit) : World κ Unit :=
  w.answered [] () fun q => .modem q command arguments (.ok (.list []))

/-- A batch has been handed to the modem tool, and has been put at the end of the queue. -/
def World.returned (batch : List (Outbound κ)) (e : Log.Entry) (w : World κ Unit) : World κ Unit :=
  ((w.heard "send" (Outbound.arguments batch)).update (requeueOutbound batch [])).note (.logged e)

section

variable {config : Config} {k : Nat} {t : Traffic κ Unit} {d : Course κ} {w : World κ Unit}

theorem Traffic.Meets.sendAll (h : Traffic.Meets .free config k () t) (hcount : t.courses.countP Course.transmits ≤ k)
    (cs : List (SendCall κ)) : Traffic.Meets .free config k () { t with world := t.world.sendAll cs } := by
  induction cs generalizing t with
  | nil => exact h
  | cons c cs ih =>
    have hsend : Traffic.Meets .free config k () { t with world := t.world.send c } := .step h (.send c) hcount
    exact ih hsend hcount

theorem Traffic.Meets.begin_vacant (h : Traffic.Meets .free config k () t)
    (hadvance : Course.advance .vacant (runCycle config).run t.world = (d, w))
    (hcount : (d :: t.courses).countP Course.transmits ≤ k) : Traffic.Meets .free config k () ⟨w, d :: t.courses⟩ := by
  have hadvances := Course.advances_advance Replies.vacant_allowed (runCycle config).run t.world
  rw [hadvance] at hadvances
  exact .step h (.begin hadvances) hcount

theorem Traffic.Meets.resume_vacant {command : String} {arguments : List String}
    {next : Except Fault Value → Course κ} {others : List (Course κ)} (h : Traffic.Meets .free config k () t)
    (hperm : t.courses.Perm (.ask (.modem command arguments) next :: others))
    (hadvance : Course.advance .vacant (next (.ok (.list []))) (t.world.heard command arguments) = (d, w))
    (hcount : (d :: others).countP Course.transmits ≤ k) : Traffic.Meets .free config k () ⟨w, d :: others⟩ := by
  have hans := Replies.answers_answer Replies.vacant_allowed (.modem command arguments) t.world
  have hadvances := Course.advances_advance Replies.vacant_allowed (next (.ok (.list [])))
    (t.world.heard command arguments)
  rw [hadvance] at hadvances
  exact .step h (.resume hperm hans hadvances) hcount

end

/-- Where the modem tool had nothing to report nothing is reported as sent. -/
theorem not_reportedSent {history : List (Occurrence κ)} (h : ∀ found command arguments output,
      .modem found command arguments (.ok output) ∈ history → output = .list []) (m : Outbound κ) :
    ¬ReportedSent history m := by
  intro ⟨batch, r, p, ⟨found, output, results, hmem, hresults, hr⟩, _⟩
  obtain rfl := h _ _ _ _ hmem
  have hnone : ([] : List TransmitResult) = results := Except.ok.inj hresults
  rw [← hnone] at hr
  cases hr

/-- Two cycles take the same batch, and hear nothing of it. The first puts it at the end of the queue, and
so the second takes other messages off the front. -/
theorem overlap_vacant {config : Config} {n : Nat} (hsize : Config.batchCount config.transmitBatch = .ok n)
    {w : World κ Unit} (h : Traffic.Meets .free config 2 () ⟨w, []⟩) (houtbound : w.queues.outbound ≠ [])
    (hinbound : w.queues.inbound = []) (hdeletion : w.queues.deletion = []) :
    ∃ t : Traffic κ Unit, Traffic.Meets .free config 2 () t ∧ (∀ c ∈ t.courses, c.isDone = true) ∧
      t.world.queues = requeueOutbound (w.queues.outbound.take n) []
        (requeueOutbound (w.queues.outbound.take n) [] w.queues) ∧
      accepted t.world.history = accepted w.history ∧
      ∀ found command arguments output, .modem found command arguments (.ok output) ∈ t.world.history →
        .modem found command arguments (.ok output) ∈ w.history ∨ output = .list [] := by
  obtain ⟨next, hbegin, hnext⟩ := advance_vacant hsize houtbound
  let batch := w.queues.outbound.take n
  -- both are at their transmissions
  have h₁ := h.begin_vacant hbegin (Nat.le_succ 1)
  have h₂ := h₁.begin_vacant hbegin (Nat.le_refl 2)
  -- both get past them
  obtain ⟨next₁, e₁, hpast₁, hdone₁⟩ := hnext (w.heard "send" (Outbound.arguments batch))
  have h₃ := h₂.resume_vacant (.refl _) hpast₁ (Nat.le_succ 1)
  obtain ⟨next₂, e₂, hpast₂, hdone₂⟩ := hnext ((w.returned batch e₁).heard "send" (Outbound.arguments batch))
  have h₄ := h₃.resume_vacant (.swap _ _ _) hpast₂ (Nat.zero_le 2)
  -- both come to their ends
  let v := (w.returned batch e₁).returned batch e₂
  obtain ⟨report₂, hend₂⟩ := hdone₂ (v.heard "retrieve" []) hinbound hdeletion
  have h₅ := h₄.resume_vacant (.refl _) hend₂ (Nat.zero_le 2)
  obtain ⟨report₁, hend₁⟩ := hdone₁ ((v.heard "retrieve" []).heard "retrieve" []) hinbound hdeletion
  have h₆ := h₅.resume_vacant (.swap _ _ _) hend₁ (Nat.zero_le 2)
  refine ⟨_, h₆, ?_, rfl, rfl, ?_⟩
  · intro c hc
    simp only [List.mem_cons, List.not_mem_nil, or_false] at hc
    rcases hc with rfl | rfl <;> rfl
  · intro found command arguments output hmem
    simp only [v, World.returned, World.heard, World.history_answered, World.history_note, World.history_update,
      World.sendAll_nil, List.mem_cons, Occurrence.modem.injEq, Except.ok.injEq, reduceCtorEq, false_or] at hmem
    rcases hmem with hmem | hmem | hmem | hmem | hmem
    · exact .inr hmem.2.2.2
    · exact .inr hmem.2.2.2
    · exact .inr hmem.2.2.2
    · exact .inr hmem.2.2.2
    · exact .inl hmem

/-- As many equal messages as a batch holds, and another one. -/
def crowd (n : Nat) : List (SendCall κ) :=
  List.replicate n { destination := .text "+1", text := .text "a" } ++ [{ destination := .text "+2", text := .text "b" }]

theorem messages_crowd (n : Nat) : ((crowd n : List (SendCall κ)).filterMap fun c => c.message.toOption) =
    List.replicate n { destination := "+1", text := "a" } ++ [{ destination := "+2", text := "b" }] := by
  have hfirst : SendCall.message (κ := κ) { destination := .text "+1", text := .text "a" } =
    .ok { destination := "+1", text := "a" } := rfl
  have hlast : SendCall.message (κ := κ) { destination := .text "+2", text := .text "b" } =
    .ok { destination := "+2", text := "b" } := rfl
  simp only [crowd, List.filterMap_append, List.filterMap_replicate, hfirst, hlast, Except.toOption,
    List.filterMap_cons, List.filterMap_nil]

/-- If the batch is put at the end of the queue twice, the message that did not fit into it is gone. -/
theorem requeue_twice {q : Queues κ} {n : Nat} {m last : Outbound κ} (hne : last ≠ m)
    (hq : q.outbound = List.replicate (n + 1) m ++ [last]) : last ∉ (requeueOutbound (q.outbound.take (n + 1)) []
      (requeueOutbound (q.outbound.take (n + 1)) [] q)).outbound := by
  have hbatch : q.outbound.take (n + 1) = List.replicate (n + 1) m := by
    rw [hq, List.take_left' List.length_replicate]
  have hrest : q.outbound.drop (n + 1) = [last] := by
    rw [hq, List.drop_left' List.length_replicate]
  simp only [requeueOutbound, hbatch, hrest, unsent_nil_right, List.length_replicate, List.singleton_append,
    List.drop_succ_cons]
  intro hmem
  rcases List.mem_append.mp hmem with hmem | hmem
  · exact hne (List.eq_of_mem_replicate (List.mem_of_mem_drop hmem))
  · exact hne (List.eq_of_mem_replicate hmem)

/-- With two transmissions at once a message may get lost. -/
theorem overlap_loses (config : Config) (b : Nat) : ∃ t : Traffic κ Unit,
    Traffic.Meets .free { config with transmitBatch := .int (b + 1) } 2 () t ∧ (∀ c ∈ t.courses, c.isDone = true) ∧
    ∃ m ∈ accepted t.world.history, m ∉ t.world.queues.outbound ∧ ¬ReportedSent t.world.history m := by
  let start : World κ Unit := { outside := () }
  have houtbound : (start.sendAll (crowd (b + 1))).queues.outbound =
      List.replicate (b + 1) { destination := "+1", text := "a" } ++ [{ destination := "+2", text := "b" }] := by
    rw [World.outbound_sendAll, messages_crowd]
    exact List.nil_append _
  have hmeets : Traffic.Meets .free { config with transmitBatch := .int (b + 1) } 2 ()
      ⟨start.sendAll (crowd (b + 1)), []⟩ := Traffic.Meets.start.sendAll (Nat.zero_le 2) _
  obtain ⟨t, h, hdone, hqueues, haccepted, hhistory⟩ := overlap_vacant (n := b + 1) rfl hmeets
    (by simp [houtbound]) (World.inbound_sendAll _ _) (World.deletion_sendAll _ _)
  refine ⟨t, h, hdone, { destination := "+2", text := "b" }, ?_, ?_, ?_⟩
  · rw [haccepted, accepted_sendAll, messages_crowd]
    simp
  · rw [hqueues]
    exact requeue_twice (by simp) houtbound
  · apply not_reportedSent
    intro found command arguments output hmem
    refine (hhistory _ _ _ _ hmem).resolve_left fun hmem => ?_
    rcases World.mem_history_sendAll hmem with hmem | ⟨m, hm⟩
    · cases hmem
    · cases hm

/-- A batch holds some messages at most. No message gets lost, however cycles and attempts to send meet, if
and only if no two of the cycles are at their transmissions at once. -/
theorem kept_iff_one_transmission (config : Config) (b k : Nat) :
    ((∀ t : Traffic κ Unit, Traffic.Meets .free { config with transmitBatch := .int (b + 1) } k () t →
        (∀ c ∈ t.courses, c.isDone = true) →
        (accepted t.world.history).Perm (t.world.queues.outbound ++ announced t.world.history) ∧
        ∀ m ∈ announced t.world.history, ReportedSent t.world.history m) ↔ k ≤ 1) ∧
    ((∀ t : Traffic κ Unit, Traffic.Meets .free { config with transmitBatch := .int (b + 1) } k () t →
        (∀ c ∈ t.courses, c.isDone = true) →
        ∀ m ∈ accepted t.world.history, m ∈ t.world.queues.outbound ∨ ReportedSent t.world.history m) ↔ k ≤ 1) := by
  have weaken : ∀ t : Traffic κ Unit,
      (accepted t.world.history).Perm (t.world.queues.outbound ++ announced t.world.history) ∧
        (∀ m ∈ announced t.world.history, ReportedSent t.world.history m) →
      ∀ m ∈ accepted t.world.history, m ∈ t.world.queues.outbound ∨ ReportedSent t.world.history m := by
    intro t ⟨hperm, hreported⟩ m hm
    have hor := List.mem_append.mp (hperm.mem_iff.mp hm)
    exact hor.imp_right (hreported m)
  have loses : (∀ t : Traffic κ Unit, Traffic.Meets .free { config with transmitBatch := .int (b + 1) } k () t →
      (∀ c ∈ t.courses, c.isDone = true) →
      ∀ m ∈ accepted t.world.history, m ∈ t.world.queues.outbound ∨ ReportedSent t.world.history m) → k ≤ 1 := by
    intro h
    by_contra hk
    obtain ⟨t, hmeets, hdone, m, hm, hqueue, hreported⟩ := overlap_loses (κ := κ) config b
    have hmeets' := hmeets.mono (show 2 ≤ k by omega)
    exact (h t hmeets' hdone m hm).elim hqueue hreported
  constructor
  · constructor
    · intro h
      exact loses fun t hmeets hdone => weaken t (h t hmeets hdone)
    · intro hk t hmeets hdone
      exact hmeets.accounted hk hdone
  · constructor
    · exact loses
    · intro hk t hmeets hdone
      exact weaken t (hmeets.accounted hk hdone)

end

end SmsRelay.Gateway
