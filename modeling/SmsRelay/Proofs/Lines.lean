-- SUMMARY: Queues as lines that phases work through in batches; failed calls leave them as they are.
import Mathlib.Data.List.Infix
import SmsRelay.Proofs.Overlap
import SmsRelay.Proofs.Reconciliation

/-!
# Lines

Messages wait in line to be sent, and places to be erased. A phase works through
such a line in batches. It is not alone: while it waits others may add to the
line. A call of the modem tool that fails leaves nothing behind, nor does one
whose output is refused: the line is what others have made of it, and the
application has heard nothing.
-/

namespace SmsRelay.Gateway

open Phase

variable {κ σ α β γ : Type}

/-- A queue that is worked through in batches: how the modem tool is called for a batch, how its output is read, and
what is done then. -/
structure Line (κ α β : Type) where
  command : String
  arguments : List α → List String
  parse : Value → Except Fault β
  queue : Queues κ → List α
  settle : List α → β → Phase κ Unit

namespace Line

/-- Work through one batch of at most `size` entries. -/
def phase (L : Line κ α β) (size : Value) : Phase κ Unit :=
  workThrough L.command L.arguments L.parse size L.queue L.settle

/-- The calls of the modem tool for the line, the latest first. -/
def calls (L : Line κ α β) (history : List (Occurrence κ)) : List ToolCall :=
  (toolCalls history).filter (·.command = L.command)

/-- A call that fails, or whose output is refused. -/
def Fails (L : Line κ α β) (c : ToolCall) (f : Fault) : Prop := c.output >>= L.parse = .error f

end Line

/-- The messages to be sent. -/
def sending : Line κ (Outbound κ) (List TransmitResult) where
  command := "send"
  arguments := Outbound.arguments
  parse := TransmitResult.ofOutput
  queue := Queues.outbound
  settle := afterSending

/-- The places to be erased. -/
def erasing : Line κ Candidate DeletionReport where
  command := "delete"
  arguments := Candidate.arguments
  parse := DeletionReport.ofOutput
  queue := Queues.deletion
  settle := afterErasing

theorem phase_sending (size : Value) : (sending : Line κ _ _).phase size = transmitPhase size := rfl

theorem phase_erasing (size : Value) : (erasing : Line κ _ _).phase size = deletePhase size := rfl

/-! ## In company -/

section

variable {E : Surroundings κ σ} {others : World κ σ → World κ σ → Prop} {w w' : World κ σ}

/-- A question is answered. If the phase has to wait for that, others may have been at work before. -/
def World.AnswersAmid (others : World κ σ → World κ σ → Prop) (E : Surroundings κ σ) (w : World κ σ) (q : Ask κ)
    (r : q.Answer) (w' : World κ σ) : Prop :=
  ∃ v, (v = w ∨ q.waits = true ∧ others w v) ∧ World.Answers E v q r w'

/-- The phase may lead to the result or fault `r` in the world `w'` while others are at work. -/
def Phase.RunsAmid (others : World κ σ → World κ σ → Prop) (E : Surroundings κ σ) (p : Phase κ γ) (w : World κ σ)
    (r : Except Fault γ) (w' : World κ σ) : Prop :=
  Flow.Runs (S := signature κ) (World.AnswersAmid others E) p.run w r w'

/-- Others may also leave the phase alone. -/
theorem Phase.Runs.amid {p : Phase κ γ} {r : Except Fault γ} (h : p.Runs E w r w') : p.RunsAmid others E w r w' := by
  have hmatch : ∀ q : Ask κ, True → ∀ w v r w', w = v → World.Answers E w q r w' →
      ∃ v', World.AnswersAmid others E v q r v' ∧ w' = v' := by
    rintro q - w _ r w' rfl hans
    exact ⟨w', ⟨w, .inl rfl, hans⟩, rfl⟩
  obtain ⟨_, hruns, rfl⟩ := Flow.Within.matched (S := signature κ) (Flow.within_true p.run) hmatch rfl h
  exact hruns

/-- Where there are no others a phase runs alone. -/
theorem Phase.RunsAmid.alone {p : Phase κ γ} {r : Except Fault γ} (h : p.RunsAmid (fun _ _ => False) E w r w') :
    p.Runs E w r w' := by
  have hmatch : ∀ q : Ask κ, True → ∀ w v r w', w = v → World.AnswersAmid (fun _ _ => False) E w q r w' →
      ∃ v', World.Answers E v q r v' ∧ w' = v' := by
    rintro q - w _ r w' rfl ⟨v, rfl | ⟨-, hfalse⟩, hans⟩
    · exact ⟨w', hans, rfl⟩
    · exact hfalse.elim
  obtain ⟨_, hruns, rfl⟩ := Flow.Within.matched (S := signature κ) (Flow.within_true p.run) hmatch rfl h
  exact hruns

/-- A phase goes through its stages in company as well, if others change none of them. -/
theorem Phase.Follows.runsAmid {ι : Type} {I : ι → World κ σ → Prop} {p : Phase κ γ} {i : ι} {P : ι → γ → Prop}
    {J : ι → Fault → Prop} (hp : Follows E I p i P J) (hothers : ∀ i w v, others w v → I i w → I i v) (hw : I i w)
    {r : Except Fault γ} (h : p.RunsAmid others E w r w') : ∃ j, I j w' ∧ Ends P J j r := by
  refine Flow.Follows.runs (S := signature κ) (Flow.Follows.of_answers hp ?_) hw h
  rintro i w q r w' hw ⟨v, heq | ⟨-, hv⟩, hans⟩
  · exact ⟨v, heq ▸ hw, hans⟩
  · exact ⟨v, hothers i w v hv hw, hans⟩

end

namespace Line

variable {L : Line κ α β} {E : Surroundings κ σ} {others : World κ σ → World κ σ → Prop} {w v w' : World κ σ}

/-- Others have been at work: they may have added to the line, and have made no call for it. -/
structure Joined (L : Line κ α β) (w v : World κ σ) : Prop where
  added : L.queue w.queues <+: L.queue v.queues
  calls : L.calls v.history = L.calls w.history

theorem Joined.refl (L : Line κ α β) (w : World κ σ) : L.Joined w w := ⟨List.prefix_rfl, rfl⟩

theorem joined_of_eq_or (hothers : ∀ w v, others w v → L.Joined w v) (h : v = w ∨ others w v) : L.Joined w v := by
  rcases h with rfl | h
  · exact .refl L v
  · exact hothers w v h

theorem calls_called (L : Line κ α β) (cs : List (SendCall κ)) (s : σ) (arguments : List String)
    (output : Except Fault Value) (w : World κ σ) :
    L.calls (w.answered cs s fun q => .modem q L.command arguments output).history =
      ⟨L.command, arguments, output⟩ :: L.calls w.history := by
  rw [calls, toolCalls_called, List.filter_cons_of_pos (by simp), calls]

/-- A phase that does not concern the modem tool adds no call. -/
theorem calls_runsAmid (hothers : ∀ w v, others w v → L.Joined w v) {p : Phase κ γ} (hp : Asks Ask.OffTool p)
    {r : Except Fault γ} (h : p.RunsAmid others E w r w') : L.calls w'.history = L.calls w.history := by
  refine Flow.Within.keeps (S := signature κ) (I := fun v => L.calls v.history = L.calls w.history) hp ?_ h rfl
  intro q hq u r u' ⟨v, hv, hans⟩ hu
  have hjoined := joined_of_eq_or hothers (hv.imp_right (·.2))
  rw [calls, toolCalls_answers hq hans, ← calls, hjoined.calls, hu]

/-! ## The course of a phase -/

/-- What a phase comes to that works through a line. If the line is empty, or the size is no number of entries,
nothing happens; or else it makes a call for a batch from the front, and if that fails so does the phase. -/
inductive Turn (L : Line κ α β) (others : World κ σ → World κ σ → Prop) (E : Surroundings κ σ) (size : Value)
    (w : World κ σ) : Except Fault Unit → World κ σ → Prop where
  | idle : L.queue w.queues = [] → Turn L others E size w (.ok ()) w
  | unsized {f : Fault} : Config.batchCount size = .error f → Turn L others E size w (.error f) w
  | failed {n : Nat} {v : World κ σ} {cs : List (SendCall κ)} {s : σ} {output : Except Fault Value} {f : Fault} :
      L.queue w.queues ≠ [] → Config.batchCount size = .ok n → (v = w ∨ others w v) → output >>= L.parse = .error f →
      Turn L others E size w (.error f)
        (v.answered cs s fun q => .modem q L.command (L.arguments ((L.queue w.queues).take n)) output)
  | settled {n : Nat} {v : World κ σ} {cs : List (SendCall κ)} {s : σ} {output : Except Fault Value} {b : β}
      {r : Except Fault Unit} {w' : World κ σ} :
      L.queue w.queues ≠ [] → Config.batchCount size = .ok n → (v = w ∨ others w v) → output >>= L.parse = .ok b →
      (L.settle ((L.queue w.queues).take n) b).RunsAmid others E
        (v.answered cs s fun q => .modem q L.command (L.arguments ((L.queue w.queues).take n)) output) r w' →
      Turn L others E size w r w'

/-- The questions of a phase that works through a line, in order. -/
theorem run_phase (L : Line κ α β) (size : Value) : (L.phase size).run =
    Flow.ask (S := signature κ) .queues fun q : Queues κ =>
      if L.queue q = [] then Flow.done (.ok ())
      else match Config.batchCount size with
        | .error f => Flow.done (.error f)
        | .ok n => Flow.ask (S := signature κ) (.modem L.command (L.arguments ((L.queue q).take n)))
            fun output : Except Fault Value =>
              match output >>= L.parse with
              | .error f => Flow.done (.error f)
              | .ok b => (L.settle ((L.queue q).take n) b).run := by
  refine congrArg (Flow.ask (S := signature κ) .queues) (funext fun q => ?_)
  change ExceptT.run (if (L.queue q).isEmpty then pure () else _) = _
  simp only [List.isEmpty_iff]
  split
  · rfl
  · cases Config.batchCount size with
    | error f => rfl
    | ok n =>
      refine congrArg (Flow.ask (S := signature κ) _) (funext fun output => ?_)
      cases output with
      | error f => rfl
      | ok output =>
        change ExceptT.run (settled (L.parse output) >>= L.settle _) = match L.parse output with
          | .error f => _
          | .ok b => _
        cases L.parse output <;> rfl

theorem turn_of_runsAmid {size : Value} {r : Except Fault Unit} (h : (L.phase size).RunsAmid others E w r w') :
    L.Turn others E size w r w' := by
  rw [RunsAmid, run_phase] at h
  obtain ⟨q, v, ⟨u, hu, rfl, rfl⟩, h⟩ := h
  obtain rfl : v = w := hu.resolve_right nofun
  beta_reduce at h
  split at h
  · rename_i hempty
    obtain ⟨rfl, rfl⟩ := h
    exact .idle hempty
  · rename_i hne
    split at h
    · rename_i f hf
      obtain ⟨rfl, rfl⟩ := h
      exact .unsized hf
    · rename_i n hn
      obtain ⟨output, _, ⟨u, hu, cs, s, -, rfl⟩, h⟩ := h
      beta_reduce at h
      split at h
      · rename_i f hf
        obtain ⟨rfl, rfl⟩ := h
        exact .failed hne hn (hu.imp_right (·.2)) hf
      · rename_i b hb
        exact .settled hne hn (hu.imp_right (·.2)) hb h

end Line

/-! ## What the lines have in common -/

section

variable {ι : Type} {E : Surroundings κ σ} {I : ι → World κ σ → Prop} {i : ι} {J : ι → Fault → Prop}

/-- The stage lasts whatever is written to the log, and whatever handlers come to. -/
structure Lasts (I : ι → World κ σ → Prop) (i : ι) : Prop where
  logged (w : World κ σ) (e : Log.Entry) : I i w → I i (w.note (.logged e))
  answered (w : World κ σ) (cs : List (SendCall κ)) (s : σ) (o : Occurrence κ) :
    I i w → I i (w.answered cs s fun _ => o)

theorem Lasts.announce (hI : Lasts I i) (hE : E.Contained) (m : Outbound κ) (r : TransmitResult) :
    Follows E I (Gateway.announce m r) i (fun j _ => j = i) J := by
  unfold Gateway.announce
  extract_lets rest
  have hrest : ∀ u, Follows E I (rest u) i (fun j _ => j = i) J := by
    intro u
    refine (follows_attempt hE (P := fun j _ => j = i) fun w cs s a hw _ => ⟨i, hI.answered w cs s _ hw, rfl⟩).bind ?_
    rintro j a rfl
    cases a with
    | ok a => exact follows_pure rfl
    | error f => exact follows_notify hE fun w cs s hw _ => ⟨j, hI.answered w cs s _ hw, rfl⟩
  split
  · refine (follows_callback hE (P := fun j _ => j = i) fun w cs s hw _ => ⟨i, hI.answered w cs s _ hw, rfl⟩).bind ?_
    rintro j u rfl
    exact hrest u
  · exact hrest ()

theorem Lasts.reconcile (hI : Lasts I i) (hE : E.Contained) (batch : List (Outbound κ)) (sent : List Nat)
    (r : TransmitResult) : Follows E I (Gateway.reconcile batch sent r) i (fun j _ => j = i) J := by
  have unexpected : ∀ {text : String},
      Follows E I (do log .warning "core.outbound" text; return sent) i (fun j _ => j = i) J := by
    refine (follows_log (P := fun j _ => j = i) fun w e hw => ⟨i, hI.logged w e hw, rfl⟩).bind ?_
    exact fun j _ hj => follows_pure hj
  unfold Gateway.reconcile
  dsimp only
  split
  · exact unexpected
  · split
    · exact unexpected
    · split
      · exact unexpected
      · split
        · exact (hI.announce hE _ _).bind fun j _ hj => follows_pure hj
        · refine (follows_notify hE (P := fun j _ => j = i) fun w cs s hw _ => ⟨i, ?_, rfl⟩).bind ?_
          · exact hI.answered w cs s _ hw
          · exact fun j _ hj => follows_pure hj

theorem Lasts.settle (hI : Lasts I i) (hE : E.Contained) (report : DeletionReport) (failed : List Candidate)
    (c : Candidate) : Follows E I (Gateway.settle report failed c) i (fun j _ => j = i) J := by
  unfold Gateway.settle
  split
  · refine (follows_notify hE (P := fun j _ => j = i) fun w cs s hw _ => ⟨i, hI.answered w cs s _ hw, rfl⟩).bind ?_
    exact fun j _ hj => follows_pure hj
  · refine (follows_log (P := fun j _ => j = i) fun w e hw => ⟨i, hI.logged w e hw, rfl⟩).bind ?_
    exact fun j _ hj => follows_pure hj

end

namespace Line

variable {L : Line κ α β} {E : Surroundings κ σ} {w v u w' : World κ σ}

/-- The first `k` entries have been taken off the line. All others have moved up, in their order, and more may stand
behind them. -/
def Advanced (L : Line κ α β) (w : World κ σ) (k : Nat) (v : World κ σ) : Prop :=
  (L.queue w.queues).drop k <+: L.queue v.queues

theorem Advanced.start (L : Line κ α β) (w : World κ σ) : L.Advanced w 0 w := List.prefix_rfl

theorem Advanced.join {k : Nat} (h : L.Advanced w k v) (hv : L.queue v.queues <+: L.queue w'.queues) :
    L.Advanced w k w' := List.IsPrefix.trans h hv

theorem Advanced.trans {j k : Nat} (h : L.Advanced w j v) (h' : L.Advanced v k w') : L.Advanced w (j + k) w' := by
  unfold Advanced at h h' ⊢
  rw [← List.drop_drop]
  exact (List.IsPrefix.drop h k).trans h'

/-- A batch is taken off the line, and some of it put at the end. -/
theorem Advanced.requeue (h : L.Advanced w 0 v) {g : Queues κ → Queues κ} {k : Nat} {left : List α}
    (hg : L.queue (g v.queues) = (L.queue v.queues).drop k ++ left) : L.Advanced w k (v.update g) := by
  have hmoved : L.Advanced v k (v.update g) := by
    unfold Advanced
    rw [World.queues_update, hg]
    exact List.prefix_append _ _
  simpa using h.trans hmoved

/-- Sending only adds to the line. -/
def GrowsBySending (L : Line κ α β) (σ : Type) : Prop :=
  ∀ (c : SendCall κ) (w : World κ σ), L.queue w.queues <+: L.queue (w.send c).queues

theorem GrowsBySending.sendAll (hL : L.GrowsBySending σ) (cs : List (SendCall κ)) (w : World κ σ) :
    L.queue w.queues <+: L.queue (w.sendAll cs).queues :=
  World.sendAll_keeps (I := fun v => L.queue w.queues <+: L.queue v.queues) (fun c v hv => hv.trans (hL c v)) cs
    List.prefix_rfl

theorem GrowsBySending.lasts (hL : L.GrowsBySending σ) (w : World κ σ) (k : Nat) : Lasts (L.Advanced w) k where
  logged _ _ hv := hv
  answered v cs _ _ hv := Advanced.join hv (hL.sendAll cs v)

/-- What the lines have in common: sending only adds to the line; and to settle a batch is to take its entries off the
line, without another call of the modem tool. Nothing but a cancellation gets in the way of that. -/
structure Lawful (L : Line κ α β) (σ : Type) : Prop where
  grows : L.GrowsBySending σ
  asks (batch : List α) (b : β) : Asks Ask.OffTool (L.settle batch b)
  settle {E : Surroundings κ σ} (hE : E.Contained) (batch : List α) (b : β) (w : World κ σ) :
    Follows E (L.Advanced w) (L.settle batch b) 0 (fun k _ => k = batch.length) (fun _ _ => False)

end Line

theorem lawful_sending : (sending : Line κ _ _).Lawful σ := by
  have hgrows : (sending : Line κ _ _).GrowsBySending σ := by
    intro c w
    exact ⟨_, (World.outbound_sendAll [c] w).symm⟩
  refine ⟨hgrows, asks_afterSending, fun {E} hE batch results w => ?_⟩
  change Follows E _ (afterSending batch results) 0 _ _
  unfold afterSending
  refine (follows_foldlM (Q := fun k _ => k = 0) rfl ?_).bind ?_
  · rintro r - k sent rfl
    exact (hgrows.lasts w _).reconcile hE batch sent r
  · rintro k sent rfl
    refine (follows_update (P := fun k _ => k = batch.length) fun v hv => ⟨_, hv.requeue rfl, rfl⟩).bind ?_
    rintro k u rfl
    exact follows_queues_bind fun v hv => ⟨_, hv, follows_log fun v e hv => ⟨_, hv, rfl⟩⟩

theorem lawful_erasing : (erasing : Line κ _ _).Lawful σ := by
  have hgrows : (erasing : Line κ _ _).GrowsBySending σ := by
    intro c w
    exact ⟨[], (List.append_nil _).trans (World.deletion_send c w).symm⟩
  refine ⟨hgrows, asks_afterErasing, fun {E} hE batch report w => ?_⟩
  change Follows E _ (afterErasing batch report) 0 _ _
  unfold afterErasing
  refine (follows_foldlM (Q := fun k _ => k = 0) rfl ?_).bind ?_
  · rintro c - k failed rfl
    exact (hgrows.lasts w _).settle hE report failed c
  · rintro k failed rfl
    refine (follows_update (P := fun k _ => k = batch.length) fun v hv => ⟨_, hv.requeue rfl, rfl⟩).bind ?_
    rintro k u rfl
    exact follows_queues_bind fun v hv => ⟨_, hv, follows_log fun v e hv => ⟨_, hv, rfl⟩⟩

/-! ## Failed calls -/

namespace Line

variable {L : Line κ α β} {E : Surroundings κ σ} {others : World κ σ → World κ σ → Prop} {w v w' : World κ σ}

theorem spoken_sendAll (cs : List (SendCall κ)) (w : World κ σ) : spoken (w.sendAll cs).history = spoken w.history :=
  (says_sendAll cs w).spoken

/-- A failed call leaves nothing behind. -/
structure Atomic (L : Line κ α β) (others : World κ σ → World κ σ → Prop) (E : Surroundings κ σ) (size : Value) :
    Prop where
  /-- If the call fails, or its output is refused, so does the phase, and that is all: while the call was pending others
  have been at work, and messages may have been sent. The application has not been told anything, and the line holds
  what it held before, in the same order; what has been added stands behind. -/
  undone {w w' : World κ σ} {r : Except Fault Unit} {c : ToolCall} {f : Fault} :
    (L.phase size).RunsAmid others E w r w' → L.calls w'.history = c :: L.calls w.history → L.Fails c f →
    r = .error f ∧ ∃ v cs s, (v = w ∨ others w v) ∧
      w' = v.answered cs s (fun q => .modem q L.command c.arguments c.output) ∧
      spoken w'.history = spoken v.history ∧ L.queue w.queues <+: L.queue w'.queues
  /-- Unless something is cancelled a phase fails for no other reason, or at once because the size is no number of
  entries. -/
  blamed {w w' : World κ σ} {f : Fault} : E.Contained → (L.phase size).RunsAmid others E w (.error f) w' →
    (Config.batchCount size = .error f ∧ w' = w) ∨
      ∃ c, L.calls w'.history = c :: L.calls w.history ∧ L.Fails c f

/-- A batch is settled without a fault, whatever others add to the line. -/
theorem Lawful.runsAmid_settle (hL : L.Lawful σ) (hE : E.Contained) (hothers : ∀ w v, others w v → L.Joined w v)
    {batch : List α} {b : β} {r : Except Fault Unit} (h : (L.settle batch b).RunsAmid others E w r w') :
    r = .ok () ∧ L.Advanced w batch.length w' := by
  obtain ⟨k, hk, hend⟩ := (hL.settle hE batch b w).runsAmid (fun _ v u hu hv => hv.join (hothers v u hu).added)
    (.start L w) h
  cases r with
  | ok u =>
    obtain rfl : k = batch.length := hend
    exact ⟨rfl, hk⟩
  | error f => exact hend.elim

theorem atomic_of_lawful (hL : L.Lawful σ) (hothers : ∀ w v, others w v → L.Joined w v) (size : Value) :
    L.Atomic others E size where
  undone := by
    intro w w' r c f h hc hf
    cases turn_of_runsAmid h with
    | idle hempty => simp at hc
    | unsized hf => simp at hc
    | @failed n v cs s output g hne hn hv hg =>
      rw [calls_called, List.cons.injEq] at hc
      obtain ⟨rfl, -⟩ := hc
      obtain rfl : g = f := Except.error.inj (hg.symm.trans hf)
      have hjoined := joined_of_eq_or hothers hv
      exact ⟨rfl, v, cs, s, hv, rfl, spoken_sendAll cs v, hjoined.added.trans (hL.grows.sendAll cs v)⟩
    | settled hne hn hv hb hrest =>
      -- the output of the call could be read
      rw [calls_runsAmid hothers (hL.asks _ _) hrest, calls_called, List.cons.injEq] at hc
      obtain ⟨rfl, -⟩ := hc
      cases hb.symm.trans hf
  blamed := by
    intro w w' f hE h
    cases turn_of_runsAmid h with
    | unsized hf => exact .inl ⟨hf, rfl⟩
    | @failed n v cs s output f hne hn hv hf =>
      refine .inr ⟨⟨L.command, L.arguments ((L.queue w.queues).take n), output⟩, ?_, hf⟩
      rw [calls_called, (joined_of_eq_or hothers hv).calls]
    | settled hne hn hv hb hrest =>
      cases (hL.runsAmid_settle hE hothers hrest).1

end Line

/-- The output of the modem tool is refused if any of its entries is, wherever that stands. -/
theorem TransmitResult.refused_iff {entries : List Value} :
    (∃ f, TransmitResult.ofOutput (.list entries) = .error f) ↔
      ∃ e ∈ entries, ∃ f, TransmitResult.ofEntry e = .error f := by
  change (∃ f, entries.mapM TransmitResult.ofEntry = .error f) ↔ _
  induction entries with
  | nil => simp [pure, Except.pure]
  | cons e entries ih =>
    rw [List.mapM_cons, List.exists_mem_cons_iff, ← ih]
    cases TransmitResult.ofEntry e with
    | error f => simp [bind, Except.bind]
    | ok r => cases entries.mapM TransmitResult.ofEntry <;> simp [bind, Except.bind, pure, Except.pure]

/-- Whatever the modem tool comes to, and whatever others add to the lines meanwhile: a call to send or to erase that
fails, or whose output is refused, leaves nothing behind. The output of a call to send is refused as a whole if any of
its entries is refused, be it the last. -/
theorem failed_calls_atomic (E : Surroundings κ σ) (others : World κ σ → World κ σ → Prop) (size : Value) :
    ((∀ w v, others w v → sending.Joined w v) → sending.Atomic others E size) ∧
    ((∀ w v, others w v → erasing.Joined w v) → erasing.Atomic others E size) ∧
    ∀ entries, (∃ f, TransmitResult.ofOutput (.list entries) = .error f) ↔
      ∃ e ∈ entries, ∃ f, TransmitResult.ofEntry e = .error f :=
  ⟨fun hothers => Line.atomic_of_lawful lawful_sending hothers size,
    fun hothers => Line.atomic_of_lawful lawful_erasing hothers size, fun _ => TransmitResult.refused_iff⟩

/-- The last result has no index. One more message is sent meanwhile. -/
def refusedReplies : Replies Unit Unit where
  modem _ _ _ := (.ok (.list [.object [("index", .int 1), ("result", .text "success")], .object []]),
    [{ destination := .text "+2", text := .text "b" }], ())
  request _ _ := (.ok .nothing, [], ())

theorem refusedReplies_allowed : refusedReplies.Allowed .free where
  modem _ _ _ := by simp [refusedReplies, Surroundings.free]
  request _ _ := by simp [refusedReplies, Surroundings.free]
  notify _ _ := rfl
  callback _ _ _ _ := rfl

theorem failed_calls_atomic_refused : ∃ f w', (transmitPhase (.int 2)).Runs .free
    { queues := { outbound := [⟨"+1", "a", .nothing, some ()⟩] }, outside := () } (.error f) w' ∧
    w'.queues.outbound.map Outbound.destination = ["+1", "+2"] ∧ (spoken w'.history).length = 0 := by
  have hr := Replies.runs_run refusedReplies_allowed (transmitPhase (.int 2))
    { queues := { outbound := [⟨"+1", "a", .nothing, some ()⟩] }, outside := () }
  have hatomic := (failed_calls_atomic (κ := Unit) .free (fun _ _ => False) (.int 2)).1 nofun
  have hfailed := (hatomic.undone hr.amid rfl rfl).1
  rw [hfailed] at hr
  exact ⟨_, _, hr, by rfl, by rfl⟩

end SmsRelay.Gateway
