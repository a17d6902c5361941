-- SUMMARY: The phases of a cycle do not depend on one another: calls, batches and report of a cycle.
import SmsRelay.Proofs.Completion
import SmsRelay.Proofs.Dispatch
import SmsRelay.Proofs.Replay

/-!
# Isolation of the phases of a cycle

A cycle calls the modem tool for each of its phases, whatever has become of the
phases before: to send and to erase if the queue holds anything then, and always
to retrieve. What its report says of a phase is what the call came to; handlers
have no part in it.
-/

namespace SmsRelay.Gateway

open Phase

variable {κ σ : Type} {E : Surroundings κ σ} {w w' : World κ σ} {α β : Type}

/-! ## Calls of the modem tool -/

/-- A call of the modem tool, and what it came to. -/
structure ToolCall where
  command : String
  arguments : List String
  output : Except Fault Value

/-- The calls of the modem tool in a history, the latest first. -/
def toolCalls (history : List (Occurrence κ)) : List ToolCall :=
  history.filterMap fun
    | .modem _ command arguments output => some ⟨command, arguments, output⟩
    | _ => none

theorem toolCalls_sendAll (cs : List (SendCall κ)) (w : World κ σ) :
    toolCalls (w.sendAll cs).history = toolCalls w.history :=
  World.filterMap_sendAll (fun _ => rfl) cs w

theorem toolCalls_called (cs : List (SendCall κ)) (s : σ) (command : String) (arguments : List String)
    (output : Except Fault Value) (w : World κ σ) :
    toolCalls (w.answered cs s fun q => .modem q command arguments output).history =
      ⟨command, arguments, output⟩ :: toolCalls w.history := congrArg _ (toolCalls_sendAll cs w)

/-- Questions that leave the modem tool alone. -/
def Ask.OffTool (q : Ask κ) : Prop := ∀ command arguments, q ≠ .modem command arguments

theorem Ask.OfAnnouncement.offTool {q : Ask κ} (h : q.OfAnnouncement) : q.OffTool := by
  intro command arguments heq
  subst heq
  exact h

theorem toolCalls_answers {q : Ask κ} (hq : q.OffTool) {r : q.Answer} (h : World.Answers E w q r w') :
    toolCalls w'.history = toolCalls w.history := by
  obtain ⟨os, hos, hcome⟩ := World.history_of_answers h
  have hnone : toolCalls os = [] := by
    refine List.filterMap_eq_nil_iff.mpr fun o ho => ?_
    cases o with
    | modem found command arguments output => exact absurd (hcome _ ho) (hq command arguments)
    | _ => rfl
  rw [hos, toolCalls, List.filterMap_append]
  exact congrArg (· ++ toolCalls w.history) hnone

theorem keeps_toolCalls {p : Phase κ α} (ha : Asks Ask.OffTool p) (calls : List ToolCall) :
    Keeps E (fun v => toolCalls v.history = calls) p :=
  ha.keeps fun _ hq _ _ _ h hv => (toolCalls_answers hq h).trans hv

/-- A phase that completes and leaves the modem tool alone adds no call. -/
theorem Phase.Completes.silent {p : Phase κ α} (hp : Completes E p) (ha : Asks Ask.OffTool p) (w : World κ σ) :
    Ensures E p w (fun _ v => toolCalls v.history = toolCalls w.history) never :=
  hp.ensures (keeps_toolCalls ha _) rfl

/-! ## What a phase calls for -/

/-- The fault of an outcome. -/
def fault? : Except Fault α → Option Fault
  | .ok _ => none
  | .error f => some f

/-- What a phase that works through a queue calls for, and the fault it comes to: nothing if the queue is
empty, or else one call with a batch from the front of the queue. A phase whose call succeeds and whose
output can be read comes to no fault. -/
inductive Attempted (command : String) (arguments : List α → List String) (parse : Value → Except Fault β)
    (size : Value) (queue : List α) : List ToolCall → Option Fault → Prop where
  | spared : queue = [] → Attempted command arguments parse size queue [] none
  | called {n : Nat} {output : Except Fault Value} {fault : Option Fault} : queue ≠ [] →
      Config.batchCount size = .ok n → fault = fault? (output >>= parse) →
      Attempted command arguments parse size queue [⟨command, arguments (queue.take n), output⟩] fault
  /-- The batch size is no number of entries. -/
  | unsized {f : Fault} : queue ≠ [] → Config.batchCount size = .error f →
      Attempted command arguments parse size queue [] (some f)

/-- A phase that works through a queue: it takes a batch, calls the modem tool, reads the output, and goes
on from there. -/
def workThrough (command : String) (arguments : List α → List String) (parse : Value → Except Fault β) (size : Value)
    (queue : Queues κ → List α) (rest : List α → β → Phase κ Unit) : Phase κ Unit := do
  let q ← queues
  if (queue q).isEmpty then return
  let batch := (queue q).take (← settled (Config.batchCount size))
  let output ← modem command (arguments batch)
  let b ← settled (parse output)
  rest batch b

/-- What a transmission does once the modem tool has reported. -/
def afterSending (batch : List (Outbound κ)) (results : List TransmitResult) : Phase κ Unit := do
  let sent ← results.foldlM (reconcile batch) []
  update (requeueOutbound batch sent)
  let q ← queues
  log .info "core.outbound" ("Transmitted " ++ toString sent.length ++ " of " ++
    toString batch.length ++ " message(s); " ++ toString q.outbound.length ++ " queued")

/-- What a deletion does once the modem tool has reported. -/
def afterErasing (batch : List Candidate) (report : DeletionReport) : Phase κ Unit := do
  let failed ← batch.foldlM (settle report) []
  update (requeueDeletion batch failed)
  let q ← queues
  log .info "core.deletion" ("Deleted " ++ toString (batch.length - failed.length) ++ " of " ++
    toString batch.length ++ " location(s); " ++ toString q.deletion.length ++ " queued")

/-- What a reception does once the records have been taken in. -/
def afterTaking (records : List Value) : Phase κ Unit := do
  if !records.isEmpty then
    let q ← queues
    log .info "core.inbound" ("Retrieved " ++ toString records.length ++ " record(s); " ++
      toString q.inbound.length ++ " message(s) ready for delivery")
  deliverPhase

theorem transmitPhase_eq (size : Value) : (transmitPhase size : Phase κ Unit) =
    workThrough "send" Outbound.arguments TransmitResult.ofOutput size Queues.outbound afterSending := rfl

theorem deletePhase_eq (size : Value) : (deletePhase size : Phase κ Unit) =
    workThrough "delete" Candidate.arguments DeletionReport.ofOutput size Queues.deletion afterErasing := rfl

theorem receivePhase_eq : (receivePhase : Phase κ Unit) = (do
    let output ← modem "retrieve" []
    let records ← settled (Record.ofOutput output)
    discard (records.foldlM receiveRecord [])
    afterTaking records) := rfl

/-- A phase that works through a queue ends at once if the queue is empty or the batch size is no number of
entries; it ends with the call of the modem tool if that fails or its output cannot be read; and otherwise goes on
with the output. -/
theorem ensures_workThrough_of {command : String} {arguments : List α → List String} {parse : Value → Except Fault β}
    {size : Value} {queue : Queues κ → List α} {rest : List α → β → Phase κ Unit} {P : Unit → World κ σ → Prop}
    {J : Fault → World κ σ → Prop} (spared : queue w.queues = [] → P () w)
    (unsized : ∀ f, queue w.queues ≠ [] → Config.batchCount size = .error f → J f w)
    (failed : ∀ n cs s output f, queue w.queues ≠ [] → Config.batchCount size = .ok n →
      E.modem w.outside command (arguments ((queue w.queues).take n)) output s → output >>= parse = .error f →
      J f (w.answered cs s fun q => .modem q command (arguments ((queue w.queues).take n)) output))
    (called : ∀ n cs s output b, queue w.queues ≠ [] → Config.batchCount size = .ok n →
      E.modem w.outside command (arguments ((queue w.queues).take n)) (.ok output) s → parse output = .ok b →
      Ensures E (rest ((queue w.queues).take n) b)
        (w.answered cs s fun q => .modem q command (arguments ((queue w.queues).take n)) (.ok output)) P J) :
    Ensures E (workThrough command arguments parse size queue rest) w P J := by
  unfold workThrough
  apply ensures_queues_bind
  split
  · rename_i hempty
    exact ensures_pure (spared (List.isEmpty_iff.mp hempty))
  · rename_i hempty
    have hne : queue w.queues ≠ [] := fun h => hempty (List.isEmpty_iff.mpr h)
    refine ensures_settled_bind (fun n hn => ?_) fun f hf => unsized f hne hf
    refine Ensures.bind (P := fun output v =>
      (∀ b, parse output = .ok b → Ensures E (rest ((queue w.queues).take n) b) v P J) ∧
      ∀ f, parse output = .error f → J f v) (ensures_modem ?_ ?_) ?_
    · intro cs s output hs
      exact ⟨fun b hb => called n cs s output b hne hn hs hb, fun f hf => failed n cs s _ f hne hn hs hf⟩
    · exact fun cs s f hs => failed n cs s _ f hne hn hs rfl
    · intro output v ⟨hcalled, hfailed⟩
      exact ensures_settled_bind hcalled hfailed

theorem ensures_workThrough (hE : E.Contained) {command : String} {arguments : List α → List String}
    {parse : Value → Except Fault β} {size : Value} {queue : Queues κ → List α} {rest : List α → β → Phase κ Unit}
    (hparse : ∀ output, Ordinary (parse output)) (hcompletes : ∀ batch b, Completes E (rest batch b))
    (hrest : ∀ batch b, Asks Ask.OffTool (rest batch b)) (w : World κ σ) :
    Ensures E (workThrough command arguments parse size queue rest) w
      (fun _ v => ∃ calls, toolCalls v.history = calls ++ toolCalls w.history ∧
        Attempted command arguments parse size (queue w.queues) calls none)
      (fun f v => f.isCancellation = false ∧ ∃ calls, toolCalls v.history = calls ++ toolCalls w.history ∧
        Attempted command arguments parse size (queue w.queues) calls (some f)) := by
  refine ensures_workThrough_of ?_ ?_ ?_ ?_
  · exact fun hempty => ⟨[], rfl, .spared hempty⟩
  · exact fun f hne hf => ⟨Config.ordinary_batchCount size f hf, [], rfl, .unsized hne hf⟩
  · intro n cs s output f hne hn hs hf
    refine ⟨?_, [_], toolCalls_called .., .called hne hn (congrArg fault? hf).symm⟩
    cases output with
    | ok output => exact hparse output f hf
    | error g =>
      cases hf
      exact hE.modem hs
  · intro n cs s output b hne hn _ hb
    refine ((hcompletes _ b).silent (hrest _ b) _).mono (fun _ u hu => ?_) nofun
    exact ⟨[_], hu.trans (toolCalls_called ..), .called hne hn (congrArg fault? hb).symm⟩

theorem completes_afterSending (hE : E.Contained) (batch : List (Outbound κ)) (results : List TransmitResult) :
    Completes E (afterSending batch results) := by
  unfold afterSending
  refine (completes_foldlM (completes_reconcile hE batch) _ _).bind fun sent => ?_
  refine (completes_update _).bind fun _ => ?_
  exact completes_queues.bind fun q => completes_log _ _ _

theorem completes_afterErasing (hE : E.Contained) (batch : List Candidate) (report : DeletionReport) :
    Completes E (afterErasing batch report) := by
  unfold afterErasing
  refine (completes_foldlM (completes_settle hE report) _ _).bind fun failed => ?_
  refine (completes_update _).bind fun _ => ?_
  exact completes_queues.bind fun q => completes_log _ _ _

theorem completes_afterTaking (hE : E.Contained) (records : List Value) : Completes E (afterTaking records) := by
  unfold afterTaking
  dsimp only
  split
  · refine completes_queues.bind fun q => ?_
    exact (completes_log _ _ _).bind fun _ => completes_deliverPhase hE
  · exact completes_deliverPhase hE

theorem asks_afterSending (batch : List (Outbound κ)) (results : List TransmitResult) :
    Asks Ask.OffTool (afterSending batch results) := by
  unfold afterSending
  refine ((asks_foldlM (asks_reconcile batch) _ _).mono fun _ h => h.offTool).bind fun sent => ?_
  refine (asks_update nofun).bind fun _ => ?_
  exact (asks_queues nofun).bind fun q => asks_log nofun

theorem asks_afterErasing (batch : List Candidate) (report : DeletionReport) :
    Asks Ask.OffTool (afterErasing batch report : Phase κ Unit) := by
  unfold afterErasing
  refine ((asks_foldlM (asks_settle report) _ _).mono fun _ h => h.offModem.2).bind fun failed => ?_
  refine (asks_update nofun).bind fun _ => ?_
  exact (asks_queues nofun).bind fun q => asks_log nofun

theorem asks_afterTaking (records : List Value) : Asks Ask.OffTool (afterTaking records : Phase κ Unit) := by
  have hdeliver : Asks Ask.OffTool (deliverPhase : Phase κ Unit) := asks_deliverPhase.mono fun _ h => h.2
  unfold afterTaking
  dsimp only
  split
  · refine (asks_queues nofun).bind fun q => ?_
    exact (asks_log nofun).bind fun _ => hdeliver
  · exact hdeliver

/-- What a retrieval comes to: the fault of the call, or of its output, or of the first record that stops
it. -/
def receptionFault (output : Except Fault Value) : Option Fault :=
  match output >>= Record.ofOutput with
  | .ok records => records.findSome? Record.jam?
  | .error f => some f

theorem receptionFault_of_ok {output : Value} {records : List Value} (h : Record.ofOutput output = .ok records) :
    receptionFault (.ok output) = records.findSome? Record.jam? := by
  have hbind : Except.ok output >>= Record.ofOutput = .ok records := h
  rw [receptionFault, hbind]

theorem receptionFault_of_error {output : Value} {f : Fault} (h : Record.ofOutput output = .error f) :
    receptionFault (.ok output) = some f := by
  have hbind : Except.ok output >>= Record.ofOutput = .error f := h
  rw [receptionFault, hbind]

/-- A reception calls the modem tool once, and comes to no fault but that of the retrieval. -/
theorem ensures_receivePhase_received (hE : E.Contained) (w : World κ σ) :
    Ensures E receivePhase w
      (fun _ v => ∃ output, toolCalls v.history = ⟨"retrieve", [], output⟩ :: toolCalls w.history ∧
        receptionFault output = none)
      (fun f v => f.isCancellation = false ∧ ∃ output,
        toolCalls v.history = ⟨"retrieve", [], output⟩ :: toolCalls w.history ∧ receptionFault output = some f) := by
  rw [receivePhase_eq]
  refine Ensures.bind (P := fun output v => toolCalls v.history =
    ⟨"retrieve", [], .ok output⟩ :: toolCalls w.history) (ensures_modem ?_ ?_) ?_
  · exact fun cs s output _ => toolCalls_called ..
  · exact fun cs s f hs => ⟨hE.modem hs, _, toolCalls_called .., rfl⟩
  · intro output v hv
    refine ensures_settled_bind (fun records hrecords => ?_) ?_
    · have hfault := receptionFault_of_ok hrecords
      have hasks : Asks Ask.OffTool (records.foldlM receiveRecord [] : Phase κ (List String)) :=
        (asks_receiveRecords records []).mono fun _ h => h.offModem.2
      have htaken := (ensures_receiveRecords_jam hE records [] v).and (keeps_toolCalls hasks _ v hv)
      refine (ensures_discard (P := fun _ u => records.findSome? Record.jam? = none ∧
        toolCalls u.history = ⟨"retrieve", [], .ok output⟩ :: toolCalls w.history)
        (htaken.mono (fun _ _ h => h) ?_)).bind ?_
      · intro f u ⟨hjam, hu⟩
        refine ⟨?_, _, hu, hfault.trans hjam⟩
        rw [Record.eq_of_findSome?_jam? hjam]
        rfl
      · intro _ u ⟨hjam, hu⟩
        refine ((completes_afterTaking hE records).silent (asks_afterTaking records) u).mono (fun _ _ h => ?_) nofun
        exact ⟨_, h.trans hu, hfault.trans hjam⟩
    · intro f hf
      exact ⟨Record.ordinary_ofOutput output f hf, _, hv, receptionFault_of_error hf⟩

/-! ## Cycles -/

/-- A phase that is reported on comes to a report in any case. -/
theorem ensures_runPhase {name : String} {p : Phase κ Unit} {P : Option Fault → World κ σ → Prop}
    (hp : Ensures E p w (fun _ => P none) (fun f v => f.isCancellation = false ∧ P (some f) v))
    (logged : ∀ r e v, P r v → P r (v.note (.logged e))) : Ensures E (runPhase name p) w P never := by
  unfold runPhase
  refine Ensures.bind (P := fun a v => P (fault? a) v) (ensures_guarded hp) ?_
  intro a v hv
  cases a with
  | ok u => exact ensures_pure hv
  | error f => exact ensures_log_bind (ensures_pure (logged _ _ v hv))

theorem ensures_runPhase_transmit (hE : E.Contained) (size : Value) (w : World κ σ) :
    Ensures E (runPhase "Transmit" (transmitPhase size)) w
      (fun fault v => ∃ calls, toolCalls v.history = calls ++ toolCalls w.history ∧
        Attempted "send" Outbound.arguments TransmitResult.ofOutput size w.queues.outbound calls fault) never := by
  refine ensures_runPhase ?_ fun _ _ _ h => h
  rw [transmitPhase_eq]
  exact ensures_workThrough hE TransmitResult.ordinary_ofOutput (completes_afterSending hE) asks_afterSending w

theorem ensures_runPhase_receive (hE : E.Contained) (w : World κ σ) :
    Ensures E (runPhase "Receive" receivePhase) w
      (fun fault v => ∃ output, toolCalls v.history = ⟨"retrieve", [], output⟩ :: toolCalls w.history ∧
        receptionFault output = fault) never :=
  ensures_runPhase (ensures_receivePhase_received hE w) fun _ _ _ h => h

theorem ensures_runPhase_delete (hE : E.Contained) (size : Value) (w : World κ σ) :
    Ensures E (runPhase "Delete" (deletePhase size)) w
      (fun fault v => ∃ calls, toolCalls v.history = calls ++ toolCalls w.history ∧
        Attempted "delete" Candidate.arguments DeletionReport.ofOutput size w.queues.deletion calls fault) never := by
  refine ensures_runPhase ?_ fun _ _ _ h => h
  rw [deletePhase_eq]
  exact ensures_workThrough hE DeletionReport.ordinary_ofOutput (completes_afterErasing hE) asks_afterErasing w

/-- Whatever the modem tool comes to, and whatever handlers return or fail with: a cycle comes to a report.
It calls the modem tool to send if the outbound queue holds anything at the start, then to retrieve, and
then to erase if the deletion queue holds anything after the reception, each time with a batch from the
front of the queue. The report tells of a transmission or a deletion whose call failed or whose output was
refused, and of no other; and of a reception whose call failed, whose output was refused, or among whose
records one stops the retrieval. -/
theorem cycle_isolated {H : Handlers κ σ} (hH : H.Uncancelled) (hresponsive : H.Responsive) (config : Config)
    (w : World κ σ) :
    (∃ r w', (runCycle config).Runs H.surroundings w r w') ∧
    ∀ r w', (runCycle config).Runs H.surroundings w r w' →
      ∃ report v u sent retrieved erased, r = .ok report ∧
        (runPhase "Transmit" (transmitPhase config.transmitBatch)).Runs H.surroundings w (.ok report.transmit) v ∧
        (runPhase "Receive" receivePhase).Runs H.surroundings v (.ok report.receive) u ∧
        toolCalls w'.history = erased ++ ⟨"retrieve", [], retrieved⟩ :: (sent ++ toolCalls w.history) ∧
        Attempted "send" Outbound.arguments TransmitResult.ofOutput config.transmitBatch w.queues.outbound sent
          report.transmit ∧
        report.receive = receptionFault retrieved ∧
        Attempted "delete" Candidate.arguments DeletionReport.ofOutput config.deleteBatch u.queues.deletion erased
          report.delete := by
  refine ⟨hresponsive.surroundings.runs _ w, fun r w' h => ?_⟩
  have hE := hH.contained
  unfold runCycle at h
  rcases runs_bind.mp h with ⟨t, v, ht, h⟩ | ⟨e, -, ht⟩
  case inr => exact ((ensures_runPhase_transmit hE _ w).fault ht).elim
  rcases runs_bind.mp h with ⟨rc, u, hr, h⟩ | ⟨e, -, hr⟩
  case inr => exact ((ensures_runPhase_receive hE v).fault hr).elim
  rcases runs_bind.mp h with ⟨d, x, hd, h⟩ | ⟨e, -, hd⟩
  case inr => exact ((ensures_runPhase_delete hE _ u).fault hd).elim
  obtain ⟨sent, hsent, htransmit⟩ := (ensures_runPhase_transmit hE _ w).result ht
  obtain ⟨retrieved, hretrieved, hreceive⟩ := (ensures_runPhase_receive hE v).result hr
  obtain ⟨erased, herased, hdelete⟩ := (ensures_runPhase_delete hE _ u).result hd
  have hcalls : toolCalls x.history = erased ++ ⟨"retrieve", [], retrieved⟩ :: (sent ++ toolCalls w.history) := by
    rw [herased, hretrieved, hsent]
  have hend : r = .ok ⟨t, rc, d⟩ ∧ toolCalls w'.history = toolCalls x.history := by
    dsimp only at h
    split at h
    · obtain ⟨heq, heq'⟩ := runs_log_bind.mp h
      subst heq'
      exact ⟨heq, rfl⟩
    · obtain ⟨heq, heq'⟩ := h
      subst heq'
      exact ⟨heq, rfl⟩
  exact ⟨_, v, u, sent, retrieved, erased, hend.1, ht, hr, hend.2.trans hcalls, htransmit, hreceive.symm, hdelete⟩

/-- Handlers that always fail, with a modem tool that sends, shows one message, and cannot erase. -/
def failingReplies : Replies Unit Unit where
  modem _ command _ :=
    (if command = "send" then .ok (.list [.object [("index", .int 1), ("result", .text "success")]])
    else if command = "retrieve" then .ok (.list [.object [("from", .text "+2"), ("location", .int 4)]])
    else .error (.tool { command, problem := "timed out" }), [], ())
  request _ _ := (.error (.signalled .runtime "busy"), [], ())

def failingHandlers : Handlers Unit Unit where
  registered _ _ := True
  modem s command arguments output _ := output = (failingReplies.modem s command arguments).1
  request _ _ x _ := x = .error (.signalled .runtime "busy")
  notice _ _ x _ := x = .error (.signalled .runtime "busy")
  callback _ _ _ _ x _ := x = .error (.signalled .runtime "busy")

theorem uncancelled_failingHandlers : failingHandlers.Uncancelled where
  modem {_ _ command _ f} h := by
    simp only [failingHandlers, failingReplies] at h
    split at h
    · cases h
    · split at h <;> cases h
      rfl
  request h := by
    cases h
    rfl
  notice h := by
    cases h
    rfl
  callback h := by
    cases h
    rfl

theorem responsive_failingHandlers : failingHandlers.Responsive where
  modem _ _ _ := ⟨_, (), rfl⟩
  request _ _ := ⟨_, (), rfl⟩
  notice _ _ := ⟨_, (), rfl⟩
  callback _ _ _ _ := ⟨_, (), rfl⟩

theorem failingReplies_allowed : failingReplies.Allowed failingHandlers.surroundings where
  modem _ _ _ := rfl
  request _ _ := .inl ⟨trivial, rfl⟩
  notify _ _ := .inl ⟨trivial, _, rfl, rfl⟩
  callback _ _ _ _ := ⟨_, rfl, rfl⟩

/-- The message is sent, another is shown and stays, and nothing is erased. -/
theorem cycle_isolated_failing : ∃ report w', (runCycle {}).Runs failingHandlers.surroundings
    { queues := { outbound := [{ destination := "+1", text := "a" }] }, outside := () } (.ok report) w' ∧
    report = {} ∧ (toolCalls w'.history).map ToolCall.command = ["retrieve", "send"] := by
  have hr := Replies.runs_run failingReplies_allowed (runCycle {})
    { queues := { outbound := [{ destination := "+1", text := "a" }] }, outside := () }
  obtain ⟨report, _, _, _, _, _, hreport, _⟩ :=
    (cycle_isolated uncancelled_failingHandlers responsive_failingHandlers _ _).2 _ _ hr
  rw [hreport] at hr
  exact ⟨report, _, hr, (Except.ok.inj hreport).symm, by rfl⟩

end SmsRelay.Gateway
