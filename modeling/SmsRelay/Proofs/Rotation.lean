-- SUMMARY: Lines move on by one batch at each report, so that nobody waits for ever.
import SmsRelay.Proofs.Lines

/-!
# Rotation of the lines

What a phase could not settle goes to the end of its line, behind all that has
been added. So each report that can be read brings the line one batch forward,
whatever it says, and nothing else moves it: no entry waits for ever, however
often others fail, and whatever is added meanwhile.
-/

namespace SmsRelay.Gateway

open Phase

variable {κ σ α β : Type}

namespace Line

variable {L : Line κ α β} {E : Surroundings κ σ} {others : World κ σ → World κ σ → Prop} {size : Value}
  {w v u w' : World κ σ} {b j k p : Nat} {a : α}

/-- How many of the calls for the line have brought a report that can be read. -/
def reports (L : Line κ α β) (history : List (Occurrence κ)) : Nat :=
  (L.calls history).countP fun c => (c.output >>= L.parse).isOk

/-- The worlds that phases may lead to, one after the other, while others are at work at all times. -/
inductive Passes (L : Line κ α β) (E : Surroundings κ σ) (size : Value) (w : World κ σ) : World κ σ → Prop where
  | start : Passes L E size w w
  | join {v u : World κ σ} : Passes L E size w v → L.Joined v u → Passes L E size w u
  | phase {v u : World κ σ} {r : Except Fault Unit} : Passes L E size w v →
      (L.phase size).RunsAmid L.Joined E v r u → Passes L E size w u

/-- A message is sent. -/
theorem Lawful.joined_send (hL : L.Lawful σ) (c : SendCall κ) (w : World κ σ) : L.Joined w (w.send c) where
  added := hL.grows c w
  calls := congrArg (List.filter _) (toolCalls_sendAll [c] w)

/-! ## One phase -/

/-- A phase makes one call, for a batch from the front of the line, unless the line is empty. If the report can be read
the line moves on by a batch; otherwise nothing moves. -/
theorem call_of_runsAmid (hL : L.Lawful σ) (hE : E.Contained) (hsize : Config.batchCount size = .ok b)
    (hne : L.queue w.queues ≠ []) {r : Except Fault Unit} (h : (L.phase size).RunsAmid L.Joined E w r w') :
    ∃ output, L.calls w'.history =
        ⟨L.command, L.arguments ((L.queue w.queues).take b), output⟩ :: L.calls w.history ∧
      L.Advanced w (if (output >>= L.parse).isOk then b else 0) w' := by
  cases turn_of_runsAmid h with
  | idle hempty => exact absurd hempty hne
  | unsized hf =>
    rw [hsize] at hf
    cases hf
  | @failed n v cs s output f _ hn hv hf =>
    obtain rfl : b = n := Except.ok.inj (hsize.symm.trans hn)
    have hjoined := joined_of_eq_or (fun _ _ => id) hv
    refine ⟨output, by rw [calls_called, hjoined.calls], ?_⟩
    rw [hf]
    exact (Advanced.start L w).join (hjoined.added.trans (hL.grows.sendAll cs v))
  | @settled n v cs s output report r w' _ hn hv hreport hrest =>
    obtain rfl : b = n := Except.ok.inj (hsize.symm.trans hn)
    have hjoined := joined_of_eq_or (fun _ _ => id) hv
    have hcalled : L.Advanced w 0 (v.answered cs s fun q =>
        .modem q L.command (L.arguments ((L.queue w.queues).take b)) output) :=
      (Advanced.start L w).join (hjoined.added.trans (hL.grows.sendAll cs v))
    have hsettled := (hL.runsAmid_settle hE (fun _ _ => id) hrest).2
    rw [calls_runsAmid (fun _ _ => id) (hL.asks _ _) hrest, calls_called, hjoined.calls]
    refine ⟨output, rfl, ?_⟩
    rw [hreport]
    have hmoved := hcalled.trans hsettled
    rwa [Nat.zero_add, Advanced, List.length_take, ← List.drop_eq_drop_min] at hmoved

/-- An idle phase changes nothing. -/
theorem eq_of_runsAmid (hempty : L.queue w.queues = []) {r : Except Fault Unit}
    (h : (L.phase size).RunsAmid others E w r w') : w' = w := by
  cases turn_of_runsAmid h with
  | idle => rfl
  | unsized => rfl
  | failed hne => exact absurd hempty hne
  | settled hne => exact absurd hempty hne

/-! ## Many phases -/

/-- The line has moved on by one batch for each report that could be read. -/
def Rotated (L : Line κ α β) (b : Nat) (w v : World κ σ) : Prop :=
  ∃ j, L.reports v.history = L.reports w.history + j ∧ L.Advanced w (j * b) v

theorem Rotated.join (h : L.Rotated b w v) (hu : L.Joined v u) : L.Rotated b w u := by
  obtain ⟨j, hj, hv⟩ := h
  refine ⟨j, ?_, hv.join hu.added⟩
  rw [reports, hu.calls]
  exact hj

theorem Rotated.phase (hL : L.Lawful σ) (hE : E.Contained) (hsize : Config.batchCount size = .ok b)
    (h : L.Rotated b w v) {r : Except Fault Unit} (hrun : (L.phase size).RunsAmid L.Joined E v r u) :
    L.Rotated b w u := by
  obtain ⟨j, hj, hv⟩ := h
  by_cases hempty : L.queue v.queues = []
  · obtain rfl := eq_of_runsAmid hempty hrun
    exact ⟨j, hj, hv⟩
  · obtain ⟨output, hcalls, hu⟩ := call_of_runsAmid hL hE hsize hempty hrun
    have hreports : L.reports u.history =
        L.reports v.history + if (output >>= L.parse).isOk then 1 else 0 := by
      rw [reports, hcalls, List.countP_cons, reports]
    split at hu
    · rename_i hok
      rw [if_pos hok, hj] at hreports
      refine ⟨j + 1, hreports, ?_⟩
      rw [Nat.add_mul, Nat.one_mul]
      exact hv.trans hu
    · rename_i hok
      rw [if_neg hok, hj] at hreports
      exact ⟨j, hreports, hv.trans hu⟩

theorem Passes.rotated (hL : L.Lawful σ) (hE : E.Contained) (hsize : Config.batchCount size = .ok b)
    (h : L.Passes E size w v) : L.Rotated b w v := by
  induction h with
  | start => exact ⟨0, rfl, by simpa using Advanced.start L w⟩
  | join _ hu ih => exact ih.join hu
  | phase _ hrun ih => exact ih.phase hL hE hsize hrun

/-- An entry that is far enough back has moved up. -/
theorem Rotated.getElem? (h : L.Rotated b w v) (hj : L.reports v.history = L.reports w.history + j)
    (ha : (L.queue w.queues)[p]? = some a) (hp : j * b ≤ p) : (L.queue v.queues)[p - j * b]? = some a := by
  obtain ⟨i, hi, left, hleft⟩ := h
  obtain rfl : i = j := by omega
  have hdrop : ((L.queue w.queues).drop (i * b))[p - i * b]? = some a := by
    rwa [List.getElem?_drop, Nat.add_sub_cancel' hp]
  rw [← hleft, List.getElem?_append_left (List.getElem?_eq_some_iff.mp hdrop).1, hdrop]

/-! ## Lines that are worked off -/

/-- Phases in a row, `k` of them, while nothing is sent, and the report on each batch clears all of it. -/
inductive Smooth (L : Line κ α β) (clears : List α → β → Prop) (E : Surroundings κ σ) (size : Value) (b : Nat)
    (w : World κ σ) : Nat → World κ σ → Prop where
  | start : Smooth L clears E size b w 0 w
  | phase {k : Nat} {v u : World κ σ} {r : Except Fault Unit} : Smooth L clears E size b w k v →
      (L.phase size).Runs E v r u → accepted u.history = accepted v.history →
      (∀ c, L.calls u.history = c :: L.calls v.history →
        ∃ report, c.output >>= L.parse = .ok report ∧ clears ((L.queue v.queues).take b) report) →
      Smooth L clears E size b w (k + 1) u

/-- As long as nothing is sent nothing is added to the line, and a batch that is cleared leaves it. -/
structure Clears (L : Line κ α β) (clears : List α → β → Prop) (E : Surroundings κ σ) : Prop where
  quiet (cs : List (SendCall κ)) (w : World κ σ) : accepted (w.sendAll cs).history = accepted w.history →
    L.queue (w.sendAll cs).queues = L.queue w.queues
  settle {batch : List α} {b : β} (w : World κ σ) : clears batch b → Ensures E (L.settle batch b) w
    (fun _ u => ∃ ms, accepted u.history = ms ++ accepted w.history ∧
      (ms = [] → L.queue u.queues = (L.queue w.queues).drop batch.length)) never

theorem Clears.drop {clears : List α → β → Prop} (hclears : L.Clears clears E) (hL : L.Lawful σ)
    (hsize : Config.batchCount size = .ok b) {r : Except Fault Unit} (h : (L.phase size).Runs E v r u)
    (haccepted : accepted u.history = accepted v.history)
    (hcleared : ∀ c, L.calls u.history = c :: L.calls v.history →
      ∃ report, c.output >>= L.parse = .ok report ∧ clears ((L.queue v.queues).take b) report) :
    L.queue u.queues = (L.queue v.queues).drop b := by
  have hamid : (L.phase size).RunsAmid (fun _ _ => False) E v r u := h.amid
  cases turn_of_runsAmid hamid with
  | idle hempty => rw [hempty, List.drop_nil]
  | unsized hf =>
    rw [hsize] at hf
    cases hf
  | failed hne hn hv hf =>
    obtain rfl := hv.resolve_right id
    obtain ⟨report, hreport, -⟩ := hcleared _ (calls_called ..)
    rw [hf] at hreport
    cases hreport
  | @settled n x cs s output report r u hne hn hv hreport hrest =>
    obtain rfl := hv.resolve_right id
    obtain rfl : b = n := Except.ok.inj (hsize.symm.trans hn)
    have hcalls := (calls_runsAmid nofun (hL.asks _ _) hrest).trans (calls_called ..)
    obtain ⟨report', hreport', hclear⟩ := hcleared _ hcalls
    obtain rfl : report' = report := Except.ok.inj (hreport'.symm.trans hreport)
    have hensures := hclears.settle (x.answered cs s fun q =>
      .modem q L.command (L.arguments ((L.queue x.queues).take b)) output) hclear
    cases r with
    | error f => exact (hensures.fault hrest.alone).elim
    | ok _ =>
      -- as nothing has been sent in all, nothing has been sent in between
      obtain ⟨ms, hms, hqueue⟩ := hensures.result hrest.alone
      have hsent : accepted (x.answered cs s fun q =>
          .modem q L.command (L.arguments ((L.queue x.queues).take b)) output).history =
            (cs.filterMap fun c => c.message.toOption).reverse ++ accepted x.history := accepted_sendAll cs x
      rw [hsent, haccepted, ← List.append_assoc, List.self_eq_append_left, List.append_eq_nil_iff] at hms
      have hquiet : accepted (x.sendAll cs).history = accepted x.history := by
        rw [accepted_sendAll, hms.2, List.nil_append]
      rw [hqueue hms.1, World.queues_answered, hclears.quiet cs x hquiet, List.length_take,
        ← List.drop_eq_drop_min]

theorem Smooth.queue_eq {clears : List α → β → Prop} (hclears : L.Clears clears E) (hL : L.Lawful σ)
    (hsize : Config.batchCount size = .ok b) (h : L.Smooth clears E size b w k u) :
    L.queue u.queues = (L.queue w.queues).drop (k * b) := by
  induction h with
  | start => simp
  | @phase k v u r _ hrun haccepted hcleared ih =>
    rw [hclears.drop hL hsize hrun haccepted hcleared, ih, List.drop_drop, Nat.add_mul, Nat.one_mul]

/-- Nothing waits for ever in the line. -/
structure Fair (L : Line κ α β) (clears : List α → β → Prop) (E : Surroundings κ σ) (size : Value) (b : Nat) :
    Prop where
  /-- An entry moves up by one batch for each report that can be read, and nothing else moves it, until it has come to
  the front. -/
  stands {w v : World κ σ} {p j : Nat} {a : α} : L.Passes E size w v →
    L.reports v.history = L.reports w.history + j → (L.queue w.queues)[p]? = some a → j ≤ p / b →
    (L.queue v.queues)[p - j * b]? = some a
  /-- The next phase then makes a call for the first `b` entries. The entry is among them if as many reports could be
  read as there are whole batches before it at the beginning, and otherwise it stands behind. -/
  served {w v u : World κ σ} {r : Except Fault Unit} {p j : Nat} {a : α} : L.Passes E size w v →
    L.reports v.history = L.reports w.history + j → (L.queue w.queues)[p]? = some a → j ≤ p / b →
    (L.phase size).RunsAmid L.Joined E v r u →
    ∃ batch output, batch = (L.queue v.queues).take b ∧
      L.calls u.history = ⟨L.command, L.arguments batch, output⟩ :: L.calls v.history ∧
      (j = p / b → batch[p - j * b]? = some a) ∧ (j < p / b → batch.length ≤ p - j * b)
  /-- If each report clears the batch, and nothing is sent meanwhile, a line of `n` entries is empty after `n / b`
  phases, rounded up, and not before. -/
  drained {w u : World κ σ} {k : Nat} : L.Smooth clears E size b w k u →
    (L.queue u.queues = [] ↔ ((L.queue w.queues).length + b - 1) / b ≤ k)

theorem fair_of_lawful {clears : List α → β → Prop} (hL : L.Lawful σ) (hclears : L.Clears clears E) (hE : E.Contained)
    (hsize : Config.batchCount size = .ok b) (hb : 1 ≤ b) : L.Fair clears E size b where
  stands h hj ha hp := (h.rotated hL hE hsize).getElem? hj ha ((Nat.le_div_iff_mul_le hb).mp hp)
  served := by
    intro w v u r p j a h hj ha hp hrun
    have hfront : j * b ≤ p := (Nat.le_div_iff_mul_le hb).mp hp
    have hstands := (h.rotated hL hE hsize).getElem? hj ha hfront
    have hne : L.queue v.queues ≠ [] := by
      intro hempty
      rw [hempty] at hstands
      cases hstands
    obtain ⟨output, hcalls, -⟩ := call_of_runsAmid hL hE hsize hne hrun
    refine ⟨_, output, rfl, hcalls, fun heq => ?_, fun hlt => ?_⟩
    · have hnear : p - j * b < b := by
        have hmod := Nat.mod_lt p hb
        have hdiv := Nat.div_add_mod' p b
        rw [heq]
        omega
      rw [List.getElem?_take_of_lt hnear, hstands]
    · have hfar : (j + 1) * b ≤ p := (Nat.le_div_iff_mul_le hb).mp hlt
      rw [Nat.add_mul] at hfar
      have hlength := List.length_take_le b (L.queue v.queues)
      omega
  drained h := by
    rw [h.queue_eq hclears hL hsize, List.drop_eq_nil_iff, Nat.div_le_iff_le_mul_add_pred hb, Nat.mul_comm]
    omega

end Line

theorem kept_eq_nil {batch : List (Outbound κ)} {results : List TransmitResult}
    (h : ∀ p < batch.length, ∃ r ∈ results, Sends p r) : kept batch results = [] := by
  unfold kept
  rw [List.map_eq_nil_iff, List.filter_eq_nil_iff]
  intro x hx hkept
  obtain ⟨r, hr, hsends⟩ := h x.2 (List.snd_lt_of_mem_zipIdx hx)
  exact of_decide_eq_true hkept r hr hsends

theorem clears_sending {H : Handlers κ σ} (hH : H.Uncancelled) : (sending : Line κ _ _).Clears
    (fun batch results => ∀ p < batch.length, ∃ r ∈ results, Sends p r) H.surroundings where
  quiet cs w haccepted := by
    rw [accepted_sendAll, List.append_left_eq_self, List.reverse_eq_nil_iff] at haccepted
    refine (World.outbound_sendAll cs w).trans ?_
    rw [haccepted, List.append_nil]
    rfl
  settle {batch results} w hclear := by
    refine (ensures_afterSending hH batch results (.refl w)).mono (fun _ u hu => ?_) fun _ _ => id
    obtain ⟨ms, hqueue, haccepted⟩ := hu.queue
    refine ⟨ms.reverse, haccepted, fun hnil => ?_⟩
    rw [kept_eq_nil hclear, List.reverse_eq_nil_iff.mp hnil, List.append_nil, List.append_nil] at hqueue
    exact hqueue

theorem clears_erasing {E : Surroundings κ σ} (hE : E.Contained) : (erasing : Line κ _ _).Clears
    (fun batch report => ∀ c ∈ batch, report.confirms c.location = true) E where
  quiet cs w _ := World.deletion_sendAll cs w
  settle {batch report} w hclear := by
    change Ensures E (afterErasing batch report) w _ _
    unfold afterErasing
    refine (ensures_foldlM (fun _ failed v => failed = [] ∧ v.queues.deletion = w.queues.deletion ∧
      ∃ ms, accepted v.history = ms ++ accepted w.history) ⟨rfl, rfl, [], rfl⟩ ?_).bind ?_
    · rintro before c failed v hbefore ⟨rfl, hqueue, ms, hms⟩
      have hc : c ∈ batch := hbefore.subset (List.mem_append_right _ (List.mem_singleton_self c))
      unfold settle
      rw [if_pos (hclear c hc)]
      refine (ensures_notify hE (P := fun _ u => u.queues.deletion = w.queues.deletion ∧
        ∃ ms, accepted u.history = ms ++ accepted w.history) fun cs s _ => ⟨?_, ?_⟩).bind ?_
      · exact (World.deletion_sendAll cs v).trans hqueue
      · obtain ⟨ms', -, haccepted⟩ := (says_answered cs s (o := .notice (.deleted c)) rfl v).joined
        exact ⟨ms'.reverse ++ ms, by rw [haccepted, hms, List.append_assoc]⟩
      · exact fun _ u hu => ensures_pure ⟨rfl, hu⟩
    · rintro failed v ⟨rfl, hqueue, ms, hms⟩
      refine ensures_update_bind (ensures_queues_bind (ensures_log ⟨ms, hms, fun _ => ?_⟩))
      change v.queues.deletion.drop batch.length ++ [] = w.queues.deletion.drop batch.length
      rw [hqueue, List.append_nil]

/-! ## Runs of a gateway -/

/-- Questions of a phase that leaves the line to others: it may add to it, and makes no call for it. -/
def Ask.OffLine (L : Line κ α β) : Ask κ → Prop
  | .queues | .log _ | .request _ | .notify _ | .callback .. => True
  | .update f => ∀ q, L.queue q <+: L.queue (f q)
  | .modem command _ => command ≠ L.command

namespace Line

variable {L : Line κ α β} {E : Surroundings κ σ} {size : Value} {w w' : World κ σ}

/-- To such a phase the line owes nothing but what is added. -/
theorem joined_answers (hL : L.Lawful σ) {q : Ask κ} (hq : q.OffLine L) {r : q.Answer} (h : World.Answers E w q r w') :
    L.Joined w w' := by
  have hanswered : ∀ cs s (o : Occurrence κ),
      (∀ found command arguments output, o ≠ .modem found command arguments output) →
      L.Joined w (w.answered cs s fun _ => o) := by
    intro cs s o ho
    refine ⟨hL.grows.sendAll cs w, congrArg (List.filter _) ?_⟩
    cases o with
    | modem found command arguments output => exact absurd rfl (ho found command arguments output)
    | _ => exact toolCalls_sendAll cs w
  cases q with
  | queues =>
    obtain ⟨-, rfl⟩ := h
    exact .refl L w'
  | update f =>
    obtain rfl := h
    exact ⟨hq _, rfl⟩
  | log e =>
    obtain rfl := h
    exact ⟨List.prefix_rfl, rfl⟩
  | modem command arguments =>
    obtain ⟨cs, s, -, rfl⟩ := h
    have hne : ¬command = L.command := hq
    refine ⟨hL.grows.sendAll cs w, (congrArg (List.filter _) (toolCalls_called cs s command arguments r w)).trans ?_⟩
    rw [List.filter_cons_of_neg (by simpa using hne), calls]
  | request t =>
    obtain ⟨cs, s, -, rfl⟩ := h
    exact hanswered cs s _ (by simp)
  | notify n =>
    obtain ⟨cs, s, -, rfl⟩ := h
    exact hanswered cs s _ (by simp)
  | callback k m t =>
    obtain ⟨cs, s, -, rfl⟩ := h
    exact hanswered cs s _ (by simp)

theorem keeps_passes (hL : L.Lawful σ) {γ : Type} {p : Phase κ γ} (hp : Asks (Ask.OffLine L) p) :
    Keeps E (L.Passes E size w) p :=
  hp.keeps fun _ hq _ _ _ hans hv => hv.join (joined_answers hL hq hans)

theorem keeps_passes_phase (L : Line κ α β) (E : Surroundings κ σ) (size : Value) (w : World κ σ) :
    Keeps E (L.Passes E size w) (L.phase size) :=
  fun _ hv => ⟨fun h => hv.phase h.amid, fun h => hv.phase h.amid⟩

end Line

theorem Ask.OffTransmission.offLine {q : Ask κ} (h : q.OffTransmission) : q.OffLine sending := by
  cases q with
  | update f => exact fun q => ⟨[], (List.append_nil _).trans (h q).symm⟩
  | modem command arguments => exact h
  | _ => trivial

theorem Ask.OfTransmission.offLine {q : Ask κ} (h : q.OfTransmission) : q.OffLine erasing := by
  cases q with
  | update f => exact fun q => ⟨[], (List.append_nil _).trans (h q).2.symm⟩
  | modem command arguments => simp [OffLine, show command = "send" from h, erasing]
  | _ => trivial

theorem Ask.OfCollection.offLine {q : Ask κ} (h : q.OfCollection) : q.OffLine erasing := by
  rcases h with h | ⟨record, f, rfl⟩
  · cases q with
    | update f =>
      obtain ⟨m, rfl⟩ := h
      exact fun q => List.prefix_rfl
    | modem command arguments => exact h.elim
    | _ => trivial
  · trivial

theorem Ask.OfDelivery.offLine {q : Ask κ} (h : q.OfDelivery) : q.OffLine erasing := by
  cases q with
  | update f =>
    obtain ⟨m, rfl⟩ := h
    exact fun q => List.prefix_append _ _
  | modem command arguments => exact h.elim
  | _ => trivial

theorem asks_deliverPhase_offLine : Asks (Ask.OffLine erasing) (deliverPhase : Phase κ Unit) := by
  unfold deliverPhase
  refine (asks_queues trivial).bind fun q => ?_
  refine ((asks_forM asks_deliver _).mono fun _ => Ask.OfDelivery.offLine).bind fun _ => ?_
  exact asks_update fun q => List.prefix_rfl

theorem asks_receivePhase_offLine : Asks (Ask.OffLine erasing) (receivePhase : Phase κ Unit) := by
  have hretrieve : (Ask.modem "retrieve" [] : Ask κ).OffLine erasing := by simp [Ask.OffLine, erasing]
  rw [receivePhase_eq]
  refine (asks_modem hretrieve).bind fun output => (asks_settled _).bind fun records => ?_
  refine ((asks_receiveRecords records []).mono fun _ => Ask.OfCollection.offLine).discard.bind fun _ => ?_
  unfold afterTaking
  dsimp only
  split
  · exact (asks_queues trivial).bind fun q => (asks_log trivial).bind fun _ => asks_deliverPhase_offLine
  · exact asks_deliverPhase_offLine

section

variable {E : Surroundings κ σ} {config : Config} {w v : World κ σ}

/-- In a run of a gateway transmissions come one after the other. -/
theorem Reaches.passes_sending (h : Reaches E config w v) : sending.Passes E config.transmitBatch w v := by
  have htransmit := (sending : Line κ _ _).keeps_passes_phase E config.transmitBatch w
  have hother : ∀ {p : Phase κ Unit}, Asks Ask.OffTransmission p →
      Keeps E (sending.Passes E config.transmitBatch w) p :=
    fun hp => Line.keeps_passes lawful_sending (hp.mono fun _ => Ask.OffTransmission.offLine)
  have hdelete := hother ((asks_deletePhase config.deleteBatch).mono fun _ => Ask.OfDeletion.offTransmission)
  refine h.keeps (fun c v hv => hv.join (lawful_sending.joined_send c v)) (fun a => ?_) .start
  cases a with
  | transmit => exact htransmit
  | receive => exact hother asks_receivePhase
  | deliver => exact hother asks_deliverPhase.offTransmission
  | delete => exact hdelete
  | cycle =>
    refine (keeps_runCycle (fun e v hv => hv.join ?_) htransmit (hother asks_receivePhase) hdelete).discard
    exact ⟨List.prefix_rfl, rfl⟩

/-- In a run of a gateway deletions come one after the other. -/
theorem Reaches.passes_erasing (h : Reaches E config w v) : erasing.Passes E config.deleteBatch w v := by
  have hdelete := (erasing : Line κ _ _).keeps_passes_phase E config.deleteBatch w
  have hother : ∀ {p : Phase κ Unit}, Asks (Ask.OffLine erasing) p →
      Keeps E (erasing.Passes E config.deleteBatch w) p := fun hp => Line.keeps_passes lawful_erasing hp
  have htransmit := hother ((asks_transmitPhase config.transmitBatch).mono fun _ => Ask.OfTransmission.offLine)
  refine h.keeps (fun c v hv => hv.join (lawful_erasing.joined_send c v)) (fun a => ?_) .start
  cases a with
  | transmit => exact htransmit
  | receive => exact hother asks_receivePhase_offLine
  | deliver => exact hother asks_deliverPhase_offLine
  | delete => exact hdelete
  | cycle =>
    refine (keeps_runCycle (fun e v hv => hv.join ?_) htransmit (hother asks_receivePhase_offLine) hdelete).discard
    exact ⟨List.prefix_rfl, rfl⟩

end

/-- Whatever the modem tool and the handlers come to, and whatever is added to the lines at any time: neither a message
to be sent nor a place to be erased waits for ever. Each report that can be read brings it forward by one batch, until
it is in a batch itself; failures never move it. If all goes well and nothing is sent meanwhile, a line of `n` entries
is empty after `n / b` phases, rounded up, and not before. -/
theorem nothing_starves {H : Handlers κ σ} (hH : H.Uncancelled) {size : Value} {b : Nat}
    (hsize : Config.batchCount size = .ok b) (hb : 1 ≤ b) :
    sending.Fair (fun batch results => ∀ p < batch.length, ∃ r ∈ results, Sends p r) H.surroundings size b ∧
    erasing.Fair (fun batch report => ∀ c ∈ batch, report.confirms c.location = true) H.surroundings size b :=
  ⟨Line.fair_of_lawful lawful_sending (clears_sending hH) hH.contained hsize hb,
    Line.fair_of_lawful lawful_erasing (clears_erasing hH.contained) hH.contained hsize hb⟩

/-- Five messages and two places wait, and three make a batch. One message is sent by the phase, one more is added
while it waits and another one afterwards: the fifth then stands in the second place. The report on the two places
cannot be read, and so they stay where they are. -/
theorem nothing_starves_fifth : ∃ w v : World Unit Unit,
    w.queues.outbound.map Outbound.destination = ["+1", "+2", "+3", "+5", "+6"] ∧
    Reaches disorderlyHandlers.surroundings { transmitBatch := .int 3, deleteBatch := .int 3 } w v ∧
    v.queues.outbound[1]? = some ⟨"+6", "f", .nothing, none⟩ ∧ v.queues.deletion[1]? = some ⟨8, none⟩ := by
  let queues : Queues Unit := {
    outbound := [⟨"+1", "a", .nothing, none⟩, ⟨"+2", "b", .nothing, none⟩, ⟨"+3", "c", .nothing, none⟩,
      ⟨"+5", "e", .nothing, none⟩, ⟨"+6", "f", .nothing, none⟩]
    deletion := [⟨7, none⟩, ⟨8, none⟩] }
  let w : World Unit Unit := { queues, outside := () }
  have hstart : Reaches disorderlyHandlers.surroundings { transmitBatch := .int 3, deleteBatch := .int 3 } w w := .start
  have hasked := hstart.act .delete (Replies.runs_run disorderlyReplies_allowed _ _)
  have hsent := hasked.act .transmit (Replies.runs_run disorderlyReplies_allowed _ _)
  have hadded := hsent.send { destination := .text "+7", text := .text "g" }
  have hsize : Config.batchCount (.int 3) = .ok 3 := rfl
  obtain ⟨hsending, herasing⟩ := nothing_starves uncancelled_disorderlyHandlers hsize (by decide)
  have hsecond := hsending.stands (p := 4) (j := 1) hadded.passes_sending (by decide +kernel) rfl (by decide)
  have hlast := herasing.stands (p := 1) (j := 0) hadded.passes_erasing (by decide +kernel) rfl (by decide)
  exact ⟨w, _, rfl, hadded, hsecond, hlast⟩

end SmsRelay.Gateway
