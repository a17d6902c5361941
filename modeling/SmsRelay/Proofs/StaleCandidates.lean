-- SUMMARY: A place that is queued more often than a batch holds: the next record in it is erased unread.
import SmsRelay.Proofs.Erasure

/-!
# Stale candidates

A record that the application takes again and again, while every attempt to
erase it fails, fills the queue with candidates for one place. When there are
more of them than a batch holds, and the place is erased at last, some stay in
the queue. They are stale: the next record in that place is erased unread.
-/

namespace SmsRelay

open Gateway Gateway.Phase

variable {κ : Type}

namespace Site

/-! ## The device and the application -/

def firstRecord : Value := .object [("from", .text "+1"), ("location", .int 1), ("content", .text "first")]

def secondRecord : Value := .object [("from", .text "+2"), ("location", .int 1), ("content", .text "second")]

/-- What the first record describes. -/
def firstMessage : Message := { sender := "+1", text := "first", location := 1 }

/-- The candidate that the first message gives rise to. -/
def firstCandidate : Candidate := ⟨1, some firstMessage⟩

/-- The modem tool has erased the place. -/
def erasedReport : Value := .object [("detail", .object [("1", .text "ok")])]

def toolFailure : Fault := .tool { command := "delete", problem := "exited with non-zero status 1" }

/-- A modem tool that shows what is on the device, or fails, and that erases places, or fails. The
application takes every message, and its inbox has no part in this. -/
def replies (shows erases : Bool) : Replies κ Site where
  modem s command arguments :=
    if command = "retrieve" then
      if shows then (.ok (.list (s.slots.map Slot.record)), [], s.retrieve) else (.error toolFailure, [], s)
    else if command = "delete" then
      if erases then (.ok erasedReport, [], s.erase (confirmed arguments (.ok erasedReport)))
      else (.error toolFailure, [], s)
    else (.error toolFailure, [], s)
  request s
    | .receive m => (.ok .nothing, [], s.take m)
    | .transmit .. => (.ok .nothing, [], s)
    | r => ((Application.reply "" s.store r).1, [], { s with store := (Application.reply "" s.store r).2 })
  notify s n := ([], { s with store := Application.noted s.store n })

theorem replies_allowed (shows erases : Bool) : (replies (κ := κ) shows erases).Allowed surroundings where
  modem s command arguments := by
    have hfailed : Ordinary (.error toolFailure : Except Fault Value) := ordinary_error rfl
    by_cases hretrieve : command = "retrieve"
    · subst hretrieve
      cases shows with
      | true => exact ⟨ordinary_ok _, .inl ⟨_, .refl _, rfl, rfl⟩⟩
      | false => exact ⟨hfailed, .inr ⟨nofun, rfl⟩⟩
    · by_cases hdelete : command = "delete"
      · subst hdelete
        cases erases with
        | true => exact ⟨ordinary_ok _, rfl⟩
        | false =>
          refine ⟨hfailed, (erase_none s).symm.trans ?_⟩
          exact congrArg s.erase (confirmed_of_error rfl).symm
      · simp only [replies, surroundings, if_neg hretrieve, if_neg hdelete]
        exact ⟨hfailed, trivial⟩
  request s r := by
    cases r with
    | receive m => exact ⟨ordinary_ok _, s.store, rfl, .refl _, rfl⟩
    | transmit m t => exact ⟨ordinary_ok _, rfl⟩
    | receiveSegment m =>
      exact ⟨Application.ordinary_reply (κ := κ) "" s.store (.receiveSegment m), "", _, rfl, rfl⟩
    | returnSegments key =>
      exact ⟨Application.ordinary_reply (κ := κ) "" s.store (.returnSegments key), "", _, rfl, rfl⟩
  notify s n := ⟨rfl, rfl⟩
  callback s k m t := ⟨rfl, rfl⟩

/-! ## Cycles -/

/-- The message is taken once more, and is not erased. -/
theorem refused_cycle (config : Config) (b : Nat) {queue : List Candidate} {shown : Bool} {taken : List Message}
    {w : World κ Site} (hqueues : w.queues = { deletion := queue })
    (houtside : w.outside = { slots := [⟨1, firstRecord, shown, taken⟩] }) :
    ∃ v r, (runCycle { config with deleteBatch := .int (b + 1) }).Runs surroundings w r v ∧
      v.queues = { deletion := queue ++ [firstCandidate] } ∧
      v.outside = { slots := [⟨1, firstRecord, true, firstMessage :: taken⟩] } ∧
      calls v.history = (queue ++ [firstCandidate]) :: calls w.history := by
  refine ⟨_, _, Replies.runs_run (replies_allowed true false) _ w, ?_⟩
  obtain ⟨queues, outside, history⟩ := w
  obtain rfl : queues = _ := hqueues
  obtain rfl : outside = _ := houtside
  cases queue with
  | nil => exact ⟨rfl, rfl, rfl⟩
  | cons c queue => exact ⟨rfl, rfl, rfl⟩

section

variable {w v₁ v₂ v₃ : World κ Site} {n : Nat}

/-- All candidates are confirmed. -/
theorem run_settle (shows : Bool) (k : Nat) {report : DeletionReport}
    (hreport : report.confirms firstCandidate.location = true)
    (hstore : w.outside.store = ({} : Store).initialise) :
    ∃ v, (replies shows true).run ((List.replicate k firstCandidate).foldlM (settle report) []) w = (.ok [], v) ∧
      v.queues = w.queues ∧ v.outside = w.outside ∧ calls v.history = calls w.history := by
  induction k generalizing w with
  | zero => exact ⟨w, rfl, rfl, rfl, rfl⟩
  | succ k ih =>
    have hsettle : (replies shows true).run (settle report [] firstCandidate) w =
        (.ok [], w.note (.notice (.deleted firstCandidate))) := by
      unfold settle
      rw [if_pos hreport]
      obtain ⟨queues, ⟨slots, erased, store⟩, history⟩ := w
      obtain rfl : store = _ := hstore
      rfl
    obtain ⟨v, hrun, hqueues, houtside, hcalls⟩ := ih (w := w.note (.notice (.deleted firstCandidate))) hstore
    refine ⟨v, ?_, hqueues, houtside, hcalls⟩
    rw [List.replicate_succ, List.foldlM_cons, Replies.run_bind_ok hsettle]
    exact hrun

/-- The place is erased. -/
theorem run_deletePhase (shows : Bool) {k : Nat} {size : Value} (hsize : Config.batchCount size = .ok n)
    (hbatch : w.queues.deletion.take n = List.replicate (k + 1) firstCandidate)
    (hstore : w.outside.store = ({} : Store).initialise) :
    ∃ v, (replies shows true).run (deletePhase size) w = (.ok (), v) ∧
      v.queues = { w.queues with deletion := w.queues.deletion.drop (k + 1) } ∧
      v.outside = w.outside.erase
        (confirmed (Candidate.arguments (List.replicate (k + 1) firstCandidate)) (.ok erasedReport)) ∧
      calls v.history = w.queues.deletion :: calls w.history := by
  have hne : ¬ w.queues.deletion.isEmpty = true := by
    intro hnil
    rw [List.isEmpty_iff.mp hnil] at hbatch
    simp at hbatch
  let v : World κ Site := w.answered []
    (w.outside.erase (confirmed (Candidate.arguments (List.replicate (k + 1) firstCandidate)) (.ok erasedReport)))
    fun q => .modem q "delete" (Candidate.arguments (List.replicate (k + 1) firstCandidate)) (.ok erasedReport)
  have hstore' : v.outside.store = ({} : Store).initialise := hstore
  have hreport : DeletionReport.confirms ⟨[("1", "ok")]⟩ firstCandidate.location = true := rfl
  obtain ⟨u, hsettle, hqueues, houtside, hcalls⟩ := run_settle shows (k + 1) hreport hstore'
  unfold deletePhase
  rw [Replies.run_bind_ok (a := w.queues) (v := w) rfl, if_neg hne, hsize, Replies.run_bind_ok (a := n) (v := w) rfl,
    hbatch, Replies.run_bind_ok (a := erasedReport) (v := v) rfl,
    Replies.run_bind_ok (a := ⟨[("1", "ok")]⟩) (v := v) rfl, Replies.run_bind_ok hsettle]
  refine ⟨_, rfl, ?_, houtside, hcalls⟩
  have hrest : u.queues.deletion = w.queues.deletion := by
    rw [hqueues]
    rfl
  have hrequeued : requeueDeletion (List.replicate (k + 1) firstCandidate) [] u.queues =
      { w.queues with deletion := w.queues.deletion.drop (k + 1) } := by
    rw [requeueDeletion, List.append_nil, List.length_replicate, hqueues]
    rfl
  exact hrequeued

/-- The deletion comes last in a cycle. -/
theorem run_runCycle (config : Config) {R : Replies κ Site} {t r : Option Fault}
    (htransmit : R.run (runPhase "Transmit" (transmitPhase config.transmitBatch)) w = (.ok t, v₁))
    (hreceive : R.run (runPhase "Receive" receivePhase) v₁ = (.ok r, v₂))
    (hdelete : R.run (deletePhase config.deleteBatch) v₂ = (.ok (), v₃)) :
    (R.run (runCycle config) w).2.queues = v₃.queues ∧ (R.run (runCycle config) w).2.outside = v₃.outside ∧
      calls (R.run (runCycle config) w).2.history = calls v₃.history := by
  unfold runCycle
  rw [Replies.run_bind_ok htransmit, Replies.run_bind_ok hreceive,
    Replies.run_bind_ok (Replies.run_runPhase_ok hdelete)]
  dsimp only
  split
  · exact ⟨rfl, rfl, rfl⟩
  · exact ⟨rfl, rfl, rfl⟩

end

/-- The place that the candidates name is confirmed. -/
theorem confirmed_first (k : Nat) :
    confirmed (Candidate.arguments (List.replicate (k + 1) firstCandidate)) (.ok erasedReport) 1 = true := by
  have hreport : .ok erasedReport >>= DeletionReport.ofOutput = .ok ⟨[("1", "ok")]⟩ := rfl
  rw [confirmed_iff hreport]
  exact ⟨⟨firstCandidate, List.mem_replicate.mpr ⟨by simp, rfl⟩, rfl⟩, rfl⟩

/-- The message is taken once more, and its place is erased. One candidate more than a batch holds stays. -/
theorem erasing_cycle (config : Config) (b : Nat) {shown : Bool} {taken : List Message} {w : World κ Site}
    (hqueues : w.queues = { deletion := List.replicate (b + 1) firstCandidate })
    (houtside : w.outside = { slots := [⟨1, firstRecord, shown, taken⟩] }) :
    ∃ v r, (runCycle { config with deleteBatch := .int (b + 1) }).Runs surroundings w r v ∧
      v.queues = { deletion := [firstCandidate] } ∧ v.outside.slots = [] ∧
      v.outside.store = ({} : Store).initialise ∧
      calls v.history = (List.replicate (b + 1) firstCandidate ++ [firstCandidate]) :: calls w.history := by
  have htransmit : (replies true true).run (runPhase "Transmit" (transmitPhase config.transmitBatch)) w =
      (.ok none, w) := by
    obtain ⟨queues, outside, history⟩ := w
    obtain rfl : queues = _ := hqueues
    rfl
  have hreceive : ∃ v, (replies true true).run (runPhase "Receive" receivePhase) w = (.ok none, v) ∧
      v.queues = { deletion := List.replicate (b + 1) firstCandidate ++ [firstCandidate] } ∧
      v.outside = { slots := [⟨1, firstRecord, true, firstMessage :: taken⟩] } ∧ calls v.history = calls w.history := by
    obtain ⟨queues, outside, history⟩ := w
    obtain rfl : queues = _ := hqueues
    obtain rfl : outside = _ := houtside
    exact ⟨_, rfl, rfl, rfl, rfl⟩
  obtain ⟨v₂, hreceive, hqueues₂, houtside₂, hcalls₂⟩ := hreceive
  have hbatch : v₂.queues.deletion.take (b + 1) = List.replicate (b + 1) firstCandidate := by
    rw [hqueues₂]
    exact List.take_left' List.length_replicate
  have hrest : v₂.queues.deletion.drop (b + 1) = [firstCandidate] := by
    rw [hqueues₂]
    exact List.drop_left' List.length_replicate
  have hsize : Config.batchCount (.int (b + 1)) = .ok (b + 1) := rfl
  have hstore₂ : v₂.outside.store = ({} : Store).initialise := by rw [houtside₂]
  obtain ⟨v₃, hdelete, hqueues₃, houtside₃, hcalls₃⟩ := run_deletePhase true hsize hbatch hstore₂
  obtain ⟨hqueues, houtside, hcalls⟩ := run_runCycle { config with deleteBatch := .int (b + 1) }
    htransmit hreceive hdelete
  refine ⟨_, _, Replies.runs_run (replies_allowed true true) _ w, ?_, ?_, ?_, ?_⟩
  · rw [hqueues, hqueues₃, hrest, hqueues₂]
  · rw [houtside, houtside₃, houtside₂]
    simp [erase, confirmed_first]
  · rw [houtside, houtside₃, houtside₂]
    rfl
  · rw [hcalls, hcalls₃, hcalls₂, hqueues₂]

/-- Nothing is shown, and the place is erased. -/
theorem stale_cycle (config : Config) (b : Nat) {t : Slot} (ht : t.location = 1) {erased : List Slot} {w : World κ Site}
    (hqueues : w.queues = { deletion := [firstCandidate] }) (houtside : w.outside = { slots := [t], erased }) :
    ∃ v r, (runCycle { config with deleteBatch := .int (b + 1) }).Runs surroundings w r v ∧ t ∈ v.outside.erased ∧
      calls v.history = [firstCandidate] :: calls w.history := by
  have htransmit : (replies false true).run (runPhase "Transmit" (transmitPhase config.transmitBatch)) w =
      (.ok none, w) := by
    obtain ⟨queues, outside, history⟩ := w
    obtain rfl : queues = _ := hqueues
    rfl
  have hreceive : ∃ v r, (replies false true).run (runPhase "Receive" receivePhase) w = (.ok r, v) ∧
      v.queues = { deletion := [firstCandidate] } ∧ v.outside = { slots := [t], erased } ∧
      calls v.history = calls w.history := by
    obtain ⟨queues, outside, history⟩ := w
    obtain rfl : queues = _ := hqueues
    obtain rfl : outside = _ := houtside
    exact ⟨_, _, rfl, rfl, rfl, rfl⟩
  obtain ⟨v₂, r, hreceive, hqueues₂, houtside₂, hcalls₂⟩ := hreceive
  have hsize : Config.batchCount (.int (b + 1)) = .ok (b + 1) := rfl
  have hbatch : v₂.queues.deletion.take (b + 1) = List.replicate (0 + 1) firstCandidate := by
    rw [hqueues₂]
    simp
  have hstore₂ : v₂.outside.store = ({} : Store).initialise := by rw [houtside₂]
  obtain ⟨v₃, hdelete, -, houtside₃, hcalls₃⟩ := run_deletePhase false hsize hbatch hstore₂
  obtain ⟨-, houtside, hcalls⟩ := run_runCycle { config with deleteBatch := .int (b + 1) }
    htransmit hreceive hdelete
  refine ⟨_, _, Replies.runs_run (replies_allowed false true) _ w, ?_, ?_⟩
  · rw [houtside, houtside₃, houtside₂]
    have hconfirmed := confirmed_first 0
    rw [← ht] at hconfirmed
    exact List.mem_append_left _ (List.mem_filter.mpr ⟨List.mem_singleton_self t, hconfirmed⟩)
  · rw [hcalls, hcalls₃, hcalls₂, hqueues₂]

/-! ## A run -/

section

variable (config : Config) (b : Nat)

/-- The message has been taken a number of times, and its place is still to be erased. -/
theorem visits_refused (j : Nat) : ∃ (w : World κ Site) (shown : Bool) (taken : List Message),
    Visits { config with deleteBatch := .int (b + 1) } w ∧
    w.queues = { deletion := List.replicate j firstCandidate } ∧
    w.outside = { slots := [⟨1, firstRecord, shown, taken⟩] } ∧ ∀ queue ∈ calls w.history, queue.length ≤ j := by
  induction j with
  | zero =>
    have hlocated : ∀ m, Record.message firstRecord = .ok m → m.location = 1 := by
      intro m hm
      cases hm
      rfl
    exact ⟨_, false, [], .arrive .start (by simp) hlocated, rfl, rfl, by simp [calls]⟩
  | succ j ih =>
    obtain ⟨w, shown, taken, hvisits, hqueues, houtside, hcalls⟩ := ih
    obtain ⟨v, r, hruns, hqueues', houtside', hcalls'⟩ := refused_cycle config b hqueues houtside
    rw [← List.replicate_succ'] at hqueues' hcalls'
    refine ⟨v, true, _, hvisits.cycle hruns, hqueues', houtside', ?_⟩
    rw [hcalls', List.forall_mem_cons, List.length_replicate]
    exact ⟨Nat.le_refl _, fun queue hq => Nat.le_succ_of_le (hcalls queue hq)⟩

/-- With one candidate more than a batch holds a record may be erased that nobody has seen. -/
theorem erased_unread : ∃ w : World κ Site, Visits { config with deleteBatch := .int (b + 1) } w ∧
    (∀ queue ∈ calls w.history, queue.length ≤ b + 2) ∧ ∃ t ∈ w.outside.erased, ¬ t.Acknowledged := by
  obtain ⟨w, shown, taken, hvisits, hqueues, houtside, hcalls⟩ := visits_refused (κ := κ) config b (b + 1)
  obtain ⟨v, r, hruns, hqueues', hslots, hstore, hcalls'⟩ := erasing_cycle config b hqueues houtside
  have hv := hvisits.cycle hruns
  -- another record comes in at the place that is free now
  have hfree : ∀ t ∈ v.outside.slots, t.location ≠ 1 := by simp [hslots]
  have hlocated : ∀ m, Record.message secondRecord = .ok m → m.location = 1 := by
    intro m hm
    cases hm
    rfl
  have harrived := hv.arrive hfree hlocated
  have houtside' : v.outside.arrive 1 secondRecord =
      { slots := [⟨1, secondRecord, false, []⟩], erased := v.outside.erased } := by
    rw [arrive, hslots, ← hstore]
  obtain ⟨u, r', hruns', hmem, hcalls''⟩ := stale_cycle config b rfl
    (w := { v with outside := v.outside.arrive 1 secondRecord }) hqueues' houtside'
  refine ⟨u, harrived.cycle hruns', ?_, _, hmem, by simp [Slot.Acknowledged]⟩
  rw [hcalls'', List.forall_mem_cons]
  refine ⟨by simp, ?_⟩
  rw [hcalls', List.forall_mem_cons, List.length_append, List.length_replicate]
  exact ⟨Nat.le_refl _, fun queue hq => Nat.le_succ_of_le (hcalls queue hq)⟩

end

/-- A batch holds some candidates at most. Records that are erased have been acknowledged in every run in
which no place has been both in a batch and behind it. If all that is known is that the queue has never
held more than `n` candidates at a call to erase, that is enough if and only if a batch holds them all. -/
theorem acknowledged_iff_batch_holds_queue (config : Config) (b : Nat) :
    (∀ w : World κ Site, Visits { config with deleteBatch := .int (b + 1) } w →
      (∀ queue ∈ calls w.history, Separate (b + 1) queue) → ∀ t ∈ w.outside.erased, t.Acknowledged) ∧
    ∀ n, (∀ w : World κ Site, Visits { config with deleteBatch := .int (b + 1) } w →
      (∀ queue ∈ calls w.history, queue.length ≤ n) → ∀ t ∈ w.outside.erased, t.Acknowledged) ↔ n ≤ b + 1 := by
  have hsound : ∀ w : World κ Site, Visits { config with deleteBatch := .int (b + 1) } w →
      (∀ queue ∈ calls w.history, Separate (b + 1) queue) → ∀ t ∈ w.outside.erased, t.Acknowledged := by
    intro w hvisits hcareful
    have hidle : Idle w := hvisits.idle (n := b + 1) rfl hcareful
    exact hidle.sound.erased
  refine ⟨hsound, fun n => ?_⟩
  constructor
  · intro h
    by_contra hn
    obtain ⟨w, hvisits, hcalls, t, ht, hunread⟩ := erased_unread (κ := κ) config b
    apply hunread
    apply h w hvisits _ t ht
    intro queue hq
    have hle := hcalls queue hq
    omega
  · intro hn w hvisits hcalls
    apply hsound w hvisits
    intro queue hq c _ d hd
    have hle := hcalls queue hq
    rw [List.drop_eq_nil_of_le (by omega)] at hd
    cases hd

end Site

end SmsRelay
