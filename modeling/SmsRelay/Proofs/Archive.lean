-- SUMMARY: The store seen from outside as a map and a log, and its agreement with that through any row of calls.
import Mathlib.Data.List.Sort
import Mathlib.Data.Set.Card
import SmsRelay.Proofs.IsoText
import SmsRelay.Proofs.Rows

/-!
# The store as an archive

Seen from outside the store is a map and a log: the map leads from a group and
the number of a part to what is kept of the part, the log lists the accepted
messages. Whatever calls are made, the answers are those of an archive, and a
call with a text that cannot be stored is refused. The proof holds the table of
parts against the list of messages that its rows stand for.
-/

namespace SmsRelay

/-! ## Archives -/

/-- What is kept of a part. -/
structure Kept where
  location : Int
  text : String
  timestamp : Option Timestamp

/-- Which part of which group a message is. -/
def Message.slot (m : Message) : String × Int := (m.key, m.part)

/-- What there is to keep of a message. -/
def Message.kept (m : Message) : Kept := ⟨m.location, m.text, m.timestamp⟩

/-- The same with its timestamp as it is read back from its text. -/
def Kept.settled (v : Kept) : Kept := { v with timestamp := v.timestamp.map Timestamp.settled }

/-- An accepted message. -/
structure Archive.Entry where
  id : Nat
  message : Message
  receivedAt : String

/-- The row that is shown of an accepted message. -/
def Archive.Entry.row (e : Archive.Entry) : Store.Received := .of e.id e.receivedAt e.message

structure Archive where
  waiting : String × Int → Option Kept
  finite : {k | (waiting k).isSome}.Finite
  /-- The newest message first. -/
  accepted : List Archive.Entry

/-- Calls to the store. -/
inductive Store.Call where
  | saveSegment (m : Message)
  | loadSegments (key : String)
  | forget (location : Int)
  | saveReceived (now : String) (m : Message)
  | listReceived (limit : Option Int)

/-- The texts of the call can be stored. -/
def Store.Call.isWhole : Store.Call → Bool
  | .saveSegment m => m.isWhole
  | .loadSegments key => Text.isWhole key
  | .saveReceived _ m => Text.isWhole m.sender && Text.isWhole m.text
  | .forget _ => true
  | .listReceived _ => true

/-- Answers of the store. -/
inductive Store.Answer where
  | done
  | parts (ms : List Message)
  | count (n : Nat)
  | id (n : Nat)
  | received (rows : List Store.Received)

namespace Archive

variable {write : Message → Kept}

def empty : Archive := ⟨fun _ => none, by simp, []⟩

/-- Keep something for a part; nothing else changes. -/
def keep (a : Archive) (slot : String × Int) (v : Kept) : Archive where
  waiting k := if k = slot then some v else a.waiting k
  finite := by
    refine (a.finite.insert slot).subset fun k hk => ?_
    by_cases hslot : k = slot
    · exact .inl hslot
    · exact .inr (by simpa [hslot] using hk)
  accepted := a.accepted

/-- Drop the parts that are from a place. -/
def forget (a : Archive) (l : Int) : Archive where
  waiting k := (a.waiting k).filter fun v => v.location ≠ l
  finite := a.finite.subset fun k hk => by
    obtain ⟨v, hv⟩ := Option.isSome_iff_exists.mp hk
    exact Option.isSome_iff_exists.mpr ⟨v, (Option.filter_eq_some_iff.mp hv).1⟩
  accepted := a.accepted

/-- Accept a message. If it is one of several parts, the parts of its group are dropped. -/
def accept (a : Archive) (e : Entry) : Archive where
  waiting k := if 1 < e.message.total ∧ k.1 = e.message.key then none else a.waiting k
  finite := a.finite.subset fun k hk => by
    by_cases hgone : 1 < e.message.total ∧ k.1 = e.message.key
    · simp [hgone] at hk
    · simpa [hgone] using hk
  accepted := e :: a.accepted

/-- The accepted messages, the newest first, and no more than a limit allows. A negative limit
allows all. -/
def newest (a : Archive) : Option Int → List Entry
  | none => a.accepted
  | some n => if n < 0 then a.accepted else a.accepted.take n.toNat

/-- What a call may answer and what becomes of the archive, if `write m` is kept of a part `m`. -/
inductive Answers (write : Message → Kept) (a : Archive) : Store.Call → Store.Answer → Archive → Prop
  | saveSegment (m : Message) : Answers write a (.saveSegment m) .done (a.keep m.slot (write m))
  | loadSegments (key : String) (ms : List Message)
      (ofGroup : ∀ m ∈ ms, m.key = key)
      (ascending : (ms.map Message.part).Pairwise (· < ·))
      (exact : ∀ p v, a.waiting (key, p) = some v ↔ ∃ m ∈ ms, m.part = p ∧ m.kept = v) :
      Answers write a (.loadSegments key) (.parts ms) a
  | forget (l : Int) (n : Nat) (count : {k | ∃ v, a.waiting k = some v ∧ v.location = l}.encard = n) :
      Answers write a (.forget l) (.count n) (a.forget l)
  | saveReceived (now : String) (m : Message) (id : Nat) :
      Answers write a (.saveReceived now m) (.id id) (a.accept ⟨id, m, now⟩)
  | listReceived (limit : Option Int)
      (decreasing : (a.accepted.map Entry.id).Pairwise (· > ·)) :
      Answers write a (.listReceived limit) (.received ((a.newest limit).map Entry.row)) a

/-- A call returns with an answer, unless a text of it cannot be stored; then it is refused and changes nothing. -/
inductive Meets (write : Message → Kept) (a : Archive) : Store.Call → Except Fault Store.Answer → Archive → Prop
  | returned {c : Store.Call} {r : Store.Answer} {a' : Archive} (whole : c.isWhole = true)
      (answers : a.Answers write c r a') : Meets write a c (.ok r) a'
  | refused {c : Store.Call} (broken : c.isWhole = false) (place : Nat) (codes : List Nat) :
      Meets write a c (.error (.loneSurrogates place codes)) a

/-- What a sequence of calls comes to. -/
inductive Serves (write : Message → Kept) : Archive → List Store.Call → List (Except Fault Store.Answer) → Archive → Prop
  | nil (a : Archive) : Serves write a [] [] a
  | cons {a a' a'' : Archive} {c : Store.Call} {cs : List Store.Call} {r : Except Fault Store.Answer}
      {rs : List (Except Fault Store.Answer)} (first : a.Meets write c r a') (rest : Serves write a' cs rs a'') :
      Serves write a (c :: cs) (r :: rs) a''

end Archive

namespace Store

/-- One call. -/
def answer (s : Store) : Call → Except Fault (Answer × Store)
  | .saveSegment m => do return (.done, ← s.saveSegment m.unchecked)
  | .loadSegments key => do return (.parts (← s.loadSegments (.text key)), s)
  | .forget l => do
    let (n, s) ← s.forget (.int l)
    return (.count n, s)
  | .saveReceived now m => do
    let (id, s) ← s.saveReceived now m.unchecked
    return (.id id, s)
  | .listReceived limit => do return (.received (← s.listReceived (limit.elim .null .int)), s)

/-- What one call comes to, and the store after it. A call that is refused changes nothing. -/
def respond (s : Store) (c : Call) : Except Fault Answer × Store :=
  match s.answer c with
  | .ok (r, s') => (.ok r, s')
  | .error f => (.error f, s)

/-- Calls one after the other. -/
def serve (s : Store) : List Call → List (Except Fault Answer) × Store
  | [] => ([], s)
  | c :: cs =>
    let (r, s) := s.respond c
    let (rs, s) := s.serve cs
    (r :: rs, s)

/-- The numbers of the call fit the columns of the store, and where there may be a number or a text there is
nothing else. -/
def Call.Fits : Call → Prop
  | .saveSegment m => m.Fits
  | .loadSegments _ => True
  | .forget l => Cell.fits l = true
  | .saveReceived _ m => Cell.fits m.total = true ∧ (m.header = .null ∨ ∃ n, m.header = .int n)
  | .listReceived limit => ∀ n ∈ limit, Cell.fits n = true

end Store

/-! ## Timestamps in the store -/

@[simp] theorem Message.kept_reread (m : Message) : m.reread.kept = m.kept.settled := by
  unfold reread kept Kept.settled
  cases m.timestamp with
  | none => rfl
  | some t => simp [Timestamp.Iso.read_isoChars]

/-! ## The messages that rows stand for -/

/-- The old copy of a part after another copy of it has come. -/
def Message.refresh (old new : Message) : Message :=
  { old with location := new.location, text := new.text, timestamp := new.timestamp }

namespace Message

variable {m old : Message} {ms : List Message}

@[simp] theorem slot_refresh (old new : Message) : (old.refresh new).slot = old.slot := rfl

theorem Storable.refresh (hold : old.Storable) (hm : m.Storable) : (old.refresh m).Storable :=
  ⟨hold.part, hm.location, hold.total, hold.header, hold.sender, hm.text, hold.smsc⟩

/-- The messages with another copy of a part, or with a new part. -/
def enter (m : Message) (ms : List Message) : List Message :=
  if ms.any (·.slot = m.slot) then ms.map fun a => if a.slot = m.slot then a.refresh m else a else ms ++ [m]

theorem mem_enter {x : Message} (h : x ∈ enter m ms) :
    (x ∈ ms ∧ x.slot ≠ m.slot) ∨ (x.slot = m.slot ∧ x.kept = m.kept) := by
  unfold enter at h
  split at h
  · obtain ⟨a, ha, rfl⟩ := List.mem_map.mp h
    split
    · rename_i hslot
      exact .inr ⟨hslot, rfl⟩
    · rename_i hslot
      exact .inl ⟨ha, hslot⟩
  · rename_i hany
    rcases List.mem_append.mp h with h | h
    · refine .inl ⟨h, fun hslot => hany ?_⟩
      exact List.any_eq_true.mpr ⟨x, h, decide_eq_true hslot⟩
    · obtain rfl := List.mem_singleton.mp h
      exact .inr ⟨rfl, rfl⟩

theorem mem_enter_of_ne {x : Message} (h : x ∈ ms) (hslot : x.slot ≠ m.slot) : x ∈ enter m ms := by
  unfold enter
  split
  · exact List.mem_map.mpr ⟨x, h, if_neg hslot⟩
  · exact List.mem_append_left _ h

theorem exists_mem_enter (m : Message) (ms : List Message) :
    ∃ x ∈ enter m ms, x.slot = m.slot ∧ x.kept = m.kept := by
  unfold enter
  split
  · rename_i hany
    obtain ⟨a, ha, hslot⟩ := List.any_eq_true.mp hany
    have hslot := of_decide_eq_true hslot
    exact ⟨a.refresh m, List.mem_map.mpr ⟨a, ha, if_pos hslot⟩, hslot, rfl⟩
  · exact ⟨m, by simp, rfl, rfl⟩

theorem nodup_slot_enter (h : (ms.map slot).Nodup) : ((enter m ms).map slot).Nodup := by
  unfold enter
  split
  · have hslots : (ms.map fun a => if a.slot = m.slot then a.refresh m else a).map slot = ms.map slot := by
      rw [List.map_map]
      refine List.map_congr_left fun a _ => ?_
      rw [Function.comp_apply]
      split <;> rfl
    rwa [hslots]
  · rename_i hany
    rw [List.map_append, List.map_singleton, List.nodup_append]
    refine ⟨h, List.nodup_singleton _, ?_⟩
    intro k hk l hl
    obtain ⟨a, ha, rfl⟩ := List.mem_map.mp hk
    obtain rfl := List.mem_singleton.mp hl
    exact fun hslot => hany (List.any_eq_true.mpr ⟨a, ha, decide_eq_true hslot⟩)

theorem storable_enter (hms : ∀ a ∈ ms, a.Storable) (hm : m.Storable) : ∀ a ∈ enter m ms, a.Storable := by
  intro x hx
  unfold enter at hx
  split at hx
  · obtain ⟨a, ha, rfl⟩ := List.mem_map.mp hx
    split
    · exact (hms a ha).refresh hm
    · exact hms a ha
  · rcases List.mem_append.mp hx with hx | hx
    · exact hms x hx
    · exact List.mem_singleton.mp hx ▸ hm

end Message

@[simp] theorem Message.location_kept (m : Message) : m.kept.location = m.location := rfl

@[simp] theorem Kept.location_settled (v : Kept) : v.settled.location = v.location := rfl

namespace Store

theorem samePart_of_slot (a b : Message) : (Segment.of a).samePart (Segment.of b) = decide (a.slot = b.slot) := by
  rw [Bool.eq_iff_iff, samePart_of, decide_eq_true_iff, Message.slot, Message.slot, Prod.mk.injEq]

/-- A row that goes into the table is a message that is entered. -/
theorem upsert_of (m : Message) (ms : List Message) :
    upsert (Segment.of m) (ms.map Segment.of) = (Message.enter m ms).map Segment.of := by
  have hany : (ms.map Segment.of).any (·.samePart (Segment.of m)) = ms.any (·.slot = m.slot) := by
    rw [List.any_map]
    exact congrArg ms.any (funext fun a => samePart_of_slot a m)
  unfold upsert Message.enter
  rw [hany]
  split
  · rw [List.map_map, List.map_map]
    refine List.map_congr_left fun a _ => ?_
    simp only [Function.comp_apply, samePart_of_slot, decide_eq_true_iff]
    split <;> rfl
  · rw [List.map_append, List.map_singleton]

/-- A store drops the parts that are from a place, and counts them. -/
theorem forget_of_fits {s : Store} (hready : s.ready = true) {l : Int} (hl : Cell.fits l = true)
    {ms : List Message} (hrows : s.segments = ms.map Segment.of) :
    s.forget (.int l) = .ok ((ms.filter (·.location = l)).length,
      { s with segments := (ms.filter (·.location ≠ l)).map Segment.of }) := by
  have hgone : s.segments.filter (fun r => r.location.same (.int l)) =
      (ms.filter (·.location = l)).map Segment.of := by
    rw [hrows, List.filter_map]
    exact congrArg _ (List.filter_congr fun m _ => by simp)
  have hkept : s.segments.filter (fun r => !r.location.same (.int l)) =
      (ms.filter (·.location ≠ l)).map Segment.of := by
    rw [hrows, List.filter_map]
    exact congrArg _ (List.filter_congr fun m _ => by simp)
  simp only [forget, require, hready, if_true, Cell.ofValue_int hl, Cell.inIntegerColumn_int,
    List.partition_eq_filter_filter, bind, Except.bind, pure, Except.pure]
  rw [hgone, List.length_map, ← hkept]
  rfl

theorem listReceived_of_fits {s : Store} (hready : s.ready = true) {limit : Option Int}
    (hlimit : ∀ n ∈ limit, Cell.fits n = true) :
    s.listReceived (limit.elim .null .int) = .ok (match limit with
      | none => s.inbox
      | some n => if n < 0 then s.inbox else s.inbox.take n.toNat) := by
  cases limit with
  | none => simp [listReceived, require, hready, Value.isNull, bind, Except.bind, pure, Except.pure]
  | some n =>
    have hn : Cell.ofValue 1 (.int n) = .ok (.int n) := Cell.ofValue_int (hlimit n rfl)
    by_cases hneg : n < 0 <;>
      simp [listReceived, require, hready, Value.isNull, bind, Except.bind, pure, Except.pure, hn, readLimit, hneg]

/-- A new entry of the inbox has a greater number than all before. -/
theorem lt_nextId {s : Store} {r : Received} (h : r ∈ s.inbox) : r.id < s.nextId := by
  have hmax : ∀ {ns : List Nat} {n : Nat}, n ∈ ns → n ≤ ns.foldr max 0 := by
    intro ns n hn
    induction ns with
    | nil => cases hn
    | cons m ns ih =>
      rcases List.mem_cons.mp hn with rfl | hn
      · exact le_max_left _ _
      · exact (ih hn).trans (le_max_right _ _)
  exact Nat.lt_succ_of_le (hmax (List.mem_map_of_mem h))

end Store

/-! ## Calls with texts that can be stored, and others -/

namespace Store

variable {s : Store} {m : Message} {now : String}

theorem isEnterable_of_fits (hfits : (Call.saveReceived now m).Fits)
    (hwhole : (Call.saveReceived now m).isWhole = true) : m.isEnterable = true := by
  simp only [Call.isWhole, Bool.and_eq_true] at hwhole
  have hkey : Text.isWhole m.key = true := isWhole_groupKey hfits.2 m.total hwhole.1
  rw [Message.isEnterable, hfits.1, hwhole.1, hwhole.2, hkey, Bool.or_true]
  rfl

theorem saveReceived_of_not_isWhole (hready : s.ready = true) (now : String)
    (hbroken : (Text.isWhole m.sender && Text.isWhole m.text) = false) :
    ∃ place codes, s.saveReceived now m.unchecked = .error (.loneSurrogates place codes) := by
  have hsender : m.unchecked.sender = .text m.sender := by cases m; rfl
  have htext : m.unchecked.text = .text m.text := by cases m; rfl
  simp only [saveReceived, require, hready, Received.ofMessage, hsender, htext, Message.iso?_unchecked,
    Message.locations_unchecked, Cell.ofValue_text, if_true, bind, Except.bind]
  cases hs : Text.isWhole m.sender with
  | false =>
    obtain ⟨place, codes, hf⟩ := Cell.ofText_of_not_isWhole hs
    exact ⟨place, codes, by rw [hf]⟩
  | true =>
    rw [hs, Bool.true_and] at hbroken
    obtain ⟨place, codes, hf⟩ := Cell.ofText_of_not_isWhole hbroken
    exact ⟨place, codes, by rw [Cell.ofText_of_isWhole hs, hf]⟩

/-- A call with a text that cannot be stored is refused for it. -/
theorem answer_of_not_isWhole (hready : s.ready = true) {c : Call} (hfits : c.Fits) (hbroken : c.isWhole = false) :
    ∃ place codes, s.answer c = .error (.loneSurrogates place codes) := by
  cases c with
  | saveSegment m =>
    obtain ⟨place, codes, hsaved⟩ := saveSegment_of_not_isWhole hready hfits hbroken
    exact ⟨place, codes, by rw [answer, hsaved]; rfl⟩
  | loadSegments key =>
    obtain ⟨place, codes, hkey⟩ := Cell.ofText_of_not_isWhole hbroken
    refine ⟨place, codes, ?_⟩
    rw [answer, loadSegments, require, if_pos hready, Cell.ofValue_text, hkey]
    rfl
  | saveReceived now m =>
    obtain ⟨place, codes, hsaved⟩ := saveReceived_of_not_isWhole hready now hbroken
    exact ⟨place, codes, by rw [answer, hsaved]; rfl⟩
  | forget l => cases hbroken
  | listReceived limit => cases hbroken

end Store

/-! ## The store as an archive -/

/-- The archive is what the tables of the store amount to; the rows of its parts stand for `ms`. -/
structure Archive.Describes (a : Archive) (ms : List Message) (s : Store) : Prop where
  ready : s.ready = true
  segments : s.segments = ms.map Store.Segment.of
  storable : ∀ m ∈ ms, m.Storable
  distinct : (ms.map Message.slot).Nodup
  waiting : ∀ k v, a.waiting k = some v ↔ ∃ m ∈ ms, m.slot = k ∧ m.kept.settled = v
  inbox : s.inbox = a.accepted.map Entry.row
  decreasing : (a.accepted.map Entry.id).Pairwise (· > ·)

namespace Archive

variable {a : Archive} {ms : List Message} {s : Store}

theorem describes_fresh : empty.Describes [] ({} : Store).initialise where
  ready := rfl
  segments := rfl
  storable := by simp
  distinct := List.nodup_nil
  waiting := by simp [empty]
  inbox := rfl
  decreasing := List.Pairwise.nil

namespace Describes

variable (h : a.Describes ms s)
include h

theorem saveSegment {m : Message} (hm : m.Storable) :
    ∃ s', s.saveSegment m.unchecked = .ok s' ∧
      (a.keep m.slot m.kept.settled).Describes (Message.enter m ms) s' := by
  refine ⟨_, Store.saveSegment_of_storable h.ready hm, h.ready, ?_, Message.storable_enter h.storable hm,
    Message.nodup_slot_enter h.distinct, fun k v => ?_, h.inbox, h.decreasing⟩
  · rw [h.segments, Store.upsert_of]
  · rw [keep]
    dsimp only
    by_cases hk : k = m.slot
    · subst hk
      rw [if_pos rfl, Option.some_inj]
      constructor
      · intro hv
        obtain ⟨x, hx, hslot, hkept⟩ := Message.exists_mem_enter m ms
        exact ⟨x, hx, hslot, hkept ▸ hv⟩
      · intro ⟨x, hx, hslot, hv⟩
        obtain ⟨-, hne⟩ | ⟨-, hkept⟩ := Message.mem_enter hx
        · exact absurd hslot hne
        · exact hkept ▸ hv
    · rw [if_neg hk, h.waiting]
      constructor
      · intro ⟨x, hx, hslot, hv⟩
        exact ⟨x, Message.mem_enter_of_ne hx (hslot ▸ hk), hslot, hv⟩
      · intro ⟨x, hx, hslot, hv⟩
        obtain ⟨hx, -⟩ | ⟨hslot', -⟩ := Message.mem_enter hx
        · exact ⟨x, hx, hslot, hv⟩
        · exact absurd (hslot.symm.trans hslot') hk

/-- What remains of the archive when only the parts of a kind remain. -/
theorem filter (p : Message → Bool) {a' : Archive} {inbox : List Store.Received}
    (hwaiting : ∀ k v, a'.waiting k = some v ↔ ∃ m ∈ ms, p m = true ∧ m.slot = k ∧ m.kept.settled = v)
    (hinbox : inbox = a'.accepted.map Entry.row) (hdecreasing : (a'.accepted.map Entry.id).Pairwise (· > ·)) :
    a'.Describes (ms.filter p) { s with segments := (ms.filter p).map Store.Segment.of, inbox } where
  ready := h.ready
  segments := rfl
  storable m hm := h.storable m (List.mem_of_mem_filter hm)
  distinct := h.distinct.sublist (List.filter_sublist.map _)
  waiting k v := by simp only [hwaiting, List.mem_filter, and_assoc]
  inbox := hinbox
  decreasing := hdecreasing

theorem forget {l : Int} (hl : Store.Cell.fits l = true) :
    ∃ n s', s.forget (.int l) = .ok (n, s') ∧ {k | ∃ v, a.waiting k = some v ∧ v.location = l}.encard = n ∧
      (a.forget l).Describes (ms.filter (·.location ≠ l)) s' := by
  refine ⟨_, _, Store.forget_of_fits h.ready hl h.segments, ?_, h.filter _ (fun k v => ?_) h.inbox h.decreasing⟩
  · have hslots : {k | ∃ v, a.waiting k = some v ∧ v.location = l} =
        (((ms.filter (·.location = l)).map Message.slot).toFinset : Set (String × Int)) := by
      ext k
      simp only [Set.mem_ofPred_eq, List.coe_toFinset, List.mem_map, List.mem_filter, decide_eq_true_iff, h.waiting]
      constructor
      · rintro ⟨_, ⟨m, hm, hslot, rfl⟩, hl⟩
        exact ⟨m, ⟨hm, hl⟩, hslot⟩
      · intro ⟨m, ⟨hm, hl⟩, hslot⟩
        exact ⟨_, ⟨m, hm, hslot, rfl⟩, hl⟩
    have hnodup : ((ms.filter (·.location = l)).map Message.slot).Nodup :=
      h.distinct.sublist (List.filter_sublist.map _)
    rw [hslots, Set.encard_coe_eq_coe_finsetCard, List.toFinset_card_of_nodup hnodup, List.length_map]
  · simp only [Archive.forget, Option.filter_eq_some_iff, h.waiting, decide_eq_true_iff]
    constructor
    · rintro ⟨⟨m, hm, hslot, rfl⟩, hne⟩
      exact ⟨m, hm, hne, hslot, rfl⟩
    · rintro ⟨m, hm, hne, hslot, rfl⟩
      exact ⟨⟨m, hm, hslot, rfl⟩, hne⟩

theorem loadSegments {key : String} (hwhole : Text.isWhole key = true) :
    ∃ ms', s.loadSegments (.text key) = .ok ms' ∧ (∀ m ∈ ms', m.key = key) ∧
      (ms'.map Message.part).Pairwise (· < ·) ∧
      ∀ p v, a.waiting (key, p) = some v ↔ ∃ m ∈ ms', m.part = p ∧ m.kept = v := by
  have hrows : s.segments.filter (·.key = key) = (ms.filter (·.key = key)).map Store.Segment.of := by
    rw [h.segments, List.filter_map]
    rfl
  have hmem : ∀ {m}, (m ∈ (ms.filter (·.key = key)).mergeSort fun a b => decide (a.part ≤ b.part)) ↔
      m ∈ ms ∧ m.key = key := by
    intro m
    rw [List.mem_mergeSort, List.mem_filter, decide_eq_true_iff]
  have hstorable : ∀ m ∈ ms.filter (·.key = key), m.Storable := fun m hm => h.storable m (List.mem_of_mem_filter hm)
  refine ⟨_, Store.loadSegments_sorted h.ready hwhole hrows hstorable, ?_, ?_, ?_⟩
  · intro m' hm'
    obtain ⟨m, hm, rfl⟩ := List.mem_map.mp hm'
    exact (hmem.mp hm).2
  · -- sorted, and without two of one number
    have hsorted : ((ms.filter (·.key = key)).mergeSort fun a b => decide (a.part ≤ b.part)).Pairwise
        fun a b => decide (a.part ≤ b.part) = true :=
      List.pairwise_mergeSort (fun _ _ _ hab hbc => by simp_all; omega) (fun a b => by simp; omega) _
    have hdistinct : (((ms.filter (·.key = key)).mergeSort fun a b => decide (a.part ≤ b.part)).map
        Message.slot).Nodup :=
      ((List.mergeSort_perm _ _).map _).nodup_iff.mpr (h.distinct.sublist (List.filter_sublist.map _))
    rw [List.map_map, List.pairwise_map]
    refine ((hsorted.and (List.pairwise_map.mp hdistinct)).imp_of_mem fun {x y} hx hy ⟨hle, hne⟩ => ?_)
    have hkey : x.key = y.key := (hmem.mp hx).2.trans (hmem.mp hy).2.symm
    have hpart : x.part ≠ y.part := fun heq => hne (Prod.ext hkey heq)
    exact lt_of_le_of_ne (of_decide_eq_true hle) hpart
  · intro p v
    rw [h.waiting]
    constructor
    · intro ⟨m, hm, hslot, hv⟩
      obtain ⟨hkey, hpart⟩ := Prod.mk.inj hslot
      exact ⟨m.reread, List.mem_map_of_mem (hmem.mpr ⟨hm, hkey⟩), hpart, m.kept_reread.trans hv⟩
    · intro ⟨m', hm', hpart, hv⟩
      obtain ⟨m, hm, rfl⟩ := List.mem_map.mp hm'
      obtain ⟨hm, hkey⟩ := hmem.mp hm
      exact ⟨m, hm, Prod.ext hkey hpart, m.kept_reread.symm.trans hv⟩

theorem saveReceived (now : String) {m : Message} (hm : m.isEnterable = true) :
    ∃ id ms' s', s.saveReceived now m.unchecked = .ok (id, s') ∧ (a.accept ⟨id, m, now⟩).Describes ms' s' := by
  have hdecreasing : ((⟨s.nextId, m, now⟩ :: a.accepted : List Entry).map Entry.id).Pairwise (· > ·) := by
    refine List.pairwise_cons.mpr ⟨fun id hid => ?_, h.decreasing⟩
    obtain ⟨e, he, rfl⟩ := List.mem_map.mp hid
    exact Store.lt_nextId (r := e.row) (h.inbox ▸ List.mem_map_of_mem he)
  have hinbox : Store.Received.of s.nextId now m :: s.inbox =
      (⟨s.nextId, m, now⟩ :: a.accepted : List Entry).map Entry.row := by
    rw [List.map_cons, h.inbox]
    rfl
  refine ⟨s.nextId, ms.filter fun x => ¬ (1 < m.total ∧ x.key = m.key), _, ?_, h.filter _ (fun k v => ?_) hinbox
    hdecreasing⟩
  · have hrows : (if m.isPart then s.segments.filter (·.key ≠ m.key) else s.segments) =
        (ms.filter fun x => ¬ (1 < m.total ∧ x.key = m.key)).map Store.Segment.of := by
      rw [h.segments]
      by_cases hpart : 1 < m.total
      · rw [if_pos (Message.isPart_iff.mpr hpart), List.filter_map]
        exact congrArg _ (List.filter_congr fun x _ => decide_eq_decide.mpr (by simp [hpart]))
      · rw [if_neg (mt Message.isPart_iff.mp hpart)]
        simp [hpart]
    obtain ⟨-, hsaved⟩ | ⟨hrefused, -⟩ := Store.saveReceived_unchecked h.ready now m
    · rw [hsaved, hrows]
    · rw [hm] at hrefused
      cases hrefused
  · simp only [accept, decide_eq_true_iff]
    by_cases hgone : 1 < m.total ∧ k.1 = m.key
    · rw [if_pos hgone]
      constructor
      · intro hv
        cases hv
      · rintro ⟨x, -, hkept, rfl, -⟩
        exact absurd hgone hkept
    · rw [if_neg hgone, h.waiting]
      constructor
      · rintro ⟨x, hx, rfl, hv⟩
        exact ⟨x, hx, hgone, rfl, hv⟩
      · rintro ⟨x, hx, -, hslot, hv⟩
        exact ⟨x, hx, hslot, hv⟩

theorem listReceived {limit : Option Int} (hlimit : ∀ n ∈ limit, Store.Cell.fits n = true) :
    s.listReceived (limit.elim .null .int) = .ok ((a.newest limit).map Entry.row) := by
  rw [Store.listReceived_of_fits h.ready hlimit, h.inbox]
  cases limit with
  | none => rfl
  | some n =>
    dsimp only [newest]
    split
    · rfl
    · rw [List.map_take]

end Describes

/-- Whatever call is made of the store, its answer is one of the archive. -/
theorem Describes.answer (h : a.Describes ms s) {c : Store.Call} (hc : c.Fits) (hwhole : c.isWhole = true) :
    ∃ r s' a' ms', s.answer c = .ok (r, s') ∧ a.Answers (·.kept.settled) c r a' ∧ a'.Describes ms' s' := by
  cases c with
  | saveSegment m =>
    obtain ⟨s', hs', h'⟩ := h.saveSegment (hc.storable hwhole)
    exact ⟨_, s', _, _, by rw [Store.answer, hs']; rfl, .saveSegment m, h'⟩
  | loadSegments key =>
    obtain ⟨ms', hms', hkey, hascending, hexact⟩ := h.loadSegments hwhole
    exact ⟨_, s, a, ms, by rw [Store.answer, hms']; rfl, .loadSegments key ms' hkey hascending hexact, h⟩
  | forget l =>
    obtain ⟨n, s', hs', hn, h'⟩ := h.forget hc
    exact ⟨_, s', _, _, by rw [Store.answer, hs']; rfl, .forget l n hn, h'⟩
  | saveReceived now m =>
    obtain ⟨id, ms', s', hs', h'⟩ := h.saveReceived now (Store.isEnterable_of_fits hc hwhole)
    exact ⟨_, s', _, ms', by rw [Store.answer, hs']; rfl, .saveReceived now m id, h'⟩
  | listReceived limit =>
    exact ⟨_, s, a, ms, by rw [Store.answer, h.listReceived hc]; rfl, .listReceived limit h.decreasing, h⟩

theorem Describes.respond (h : a.Describes ms s) {c : Store.Call} (hc : c.Fits) :
    ∃ a' ms', a.Meets (·.kept.settled) c (s.respond c).1 a' ∧ a'.Describes ms' (s.respond c).2 := by
  cases hwhole : c.isWhole with
  | true =>
    obtain ⟨r, s', a', ms', hanswer, hanswers, h'⟩ := h.answer hc hwhole
    rw [Store.respond, hanswer]
    exact ⟨a', ms', .returned hwhole hanswers, h'⟩
  | false =>
    obtain ⟨place, codes, hanswer⟩ := Store.answer_of_not_isWhole h.ready hc hwhole
    rw [Store.respond, hanswer]
    exact ⟨a, ms, .refused hwhole place codes, h⟩

theorem Describes.serve {cs : List Store.Call} (h : a.Describes ms s) (hcs : ∀ c ∈ cs, c.Fits) :
    ∃ a' ms', Serves (·.kept.settled) a cs (s.serve cs).1 a' ∧ a'.Describes ms' (s.serve cs).2 := by
  induction cs generalizing a ms s with
  | nil => exact ⟨a, ms, .nil a, h⟩
  | cons c cs ih =>
    obtain ⟨hc, hcs⟩ := List.forall_mem_cons.mp hcs
    obtain ⟨a', ms', hr, h'⟩ := h.respond hc
    obtain ⟨a'', ms'', hrs, h''⟩ := ih h' hcs
    exact ⟨a'', ms'', .cons hr hrs, h''⟩

end Archive

/-- Whatever calls are made of a fresh store, it answers them as an archive does; a call with a text that cannot be
stored is refused and changes nothing. -/
theorem Store.serves_as_archive {cs : List Store.Call} (hcs : ∀ c ∈ cs, c.Fits) :
    ∃ rs s a, ({} : Store).initialise.serve cs = (rs, s) ∧ Archive.empty.Serves (·.kept.settled) cs rs a := by
  obtain ⟨a, -, ha, -⟩ := Archive.describes_fresh.serve hcs
  exact ⟨_, _, a, rfl, ha⟩

/-- A part of a message in three parts. -/
def Message.newsPart (n : Nat) (text : String) : Message :=
  { sender := "+1", text, location := n, total := 3, part := n, header := .int 7 }

/-- Parts out of order, one of them a second time from another place, half of a surrogate pair, and a message of
one part. -/
def Store.newsCalls : List Store.Call :=
  [.saveSegment (Message.newsPart 2 "b"), .saveSegment (Message.newsPart 1 "a"),
    .saveSegment { Message.newsPart 2 "b" with location := 9 }, .saveSegment (Message.newsPart 3 Text.loneHalf),
    .loadSegments "+1-7-3", .forget 2, .forget 9, .saveReceived "2024-01-02" (Message.newsPart 1 "a"),
    .saveReceived "2024-01-03" { sender := "+2", text := "c", location := 4 }, .loadSegments "+1-7-3",
    .listReceived none, .listReceived (some 1)]

theorem Store.serves_as_archive_news :
    (∀ c ∈ Store.newsCalls, c.Fits) ∧ ∃ rs s a, ({} : Store).initialise.serve Store.newsCalls = (rs, s) ∧
      Archive.empty.Serves (·.kept.settled) Store.newsCalls rs a := by
  have hpart : ∀ n text, Cell.fits (n : Nat) = true → (Call.saveSegment (Message.newsPart n text)).Fits :=
    fun n text hn => ⟨hn, hn, rfl, .inr ⟨7, rfl, rfl⟩, .inl rfl⟩
  have hcalls : ∀ c ∈ Store.newsCalls, c.Fits := by
    simp only [Store.newsCalls, List.forall_mem_cons, List.not_mem_nil, false_imp_iff, implies_true, and_true]
    exact ⟨hpart 2 "b" rfl, hpart 1 "a" rfl, ⟨rfl, rfl, rfl, .inr ⟨7, rfl, rfl⟩, .inl rfl⟩, hpart 3 _ rfl, trivial, rfl,
      rfl, ⟨rfl, .inr ⟨7, rfl⟩⟩, ⟨rfl, .inl rfl⟩, trivial, by simp [Store.Call.Fits], by simp [Store.Call.Fits]; rfl⟩
  exact ⟨hcalls, Store.serves_as_archive hcalls⟩

/-! ## What is no archive -/

/-- A part whose timestamp is half a second off universal time. -/
def Message.halfSecondOff : Message where
  sender := "+1"
  text := "a"
  location := 1
  timestamp := some ⟨⟨2024, 1, 2, by decide⟩, ⟨3, 4, 5, 0, by decide⟩, some ⟨false, 500000, by decide⟩⟩
  total := 2

/-- The store is no archive that keeps the timestamps of parts as they are, and it does not keep every part. -/
theorem Store.half_second_lost :
    (¬ ∃ rs s a, ({} : Store).initialise.serve [.saveSegment .halfSecondOff, .loadSegments "+1-0-2"] = (rs, s) ∧
      Archive.empty.Serves Message.kept [.saveSegment .halfSecondOff, .loadSegments "+1-0-2"] rs a) ∧
    ({} : Store).initialise.serve [.saveSegment { Message.halfSecondOff with text := Text.loneHalf }] =
      ([.error (.loneSurrogates 0 [0xD83D])], ({} : Store).initialise) := by
  refine ⟨fun ⟨rs, s, a, hs, ha⟩ => ?_, rfl⟩
  have hstorable : Message.halfSecondOff.Storable := ⟨rfl, rfl, rfl, .inl rfl, rfl, rfl, .inl rfl⟩
  obtain ⟨s', hs', h'⟩ := Archive.describes_fresh.saveSegment hstorable
  obtain ⟨ms', hms', -, -, hexact⟩ := h'.loadSegments (show Text.isWhole "+1-0-2" = true from rfl)
  have hserve : ({} : Store).initialise.serve [.saveSegment .halfSecondOff, .loadSegments "+1-0-2"] =
      ([.ok .done, .ok (.parts ms')], s') := by
    simp only [Store.serve, Store.respond, Store.answer, hs', hms', bind, Except.bind, pure, Except.pure]
  rw [hserve, Prod.mk.injEq] at hs
  obtain ⟨rfl, rfl⟩ := hs
  cases ha with
  | cons first rest =>
    cases first with
    | returned _ first =>
      cases first
      cases rest with
      | cons second _ =>
        cases second with
        | returned _ second =>
          cases second with
          | loadSegments key ms ofGroup ascending exact =>
            have hclaimed := (exact 1 Message.halfSecondOff.kept).mp rfl
            have hkept := (hexact 1 _).mpr hclaimed
            have hsettled : Message.halfSecondOff.kept.settled = Message.halfSecondOff.kept := Option.some_inj.mp hkept
            exact absurd (congrArg Kept.timestamp hsettled) (by decide)

end SmsRelay
