-- SUMMARY: The statements of the store in a transaction: all of them take effect, or none.
import SmsRelay.Proofs.Archive

/-!
# Transactions of the store

A message is received in two statements: one enters it into the inbox, the
other deletes the parts of its group. Work may be refused before the first: the
timestamp may have no stored form, the parts no places, or a column may not take
a value. It may also be refused when half of it is done, for a number of parts
that a column takes may still not be compared with one, and the key of the group
may hold half of a surrogate pair. The statements run in a transaction, which
takes everything back then; that is why the operations of the store may be said
in one piece.
-/

namespace SmsRelay

/-- The tables, and the number that the last entry of the inbox has been given. -/
structure Database where
  store : Store
  lastId : Nat
  numbered : store.nextId = lastId + 1

namespace Database

variable {α β : Type}

/-- Put an entry into the inbox, under the next number. -/
def enter (d : Database) (row : Store.Received) : Database where
  store := { d.store with inbox := { row with id := d.lastId + 1 } :: d.store.inbox }
  lastId := d.lastId + 1
  numbered := by
    have hnumbered := d.numbered
    simp only [Store.nextId, List.map_cons, List.foldr_cons] at hnumbered ⊢
    omega

/-- Change the parts that wait. -/
def withSegments (d : Database) (segments : List Store.Segment) : Database where
  store := { d.store with segments }
  lastId := d.lastId
  numbered := d.numbered

/-! ## Statements -/

/-- Statements one after the other. When one of them is refused, what the others have changed stays changed. -/
abbrev Work (α : Type) := ExceptT Fault (StateM Database) α

/-- Enter a message into the inbox. -/
def insertReceived (now : String) (m : Message.Unchecked) : Work Nat := do
  let locations ← m.locations
  let timestamp ← m.timestamp.iso?
  let d ← get
  d.store.require "inbox"
  let row ← Store.Received.ofMessage (d.lastId + 1) now locations timestamp m
  set (d.enter row)
  return d.lastId + 1

/-- Delete the parts of a group. -/
def deleteGroup (key : String) : Work Unit := do
  let _ ← Store.Cell.ofText key
  modify fun d => d.withSegments (d.store.segments.filter (·.key ≠ key))

/-- Insert a part, or refresh its row. -/
def insertSegment (m : Message.Unchecked) : Work Unit := do
  let timestamp ← m.timestamp.iso?
  let d ← get
  d.store.require "segments"
  let row ← Store.Segment.ofMessage timestamp m
  set (d.withSegments (Store.upsert row d.store.segments))

/-- Enter a message into the inbox. If it is one of several parts, the parts of its group wait no longer. -/
def receive (now : String) (m : Message.Unchecked) : Work Nat := do
  let id ← insertReceived now m
  if ← m.isPart then deleteGroup m.key
  return id

/-- Do work, or nothing: when it is refused, everything is as before. -/
def transaction (work : Work α) (d : Database) : Except Fault α × Database :=
  match work.run.run d with
  | (.ok a, d') => (.ok a, d')
  | (.error f, _) => (.error f, d)

def saveReceived (d : Database) (now : String) (m : Message.Unchecked) : Except Fault Nat × Database :=
  transaction (receive now m) d

def saveSegment (d : Database) (m : Message.Unchecked) : Except Fault Unit × Database :=
  transaction (insertSegment m) d

/-! ## What the work does -/

@[simp] theorem run_bind (p : Work α) (f : α → Work β) (d : Database) :
    (p >>= f).run.run d = match p.run.run d with
      | (.ok a, d') => (f a).run.run d'
      | (.error e, d') => (.error e, d') := by
  simp only [ExceptT.run_bind, StateT.run_bind]
  rcases p.run.run d with ⟨_ | a, d'⟩ <;> rfl

@[simp] theorem run_get (d : Database) : (get : Work Database).run.run d = (.ok d, d) := rfl

@[simp] theorem run_set (d d' : Database) : (set d' : Work PUnit).run.run d = (.ok ⟨⟩, d') := rfl

@[simp] theorem run_lift (x : Except Fault α) (d : Database) : (liftM x : Work α).run.run d = (x, d) := by
  cases x <;> rfl

section

variable (d : Database) (now : String) (m : Message.Unchecked)

/-- The row that a message is to be entered with. -/
def receivedRow : Except Fault Store.Received := do
  let locations ← m.locations
  let timestamp ← m.timestamp.iso?
  d.store.require "inbox"
  Store.Received.ofMessage (d.lastId + 1) now locations timestamp m

/-- The row that a part is to be inserted with. -/
def segmentRow : Except Fault Store.Segment := do
  let timestamp ← m.timestamp.iso?
  d.store.require "segments"
  Store.Segment.ofMessage timestamp m

/-- Whether the parts of the group are to go, once the message is in the inbox. -/
def hasGroup : Except Fault Bool := do
  let several ← m.isPart
  if several then
    let _ ← Store.Cell.ofText m.key
  return several

/-- Where the receiving of a message comes to an end, and what has been changed by then. -/
inductive Receives : Except Fault Nat × Database → Prop
  | refused (f : Fault) (hrow : d.receivedRow now m = .error f) : Receives (.error f, d)
  | undecided (row : Store.Received) (f : Fault) (hrow : d.receivedRow now m = .ok row)
      (hgroup : hasGroup m = .error f) : Receives (.error f, d.enter row)
  | whole (row : Store.Received) (hrow : d.receivedRow now m = .ok row) (hgroup : hasGroup m = .ok false) :
      Receives (.ok (d.lastId + 1), d.enter row)
  | part (row : Store.Received) (hrow : d.receivedRow now m = .ok row) (hgroup : hasGroup m = .ok true) :
      Receives (.ok (d.lastId + 1), (d.enter row).withSegments (d.store.segments.filter (·.key ≠ m.key)))

theorem run_insertReceived : (insertReceived now m).run.run d = match d.receivedRow now m with
    | .error f => (.error f, d)
    | .ok row => (.ok (d.lastId + 1), d.enter row) := by
  simp only [insertReceived, receivedRow, run_bind, run_get, run_lift, run_set]
  cases m.locations with
  | error f => rfl
  | ok locations =>
    cases m.timestamp.iso? with
    | error f => rfl
    | ok timestamp =>
      cases hready : d.store.require "inbox" with
      | error f => simp only [bind, Except.bind, hready]
      | ok u =>
        cases hrow : Store.Received.ofMessage (d.lastId + 1) now locations timestamp m with
        | error f => simp only [bind, Except.bind, hready, hrow]
        | ok row =>
          simp only [bind, Except.bind, hready, hrow]
          rfl

theorem run_insertSegment : (insertSegment m).run.run d = match d.segmentRow m with
    | .error f => (.error f, d)
    | .ok row => (.ok (), d.withSegments (Store.upsert row d.store.segments)) := by
  simp only [insertSegment, segmentRow, run_bind, run_get, run_lift, run_set]
  cases m.timestamp.iso? with
  | error f => rfl
  | ok timestamp =>
    cases hready : d.store.require "segments" with
    | error f => simp only [bind, Except.bind, hready]
    | ok u => cases hrow : Store.Segment.ofMessage timestamp m <;> simp only [bind, Except.bind, hready, hrow]

theorem hasGroup_of_several {m : Message.Unchecked} (hpart : m.isPart = .ok true) :
    hasGroup m = (Store.Cell.ofText m.key).map fun _ => true := by
  rw [hasGroup, hpart]
  cases Store.Cell.ofText m.key <;> rfl

/-- There is no telling whether there is a group if the number of parts cannot be compared with one, or if there should
be one and its key cannot be stored. -/
theorem hasGroup_eq_error {m : Message.Unchecked} {f : Fault} (h : hasGroup m = .error f) :
    m.total.exceedsOne = .error f ∨ (m.total.exceedsOne = .ok true ∧ Text.isWhole m.key = false) := by
  rw [hasGroup, bind_eq_error] at h
  obtain hpart | ⟨several, hpart, h⟩ := h
  · exact .inl hpart
  · cases several with
    | false => cases h
    | true =>
      refine .inr ⟨hpart, ?_⟩
      cases hkey : Text.isWhole m.key with
      | false => rfl
      | true =>
        simp only [if_true, Store.Cell.ofText_of_isWhole hkey] at h
        cases h

theorem hasGroup_eq_ok {m : Message.Unchecked} {several : Bool} (h : hasGroup m = .ok several) :
    m.total.exceedsOne = .ok several ∧ (several = true → Text.isWhole m.key = true) := by
  cases hpart : m.isPart with
  | error f =>
    rw [hasGroup, hpart] at h
    cases h
  | ok p =>
    cases p with
    | false =>
      rw [hasGroup, hpart] at h
      cases h
      exact ⟨hpart, fun h => nomatch h⟩
    | true =>
      rw [hasGroup_of_several hpart] at h
      cases hkey : Store.Cell.ofText m.key with
      | error f =>
        rw [hkey] at h
        cases h
      | ok c =>
        rw [hkey] at h
        cases h
        exact ⟨hpart, fun _ => (Store.Cell.ofText_eq_ok.mp hkey).1⟩

theorem receives_receive : d.Receives now m ((receive now m).run.run d) := by
  simp only [receive, run_bind, run_insertReceived]
  cases hrow : d.receivedRow now m with
  | error f => exact .refused f hrow
  | ok row =>
    cases hpart : m.isPart with
    | error f => exact .undecided row f hrow (by rw [hasGroup, hpart]; rfl)
    | ok several =>
      cases several with
      | false => exact .whole row hrow (by rw [hasGroup, hpart]; rfl)
      | true =>
        have hgroup := hasGroup_of_several hpart
        simp only [run_lift, if_true, deleteGroup, run_bind]
        cases hkey : Store.Cell.ofText m.key with
        | error f =>
          rw [hkey] at hgroup
          exact .undecided row f hrow hgroup
        | ok c =>
          rw [hkey] at hgroup
          exact .part row hrow hgroup

/-! ## Operations of the store -/

/-- The row of a message has the number that it is entered under. -/
theorem entered_eq {row : Store.Received} {id : Nat} {locations : List Value} {timestamp : Option String}
    (h : Store.Received.ofMessage id now locations timestamp m = .ok row) :
    { row with id } = row := by
  simp only [Store.Received.ofMessage, bind_eq_ok] at h
  obtain ⟨sender, -, text, -, total, -, sender', -, text', -, total', -, h⟩ := h
  cases h
  rfl

theorem stillWaiting_eq (s : Store) : s.stillWaiting m = do
    let several ← hasGroup m
    return if several then s.segments.filter (·.key ≠ m.key) else s.segments := by
  rw [Store.stillWaiting]
  cases hpart : m.isPart with
  | error f => rw [hasGroup, hpart]; rfl
  | ok several =>
    cases several with
    | false => rw [hasGroup, hpart]; rfl
    | true =>
      rw [hasGroup_of_several hpart]
      cases Store.Cell.ofText m.key <;> rfl

/-- The store asks for the row, then whether there is a group, and changes its tables at the end. -/
theorem saveReceived_store : d.store.saveReceived now m = do
    let row ← d.receivedRow now m
    let several ← hasGroup m
    return (d.lastId + 1, if several then
      ((d.enter row).withSegments (d.store.segments.filter (·.key ≠ m.key))).store
    else (d.enter row).store) := by
  rw [Store.saveReceived, receivedRow, d.numbered]
  cases m.locations with
  | error f => rfl
  | ok locations =>
    cases m.timestamp.iso? with
    | error f => rfl
    | ok timestamp =>
      cases d.store.require "inbox" with
      | error f => rfl
      | ok u =>
        simp only [bind, Except.bind]
        cases hrow : Store.Received.ofMessage (d.lastId + 1) now locations timestamp m with
        | error f => rfl
        | ok row =>
          have hstore : ∀ segments, ({ d.store with segments, inbox := row :: d.store.inbox } : Store) =
              ((d.enter row).withSegments segments).store := fun segments =>
            congrArg (fun r => ({ d.store with segments, inbox := r :: d.store.inbox } : Store))
              (entered_eq now m hrow).symm
          simp only [stillWaiting_eq]
          cases hasGroup m with
          | error f => rfl
          | ok several =>
            cases several with
            | false => exact congrArg (fun s => Except.ok (d.lastId + 1, s)) (hstore d.store.segments)
            | true => exact congrArg (fun s => Except.ok (d.lastId + 1, s)) (hstore _)

theorem saveSegment_store : d.store.saveSegment m = do
    let row ← d.segmentRow m
    return { d.store with segments := Store.upsert row d.store.segments } := by
  rw [Store.saveSegment, segmentRow]
  cases m.timestamp.iso? with
  | error f => rfl
  | ok timestamp => cases d.store.require "segments" <;> rfl

/-! ## All or nothing -/

variable {d now m} {d' : Database} {f : Fault}

/-- A message that is refused leaves everything as it was, also if it has been entered into the inbox by then. -/
theorem saveReceived_error (h : d.saveReceived now m = (.error f, d')) :
    d' = d ∧ d.store.saveReceived now m = .error f ∧ ∃ left, (receive now m).run.run d = (.error f, left) ∧
      (left = d ∨ ∃ row, left = d.enter row ∧ (m.total.exceedsOne = .error f ∨
        (m.total.exceedsOne = .ok true ∧ Text.isWhole m.key = false))) := by
  have hreceives := receives_receive d now m
  unfold saveReceived transaction at h
  rw [saveReceived_store]
  generalize (receive now m).run.run d = outcome at h hreceives
  cases hreceives with
  | refused g hrow =>
    cases h
    exact ⟨rfl, by rw [hrow]; rfl, d, rfl, .inl rfl⟩
  | undecided row g hrow hgroup =>
    cases h
    exact ⟨rfl, by rw [hrow, hgroup]; rfl, _, rfl, .inr ⟨row, rfl, hasGroup_eq_error hgroup⟩⟩
  | whole row hrow hgroup => cases h
  | part row hrow hgroup => cases h

/-- A message that is received has one more row in the inbox, under a number above all others, and the parts of its
group are gone if it is one of several parts. -/
theorem saveReceived_ok {id : Nat} (h : d.saveReceived now m = (.ok id, d')) :
    d.store.saveReceived now m = .ok (id, d'.store) ∧ (∃ row, row.id = id ∧ d'.store.inbox = row :: d.store.inbox) ∧
      (∀ r ∈ d.store.inbox, r.id < id) ∧ d'.lastId = id ∧ ∃ several, m.total.exceedsOne = .ok several ∧
        d'.store.segments = if several then d.store.segments.filter (·.key ≠ m.key) else d.store.segments := by
  have hearlier : ∀ r ∈ d.store.inbox, r.id < d.lastId + 1 := fun r hr => d.numbered ▸ Store.lt_nextId hr
  have hreceives := receives_receive d now m
  unfold saveReceived transaction at h
  rw [saveReceived_store]
  generalize (receive now m).run.run d = outcome at h hreceives
  cases hreceives with
  | refused g hrow => cases h
  | undecided row g hrow hgroup => cases h
  | whole row hrow hgroup =>
    cases h
    exact ⟨by rw [hrow, hgroup]; rfl, ⟨_, rfl, rfl⟩, hearlier, rfl, false, (hasGroup_eq_ok hgroup).1, rfl⟩
  | part row hrow hgroup =>
    cases h
    exact ⟨by rw [hrow, hgroup]; rfl, ⟨_, rfl, rfl⟩, hearlier, rfl, true, (hasGroup_eq_ok hgroup).1, rfl⟩

/-- A part that is refused leaves everything as it was. -/
theorem saveSegment_error (h : d.saveSegment m = (.error f, d')) : d' = d ∧ d.store.saveSegment m = .error f := by
  rw [saveSegment, transaction, run_insertSegment] at h
  rw [saveSegment_store]
  cases hrow : d.segmentRow m with
  | error g =>
    rw [hrow] at h
    cases h
    exact ⟨rfl, rfl⟩
  | ok row =>
    rw [hrow] at h
    cases h

/-- A part that is kept changes the parts that wait and nothing else. -/
theorem saveSegment_ok (h : d.saveSegment m = (.ok (), d')) :
    d.store.saveSegment m = .ok d'.store ∧ d'.store.inbox = d.store.inbox ∧ d'.lastId = d.lastId := by
  rw [saveSegment, transaction, run_insertSegment] at h
  rw [saveSegment_store]
  cases hrow : d.segmentRow m with
  | error g =>
    rw [hrow] at h
    cases h
  | ok row =>
    rw [hrow] at h
    cases h
    exact ⟨rfl, rfl, rfl⟩

end

/-- Whatever values a message has, the writes of the store happen as a whole or not at all. A message that is refused
leaves tables and numbers as they were, also if it had been entered into the inbox by then. A message that is received
has one row more in the inbox, under a number above all before, and the parts of its group are gone if it is one of
several parts. -/
theorem writes_all_or_nothing (d : Database) (now : String) (m : Message.Unchecked) :
    (∀ f d', d.saveReceived now m = (.error f, d') → d' = d ∧ d.store.saveReceived now m = .error f ∧
      ∃ left, (receive now m).run.run d = (.error f, left) ∧
        (left = d ∨ ∃ row, left = d.enter row ∧ (m.total.exceedsOne = .error f ∨
          (m.total.exceedsOne = .ok true ∧ Text.isWhole m.key = false)))) ∧
    (∀ id d', d.saveReceived now m = (.ok id, d') → d.store.saveReceived now m = .ok (id, d'.store) ∧
      (∃ row, row.id = id ∧ d'.store.inbox = row :: d.store.inbox) ∧ (∀ r ∈ d.store.inbox, r.id < id) ∧
      d'.lastId = id ∧ ∃ several, m.total.exceedsOne = .ok several ∧
        d'.store.segments = if several then d.store.segments.filter (·.key ≠ m.key) else d.store.segments) ∧
    (∀ f d', d.saveSegment m = (.error f, d') → d' = d ∧ d.store.saveSegment m = .error f) ∧
    ∀ d', d.saveSegment m = (.ok (), d') → d.store.saveSegment m = .ok d'.store ∧
      d'.store.inbox = d.store.inbox ∧ d'.lastId = d.lastId :=
  ⟨fun _ _ => saveReceived_error, fun _ _ => saveReceived_ok, fun _ _ => saveSegment_error, fun _ => saveSegment_ok⟩

/-- A database in which one of two parts waits. -/
def waiting : Database where
  store := { ready := true, segments := [.of { sender := "+1", text := "a", location := 1, total := 2 }] }
  lastId := 0
  numbered := rfl

/-- A message of two parts whose number of parts is a text: the column takes it, but it cannot be compared with one. -/
def numeral : Message.Unchecked := { sender := .text "+1", text := .text "ab", location := .int 1, total := .text "2" }

/-- The message is refused when it is in the inbox already, and before that if a number stands for its timestamp or for
its parts; with a proper number of parts its group is deleted. -/
theorem writes_all_or_nothing_numeral :
    (∃ f left, waiting.saveReceived "2024-01-02" numeral = (.error f, waiting) ∧
      (receive "2024-01-02" numeral).run.run waiting = (.error f, left) ∧ left.store.inbox.length = 1) ∧
    (∃ d', waiting.saveReceived "2024-01-02" { numeral with total := .int 2 } = (.ok 1, d') ∧
      d'.store.segments = []) ∧
    waiting.saveReceived "2024-01-02" { numeral with timestamp := .value (.int 5) } =
      (.error (.noAttribute "int" "isoformat"), waiting) ∧
    waiting.saveReceived "2024-01-02" { numeral with parts := .value (.int 5) } =
      (.error (.notIterable "int"), waiting) := by
  have hrefused : waiting.saveReceived "2024-01-02" numeral = (.error (.incomparable ">" "str" "int"), waiting) := rfl
  obtain ⟨-, -, left, hleft, hrow⟩ := (writes_all_or_nothing waiting "2024-01-02" numeral).1 _ _ hrefused
  obtain ⟨-, -, -, -, several, hseveral, hsegments⟩ :=
    (writes_all_or_nothing waiting "2024-01-02" { numeral with total := .int 2 }).2.1 1 _ rfl
  cases hseveral
  refine ⟨⟨_, left, hrefused, hleft, ?_⟩, ⟨_, rfl, hsegments⟩, rfl, rfl⟩
  obtain rfl | ⟨row, rfl, -⟩ := hrow
  · cases congrArg (·.2.lastId) hleft
  · rfl

end Database

end SmsRelay
