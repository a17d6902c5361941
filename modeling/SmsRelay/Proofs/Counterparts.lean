-- SUMMARY: Stages that are alike but for bystanders, and the callables that correspond to one another on them.
import SmsRelay.Proofs.Agreement

/-!
# Counterparts

Two stages of which each has what the other has, but for those that nobody
waits for. The callables that somebody waits for come in pairs; their scripts
agree and they have been called equally often. Bystanders may be on one stage
and not on the other. What is done to both stages keeps them alike, and so does
what bystanders do to either.
-/

namespace SmsRelay.Session

open Gateway

/-! ## Pairings -/

/-- How many callables have been made on each of two stages, and which of those that somebody waits for have been made
together. -/
structure Pairing where
  left : Nat
  right : Nat
  pairs : List (Nat × Nat)
  bounded : ∀ p ∈ pairs, p.1 < left ∧ p.2 < right
  injective : ∀ p ∈ pairs, ∀ q ∈ pairs, p.1 = q.1 ↔ p.2 = q.2

namespace Pairing

/-- The callables on the first stage. -/
def first (P : Pairing) : Roster := ⟨P.left, P.pairs.map Prod.fst⟩

/-- The callables on the second stage. -/
def second (P : Pairing) : Roster := ⟨P.right, P.pairs.map Prod.snd⟩

/-- More callables have been made, on either stage or together on both. -/
structure Grows (P P' : Pairing) : Prop where
  first : P.first.Grows P'.first
  second : P.second.Grows P'.second
  pairs : P.pairs ⊆ P'.pairs

theorem Grows.refl (P : Pairing) : P.Grows P := ⟨.refl _, .refl _, fun _ => id⟩

theorem Grows.trans {P P' P'' : Pairing} (h : P.Grows P') (h' : P'.Grows P'') : P.Grows P'' :=
  ⟨h.first.trans h'.first, h.second.trans h'.second, fun _ hp => h'.pairs (h.pairs hp)⟩

/-- Bystanders have been made, so many on each stage. -/
def apart (P : Pairing) (m n : Nat) : Pairing where
  left := P.left + m
  right := P.right + n
  pairs := P.pairs
  bounded p hp := ⟨Nat.lt_add_right m (P.bounded p hp).1, Nat.lt_add_right n (P.bounded p hp).2⟩
  injective := P.injective

theorem grows_apart (P : Pairing) (m n : Nat) : P.Grows (P.apart m n) :=
  ⟨⟨Nat.le_add_right _ _, fun _ => .inl⟩, ⟨Nat.le_add_right _ _, fun _ => .inl⟩, fun _ => id⟩

/-- Two callables have been made together. -/
def joined (P : Pairing) : Pairing where
  left := P.left + 1
  right := P.right + 1
  pairs := (P.left, P.right) :: P.pairs
  bounded p hp := by
    rcases List.mem_cons.mp hp with rfl | hp
    · exact ⟨Nat.lt_succ_self _, Nat.lt_succ_self _⟩
    · exact ⟨Nat.lt_succ_of_lt (P.bounded p hp).1, Nat.lt_succ_of_lt (P.bounded p hp).2⟩
  injective p hp q hq := by
    have hnew : ∀ q ∈ P.pairs, P.left ≠ q.1 ∧ P.right ≠ q.2 := fun q hq =>
      ⟨(Nat.ne_of_lt (P.bounded q hq).1).symm, (Nat.ne_of_lt (P.bounded q hq).2).symm⟩
    rcases List.mem_cons.mp hp with rfl | hp <;> rcases List.mem_cons.mp hq with rfl | hq
    · exact iff_of_true rfl rfl
    · exact iff_of_false (hnew q hq).1 (hnew q hq).2
    · exact iff_of_false (hnew p hp).1.symm (hnew p hp).2.symm
    · exact P.injective p hp q hq

theorem grows_joined (P : Pairing) : P.Grows P.joined where
  first := ⟨Nat.le_succ _, fun _ hi => (List.mem_cons.mp hi).elim (fun heq => .inr (Nat.le_of_eq heq.symm)) .inl⟩
  second := ⟨Nat.le_succ _, fun _ hi => (List.mem_cons.mp hi).elim (fun heq => .inr (Nat.le_of_eq heq.symm)) .inl⟩
  pairs := List.subset_cons_self _ _

/-! ## What has a counterpart -/

/-- The messages are the same but for their callbacks, and nobody waits for those. -/
structure Same (P : Pairing) (m₁ m₂ : Outbound Callable) : Prop where
  bare : bare m₁ = bare m₂
  first : ∀ k, m₁.callback = some k → P.first.Bystander k
  second : ∀ k, m₂.callback = some k → P.second.Bystander k

section

variable (application : Bool)

/-- Who hears of an event on either stage: nobody, callables that have been made together, the application, or
whoever nobody waits for. -/
inductive Hears (P : Pairing) : EventName → Option Callable → Option Callable → Prop
  | nobody (e : EventName) : Hears P e none none
  | counterparts {e : EventName} {i j : Nat} {script₁ script₂ : Script} : e.isRequest = true → (i, j) ∈ P.pairs →
      script₁.Agrees application script₂ →
      Hears P e (some ⟨i, e.text, .script script₁⟩) (some ⟨j, e.text, .script script₂⟩)
  | application {e : EventName} : (e = .delete → application = true) →
      Hears P e (some ⟨0, e.text, .application⟩) (some ⟨0, e.text, .application⟩)
  | aside {e : EventName} {c₁ c₂ : Option Callable} : e.isRequest = false → (∀ c, c₁ = some c → P.first.Aside e c) →
      (∀ c, c₂ = some c → P.second.Aside e c) → Hears P e c₁ c₂

/-- What is supplied under a name: the same value, callables that have been made together, or bystanders. -/
inductive Supplies (P : Pairing) : String → Supplied Callable → Supplied Callable → Prop
  | value (name : String) (v : Value) : Supplies P name (.value v) (.value v)
  | counterparts {name : String} {i j : Nat} {script₁ script₂ : Script} : isNotice name = false → (i, j) ∈ P.pairs →
      script₁.Agrees application script₂ →
      Supplies P name (.callable ⟨i, name, .script script₁⟩) (.callable ⟨j, name, .script script₂⟩)
  | bystanders {name : String} {c₁ c₂ : Callable} : isNotice name = true → P.first.Bystander c₁ →
      P.second.Bystander c₂ → Supplies P name (.callable c₁) (.callable c₂)

/-- What is supplied in order, under some names. -/
inductive SuppliesAll (P : Pairing) : List (String × Supplied Callable) → List (String × Supplied Callable) → Prop
  | nil : SuppliesAll P [] []
  | cons {name : String} {x₁ x₂ : Supplied Callable} {rest₁ rest₂ : List (String × Supplied Callable)} :
      P.Supplies application name x₁ x₂ → SuppliesAll P rest₁ rest₂ →
      SuppliesAll P ((name, x₁) :: rest₁) ((name, x₂) :: rest₂)
  | first {name : String} {c : Callable} {rest₁ rest₂ : List (String × Supplied Callable)} :
      isFree application name = true → P.first.Bystander c → SuppliesAll P rest₁ rest₂ →
      SuppliesAll P ((name, .callable c) :: rest₁) rest₂
  | second {name : String} {c : Callable} {rest₁ rest₂ : List (String × Supplied Callable)} :
      isFree application name = true → P.second.Bystander c → SuppliesAll P rest₁ rest₂ →
      SuppliesAll P rest₁ ((name, .callable c) :: rest₂)

end

section

variable {P P' : Pairing} {application : Bool}

theorem Same.mono {m₁ m₂ : Outbound Callable} (h : P.Same m₁ m₂) (hP : P.Grows P') : P'.Same m₁ m₂ :=
  ⟨h.bare, fun k hk => (h.first k hk).mono hP.first, fun k hk => (h.second k hk).mono hP.second⟩

theorem same_mono {ms₁ ms₂ : List (Outbound Callable)} (h : List.Forall₂ P.Same ms₁ ms₂) (hP : P.Grows P') :
    List.Forall₂ P'.Same ms₁ ms₂ := h.imp fun _ _ h => h.mono hP

theorem Hears.mono {e : EventName} {c₁ c₂ : Option Callable} (h : P.Hears application e c₁ c₂) (hP : P.Grows P') :
    P'.Hears application e c₁ c₂ := by
  cases h with
  | nobody => exact .nobody e
  | counterparts he hp hscripts => exact .counterparts he (hP.pairs hp) hscripts
  | application he => exact .application he
  | aside he h₁ h₂ => exact .aside he (fun c hc => (h₁ c hc).mono hP.first) fun c hc => (h₂ c hc).mono hP.second

theorem Supplies.mono {name : String} {x₁ x₂ : Supplied Callable} (h : P.Supplies application name x₁ x₂)
    (hP : P.Grows P') : P'.Supplies application name x₁ x₂ := by
  cases h with
  | value v => exact .value name v
  | counterparts hname hp hscripts => exact .counterparts hname (hP.pairs hp) hscripts
  | bystanders hname h₁ h₂ => exact .bystanders hname (h₁.mono hP.first) (h₂.mono hP.second)

end

end Pairing

/-! ## Stages that are alike -/

namespace Stage

/-- The stage without what may differ. -/
def shared (s : Stage) : Stage :=
  { s with
    queues := { s.queues with outbound := [] }, replies := [], listeners := .none, nextId := 0, calls := [], trace := [],
    spawned := [] }

/-- The stage with all that may not differ taken from another. -/
def withShared (s t : Stage) : Stage :=
  { t with
    queues := { t.queues with outbound := s.queues.outbound }, replies := s.replies, listeners := s.listeners,
    nextId := s.nextId, calls := s.calls, trace := s.trace, spawned := s.spawned }

/-- A stage with so many callables: all calls were theirs, and all tasks are those of bystanders. -/
structure Knows (r : Roster) (s : Stage) : Prop where
  next : s.nextId = r.next
  calls : ∀ x ∈ s.calls, x.1 < r.next
  tasks : ∀ event p, .handler event p ∈ s.spawned → r.Chore p

/-- It is read off the callables, their calls and what is spawned. -/
theorem Knows.congr {r : Roster} {s s' : Stage} (h : s.Knows r) (hnext : s'.nextId = s.nextId) (hcalls : s'.calls = s.calls)
    (hspawned : s'.spawned = s.spawned) : s'.Knows r where
  next := hnext.trans h.next
  calls x hx := h.calls x (hcalls ▸ hx)
  tasks event p hp := h.tasks event p (hspawned ▸ hp)

end Stage

/-- Whether it is a handler that is to run. -/
def Spawned.isTask : Spawned → Bool
  | handler .. => true
  | loop | wake => false

/-- Each of the stages has what the other has, but for bystanders and what comes of them. -/
structure Alike (application : Bool) (P : Pairing) (s₁ s₂ : Stage) : Prop where
  shared : s₁.shared = s₂.shared
  outbound : List.Forall₂ P.Same s₁.queues.outbound s₂.queues.outbound
  replies : Replies.Agree s₁.replies s₂.replies
  listeners : ∀ e, P.Hears application e (s₁.listeners e) (s₂.listeners e)
  counts : ∀ p ∈ P.pairs, s₁.calls.lookup p.1 = s₂.calls.lookup p.2
  trace : s₁.trace.filterMap Incident.sight? = s₂.trace.filterMap Incident.sight?
  spawned : s₁.spawned.filter (!·.isTask) = s₂.spawned.filter (!·.isTask)
  first : s₁.Knows P.first
  second : s₂.Knows P.second

theorem Stage.Knows.drifts {r : Roster} {s s' : Stage} (h : s.Knows r) (hs : r.Drifts s s') : s'.Knows r where
  next := (congrArg Stage.nextId hs.rest).trans h.next
  calls x hx := (hs.known x hx).elim (h.calls x) id
  tasks event p hp := by
    obtain ⟨tasks, hspawned, htasks⟩ := hs.spawned
    rw [hspawned] at hp
    rcases List.mem_append.mp hp with hp | hp
    · obtain ⟨_, _, heq, hchore⟩ := htasks _ hp
      cases heq
      exact hchore
    · exact h.tasks event p hp

theorem Roster.Drifts.filter_spawned {r : Roster} {s s' : Stage} (h : r.Drifts s s') :
    s'.spawned.filter (!·.isTask) = s.spawned.filter (!·.isTask) := by
  obtain ⟨tasks, hspawned, htasks⟩ := h.spawned
  have hnone : tasks.filter (!·.isTask) = [] := by
    refine List.filter_eq_nil_iff.mpr fun x hx => ?_
    obtain ⟨event, p, rfl, -⟩ := htasks x hx
    exact Bool.false_ne_true
  rw [hspawned, List.filter_append, hnone, List.nil_append]

namespace Alike

variable {application : Bool} {P P' : Pairing} {s₁ s₂ s₁' s₂' : Stage}

/-- What bystanders do keeps the stages alike. -/
theorem drifts (h : Alike application P s₁ s₂) (h₁ : P.first.Drifts s₁ s₁') (h₂ : P.second.Drifts s₂ s₂') :
    Alike application P s₁' s₂' where
  shared := by
    rw [h₁.rest, h₂.rest]
    exact h.shared
  outbound := by
    rw [h₁.rest, h₂.rest]
    exact h.outbound
  replies := by
    rw [h₁.rest, h₂.rest]
    exact h.replies
  listeners e := by
    rw [h₁.rest, h₂.rest]
    exact h.listeners e
  counts p hp := by
    rw [h₁.calls _ (List.mem_map_of_mem hp), h₂.calls _ (List.mem_map_of_mem hp), h.counts p hp]
  trace := by rw [h₁.trace, h₂.trace, h.trace]
  spawned := by rw [h₁.filter_spawned, h₂.filter_spawned, h.spawned]
  first := h.first.drifts h₁
  second := h.second.drifts h₂

/-- What is done to what the stages have in common. -/
theorem change {f : Stage → Stage} (hf : ∀ s, f s = s.withShared (f s.shared)) (h : Alike application P s₁ s₂) :
    Alike application P (f s₁) (f s₂) := by
  rw [hf s₁, hf s₂, h.shared]
  exact { h with
    shared := rfl
    first := h.first.congr rfl rfl rfl
    second := h.second.congr rfl rfl rfl }

/-- The same is seen on both. -/
theorem record {i₁ i₂ : Incident} (hi : i₁.sight? = i₂.sight?) (h : Alike application P s₁ s₂) :
    Alike application P (s₁.record i₁) (s₂.record i₂) :=
  { h with
    trace := by
      change List.filterMap _ (i₁ :: s₁.trace) = List.filterMap _ (i₂ :: s₂.trace)
      rw [List.filterMap_cons, List.filterMap_cons, hi, h.trace]
    first := h.first.congr rfl rfl rfl
    second := h.second.congr rfl rfl rfl }

theorem log (e₁ e₂ : Log.Entry) (h : Alike application P s₁ s₂) : Alike application P (s₁.log e₁) (s₂.log e₂) :=
  h.record rfl

theorem logAll (es₁ es₂ : List Log.Entry) (h : Alike application P s₁ s₂) :
    Alike application P (s₁.logAll es₁) (s₂.logAll es₂) :=
  h.drifts (Roster.drifts_logAll es₁ _ s₁) (Roster.drifts_logAll es₂ _ s₂)

/-- The same is spawned on both, and it is no handler. -/
theorem spawn {x : Spawned} (hx : x.isTask = false) (h : Alike application P s₁ s₂) :
    Alike application P (s₁.spawn x) (s₂.spawn x) := by
  have hknows : ∀ {r : Roster} {s : Stage}, s.Knows r → (s.spawn x).Knows r := by
    intro r s hs
    refine ⟨hs.next, hs.calls, fun event p hp => ?_⟩
    rcases List.mem_cons.mp hp with rfl | hp
    · cases hx
    · exact hs.tasks event p hp
  refine { h with spawned := ?_, first := hknows h.first, second := hknows h.second }
  change List.filter _ (x :: s₁.spawned) = List.filter _ (x :: s₂.spawned)
  rw [List.filter_cons, List.filter_cons, h.spawned]

/-- What is read off what the stages have in common. -/
theorem same {β : Type} {f : Stage → β} (hf : ∀ s, f s = f s.shared) (h : Alike application P s₁ s₂) : f s₁ = f s₂ := by
  rw [hf s₁, hf s₂, h.shared]

theorem polling (h : Alike application P s₁ s₂) : s₁.polling = s₂.polling := h.same fun _ => rfl

theorem start (h : Alike application P s₁ s₂) : Alike application P s₁.start s₂.start := by
  unfold Stage.start
  rw [h.polling]
  generalize s₂.polling.start = started
  obtain ⟨started, polling⟩ := started
  have hset : Alike application P { s₁ with polling } { s₂ with polling } :=
    h.change (f := fun s => { s with polling }) fun _ => rfl
  cases started with
  | launched => exact (hset.spawn rfl).log _ _
  | already => exact h.log _ _
  | resumed => exact hset.log _ _

theorem stop (h : Alike application P s₁ s₂) : Alike application P s₁.stop s₂.stop := by
  have hset : ∀ {s₁ s₂}, Alike application P s₁ s₂ → Alike application P { s₁ with polling := s₁.polling.stop }
      { s₂ with polling := s₂.polling.stop } := fun h =>
    h.change (f := fun s => { s with polling := s.polling.stop }) fun _ => rfl
  have hstop : ∀ s : Stage, s.stop =
      { (if s.polling.endsWait then s.spawn .wake else s) with polling := s.polling.stop } := fun _ => rfl
  rw [hstop, hstop, h.polling]
  split
  · have hwake := hset (h.spawn (x := .wake) rfl)
    have heq : (s₁.spawn .wake).polling.stop = s₂.polling.stop := congrArg Polling.stop h.polling
    rw [heq] at hwake
    exact hwake
  · have hplain := hset h
    rw [h.polling] at hplain
    exact hplain

/-! ### Calls of counterparts -/

/-- Counterparts are called equally often. -/
theorem takeActs {i j : Nat} (name : String) (script₁ script₂ : Script) {arguments₁ arguments₂ : List Argument}
    (harguments : arguments₁.map Argument.bare = arguments₂.map Argument.bare) (hp : (i, j) ∈ P.pairs)
    (h : Alike application P s₁ s₂) :
    ∃ n told, (s₁.takeActs ⟨i, name, .script script₁⟩ script₁ arguments₁).1 = script₁.acts n told ∧
      (s₂.takeActs ⟨j, name, .script script₂⟩ script₂ arguments₂).1 = script₂.acts n told ∧
      Alike application P (s₁.takeActs ⟨i, name, .script script₁⟩ script₁ arguments₁).2
        (s₂.takeActs ⟨j, name, .script script₂⟩ script₂ arguments₂).2 := by
  have hcount : s₁.calls.lookup i = s₂.calls.lookup j := h.counts _ hp
  refine ⟨(s₂.calls.lookup j).getD 0, _, ?_, rfl, { h with
    counts := fun p hp' => ?_
    first := ⟨h.first.next, fun x hx => ?_, h.first.tasks⟩
    second := ⟨h.second.next, fun x hx => ?_, h.second.tasks⟩ }⟩
  · rw [← hcount, ← Argument.map_told_congr harguments]
    rfl
  · have hinj := P.injective p hp' (i, j) hp
    by_cases hi : p.1 = i
    · obtain ⟨i', j'⟩ := p
      obtain rfl : i' = i := hi
      obtain rfl : j' = j := hinj.mp rfl
      change List.lookup i' ((i', (s₁.calls.lookup i').getD 0 + 1) :: _) =
        List.lookup j' ((j', (s₂.calls.lookup j').getD 0 + 1) :: _)
      rw [List.lookup_cons_self, List.lookup_cons_self, hcount]
    · have hj : p.2 ≠ j := mt hinj.mpr hi
      rw [Stage.lookup_takeActs hi, Stage.lookup_takeActs hj, h.counts p hp']
  · rcases List.mem_cons.mp hx with rfl | hx
    · exact (P.bounded _ hp).1
    · exact h.first.calls x (List.mem_filter.mp hx).1
  · rcases List.mem_cons.mp hx with rfl | hx
    · exact (P.bounded _ hp).2
    · exact h.second.calls x (List.mem_filter.mp hx).1

/-! ### Registration -/

/-- More callables have been made. None of the new ones has been called. -/
theorem grow (h : Alike application P s₁ s₂) (hP : P.Grows P')
    (hnew : ∀ p ∈ P'.pairs, p ∈ P.pairs ∨ P.left ≤ p.1 ∧ P.right ≤ p.2) :
    Alike application P' { s₁ with nextId := P'.left } { s₂ with nextId := P'.right } where
  shared := h.shared
  outbound := Pairing.same_mono h.outbound hP
  replies := h.replies
  listeners e := (h.listeners e).mono hP
  counts p hp := by
    have hfresh : ∀ {calls : List (Nat × Nat)} {n i : Nat}, (∀ x ∈ calls, x.1 < n) → n ≤ i → calls.lookup i = none := by
      intro calls n i hcalls hle
      refine List.lookup_eq_none_iff.mpr fun x hx => ?_
      simpa using (Nat.ne_of_lt (Nat.lt_of_lt_of_le (hcalls x hx) hle)).symm
    rcases hnew p hp with hp | ⟨hleft, hright⟩
    · exact h.counts p hp
    · exact (hfresh h.first.calls hleft).trans (hfresh h.second.calls hright).symm
  trace := h.trace
  spawned := h.spawned
  first := ⟨rfl, fun x hx => Nat.lt_of_lt_of_le (h.first.calls x hx) hP.first.next,
    fun event p hp => (h.first.tasks event p hp).mono hP.first⟩
  second := ⟨rfl, fun x hx => Nat.lt_of_lt_of_le (h.second.calls x hx) hP.second.next,
    fun event p hp => (h.second.tasks event p hp).mono hP.second⟩

/-- Bystanders are made. -/
theorem apart (h : Alike application P s₁ s₂) (m n : Nat) :
    Alike application (P.apart m n) { s₁ with nextId := s₁.nextId + m } { s₂ with nextId := s₂.nextId + n } := by
  rw [h.first.next, h.second.next]
  exact h.grow (P.grows_apart m n) fun p => .inl

/-- Counterparts are made. -/
theorem joined (h : Alike application P s₁ s₂) :
    Alike application P.joined { s₁ with nextId := s₁.nextId + 1 } { s₂ with nextId := s₂.nextId + 1 } := by
  rw [h.first.next, h.second.next]
  refine h.grow P.grows_joined fun p hp => ?_
  rcases List.mem_cons.mp hp with rfl | hp
  · exact .inr ⟨Nat.le_refl _, Nat.le_refl _⟩
  · exact .inl hp

end Alike

/-- The next callable, if nobody waits for it and it only answers, is a bystander. -/
theorem Roster.bystander_next {r : Roster} {id : Nat} {name : String} {body : Body} (hid : id = r.next)
    (hr : ∀ i ∈ r.awaited, i < r.next) (hname : isAwaited name = false) (hbody : body.Mute) :
    Roster.Bystander ⟨r.next + 1, r.awaited⟩ ⟨id, name, body⟩ where
  known := hid ▸ Nat.lt_succ_self _
  unawaited hi := Nat.lt_irrefl _ (hid ▸ hr id hi)
  name := hname
  mute := hbody

theorem Pairing.awaited_first (P : Pairing) : ∀ i ∈ P.first.awaited, i < P.first.next :=
  List.forall_mem_map.mpr fun p hp => (P.bounded p hp).1

theorem Pairing.awaited_second (P : Pairing) : ∀ i ∈ P.second.awaited, i < P.second.next :=
  List.forall_mem_map.mpr fun p hp => (P.bounded p hp).2

namespace Alike

variable {application : Bool} {P : Pairing} {s₁ s₂ : Stage} {name : String}

theorem bystander_first {script : Script} (h : Alike application P s₁ s₂) (hname : isAwaited name = false)
    (hscript : script.Mute) (n : Nat) : (P.apart 1 n).first.Bystander (s₁.enlist name script).1 :=
  Roster.bystander_next h.first.next P.awaited_first hname hscript

theorem bystander_second {script : Script} (h : Alike application P s₁ s₂) (hname : isAwaited name = false)
    (hscript : script.Mute) (m : Nat) : (P.apart m 1).second.Bystander (s₂.enlist name script).1 :=
  Roster.bystander_next h.second.next P.awaited_second hname hscript

theorem mem_joined (h : Alike application P s₁ s₂) : (s₁.nextId, s₂.nextId) ∈ P.joined.pairs := by
  rw [h.first.next, h.second.next]
  exact List.mem_cons_self

theorem accept {offer₁ offer₂ : Offer} (h : Alike application P s₁ s₂)
    (hoffer : Offer.Agrees application name offer₁ offer₂) :
    ∃ P', P.Grows P' ∧ Alike application P' (s₁.accept name offer₁).2 (s₂.accept name offer₂).2 ∧
      P'.Supplies application name (s₁.accept name offer₁).1 (s₂.accept name offer₂).1 := by
  cases hoffer with
  | value => exact ⟨P, .refl P, h, .value name _⟩
  | script hname hscripts =>
    exact ⟨P.joined, P.grows_joined, h.joined, .counterparts hname h.mem_joined hscripts⟩
  | notice hname hscript₁ hscript₂ =>
    have hawaited := isAwaited_of_isNotice hname
    exact ⟨P.apart 1 1, P.grows_apart 1 1, h.apart 1 1,
      .bystanders hname (h.bystander_first hawaited hscript₁ 1) (h.bystander_second hawaited hscript₂ 1)⟩

/-- Offers that agree supply what has its counterparts. -/
theorem acceptAll {offers₁ offers₂ : List (String × Offer)} (hoffers : Offers.Agree application offers₁ offers₂)
    {P : Pairing} {s₁ s₂ : Stage} (h : Alike application P s₁ s₂) :
    ∃ P', P.Grows P' ∧ Alike application P' (s₁.acceptAll offers₁).2 (s₂.acceptAll offers₂).2 ∧
      P'.SuppliesAll application (s₁.acceptAll offers₁).1 (s₂.acceptAll offers₂).1 := by
  match hoffers with
  | .nil => exact ⟨P, .refl P, h, .nil⟩
  | .cons hoffer hrest =>
    obtain ⟨P', hP', h', hsupplies⟩ := h.accept hoffer
    obtain ⟨P'', hP'', h'', hall⟩ := acceptAll hrest h'
    exact ⟨P'', hP'.trans hP'', h'', .cons (hsupplies.mono hP'') hall⟩
  | .first hfree hscript hrest =>
    have hbystander := h.bystander_first (isAwaited_of_isNotice (isNotice_of_isFree hfree)) hscript 0
    obtain ⟨P', hP', h', hall⟩ := acceptAll hrest (h.apart 1 0)
    exact ⟨P', (P.grows_apart 1 0).trans hP', h', .first hfree (hbystander.mono hP'.first) hall⟩
  | .second hfree hscript hrest =>
    have hbystander := h.bystander_second (isAwaited_of_isNotice (isNotice_of_isFree hfree)) hscript 0
    obtain ⟨P', hP', h', hall⟩ := acceptAll hrest (h.apart 0 1)
    exact ⟨P', (P.grows_apart 0 1).trans hP', h', .second hfree (hbystander.mono hP'.second) hall⟩

end Alike

/-! ### Listeners -/

/-- Two results that go together, or the same fault. -/
inductive Outcomes {α β : Type} (R : α → β → Prop) : Except Fault α → Except Fault β → Prop
  | ok {a : α} {b : β} (h : R a b) : Outcomes R (.ok a) (.ok b)
  | error (f : Fault) : Outcomes R (.error f) (.error f)

namespace Pairing

variable {P : Pairing} {application : Bool} {ls₁ ls₂ : Listeners Callable} {e : EventName} {name : String}

/-- Every event is heard by counterparts, or by whoever nobody waits for. -/
def Hearing (application : Bool) (P : Pairing) (ls₁ ls₂ : Listeners Callable) : Prop :=
  ∀ e, P.Hears application e (ls₁ e) (ls₂ e)

theorem Hearing.set {c₁ c₂ : Callable} (h : P.Hearing application ls₁ ls₂)
    (he : P.Hears application e (some c₁) (some c₂)) : P.Hearing application (ls₁.set e c₁) (ls₂.set e c₂) := by
  intro e'
  by_cases heq : e' = e
  · subst heq
    rw [Listeners.set_same, Listeners.set_same]
    exact he
  · rw [Listeners.set_other ls₁ c₁ heq, Listeners.set_other ls₂ c₂ heq]
    exact h e'

/-- Whoever hears of an event that is only given notice of, and of which the application need not hear, is aside. -/
theorem Hears.asides {c₁ c₂ : Option Callable} (h : P.Hears application e c₁ c₂)
    (he : isFree application e.text = true) :
    e.isRequest = false ∧ (∀ c, c₁ = some c → P.first.Aside e c) ∧ ∀ c, c₂ = some c → P.second.Aside e c := by
  have hrequest : e.isRequest = false := by simpa [isNotice_text] using isNotice_of_isFree he
  refine ⟨hrequest, ?_⟩
  cases h with
  | nobody => exact ⟨nofun, nofun⟩
  | counterparts he => exact absurd (he.symm.trans hrequest) nofun
  | application hdelete =>
    have hother : e ≠ .delete := by
      rintro rfl
      rw [hdelete rfl] at he
      cases he
    refine ⟨fun c hc => ?_, fun c hc => ?_⟩ <;>
    · cases hc
      exact .application hother
  | aside _ h₁ h₂ => exact ⟨h₁, h₂⟩

theorem Hearing.set_first {c : Callable} (h : P.Hearing application ls₁ ls₂) (he : isFree application e.text = true)
    (hc : P.first.Bystander c) : P.Hearing application (ls₁.set e c) ls₂ := by
  intro e'
  by_cases heq : e' = e
  · subst heq
    obtain ⟨hrequest, -, h₂⟩ := (h e').asides he
    rw [Listeners.set_same]
    exact .aside hrequest (fun c' hc' => Option.some.inj hc' ▸ .bystander hc) h₂
  · rw [Listeners.set_other ls₁ c heq]
    exact h e'

theorem Hearing.set_second {c : Callable} (h : P.Hearing application ls₁ ls₂) (he : isFree application e.text = true)
    (hc : P.second.Bystander c) : P.Hearing application ls₁ (ls₂.set e c) := by
  intro e'
  by_cases heq : e' = e
  · subst heq
    obtain ⟨hrequest, h₁, -⟩ := (h e').asides he
    rw [Listeners.set_same]
    exact .aside hrequest h₁ fun c' hc' => Option.some.inj hc' ▸ .bystander hc
  · rw [Listeners.set_other ls₂ c heq]
    exact h e'

theorem exists_of_isNotice (h : isNotice name = true) : ∃ e : EventName, name = e.text ∧ e.isRequest = false := by
  unfold isNotice at h
  cases hname : EventName.ofText? name with
  | none => simp [hname] at h
  | some e =>
    have htext : e.text = name := by simpa using List.find?_some hname
    exact ⟨e, htext.symm, by simpa [hname] using h⟩

theorem Hearing.register_text {x₁ x₂ : Supplied Callable} (h : P.Hearing application ls₁ ls₂)
    (hx : P.Supplies application name x₁ x₂) :
    Outcomes (P.Hearing application) (ls₁.register (.text name) x₁) (ls₂.register (.text name) x₂) := by
  cases hname : EventName.ofText? name with
  | none =>
    have hvalue : EventName.ofValue (.text name) = .error (.unknownEvent (Value.text name).shown) := by
      simp [EventName.ofValue, hname]
    simp only [Listeners.register, hvalue, bind, Except.bind]
    exact .error _
  | some e =>
    have htext : e.text = name := by simpa using List.find?_some hname
    have hvalue : EventName.ofValue (.text name) = .ok e := by simp [EventName.ofValue, hname]
    simp only [Listeners.register, hvalue, bind, Except.bind]
    cases hx with
    | value v => exact .error _
    | counterparts hnotice hp hscripts =>
      subst htext
      refine .ok (h.set (.counterparts ?_ hp hscripts))
      simpa [isNotice_text] using hnotice
    | bystanders hnotice h₁ h₂ =>
      subst htext
      refine .ok (h.set (.aside ?_ ?_ ?_))
      · simpa [isNotice_text] using hnotice
      · exact fun c hc => Option.some.inj hc ▸ .bystander h₁
      · exact fun c hc => Option.some.inj hc ▸ .bystander h₂

/-- To register what has its counterpart, for whatever event. -/
theorem Hearing.register {event : Value} {x₁ x₂ : Supplied Callable} (h : P.Hearing application ls₁ ls₂)
    (hx : P.Supplies application event.plain x₁ x₂) :
    Outcomes (P.Hearing application) (ls₁.register event x₁) (ls₂.register event x₂) := by
  cases event with
  | text name => exact h.register_text hx
  | _ => exact .error _

theorem Hearing.registerAll {xs₁ xs₂ : List (String × Supplied Callable)} (hxs : P.SuppliesAll application xs₁ xs₂)
    {ls₁ ls₂ : Listeners Callable} (h : P.Hearing application ls₁ ls₂) :
    P.Hearing application (ls₁.registerAll xs₁).1 (ls₂.registerAll xs₂).1 ∧
      (ls₁.registerAll xs₁).2 = (ls₂.registerAll xs₂).2 := by
  have hfree : ∀ {name : String} {c : Callable} (ls : Listeners Callable), isFree application name = true →
      ∃ e : EventName, name = e.text ∧ ls.register (.text name) (.callable c) = .ok (ls.set e c) := by
    intro name c ls hname
    obtain ⟨e, rfl, -⟩ := exists_of_isNotice (isNotice_of_isFree hname)
    exact ⟨e, rfl, by simp [Listeners.register, EventName.ofValue, bind, Except.bind, pure, Except.pure]⟩
  induction hxs generalizing ls₁ ls₂ with
  | nil => exact ⟨h, rfl⟩
  | cons hx _ ih =>
    have hregister := h.register_text hx
    unfold Listeners.registerAll
    generalize ls₁.register _ _ = registered₁ at *
    generalize ls₂.register _ _ = registered₂ at *
    cases hregister with
    | ok hset => exact ih hset
    | error f => exact ⟨h, rfl⟩
  | first hname hc _ ih =>
    obtain ⟨e, rfl, hregister⟩ := hfree ls₁ hname
    rw [Listeners.registerAll, hregister]
    exact ih (h.set_first hname hc)
  | second hname hc _ ih =>
    obtain ⟨e, rfl, hregister⟩ := hfree ls₂ hname
    rw [Listeners.registerAll, hregister]
    exact ih (h.set_second hname hc)

end Pairing

namespace Alike

variable {application : Bool} {P : Pairing} {s₁ s₂ : Stage}

theorem listen {ls₁ ls₂ : Listeners Callable} (h : Alike application P s₁ s₂) (hls : P.Hearing application ls₁ ls₂) :
    Alike application P { s₁ with listeners := ls₁ } { s₂ with listeners := ls₂ } :=
  { h with listeners := hls, first := h.first.congr rfl rfl rfl, second := h.second.congr rfl rfl rfl }

/-- Registration of what has its counterparts. -/
theorem registerAll {xs₁ xs₂ : List (String × Supplied Callable)} (h : Alike application P s₁ s₂)
    (hxs : P.SuppliesAll application xs₁ xs₂) : Alike application P (s₁.on (.several xs₁)).2 (s₂.on (.several xs₂)).2 ∧
      (s₁.on (.several xs₁)).1 = (s₂.on (.several xs₂)).1 := by
  obtain ⟨hhearing, hfault⟩ := Pairing.Hearing.registerAll hxs h.listeners
  refine ⟨h.listen hhearing, ?_⟩
  simp only [Stage.on, Listeners.on, hfault]

theorem register {offers₁ offers₂ : List (String × Offer)} (h : Alike application P s₁ s₂)
    (hoffers : Offers.Agree application offers₁ offers₂) :
    ∃ P', P.Grows P' ∧ Alike application P' (s₁.register offers₁).2 (s₂.register offers₂).2 ∧
      (s₁.register offers₁).1 = (s₂.register offers₂).1 := by
  obtain ⟨P', hP', h', hall⟩ := h.acceptAll hoffers
  exact ⟨P', hP', h'.registerAll hall⟩

/-- Registration of a single handler. -/
theorem on {event : Value} {x₁ x₂ : Supplied Callable} (h : Alike application P s₁ s₂)
    (hx : P.Supplies application event.plain x₁ x₂) :
    Alike application P (s₁.on (.one event x₁)).2 (s₂.on (.one event x₂)).2 ∧
      (s₁.on (.one event x₁)).1 = (s₂.on (.one event x₂)).1 := by
  cases event with
  | text name => exact h.registerAll (.cons hx .nil)
  | _ => exact ⟨h, rfl⟩

/-! ### Queues -/

end Alike

/-- The queues are the same but for the callbacks of messages. -/
structure Pairing.Queued (P : Pairing) (q₁ q₂ : Queues Callable) : Prop where
  outbound : List.Forall₂ P.Same q₁.outbound q₂.outbound
  inbound : q₁.inbound = q₂.inbound
  deletion : q₁.deletion = q₂.deletion

namespace Alike

variable {application : Bool} {P : Pairing} {s₁ s₂ : Stage}

theorem queued (h : Alike application P s₁ s₂) : P.Queued s₁.queues s₂.queues where
  outbound := h.outbound
  inbound := h.same (f := fun s => s.queues.inbound) fun _ => rfl
  deletion := h.same (f := fun s => s.queues.deletion) fun _ => rfl

theorem update {q₁ q₂ : Queues Callable} (h : Alike application P s₁ s₂) (hq : P.Queued q₁ q₂) :
    Alike application P { s₁ with queues := q₁ } { s₂ with queues := q₂ } := by
  refine { h with
    shared := ?_
    outbound := hq.outbound
    first := h.first.congr rfl rfl rfl
    second := h.second.congr rfl rfl rfl }
  have hqueues : ({ q₁ with outbound := [] } : Queues Callable) = { q₂ with outbound := [] } := by
    rw [hq.inbound, hq.deletion]
  have hset : { s₁.shared with queues := { q₁ with outbound := [] } } =
      { s₂.shared with queues := { q₂ with outbound := [] } } := by
    rw [h.shared, hqueues]
  exact hset

/-- Messages that are sent on both stages. -/
theorem send {destination text : Value} {context₁ callback₁ context₂ callback₂ : Supplied Callable}
    (h : Alike application P s₁ s₂) (hm : Outcomes P.Same (Outbound.ofArguments destination text context₁ callback₁)
      (Outbound.ofArguments destination text context₂ callback₂)) :
    Outcomes P.Same (s₁.send destination text context₁ callback₁).1 (s₂.send destination text context₂ callback₂).1 ∧
      Alike application P (s₁.send destination text context₁ callback₁).2
        (s₂.send destination text context₂ callback₂).2 := by
  unfold Stage.send
  generalize Outbound.ofArguments destination text context₁ callback₁ = m₁ at *
  generalize Outbound.ofArguments destination text context₂ callback₂ = m₂ at *
  cases hm with
  | error f => exact ⟨.error f, h⟩
  | ok hsame =>
    refine ⟨.ok hsame, h.update ⟨?_, h.queued.inbound, h.queued.deletion⟩⟩
    exact List.rel_append h.outbound (.cons hsame .nil)

end Alike

namespace Pairing

variable {P : Pairing}

/-- The contexts are the same, and nobody waits for the callbacks. -/
structure Attached (P : Pairing) (x y : Supplied Callable × Option Callable) : Prop where
  context : bareContext x.1 = bareContext y.1
  first : ∀ k, x.2 = some k → P.first.Bystander k
  second : ∀ k, y.2 = some k → P.second.Bystander k

/-- Of contexts and callbacks that go together messages are made that do. -/
theorem ofArguments (destination text : Value) {context₁ callback₁ context₂ callback₂ : Supplied Callable}
    (h : Outcomes P.Attached (Outbound.attachments context₁ callback₁) (Outbound.attachments context₂ callback₂)) :
    Outcomes P.Same (Outbound.ofArguments destination text context₁ callback₁)
      (Outbound.ofArguments destination text context₂ callback₂) := by
  unfold Outbound.ofArguments
  generalize Outbound.attachments context₁ callback₁ = x₁ at *
  generalize Outbound.attachments context₂ callback₂ = x₂ at *
  cases h with
  | error f => exact .error f
  | ok h =>
    rename_i x y
    obtain ⟨context, callback⟩ := x
    obtain ⟨context', callback'⟩ := y
    obtain ⟨hcontext, hfirst, hsecond⟩ := h
    cases Outbound.requireText .badDestination destination with
    | error f => exact .error f
    | ok destination =>
      cases Outbound.requireText .badText text with
      | error f => exact .error f
      | ok text =>
        refine .ok ⟨?_, hfirst, hsecond⟩
        exact congrArg (fun c => ({ destination, text, context := c } : Outbound Body)) hcontext

end Pairing

/-- A context, as it is seen. -/
def Offer.bare : Offer → Supplied Body
  | value v => .value v
  | script s => .callable (.script s)

/-- What is made of a context and a callback. -/
theorem Stage.attaches {r : Roster} {s : Stage} {context callback offer : Offer} (h : Attaches context callback offer)
    (hnext : s.nextId = r.next) (hr : ∀ i ∈ r.awaited, i < r.next) :
    ∃ n x k, ((s.accept "on_result" context).2.accept "on_result" callback).2 = { s with nextId := s.nextId + n } ∧
      Outbound.attachments (s.accept "on_result" context).1
        ((s.accept "on_result" context).2.accept "on_result" callback).1 = .ok (x, k) ∧
      bareContext x = offer.bare ∧ ∀ c, k = some c → Roster.Bystander ⟨r.next + n, r.awaited⟩ c := by
  cases h with
  | neither v => exact ⟨0, .value v, none, rfl, rfl, rfl, nofun⟩
  | alone hscript =>
    refine ⟨1, .value .null, some _, rfl, rfl, rfl, fun c hc => ?_⟩
    obtain rfl := Option.some.inj hc
    exact Roster.bystander_next hnext hr rfl hscript
  | both context hscript =>
    cases context with
    | value v =>
      refine ⟨1, .value v, some _, rfl, rfl, rfl, fun c hc => ?_⟩
      obtain rfl := Option.some.inj hc
      exact Roster.bystander_next hnext hr rfl hscript
    | script script =>
      refine ⟨2, .callable _, some _, rfl, rfl, rfl, fun c hc => ?_⟩
      obtain rfl := Option.some.inj hc
      have hgrown : ∀ i ∈ r.awaited, i < r.next + 1 := fun i hi => Nat.lt_succ_of_lt (hr i hi)
      exact Roster.bystander_next (r := ⟨r.next + 1, r.awaited⟩) (congrArg (· + 1) hnext) hgrown rfl hscript

/-- A callback that cannot be called is refused, whatever the context. -/
theorem Outbound.attachments_refused {κ : Type} (context : Supplied κ) {v : Value} (hv : v ≠ .null) :
    Outbound.attachments context (.value v) = .error .badCallback := by
  cases context <;> cases v <;> first | rfl | exact absurd rfl hv

namespace Alike

variable {application : Bool} {P : Pairing} {s₁ s₂ : Stage}

/-- Messages that are sent on both stages with what may be offered with them. -/
theorem sendOffered {destination text : Value} {context₁ callback₁ context₂ callback₂ : Offer}
    (h : Alike application P s₁ s₂) (hagree : Attachments.Agree context₁ callback₁ context₂ callback₂) :
    ∃ P', P.Grows P' ∧ Alike application P' (s₁.sendOffered destination text context₁ callback₁).2
        (s₂.sendOffered destination text context₂ callback₂).2 ∧
      Outcomes P'.Same (s₁.sendOffered destination text context₁ callback₁).1
        (s₂.sendOffered destination text context₂ callback₂).1 := by
  cases hagree with
  | attached h₁ h₂ =>
    obtain ⟨m, x₁, k₁, hstage₁, hattach₁, hbare₁, hk₁⟩ := Stage.attaches h₁ h.first.next P.awaited_first
    obtain ⟨n, x₂, k₂, hstage₂, hattach₂, hbare₂, hk₂⟩ := Stage.attaches h₂ h.second.next P.awaited_second
    have h' := h.apart m n
    rw [← hstage₁, ← hstage₂] at h'
    have hattached : Outcomes (P.apart m n).Attached (.ok (x₁, k₁)) (.ok (x₂, k₂)) :=
      .ok ⟨hbare₁.trans hbare₂.symm, hk₁, hk₂⟩
    rw [← hattach₁, ← hattach₂] at hattached
    obtain ⟨hm, h''⟩ := h'.send (Pairing.ofArguments destination text hattached)
    exact ⟨P.apart m n, P.grows_apart m n, h'', hm⟩
  | @refused v hv =>
    have hrefused : ∀ {P} (x₁ x₂ : Supplied Callable), Outcomes (Pairing.Attached P)
        (Outbound.attachments x₁ (.value v)) (Outbound.attachments x₂ (.value v)) := by
      intro P x₁ x₂
      rw [Outbound.attachments_refused x₁ hv, Outbound.attachments_refused x₂ hv]
      exact .error _
    cases context₁ with
    | value u =>
      obtain ⟨hm, h'⟩ := h.send (Pairing.ofArguments destination text (hrefused (.value u) (.value u)))
      exact ⟨P, .refl P, h', hm⟩
    | script script =>
      obtain ⟨hm, h'⟩ := (h.apart 1 1).send (Pairing.ofArguments destination text (hrefused _ _))
      exact ⟨P.apart 1 1, P.grows_apart 1 1, h', hm⟩

end Alike

/-! ### Replies of the modem tool -/

/-- The replies that are left for a command agree. -/
theorem Replies.Agree.lookup {replies₁ replies₂ : List (String × List Reply)} (h : Replies.Agree replies₁ replies₂)
    (command : String) :
    Option.Rel (List.Forall₂ Reply.Agrees) (replies₁.lookup command) (replies₂.lookup command) := by
  induction h with
  | nil => exact .none
  | @cons x y _ _ hxy _ ih =>
    obtain ⟨hname, hreplies⟩ := hxy
    rw [List.lookup_cons, List.lookup_cons, hname]
    split
    · exact .some hreplies
    · exact ih

/-- The next reply is taken from either. -/
theorem Replies.Agree.take {replies₁ replies₂ : List (String × List Reply)} (h : Replies.Agree replies₁ replies₂)
    (command : String) {rest₁ rest₂ : List Reply} (hrest : List.Forall₂ Reply.Agrees rest₁ rest₂) :
    Replies.Agree (replies₁.map fun x => if x.1 = command then (command, rest₁) else x)
      (replies₂.map fun x => if x.1 = command then (command, rest₂) else x) := by
  refine List.forall₂_map_left_iff.mpr (List.forall₂_map_right_iff.mpr (List.Forall₂.imp (fun x y hxy => ?_) h))
  rw [hxy.1]
  split
  · exact ⟨rfl, hrest⟩
  · exact hxy

theorem Alike.takeReply {application : Bool} {P : Pairing} {s₁ s₂ : Stage} (h : Alike application P s₁ s₂)
    (command : String) : (s₁.takeReply command).1.Agrees (s₂.takeReply command).1 ∧
      Alike application P (s₁.takeReply command).2 (s₂.takeReply command).2 := by
  have hlookup := h.replies.lookup command
  unfold Stage.takeReply
  generalize s₁.replies.lookup command = found₁ at hlookup
  generalize s₂.replies.lookup command = found₂ at hlookup
  cases hlookup with
  | none => exact ⟨⟨.nil, rfl, rfl⟩, h⟩
  | some hfound =>
    cases hfound with
    | nil => exact ⟨⟨.nil, rfl, rfl⟩, h⟩
    | cons hreply hrest =>
      exact ⟨hreply, { h with
        replies := h.replies.take command hrest
        first := h.first.congr rfl rfl rfl
        second := h.second.congr rfl rfl rfl }⟩

end SmsRelay.Session
