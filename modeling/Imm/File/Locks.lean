import Mathlib.Algebra.Order.Ring.Int
import Imm.File.Transfer
import Imm.Schemes.Paths

/-! Who may touch the files of a key: `service::store`. A request goes to the shard that owns its key, finds or
    makes the state of the key in the map of that shard, and waits for its semaphore. Whoever ends passes the
    semaphore on, and takes the state out of the map if nobody else has it: the map and the one that ends are
    then the last two references.

        store ──▶ waiting ──▶ granted ──▶ running ──▶ ended
           │  the semaphore    ▲  the task is        │ returns the unit, which goes
           └── is free ────────┘  scheduled          ▼ to the first that waits -/

namespace Imm.FileService

open Steps List Option

/-- `owner_shard` -/
def ownerShard (key : String) (shards : ℕ) : ℕ :=
  (key.toUTF8.data.toList.foldl
    (fun hash value => (hash ^^^ value.toNat) * 1099511628211 % 2 ^ 64) 14695981039346656037) % shards

/-- Where a call of `store` stands. A unit of the semaphore is `granted` before the call goes on with it. -/
inductive Turn where | waiting | granted | running | ended
  deriving DecidableEq

/-- A call of `store`, with the reference it has taken. -/
structure StoreCall where
  request : ℤ × String
  bytes : ℕ
  shard : ℕ
  state : ℕ
  turn : Turn

def StoreCall.key (c : StoreCall) : String := objectKey c.request.1 c.request.2

/-- `object_state`: the semaphore with the calls that wait for it, and the number of references. -/
structure ObjectState where
  units : ℕ := 1
  waiters : List ℕ := []
  useCount : ℕ := 0

structure Shard where
  stopping : Bool := false
  operations : ℕ
  operationBytes : ℕ
  objects : String → Option ℕ := fun _ => none

/-- The File service. The states are named by the order in which they were made. -/
structure Service where
  shardCount : ℕ
  shards : ℕ → Shard
  states : List ObjectState := []
  calls : List StoreCall := []

/-- `semaphore::signal`: as long as there are units, the first that waits gets one. -/
def grant : ℕ → List ℕ → ℕ × List ℕ × List ℕ
  | 0, waiters => (0, waiters, [])
  | units, [] => (units, [], [])
  | units + 1, w :: waiters =>
    let (units, waiters, granted) := grant units waiters
    (units, waiters, w :: granted)

def setTurn (calls : List StoreCall) (i : ℕ) (turn : Turn) : List StoreCall :=
  calls.modify i fun c => { c with turn }

namespace Service

variable (s : Service)

def onShard (shard : ℕ) (f : Shard → Shard) : Service :=
  { s with shards := Function.update s.shards shard (f (s.shards shard)) }

def onState (state : ℕ) (f : ObjectState → ObjectState) : Service :=
  { s with states := s.states.modify state f }

def onCall (i : ℕ) (turn : Turn) : Service := { s with calls := setTurn s.calls i turn }

/-- `_objects.try_emplace(key)`; the map has one reference to a new state. -/
def emplace (shard : ℕ) (key : String) : Service × ℕ :=
  match (s.shards shard).objects key with
  | some state => (s, state)
  | none =>
    let s' := { s with states := s.states ++ [({ useCount := 1 } : ObjectState)] }
    (s'.onShard shard fun l => { l with objects := Function.update l.objects key (some s.states.length) },
      s.states.length)

/-- `get_units(state->exclusive, 1)`, by a call that has taken its reference. -/
def acquire (c : StoreCall) : Service :=
  let s := s.onState c.state fun o => { o with useCount := o.useCount + 1 }
  if s.states[c.state]?.any fun o => decide (1 ≤ o.units ∧ o.waiters = []) then
    let s := s.onState c.state fun o => { o with units := o.units - 1 }
    { s with calls := s.calls ++ [{ c with turn := .granted }] }
  else
    let s := s.onState c.state fun o => { o with waiters := o.waiters ++ [s.calls.length] }
    { s with calls := s.calls ++ [{ c with turn := .waiting }] }

/-- `store`, up to its first wait; storage only sees what passed the check of `execute`. -/
def store (q : Request) (bytes : ℕ) : Service :=
  let key := objectKey q.key.1 q.key.2
  let owner := ownerShard key s.shardCount
  if (s.shards owner).stopping then s
  else if (s.shards owner).operations < 1 ∨ (s.shards owner).operationBytes < bytes then s
  else
    let s := s.onShard owner fun l => { l with
      operations := l.operations - 1, operationBytes := l.operationBytes - bytes }
    let (s, state) := s.emplace owner key
    s.acquire { request := q.key, bytes, shard := owner, state, turn := .waiting }

/-- `exclusive.return_all()` -/
def signal (state : ℕ) : Service :=
  match s.states[state]? with
  | none => s
  | some o =>
    let (units, waiters, granted) := grant (o.units + 1) o.waiters
    granted.foldl (onCall · · .granted) (s.onState state fun o => { o with units, waiters })

/-- `_objects.erase(key)` -/
def erase (shard : ℕ) (key : String) : Service :=
  match (s.shards shard).objects key with
  | none => s
  | some state =>
    (s.onState state fun o => { o with useCount := o.useCount - 1 }).onShard shard fun l => { l with
      objects := Function.update l.objects key none }

/-- What is left of `store` once the unit has been returned. -/
def leave (i : ℕ) (c : StoreCall) : Service :=
  let s := if s.states[c.state]?.any fun o => decide (o.useCount = 2) then s.erase c.shard c.key else s
  let s := s.onState c.state fun o => { o with useCount := o.useCount - 1 }
  let s := s.onShard c.shard fun l => { l with
    operations := l.operations + 1, operationBytes := l.operationBytes + c.bytes }
  s.onCall i .ended

/-- The end of `store`, whether the operation has failed or not. -/
def finish (i : ℕ) (c : StoreCall) : Service := (s.signal c.state).leave i c

end Service

inductive StoreEvent where
  /-- a request that has passed the check arrives at its owner -/
  | store (q : Request) (bytes : ℕ)
  /-- a call that has been granted its unit goes on to the storage -/
  | resume (i : ℕ)
  /-- the operation of a call ends, with an answer or an exception -/
  | finish (i : ℕ) (failed : Bool)
  /-- `stop` -/
  | stop (shard : ℕ)

def Service.step (s : Service) : StoreEvent → Option Service
  | .store q bytes => if q.valid then some (s.store q bytes) else none
  | .resume i => s.calls[i]?.bind fun c => if c.turn = .granted then some (s.onCall i .running) else none
  | .finish i _ => s.calls[i]?.bind fun c => if c.turn = .running then some (s.finish i c) else none
  | .stop shard => some (s.onShard shard fun l => { l with stopping := true })

/-- Nothing has been stored yet; every shard has the same capacity. -/
def Service.init (shardCount operations operationBytes : ℕ) : Service where
  shardCount := shardCount
  shards _ := { operations, operationBytes }

/-! ### The books of a state -/

/-- The call has a reference to the state. -/
def StoreCall.uses (state : ℕ) (c : StoreCall) : Bool := decide (c.state = state ∧ c.turn ≠ .ended)

/-- The call has the unit of the state. -/
def StoreCall.owns (state : ℕ) (c : StoreCall) : Bool :=
  decide (c.state = state ∧ (c.turn = .granted ∨ c.turn = .running))

/-- What a state that is in a map says about the calls. -/
structure ObjectState.Accounts (o : ObjectState) (calls : List StoreCall) (state : ℕ) : Prop where
  /-- one reference for the map and one for each call in progress -/
  useCount : o.useCount = 1 + calls.countP (StoreCall.uses state)
  units : o.units + calls.countP (StoreCall.owns state) = 1
  waiters : ∀ i, i ∈ o.waiters ↔ ∃ c, calls[i]? = some c ∧ c.state = state ∧ c.turn = .waiting
  nodup : o.waiters.Nodup
  idle : o.units ≠ 0 → o.waiters = []

/-- What holds of the maps, the states and the calls between two steps of a shard. -/
structure Service.Booked (s : Service) : Prop where
  routed : ∀ (i : ℕ) c, s.calls[i]? = some c → c.shard = ownerShard c.key s.shardCount
  live : ∀ (i : ℕ) c, s.calls[i]? = some c → c.turn ≠ .ended →
    (s.shards c.shard).objects c.key = some c.state
  inj : ∀ shard shard' key key' r, (s.shards shard).objects key = some r →
    (s.shards shard').objects key' = some r → shard = shard' ∧ key = key'
  entry : ∀ shard key r, (s.shards shard).objects key = some r →
    ∃ o, s.states[r]? = some o ∧ o.Accounts s.calls r

/-- Every state in a map is used by a call. -/
def Service.Used (s : Service) : Prop :=
  ∀ shard key r, (s.shards shard).objects key = some r → 0 < s.calls.countP (StoreCall.uses r)

/-! ### Counting calls -/

section counting

variable {calls : List StoreCall} {i j : ℕ} {c c' : StoreCall} {o : ObjectState} {r : ℕ} {turn : Turn}

theorem getElem?_concat_iff : (calls ++ [c])[i]? = some c' ↔
    calls[i]? = some c' ∨ i = calls.length ∧ c = c' := by
  rcases lt_trichotomy i calls.length with h | rfl | h
  · simp [getElem?_append_left h, h.ne]
  · simp
  rw [getElem?_eq_none (by simp; omega), getElem?_eq_none h.le]
  simp [h.ne']

theorem getElem?_setTurn_iff : (setTurn calls i turn)[j]? = some c' ↔
    i ≠ j ∧ calls[j]? = some c' ∨ i = j ∧ ∃ c, calls[i]? = some c ∧ { c with turn } = c' := by
  rw [setTurn, getElem?_modify]
  by_cases h : i = j
  · subst h
    simp [map_eq_some_iff]
  · simp [h]

theorem countP_setTurn (h : calls[i]? = some c) (turn : Turn) (p : StoreCall → Bool) :
    (setTurn calls i turn).countP p + (if p c then 1 else 0)
      = calls.countP p + if p { c with turn } then 1 else 0 := by
  obtain ⟨hlt, rfl⟩ := List.getElem?_eq_some_iff.1 h
  have hset : setTurn calls i turn = calls.set i { calls[i] with turn } := by
    rw [setTurn, modify_eq_set_getElem?]
    simp [h]
  have hle : (if p calls[i] then 1 else 0) ≤ calls.countP p := by
    split
    · exact countP_pos_iff.2 ⟨_, getElem_mem hlt, ‹_›⟩
    · exact Nat.zero_le _
  rw [hset, countP_set hlt, Nat.add_right_comm, Nat.sub_add_cancel hle]

theorem countP_pos_of_getElem? {p : StoreCall → Bool} (h : calls[i]? = some c) (hp : p c = true) :
    0 < calls.countP p := countP_pos_iff.2 ⟨c, mem_of_getElem? h, hp⟩

theorem two_le_countP {p : StoreCall → Bool} (h : calls[i]? = some c) (h' : calls[j]? = some c') (hij : i ≠ j)
    (hc : p c = true) (hc' : p c' = true)
    (hended : p { c with turn := .ended } = false) : 2 ≤ calls.countP p := by
  have hj : (setTurn calls i .ended)[j]? = some c' := getElem?_setTurn_iff.2 (.inl ⟨hij, h'⟩)
  have hpos := countP_pos_of_getElem? hj hc'
  have hcount := countP_setTurn h .ended p
  simp only [hc, hended, if_true] at hcount
  simp at hcount
  omega

theorem waiting_setTurn (hi : calls[i]? = some c) (hturn : c.turn ≠ .waiting) (hturn' : turn ≠ .waiting) (j : ℕ) :
    (∃ c, calls[j]? = some c ∧ c.state = r ∧ c.turn = .waiting) ↔
      ∃ c, (setTurn calls i turn)[j]? = some c ∧ c.state = r ∧ c.turn = .waiting := by
  constructor
  · rintro ⟨c', hc', hstate⟩
    refine ⟨c', getElem?_setTurn_iff.2 (.inl ⟨?_, hc'⟩), hstate⟩
    rintro rfl
    rw [hi] at hc'
    cases hc'
    exact hturn hstate.2
  · rintro ⟨c', hc', hstate⟩
    rcases getElem?_setTurn_iff.1 hc' with ⟨-, hc'⟩ | ⟨rfl, c'', hc'', rfl⟩
    · exact ⟨c', hc', hstate⟩
    · exact absurd hstate.2 hturn'

end counting

/-! ### What a call does to the books -/

namespace ObjectState.Accounts

variable {calls : List StoreCall} {i w : ℕ} {c : StoreCall} {o : ObjectState} {r : ℕ}
  (h : o.Accounts calls r)
include h

/-- The unit is with the call that runs. -/
theorem units_eq (hi : calls[i]? = some c) (hc : c.state = r) (hturn : c.turn = .running) : o.units = 0 := by
  have hpos := countP_pos_of_getElem? (p := StoreCall.owns r) hi (by simp [StoreCall.owns, hc, hturn])
  have := h.units
  omega

theorem append_other (hc : c.state ≠ r) : o.Accounts (calls ++ [c]) r where
  useCount := by simp [h.useCount, countP_append, StoreCall.uses, hc]
  units := by simpa [countP_append, StoreCall.owns, hc] using h.units
  waiters i := by
    rw [h.waiters]
    constructor
    · rintro ⟨c', hc', hstate⟩
      exact ⟨c', getElem?_concat_iff.2 (.inl hc'), hstate⟩
    · rintro ⟨c', hc', hstate⟩
      rcases getElem?_concat_iff.1 hc' with hc' | ⟨-, rfl⟩
      · exact ⟨c', hc', hstate⟩
      · exact absurd hstate.1 hc
  nodup := h.nodup
  idle := h.idle

theorem append_granted (hc : c.state = r) (hturn : c.turn = .granted) (hunits : 1 ≤ o.units) :
    { o with useCount := o.useCount + 1, units := o.units - 1 }.Accounts (calls ++ [c]) r where
  useCount := by
    simp [h.useCount, countP_append, StoreCall.uses, hc, hturn]
    omega
  units := by
    have := h.units
    simp [countP_append, StoreCall.owns, hc, hturn]
    omega
  waiters i := by
    simp only [h.waiters]
    constructor
    · rintro ⟨c', hc', hstate⟩
      exact ⟨c', getElem?_concat_iff.2 (.inl hc'), hstate⟩
    · rintro ⟨c', hc', hstate⟩
      rcases getElem?_concat_iff.1 hc' with hc' | ⟨-, rfl⟩
      · exact ⟨c', hc', hstate⟩
      rw [hturn] at hstate
      cases hstate.2
  nodup := h.nodup
  idle hne := h.idle (by simp only at hne; omega)

theorem append_waiting (hc : c.state = r) (hturn : c.turn = .waiting) (hbusy : ¬ (1 ≤ o.units ∧ o.waiters = [])) :
    { o with useCount := o.useCount + 1, waiters := o.waiters ++ [calls.length] }.Accounts (calls ++ [c]) r where
  useCount := by
    simp [h.useCount, countP_append, StoreCall.uses, hc, hturn]
    omega
  units := by simpa [countP_append, StoreCall.owns, hc, hturn] using h.units
  waiters i := by
    simp only [List.mem_append, List.mem_singleton, h.waiters]
    constructor
    · rintro (⟨c', hc', hstate⟩ | rfl)
      · exact ⟨c', getElem?_concat_iff.2 (.inl hc'), hstate⟩
      · exact ⟨c, getElem?_concat_iff.2 (.inr ⟨rfl, rfl⟩), hc, hturn⟩
    · rintro ⟨c', hc', hstate⟩
      rcases getElem?_concat_iff.1 hc' with hc' | ⟨rfl, rfl⟩
      · exact .inl ⟨c', hc', hstate⟩
      · exact .inr rfl
  nodup := by
    refine nodup_append.2 ⟨h.nodup, pairwise_singleton _ _, ?_⟩
    rintro j hj _ hlength rfl
    obtain ⟨c', hc', -⟩ := (h.waiters j).1 hj
    rw [mem_singleton] at hlength
    have := (List.getElem?_eq_some_iff.1 hc').1
    omega
  idle hne := by
    -- a unit is only free when nobody waits, and then the call would have had it
    have hunits : o.units ≠ 0 := hne
    exact absurd ⟨by omega, h.idle hunits⟩ hbusy

theorem turn_other (hi : calls[i]? = some c) (hc : c.state ≠ r) (turn : Turn) :
    o.Accounts (setTurn calls i turn) r where
  useCount := by
    have := countP_setTurn hi turn (StoreCall.uses r)
    simp [StoreCall.uses, hc] at this
    rw [h.useCount, this]
  units := by
    have := countP_setTurn hi turn (StoreCall.owns r)
    simp [StoreCall.owns, hc] at this
    rw [this, h.units]
  waiters j := by
    rw [h.waiters]
    constructor
    · rintro ⟨c', hc', hstate⟩
      refine ⟨c', getElem?_setTurn_iff.2 (.inl ⟨?_, hc'⟩), hstate⟩
      rintro rfl
      rw [hi] at hc'
      cases hc'
      exact hc hstate.1
    · rintro ⟨c', hc', hstate⟩
      rcases getElem?_setTurn_iff.1 hc' with ⟨-, hc'⟩ | ⟨rfl, c'', hc'', rfl⟩
      · exact ⟨c', hc', hstate⟩
      rw [hi] at hc''
      cases hc''
      exact absurd hstate.1 hc
  nodup := h.nodup
  idle := h.idle

theorem resume (hi : calls[i]? = some c) (hturn : c.turn = .granted) :
    o.Accounts (setTurn calls i .running) r where
  useCount := by
    have := countP_setTurn hi .running (StoreCall.uses r)
    simp [StoreCall.uses, hturn] at this
    rw [h.useCount, this]
  units := by
    have := countP_setTurn hi .running (StoreCall.owns r)
    simp [StoreCall.owns, hturn] at this
    rw [this, h.units]
  waiters j := (h.waiters j).trans (waiting_setTurn hi (by simp [hturn]) (by simp) j)
  nodup := h.nodup
  idle := h.idle

theorem release (hi : calls[i]? = some c) (hc : c.state = r) (hturn : c.turn = .running) (hw : o.waiters = []) :
    ObjectState.Accounts ⟨1, [], o.useCount - 1⟩ (setTurn calls i .ended) r where
  useCount := by
    have := countP_setTurn hi .ended (StoreCall.uses r)
    simp [StoreCall.uses, hturn, hc] at this
    simp only [h.useCount]
    omega
  units := by
    have := countP_setTurn hi .ended (StoreCall.owns r)
    simp [StoreCall.owns, hturn, hc] at this
    have := h.units
    simp only
    omega
  waiters j := by
    rw [← hw]
    exact (h.waiters j).trans (waiting_setTurn hi (by simp [hturn]) (by simp) j)
  nodup := nodup_nil
  idle _ := rfl

/-- The unit goes to the call that has waited longest. -/
theorem grant {ws : List ℕ} (hw : o.waiters = w :: ws) :
    ∃ c, calls[w]? = some c ∧ c.turn = .waiting ∧ c.state = r ∧
      ∀ i, i ∈ ws ↔ ∃ c, (setTurn calls w .granted)[i]? = some c ∧ c.state = r ∧ c.turn = .waiting := by
  obtain ⟨c, hc, hstate, hturn⟩ := (h.waiters w).1 (by simp [hw])
  refine ⟨c, hc, hturn, hstate, fun i => ?_⟩
  have hnodup := h.nodup
  rw [hw] at hnodup
  have hnot : w ∉ ws := (nodup_cons.1 hnodup).1
  have hi := h.waiters i
  rw [hw, mem_cons] at hi
  constructor
  · intro hmem
    obtain ⟨c', hc', hwait⟩ := hi.1 (.inr hmem)
    exact ⟨c', getElem?_setTurn_iff.2 (.inl ⟨fun heq => hnot (heq ▸ hmem), hc'⟩), hwait⟩
  · rintro ⟨c', hc', hwait⟩
    rcases getElem?_setTurn_iff.1 hc' with ⟨hne, hc'⟩ | ⟨rfl, c'', hc'', rfl⟩
    · rcases hi.2 ⟨c', hc', hwait⟩ with heq | hmem
      · exact absurd heq.symm hne
      · exact hmem
    · cases hwait.2

/-- The call that has the unit ends and somebody waits. -/
theorem hand_over {ws : List ℕ} (hi : calls[i]? = some c) (hc : c.state = r) (hturn : c.turn = .running)
    (hw : o.waiters = w :: ws) :
    ObjectState.Accounts ⟨0, ws, o.useCount - 1⟩ (setTurn (setTurn calls w .granted) i .ended) r ∧
      2 < o.useCount := by
  obtain ⟨c', hw', hturn', hstate', hws⟩ := h.grant hw
  have hne : w ≠ i := by
    rintro rfl
    rw [hi] at hw'
    cases hw'
    rw [hturn] at hturn'
    cases hturn'
  have hi' : (setTurn calls w .granted)[i]? = some c := getElem?_setTurn_iff.2 (.inl ⟨hne, hi⟩)
  have huse := countP_setTurn hw' .granted (StoreCall.uses r)
  have huse' := countP_setTurn hi' .ended (StoreCall.uses r)
  have hown := countP_setTurn hw' .granted (StoreCall.owns r)
  have hown' := countP_setTurn hi' .ended (StoreCall.owns r)
  simp [StoreCall.uses, hturn, hturn', hc, hstate'] at huse huse'
  simp [StoreCall.owns, hturn, hturn', hc, hstate'] at hown hown'
  have hcount := h.useCount
  have hunits := h.units
  have hpos : 0 < (setTurn (setTurn calls w .granted) i .ended).countP (StoreCall.uses r) := by
    refine countP_pos_of_getElem?
      (getElem?_setTurn_iff.2 (.inl ⟨hne.symm, getElem?_setTurn_iff.2 (.inr ⟨rfl, c', hw', rfl⟩)⟩)) ?_
    simp [StoreCall.uses, hstate']
  refine ⟨⟨?_, ?_, ?_, ?_, fun hzero => absurd rfl hzero⟩, ?_⟩
  · show o.useCount - 1 = 1 + _
    omega
  · show 0 + _ = 1
    have := h.units_eq hi hc hturn
    omega
  · exact fun j => (hws j).trans (waiting_setTurn hi' (by simp [hturn]) (by simp) j)
  · have := h.nodup
    rw [hw] at this
    exact (nodup_cons.1 this).2
  · omega

end ObjectState.Accounts

namespace Service

variable {s : Service} {shard : ℕ} {key : String} {i r : ℕ} {c : StoreCall} {o : ObjectState}

theorem objects_onShard {f : Shard → Shard} (hf : ∀ l, (f l).objects = l.objects) (shard' : ℕ) :
    ((s.onShard shard f).shards shard').objects = (s.shards shard').objects := by
  by_cases h : shard' = shard
  · subst h
    simp [onShard, hf]
  · simp [onShard, h]

theorem Booked.congr {s' : Service} (h : s.Booked)
    (hobjects : ∀ shard, (s'.shards shard).objects = (s.shards shard).objects)
    (hcount : s'.shardCount = s.shardCount) (hstates : s'.states = s.states) (hcalls : s'.calls = s.calls) :
    s'.Booked := by
  constructor
  · simpa only [hcalls, hcount] using h.routed
  · simpa only [hcalls, hobjects] using h.live
  · simpa only [hobjects] using h.inj
  · simpa only [hcalls, hobjects, hstates] using h.entry

theorem Booked.state_lt (h : s.Booked) (hi : s.calls[i]? = some c) (hturn : c.turn ≠ .ended) :
    c.state < s.states.length := by
  obtain ⟨o, ho, -⟩ := h.entry _ _ _ (h.live i c hi hturn)
  exact (List.getElem?_eq_some_iff.1 ho).1

/-- What `try_emplace` leaves: the entry, and everything else as it was. -/
theorem emplace_spec (s : Service) (shard : ℕ) (key : String) :
    let s' := (s.emplace shard key).1
    let r := (s.emplace shard key).2
    (s'.shards shard).objects key = some r ∧ s'.calls = s.calls ∧ s'.shardCount = s.shardCount ∧
      ((s.shards shard).objects key = some r ∧ s' = s ∨
        (s.shards shard).objects key = none ∧ r = s.states.length ∧
        s'.states = s.states ++ [({ useCount := 1 } : ObjectState)] ∧
        ∀ shard' key', (s'.shards shard').objects key' =
          if shard' = shard ∧ key' = key then some r else (s.shards shard').objects key') := by
  rcases hentry : (s.shards shard).objects key with _ | r
  · simp only [emplace, hentry]
    refine ⟨by simp [onShard], rfl, rfl, .inr ⟨trivial, trivial, rfl, fun shard' key' => ?_⟩⟩
    by_cases hs : shard' = shard
    · subst hs
      by_cases hk : key' = key <;> simp [onShard, hk]
    · simp [onShard, hs]
  · simp only [emplace, hentry]
    exact ⟨trivial, trivial, trivial, .inl ⟨trivial, trivial⟩⟩

theorem Booked.emplace (h : s.Booked) (shard : ℕ) (key : String) : (s.emplace shard key).1.Booked := by
  obtain ⟨-, hcalls, hcount, ⟨-, heq⟩ | ⟨hnone, hr, hstates, hobjects⟩⟩ := s.emplace_spec shard key
  · rwa [heq]
  have hbound : ∀ shard' key' r', (s.shards shard').objects key' = some r' → r' < s.states.length := by
    intro shard' key' r' hentry
    obtain ⟨o, ho, -⟩ := h.entry _ _ _ hentry
    exact (List.getElem?_eq_some_iff.1 ho).1
  constructor
  · simpa only [hcalls, hcount] using h.routed
  · intro i c hi hturn
    rw [hcalls] at hi
    rw [hobjects, if_neg]
    · exact h.live i c hi hturn
    · rintro ⟨rfl, rfl⟩
      rw [h.live i c hi hturn] at hnone
      cases hnone
  · intro shard₁ shard₂ key₁ key₂ r' h₁ h₂
    rw [hobjects] at h₁ h₂
    split at h₁ <;> split at h₂
    · simp_all
    · cases h₁
      exact absurd (hbound _ _ _ h₂) (by omega)
    · cases h₂
      exact absurd (hbound _ _ _ h₁) (by omega)
    · exact h.inj _ _ _ _ _ h₁ h₂
  · intro shard' key' r' hentry
    rw [hobjects] at hentry
    rw [hstates, hcalls]
    split at hentry
    · -- no call uses the state that has just been made
      cases hentry
      have hunused : ∀ c ∈ s.calls, c.turn ≠ .ended → c.state ≠ (s.emplace shard key).2 := by
        intro c hc hturn heq
        obtain ⟨i, hi⟩ := getElem?_of_mem hc
        have := h.state_lt hi hturn
        omega
      refine ⟨{ useCount := 1 }, by simp [hr], ?_, ?_, ?_, nodup_nil, fun _ => rfl⟩
      · have : s.calls.countP (StoreCall.uses (s.emplace shard key).2) = 0 := by
          rw [countP_eq_zero]
          intro c hc huses
          simp only [StoreCall.uses, decide_eq_true_eq] at huses
          exact hunused c hc huses.2 huses.1
        rw [this]
      · have : s.calls.countP (StoreCall.owns (s.emplace shard key).2) = 0 := by
          rw [countP_eq_zero]
          intro c hc howns
          simp only [StoreCall.owns, decide_eq_true_eq] at howns
          refine hunused c hc ?_ howns.1
          rintro hended
          simp [hended] at howns
        rw [this]
      · intro i
        constructor
        · simp
        · rintro ⟨c, hc, hstate, hturn⟩
          exact absurd hstate (hunused c (mem_of_getElem? hc) (by simp [hturn]))
    · obtain ⟨o, ho, haccounts⟩ := h.entry _ _ _ hentry
      refine ⟨o, ?_, haccounts⟩
      rw [getElem?_append_left (hbound _ _ _ hentry), ho]

theorem acquire_spec (ho : s.states[c.state]? = some o) (haccounts : o.Accounts s.calls c.state) :
    ∃ o' c', (s.acquire c).calls = s.calls ++ [c'] ∧ c'.state = c.state ∧ c'.shard = c.shard ∧ c'.key = c.key ∧
      c'.turn ≠ .ended ∧ (s.acquire c).shards = s.shards ∧ (s.acquire c).shardCount = s.shardCount ∧
      (s.acquire c).states[c.state]? = some o' ∧ o'.Accounts (s.calls ++ [c']) c.state ∧
      ∀ r, r ≠ c.state → (s.acquire c).states[r]? = s.states[r]? := by
  by_cases hfree : 1 ≤ o.units ∧ o.waiters = []
  · refine ⟨_, { c with turn := .granted }, ?_, rfl, rfl, rfl, by simp, ?_, ?_, ?_,
      haccounts.append_granted rfl rfl hfree.1, ?_⟩
    all_goals simp [acquire, onState, ho, hfree]
    intro r hr
    simp [Ne.symm hr]
  · refine ⟨_, { c with turn := .waiting }, ?_, rfl, rfl, rfl, by simp, ?_, ?_, ?_,
      haccounts.append_waiting rfl rfl hfree, ?_⟩
    all_goals simp [acquire, onState, ho, hfree]
    intro r hr
    simp [Ne.symm hr]

theorem Booked.acquire (h : s.Booked) (hrouted : c.shard = ownerShard c.key s.shardCount)
    (hentry : (s.shards c.shard).objects c.key = some c.state) : (s.acquire c).Booked := by
  obtain ⟨o, ho, haccounts⟩ := h.entry _ _ _ hentry
  obtain ⟨o', c', hcalls, hstate, hshard, hkey, hturn, hshards, hcount, ho', haccounts', hother⟩ :=
    acquire_spec ho haccounts
  constructor
  · intro i d hd
    rw [hcalls] at hd
    rcases getElem?_concat_iff.1 hd with hd | ⟨-, rfl⟩
    · rw [hcount]
      exact h.routed i d hd
    · rw [hcount, hshard, hkey, hrouted]
  · intro i d hd hin
    rw [hcalls] at hd
    rw [hshards]
    rcases getElem?_concat_iff.1 hd with hd | ⟨-, rfl⟩
    · exact h.live i d hd hin
    · rw [hshard, hkey, hstate, hentry]
  · simpa only [hshards] using h.inj
  · intro shard' key' r hr
    rw [hshards] at hr
    rw [hcalls]
    by_cases heq : r = c.state
    · subst heq
      exact ⟨o', ho', haccounts'⟩
    obtain ⟨o₁, ho₁, haccounts₁⟩ := h.entry _ _ _ hr
    exact ⟨o₁, (hother r heq).trans ho₁, haccounts₁.append_other (by rw [hstate]; exact fun h => heq h.symm)⟩

/-- Only the turn of one call changes, and it goes on from its grant. -/
theorem Booked.resume (h : s.Booked) (hi : s.calls[i]? = some c) (hturn : c.turn = .granted) :
    (s.onCall i .running).Booked := by
  constructor
  · intro j d hd
    rcases getElem?_setTurn_iff.1 hd with ⟨-, hd⟩ | ⟨-, d, hd₀, rfl⟩
    · exact h.routed j d hd
    · exact h.routed i d hd₀
  · intro j d hd hin
    rcases getElem?_setTurn_iff.1 hd with ⟨-, hd⟩ | ⟨-, d, hd₀, rfl⟩
    · exact h.live j d hd hin
    rw [hi] at hd₀
    cases hd₀
    exact h.live i c hi (by simp [hturn])
  · exact h.inj
  · intro shard key r hr
    obtain ⟨o, ho, haccounts⟩ := h.entry _ _ _ hr
    exact ⟨o, ho, haccounts.resume hi hturn⟩

theorem signal_free (ho : s.states[r]? = some o) (hunits : o.units = 0) (hw : o.waiters = []) :
    s.signal r = s.onState r fun o => { o with units := 1, waiters := [] } := by
  simp [signal, ho, hunits, hw, grant]

theorem signal_next {w : ℕ} {ws : List ℕ} (ho : s.states[r]? = some o) (hunits : o.units = 0)
    (hw : o.waiters = w :: ws) :
    s.signal r = (s.onState r fun o => { o with units := 0, waiters := ws }).onCall w .granted := by
  simp [signal, ho, hunits, hw, grant]

/-- The entry goes when only the map and the call refer to the state. -/
theorem leave_spec (ho : s.states[c.state]? = some o)
    (hentry : (s.shards c.shard).objects c.key = some c.state) :
    (s.leave i c).calls = setTurn s.calls i .ended ∧ (s.leave i c).shardCount = s.shardCount ∧
      (∀ r, r ≠ c.state → (s.leave i c).states[r]? = s.states[r]?) ∧
      (o.useCount ≠ 2 → (s.leave i c).states[c.state]? = some { o with useCount := o.useCount - 1 }) ∧
      ∀ shard key, ((s.leave i c).shards shard).objects key =
        if o.useCount = 2 ∧ shard = c.shard ∧ key = c.key then none else (s.shards shard).objects key := by
  by_cases hlast : o.useCount = 2
  · simp only [leave, ho, hlast, any_some, decide_true, if_true, erase, hentry]
    refine ⟨rfl, rfl, ?_, fun h => absurd rfl h, fun shard key => ?_⟩
    · intro r hr
      simp [onShard, onState, onCall, Ne.symm hr]
    · by_cases hshard : shard = c.shard
      · subst hshard
        by_cases hkey : key = c.key <;> simp [onShard, onState, onCall, hkey]
      · simp [onShard, onState, onCall, hshard]
  · simp only [leave, ho, hlast, any_some, decide_false, Bool.false_eq_true, if_false, false_and]
    refine ⟨rfl, rfl, ?_, ?_, fun shard key => ?_⟩
    · intro r hr
      simp [onShard, onState, onCall, Ne.symm hr]
    · simp [onShard, onState, onCall, ho]
    · by_cases hshard : shard = c.shard
      · subst hshard
        simp [onShard, onState, onCall]
      · simp [onShard, onState, onCall, hshard]

/-- What the end of a call leaves. -/
structure Left (s : Service) (i : ℕ) (c : StoreCall) (o : ObjectState) (s' : Service) : Prop where
  shardCount : s'.shardCount = s.shardCount
  /-- the call is over, and at most one other has been granted the unit -/
  calls : ∀ (j : ℕ) d, s'.calls[j]? = some d → ∃ d', s.calls[j]? = some d' ∧ d.state = d'.state ∧
    d.shard = d'.shard ∧ d.key = d'.key ∧ (d.turn ≠ .ended → d'.turn ≠ .ended ∧ j ≠ i)
  objects : ∀ shard key, (s'.shards shard).objects key =
    if o.useCount = 2 ∧ shard = c.shard ∧ key = c.key then none else (s.shards shard).objects key
  own : o.useCount ≠ 2 → ∃ o', s'.states[c.state]? = some o' ∧ o'.useCount = o.useCount - 1 ∧
    o'.Accounts s'.calls c.state
  other : ∀ r o, r ≠ c.state → s.states[r]? = some o → o.Accounts s.calls r →
    s'.states[r]? = some o ∧ o.Accounts s'.calls r

/-- The unit is returned: to the semaphore, or to the call that has waited longest. -/
theorem signal_spec (hi : s.calls[i]? = some c) (hturn : c.turn = .running)
    (ho : s.states[c.state]? = some o) (haccounts : o.Accounts s.calls c.state) :
    ∃ o₁, (s.signal c.state).states[c.state]? = some o₁ ∧ o₁.useCount = o.useCount ∧
      { o₁ with useCount := o.useCount - 1 }.Accounts (setTurn (s.signal c.state).calls i .ended) c.state ∧
      (s.signal c.state).shards = s.shards ∧ (s.signal c.state).shardCount = s.shardCount ∧
      (s.signal c.state).calls[i]? = some c ∧
      (∀ (j : ℕ) d, (s.signal c.state).calls[j]? = some d → ∃ d', s.calls[j]? = some d' ∧ d.state = d'.state ∧
        d.shard = d'.shard ∧ d.key = d'.key ∧ (d.turn ≠ .ended → d'.turn ≠ .ended)) ∧
      ∀ r (o' : ObjectState), r ≠ c.state → o'.Accounts s.calls r → (s.signal c.state).states[r]? = s.states[r]? ∧
        o'.Accounts (s.signal c.state).calls r := by
  have hunits := haccounts.units_eq hi rfl hturn
  rcases hw : o.waiters with _ | ⟨w, ws⟩
  · rw [signal_free ho hunits hw]
    refine ⟨{ o with units := 1, waiters := [] }, by simp [onState, ho], rfl,
      haccounts.release hi rfl hturn hw, rfl,
      rfl, hi, fun j d hd => ⟨d, hd, rfl, rfl, rfl, id⟩, fun r o' hr ho' => ⟨?_, ho'⟩⟩
    simp [onState, Ne.symm hr]
  · rw [signal_next ho hunits hw]
    obtain ⟨d, hd, hwait, hstate, -⟩ := haccounts.grant hw
    refine ⟨{ o with units := 0, waiters := ws }, by simp [onCall, onState, ho], rfl,
      (haccounts.hand_over hi rfl hturn hw).1, rfl, rfl, ?_, fun j e he => ?_, fun r o' hr ho' => ⟨?_, ?_⟩⟩
    · refine getElem?_setTurn_iff.2 (.inl ⟨?_, hi⟩)
      rintro rfl
      rw [hd] at hi
      cases hi
      rw [hwait] at hturn
      cases hturn
    · rcases getElem?_setTurn_iff.1 he with ⟨-, he⟩ | ⟨rfl, e', he', rfl⟩
      · exact ⟨e, he, rfl, rfl, rfl, id⟩
      cases hd.symm.trans he'
      exact ⟨d, hd, rfl, rfl, rfl, fun _ => by simp [hwait]⟩
    · simp [onCall, onState, Ne.symm hr]
    · exact ho'.turn_other hd (by rw [hstate]; exact Ne.symm hr) .granted

theorem finish_left (hi : s.calls[i]? = some c) (hturn : c.turn = .running)
    (hentry : (s.shards c.shard).objects c.key = some c.state)
    (ho : s.states[c.state]? = some o) (haccounts : o.Accounts s.calls c.state) :
    s.Left i c o (s.finish i c) := by
  obtain ⟨o₁, ho₁, huse, hown, hshards, hcount, hi', hold, hother⟩ := signal_spec hi hturn ho haccounts
  rw [← hshards] at hentry
  obtain ⟨hcalls, hcount', hstates, hstate, hobjects⟩ := leave_spec ho₁ hentry
  rw [huse] at hstate hobjects
  constructor
  · exact hcount'.trans hcount
  · intro j d hd
    rw [finish, hcalls] at hd
    rcases getElem?_setTurn_iff.1 hd with ⟨hne, hd⟩ | ⟨rfl, d', hd', rfl⟩
    · obtain ⟨d', hd', h₁, h₂, h₃, hin⟩ := hold j d hd
      exact ⟨d', hd', h₁, h₂, h₃, fun h => ⟨hin h, hne.symm⟩⟩
    rw [hi'] at hd'
    cases hd'
    exact ⟨c, hi, rfl, rfl, rfl, fun h => absurd rfl h⟩
  · intro shard key
    rw [finish, hobjects, hshards]
  · intro hlast
    refine ⟨_, hstate hlast, rfl, ?_⟩
    rw [finish, hcalls]
    exact hown
  · intro r o' hr ho' haccounts'
    obtain ⟨hsame, hkept⟩ := hother r o' hr haccounts'
    rw [finish, hstates r hr, hsame, hcalls]
    exact ⟨ho', hkept.turn_other hi' (.symm hr) .ended⟩

/-- Whoever takes the entry away is the last in progress. -/
theorem Booked.last (h : s.Booked) (hi : s.calls[i]? = some c) (hturn : c.turn ≠ .ended)
    (haccounts : o.Accounts s.calls c.state) (hlast : o.useCount = 2)
    {j : ℕ} {d : StoreCall} (hj : s.calls[j]? = some d) (hkey : d.key = c.key) (hturn' : d.turn ≠ .ended) :
    j = i := by
  by_contra hne
  have hstate : d.state = c.state := by
    have hd := h.live j d hj hturn'
    have hc := h.live i c hi hturn
    rw [h.routed j d hj, hkey, ← h.routed i c hi, hc] at hd
    exact (Option.some.inj hd).symm
  have htwo := two_le_countP (p := StoreCall.uses c.state) hi hj (Ne.symm hne) (by simp [StoreCall.uses, hturn])
    (by simp [StoreCall.uses, hstate, hturn']) (by simp [StoreCall.uses])
  have := haccounts.useCount
  omega

theorem Booked.finish (h : s.Booked) (hi : s.calls[i]? = some c) (hturn : c.turn = .running) :
    (s.finish i c).Booked := by
  have hin : c.turn ≠ .ended := by simp [hturn]
  have hentry := h.live i c hi hin
  obtain ⟨o, ho, haccounts⟩ := h.entry _ _ _ hentry
  have hleft := finish_left hi hturn hentry ho haccounts
  have hobjects : ∀ shard key r, ((s.finish i c).shards shard).objects key = some r →
      (s.shards shard).objects key = some r := by
    intro shard key r hr
    rw [hleft.objects] at hr
    split at hr
    · cases hr
    · exact hr
  constructor
  · intro j d hd
    obtain ⟨d', hd', -, hshard, hkey, -⟩ := hleft.calls j d hd
    rw [hshard, hkey, hleft.shardCount]
    exact h.routed j d' hd'
  · intro j d hd hturn'
    obtain ⟨d', hd', hstate, hshard, hkey, hold⟩ := hleft.calls j d hd
    obtain ⟨hturn', hne⟩ := hold hturn'
    rw [hleft.objects, if_neg, hshard, hkey, hstate]
    · exact h.live j d' hd' hturn'
    · rintro ⟨hlast, -, hsame⟩
      exact hne (h.last hi hin haccounts hlast hd' (hkey ▸ hsame) hturn')
  · intro shard shard' key key' r hr hr'
    exact h.inj _ _ _ _ _ (hobjects _ _ _ hr) (hobjects _ _ _ hr')
  · intro shard key r hr
    by_cases heq : r = c.state
    · subst heq
      have hsame := h.inj _ _ _ _ _ (hobjects _ _ _ hr) hentry
      have hlast : o.useCount ≠ 2 := by
        intro hlast
        rw [hleft.objects, if_pos ⟨hlast, hsame⟩] at hr
        cases hr
      obtain ⟨o', ho', -, haccounts'⟩ := hleft.own hlast
      exact ⟨o', ho', haccounts'⟩
    · obtain ⟨o', ho', haccounts'⟩ := h.entry _ _ _ (hobjects _ _ _ hr)
      exact ⟨o', hleft.other r o' heq ho' haccounts'⟩

/-! ### Runs -/

/-- What a step leaves of the entries: those of other keys and those that somebody else uses. -/
def Keeps (s : Service) (e : StoreEvent) (s' : Service) : Prop :=
  ∀ shard key r, (s.shards shard).objects key = some r → (s'.shards shard).objects key ≠ some r →
    ∃ i failed c, e = .finish i failed ∧ s.calls[i]? = some c ∧ c.key = key ∧
      ∀ (j : ℕ) d, s.calls[j]? = some d → d.key = key → d.turn ≠ .ended → j = i

/-- A request that is let in: the books hold, its key has an entry that it uses, and no entry is lost. -/
theorem store_spec (h : s.Booked) (hused : s.Used) (q : Request) (bytes : ℕ) :
    (s.store q bytes).Booked ∧ (s.store q bytes).Used ∧
      ∀ shard key r, (s.shards shard).objects key = some r →
        ((s.store q bytes).shards shard).objects key = some r := by
  unfold store
  dsimp only
  generalize hkey : objectKey q.key.1 q.key.2 = key
  generalize howner : ownerShard key s.shardCount = owner
  split
  · exact ⟨h, hused, fun _ _ _ h => h⟩
  split
  · exact ⟨h, hused, fun _ _ _ h => h⟩
  generalize hs₁ : s.onShard owner (fun l => { l with
    operations := l.operations - 1, operationBytes := l.operationBytes - bytes }) = s₁
  have hsame : ∀ shard, (s₁.shards shard).objects = (s.shards shard).objects :=
    hs₁ ▸ objects_onShard fun _ => rfl
  have hcalls₁ : s₁.calls = s.calls := hs₁ ▸ rfl
  have hcount₁ : s₁.shardCount = s.shardCount := hs₁ ▸ rfl
  have h₁ : s₁.Booked := h.congr hsame hcount₁ (hs₁ ▸ rfl) hcalls₁
  obtain ⟨hentry, hcalls, hcount, hnew⟩ := s₁.emplace_spec owner key
  have h₂ := h₁.emplace owner key
  generalize (s₁.emplace owner key).1 = s₂ at *
  generalize (s₁.emplace owner key).2 = r at *
  generalize hc : (⟨q.key, bytes, owner, r, .waiting⟩ : StoreCall) = c
  have hrouted : c.shard = ownerShard c.key s₂.shardCount := by
    rw [← hc, hcount, hcount₁, StoreCall.key, hkey, howner]
  have hentry' : (s₂.shards c.shard).objects c.key = some c.state := by
    rw [← hc, StoreCall.key, hkey, hentry]
  obtain ⟨o, ho, haccounts⟩ := h₂.entry _ _ _ hentry'
  obtain ⟨o', c', hcalls', hstate, -, -, hturn, hshards, -, -, -, -⟩ := acquire_spec ho haccounts
  refine ⟨h₂.acquire hrouted hentry', ?_, ?_⟩
  · intro shard' key' r' hr'
    rw [hshards] at hr'
    rw [hcalls', countP_append]
    by_cases heq : r' = c.state
    · have : StoreCall.uses r' c' = true := by simp [StoreCall.uses, heq, hstate, hturn]
      simp [this]
    have hold : (s.shards shard').objects key' = some r' := by
      rcases hnew with ⟨-, rfl⟩ | ⟨-, -, -, hobjects⟩
      · rwa [hsame] at hr'
      rw [hobjects] at hr'
      split at hr'
      · exact absurd (Option.some.inj hr').symm (by rw [← hc] at heq; exact heq)
      · rwa [hsame] at hr'
    have := hused _ _ _ hold
    rw [hcalls, hcalls₁]
    omega
  · intro shard' key' r' hr'
    rw [← hsame] at hr'
    rw [hshards]
    rcases hnew with ⟨-, rfl⟩ | ⟨hnone, -, -, hobjects⟩
    · exact hr'
    rw [hobjects, if_neg]
    · exact hr'
    · rintro ⟨rfl, rfl⟩
      rw [hnone] at hr'
      cases hr'

theorem finish_spec (h : s.Booked) (hused : s.Used) (hi : s.calls[i]? = some c) (hturn : c.turn = .running)
    (failed : Bool) : (s.finish i c).Used ∧ s.Keeps (.finish i failed) (s.finish i c) := by
  have hin : c.turn ≠ .ended := by simp [hturn]
  have hentry := h.live i c hi hin
  obtain ⟨o, ho, haccounts⟩ := h.entry _ _ _ hentry
  have hleft := finish_left hi hturn hentry ho haccounts
  constructor
  · intro shard key r hr
    have hold : (s.shards shard).objects key = some r := by
      rw [hleft.objects] at hr
      split at hr
      · cases hr
      · exact hr
    by_cases heq : r = c.state
    · subst heq
      have hlast : o.useCount ≠ 2 := by
        intro hlast
        rw [hleft.objects, if_pos ⟨hlast, h.inj _ _ _ _ _ hold hentry⟩] at hr
        cases hr
      obtain ⟨o', -, huse, haccounts'⟩ := hleft.own hlast
      have := haccounts'.useCount
      omega
    · obtain ⟨o', ho', haccounts'⟩ := h.entry _ _ _ hold
      have hcount := (hleft.other r o' heq ho' haccounts').2.useCount
      have hcount' := haccounts'.useCount
      have := hused _ _ _ hold
      omega
  · intro shard key r hr hgone
    rw [hleft.objects] at hgone
    split at hgone
    · rename_i hlast
      obtain ⟨hlast, rfl, rfl⟩ := hlast
      exact ⟨i, failed, c, rfl, hi, rfl, fun j d hj hkey hd => h.last hi hin haccounts hlast hj hkey hd⟩
    · exact absurd hr hgone

theorem step_spec {e : StoreEvent} {s' : Service} (h : s.Booked) (hused : s.Used) (hstep : s.step e = some s') :
    s'.Booked ∧ s'.Used ∧ s.Keeps e s' := by
  cases e with
  | store q bytes =>
    simp only [step] at hstep
    split at hstep
    · cases hstep
      obtain ⟨h₁, h₂, h₃⟩ := store_spec h hused q bytes
      exact ⟨h₁, h₂, fun shard key r hr hgone => absurd (h₃ shard key r hr) hgone⟩
    · cases hstep
  | resume i =>
    obtain ⟨c, hi, hstep⟩ := bind_eq_some_iff.1 hstep
    split at hstep
    · rename_i hturn
      cases hstep
      refine ⟨h.resume hi hturn, fun shard key r hr => ?_, fun shard key r hr hgone => absurd hr hgone⟩
      have hcount := countP_setTurn hi .running (StoreCall.uses r)
      simp [StoreCall.uses, hturn] at hcount
      have := hused shard key r hr
      show 0 < (setTurn s.calls i .running).countP _
      omega
    · cases hstep
  | finish i failed =>
    obtain ⟨c, hi, hstep⟩ := bind_eq_some_iff.1 hstep
    split at hstep
    · rename_i hturn
      cases hstep
      exact ⟨h.finish hi hturn, finish_spec h hused hi hturn failed⟩
    · cases hstep
  | stop shard =>
    cases hstep
    have hsame : ∀ shard', ((s.onShard shard fun l => { l with stopping := true }).shards shard').objects
        = (s.shards shard').objects := objects_onShard fun _ => rfl
    refine ⟨h.congr hsame rfl rfl rfl, fun shard' key r hr => ?_, fun shard' key r hr hgone => ?_⟩
    · rw [hsame] at hr
      exact hused _ _ _ hr
    · rw [hsame] at hgone
      exact absurd hr hgone

end Service

section

variable {shardCount operations operationBytes : ℕ} {s : Service}

theorem init_booked : (Service.init shardCount operations operationBytes).Booked ∧
    (Service.init shardCount operations operationBytes).Used := by
  refine ⟨⟨?_, ?_, ?_, ?_⟩, ?_⟩ <;> simp [Service.init, Service.Used]

theorem path_booked (h : Path Service.step (fun _ _ => True) (.init shardCount operations operationBytes) s) :
    s.Booked ∧ s.Used := by
  refine h.invariant (P := fun s => s.Booked ∧ s.Used) init_booked ?_
  intro t e u _ ht _ hstep
  obtain ⟨hbooked, hused, -⟩ := Service.step_spec ht.1 ht.2 hstep
  exact ⟨hbooked, hused⟩

end

/-- At any time at most one operation runs for a user and a file; all requests in progress for a key have the
    state that is in the map of the owner; an entry goes only with the last request of its key, and it is gone
    when none is in progress. -/
theorem one_operation_per_object {shardCount operations operationBytes : ℕ} {s : Service}
    (h : Path Service.step (fun _ _ => True) (.init shardCount operations operationBytes) s) :
    (∀ (i j : ℕ) c c', s.calls[i]? = some c → s.calls[j]? = some c' → c.turn = .running → c'.turn = .running →
      c.request = c'.request → i = j) ∧
    (∀ (i : ℕ) c, s.calls[i]? = some c → c.turn ≠ .ended → c.shard = ownerShard c.key s.shardCount ∧
      (s.shards c.shard).objects c.key = some c.state) ∧
    (∀ e s', s.step e = some s' → s.Keeps e s') ∧
    ∀ key, (∀ (i : ℕ) c, s.calls[i]? = some c → c.key = key → c.turn = .ended) →
      ∀ shard, (s.shards shard).objects key = none := by
  obtain ⟨hbooked, hused⟩ := path_booked h
  refine ⟨?_, ?_, fun e s' hstep => (Service.step_spec hbooked hused hstep).2.2, ?_⟩
  · intro i j c c' hi hj hturn hturn' hrequest
    by_contra hne
    have hkey : c.key = c'.key := by rw [StoreCall.key, StoreCall.key, hrequest]
    have hc := hbooked.live i c hi (by simp [hturn])
    have hc' := hbooked.live j c' hj (by simp [hturn'])
    have hstate : c'.state = c.state := by
      rw [hbooked.routed j c' hj, ← hkey, ← hbooked.routed i c hi, hc] at hc'
      exact (Option.some.inj hc').symm
    obtain ⟨o, -, haccounts⟩ := hbooked.entry _ _ _ hc
    have htwo := two_le_countP (p := StoreCall.owns c.state) hi hj hne (by simp [StoreCall.owns, hturn])
      (by simp [StoreCall.owns, hstate, hturn']) (by simp [StoreCall.owns])
    have := haccounts.units
    omega
  · intro i c hi hturn
    exact ⟨hbooked.routed i c hi, hbooked.live i c hi hturn⟩
  · intro key hended shard
    by_contra hsome
    obtain ⟨r, hr⟩ := ne_none_iff_exists'.1 hsome
    obtain ⟨c, hc, huses⟩ := countP_pos_iff.1 (hused _ _ _ hr)
    simp only [StoreCall.uses, decide_eq_true_eq] at huses
    obtain ⟨i, hi⟩ := getElem?_of_mem hc
    have hentry := hbooked.live i c hi huses.2
    rw [huses.1] at hentry
    exact huses.2 (hended i c hi (hbooked.inj _ _ _ _ _ hentry hr).2)

/-- Two chunks of one file arrive together; the entry stays for the second. -/
def twoChunks : List StoreEvent :=
  [.store (.upload (smallUpload 0 [1, 2, 3] false)) 3, .store (.upload (smallUpload 3 [4, 5, 6] false)) 3,
    .resume 0]

theorem one_operation_per_object_two :
    ∃ s s', twoChunks.foldlM Service.step (.init 2 8 64) = some s ∧
      s.calls.map (·.turn) = [.running, .waiting] ∧ s.step (.finish 0 false) = some s' ∧
      s'.calls.map (·.turn) = [.ended, .granted] ∧
      (s.shards (ownerShard smallKey.path 2)).objects smallKey.path = some 0 ∧
      s.Keeps (.finish 0 false) s' := by
  obtain ⟨s, hs, s', hs', hturns, hturns', hentry⟩ : ∃ s, twoChunks.foldlM Service.step (.init 2 8 64) = some s ∧
      ∃ s', s.step (.finish 0 false) = some s' ∧ s.calls.map (·.turn) = [.running, .waiting] ∧
        s'.calls.map (·.turn) = [.ended, .granted] ∧
        (s.shards (ownerShard smallKey.path 2)).objects smallKey.path = some 0 :=
    ⟨_, rfl, _, rfl, by decide +kernel⟩
  have hpath : Path Service.step (fun _ _ => True) (.init 2 8 64) s := Path.here.run (fun _ _ _ => trivial) hs
  exact ⟨s, s', hs, hturns, hs', hturns', hentry, (one_operation_per_object hpath).2.2.1 _ _ hs'⟩

end Imm.FileService
