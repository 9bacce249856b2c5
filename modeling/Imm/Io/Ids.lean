import Mathlib.Data.List.Basic
import Mathlib.Logic.Function.Basic
import Mathlib.Data.BitVec
import Imm.Schemes.Paths

/-! Generated ids: `execute(generate_id)` of Message and `execute(generate_user_id)` of Gate. Both read the clock,
    count up a Redis key that names the kind and the millisecond, and pack the millisecond, the machine and the
    count into one number. A count that does not fit sends the call back to the clock.

        reading ──▶ asking ──▶ answered ──▶ returned
           ▲       INCR is       │  the count is
           └─ sleeping ◀─────────┘  above 4095

    The counters are shared by all processes. Between any two steps of a call other calls go on, and clocks may
    stand, jump or disagree. -/

namespace Imm

open Steps List Nat

/-- `id_kind`, and the user ids of Gate. -/
inductive IdKind where | message | conversation | friendship | group | user
  deriving DecidableEq

def IdKind.name : IdKind → String
  | .message => "im:msgId"
  | .conversation => "im:conversationId"
  | .friendship => "im:friendshipId"
  | .group => "im:groupId"
  | .user => "im:userId"

/-- The Redis key of a kind and a millisecond. -/
def counterKey (kind : IdKind) (timestamp : ℤ) : String := kind.name ++ ":" ++ toString timestamp

/-- The first millisecond of the year 2023. -/
def idEpoch : ℤ := 1672531200000

def maxSequence : ℕ := 4095

/-- `(timestamp << 22) | (machine_id << 12) | integer`, on 64 bits. -/
def composeId (timestamp : ℤ) (machineId integer : ℕ) : ℤ :=
  (BitVec.ofInt 64 timestamp <<< 22 ||| BitVec.ofNat 64 machineId <<< 12 ||| BitVec.ofNat 64 integer).toInt

inductive IdTurn where
  /-- at the head of the loop -/
  | reading
  /-- `INCR` is on its way -/
  | asking (timestamp : ℤ)
  /-- the counter has been raised, the reply is on its way -/
  | answered (timestamp : ℤ) (integer : ℕ)
  | sleeping
  | returned (timestamp : ℤ) (integer : ℕ) (id : ℤ)
  | failed
  deriving DecidableEq

structure IdCall where
  kind : IdKind
  machineId : ℕ
  turn : IdTurn

/-- Redis and the calls of all processes. -/
structure IdSystem where
  counters : String → ℕ := fun _ => 0
  calls : List IdCall := []

inductive IdEvent where
  | generate (kind : IdKind) (machineId : ℕ)
  /-- the clock of the process shows `now` milliseconds -/
  | clock (i : ℕ) (now : ℤ)
  /-- Redis executes the command -/
  | incr (i : ℕ)
  | reply (i : ℕ)
  | wake (i : ℕ)
  /-- the connection breaks, a reply is unusable or the process stops; a raised counter stays raised -/
  | fail (i : ℕ)
  /-- Redis comes back with another value -/
  | lose (key : String) (value : ℕ)

namespace IdSystem

/-- The call goes on to another turn. -/
def turn (s : IdSystem) (i : ℕ) (next : IdCall → Option IdTurn) : Option IdSystem :=
  s.calls[i]?.bind fun c => (next c).map fun t => { s with calls := s.calls.set i { c with turn := t } }

def step (s : IdSystem) : IdEvent → Option IdSystem
  | .generate kind machineId => some { s with calls := s.calls ++ [⟨kind, machineId, .reading⟩] }
  | .clock i now => s.turn i fun c => match c.turn with
    | .reading => some (.asking (now - idEpoch))
    | _ => none
  | .incr i => s.calls[i]?.bind fun c => match c.turn with
    | .asking timestamp =>
      let key := counterKey c.kind timestamp
      let integer := s.counters key + 1
      some {
        counters := Function.update s.counters key integer
        calls := s.calls.set i { c with turn := .answered timestamp integer } }
    | _ => none
  | .reply i => s.turn i fun c => match c.turn with
    | .answered timestamp integer =>
      if integer ≤ maxSequence then
        some (.returned timestamp integer (composeId timestamp c.machineId integer))
      else some .sleeping
    | _ => none
  | .wake i => s.turn i fun c => match c.turn with
    | .sleeping => some .reading
    | _ => none
  | .fail i => s.turn i fun c => match c.turn with
    | .returned _ _ _ | .failed => none
    | _ => some .failed
  | .lose key value => some { s with counters := Function.update s.counters key value }

end IdSystem

/-! ### The layout of an id -/

/-- The timestamps that fit above the other two fields. -/
def Timestamp (t : ℤ) : Prop := 1 ≤ t ∧ t < 2 ^ 41

def timestampOf (id : ℤ) : ℤ := id / 2 ^ 22
def machineOf (id : ℤ) : ℤ := id / 2 ^ 12 % 1024
def sequenceOf (id : ℤ) : ℤ := id % 4096

/-- The fields do not overlap. -/
theorem composeId_eq {t : ℤ} {machineId integer : ℕ} (ht : Timestamp t) (hm : machineId < 1024)
    (hn : integer ≤ maxSequence) : composeId t machineId integer = t * 2 ^ 22 + machineId * 2 ^ 12 + integer := by
  obtain ⟨k, rfl⟩ := Int.eq_ofNat_of_zero_le (by have := ht.1; omega : 0 ≤ t)
  have hk : k < 2 ^ 41 := by exact_mod_cast ht.2
  have hn' : integer < 2 ^ 12 := lt_succ_of_le hn
  have hmachine : machineId <<< 12 = machineId * 2 ^ 12 := shiftLeft_eq _ _
  have hstamp : k <<< 22 = k * 2 ^ 22 := shiftLeft_eq _ _
  have hlow : machineId <<< 12 + integer < 2 ^ 22 := by omega
  have hnat : (BitVec.ofInt 64 (k : ℤ) <<< 22 ||| BitVec.ofNat 64 machineId <<< 12 ||| BitVec.ofNat 64 integer).toNat
      = k * 2 ^ 22 + (machineId * 2 ^ 12 + integer) := by
    rw [BitVec.ofInt_natCast, BitVec.or_assoc]
    simp only [BitVec.toNat_or, BitVec.toNat_shiftLeft, BitVec.toNat_ofNat]
    rw [mod_eq_of_lt (by omega : k < 2 ^ 64), mod_eq_of_lt (by omega : machineId < 2 ^ 64),
      mod_eq_of_lt (by omega : integer < 2 ^ 64), mod_eq_of_lt (by omega : k <<< 22 < 2 ^ 64),
      mod_eq_of_lt (by omega : machineId <<< 12 < 2 ^ 64), ← shiftLeft_add_eq_or_of_lt hn',
      ← shiftLeft_add_eq_or_of_lt hlow, hstamp, hmachine]
  rw [composeId, BitVec.toInt_eq_toNat_of_lt (by rw [hnat]; omega), hnat]
  omega

/-- Whatever the timestamp is, it stands above the other two. -/
theorem composeId_emod (t : ℤ) {machineId integer : ℕ} (hm : machineId < 1024) (hn : integer ≤ maxSequence) :
    composeId t machineId integer % 2 ^ 22 = machineId * 2 ^ 12 + integer := by
  have hn' : integer < 2 ^ 12 := lt_succ_of_le hn
  have hlow : machineId <<< 12 + integer < 2 ^ 22 := by
    omega
  have hnat : (BitVec.ofInt 64 t <<< 22 ||| BitVec.ofNat 64 machineId <<< 12 ||| BitVec.ofNat 64 integer).toNat % 2 ^ 22
      = machineId * 2 ^ 12 + integer := by
    have hhigh : (BitVec.ofInt 64 t <<< 22).toNat % 2 ^ 22 = 0 := by
      rw [BitVec.toNat_shiftLeft, shiftLeft_eq]
      omega
    have hrest : (BitVec.ofNat 64 machineId <<< 12 ||| BitVec.ofNat 64 integer).toNat = machineId <<< 12 + integer := by
      simp only [BitVec.toNat_or, BitVec.toNat_shiftLeft, BitVec.toNat_ofNat]
      rw [mod_eq_of_lt (by omega : machineId < 2 ^ 64), mod_eq_of_lt (by omega : integer < 2 ^ 64),
        mod_eq_of_lt (by omega : machineId <<< 12 < 2 ^ 64), ← shiftLeft_add_eq_or_of_lt hn']
    rw [BitVec.or_assoc, BitVec.toNat_or, or_mod_two_pow, hhigh, zero_or, hrest, mod_eq_of_lt hlow,
      shiftLeft_eq]
  unfold composeId
  rw [BitVec.toInt_eq_toNat_cond]
  split <;> omega

/-! ### Steps -/

/-- A step of a call that leaves the counters alone. -/
inductive IdCall.Goes (c : IdCall) : IdEvent → IdTurn → Prop
  | clock {i : ℕ} (now : ℤ) (h : c.turn = .reading) : Goes c (.clock i now) (.asking (now - idEpoch))
  | reply {i integer : ℕ} {t : ℤ} (h : c.turn = .answered t integer) (hn : integer ≤ maxSequence) :
    Goes c (.reply i) (.returned t integer (composeId t c.machineId integer))
  | exhausted {i integer : ℕ} {t : ℤ} (h : c.turn = .answered t integer) : Goes c (.reply i) .sleeping
  | wake {i : ℕ} (h : c.turn = .sleeping) : Goes c (.wake i) .reading
  | fail {i : ℕ} : Goes c (.fail i) .failed

/-- What a step can be. -/
inductive IdSystem.Moves (s : IdSystem) : IdEvent → IdSystem → Prop
  | generate (kind : IdKind) (machineId : ℕ) :
    Moves s (.generate kind machineId) { s with calls := s.calls ++ [⟨kind, machineId, .reading⟩] }
  | call {e : IdEvent} {i : ℕ} {c : IdCall} {t : IdTurn} (hi : s.calls[i]? = some c) (h : c.Goes e t) :
    Moves s e { s with calls := s.calls.set i { c with turn := t } }
  | incr {i : ℕ} {c : IdCall} {t : ℤ} (hi : s.calls[i]? = some c) (h : c.turn = .asking t) :
    Moves s (.incr i) {
      counters := Function.update s.counters (counterKey c.kind t) (s.counters (counterKey c.kind t) + 1)
      calls := s.calls.set i { c with turn := .answered t (s.counters (counterKey c.kind t) + 1) } }
  | lose (key : String) (value : ℕ) :
    Moves s (.lose key value) { s with counters := Function.update s.counters key value }

section steps

variable {s s' : IdSystem} {e : IdEvent} {i : ℕ} {next : IdCall → Option IdTurn}

theorem IdSystem.turn_moves (h : s.turn i next = some s') (hgoes : ∀ c t, next c = some t → c.Goes e t) :
    s.Moves e s' := by
  obtain ⟨c, hc, h⟩ := Option.bind_eq_some_iff.1 h
  obtain ⟨t, ht, rfl⟩ := Option.map_eq_some_iff.1 h
  exact .call hc (hgoes c t ht)

theorem IdSystem.step_moves (h : s.step e = some s') : s.Moves e s' := by
  cases e with
  | generate kind machineId =>
    cases h
    exact .generate kind machineId
  | clock i now =>
    refine turn_moves h fun c t ht => ?_
    split at ht <;> cases ht
    exact .clock now ‹_›
  | incr i =>
    obtain ⟨c, hc, h⟩ := Option.bind_eq_some_iff.1 h
    split at h <;> cases h
    exact .incr hc ‹_›
  | reply i =>
    refine turn_moves h fun c t ht => ?_
    split at ht
    · rename_i hturn
      split at ht <;> cases ht
      · exact .reply hturn ‹_›
      · exact .exhausted hturn
    · cases ht
  | wake i =>
    refine turn_moves h fun c t ht => ?_
    split at ht <;> cases ht
    exact .wake ‹_›
  | fail i =>
    refine turn_moves h fun c t ht => ?_
    split at ht <;> cases ht
    exact .fail
  | lose key value =>
    cases h
    exact .lose key value

end steps

theorem getElem?_set_iff {calls : List IdCall} {i j : ℕ} {c c' d : IdCall} (hi : calls[i]? = some c) :
    (calls.set i c')[j]? = some d ↔ i = j ∧ c' = d ∨ i ≠ j ∧ calls[j]? = some d := by
  have hlt := (List.getElem?_eq_some_iff.1 hi).1
  by_cases hij : i = j
  · subst hij
    simp [hlt]
  · simp [hij]

/-! ### What a call has drawn -/

/-- The count a call has drawn from the counter of a millisecond and may still return, or has returned. -/
def IdTurn.drawn : IdTurn → Option (ℤ × ℕ)
  | .answered t integer => some (t, integer)
  | .returned t integer _ => some (t, integer)
  | _ => none

theorem IdCall.Goes.drawn {c : IdCall} {e : IdEvent} {t : IdTurn} (h : c.Goes e t) {d : ℤ × ℕ}
    (hd : t.drawn = some d) : c.turn.drawn = some d := by
  cases h with
  | reply h hn => rw [h]; exact hd
  | clock now h | exhausted h | wake h | fail => cases hd

/-- A count is drawn once, and the counter is not below it. -/
structure IdSystem.Drawn (s : IdSystem) : Prop where
  le : ∀ (i : ℕ) c t integer, s.calls[i]? = some c → c.turn.drawn = some (t, integer) →
    integer ≤ s.counters (counterKey c.kind t)
  once : ∀ (i j : ℕ) c c' d, s.calls[i]? = some c → s.calls[j]? = some c' → c.kind = c'.kind →
    c.turn.drawn = some d → c'.turn.drawn = some d → i = j

theorem IdSystem.Drawn.set {s : IdSystem} (h : s.Drawn) {i : ℕ} {c : IdCall} {t : IdTurn}
    (hi : s.calls[i]? = some c) (ht : ∀ d, t.drawn = some d → c.turn.drawn = some d) :
    IdSystem.Drawn { s with calls := s.calls.set i { c with turn := t } } := by
  have hold : ∀ (j : ℕ) d x, (s.calls.set i { c with turn := t })[j]? = some d → d.turn.drawn = some x →
      ∃ d', s.calls[j]? = some d' ∧ d'.kind = d.kind ∧ d'.turn.drawn = some x := by
    intro j d x hd hx
    rcases (getElem?_set_iff hi).1 hd with ⟨rfl, rfl⟩ | ⟨-, hd⟩
    · exact ⟨c, hi, rfl, ht x hx⟩
    · exact ⟨d, hd, rfl, hx⟩
  constructor
  · intro j d t' integer hd hx
    obtain ⟨d', hd', hkind, hx'⟩ := hold j d _ hd hx
    rw [← hkind]
    exact h.le j d' t' integer hd' hx'
  · intro j k d e x hd he hkind hx hx'
    obtain ⟨d', hd', hkind₁, hx₁⟩ := hold j d x hd hx
    obtain ⟨e', he', hkind₂, hx₂⟩ := hold k e x he hx'
    exact h.once j k d' e' x hd' he' (by rw [hkind₁, hkind₂, hkind]) hx₁ hx₂

theorem IdSystem.Drawn.incr {s : IdSystem} (h : s.Drawn) {i : ℕ} {c : IdCall} {t : ℤ}
    (hi : s.calls[i]? = some c) :
    IdSystem.Drawn {
      counters := Function.update s.counters (counterKey c.kind t) (s.counters (counterKey c.kind t) + 1)
      calls := s.calls.set i { c with turn := .answered t (s.counters (counterKey c.kind t) + 1) } } := by
  -- what was drawn before is below the new count
  have hfresh : ∀ (j : ℕ) d, s.calls[j]? = some d → c.kind = d.kind →
      d.turn.drawn ≠ some (t, s.counters (counterKey c.kind t) + 1) := by
    intro j d hd hkind hx
    have := h.le j d _ _ hd hx
    rw [← hkind] at this
    omega
  constructor
  · intro j d t' integer hd hx
    rcases (getElem?_set_iff hi).1 hd with ⟨-, rfl⟩ | ⟨-, hd⟩
    · cases hx
      simp
    have hle := h.le j d t' integer hd hx
    by_cases hkey : counterKey d.kind t' = counterKey c.kind t
    · simp only [hkey, Function.update_self]
      rw [hkey] at hle
      omega
    · simpa only [Function.update_of_ne hkey] using hle
  · intro j k d d' x hd hd' hkind hx hx'
    rcases (getElem?_set_iff hi).1 hd with ⟨rfl, rfl⟩ | ⟨-, hd⟩ <;>
      rcases (getElem?_set_iff hi).1 hd' with ⟨rfl, rfl⟩ | ⟨-, hd'⟩
    · rfl
    · cases hx
      exact absurd hx' (hfresh k d' hd' hkind)
    · cases hx'
      exact absurd hx (hfresh j d hd hkind.symm)
    · exact h.once j k d d' x hd hd' hkind hx hx'

theorem IdSystem.Drawn.generate {s : IdSystem} (h : s.Drawn) (kind : IdKind) (machineId : ℕ) :
    IdSystem.Drawn { s with calls := s.calls ++ [⟨kind, machineId, .reading⟩] } := by
  have hold : ∀ (j : ℕ) d x, (s.calls ++ [⟨kind, machineId, .reading⟩])[j]? = some d → d.turn.drawn = some x →
      s.calls[j]? = some d := by
    intro j d x hd hx
    rcases lt_or_ge j s.calls.length with hj | hj
    · rwa [getElem?_append_left hj] at hd
    rw [getElem?_append_right hj, getElem?_singleton] at hd
    split at hd <;> cases hd
    cases hx
  constructor
  · exact fun j d t integer hd hx => h.le j d t integer (hold j d _ hd hx) hx
  · exact fun j k d d' x hd hd' hkind hx hx' =>
      h.once j k d d' x (hold j d x hd hx) (hold k d' x hd' hx') hkind hx hx'

/-! ### Runs -/

/-- The machine ids fit their ten bits. -/
def IdEvent.Numbered : IdEvent → Prop
  | .generate _ machineId => machineId < 1024
  | _ => True

/-- So do they, and the clock shows a millisecond that fits. -/
def IdEvent.Timely : IdEvent → Prop
  | .clock _ now => Timestamp (now - idEpoch)
  | e => e.Numbered

theorem IdEvent.Timely.numbered {e : IdEvent} (h : e.Timely) : e.Numbered := by
  cases e <;> first | exact h | trivial

/-- Redis does not lose counters. -/
def IdEvent.Lasting : IdEvent → Prop
  | .lose _ _ => False
  | _ => True

section runs

variable {s : IdSystem}

theorem path_calls {P : IdCall → Prop} {ok : IdEvent → Prop}
    (hnew : ∀ kind machineId, ok (.generate kind machineId) → P ⟨kind, machineId, .reading⟩)
    (hgoes : ∀ c e t, P c → ok e → c.Goes e t → P { c with turn := t })
    (hincr : ∀ c t n, P c → c.turn = .asking t → P { c with turn := .answered t (n + 1) })
    (h : Path IdSystem.step (fun _ e => ok e) {} s) : ∀ c ∈ s.calls, P c := by
  refine h.invariant (P := fun s => ∀ c ∈ s.calls, P c) (by simp) ?_
  intro t e u _ ht he hstep
  have hset : ∀ {i : ℕ} {c' : IdCall}, P c' → ∀ d ∈ t.calls.set i c', P d := by
    intro i c' hc' d hd
    rcases mem_or_eq_of_mem_set hd with hd | rfl
    · exact ht d hd
    · exact hc'
  cases IdSystem.step_moves hstep with
  | generate kind machineId =>
    intro c hc
    rcases mem_append.1 hc with hc | hc
    · exact ht c hc
    rw [mem_singleton.1 hc]
    exact hnew kind machineId he
  | call hi hcall => exact hset (hgoes _ _ _ (ht _ (mem_of_getElem? hi)) he hcall)
  | incr hi hturn => exact hset (hincr _ _ _ (ht _ (mem_of_getElem? hi)) hturn)
  | lose key value => exact ht

/-- The count of a call, and what it returns is made of it. -/
def IdCall.Counted (c : IdCall) : Prop :=
  match c.turn with
  | .answered _ integer => 1 ≤ integer
  | .returned t integer id => 1 ≤ integer ∧ integer ≤ maxSequence ∧ id = composeId t c.machineId integer
  | _ => True

theorem path_counted (h : Path IdSystem.step (fun _ _ => True) {} s) : ∀ c ∈ s.calls, c.Counted := by
  refine path_calls (fun _ _ _ => trivial) ?_ (fun _ _ n _ _ => le_add_left 1 n) h
  intro c e t hc _ hgoes
  cases hgoes with
  | reply h hn =>
    rw [IdCall.Counted, h] at hc
    exact ⟨hc, hn, rfl⟩
  | clock now h | exhausted h | wake h | fail => trivial

theorem path_numbered (h : Path IdSystem.step (fun _ e => e.Numbered) {} s) : ∀ c ∈ s.calls, c.machineId < 1024 :=
  path_calls (fun _ _ he => he) (fun _ _ _ hc _ _ => hc) (fun _ _ _ hc _ => hc) h

/-- The millisecond a call has read fits. -/
def IdCall.Timed (c : IdCall) : Prop :=
  match c.turn with
  | .asking t | .answered t _ | .returned t _ _ => Timestamp t
  | _ => True

theorem path_timed (h : Path IdSystem.step (fun _ e => e.Timely) {} s) : ∀ c ∈ s.calls, c.Timed := by
  refine path_calls (fun _ _ _ => trivial) ?_ ?_ h
  · intro c e t hc he hgoes
    cases hgoes with
    | clock now h => exact he
    | reply h hn =>
      rw [IdCall.Timed, h] at hc
      exact hc
    | exhausted h | wake h | fail => trivial
  · intro c t n hc hturn
    rw [IdCall.Timed, hturn] at hc
    exact hc

theorem path_drawn (h : Path IdSystem.step (fun _ e => e.Timely ∧ e.Lasting) {} s) : s.Drawn := by
  refine h.invariant ⟨by simp, by simp⟩ ?_
  intro t e u _ ht he hstep
  cases IdSystem.step_moves hstep with
  | generate kind machineId => exact ht.generate kind machineId
  | call hi hgoes => exact ht.set hi fun d hd => hgoes.drawn hd
  | incr hi hturn => exact ht.incr hi
  | lose key value => exact he.2.elim

theorem returned_counted (h : Path IdSystem.step (fun _ _ => True) {} s) {c : IdCall} (hc : c ∈ s.calls) {t id : ℤ}
    {integer : ℕ} (hturn : c.turn = .returned t integer id) :
    1 ≤ integer ∧ integer ≤ maxSequence ∧ id = composeId t c.machineId integer := by
  have hcounted := path_counted h c hc
  rwa [IdCall.Counted, hturn] at hcounted

theorem returned_fields (h : Path IdSystem.step (fun _ e => e.Timely) {} s) {c : IdCall} (hc : c ∈ s.calls)
    {t id : ℤ} {integer : ℕ} (hturn : c.turn = .returned t integer id) :
    c.machineId < 1024 ∧ 1 ≤ t ∧ integer ≤ 4095 ∧ id = t * 2 ^ 22 + c.machineId * 2 ^ 12 + integer := by
  have hm := path_numbered (h.mono fun _ _ he => he.numbered) c hc
  have ht := path_timed h c hc
  rw [IdCall.Timed, hturn] at ht
  obtain ⟨-, hmax, rfl⟩ := returned_counted (h.mono fun _ _ _ => trivial) hc hturn
  exact ⟨hm, ht.1, hmax, composeId_eq ht hm hmax⟩

end runs

/-- All ids of one kind are distinct as long as Redis keeps its counters. Whatever Redis does, an id is positive
    and has its fields in it; and whatever the clocks show, its count is from 1 to 4095 and two machines never
    return the same. -/
theorem generated_ids_unique :
    (∀ s : IdSystem, Path IdSystem.step (fun _ e => e.Timely ∧ e.Lasting) {} s →
      ∀ (i j : ℕ) c c' t t' integer integer' id id', s.calls[i]? = some c → s.calls[j]? = some c' →
        c.kind = c'.kind → c.turn = .returned t integer id → c'.turn = .returned t' integer' id' →
        id = id' → i = j) ∧
    (∀ s : IdSystem, Path IdSystem.step (fun _ e => e.Timely) {} s →
      ∀ c ∈ s.calls, ∀ t integer id, c.turn = .returned t integer id →
        0 < id ∧ timestampOf id = t ∧ machineOf id = c.machineId ∧ sequenceOf id = integer) ∧
    (∀ s : IdSystem, Path IdSystem.step (fun _ _ => True) {} s →
      ∀ c ∈ s.calls, ∀ t integer id, c.turn = .returned t integer id → 1 ≤ integer ∧ integer ≤ 4095) ∧
    ∀ s : IdSystem, Path IdSystem.step (fun _ e => e.Numbered) {} s →
      ∀ c ∈ s.calls, ∀ c' ∈ s.calls, ∀ t t' integer integer' id id', c.turn = .returned t integer id →
        c'.turn = .returned t' integer' id' → c.machineId ≠ c'.machineId → id ≠ id' := by
  refine ⟨?_, ?_, ?_, ?_⟩
  · intro s h i j c c' t t' integer integer' id id' hi hj hkind hc hc' hid
    have htimely : Path IdSystem.step (fun _ e => e.Timely) {} s := h.mono fun _ _ he => he.1
    obtain ⟨hm, ht, hmax, heq⟩ := returned_fields htimely (mem_of_getElem? hi) hc
    obtain ⟨hm', ht', hmax', heq'⟩ := returned_fields htimely (mem_of_getElem? hj) hc'
    have hsame : t = t' ∧ integer = integer' := by omega
    refine (path_drawn h).once i j c c' (t, integer) hi hj hkind (by rw [hc]; rfl) ?_
    rw [hc', hsame.1, hsame.2]
    rfl
  · intro s h c hc t integer id hturn
    obtain ⟨hm, ht, hmax, heq⟩ := returned_fields h hc hturn
    unfold timestampOf machineOf sequenceOf
    refine ⟨?_, ?_, ?_, ?_⟩ <;> omega
  · intro s h c hc t integer id hturn
    obtain ⟨hpos, hmax, -⟩ := returned_counted h hc hturn
    exact ⟨hpos, hmax⟩
  · intro s h c hc c' hc' t t' integer integer' id id' hturn hturn' hne hid
    have hany : Path IdSystem.step (fun _ _ => True) {} s := h.mono fun _ _ _ => trivial
    obtain ⟨-, hmax, rfl⟩ := returned_counted hany hc hturn
    obtain ⟨-, hmax', rfl⟩ := returned_counted hany hc' hturn'
    have hlow := composeId_emod t (path_numbered h c hc) hmax
    have hlow' := composeId_emod t' (path_numbered h c' hc') hmax'
    unfold maxSequence at hmax hmax'
    omega

/-- Two machines draw from the counter of one millisecond; then Redis forgets it. -/
def twoMachines : List IdEvent :=
  [.generate .message 1, .generate .message 2, .clock 0 1672531200001, .clock 1 1672531200001, .incr 1, .incr 0,
    .reply 0, .reply 1]

def forgetful : List IdEvent :=
  [.generate .message 1, .clock 0 1672531200001, .incr 0, .reply 0, .lose "im:msgId:1" 0, .generate .message 2,
    .clock 1 1672531200001, .incr 1, .reply 1]

theorem generated_ids_unique_two :
    (∃ s, twoMachines.foldlM IdSystem.step {} = some s ∧
      s.calls.map (·.turn) = [.returned 1 2 4198402, .returned 1 1 4202497] ∧
      ∀ (j : ℕ) c t integer, s.calls[j]? = some c → c.kind = .message → c.turn = .returned t integer 4198402 →
        j = 0) ∧
    ∃ s, forgetful.foldlM IdSystem.step {} = some s ∧
      s.calls.map (·.turn) = [.returned 1 1 4198401, .returned 1 1 4202497] ∧
      ∀ c ∈ s.calls, c.machineId ≠ 1 → ∀ t integer id, c.turn = .returned t integer id → id ≠ 4198401 := by
  constructor
  · obtain ⟨s, hs, hturns, hfirst⟩ : ∃ s, twoMachines.foldlM IdSystem.step {} = some s ∧
        s.calls.map (·.turn) = [.returned 1 2 4198402, .returned 1 1 4202497] ∧
        s.calls[0]? = some ⟨.message, 1, .returned 1 2 4198402⟩ :=
      ⟨_, rfl, by decide +kernel, rfl⟩
    have hpath : Path IdSystem.step (fun _ e => e.Timely ∧ e.Lasting) {} s :=
      Path.here.run (by simp [twoMachines, IdEvent.Timely, IdEvent.Numbered, IdEvent.Lasting, Timestamp, idEpoch]) hs
    exact ⟨s, hs, hturns, fun j c t integer hj hkind hturn =>
      generated_ids_unique.1 s hpath j 0 c _ t 1 integer 2 _ 4198402 hj hfirst hkind hturn rfl rfl⟩
  · obtain ⟨s, hs, hturns, hfirst⟩ : ∃ s, forgetful.foldlM IdSystem.step {} = some s ∧
        s.calls.map (·.turn) = [.returned 1 1 4198401, .returned 1 1 4202497] ∧
        s.calls[0]? = some ⟨.message, 1, .returned 1 1 4198401⟩ :=
      ⟨_, rfl, by decide +kernel, rfl⟩
    have hpath : Path IdSystem.step (fun _ e => e.Numbered) {} s :=
      Path.here.run (by simp [forgetful, IdEvent.Numbered]) hs
    exact ⟨s, hs, hturns, fun c hc hne t integer id hturn =>
      generated_ids_unique.2.2.2 s hpath c hc _ (mem_of_getElem? hfirst) t 1 integer 1 id 4198401 hturn rfl hne⟩

end Imm
