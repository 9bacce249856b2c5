import Mathlib.Logic.Relation
import Mathlib.Algebra.Order.Group.Nat
import Imm.Schemes.Paths
import Imm.Store.Statements

/-! Row locks of sends and receipts, taken one at a time. In `Sys` a statement takes all its locks in
    one step; here each of them is asked for and granted on its own, in the order of the statements
    and, within a join, of its tables, and all are held to the end of the transaction.

        accept_direct_text:   S state(sender)   S state(receiver)   X conversation   (INSERT) X message
        acknowledge:          X message   X conversation   X state(uid)   X device   X device state

    The two take the conversation and its states in opposite orders. The states of a direct conversation
    are created together with it, so INSERT IGNORE finds both. -/

namespace Imm

open Txn SQL Steps List Bool

/-- A transaction, by what its locks depend on; `device` is the weight of a device id. -/
inductive Locking where
  | acceptDirectText (conversationId senderId receiverId : ℤ)
  | acknowledge (messageId conversationId uid : ℤ) (device : String) (directRecipient : Bool)

/-- The locks of the statements, in order. Those of an UPDATE are held already. -/
def Locking.requests : Locking → List (Lock Key)
  | .acceptDirectText c sender receiver =>
    [sharing (.userState c sender), sharing (.userState c receiver)] ++ [exclusive (.conversation c)] ++
      [exclusive (.conversation c)]
  | .acknowledge m c uid device directRecipient =>
    [exclusive (.message m), exclusive (.conversation c), exclusive (.userState c uid),
      exclusive (.device device)] ++
    (if directRecipient then [exclusive (.message m)] else []) ++
    [exclusive (.userState c uid)] ++ [exclusive (.deviceState c device)]

structure Contender where
  locking : Locking
  /-- how many of its requests are granted -/
  granted : ℕ := 0
  asking : Bool := false
  /-- the message it has inserted -/
  inserted : Option ℤ := none
  ended : Bool := false

namespace Contender

variable (t : Contender)

def held : List (Lock Key) :=
  if t.ended then []
  else t.locking.requests.take t.granted ++ t.inserted.toList.map fun n => exclusive (.message n)

def asked : Option (Lock Key) :=
  if t.asking && !t.ended then t.locking.requests[t.granted]? else none

/-- The row that a FOR UPDATE looks for first is there. -/
def finds (lastMessage : ℤ) : Bool :=
  match t.locking with
  | .acknowledge m _ _ _ _ => decide (t.granted ≠ 0 ∨ m ≤ lastMessage)
  | .acceptDirectText _ _ _ => true

def sends : Bool := match t.locking with | .acceptDirectText _ _ _ => true | .acknowledge _ _ _ _ _ => false

end Contender

/-- The transactions, and the last number that AUTO_INCREMENT has given. -/
structure Contention where
  contenders : List Contender := []
  lastMessage : ℤ

inductive ContentionEvent where
  | start (locking : Locking)
  | ask (k : ℕ)
  | grant (k : ℕ)
  /-- INSERT INTO messages -/
  | insert (k : ℕ)
  /-- COMMIT, ROLLBACK or the end of the connection -/
  | finish (k : ℕ)

namespace Contention

variable (s : Contention)

def put (k : ℕ) (t : Contender) : Contention := { s with contenders := s.contenders.set k t }

/-- The lock that `k` asks for is in conflict with one that `j` holds. -/
def blocks (k j : ℕ) : Bool :=
  decide (k ≠ j) && s.contenders[k]?.any fun t => s.contenders[j]?.any fun u =>
    t.asked.any fun l => u.held.any l.conflicts

def Waits (k j : ℕ) : Prop := s.blocks k j = true

def step : ContentionEvent → Option Contention
  | .start locking => some { s with contenders := s.contenders ++ [{ locking }] }
  | .ask k => s.contenders[k]?.bind fun t =>
    if t.asking = false ∧ t.ended = false ∧ t.granted < t.locking.requests.length ∧ t.finds s.lastMessage then
      some (s.put k { t with asking := true })
    else none
  | .grant k => s.contenders[k]?.bind fun t =>
    if t.asked.isSome ∧ ∀ j < s.contenders.length, s.blocks k j = false then
      some (s.put k { t with granted := t.granted + 1, asking := false })
    else none
  | .insert k => s.contenders[k]?.bind fun t =>
    if t.sends ∧ t.ended = false ∧ t.granted = t.locking.requests.length ∧ t.inserted = none then
      some { s.put k { t with inserted := some (s.lastMessage + 1) } with lastMessage := s.lastMessage + 1 }
    else none
  | .finish k => s.contenders[k]?.map fun t => s.put k { t with ended := true }

end Contention

/-! ### The statements take these locks -/

section statements

variable [Collation] {n : ℕ} {d : Db}

/-- INSERT IGNORE and FOR UPDATE of a send in a conversation that has its states. -/
theorem acceptDirectText_locks {c sender receiver : ℤ} {conv : Conversation}
    (hs : (d.conversationUserStates.get (c, sender)).isSome)
    (hr : (d.conversationUserStates.get (c, receiver)).isSome) (hc : d.conversations.get c = some conv) :
    ∃ e e', insertIgnoreUserStates c [sender, receiver] n d = .ok e ∧ lockLatestSeq c n d = .ok e' ∧
      e.locks Db ++ e'.locks Db = (Locking.acceptDirectText c sender receiver).requests.take 3 := by
  have hmissing : ([sender, receiver].dedup.filter fun u => (d.conversationUserStates.get (c, u)).isNone) = [] := by
    rw [filter_eq_nil_iff]
    intro u hu
    rcases mem_pair.1 (mem_dedup.1 hu) with rfl | rfl
    · simpa [Option.isSome_iff_ne_none] using hs
    · simpa [Option.isSome_iff_ne_none] using hr
  refine ⟨_, _, rfl, by rw [lockLatestSeq, hc], ?_⟩
  simp only [Effect.locks, hmissing, filter_cons_of_pos, hs, hr, filter_nil]
  rfl

/-- The join of a receipt, and what it writes when its row was found. -/
theorem acknowledge_locks {m c uid q : ℤ} {device : String} {b : Bool}
    {e : Effect Key Write (Option (ConversationType × Message))} (h : lockReceipt uid device m c q n d = .ok e) :
    e.locks Db = [] ∨
      e.locks Db = (Locking.acknowledge m c uid (weight device) b).requests.take 4 := by
  obtain rfl | ⟨conv, row, -, -, -, -, -, rfl⟩ := lockReceipt_ok h
  · exact .inl rfl
  · exact .inr rfl

end statements

/-! ### Taking turns -/

namespace Contender

/-- The receipt `u` has the row of a conversation and not yet its state; the send `t` has this state and not yet
    the row. -/
def crosses (t u : Contender) : Bool :=
  match t.locking, u.locking with
  | .acceptDirectText c a b, .acknowledge _ c' uid _ _ =>
    decide (c = c' ∧ t.ended = false ∧ u.ended = false ∧ uid ∈ [a, b].take t.granted ∧ t.granted ≤ 2 ∧
      u.granted = 2)
  | _, _ => false

/-- A message whose row it has asked for, or inserted. -/
def Names (t : Contender) (n : ℤ) : Prop :=
  t.inserted = some n ∨ match t.locking with
    | .acknowledge m _ _ _ _ => m = n ∧ (t.asking = true ∨ t.granted ≠ 0)
    | .acceptDirectText _ _ _ => False

def advance (t : Contender) : Contender := { t with granted := t.granted + 1, asking := false }

end Contender

namespace Contention

variable {s s' : Contention} {k j : ℕ} {t u : Contender}

/-- A send locks a state of a conversation only while no receipt that needs this state has the row, and a receipt
    locks the row only while no send has its state without the row. -/
def TakesTurns (s : Contention) : ContentionEvent → Prop
  | .grant k => ∀ t ∈ s.contenders[k]?, ∀ u ∈ s.contenders,
    t.advance.crosses u = false ∧ u.crosses t.advance = false
  | _ => True

instance : ∀ e, Decidable (s.TakesTurns e)
  | .grant _ => by unfold TakesTurns; infer_instance
  | .start _ | .ask _ | .insert _ | .finish _ => .isTrue trivial

structure Sound (s : Contention) : Prop where
  apart : ∀ (k j : ℕ) (t u : Contender), k ≠ j → s.contenders[k]? = some t → s.contenders[j]? = some u →
    ∀ l ∈ t.held, ∀ l' ∈ u.held, l.conflicts l' = false
  turns : ∀ t ∈ s.contenders, ∀ u ∈ s.contenders, t.crosses u = false
  known : ∀ t ∈ s.contenders, ∀ n, t.Names n → n ≤ s.lastMessage
  inserted : ∀ t ∈ s.contenders, t.inserted ≠ none → t.locking.requests.length ≤ t.granted

theorem conflicts_comm (a b : Lock Key) : a.conflicts b = b.conflicts a := by
  simp only [Lock.conflicts, or_comm (decide (a.mode = _)), eq_comm (a := a.key)]

theorem crosses_self (t : Contender) : t.crosses t = false := by
  unfold Contender.crosses
  cases t.locking <;> rfl

theorem Sound.put (h : s.Sound) (last : ℤ) (hlast : s.lastMessage ≤ last)
    (hheld : ∀ (j : ℕ) u, k ≠ j → s.contenders[j]? = some u → ∀ l ∈ t.held, ∀ l' ∈ u.held, l.conflicts l' = false)
    (hturns : ∀ u ∈ s.contenders, t.crosses u = false ∧ u.crosses t = false)
    (hknown : ∀ n, t.Names n → n ≤ last)
    (hinserted : t.inserted ≠ none → t.locking.requests.length ≤ t.granted) :
    ({ s.put k t with lastMessage := last } : Contention).Sound where
  apart i j u v hne hu hv := by
    simp only [Contention.put, getElem?_set] at hu hv
    split_ifs at hu hv with hi hlen hj hlen' hj
    · exact absurd (hi.symm.trans hj) hne
    · cases hu
      exact hheld j v hj hv
    · cases hv
      intro l hl l' hl'
      rw [conflicts_comm]
      exact hheld i u hi hu l' hl' l hl
    · exact h.apart i j u v hne hu hv
  turns u hu v hv := by
    rcases mem_or_eq_of_mem_set hu with hu' | hu' <;> rcases mem_or_eq_of_mem_set hv with hv' | hv'
    · exact h.turns u hu' v hv'
    · exact hv' ▸ (hturns u hu').2
    · exact hu' ▸ (hturns v hv').1
    rw [hu', hv']
    exact crosses_self t
  known u hu n hn := by
    rcases mem_or_eq_of_mem_set hu with hu | rfl
    · exact (h.known u hu n hn).trans hlast
    · exact hknown n hn
  inserted u hu := by
    rcases mem_or_eq_of_mem_set hu with hu | rfl
    · exact h.inserted u hu
    · exact hinserted

theorem start_sound (h : s.Sound) (locking : Locking) :
    ({ s with contenders := s.contenders ++ [{ locking }] } : Contention).Sound := by
  have hnew : ∀ t ∈ s.contenders ++ [({ locking } : Contender)], t ∈ s.contenders ∨ t = { locking := locking } := by
    simp only [mem_append, mem_singleton]
    exact fun _ h => h
  have hcrosses : ∀ u, ({ locking } : Contender).crosses u = false ∧ u.crosses { locking } = false := by
    intro u
    unfold Contender.crosses
    constructor
    · split <;> simp
    · split <;> simp
  refine ⟨fun k j t u hne ht hu l hl l' hl' => ?_, fun t ht u hu => ?_, fun t ht n hn => ?_,
    fun t ht hins => ?_⟩
  · rw [getElem?_append] at ht hu
    split_ifs at ht hu
    · exact h.apart k j t u hne ht hu l hl l' hl'
    · rw [mem_singleton.1 (mem_of_getElem? hu)] at hl'
      exact absurd hl' not_mem_nil
    · rw [mem_singleton.1 (mem_of_getElem? ht)] at hl
      exact absurd hl not_mem_nil
    · rw [mem_singleton.1 (mem_of_getElem? ht)] at hl
      exact absurd hl not_mem_nil
  · rcases hnew t ht with ht | rfl
    · rcases hnew u hu with hu | rfl
      · exact h.turns t ht u hu
      · exact (hcrosses t).2
    · exact (hcrosses u).1
  · rcases hnew t ht with ht | rfl
    · exact h.known t ht n hn
    unfold Contender.Names at hn
    cases locking <;> simp at hn
  · rcases hnew t ht with ht | rfl
    · exact h.inserted t ht hins
    · exact absurd rfl hins

theorem held_advance {l : Lock Key} (h : t.asked = some l) :
    ∀ l' ∈ t.advance.held, l' ∈ t.held ∨ l' = l := by
  unfold Contender.asked at h
  split at h
  · rename_i hasking
    rw [and_eq_true, not_eq_true'] at hasking
    intro l' hl'
    simp only [Contender.held, Contender.advance, hasking.2, false_eq_true, if_false,
      take_add_one, h, Option.toList_some, mem_append, mem_singleton] at hl' ⊢
    tauto
  · cases h

theorem ask_sound (h : s.Sound) (ht : s.contenders[k]? = some t) (hfinds : t.finds s.lastMessage = true) :
    (s.put k { t with asking := true }).Sound := by
  have hmem := mem_of_getElem? ht
  refine h.put s.lastMessage le_rfl (fun j u hne hu => ?_) (fun u hu => ?_) (fun n hn => ?_) (h.inserted t hmem)
  · exact h.apart k j t u hne ht hu
  · exact ⟨h.turns t hmem u hu, h.turns u hu t hmem⟩
  · rcases hn with hn | hn
    · exact h.known t hmem n (.inl hn)
    unfold Contender.finds at hfinds
    cases hl : t.locking with
    | acceptDirectText c a b => rw [hl] at hn; exact hn.elim
    | acknowledge m c uid device b =>
      rw [hl] at hn hfinds
      obtain ⟨rfl, -⟩ := hn
      rcases of_decide_eq_true hfinds with hzero | hle
      · exact h.known t hmem m (.inr (by rw [hl]; exact ⟨rfl, .inr hzero⟩))
      · exact hle

theorem grant_sound (h : s.Sound) (ht : s.contenders[k]? = some t) {l : Lock Key} (hasked : t.asked = some l)
    (hfree : ∀ j < s.contenders.length, s.blocks k j = false) (hok : s.TakesTurns (.grant k)) :
    (s.put k t.advance).Sound := by
  have hmem := mem_of_getElem? ht
  refine h.put s.lastMessage le_rfl (fun j u hne hu l₁ hl₁ l₂ hl₂ => ?_) (fun u hu => ?_) (fun n hn => ?_) ?_
  · rcases held_advance hasked l₁ hl₁ with hl₁ | rfl
    · exact h.apart k j t u hne ht hu l₁ hl₁ l₂ hl₂
    have := hfree j (List.getElem?_eq_some_iff.1 hu).1
    simp only [blocks, hne, ne_eq, not_false_eq_true, decide_true, Bool.true_and, ht, hu, hasked,
      Option.any_some, any_eq_false, Bool.not_eq_true] at this
    exact this l₂ hl₂
  · exact hok t ht u hu
  · have hasking : t.asking = true := by
      unfold Contender.asked at hasked
      cases hasking : t.asking with
      | true => rfl
      | false => simp [hasking] at hasked
    refine h.known t hmem n (hn.imp_right fun hn => ?_)
    simp only [Contender.advance] at hn
    cases hl : t.locking with
    | acceptDirectText c a b => rw [hl] at hn; exact hn.elim
    | acknowledge m c uid device b =>
      rw [hl] at hn
      exact ⟨hn.1, .inl hasking⟩
  · exact fun hins => (h.inserted t hmem hins).trans (Nat.le_succ _)

/-- Nobody else has locked a message that is not there yet. -/
theorem held_message {n : ℤ} {m : Mode} (h : (⟨.message n, m⟩ : Lock Key) ∈ t.held) : t.Names n := by
  unfold Contender.held at h
  unfold Contender.Names
  split at h
  · cases h
  rcases mem_append.1 h with h | h
  · cases hl : t.locking with
    | acceptDirectText c a b =>
      rw [hl] at h
      have := mem_of_mem_take h
      simp [Locking.requests] at this
    | acknowledge m c uid device b =>
      rw [hl] at h
      refine .inr ⟨?_, .inr fun hzero => by simp [hzero] at h⟩
      have := mem_of_mem_take h
      cases b <;> simp [Locking.requests] at this <;> exact this.1.symm
  · cases hi : t.inserted with
    | none => simp [hi] at h
    | some n' =>
      simp only [hi, Option.toList_some, map_cons, map_nil, mem_singleton, Lock.mk.injEq,
        Key.message.injEq] at h
      exact .inl (by rw [h.1])

theorem insert_sound (h : s.Sound) (ht : s.contenders[k]? = some t) (hsends : t.sends = true)
    (hgranted : t.granted = t.locking.requests.length) :
    ({ s.put k { t with inserted := some (s.lastMessage + 1) } with
      lastMessage := s.lastMessage + 1 } : Contention).Sound := by
  have hmem := mem_of_getElem? ht
  refine h.put (s.lastMessage + 1) (by omega) (fun j u hne hu l hl l' hl' => ?_) (fun u hu => ?_) (fun n hn => ?_)
    (fun _ => hgranted.ge)
  · unfold Contender.held at hl
    split at hl
    · cases hl
    rename_i hended
    rcases mem_append.1 hl with hl | hl
    · refine h.apart k j t u hne ht hu l ?_ l' hl'
      rw [Contender.held, if_neg hended]
      exact mem_append_left _ hl
    rw [Option.toList_some, map_singleton, mem_singleton] at hl
    subst hl
    -- the new number is above those that others have locked
    have hne : ¬l'.key = .message (s.lastMessage + 1) := by
      intro hkey
      have := h.known u (mem_of_getElem? hu) _ (held_message (by rwa [← hkey]))
      omega
    simp [Lock.conflicts, Ne.symm hne]
  · exact ⟨h.turns t hmem u hu, h.turns u hu t hmem⟩
  · rcases hn with hn | hn
    · cases hn
      exact le_rfl
    unfold Contender.sends at hsends
    cases hl : t.locking with
    | acceptDirectText c a b => rw [hl] at hn; exact hn.elim
    | acknowledge m c uid device b => rw [hl] at hsends; cases hsends

theorem finish_sound (h : s.Sound) (ht : s.contenders[k]? = some t) :
    (s.put k { t with ended := true }).Sound := by
  have hmem := mem_of_getElem? ht
  refine h.put s.lastMessage le_rfl (fun j u _ _ l hl => ?_) (fun u hu => ⟨?_, ?_⟩)
    (h.known t hmem) (h.inserted t hmem)
  · simp [Contender.held] at hl
  · unfold Contender.crosses
    split <;> simp
  · unfold Contender.crosses
    split <;> simp

theorem step_sound {e : ContentionEvent} (h : s.Sound) (hok : s.TakesTurns e) (hstep : s.step e = some s') :
    s'.Sound := by
  cases e with
  | start locking =>
    cases hstep
    exact start_sound h locking
  | ask k =>
    obtain ⟨t, ht, hstep⟩ := Option.bind_eq_some_iff.1 hstep
    split at hstep <;> cases hstep
    rename_i hcond
    exact ask_sound h ht hcond.2.2.2
  | grant k =>
    obtain ⟨t, ht, hstep⟩ := Option.bind_eq_some_iff.1 hstep
    split at hstep <;> cases hstep
    rename_i hcond
    obtain ⟨l, hl⟩ := Option.isSome_iff_exists.1 hcond.1
    exact grant_sound h ht hl hcond.2 hok
  | insert k =>
    obtain ⟨t, ht, hstep⟩ := Option.bind_eq_some_iff.1 hstep
    split at hstep <;> cases hstep
    rename_i hcond
    exact insert_sound h ht hcond.1 hcond.2.2.1
  | finish k =>
    obtain ⟨t, ht, rfl⟩ := Option.map_eq_some_iff.1 hstep
    exact finish_sound h ht

theorem run_sound {last : ℤ} (h : Path step TakesTurns { lastMessage := last } s) : s.Sound :=
  h.invariant ⟨by simp, by simp, by simp, by simp⟩ fun _ _ _ _ hs hok hstep => step_sound hs hok hstep

/-! ### The order of the locks -/

theorem acceptDirectText_request {c a b : ℤ} {i : ℕ} {l : Lock Key}
    (h : (Locking.acceptDirectText c a b).requests[i]? = some l) :
    i < 2 ∧ (∃ u, [a, b][i]? = some u ∧ l = sharing (.userState c u)) ∨
      (i = 2 ∨ i = 3) ∧ l = exclusive (.conversation c) := by
  match i, h with
  | 0, h | 1, h => exact .inl ⟨by decide, _, rfl, (Option.some.inj h).symm⟩
  | 2, h | 3, h => exact .inr ⟨by decide, (Option.some.inj h).symm⟩

theorem acknowledge_request {m c uid : ℤ} {device : String} {b : Bool} {i : ℕ} {l : Lock Key}
    (h : (Locking.acknowledge m c uid device b).requests[i]? = some l) :
    i = 0 ∧ l = exclusive (.message m) ∨ i = 1 ∧ l = exclusive (.conversation c) ∨
    i = 2 ∧ l = exclusive (.userState c uid) ∨ i = 3 ∧ l = exclusive (.device device) ∨
    4 ≤ i ∧ l = exclusive (.message m) ∨ 4 ≤ i ∧ l = exclusive (.userState c uid) ∨
    l = exclusive (.deviceState c device) ∧ (Locking.acknowledge m c uid device b).requests.length = i + 1 := by
  cases b <;> (simp only [Locking.requests] at h ⊢; rcases i with _ | _ | _ | _ | _ | _ | _ | i) <;> simp_all

/-- How far a transaction is: the shared locks of a send come before the row of the conversation, the
    exclusive ones of a receipt after it. -/
def rank (t : Contender) : ℕ :=
  if t.locking.requests.length ≤ t.granted then 10
  else match t.locking with
    | .acceptDirectText _ _ _ => if t.granted < 2 then 1 else if t.granted = 2 then 2 else 9
    | .acknowledge _ _ _ _ _ => if t.granted = 0 then 0 else t.granted + 1

theorem rank_lt_ten (h : t.granted < t.locking.requests.length) : rank t < 10 := by
  unfold rank
  rw [if_neg (Nat.not_le.2 h)]
  cases hl : t.locking with
  | acceptDirectText c a b => simp only; split_ifs <;> decide
  | acknowledge m c uid device b =>
    have : t.granted < 7 := by
      rw [hl] at h
      refine h.trans_le ?_
      cases b <;> simp [Locking.requests]
    simp only
    split_ifs <;> omega

/-- What a wait is. -/
structure Blocked (s : Contention) (t u : Contender) (l l' : Lock Key) : Prop where
  asked : t.locking.requests[t.granted]? = some l
  going : t.ended = false
  ending : u.ended = false
  key : l.key = l'.key
  mode : l.mode = .exclusive ∨ l'.mode = .exclusive
  /-- what it holds itself is not in the way -/
  unheld : l ∉ t.held
  turns : u.crosses t = false

theorem waits_blocked (h : s.Sound) (hw : s.Waits k j) : ∃ t u l l', s.contenders[k]? = some t ∧
    s.contenders[j]? = some u ∧ Blocked s t u l l' ∧
    ((∃ i < u.granted, u.locking.requests[i]? = some l') ∨ u.locking.requests.length ≤ u.granted) := by
  unfold Waits blocks at hw
  rw [and_eq_true, decide_eq_true_eq] at hw
  obtain ⟨hne, hw⟩ := hw
  obtain ⟨t, ht, hw⟩ := (Option.any_eq_true _ _).1 hw
  obtain ⟨u, hu, hw⟩ := (Option.any_eq_true _ _).1 hw
  obtain ⟨l, hl, hw⟩ := (Option.any_eq_true _ _).1 hw
  obtain ⟨l', hl', hconflict⟩ := any_eq_true.1 hw
  have htm := mem_of_getElem? ht
  have hum := mem_of_getElem? hu
  have hunheld : l ∉ t.held := fun hheld => by
    rw [h.apart k j t u hne ht hu l hheld l' hl'] at hconflict
    cases hconflict
  unfold Contender.asked at hl
  split at hl
  · rename_i hasking
    rw [and_eq_true, not_eq_true'] at hasking
    simp only [Lock.conflicts, and_eq_true, or_eq_true, decide_eq_true_eq] at hconflict
    unfold Contender.held at hl'
    split at hl'
    · cases hl'
    rename_i hended
    refine ⟨t, u, l, l', ht, hu, ⟨hl, hasking.2, by simpa using hended, hconflict.1, hconflict.2, hunheld,
      h.turns u hum t htm⟩, ?_⟩
    rcases mem_append.1 hl' with hl' | hl'
    · obtain ⟨i, hi, rfl⟩ := mem_take_iff_getElem.1 hl'
      exact .inl ⟨i, by omega, getElem?_eq_getElem _⟩
    refine .inr (h.inserted u hum fun hnone => ?_)
    simp [hnone] at hl'
  · cases hl

theorem Blocked.at_once {l l' : Lock Key} (h : Blocked s t u l l') {i : ℕ} (hi : i < t.granted)
    (hget : t.locking.requests[i]? = some l) : False := by
  refine h.unheld ?_
  rw [Contender.held, h.going]
  refine mem_append_left _ (mem_take_iff_getElem.2 ?_)
  obtain ⟨hlt, rfl⟩ := List.getElem?_eq_some_iff.1 hget
  exact ⟨i, by omega, rfl⟩

section order

variable {l l' : Lock Key} {i : ℕ} {m m' c c' a a' b b' uid uid' : ℤ} {device device' : String} {r r' : Bool}

/-- A send waits for a send: only for the row of the conversation. -/
theorem Blocked.send_send (h : Blocked s t u l l') (ht : t.locking = .acceptDirectText c a b)
    (hu : u.locking = .acceptDirectText c' a' b') (hget : u.locking.requests[i]? = some l') :
    t.granted = 2 ∧ 2 ≤ i := by
  obtain ⟨-, v, -, rfl⟩ | ⟨hi, rfl⟩ := acceptDirectText_request (ht ▸ h.asked)
  · obtain ⟨-, v', -, rfl⟩ | ⟨-, rfl⟩ := acceptDirectText_request (hu ▸ hget)
    · exact absurd h.mode (by simp)
    · exact absurd h.key (by simp)
  obtain ⟨-, v', -, rfl⟩ | ⟨hi', rfl⟩ := acceptDirectText_request (hu ▸ hget)
  · exact absurd h.key (by simp)
  · refine ⟨hi.resolve_right fun hi => h.at_once (i := 2) (by omega) (by rw [ht]; rfl), by omega⟩

/-- A send waits for a receipt: for a state, or for the row of the conversation. -/
theorem Blocked.send_receipt (h : Blocked s t u l l') (ht : t.locking = .acceptDirectText c a b)
    (hu : u.locking = .acknowledge m' c' uid' device' r') (hget : u.locking.requests[i]? = some l') :
    t.granted < 2 ∧ 2 ≤ i ∨ t.granted = 2 ∧ 1 ≤ i := by
  obtain ⟨hi, v, -, rfl⟩ | ⟨hi, rfl⟩ := acceptDirectText_request (ht ▸ h.asked)
  · obtain ⟨-, rfl⟩ | ⟨-, rfl⟩ | ⟨hi', rfl⟩ | ⟨-, rfl⟩ | ⟨-, rfl⟩ | ⟨hi', rfl⟩ | ⟨rfl, -⟩ :=
      acknowledge_request (hu ▸ hget)
    all_goals have hkey := h.key; simp at hkey
    · exact .inl ⟨hi, hi'.ge⟩
    · exact .inl ⟨hi, by omega⟩
  · have hi : t.granted = 2 := hi.resolve_right fun hi => h.at_once (i := 2) (by omega) (by rw [ht]; rfl)
    obtain ⟨-, rfl⟩ | ⟨hi', rfl⟩ | ⟨-, rfl⟩ | ⟨-, rfl⟩ | ⟨-, rfl⟩ | ⟨-, rfl⟩ | ⟨rfl, -⟩ :=
      acknowledge_request (hu ▸ hget)
    all_goals have hkey := h.key; simp at hkey
    exact .inr ⟨hi, hi'.ge⟩

/-- A receipt waits for a send: for the row of the conversation. The state it needs once it has the row is
    not held by a send that still waits for the row. -/
theorem Blocked.receipt_send (h : Blocked s t u l l') (ht : t.locking = .acknowledge m c uid device r)
    (hu : u.locking = .acceptDirectText c' a' b') (hget : u.locking.requests[i]? = some l') (hi : i < u.granted) :
    t.granted ≤ 2 ∧ 3 ≤ u.granted := by
  obtain ⟨-, rfl⟩ | ⟨hg, rfl⟩ | ⟨hg, rfl⟩ | ⟨-, rfl⟩ | ⟨-, rfl⟩ | ⟨hg, rfl⟩ | ⟨rfl, -⟩ :=
    acknowledge_request (ht ▸ h.asked)
  all_goals obtain ⟨-, v', hv, rfl⟩ | ⟨hi', rfl⟩ := acceptDirectText_request (hu ▸ hget)
  all_goals have hkey := h.key; simp at hkey
  · exact ⟨by omega, by omega⟩
  · refine ⟨hg.le, ?_⟩
    by_contra hlt
    have hturns := h.turns
    have hmem : uid ∈ [a', b'].take u.granted := by
      refine mem_iff_getElem?.2 ⟨i, ?_⟩
      rw [getElem?_take, if_pos hi, hv, hkey.2]
    rw [Contender.crosses, hu, ht] at hturns
    exact of_decide_eq_false hturns ⟨hkey.1.symm, h.ending, h.going, hmem, by omega, hg⟩
  · exact (h.at_once (i := 2) (by omega) (by rw [ht]; rfl)).elim

/-- Receipts take their locks in one order. -/
theorem Blocked.receipt_receipt (h : Blocked s t u l l') (ht : t.locking = .acknowledge m c uid device r)
    (hu : u.locking = .acknowledge m' c' uid' device' r') (hget : u.locking.requests[i]? = some l') :
    t.granted ≤ i ∨ u.locking.requests.length = i + 1 := by
  obtain ⟨hg, rfl⟩ | ⟨hg, rfl⟩ | ⟨hg, rfl⟩ | ⟨hg, rfl⟩ | ⟨hg, rfl⟩ | ⟨hg, rfl⟩ | ⟨rfl, -⟩ :=
    acknowledge_request (ht ▸ h.asked)
  · exact .inl (by omega)
  all_goals obtain ⟨hi, rfl⟩ | ⟨hi, rfl⟩ | ⟨hi, rfl⟩ | ⟨hi, rfl⟩ | ⟨hi, rfl⟩ | ⟨hi, rfl⟩ | ⟨rfl, hi⟩ :=
    acknowledge_request (hu ▸ hget)
  all_goals have hkey := h.key; simp at hkey
  all_goals first
    | (left; omega)
    | exact .inr (hu ▸ hi)
    | exact (h.at_once (show 0 < _ by omega) (ht ▸ rfl)).elim
    | exact (h.at_once (show 2 < _ by omega) (ht ▸ rfl)).elim

theorem Blocked.rank_lt (h : Blocked s t u l l')
    (hu : (∃ i < u.granted, u.locking.requests[i]? = some l') ∨ u.locking.requests.length ≤ u.granted) :
    rank t < rank u := by
  have hlt := (List.getElem?_eq_some_iff.1 h.asked).1
  by_cases hend : u.locking.requests.length ≤ u.granted
  · rw [show rank u = 10 from if_pos hend]
    exact rank_lt_ten hlt
  obtain ⟨i, hi, hget⟩ := hu.resolve_right hend
  rw [rank, rank, if_neg hend, if_neg (Nat.not_le.2 hlt)]
  cases htl : t.locking with
  | acceptDirectText c a b =>
    cases hul : u.locking with
    | acceptDirectText c' a' b' =>
      have := h.send_send htl hul hget
      simp only
      split_ifs <;> omega
    | acknowledge m' c' uid' device' r' =>
      have := h.send_receipt htl hul hget
      simp only
      split_ifs <;> omega
  | acknowledge m c uid device r =>
    cases hul : u.locking with
    | acceptDirectText c' a' b' =>
      have := h.receipt_send htl hul hget hi
      simp only
      split_ifs <;> omega
    | acknowledge m' c' uid' device' r' =>
      have := h.receipt_receipt htl hul hget
      simp only
      split_ifs <;> omega

end order

end Contention

/-- Sends and receipts that take turns do not wait in a circle. -/
theorem no_lock_cycle {last : ℤ} {s : Contention}
    (h : Path Contention.step Contention.TakesTurns { lastMessage := last } s) (k : ℕ) :
    ¬Relation.TransGen s.Waits k k := by
  have hsound := Contention.run_sound h
  intro hcycle
  let rankAt (k : ℕ) : ℕ := (s.contenders[k]?.map Contention.rank).getD 0
  have hlt : Relation.TransGen (· < ·) (rankAt k) (rankAt k) := by
    refine hcycle.lift rankAt fun i j hwaits => ?_
    obtain ⟨t, u, l, l', ht, hu, hblocked, hheld⟩ := Contention.waits_blocked hsound hwaits
    show rankAt i < rankAt j
    simpa [rankAt, ht, hu] using hblocked.rank_lt hheld
  rw [Relation.transGen_eq_self] at hlt
  exact absurd hlt (lt_irrefl _)

/-- Message 5 is received by user 2 while user 1 writes to them. -/
def answering : List ContentionEvent :=
  [.start (.acceptDirectText 7 1 2), .ask 0, .grant 0, .ask 0, .grant 0, .ask 0, .grant 0,
   .start (.acknowledge 5 7 2 "phone" true), .ask 1, .grant 1, .ask 1]

instance (s : Contention) (k j : ℕ) : Decidable (s.Waits k j) := inferInstanceAs (Decidable (_ = true))

theorem no_lock_cycle_answering : ∃ s : Contention,
    Path Contention.step Contention.TakesTurns { lastMessage := 5 } s ∧ s.Waits 1 0 ∧
      ¬Relation.TransGen s.Waits 1 1 := by
  obtain ⟨s, hs, hwaits⟩ := (Option.any_eq_true _ _).1 (show
    (answering.foldlM (fun s e => if decide (s.TakesTurns e) then s.step e else none)
      ({ lastMessage := 5 } : Contention)).any (fun s => decide (s.Waits 1 0)) = true by decide +kernel)
  have hpath := Path.here.checked (fun _ _ h => of_decide_eq_true h) hs
  exact ⟨s, hpath, of_decide_eq_true hwaits, no_lock_cycle hpath 1⟩

/-- The send has its states and waits for the conversation, the receipt has the conversation and waits
    for a state. -/
def crossing : List ContentionEvent :=
  [.start (.acceptDirectText 7 1 2), .ask 0, .grant 0, .ask 0, .grant 0,
   .start (.acknowledge 5 7 2 "phone" true), .ask 1, .grant 1, .ask 1, .grant 1, .ask 0, .ask 1]

theorem send_and_receipt_cross : ∃ s : Contention,
    crossing.foldlM Contention.step { lastMessage := 5 } = some s ∧ s.Waits 0 1 ∧ s.Waits 1 0 ∧
      Relation.TransGen s.Waits 0 0 := by
  obtain ⟨s, hs, hfacts⟩ := (Option.any_eq_true _ _).1 (show
    (crossing.foldlM Contention.step { lastMessage := 5 }).any
      (fun s => decide (s.Waits 0 1 ∧ s.Waits 1 0)) = true by decide +kernel)
  obtain ⟨h01, h10⟩ := of_decide_eq_true hfacts
  exact ⟨s, hs, h01, h10, .tail (.single h01) h10⟩

end Imm
