import Mathlib.Algebra.Order.Group.Nat
import Imm.Gate.Codes

/-! How often a verification code can be guessed at. As long as the code is there, the counter of its
    email shows how many wrong guesses were compared with it (`Gate.Tracked`), and the last one allowed
    takes the code away. The counter gets its life from the TTL of the code, in whole seconds; if that
    was rounded down it is gone before the code, and the count starts again. A code that is accepted is
    gone, so it authorises one write. -/

namespace Imm

open Remote Steps List Option Nat
open Function (update_self update_of_ne)

namespace Gate

variable {o : VerificationOptions} {g g' : Gate}

/-- How often a guess was compared with a code and was right, or was not. -/
def tried (g : Gate) (number : ℕ) (right : Bool) : ℕ := g.trials.count (number, right)

/-- A guess that starts the count is made in the last half second of the code, or when the time that
    remains is not rounded down. -/
def CountLasts (g : Gate) : GateEvent → Prop
  | .consume k _ => ∀ r ∈ g.requests[k]?, ∀ code ∈ (g.keys r.email).current g.now,
    code.value.value ≠ r.verifyCode → (g.keys r.email).count g.now = 0 →
      code.deadline - g.now < 500 ∨ (code.deadline - g.now) % 1000 = 0 ∨ 500 ≤ (code.deadline - g.now) % 1000
  | _ => True

instance : ∀ e, Decidable (g.CountLasts e)
  | .consume _ _ => by unfold CountLasts; infer_instance
  | .tick _ | .issue _ _ | .clear _ _ | .request _ _ _ | .checked _ _ | .write _ _ => .isTrue trivial

/-- What is known of a code that is stored. -/
structure Tracked (o : VerificationOptions) (g : Gate) (email : String) (code : Expiring StoredCode) : Prop where
  issued : ∃ issue, g.issues[code.value.number]? = some issue ∧ issue.email = email ∧
    issue.value = code.value.value ∧ code.deadline = issue.issuedAt + o.codeTtlSeconds * 1000
  newest : ∀ m issue, code.value.number < m → g.issues[m]? = some issue → issue.email ≠ email
  unused : g.tried code.value.number true = 0
  allowed : g.tried code.value.number false < o.maxAttempts
  /-- the counter is right for as long as the code lasts -/
  counted : ∀ now, g.now ≤ now → now ≤ code.deadline →
    (g.keys email).count now = g.tried code.value.number false

structure Sound (o : VerificationOptions) (g : Gate) : Prop where
  codes : ∀ email code, (g.keys email).code = some code → Tracked o g email code
  known : ∀ trial ∈ g.trials, trial.1 < g.issues.length
  wrongs : ∀ n, g.tried n false ≤ o.maxAttempts
  rights : ∀ n, g.tried n true ≤ 1
  /-- who has written, or is about to, has consumed a code -/
  paid : ∀ n, g.writes.countP (·.2 = n) + g.requests.countP (·.stage = .accepted n) ≤ g.tried n true

/-! ### Codes that are left alone -/

variable {email guess : String} {code : Expiring StoredCode} {keys : VerificationKeys} {k : ℕ}
  {r : GateRequest}

/-- The trials of other codes do not matter, nor do later codes of other emails. -/
theorem Tracked.keep (h : Tracked o g email code)
    (hnow : g.now ≤ g'.now) (hkeys : g'.keys email = g.keys email)
    (hissues : ∀ (m : ℕ) issue, g.issues[m]? = some issue → g'.issues[m]? = some issue)
    (hnew : ∀ (m : ℕ) issue, g'.issues[m]? = some issue → g.issues[m]? = some issue ∨ issue.email ≠ email)
    (htrials : ∀ b, g'.tried code.value.number b = g.tried code.value.number b) :
    Tracked o g' email code := by
  obtain ⟨issue, hissue, hfacts⟩ := h.issued
  refine ⟨⟨issue, hissues _ _ hissue, hfacts⟩, fun m issue' hm hissue' => ?_, ?_, ?_, fun now hle hdeadline => ?_⟩
  · rcases hnew m issue' hissue' with hold | hother
    · exact h.newest m issue' hm hold
    · exact hother
  · rw [htrials, h.unused]
  · rw [htrials]
    exact h.allowed
  · rw [hkeys, htrials]
    exact h.counted now (hnow.trans hle) hdeadline

theorem Tracked.apart {email' : String} {code' : Expiring StoredCode} (h : Tracked o g email code)
    (h' : Tracked o g email' code') (hne : email ≠ email') : code.value.number ≠ code'.value.number := by
  intro heq
  obtain ⟨issue, hissue, hemail, -⟩ := h.issued
  obtain ⟨issue', hissue', hemail', -⟩ := h'.issued
  rw [← heq, hissue] at hissue'
  cases hissue'
  exact hne (hemail.symm.trans hemail')

theorem Tracked.known (h : Tracked o g email code) :
    code.value.number < g.issues.length := by
  obtain ⟨issue, hissue, -⟩ := h.issued
  exact (List.getElem?_eq_some_iff.1 hissue).1

theorem Sound.quiet (h : g.Sound o) (hnow : g.now ≤ g'.now) (hkeys : g'.keys = g.keys)
    (hissues : g'.issues = g.issues) (htrials : g'.trials = g.trials)
    (hpaid : ∀ n, g'.writes.countP (·.2 = n) + g'.requests.countP (·.stage = .accepted n) ≤ g.tried n true) :
    g'.Sound o where
  codes email code hcode := by
    refine (h.codes email code (hkeys ▸ hcode)).keep hnow (by rw [hkeys]) ?_ ?_ ?_
    · rw [hissues]
      exact fun _ _ h => h
    · rw [hissues]
      exact fun _ _ h => .inl h
    · exact fun b => congrArg (List.count _) htrials
  known := by rw [htrials, hissues]; exact h.known
  wrongs n := by rw [tried, htrials]; exact h.wrongs n
  rights n := by rw [tried, htrials]; exact h.rights n
  paid n := by
    rw [tried, htrials]
    exact hpaid n

/-! ### The scripts -/

theorem current_eq {k : VerificationKeys} {now : ℕ}
    (h : k.current now = some code) : k.code = some code ∧ now ≤ code.deadline := by
  obtain ⟨hcode, hle⟩ := filter_eq_some_iff.1 h
  exact ⟨hcode, of_decide_eq_true hle⟩

theorem issue_sound (h : g.Sound o) {code : String}
    (hissue : (g.keys email).issue o g.now ⟨code, g.issues.length⟩ = (keys, true)) :
    ({ g.setKeys email keys with issues := g.issues ++ [⟨email, code, g.now⟩] } : Gate).Sound o := by
  have hkeys : keys = { code := some ⟨⟨code, g.issues.length⟩, g.now + o.codeTtlSeconds * 1000⟩
                        cooldown := some ⟨(), g.now + o.cooldownSeconds * 1000⟩
                        attempts := none } := by
    unfold VerificationKeys.issue at hissue
    split at hissue
    · cases hissue
    · exact (congrArg Prod.fst hissue).symm
  have hfresh : ∀ b, g.tried g.issues.length b = 0 := by
    intro b
    rw [tried, count_eq_zero]
    intro hmem
    exact absurd (h.known _ hmem) (lt_irrefl _)
  refine ⟨fun email' code' hcode' => ?_, fun trial htrial => ?_, h.wrongs, h.rights, h.paid⟩
  · simp only [setKeys] at hcode'
    by_cases heq : email' = email
    · subst heq
      rw [update_self, hkeys] at hcode'
      cases hcode'
      refine ⟨⟨⟨email', code, g.now⟩, by simp, rfl, rfl, rfl⟩, fun m issue hm hissue => ?_, hfresh true, ?_,
        fun now _ _ => ?_⟩
      · rw [getElem?_eq_none (by simpa using succ_le_of_lt hm)] at hissue
        cases hissue
      · exact (hfresh false).trans_lt o.maxAttempts_pos
      · simp only [setKeys, update_self, hkeys, VerificationKeys.count]
        exact (hfresh false).symm
    · rw [update_of_ne heq] at hcode'
      refine (h.codes email' code' hcode').keep le_rfl (update_of_ne heq _ _) ?_ ?_ fun _ => rfl
      · intro m issue hm
        exact (List.getElem?_append_left (List.getElem?_eq_some_iff.1 hm).1).trans hm
      · intro m issue hm
        rcases lt_or_ge m g.issues.length with hlt | hge
        · exact .inl ((getElem?_append_left hlt).symm.trans hm)
        rw [getElem?_append_right hge] at hm
        have := mem_of_getElem? hm
        rw [mem_singleton] at this
        rw [this]
        exact .inr (.symm heq)
  · simp only [length_append, length_cons, length_nil]
    exact (h.known trial htrial).trans (lt_succ_self _)

theorem drop_sound (h : g.Sound o) (hnone : keys.code = none) :
    (g.setKeys email keys).Sound o := by
  refine ⟨fun email' code' hcode' => ?_, h.known, h.wrongs, h.rights, h.paid⟩
  simp only [setKeys] at hcode'
  by_cases heq : email' = email
  · subst heq
    rw [update_self, hnone] at hcode'
    cases hcode'
  rw [update_of_ne heq] at hcode'
  exact (h.codes email' code' hcode').keep le_rfl (update_of_ne heq _ _) (fun _ _ h => h)
    (fun _ _ h => .inl h) fun _ => rfl

theorem clear_sound (h : g.Sound o) (email code : String) :
    (g.setKeys email ((g.keys email).clear g.now code).1).Sound o := by
  unfold VerificationKeys.clear
  split
  · exact drop_sound h rfl
  · rwa [setKeys, Function.update_eq_self]

theorem tried_append (g : Gate) (number n : ℕ) (ok b : Bool) :
    ({ g with trials := g.trials ++ [(number, ok)] } : Gate).tried n b =
      g.tried n b + if n = number ∧ b = ok then 1 else 0 := by
  simp only [tried]
  rw [count_append, count_singleton]
  congr 1
  simp only [beq_iff_eq, Prod.mk.injEq]
  exact if_congr ⟨fun h => ⟨h.1.symm, h.2.symm⟩, fun h => ⟨h.1.symm, h.2.symm⟩⟩ rfl rfl

/-- A guess is compared with a code, which then is taken away or has its count put up. -/
theorem trial_sound (h : g.Sound o) (ok : Bool)
    (hcode : (g.keys email).code = some code)
    (hkeys : ∀ code', keys.code = some code' → code' = code ∧ ok = false ∧
      g.tried code.value.number false + 1 < o.maxAttempts ∧
      ∀ now, g.now ≤ now → now ≤ code.deadline → keys.count now = g.tried code.value.number false + 1) :
    ({ g.setKeys email keys with trials := g.trials ++ [(code.value.number, ok)] } : Gate).Sound o := by
  have htracked := h.codes email code hcode
  have hcount := tried_append (g.setKeys email keys) code.value.number
  refine ⟨fun email' code' hcode' => ?_, fun trial htrial => ?_, fun n => ?_, fun n => ?_, fun n => ?_⟩
  · simp only [setKeys] at hcode'
    by_cases heq : email' = email
    · subst heq
      rw [update_self] at hcode'
      obtain ⟨rfl, rfl, hallowed, hcounted⟩ := hkeys code' hcode'
      refine ⟨htracked.issued, htracked.newest, (hcount _ _ _).trans ?_, (hcount _ _ _).trans_lt ?_,
        fun now hle hdeadline => .trans ?_ (hcount _ _ _).symm⟩
      · rw [if_neg (by simp)]
        exact htracked.unused
      · rw [if_pos ⟨rfl, rfl⟩]
        exact hallowed
      · rw [if_pos ⟨rfl, rfl⟩]
        simp only [setKeys, update_self]
        exact hcounted now hle hdeadline
    · rw [update_of_ne heq] at hcode'
      have htracked' := h.codes email' code' hcode'
      refine htracked'.keep le_rfl (update_of_ne heq _ _) (fun _ _ h => h) (fun _ _ h => .inl h)
        fun b => (hcount _ _ _).trans ?_
      rw [if_neg fun h => htracked'.apart htracked heq h.1]
      rfl
  · rcases mem_append.1 htrial with htrial | htrial
    · exact h.known trial htrial
    rw [mem_singleton.1 htrial]
    exact htracked.known
  · refine (hcount _ _ _).trans_le ?_
    split
    · rename_i hn
      rw [hn.1]
      exact htracked.allowed
    · exact h.wrongs n
  · refine (hcount _ _ _).trans_le ?_
    split
    · rename_i hn
      rw [hn.1]
      exact (congrArg (· + 1) htracked.unused).le
    · exact h.rights n
  · exact ((h.paid n).trans (le_add_right _ _)).trans_eq (hcount _ _ _).symm

/-- A count that is there until the code expires has a deadline no earlier, or none. -/
theorem count_lasts {k : VerificationKeys} {n t : ℕ} (hcount : k.count t = n) (hn : n ≠ 0) :
    ∀ now, now ≤ t → ∀ value, ({ k with attempts := some ⟨value, k.attempts.bind (·.deadline)⟩ } :
      VerificationKeys).count now = value := by
  intro now hle value
  unfold VerificationKeys.count at hcount ⊢
  refine if_neg fun hexpired => hn ?_
  obtain ⟨deadline, hdeadline, hlt⟩ := (any_eq_true _ _).1 hexpired
  obtain ⟨a, ha, hda⟩ := bind_eq_some_iff.1 hdeadline
  have hany : a.deadline.any (· < t) = true := by
    rw [hda]
    exact decide_eq_true ((of_decide_eq_true hlt).trans_le hle)
  rw [ha] at hcount
  simp only [hany, if_true] at hcount
  exact hcount.symm

theorem consume_sound (h : g.Sound o)
    (hlasts : ∀ code, (g.keys email).current g.now = some code → code.value.value ≠ guess →
      (g.keys email).count g.now = 0 → code.deadline - g.now < 500 ∨
        (code.deadline - g.now) % 1000 = 0 ∨ 500 ≤ (code.deadline - g.now) % 1000) :
    (g.consume o email guess).1.Sound o := by
  unfold consume trial VerificationKeys.consume
  cases hcurrent : (g.keys email).current g.now with
  | none =>
    simp only [map_none, toList_none, append_nil, setKeys, Function.update_eq_self]
    exact h
  | some code =>
    obtain ⟨hcode, hdeadline⟩ := current_eq hcurrent
    have htracked := h.codes email code hcode
    have hcount := htracked.counted g.now le_rfl hdeadline
    simp only [map_some, toList_some]
    by_cases hguess : code.value.value = guess
    · simp only [hguess, if_true, decide_true]
      exact trial_sound h true hcode (by simp)
    simp only [hguess, if_false, decide_false]
    split
    · exact trial_sound h false hcode (by simp)
    rename_i hallowed
    rw [hcount, not_le] at hallowed
    refine trial_sound h false hcode fun code' hcode' => ?_
    refine ⟨some_inj.1 (hcode'.symm.trans hcode), rfl, hallowed, fun now hle hnow => ?_⟩
    rw [hcount]
    by_cases hzero : g.tried code.value.number false = 0
    · -- the first wrong guess: the counter lives as long as the code, or for ever
      have hround := hlasts code hcurrent hguess (hcount.trans hzero)
      rw [hzero, zero_add, if_pos rfl]
      split
      · rename_i httl
        refine if_neg ?_
        simp only [any_some, decide_eq_true_eq, not_lt]
        unfold ttlSeconds at httl ⊢
        omega
      · rfl
    · rw [if_neg (by omega)]
      exact count_lasts (htracked.counted code.deadline hdeadline le_rfl) hzero now hnow _

/-! ### Requests -/

theorem accepted_set (requests : List GateRequest) (hr : requests[k]? = some r)
    (stage : RequestStage) (n : ℕ) :
    (requests.set k { r with stage }).countP (·.stage = .accepted n) +
        (if r.stage = .accepted n then 1 else 0) =
      requests.countP (·.stage = .accepted n) + if stage = .accepted n then 1 else 0 := by
  induction requests generalizing k with
  | nil => cases hr
  | cons head rest ih =>
    cases k with
    | zero =>
      cases hr
      simp only [set_cons_zero, countP_cons, decide_eq_true_eq]
      omega
    | succ k =>
      have := ih hr
      simp only [set_cons_succ, countP_cons]
      omega

/-- A request that is not authorised, and is not now, changes nothing. -/
theorem stage_sound (h : g.Sound o) (hr : g.requests[k]? = some r)
    {stage : RequestStage} (hstage : ∀ n, stage ≠ .accepted n) : (g.setStage k r stage).Sound o := by
  refine h.quiet le_rfl rfl rfl rfl fun n => ?_
  have hset := accepted_set g.requests hr stage n
  rw [if_neg (hstage n)] at hset
  have hpaid := h.paid n
  simp only [setStage]
  omega

theorem trial_right {n : ℕ} {b : Bool} (h : g.trial email guess = some (n, b)) :
    ∃ code, (g.keys email).code = some code ∧ g.now ≤ code.deadline ∧ code.value.number = n ∧
      b = decide (code.value.value = guess) := by
  obtain ⟨code, hcurrent, heq⟩ := map_eq_some_iff.1 h
  obtain ⟨hcode, hdeadline⟩ := current_eq hcurrent
  cases heq
  exact ⟨code, hcode, hdeadline, rfl, rfl⟩

theorem consuming_sound (h : g.Sound o) (hr : g.requests[k]? = some r)
    (hstage : r.stage = .consuming) (lost : Bool) (hlasts : g.CountLasts (.consume k lost)) :
    ((g.consume o r.email r.verifyCode).1.setStage k r (g.afterConsume r.email r.verifyCode lost)).Sound o := by
  have hsound := consume_sound h (hlasts r hr)
  by_cases hright : ∃ number, g.trial r.email r.verifyCode = some (number, true)
  · obtain ⟨number, htrial⟩ := hright
    refine hsound.quiet le_rfl rfl rfl rfl fun n => ?_
    have hset := accepted_set g.requests hr (g.afterConsume r.email r.verifyCode lost) n
    have hpaid := h.paid n
    have htried : (g.consume o r.email r.verifyCode).1.tried n true =
        g.tried n true + if n = number then 1 else 0 := by
      simp only [consume, htrial, toList_some]
      refine (tried_append (g.setKeys _ _) number n true true).trans ?_
      simp only [and_true]
      rfl
    have hstage' : (if g.afterConsume r.email r.verifyCode lost = .accepted n then 1 else 0) ≤
        if n = number then 1 else 0 := by
      simp only [afterConsume, htrial]
      split_ifs <;> simp_all
    rw [htried]
    simp only [setStage, consume, setKeys]
    rw [hstage, if_neg (by simp)] at hset
    omega
  · refine stage_sound hsound hr fun n => ?_
    unfold afterConsume
    split
    · rename_i number htrial
      exact absurd ⟨number, htrial⟩ hright
    · exact RequestStage.noConfusion

theorem write_sound (h : g.Sound o) {number : ℕ} (hr : g.requests[k]? = some r)
    (hstage : r.stage = .accepted number) (ok : Bool) :
    ({ g.setStage k r .ended with
      writes := if ok then g.writes ++ [(r.kind, number)] else g.writes } : Gate).Sound o := by
  refine h.quiet le_rfl rfl rfl rfl fun n => ?_
  have hset := accepted_set g.requests hr .ended n
  have hpaid := h.paid n
  rw [hstage, if_neg (by simp : ¬RequestStage.ended = .accepted n)] at hset
  simp only [RequestStage.accepted.injEq] at hset
  simp only [setStage]
  cases ok with
  | false => simp only [Bool.false_eq_true, if_false]; omega
  | true =>
    simp only [if_true, countP_append, countP_singleton, decide_eq_true_eq]
    omega

theorem step_sound {e : GateEvent} (h : g.Sound o) (hlasts : g.CountLasts e) (hstep : g.step o e = some g') :
    g'.Sound o := by
  cases e with
  | tick ms =>
    cases hstep
    exact h.quiet (le_add_right _ _) rfl rfl rfl h.paid
  | issue email code =>
    simp only [step] at hstep
    split at hstep
    · rename_i hissued
      cases hstep
      exact issue_sound h (Prod.ext rfl hissued)
    cases hstep
    exact h
  | clear email code =>
    cases hstep
    exact clear_sound h email code
  | request kind email verifyCode =>
    cases hstep
    refine h.quiet le_rfl rfl rfl rfl fun n => ?_
    rw [countP_append, countP_singleton, if_neg (by simp)]
    exact h.paid n
  | checked k ok =>
    simp only [step] at hstep
    split at hstep
    · rename_i r hr
      split at hstep <;> cases hstep
      refine stage_sound h hr fun n => ?_
      split <;> exact RequestStage.noConfusion
    · cases hstep
  | consume k lost =>
    simp only [step] at hstep
    split at hstep
    · rename_i r hr
      split at hstep
      · rename_i hstage
        cases hstep
        exact consuming_sound h hr hstage lost hlasts
      · cases hstep
    · cases hstep
  | write k ok =>
    simp only [step] at hstep
    split at hstep
    · rename_i r hr
      split at hstep <;> cases hstep
      rename_i number hstage
      exact write_sound h hr hstage ok
    · cases hstep

theorem start_sound : Sound o {} :=
  ⟨by simp, by simp, fun _ => zero_le _, fun _ => zero_le _, fun _ => zero_le _⟩

theorem run_sound (h : Path (step o) CountLasts {} g) : g.Sound o :=
  h.invariant start_sound fun _ _ _ _ hs hok hstep => step_sound hs hok hstep

theorem consume_accepts (h : (g.consume o email guess).2 = true) :
    ∃ n, g.trial email guess = some (n, true) := by
  unfold consume VerificationKeys.consume at h
  unfold trial
  cases hcurrent : (g.keys email).current g.now with
  | none => simp [hcurrent] at h
  | some code =>
    refine ⟨code.value.number, ?_⟩
    simp only [hcurrent] at h
    split at h
    · rename_i hguess
      simp [hguess]
    · split at h <;> cases h

end Gate

open Gate

/-- Verification codes resist guessing and are used once. -/
theorem codes_resist_guessing (o : VerificationOptions) {g : Gate} (h : Path (step o) CountLasts {} g) :
    (∀ n, g.tried n false ≤ o.maxAttempts ∧ g.tried n true ≤ 1 ∧ g.writes.countP (·.2 = n) ≤ 1) ∧
    ∀ email guess, (g.consume o email guess).2 = true →
      ∃ n issue, g.trial email guess = some (n, true) ∧ g.issues[n]? = some issue ∧
        issue.email = email ∧ issue.value = guess ∧
        g.tried n true = 0 ∧ g.tried n false < o.maxAttempts ∧
        g.now ≤ issue.issuedAt + o.codeTtlSeconds * 1000 ∧
        ∀ m issue', n < m → g.issues[m]? = some issue' → issue'.email ≠ email := by
  have hsound := run_sound h
  refine ⟨fun n => ⟨hsound.wrongs n, hsound.rights n, ?_⟩, fun email guess haccepts => ?_⟩
  · exact ((le_add_right _ _).trans (hsound.paid n)).trans (hsound.rights n)
  · obtain ⟨n, htrial⟩ := consume_accepts haccepts
    obtain ⟨code, hcode, hdeadline, rfl, hvalue⟩ := trial_right htrial
    have htracked := hsound.codes email code hcode
    obtain ⟨issue, hissue, hemail, hissued, hend⟩ := htracked.issued
    refine ⟨_, issue, htrial, hissue, hemail, ?_, htracked.unused, htracked.allowed, hend ▸ hdeadline,
      htracked.newest⟩
    rw [hissued]
    exact of_decide_eq_true hvalue.symm

/-- A request with a guess, up to its consume. -/
def guessing (email guess : String) (k : ℕ) : List GateEvent :=
  [.request .resetPassword email guess, .checked k true, .consume k false]

/-- A wrong guess, the right one, and the new password. -/
def guessedSecond : List GateEvent :=
  [.issue "ann@imm" "314159", .tick 1500] ++ guessing "ann@imm" "271828" 0 ++
    guessing "ann@imm" "314159" 1 ++ [.write 1 true]

theorem codes_resist_guessing_once : ∃ g : Gate, Path (step .standard) CountLasts {} g ∧
    g.tried 0 false = 1 ∧ g.tried 0 true = 1 ∧ g.writes = [(.resetPassword, 0)] ∧
    g.writes.countP (·.2 = 0) ≤ 1 := by
  have hrun := (any_eq_true _ _).1 (show
    (guessedSecond.foldlM (fun s e => if decide (CountLasts s e) then step .standard s e else none) ({} : Gate)).any
      (fun g => decide (g.tried 0 false = 1 ∧ g.tried 0 true = 1 ∧ g.writes = [(.resetPassword, 0)])) = true by
    decide +kernel)
  obtain ⟨g, hg, hfacts⟩ := hrun
  obtain ⟨hwrong, hright, hwrites⟩ := of_decide_eq_true hfacts
  have hpath := Path.here.checked (fun _ _ h => of_decide_eq_true h) hg
  exact ⟨g, hpath, hwrong, hright, hwrites, ((codes_resist_guessing .standard hpath).1 0).2.2⟩

/-- Four guesses 1400 ms before the end, whose counter lives for one second, and four after that. -/
def guessedTwice : List GateEvent :=
  [.issue "ann@imm" "314159", .tick 178600] ++ [0, 1, 2, 3].flatMap (guessing "ann@imm" "271828") ++
    .tick 1001 :: [4, 5, 6, 7].flatMap (guessing "ann@imm" "271828")

/-- Eight wrong guesses of the five allowed, and the code is still good. -/
theorem attempts_expire_first : ∃ g : Gate, guessedTwice.foldlM (step .standard) {} = some g ∧
    g.tried 0 false = 8 ∧ (g.consume .standard "ann@imm" "314159").2 = true := by
  have hrun := (any_eq_true _ _).1 (show (guessedTwice.foldlM (step .standard) ({} : Gate)).any
    (fun g => decide (g.tried 0 false = 8 ∧ (g.consume .standard "ann@imm" "314159").2 = true)) = true by
      decide +kernel)
  obtain ⟨g, hg, hfacts⟩ := hrun
  exact ⟨g, hg, of_decide_eq_true hfacts⟩

end Imm
