import Imm.Io.Queue
import Mathlib.Algebra.BigOperators.Group.List.Basic

/-! What the queue owes its callers. Every admitted operation is in one place: pending, in the hands of one
    consumer, or completed; calls of the backend are made in the order of admission, so an operation is
    executed once at most, and its promise is completed with what its own call resolved to, or with `stopped`
    when no call was made. The units of `_bytes` are those of the pending operations. -/

namespace Imm

open List

variable {Op R : Type}

/-! ### Replacing one consumer -/

theorem filterMap_cons_toList {α β : Type} (f : α → Option β) (a : α) (l : List α) :
    (a :: l).filterMap f = (f a).toList ++ l.filterMap f := by
  cases h : f a <;> simp [h]

/-- What the replaced element gave leaves and what the new one gives joins. -/
theorem filterMap_set_perm {α β : Type} (f : α → Option β) (b : α) : ∀ {l : List α} {i : ℕ} {a : α},
    l[i]? = some a → ((f a).toList ++ (l.set i b).filterMap f).Perm ((f b).toList ++ l.filterMap f)
  | [], _, _, h => by simp at h
  | x :: l, 0, a, h => by
    obtain rfl : x = a := by simpa using h
    rw [set_cons_zero, filterMap_cons_toList, filterMap_cons_toList]
    exact perm_append_comm_assoc _ _ _
  | x :: l, i + 1, a, h => by
    rw [set_cons_succ, filterMap_cons_toList, filterMap_cons_toList]
    refine (perm_append_comm_assoc _ _ _).trans (.trans ?_ (perm_append_comm_assoc _ _ _))
    exact (filterMap_set_perm f b (by simpa using h)).append_left _

namespace OperationQueue

variable {q u : OperationQueue Op R}

variable {i k wakes : ℕ} {c c' : Consumer Op} {job : Job Op} {operation : Op}

theorem executing_set_idle (hc : q.consumers[i]? = some c) (hidle : c.job? = none) (hidle' : c'.job? = none) :
    ((q.consumers.set i c').filterMap Consumer.job?).Perm q.executing := by
  simpa [executing, hidle, hidle'] using filterMap_set_perm Consumer.job? c' hc

theorem executing_set_takes (hc : q.consumers[i]? = some c)
    (hidle : c.job? = none) (hjob : c'.job? = some job) :
    ((q.consumers.set i c').filterMap Consumer.job?).Perm (job :: q.executing) := by
  simpa [executing, hidle, hjob] using filterMap_set_perm Consumer.job? c' hc

theorem executing_set_leaves (hc : q.consumers[i]? = some c)
    (hjob : c.job? = some job) (hidle : c'.job? = none) :
    (job :: (q.consumers.set i c').filterMap Consumer.job?).Perm q.executing := by
  simpa [executing, hidle, hjob] using filterMap_set_perm Consumer.job? c' hc

theorem executing_wake (q : OperationQueue Op R) :
    (q.consumers.map Consumer.wake).filterMap Consumer.job? = q.executing := by
  rw [executing, filterMap_map]
  congr 1
  funext c
  cases c <;> rfl

/-! ### The invariant -/

structure Sound (q : OperationQueue Op R) : Prop where
  units : q.bytes + q.held = q.config.limits.bytes
  room : q.pending.length ≤ q.config.limits.pending
  closed : q.accepting = false → q.pending = []
  crew : q.consumers.length ≤ q.config.limits.concurrency
  balanced : Tickets.Balanced ((q.pending ++ q.executing).map Job.ticket) (q.completions.map Prod.fst)
    q.admitted.length
  ordered : (q.calls.map BackendCall.ticket ++ q.pending.map Job.ticket).Pairwise (· < ·)
  owned : ∀ job ∈ q.pending, q.admitted[job.ticket]? = some job.operation
  called : ∀ call ∈ q.calls, q.admitted[call.ticket]? = some call.operation
  awaits : ∀ (job : Job Op) (k : ℕ), .executing job k ∈ q.consumers →
    ∃ outcome, q.calls[k]? = some ⟨job.ticket, job.operation, outcome⟩
  executed : ∀ (n : ℕ) (outcome : R), (n, .executed outcome) ∈ q.completions →
    ∃ operation, ⟨n, operation, some outcome⟩ ∈ q.calls
  stopped : ∀ n : ℕ, (n, QueueResult.stopped) ∈ q.completions → ∀ call ∈ q.calls, call.ticket ≠ n

theorem sound_new (config : QueueConfig Op) : Sound ({ config } : OperationQueue Op R) where
  units := rfl
  room := Nat.zero_le _
  closed _ := rfl
  crew := Nat.zero_le _
  balanced := Tickets.balanced_nil
  ordered := List.Pairwise.nil
  owned := by simp
  called := by simp
  awaits := by simp
  executed := by simp
  stopped := by simp

theorem Sound.consumers (h : Sound q) {cs : List (Consumer Op)} {signalled accepting : Bool}
    (hclosed : accepting = false → q.accepting = false) (hlen : cs.length ≤ q.config.limits.concurrency)
    (hjobs : (cs.filterMap Consumer.job?).Perm q.executing)
    (hmem : ∀ (job : Job Op) (k : ℕ), Consumer.executing job k ∈ cs → Consumer.executing job k ∈ q.consumers) :
    Sound { q with consumers := cs, signalled := signalled, accepting := accepting } where
  units := h.units
  room := h.room
  closed hacc := h.closed (hclosed hacc)
  crew := hlen
  balanced := h.balanced.move (((hjobs.append_left _).map _).append_right _)
  ordered := h.ordered
  owned := h.owned
  called := h.called
  awaits job k hk := h.awaits job k (hmem job k hk)
  executed := h.executed
  stopped := h.stopped

theorem executing_mem_set {cs : List (Consumer Op)}
    (hc : c.job? = none) (h : Consumer.executing job k ∈ cs.set i c) : Consumer.executing job k ∈ cs := by
  rcases mem_or_eq_of_mem_set h with h | rfl
  · exact h
  · cases hc

theorem Sound.set_idle (h : Sound q) {signalled : Bool}
    (hc : q.consumers[i]? = some c) (hidle : c.job? = none) (hidle' : c'.job? = none) :
    Sound { q with consumers := q.consumers.set i c', signalled := signalled } := by
  refine h.consumers (fun hacc => hacc) (by simpa using h.crew) (executing_set_idle hc hidle hidle') ?_
  intro job k hk
  exact executing_mem_set hidle' hk

theorem Sound.start (h : Sound q) : Sound q.start := by
  unfold OperationQueue.start
  split
  · exact h
  rename_i hidle
  obtain ⟨-, hnil⟩ : q.accepting = false ∧ q.consumers = [] := by simpa using hidle
  refine h.consumers (by simp) (by simp) ?_ ?_
  · simp [executing, hnil, filterMap_replicate, Consumer.job?]
  · intro job k hk
    cases eq_of_mem_replicate hk

theorem refuses_eq_none (h : q.refuses operation = none) :
    q.accepting = true ∧ q.pending.length < q.config.limits.pending ∧ q.config.size operation ≤ q.bytes := by
  unfold refuses at h
  split at h
  · cases h
  split at h
  · cases h
  · simp_all

theorem Sound.lt_admitted (h : Sound q) {n : ℕ}
    (hn : n ∈ q.calls.map BackendCall.ticket ++ q.pending.map Job.ticket) : n < q.admitted.length := by
  have hsome : ∃ operation, q.admitted[n]? = some operation := by
    rcases mem_append.1 hn with hn | hn
    · obtain ⟨call, hcall, rfl⟩ := mem_map.1 hn
      exact ⟨_, h.called call hcall⟩
    obtain ⟨job, hjob, rfl⟩ := mem_map.1 hn
    exact ⟨_, h.owned job hjob⟩
  obtain ⟨operation, hop⟩ := hsome
  exact (List.getElem?_eq_some_iff.1 hop).1

theorem Sound.push (h : Sound q) (hopen : q.refuses operation = none) :
    Sound (q.push operation) := by
  obtain ⟨hacc, hroom, hunits⟩ := refuses_eq_none hopen
  have hkeep : ∀ {n : ℕ} {op : Op}, q.admitted[n]? = some op → (q.admitted ++ [operation])[n]? = some op := by
    intro n op hop
    rw [List.getElem?_append_left (List.getElem?_eq_some_iff.1 hop).1, hop]
  refine ⟨?_, ?_, ?_, h.crew, ?_, ?_, ?_, ?_, h.awaits, h.executed, h.stopped⟩
  · have := h.units
    simp only [OperationQueue.push, held, map_append, sum_append] at this ⊢
    simp only [map_cons, map_nil, sum_cons, sum_nil]
    omega
  · simpa [OperationQueue.push] using Nat.succ_le_of_lt hroom
  · intro hclosed
    exact absurd (hacc.symm.trans hclosed) (by decide)
  · have hissue := h.balanced.issue
    have hlen : (q.push operation).admitted.length = q.admitted.length + 1 := by simp [OperationQueue.push]
    rw [hlen]
    refine hissue.move (List.Perm.append_right _ ?_)
    simp only [OperationQueue.push, executing, map_append, append_assoc, map_cons, map_nil]
    exact perm_append_comm.append_left _
  · simp only [OperationQueue.push, map_append, map_cons, map_nil, ← append_assoc]
    refine pairwise_append.2 ⟨h.ordered, pairwise_singleton _ _, ?_⟩
    intro n hn m hm
    obtain rfl := mem_singleton.1 hm
    exact h.lt_admitted hn
  · intro job hjob
    rcases mem_append.1 hjob with hjob | hjob
    · exact hkeep (h.owned job hjob)
    obtain rfl := mem_singleton.1 hjob
    simp [OperationQueue.push]
  · exact fun call hcall => hkeep (h.called call hcall)

theorem Sound.signal (h : Sound q) (hu : q.signal wakes = some u) : Sound u := by
  unfold OperationQueue.signal at hu
  split at hu
  · split at hu
    · cases hu
      exact h.set_idle ‹_› rfl rfl
    · cases hu
  · cases hu
    exact h.consumers (fun hacc => hacc) h.crew (List.Perm.refl _) fun _ _ hk => hk

theorem Sound.submit (h : Sound q) (hu : q.submit operation wakes = some u) :
    Sound u := by
  unfold OperationQueue.submit at hu
  split at hu
  · cases hu
    exact h
  · exact (h.push ‹_›).signal hu

theorem Sound.execute (h : Sound q) {rest : List (Job Op)}
    (hc : q.consumers[i]? = some .scheduled) (hpending : q.pending = job :: rest) :
    Sound (q.execute i job rest) := by
  have hroom := h.room
  have hunits := h.units
  have howned := h.owned
  have hbalanced := h.balanced
  have hordered := h.ordered
  rw [hpending] at hroom howned hbalanced hordered
  simp only [held, hpending, map_cons, sum_cons] at hunits
  have hnot : (job.ticket, .stopped) ∉ q.completions := by
    intro hmem
    exact hbalanced.notMem (mem_map_of_mem hmem) (by simp)
  refine ⟨?_, ?_, ?_, ?_, ?_, ?_, ?_, ?_, ?_, ?_, ?_⟩
  · simp only [OperationQueue.execute, held]
    omega
  · simp only [length_cons] at hroom
    exact Nat.le_of_succ_le hroom
  · intro hclosed
    exact absurd (h.closed hclosed) (by simp [hpending])
  · simpa [OperationQueue.execute] using h.crew
  · refine hbalanced.move (.append_right _ (.map _ ?_))
    refine (List.Perm.append_left _ (executing_set_takes hc rfl rfl)).trans ?_
    exact perm_middle
  · simpa [OperationQueue.execute] using hordered
  · exact fun job' hjob' => howned job' (mem_cons_of_mem _ hjob')
  · intro call hcall
    rcases mem_append.1 hcall with hcall | hcall
    · exact h.called call hcall
    obtain rfl := mem_singleton.1 hcall
    exact howned job mem_cons_self
  · intro job' k hk
    rcases mem_or_eq_of_mem_set hk with hk | hk
    · obtain ⟨outcome, hcall⟩ := h.awaits job' k hk
      refine ⟨outcome, ?_⟩
      exact (List.getElem?_append_left (List.getElem?_eq_some_iff.1 hcall).1).trans hcall
    cases hk
    exact ⟨none, by simp [OperationQueue.execute]⟩
  · intro n outcome hn
    obtain ⟨operation, hcall⟩ := h.executed n outcome hn
    exact ⟨operation, mem_append_left _ hcall⟩
  · intro n hn call hcall
    rcases mem_append.1 hcall with hcall | hcall
    · exact h.stopped n hn call hcall
    obtain rfl := mem_singleton.1 hcall
    rintro rfl
    exact hnot hn

theorem Sound.resume (h : Sound q) (hu : q.resume i = some u) : Sound u := by
  unfold OperationQueue.resume at hu
  split at hu
  · rename_i hc
    cases hu
    unfold consume
    split
    · split
      · exact h.set_idle hc rfl rfl
      · exact h.execute hc ‹_›
    · exact h.set_idle hc rfl rfl
  · cases hu

theorem Sound.resolve (h : Sound q) {outcome : R} (hu : q.resolve k outcome = some u) : Sound u := by
  unfold OperationQueue.resolve at hu
  split at hu
  · rename_i ticket operation hk
    cases hu
    have hold : (⟨ticket, operation, none⟩ : BackendCall Op R) ∈ q.calls := mem_of_getElem? hk
    -- the call keeps its ticket and its operation, and had no outcome before
    have hcalls : ∀ (j : ℕ) (call : BackendCall Op R), q.calls[j]? = some call → j ≠ k →
        (q.calls.set k ⟨ticket, operation, some outcome⟩)[j]? = some call := by
      intro j call hj hne
      rw [getElem?_set_ne hne.symm, hj]
    refine ⟨h.units, h.room, h.closed, h.crew, h.balanced, ?_, h.owned, ?_, ?_, ?_, ?_⟩
    · have htickets : (q.calls.set k ⟨ticket, operation, some outcome⟩).map BackendCall.ticket
          = q.calls.map BackendCall.ticket := by
        obtain ⟨hlt, hget⟩ := List.getElem?_eq_some_iff.1 hk
        have hself := @List.set_getElem_self _ (q.calls.map BackendCall.ticket) k (by simpa using hlt)
        rw [getElem_map, hget] at hself
        rw [map_set]
        exact hself
      rw [htickets]
      exact h.ordered
    · intro call hcall
      rcases mem_or_eq_of_mem_set hcall with hcall | rfl
      · exact h.called call hcall
      · exact h.called ⟨ticket, operation, none⟩ hold
    · intro job j hj
      obtain ⟨r, hcall⟩ := h.awaits job j hj
      rcases eq_or_ne j k with rfl | hne
      · rw [hk] at hcall
        cases hcall
        exact ⟨some outcome, by simp [(List.getElem?_eq_some_iff.1 hk).1]⟩
      · exact ⟨r, hcalls j _ hcall hne⟩
    · intro n r hn
      obtain ⟨op, hcall⟩ := h.executed n r hn
      obtain ⟨j, hj⟩ := getElem?_of_mem hcall
      have hne : j ≠ k := by
        rintro rfl
        rw [hk] at hj
        cases hj
      exact ⟨op, mem_of_getElem? (hcalls j _ hj hne)⟩
    · intro n hn call hcall
      rcases mem_or_eq_of_mem_set hcall with hcall | rfl
      · exact h.stopped n hn call hcall
      · exact h.stopped n hn ⟨ticket, operation, none⟩ hold
  · cases hu

theorem Sound.finish (h : Sound q) (hu : q.finish i = some u) : Sound u := by
  unfold OperationQueue.finish at hu
  split at hu
  · rename_i job k hc
    split at hu
    · rename_i outcome houtcome
      cases hu
      have hleaves : (job :: (q.consumers.set i .scheduled).filterMap Consumer.job?).Perm q.executing :=
        executing_set_leaves hc rfl rfl
      obtain ⟨r, hcall⟩ := h.awaits job k (mem_of_getElem? hc)
      obtain rfl : r = some outcome := by simpa [hcall] using houtcome
      have hmem : (⟨job.ticket, job.operation, some outcome⟩ : BackendCall Op R) ∈ q.calls :=
        mem_of_getElem? hcall
      refine ⟨h.units, h.room, h.closed, ?_, ?_, h.ordered, h.owned, h.called, ?_, ?_, ?_⟩
      · simpa using h.crew
      · refine h.balanced.move ?_
        simp only [map_append, append_assoc, map_cons, map_nil]
        refine .append_left _ ?_
        refine .trans ?_ ((hleaves.map Job.ticket).append_right _)
        rw [← append_assoc]
        exact perm_append_singleton _ _
      · intro job' k' hk'
        exact h.awaits job' k' (executing_mem_set rfl hk')
      · intro n r hn
        rcases mem_append.1 hn with hn | hn
        · exact h.executed n r hn
        cases mem_singleton.1 hn
        exact ⟨job.operation, hmem⟩
      · intro n hn
        rcases mem_append.1 hn with hn | hn
        · exact h.stopped n hn
        · cases mem_singleton.1 hn
    · cases hu
  · cases hu

theorem Sound.beginStop (h : Sound q) : Sound q.beginStop := by
  refine ⟨h.units, Nat.zero_le _, fun _ => rfl, ?_, ?_, ?_, ?_, h.called, ?_, ?_, ?_⟩
  · simpa [OperationQueue.beginStop] using h.crew
  · refine h.balanced.move ?_
    have htickets : (q.beginStop.completions.map Prod.fst)
        = q.completions.map Prod.fst ++ q.pending.map Job.ticket := by
      simp [OperationQueue.beginStop, Function.comp_def]
    have hexecuting : q.beginStop.pending ++ q.beginStop.executing = q.executing := executing_wake q
    rw [htickets, hexecuting, map_append, ← append_assoc, append_assoc _ _ (q.completions.map _)]
    exact perm_append_comm
  · simpa [OperationQueue.beginStop] using (pairwise_append.1 h.ordered).1
  · simp [OperationQueue.beginStop]
  · intro job k hk
    obtain ⟨c, hc, hwake⟩ := mem_map.1 hk
    cases c <;> cases hwake
    exact h.awaits job k hc
  · intro n r hn
    rcases mem_append.1 hn with hn | hn
    · exact h.executed n r hn
    · simp at hn
  · intro n hn call hcall
    rcases mem_append.1 hn with hn | hn
    · exact h.stopped n hn call hcall
    -- a pending operation comes after every call
    obtain ⟨job, hjob, heq⟩ := mem_map.1 hn
    cases heq
    exact ((pairwise_append.1 h.ordered).2.2 _ (mem_map_of_mem hcall) _ (mem_map_of_mem hjob)).ne

theorem Sound.stop (h : Sound q) (hu : q.stop = some u) : Sound u := by
  unfold OperationQueue.stop at hu
  split at hu
  · rename_i hreturned
    cases hu
    have hnone : q.executing = [] := by
      refine filterMap_eq_nil_iff.2 fun c hc => ?_
      have hret : c.hasReturned = true := by
        simp only [Bool.and_eq_true, all_eq_true] at hreturned
        exact hreturned.2 c hc
      cases c <;> first | rfl | cases hret
    refine h.consumers (fun hacc => hacc) (Nat.zero_le _) ?_ ?_
    · rw [hnone]
      exact List.Perm.refl _
    · intro job k hk
      cases hk
  · cases hu

theorem Sound.step (h : Sound q) (e : QueueEvent Op R) (hu : q.step e = some u) : Sound u := by
  cases e with
  | start => cases hu; exact h.start
  | submit operation wakes => exact h.submit hu
  | resume i => exact h.resume hu
  | resolve k outcome => exact h.resolve hu
  | finish i => exact h.finish hu
  | beginStop => cases hu; exact h.beginStop
  | stop => exact h.stop hu

/-! ### Whole runs -/

/-- What one step does to the promises; the configuration stays. -/
theorem step_completions (e : QueueEvent Op R) (hu : q.step e = some u) :
    u.config = q.config ∧
    (u.completions = q.completions ∨
      (∃ (n : ℕ) (outcome : R), u.completions = q.completions ++ [(n, .executed outcome)]) ∨
      (e = .beginStop ∧ u = q.beginStop)) := by
  cases e with
  | start =>
    cases hu
    unfold OperationQueue.start
    split <;> exact ⟨rfl, .inl rfl⟩
  | submit operation wakes =>
    simp only [step, OperationQueue.submit, OperationQueue.signal] at hu
    split at hu
    · cases hu
      exact ⟨rfl, .inl rfl⟩
    split at hu
    · split at hu <;> cases hu
      exact ⟨rfl, .inl rfl⟩
    cases hu
    exact ⟨rfl, .inl rfl⟩
  | resume i =>
    simp only [step, OperationQueue.resume] at hu
    split at hu <;> cases hu
    unfold consume
    split
    · split <;> exact ⟨rfl, .inl rfl⟩
    · exact ⟨rfl, .inl rfl⟩
  | resolve k outcome =>
    simp only [step, OperationQueue.resolve] at hu
    split at hu <;> cases hu
    exact ⟨rfl, .inl rfl⟩
  | finish i =>
    simp only [step, OperationQueue.finish] at hu
    split at hu
    · split at hu <;> cases hu
      exact ⟨rfl, .inr (.inl ⟨_, _, rfl⟩)⟩
    · cases hu
  | beginStop =>
    cases hu
    exact ⟨rfl, .inr (.inr ⟨rfl, rfl⟩)⟩
  | stop =>
    simp only [step, OperationQueue.stop] at hu
    split at hu <;> cases hu
    exact ⟨rfl, .inl rfl⟩

/-- Only the pending operations of a `begin_stop` are answered `stopped`. -/
theorem stopped_by_beginStop {e : QueueEvent Op R} (hu : q.step e = some u) {n : ℕ}
    (hn : (n, .stopped) ∈ u.completions) (hnew : (n, .stopped) ∉ q.completions) :
    e = .beginStop ∧ n ∈ q.pending.map Job.ticket := by
  obtain ⟨-, hsame | ⟨m, outcome, hdone⟩ | ⟨rfl, rfl⟩⟩ := step_completions e hu
  · exact absurd (hsame ▸ hn) hnew
  · simp [hdone, hnew] at hn
  refine ⟨rfl, ?_⟩
  rcases mem_append.1 hn with hn | hn
  · exact absurd hn hnew
  obtain ⟨job, hjob, heq⟩ := mem_map.1 hn
  cases heq
  exact mem_map_of_mem hjob

theorem sound_run (config : QueueConfig Op) {es : List (QueueEvent Op R)}
    (hrun : es.foldlM step ({ config } : OperationQueue Op R) = some q) : Sound q ∧ q.config = config := by
  refine Steps.run_invariant (P := fun q => Sound q ∧ q.config = config) ⟨sound_new config, rfl⟩ ?_ hrun
  intro t e u ht hu
  exact ⟨ht.1.step e hu, (step_completions e hu).1.trans ht.2⟩

/-- A queue that keeps its word to its callers within its limits. -/
structure Delivers (limits : QueueLimits) (q : OperationQueue Op R) : Prop where
  /-- A refused submission changes nothing. -/
  refused : ∀ (operation : Op) (wakes : ℕ), q.refuses operation ≠ none →
    q.step (.submit operation wakes) = some q
  /-- An admitted operation is pending, or held by one consumer, or completed, and that once. -/
  once : ∀ n < q.admitted.length,
    ((q.pending ++ q.executing).map Job.ticket ++ q.completions.map Prod.fst).count n = 1
  /-- Nothing is left without its completion when the queue has stopped. -/
  drained : q.accepting = false → q.consumers = [] →
    ∀ n < q.admitted.length, (q.completions.map Prod.fst).count n = 1
  /-- The calls are of admitted operations, in the order of admission, one at most for each. -/
  inOrder : (q.calls.map BackendCall.ticket).Pairwise (· < ·)
  called : ∀ call ∈ q.calls, q.admitted[call.ticket]? = some call.operation
  /-- The result of an executed operation is that of its own call. -/
  executed : ∀ (n : ℕ) (outcome : R), (n, .executed outcome) ∈ q.completions →
    ∃ operation, q.admitted[n]? = some operation ∧ ⟨n, operation, some outcome⟩ ∈ q.calls
  /-- An operation answered `stopped` was never handed to the backend. -/
  stopped : ∀ n : ℕ, (n, .stopped) ∈ q.completions → ∀ call ∈ q.calls, call.ticket ≠ n
  /-- `begin_stop` answers `stopped` to what is pending, and nothing else is answered so. -/
  stops : ∀ job ∈ q.pending, (job.ticket, .stopped) ∈ q.beginStop.completions
  onlyStops : ∀ (e : QueueEvent Op R) (u : OperationQueue Op R), q.step e = some u → ∀ n : ℕ,
    (n, .stopped) ∈ u.completions → (n, .stopped) ∉ q.completions →
    e = .beginStop ∧ n ∈ q.pending.map Job.ticket
  pending_le : q.pending.length ≤ limits.pending
  executing_le : q.executing.length ≤ limits.concurrency
  bytes_eq : q.bytes + q.held = limits.bytes

theorem refused_unchanged (wakes : ℕ) (h : q.refuses operation ≠ none) :
    q.step (.submit operation wakes) = some q := by
  simp only [step, submit]
  split
  · rfl
  · exact absurd ‹_› h

theorem Sound.delivers (h : Sound q) : Delivers q.config.limits q where
  refused _ wakes hrefused := refused_unchanged wakes hrefused
  once _ hn := h.balanced.count hn
  drained hstopped hnone n hn := by
    have hcount := h.balanced.count hn
    rw [h.closed hstopped, executing, hnone] at hcount
    simpa using hcount
  inOrder := (pairwise_append.1 h.ordered).1
  called := h.called
  executed n outcome hn := by
    obtain ⟨operation, hcall⟩ := h.executed n outcome hn
    exact ⟨operation, h.called _ hcall, hcall⟩
  stopped := h.stopped
  stops job hjob := mem_append_right _ (mem_map.2 ⟨job, hjob, rfl⟩)
  onlyStops _ _ hu _ hn hnew := stopped_by_beginStop hu hn hnew
  pending_le := h.room
  executing_le := (length_filterMap_le _ _).trans h.crew
  bytes_eq := h.units

/-- Whatever the callers, the backend and the scheduler do, the queue completes every admitted operation once
    and stays within its limits. -/
theorem operations_complete_once (config : QueueConfig Op) (es : List (QueueEvent Op R))
    (hrun : es.foldlM step ({ config } : OperationQueue Op R) = some q) : Delivers config.limits q := by
  obtain ⟨hsound, rfl⟩ := sound_run config hrun
  exact hsound.delivers

/-- A queue of two pending operations and one consumer, whose operations are their own sizes. -/
def smallQueue : QueueConfig ℕ where
  limits := { pending := 2, bytes := 10, concurrency := 1 }
  size := fun operation => operation
  remembers := true

/-- The first operation is executed, the third is refused for its size, and the second is still pending when
    the queue stops. -/
def smallRun : List (QueueEvent ℕ String) :=
  [.start, .resume 0, .submit 4 0, .submit 6 0, .submit 5 0, .resume 0, .resolve 0 "ok", .beginStop, .finish 0,
    .resume 0, .stop]

theorem operations_complete_once_small :
    ∃ q : OperationQueue ℕ String, smallRun.foldlM step { config := smallQueue } = some q ∧
      q.admitted = [4, 6] ∧ q.completions = [(1, .stopped), (0, .executed "ok")] ∧
      Delivers smallQueue.limits q :=
  ⟨_, rfl, rfl, rfl, operations_complete_once smallQueue smallRun rfl⟩

/-! ### Wake-ups -/

/-- Who waits, and who is about to run. While admission is open the consumers are all there; a consumer begins
    to wait only when nothing is pending, and what joins the queue wakes one if any waits. -/
structure Manned (q : OperationQueue Op R) : Prop where
  crew : q.accepting = true → q.consumers ≠ []
  loops : q.accepting = true → ∀ c ∈ q.consumers, c.hasReturned = false
  attended : q.accepting = true → q.pending ≠ [] → ∃ c ∈ q.consumers, c.isWaiting = false
  woken : q.accepting = false → ∀ c ∈ q.consumers, c.isWaiting = false

theorem manned_new (config : QueueConfig Op) : Manned ({ config } : OperationQueue Op R) where
  crew h := by cases h
  loops h := by cases h
  attended h := by cases h
  woken _ := by simp

theorem Manned.start (h : Manned q) : Manned q.start := by
  unfold OperationQueue.start
  split
  · exact h
  have hpos := q.config.limits.concurrency_pos
  refine ⟨fun _ => ?_, fun _ c hc => ?_, fun _ _ => ?_, fun hacc => by cases hacc⟩
  · simpa using hpos.ne'
  · rw [eq_of_mem_replicate hc]
    rfl
  · exact ⟨.scheduled, mem_replicate.2 ⟨hpos.ne', rfl⟩, rfl⟩

/-- Admission makes work, and wakes a consumer for it unless none waits. -/
theorem Manned.submit (h : Manned q) (hu : q.submit operation wakes = some u) :
    Manned u := by
  unfold OperationQueue.submit at hu
  split at hu
  · cases hu
    exact h
  rename_i hopen
  obtain ⟨hacc, -, -⟩ := refuses_eq_none hopen
  unfold OperationQueue.signal at hu
  split at hu
  · split at hu
    · rename_i hwakes
      cases hu
      have hlt : wakes < q.consumers.length := (List.getElem?_eq_some_iff.1 hwakes).1
      have hmem : Consumer.scheduled ∈ q.consumers.set wakes .scheduled := mem_set hlt _
      refine ⟨fun _ => ne_nil_of_mem hmem, fun _ c hc => ?_, fun _ _ => ⟨_, hmem, rfl⟩, ?_⟩
      · rcases mem_or_eq_of_mem_set hc with hc | rfl
        · exact h.loops hacc c hc
        · rfl
      · intro hclosed
        exact absurd (hacc.symm.trans hclosed) (by decide)
    · cases hu
  · rename_i hnone
    cases hu
    refine ⟨h.crew, h.loops, fun _ _ => ?_, h.woken⟩
    obtain ⟨c, hc⟩ := exists_mem_of_ne_nil _ (h.crew hacc)
    exact ⟨c, hc, by simpa using fun hw => hnone (any_eq_true.2 ⟨c, hc, hw⟩)⟩

theorem Manned.resume (h : Manned q) (hu : q.resume i = some u) : Manned u := by
  unfold OperationQueue.resume at hu
  split at hu
  · rename_i hc
    cases hu
    have hlt : i < q.consumers.length := (List.getElem?_eq_some_iff.1 hc).1
    have hne : ∀ c : Consumer Op, q.consumers.set i c ≠ [] := fun c => ne_nil_of_mem (mem_set hlt c)
    unfold consume
    split
    · rename_i hacc
      have hloops : ∀ c : Consumer Op, c.hasReturned = false →
          ∀ c' ∈ q.consumers.set i c, c'.hasReturned = false := by
        intro c hc c' hc'
        rcases mem_or_eq_of_mem_set hc' with hc' | rfl
        · exact h.loops hacc c' hc'
        · exact hc
      split
      · rename_i hempty
        refine ⟨fun _ => hne _, fun _ => hloops _ rfl, fun _ hpending => absurd hempty hpending, ?_⟩
        intro hclosed
        exact absurd (hacc.symm.trans hclosed) (by decide)
      · refine ⟨fun _ => hne _, fun _ => hloops _ rfl, fun _ _ => ⟨_, mem_set hlt _, rfl⟩, ?_⟩
        intro hclosed
        exact absurd (hacc.symm.trans hclosed) (by decide)
    · rename_i hacc
      refine ⟨fun hopen => absurd hopen hacc, fun hopen => absurd hopen hacc, fun hopen => absurd hopen hacc, ?_⟩
      intro hclosed c hc
      rcases mem_or_eq_of_mem_set hc with hc | rfl
      · exact h.woken hclosed c hc
      · rfl
  · cases hu

theorem Manned.resolve (h : Manned q) {outcome : R} (hu : q.resolve k outcome = some u) :
    Manned u := by
  unfold OperationQueue.resolve at hu
  split at hu <;> cases hu
  exact ⟨h.crew, h.loops, h.attended, h.woken⟩

theorem Manned.finish (h : Manned q) (hu : q.finish i = some u) : Manned u := by
  unfold OperationQueue.finish at hu
  split at hu
  · rename_i job k hc
    split at hu <;> cases hu
    have hmem : Consumer.scheduled ∈ q.consumers.set i .scheduled :=
      List.mem_set (List.getElem?_eq_some_iff.1 hc).1 _
    refine ⟨fun _ => ne_nil_of_mem hmem, ?_, fun _ _ => ⟨_, hmem, rfl⟩, ?_⟩
    · intro hacc c hc
      rcases mem_or_eq_of_mem_set hc with hc | rfl
      · exact h.loops hacc c hc
      · rfl
    · intro hacc c hc
      rcases mem_or_eq_of_mem_set hc with hc | rfl
      · exact h.woken hacc c hc
      · rfl
  · cases hu

theorem wake_isWaiting (c : Consumer Op) : c.wake.isWaiting = false := by cases c <;> rfl

theorem Manned.beginStop (q : OperationQueue Op R) : Manned q.beginStop := by
  refine ⟨?_, ?_, ?_, ?_⟩
  · rintro ⟨⟩
  · rintro ⟨⟩
  · rintro ⟨⟩
  · intro _ c hc
    obtain ⟨c', -, rfl⟩ := mem_map.1 hc
    exact wake_isWaiting c'

theorem Manned.stop (hu : q.stop = some u) : Manned u := by
  unfold OperationQueue.stop at hu
  split at hu
  · rename_i hstopped
    cases hu
    have hacc : ¬ q.accepting = true := by simp_all
    refine ⟨fun h => absurd h hacc, fun h => absurd h hacc, fun h => absurd h hacc, fun _ => by simp⟩
  · cases hu

theorem Manned.step (h : Manned q) (e : QueueEvent Op R) (hu : q.step e = some u) : Manned u := by
  cases e with
  | start => cases hu; exact h.start
  | submit operation wakes => exact h.submit hu
  | resume i => exact h.resume hu
  | resolve k outcome => exact h.resolve hu
  | finish i => exact h.finish hu
  | beginStop => cases hu; exact .beginStop q
  | stop => exact .stop hu

/-- While admission is open, pending work always has a consumer that will look at the queue: one that is about
    to run or one that executes an operation. `begin_stop` wakes every consumer that waits. -/
theorem pending_never_stranded (config : QueueConfig Op) (es : List (QueueEvent Op R))
    (hrun : es.foldlM step ({ config } : OperationQueue Op R) = some q) :
    (q.accepting = true → q.pending ≠ [] →
      ∃ c ∈ q.consumers, c = .scheduled ∨ ∃ (job : Job Op) (call : ℕ), c = .executing job call) ∧
    (∀ i : ℕ, q.consumers[i]? = some .waiting → q.beginStop.consumers[i]? = some .scheduled) ∧
    (q.accepting = false → .waiting ∉ q.consumers) := by
  have hmanned : Manned q :=
    Steps.run_invariant (manned_new config) (fun _ e _ ht hu => ht.step e hu) hrun
  refine ⟨?_, ?_, ?_⟩
  · intro hacc hpending
    obtain ⟨c, hc, hrun⟩ := hmanned.attended hacc hpending
    have hloops := hmanned.loops hacc c hc
    refine ⟨c, hc, ?_⟩
    cases c with
    | scheduled => exact .inl rfl
    | waiting => cases hrun
    | executing job call => exact .inr ⟨job, call, rfl⟩
    | returned => cases hloops
  · intro i hi
    simp [OperationQueue.beginStop, hi, Consumer.wake]
  · intro hacc hwaiting
    cases hmanned.woken hacc _ hwaiting

/-- Both operations are pending when one consumer has been woken and none has run since. -/
theorem pending_never_stranded_small :
    ∃ q : OperationQueue ℕ String,
      [.start, .resume 0, .submit 4 0, .submit 6 0].foldlM step { config := smallQueue } = some q ∧
      q.accepting = true ∧ q.pending.length = 2 ∧
      ∃ c ∈ q.consumers, c = .scheduled ∨ ∃ (job : Job ℕ) (call : ℕ), c = .executing job call :=
  ⟨_, rfl, rfl, rfl, (pending_never_stranded smallQueue [.start, .resume 0, .submit 4 0, .submit 6 0] rfl).1 rfl
    (cons_ne_nil _ _)⟩

end OperationQueue

end Imm
