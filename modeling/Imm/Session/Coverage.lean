import Imm.Session.Fencing

/-! The index of a user's sessions. Both scripts that store a lease put its device into the index and
    let the index outlive the lease. The lookup of the Message service removes a device in two
    commands, a GET that finds no lease and an SREM; a device that logs in between them is lost to all
    pushes. As long as no SREM is carried out while the device has a lease, every lease is covered. -/

namespace Imm

open Remote Steps Table

namespace Redis

variable {r : Redis} {k : SessionKey} {uid : ℤ} {deviceId : String} {l : SessionLease}

/-- Every lease that has not expired is in its user's index, which expires no earlier. -/
structure Covered (r : Redis) : Prop where
  bounded : ∀ k e, r.session.get k = some e → e.deadline ≤ r.clock + 60 * 1000
  indexed : ∀ k e, r.session.get k = some e → r.clock ≤ e.deadline →
    ∃ i, r.userSessions.get k.1 = some i ∧ k.2 ∈ i.value ∧ e.deadline ≤ i.deadline

theorem Covered.devices (h : r.Covered) (hl : r.lease (uid, deviceId) = some l) :
    deviceId ∈ r.devices uid := by
  obtain ⟨deadline, he, hlive⟩ := live_some.1 hl
  obtain ⟨i, hi, hmem, hle⟩ := h.indexed _ _ he hlive
  have hlive' : live r.clock (r.userSessions.get uid) = some i.value :=
    live_some.2 ⟨i.deadline, hi, Nat.le_trans hlive hle⟩
  simpa [Redis.devices, hlive'] using hmem

theorem Covered.store (h : r.Covered) : ((r.storeLease k l).addDevice k.1 k.2).Covered where
  bounded k' e he := by
    simp only [addDevice, storeLease, get_set] at he ⊢
    split at he
    · cases he
      exact Nat.le_refl _
    · exact h.bounded k' e he
  indexed k' e he hlive := by
    simp only [addDevice, storeLease, get_set] at he hlive ⊢
    by_cases hk : k' = k
    · -- the new lease
      subst hk
      rw [if_pos rfl] at he
      cases he
      refine ⟨_, if_pos rfl, List.mem_insert_self, ?_⟩
      simp only
      omega
    · rw [if_neg hk] at he
      obtain ⟨i, hi, hmem, hle⟩ := h.indexed k' e he hlive
      by_cases huid : k'.1 = k.1
      · -- another device of the user: it was in the index, which now expires later still
        have hbound := h.bounded k' e he
        have hdevice : k'.2 ∈ r.devices k.1 := by
          rw [← huid]
          exact h.devices (live_some.2 ⟨_, he, hlive⟩)
        refine ⟨_, if_pos huid, List.mem_insert_of_mem hdevice, ?_⟩
        simp only
        omega
      · exact ⟨i, (if_neg huid).trans hi, hmem, hle⟩

theorem Covered.removeDevice (h : r.Covered) (hnone : r.lease (uid, deviceId) = none) :
    (r.removeDevice uid deviceId).Covered where
  bounded := h.bounded
  indexed k e he hlive := by
    obtain ⟨i, hi, hmem, hle⟩ := h.indexed k e he hlive
    simp only [Redis.removeDevice, get_set]
    by_cases huid : k.1 = uid
    · refine ⟨⟨i.value.filter (· ≠ deviceId), i.deadline⟩, by rw [if_pos huid, ← huid, hi]; rfl, ?_, hle⟩
      refine List.mem_filter.2 ⟨hmem, decide_eq_true ?_⟩
      intro hdev
      have hlease : r.lease k = some e.value := live_some.2 ⟨e.deadline, he, hlive⟩
      rw [show k = (uid, deviceId) from Prod.ext huid hdev, hnone] at hlease
      cases hlease
    · exact ⟨i, (if_neg huid).trans hi, hmem, hle⟩

theorem Covered.deleteLease (h : r.Covered) : (r.deleteLease k).Covered where
  bounded k' e he := by
    simp only [Redis.deleteLease, get_set] at he
    split at he
    · cases he
    · exact h.bounded k' e he
  indexed k' e he := by
    simp only [Redis.deleteLease, get_set] at he
    split at he
    · cases he
    · exact h.indexed k' e he

theorem Covered.elapse (h : r.Covered) (ms : ℕ) : (r.elapse ms).Covered where
  bounded k e he := by
    have := h.bounded k e he
    simp only [Redis.elapse]
    omega
  indexed k e he hlive := h.indexed k e he (Nat.le_trans (Nat.le_add_right _ _) hlive)

/-- All commands keep the leases covered, an SREM if the device has none. -/
theorem Covered.execute (h : r.Covered) {c : RedisCommand}
    (hremove : ∀ uid deviceId, c = .remove uid deviceId → r.lease (uid, deviceId) = none) :
    (r.execute c).2.Covered := by
  cases c with
  | bindSession uid route =>
    have hcounted : ∀ counters, ({ r with sessionGeneration := counters } : Redis).Covered :=
      fun _ => ⟨h.bounded, h.indexed⟩
    exact (hcounted _).store
  | refreshSession uid route =>
    simp only [Redis.execute, refreshSession]
    split
    · exact h
    split
    · exact h
    · exact h.store
  | clearSession uid route =>
    simp only [Redis.execute, clearSession]
    split
    · rename_i hnone
      exact h.removeDevice hnone
    split
    · exact h
    refine h.deleteLease.removeDevice ?_
    rw [lease_deleteLease, if_pos rfl]
  | members uid => exact h
  | get uid deviceId => exact h
  | remove uid deviceId => exact h.removeDevice (hremove uid deviceId rfl)

end Redis

/-- No device is removed from an index while it has a lease. -/
def PrunesInTime (s : Sessions) : SessionEvent → Prop
  | .execute n => ∀ w uid deviceId, s.calls[n]? = some ⟨w, .remove uid deviceId, none⟩ →
      s.redis.lease (uid, deviceId) = none
  | _ => True

theorem Redis.Covered.step {shards : Instance → ℕ} {s s' : Sessions} {ev : SessionEvent}
    (h : s.redis.Covered) (hok : PrunesInTime s ev) (hstep : s.step shards ev = some s') :
    s'.redis.Covered := by
  rcases Sessions.step_redis hstep with ⟨hredis, -⟩ | ⟨ms, rfl⟩ | ⟨n, w, command, rfl, hn, rfl⟩
  · exact hredis ▸ h
  · exact h.elapse ms
  refine h.execute ?_
  rintro uid deviceId rfl
  exact hok w uid deviceId hn

/-- The index covers every live lease, when lookups prune in time. -/
theorem index_covers_leases {shards : Instance → ℕ} {s : Sessions}
    (h : Path (Sessions.step shards) PrunesInTime {} s) {uid : ℤ} {deviceId : String} {l : SessionLease}
    (hl : s.redis.lease (uid, deviceId) = some l) : deviceId ∈ s.redis.devices uid := by
  have hcovered : s.redis.Covered := by
    refine h.invariant (P := fun s => s.redis.Covered) ⟨by simp, by simp⟩ ?_
    exact fun _ _ _ _ hpast hok hstep => hpast.step hok hstep
  exact hcovered.devices hl

/-- A device that has logged in is in the index. -/
theorem index_covers_leases_after_login : ∃ (s : Sessions) (l : SessionLease),
    Path (Sessions.step fun _ => 1) PrunesInTime {} s ∧ s.redis.lease (1, "phone") = some l ∧
      "phone" ∈ s.redis.devices 1 := by
  have hlogin : ∃ (s₀ s : Sessions) (w : Caller) (route l : SessionLease),
      (loggingIn "a" ⟨"g", "i"⟩).foldlM (Sessions.step fun _ => 1) ({} : Sessions) = some s₀ ∧
      s₀.calls[0]? = some ⟨w, .bindSession 1 route, none⟩ ∧ s₀.step (fun _ => 1) (.execute 0) = some s ∧
      s.redis.lease (1, "phone") = some l :=
    ⟨_, _, _, _, _, rfl, rfl, rfl, rfl⟩
  obtain ⟨s₀, s, w, route, l, hrun, hcall, hexec, hl⟩ := hlogin
  have hpath : Path (Sessions.step fun _ => 1) PrunesInTime {} s := by
    refine (Path.here.run (by simp [loggingIn, PrunesInTime]) hrun).next ?_ hexec
    rintro w' uid deviceId hremove
    simp [hcall] at hremove
  exact ⟨s, l, hpath, hl, index_covers_leases hpath hl⟩

/-- The lease of a device expires, a lookup finds none, the device logs in, and then the lookup
    removes it. -/
def prunedLate : List SessionEvent :=
  loggingIn "a" ⟨"g", "i"⟩ ++ [.execute 0, .elapse 60001, .lookup 1, .execute 1, .lookupResume 0,
    .execute 2, .lookupResume 0] ++ loggingIn "b" ⟨"g", "i"⟩ ++ [.execute 4, .execute 3]

theorem index_misses_lease : ∃ (s : Sessions) (l : SessionLease), s.Runs (fun _ => 1) ∧
    s.redis.lease (1, "phone") = some l ∧ "phone" ∉ s.redis.devices 1 :=
  ⟨_, _, ⟨prunedLate, rfl⟩, rfl, by decide⟩

end Imm
