import Imm.Schemes.Remote
import Imm.Schemes.Table

/-! Session leases in Redis. The device of a user has at most one lease, which expires; every bind
    counts a generation up and stores a new one. The index of a user holds the devices that may have
    one. The three scripts of the Gateway and the single commands of the Message service are atomic. -/

namespace Imm

open Remote

/-- `SessionLease`: who serves a device. -/
structure SessionLease where
  deviceId : String := ""
  gatewayId : String := ""
  instanceId : String := ""
  connectionId : String := ""
  generation : ℕ := 0
  shardId : ℕ := 0
  deriving DecidableEq

/-- A device of a user. -/
abbrev SessionKey := ℤ × String

/-- The keys of Redis that sessions use; times are in milliseconds. -/
structure Redis where
  clock : ℕ := 0
  sessionGeneration : Table SessionKey ℕ := ∅
  session : Table SessionKey (Expiring SessionLease) := ∅
  userSessions : Table ℤ (Expiring (List String)) := ∅

inductive RedisCommand where
  | bindSession (uid : ℤ) (route : SessionLease)
  | refreshSession (uid : ℤ) (route : SessionLease)
  | clearSession (uid : ℤ) (route : SessionLease)
  /-- SMEMBERS im:userSessions:uid -/
  | members (uid : ℤ)
  /-- GET im:session:uid:deviceId -/
  | get (uid : ℤ) (deviceId : String)
  /-- SREM im:userSessions:uid deviceId -/
  | remove (uid : ℤ) (deviceId : String)

inductive RedisReply where
  | bound (generation : ℕ) (previous : Option SessionLease)
  | integer (n : ℕ)
  | lease (value : Option SessionLease)
  | devices (ids : List String)

namespace Redis

/-- GET of a session key -/
def lease (r : Redis) (k : SessionKey) : Option SessionLease := live r.clock (r.session.get k)

/-- SMEMBERS of an index -/
def devices (r : Redis) (uid : ℤ) : List String := (live r.clock (r.userSessions.get uid)).getD []

/-- SETEX with 60 seconds, and EXPIRE where the lease stays the same -/
def storeLease (r : Redis) (k : SessionKey) (l : SessionLease) : Redis :=
  { r with session := r.session.set k (some ⟨l, r.clock + 60 * 1000⟩) }

/-- DEL of a session key -/
def deleteLease (r : Redis) (k : SessionKey) : Redis := { r with session := r.session.set k none }

/-- SADD, then EXPIRE with 120 seconds -/
def addDevice (r : Redis) (uid : ℤ) (deviceId : String) : Redis :=
  let index := ⟨(r.devices uid).insert deviceId, r.clock + 120 * 1000⟩
  { r with userSessions := r.userSessions.set uid (some index) }

/-- SREM, which leaves the deadline of the index as it is -/
def removeDevice (r : Redis) (uid : ℤ) (deviceId : String) : Redis :=
  let index := (r.userSessions.get uid).map fun e => { e with value := e.value.filter (· ≠ deviceId) }
  { r with userSessions := r.userSessions.set uid index }

def bindSession (uid : ℤ) (route : SessionLease) (r : Redis) : RedisReply × Redis :=
  let k := (uid, route.deviceId)
  let previous := r.lease k
  let generation := (r.sessionGeneration.get k).getD 0 + 1
  let counted := { r with sessionGeneration := r.sessionGeneration.set k (some generation) }
  (.bound generation previous,
    (counted.storeLease k { route with generation }).addDevice uid route.deviceId)

/-- The gateway id is not compared. -/
def refreshSession (uid : ℤ) (route : SessionLease) (r : Redis) : RedisReply × Redis :=
  let k := (uid, route.deviceId)
  match r.lease k with
  | none => (.integer 0, r)
  | some lease =>
    if lease.connectionId ≠ route.connectionId ∨ lease.generation ≠ route.generation ∨
        lease.instanceId ≠ route.instanceId ∨ lease.shardId ≠ route.shardId then
      (.integer 0, r)
    else (.integer 1, (r.storeLease k lease).addDevice uid route.deviceId)

/-- Neither the gateway id nor the shard is compared. -/
def clearSession (uid : ℤ) (route : SessionLease) (r : Redis) : RedisReply × Redis :=
  let k := (uid, route.deviceId)
  match r.lease k with
  | none => (.integer 1, r.removeDevice uid route.deviceId)
  | some lease =>
    if lease.connectionId ≠ route.connectionId ∨ lease.generation ≠ route.generation ∨
        lease.instanceId ≠ route.instanceId then
      (.integer 0, r)
    else (.integer 1, (r.deleteLease k).removeDevice uid route.deviceId)

def execute (r : Redis) : RedisCommand → RedisReply × Redis
  | .bindSession uid route => bindSession uid route r
  | .refreshSession uid route => refreshSession uid route r
  | .clearSession uid route => clearSession uid route r
  | .members uid => (.devices (r.devices uid), r)
  | .get uid deviceId => (.lease (r.lease (uid, deviceId)), r)
  | .remove uid deviceId => (.integer 1, r.removeDevice uid deviceId)

def elapse (r : Redis) (ms : ℕ) : Redis := { r with clock := r.clock + ms }

/-! ### Leases and generations -/

variable {r : Redis} {k k' : SessionKey} {uid uid' : ℤ} {deviceId : String} {l route : SessionLease}

@[simp] theorem lease_storeLease :
    (r.storeLease k l).lease k' = if k' = k then some l else r.lease k' := by
  simp only [lease, storeLease, Table.get_set]
  split
  · exact live_fresh _ _ _
  · rfl

@[simp] theorem lease_deleteLease :
    (r.deleteLease k).lease k' = if k' = k then none else r.lease k' := by
  simp only [lease, deleteLease, Table.get_set]
  split <;> rfl

@[simp] theorem lease_addDevice : (r.addDevice uid deviceId).lease k = r.lease k := rfl

@[simp] theorem lease_removeDevice : (r.removeDevice uid deviceId).lease k = r.lease k := rfl

@[simp] theorem generation_storeLease : (r.storeLease k l).sessionGeneration = r.sessionGeneration := rfl

@[simp] theorem generation_deleteLease : (r.deleteLease k).sessionGeneration = r.sessionGeneration := rfl

@[simp] theorem generation_addDevice :
    (r.addDevice uid deviceId).sessionGeneration = r.sessionGeneration := rfl

@[simp] theorem generation_removeDevice :
    (r.removeDevice uid deviceId).sessionGeneration = r.sessionGeneration := rfl

/-- The generation a bind would get. -/
def next (r : Redis) (k : SessionKey) : ℕ := (r.sessionGeneration.get k).getD 0 + 1

/-- What a bind does: it counts up and stores the lease, and tells the lease before. -/
theorem bindSession_spec (uid : ℤ) (route : SessionLease) (r : Redis) :
    (bindSession uid route r).1 =
      .bound (r.next (uid, route.deviceId)) (r.lease (uid, route.deviceId)) ∧
    (∀ k', (bindSession uid route r).2.lease k' =
      if k' = (uid, route.deviceId) then some { route with generation := r.next (uid, route.deviceId) }
      else r.lease k') ∧
    ∀ k', (bindSession uid route r).2.next k' =
      if k' = (uid, route.deviceId) then r.next (uid, route.deviceId) + 1 else r.next k' := by
  refine ⟨rfl, fun k' => ?_, fun k' => ?_⟩
  · simp only [bindSession, lease_addDevice, lease_storeLease, next]
    rfl
  · simp only [bindSession, next, generation_addDevice, generation_storeLease, Table.get_set]
    split <;> rfl

theorem execute_other {c : RedisCommand} (hc : ∀ uid route, c ≠ .bindSession uid route) :
    (∀ k', (r.execute c).2.lease k' = r.lease k' ∨ (r.execute c).2.lease k' = none) ∧
    ∀ k', (r.execute c).2.next k' = r.next k' := by
  cases c with
  | bindSession uid route => exact absurd rfl (hc uid route)
  | refreshSession uid route =>
    simp only [execute, refreshSession]
    split
    · exact ⟨fun _ => .inl rfl, fun _ => rfl⟩
    rename_i lease hlease
    split
    · exact ⟨fun _ => .inl rfl, fun _ => rfl⟩
    refine ⟨fun k' => .inl ?_, fun _ => rfl⟩
    rw [lease_addDevice, lease_storeLease]
    split
    · rename_i h
      rw [h, hlease]
    · rfl
  | clearSession uid route =>
    simp only [execute, clearSession]
    split
    · exact ⟨fun _ => .inl rfl, fun _ => rfl⟩
    split
    · exact ⟨fun _ => .inl rfl, fun _ => rfl⟩
    refine ⟨fun k' => ?_, fun _ => rfl⟩
    rw [lease_removeDevice, lease_deleteLease]
    split
    · exact .inr rfl
    · exact .inl rfl
  | members uid => exact ⟨fun _ => .inl rfl, fun _ => rfl⟩
  | get uid deviceId => exact ⟨fun _ => .inl rfl, fun _ => rfl⟩
  | remove uid deviceId => exact ⟨fun _ => .inl rfl, fun _ => rfl⟩

theorem lease_elapse {ms : ℕ} : (r.elapse ms).lease k = r.lease k ∨ (r.elapse ms).lease k = none := by
  cases h : (r.elapse ms).lease k with
  | none => exact .inr rfl
  | some l => exact .inl (live_earlier (Nat.le_add_right r.clock ms) h).symm

/-- A refresh or a clear with another generation than the stored one does nothing. -/
theorem execute_stale (hl : r.lease (uid, route.deviceId) = some l) (hgen : l.generation ≠ route.generation) :
    r.execute (.refreshSession uid route) = (.integer 0, r) ∧
      r.execute (.clearSession uid route) = (.integer 0, r) := by
  constructor
  · simp [execute, refreshSession, hl, hgen]
  · simp [execute, clearSession, hl, hgen]

/-- A clear takes away only the lease of its own generation. -/
theorem clear_own (hl : r.lease k = some l) (hgone : (r.execute (.clearSession uid route)).2.lease k ≠ some l) :
    k = (uid, route.deviceId) ∧ l.generation = route.generation := by
  by_cases hk : k = (uid, route.deviceId)
  · subst hk
    refine ⟨rfl, by_contra fun hgen => ?_⟩
    rw [(execute_stale hl hgen).2] at hgone
    exact hgone hl
  · refine absurd ?_ hgone
    simp only [execute, clearSession]
    split
    · exact hl
    split
    · exact hl
    rw [lease_removeDevice, lease_deleteLease, if_neg hk]
    exact hl

end Redis

end Imm
