import Imm.Transaction.Commands
import Imm.Store.Groups

/-! Groups under the service. The store lets a master leave a group behind that is not dissolved; the
    handlers never ask for that, so the master of a group is always one of its members. -/

namespace Imm

open Txn SQL MysqlStore

variable [Collation]

theorem Issued.mastersStay {V : Versions} {o : Operation} (h : Issued V o) : MastersStay o := by
  obtain ⟨t, c, hissues⟩ := h
  cases hissues with
  | quitGroup => rintro ⟨⟩
  | kickGroupMember hother => exact fun _ => hother
  | _ => trivial

/-- The membership tables agree and every group has its master, at every version of a run. -/
theorem groups_aligned {d : Db} {s : ServiceStore} (hrun : Serves d s) (haligned : d.Aligned)
    (hmastered : d.Mastered) {v : Version Db Key} (hv : v ∈ s.versions) :
    v.db.Aligned ∧ v.db.Mastered := by
  have hinit : ∀ v, s.versions[0]? = some v → v.db = d := fun v hv => by
    cases hrun.first.symm.trans hv
    rfl
  obtain ⟨j, hj⟩ := List.getElem?_of_mem hv
  exact ⟨hrun.history.aligned (fun v hv => hinit v hv ▸ haligned) hj,
    hrun.history.mastered (fun _ h => h.mastersStay) (fun v hv => hinit v hv ▸ ⟨haligned, hmastered⟩) hj⟩

omit [Collation]

set_option maxRecDepth 4000 in
/-- A group is founded, asked to be joined and joined. -/
theorem groups_aligned_after_join : ∃ s : ServiceStore, @Serves Collation.binary {} s ∧
    (s.cur.db.groupMembers.get (7, 2)).isSome ∧ s.cur.db.Aligned ∧ s.cur.db.Mastered := by
  have hrun : ∃ s : ServiceStore, @Serves .binary {} s ∧ (s.cur.db.groupMembers.get (7, 2)).isSome :=
    ⟨_, ⟨[.begin { actorUid := 1, actorDeviceId := "", request := .createGroup "team" },
      .act 0 1, .act 0 7, .act 0 9, .act 0 0, .act 0 0, .act 0 0, .act 0 0, .act 0 0, .act 0 0, .act 0 0,
      .begin { actorUid := 2, actorDeviceId := "", request := .joinGroup 7 "" },
      .act 1 1, .act 1 0, .act 1 0, .act 1 0, .act 1 0, .act 1 0, .act 1 0,
      .begin { actorUid := 1, actorDeviceId := "", request := .replyJoinGroup 7 2 (some true) },
      .act 2 1, .act 2 0, .act 2 0, .act 2 0, .act 2 0, .act 2 0, .act 2 0, .act 2 0, .act 2 0, .act 2 0], rfl⟩, rfl⟩
  obtain ⟨s, hrun, hmember⟩ := hrun
  refine ⟨s, hrun, hmember, @groups_aligned .binary {} s hrun ?_ ?_ s.cur ?_⟩
  · constructor <;> simp
  · simp [Db.Mastered]
  · simp [Sys.versions]

end Imm
