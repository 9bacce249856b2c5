import Imm.Store.Lasting

/-! File rows. Only a finished upload writes them. The first one under an id stores the row with its owner
    and its spelling of the id, and both stay for ever; a later one rewrites the rest of the row. -/

namespace Imm

open Txn SQL MysqlStore

/-- The row that INSERT … ON DUPLICATE KEY UPDATE leaves, where `old` was the row before. -/
def FileObject.over (file : FileObject) : Option FileObject → FileObject
  | some old => { file with
      fileId := old.fileId, ownerUid := old.ownerUid, createdTime := old.createdTime, state := 1 }
  | none => { file with state := 1 }

variable [Collation]

/-- A row is found under the weight of its own id. -/
def Db.Filed (d : Db) : Prop := ∀ k f, d.fileObjects.get k = some f → k = weight f.fileId

section deeds

variable {V : Versions} {t : ℕ} {d : Db} {ls : List (Lock Key)} {o : Operation} {ws : List Write}

theorem Deed.files_cases (h : Deed V t d ls o ws) :
    (applyAll ws d).fileObjects = d.fileObjects ∨
    ∃ file, o = .upsertReadyFile file ∧ (applyAll ws d).fileObjects = d.fileObjects.set
      (weight file.fileId)
        (some (file.stored.over (d.fileObjects.get (weight file.fileId)))) := by
  cases h with
  | idle | apply | answer | befriend | progress | profile | found | requestJoin | reject | welcome
  | welcomeBare | sendGroup => exact .inl rfl
  | unfriend => exact .inl (applyAll_map Db.fileObjects _ _ rfl)
  | sendDirect _ _ hjoins _ _ _ =>
    rw [applyAll_append]
    exact .inl (hjoins.untouched Db.fileObjects rfl)
  | joinDirect _ _ hjoins => exact .inl (hjoins.untouched Db.fileObjects rfl)
  | receive _ _ hreceipt _ => rcases hreceipt with rfl | rfl <;> exact .inl rfl
  | upload hnew => exact .inr ⟨_, rfl, by rw [hnew]; rfl⟩
  | reupload hold => exact .inr ⟨_, rfl, by rw [hold]; rfl⟩
  | leave _ _ _ _ _ _ hstates => rcases hstates with rfl | ⟨rfl, -⟩ <;> exact .inl rfl
  | dissolve => exact .inl (dissolved_rest Db.fileObjects rfl rfl rfl rfl)

theorem Deed.file (h : Deed V t d ls o ws) {k : String} {f : FileObject} (hf : d.fileObjects.get k = some f) :
    ∃ f', (applyAll ws d).fileObjects.get k = some f' ∧ f'.fileId = f.fileId ∧ f'.ownerUid = f.ownerUid := by
  rcases h.files_cases with hsame | ⟨file, -, hset⟩
  · exact ⟨f, hsame ▸ hf, rfl, rfl⟩
  rw [hset, Table.get_set]
  split
  · rename_i hk
    rw [← hk, hf]
    exact ⟨_, rfl, rfl, rfl⟩
  · exact ⟨f, hf, rfl, rfl⟩

/-- A row was there before, or it was written for an upload: over a row with this owner and id, or as the
    upload has them. -/
theorem Deed.file_origin (h : Deed V t d ls o ws) {k : String} {f' : FileObject}
    (hf' : (applyAll ws d).fileObjects.get k = some f') :
    d.fileObjects.get k = some f' ∨ ∃ file, o = .upsertReadyFile file ∧ k = weight file.fileId ∧
      f' = file.stored.over (d.fileObjects.get k) := by
  rcases h.files_cases with hsame | ⟨file, rfl, hset⟩
  · exact .inl (hsame ▸ hf')
  rw [hset, Table.get_set] at hf'
  split at hf'
  · rename_i hk
    subst hk
    exact .inr ⟨file, rfl, rfl, (Option.some.inj hf').symm⟩
  · exact .inl hf'

theorem Deed.filed (h : Deed V t d ls o ws) (hd : d.Filed) : (applyAll ws d).Filed := by
  intro k f' hf'
  rcases h.file_origin hf' with hold | ⟨file, -, hk, rfl⟩
  · exact hd k f' hold
  cases hold : d.fileObjects.get k with
  | none => exact hk.trans (weight_varchar _ _).symm
  | some old => exact hd k old hold

end deeds

section history

variable {A : Operation → Prop} {V : Versions} (h : History A V)

include h

theorem History.file {i j : ℕ} {u v : Version Db Key} (hij : i ≤ j) (hu : V[i]? = some u)
    (hv : V[j]? = some v) {k : String} {f : FileObject} (hf : u.db.fileObjects.get k = some f) :
    ∃ f', v.db.fileObjects.get k = some f' ∧ f'.fileId = f.fileId ∧ f'.ownerUid = f.ownerUid :=
  h.grows (fun _ => ⟨rfl, rfl⟩) (fun h h' => ⟨h'.1.trans h.1, h'.2.trans h.2⟩) (·.file) hij hu hv hf

theorem History.filed (hinit : ∀ v, V[0]? = some v → v.db.Filed) {j : ℕ} {v : Version Db Key}
    (hv : V[j]? = some v) : v.db.Filed :=
  h.invariant hinit (fun _ _ _ _ _ hv _ hpast _ hdeed => hdeed.filed (hpast _ _ (Nat.le_refl _) hv)) j v hv

end history

end Imm
