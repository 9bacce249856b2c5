import Imm.File.Transfer
import Imm.Schemes.Paths
import Imm.Store.Files
import Imm.Transaction.Commands

/-! Ready files and their objects. The Message shards keep the row of a ready file, the File service its
    bytes. The File service tells objects apart by the user and the exact id; the table has one row for all
    ids that the database takes for equal, whose owner and spelling are those of the first upload and whose
    size and digest are those of the last. The owner is looked at before the row is written, in a statement
    of its own. Rows and objects agree as long as uploads that meet in one row are of one user, in one
    spelling, or come after the row so that the look at the owner turns them away. -/

namespace Imm

open Txn SQL MysqlStore List Option

/-! ### Objects -/

namespace FileService

variable {p : Platform} {s : Storage} {uid size : ℤ} {fileId sha256 : String}

/-- The object of `uid` and `fileId` has been published and is of this size, with this digest. -/
structure Storage.Holds (s : Storage) (p : Platform) (uid : ℤ) (fileId : String) (size : ℤ)
    (sha256 : String) : Prop where
  uid_pos : 0 < uid
  safe : safeId fileId = true
  object : ∃ content, s.files (objectKey uid fileId) = some content ∧ (content.length : ℤ) = size ∧
    p.digest content = sha256

theorem Storage.Holds.execute (h : s.Holds p uid fileId size sha256) (q : Request) :
    (s.execute p q).2.Holds p uid fileId size sha256 := by
  obtain ⟨hpos, hsafe, content, hobject, hcontent⟩ := h
  have hslot : (s.execute p q).2.slot ⟨uid, fileId, hpos, hsafe⟩ = s.slot ⟨uid, fileId, hpos, hsafe⟩ := by
    rcases slot_execute p s q ⟨uid, fileId, hpos, hsafe⟩ with hsame | ⟨r, -, -, -, hchange⟩
    · exact hsame
    · exact hchange.published hobject
  exact ⟨hpos, hsafe, content, (congrArg Slot.object hslot).trans hobject, hcontent⟩

/-- The ids of objects are as long as their column. -/
theorem safeId_varchar (h : safeId fileId = true) : varchar 36 fileId = fileId := by
  have hle : ∀ l : List Char, (String.ofList l).length ≤ (String.ofList l).utf8ByteSize := fun l => by
    induction l using List.reverseRecOn with
    | nil => simp
    | append_singleton l c ih =>
      have hpush : String.ofList (l ++ [c]) = (String.ofList l).push c := String.toList_inj.1 (by simp)
      rw [hpush, String.utf8ByteSize_push, String.length_push]
      exact Nat.add_le_add ih c.utf8Size_pos
  have hlength := hle fileId.toList
  simp only [String.ofList_toList] at hlength
  simp only [safeId, Bool.and_eq_true, beq_iff_eq] at h
  exact varchar_fits (by omega)

theorem Storage.holds_of_success {r : UploadRequest} {a : UploadResponse}
    (ha : (s.execute p (.upload r)).1 = .ok (.upload a)) (hok : a.status = .SUCCESS) :
    (s.execute p (.upload r)).2.Holds p r.userId r.info.fileId r.info.fileSize r.info.sha256 := by
  by_cases hvalid : r.valid = true
  · obtain ⟨k, hk⟩ := UploadRequest.exists_key hvalid
    have hpath := UploadRequest.path_eq hk
    rw [execute_upload hvalid hk] at ha ⊢
    cases ha
    obtain ⟨content, hobject, hsize, hdigest⟩ := Slot.receive_success hok
    simp only [UploadRequest.valid, Bool.and_eq_true, decide_eq_true_eq] at hvalid
    refine ⟨by tauto, by tauto, content, ?_, ?_, hdigest⟩
    · rw [hpath]
      exact (congrArg Slot.object (Storage.slot_put_self _ _ _)).trans hobject
    · have hnonneg : 0 ≤ r.info.fileSize := by tauto
      omega
  · rw [Storage.execute, if_neg hvalid] at ha
    cases ha
    cases hok

end FileService

/-- Every row of a ready file describes the object that its owner has published under its id. -/
def FilesDescribed (p : FileService.Platform) (storage : FileService.Storage) (d : Db) : Prop :=
  ∀ k f, d.fileObjects.get k = some f → f.state = 1 →
    storage.Holds p f.ownerUid f.fileId f.fileSize f.sha256

/-! ### The two services -/

/-- The Message shards over their database, the files, and what the File service has answered. -/
structure Services where
  storage : FileService.Storage
  answers : List (FileService.UploadRequest × FileService.UploadResponse) := []
  store : ServiceStore

inductive ServicesEvent where
  /-- the File service handles a request -/
  | file (request : FileService.Request)
  /-- a session of a Message shard begins, or goes on by one action -/
  | store (event : Event Command)

/-- The call of the File service that a command makes. -/
def Command.call (c : Command) : Option FileService.UploadRequest :=
  match c.request with
  | .fileUpload _ (some file) offset data complete => some (Files.uploadRequest c file offset data complete)
  | _ => none

/-- An upload goes by an answer that the File service has given to its call; a call that brings no answer
    has failed. -/
def Services.answered (s : Services) : Event Command → Bool
  | .begin c => c.call.all fun r => decide (c.uploaded.status = .FAILED ∨ (r, c.uploaded) ∈ s.answers)
  | _ => true

variable [Collation]

def Services.step (p : FileService.Platform) (s : Services) : ServicesEvent → Option Services
  | .file q =>
    some { s with
      storage := (s.storage.execute p q).2
      answers := match q, (s.storage.execute p q).1 with
        | .upload r, .ok (.upload a) => (r, a) :: s.answers
        | _, _ => s.answers }
  | .store ev =>
    if s.answered ev then (s.store.step Service.process ev).map fun store => { s with store } else none

omit [Collation] in
/-- The file whose upload a command completes. -/
def Command.stores (c : Command) : Option FileInfo :=
  match c.request with
  | .fileUpload _ (some file) _ _ true =>
    if 0 < c.actorUid ∧ c.uploaded.status = .SUCCESS then some file else none
  | _ => none

/-- When a completed upload begins, a row under its id is another user's or has its very spelling; and if
    there is no row, nobody else has completed an upload under the id so far, nor its user in another
    spelling. -/
def BeginsApart (s : ServiceStore) (c : Command) : Prop :=
  ∀ file ∈ c.stores,
    (∀ f ∈ s.cur.db.fileObjects.get (weight file.fileId),
      f.ownerUid = c.actorUid → f.fileId = file.fileId) ∧
    (s.cur.db.fileObjects.get (weight file.fileId) = none →
      ∀ σ ∈ s.sessions, ∀ file' ∈ σ.op.stores, weight file'.fileId = weight file.fileId →
        σ.op.actorUid = c.actorUid ∧ file'.fileId = file.fileId)

def IdsApart (s : Services) : ServicesEvent → Prop
  | .store (.begin c) => BeginsApart s.store c
  | _ => True

instance (s : Services) : DecidablePred (IdsApart s)
  | .store (.begin c) => inferInstanceAs (Decidable (∀ file ∈ c.stores, _))
  | .store (.act _ _) | .store (.fault _ _) | .store (.orphan _ _ _) | .file _ => .isTrue trivial

/-! ### Sessions of uploads -/

omit [Collation] in
theorem Command.Stores.stores {c : Command} {file : FileInfo} (h : c.Stores file) : c.stores = some file := by
  obtain ⟨hpos, hok, packet, offset, data, hreq⟩ := h
  simp [Command.stores, hreq, hpos, hok]

omit [Collation] in
theorem Command.call_of_stores {c : Command} {file : FileInfo} (h : c.stores = some file) :
    c.uploaded.status = .SUCCESS ∧ ∃ r, c.call = some r ∧ r.userId = c.actorUid ∧
      r.info.fileId = file.fileId ∧ r.info.fileSize = file.fileSize ∧ r.info.sha256 = file.sha256 := by
  unfold Command.stores at h
  split at h
  · rename_i packet file' offset data hreq
    split at h
    · rename_i hcond
      cases h
      exact ⟨hcond.2, Files.uploadRequest c file offset data true, by simp [Command.call, hreq],
        rfl, rfl, rfl, rfl⟩
    · cases h
  · cases h

/-- There was no row under the key when version `b` was current. -/
def FreeAt (V : Versions) (b : ℕ) (k : String) : Prop :=
  ∀ w, V[b]? = some w → w.db.fileObjects.get k = none

/-- What is known of the sessions whose uploads are complete. -/
structure UploadsApart (s : ServiceStore) : Prop where
  spelled : ∀ σ ∈ s.sessions, ∀ file ∈ σ.op.stores, ∀ w, s.versions[σ.began]? = some w →
    ∀ f, w.db.fileObjects.get (weight file.fileId) = some f → f.ownerUid = σ.op.actorUid →
      f.fileId = file.fileId
  alone : ∀ σ ∈ s.sessions, ∀ τ ∈ s.sessions, ∀ file ∈ σ.op.stores, ∀ file' ∈ τ.op.stores,
    weight file'.fileId = weight file.fileId →
    FreeAt s.versions σ.began (weight file.fileId) →
    FreeAt s.versions τ.began (weight file.fileId) →
    τ.op.actorUid = σ.op.actorUid ∧ file'.fileId = file.fileId

section sessions

variable {d : Db} {s s' : ServiceStore} {ev : Event Command}

theorem Serves.began_step (hrun : Serves d s) (hstep : s.step Service.process ev = some s')
    {σ' : Session Db Key Write Outcome Command} (hσ' : σ' ∈ s'.sessions) :
    (∃ σ ∈ s.sessions, σ'.op = σ.op ∧ s'.versions[σ'.began]? = s.versions[σ.began]?) ∨
      ev = .begin σ'.op ∧ s'.versions[σ'.began]? = some s.cur := by
  have hprefix := Sys.versions_step hstep
  rcases (Sys.sessions_step hstep).1 σ' hσ' with ⟨σ, hσ, hop, hbegan⟩ | ⟨hev, hbegan⟩
  · have hle := hrun.coherent.began_le σ hσ
    have hlt : σ.began < s.versions.length := by
      simp only [Sys.versions, Sys.now, length_append, length_singleton] at hle ⊢
      omega
    refine .inl ⟨σ, hσ, hop, ?_⟩
    rw [hbegan, getElem?_eq_getElem hlt]
    exact Sys.past_of_prefix hprefix (getElem?_eq_getElem hlt)
  · rw [hbegan]
    exact .inr ⟨hev, Sys.past_of_prefix hprefix s.cur_now⟩

theorem UploadsApart.step (h : UploadsApart s) (hrun : Serves d s) (hok : ∀ c, ev = .begin c → BeginsApart s c)
    (hstep : s.step Service.process ev = some s') : UploadsApart s' := by
  refine ⟨fun σ' hσ' file hfile w hw f hf howner => ?_, fun σ' hσ' τ' hτ' file hfile file' hfile' hweight hfree
    hfree' => ?_⟩
  · rcases hrun.began_step hstep hσ' with ⟨σ, hσ, hop, hbegan⟩ | ⟨hev, hbegan⟩
    · rw [hop] at hfile howner
      exact h.spelled σ hσ file hfile w (hbegan ▸ hw) f hf howner
    cases hbegan.symm.trans hw
    exact (hok _ hev file hfile).1 f hf howner
  · unfold FreeAt at hfree hfree'
    rcases hrun.began_step hstep hσ' with ⟨σ, hσ, hop, hbegan⟩ | ⟨hev, hbegan⟩ <;>
      rcases hrun.began_step hstep hτ' with ⟨τ, hτ, hop', hbegan'⟩ | ⟨hev', hbegan'⟩
    · rw [hop] at hfile ⊢
      rw [hop'] at hfile' ⊢
      rw [hbegan] at hfree
      rw [hbegan'] at hfree'
      exact h.alone σ hσ τ hτ file hfile file' hfile' hweight hfree hfree'
    · rw [hop] at hfile ⊢
      obtain ⟨huid, hid⟩ := (hok _ hev' file' hfile').2 (hweight ▸ hfree' _ hbegan') σ hσ file hfile hweight.symm
      exact ⟨huid.symm, hid.symm⟩
    · rw [hop'] at hfile' ⊢
      exact (hok _ hev file hfile).2 (hfree _ hbegan) τ hτ file' hfile' hweight
    · -- only one session begins
      obtain hop := Event.begin.inj (hev.symm.trans hev')
      rw [hop] at hfile ⊢
      cases mem_def.1 hfile |>.symm.trans hfile'
      exact ⟨rfl, rfl⟩

/-! ### Rows of a run -/

/-- A row that was not there at version `i` was stored by an upload whose id was free when it began. -/
theorem Serves.file_origin (hrun : Serves d s) {k : String} {i : ℕ} (hfree : FreeAt s.versions i k) :
    ∀ {j : ℕ} {v : Version Db Key} {f : FileObject}, i ≤ j → s.versions[j]? = some v →
      v.db.fileObjects.get k = some f → ∃ σ ∈ s.sessions, ∃ file ∈ σ.op.stores,
        k = weight file.fileId ∧ FreeAt s.versions σ.began k ∧ f.ownerUid = σ.op.actorUid ∧
        f.fileId = varchar 36 file.fileId := by
  intro j v f hij hv hf
  induction j, hij using Nat.le_induction generalizing v f with
  | base => cases (hfree v hv).symm.trans hf
  | succ j hij ih =>
    have hlt : j < s.versions.length := Nat.lt_of_succ_lt (List.getElem?_eq_some_iff.1 hv).1
    have hu : s.versions[j]? = some s.versions[j] := getElem?_eq_getElem hlt
    cases hold : s.versions[j].db.fileObjects.get k with
    | some f₀ =>
      obtain ⟨f₁, hf₁, hid, howner⟩ := hrun.history.file (Nat.le_succ j) hu hv hold
      cases hf₁.symm.trans hf
      rw [hid, howner]
      exact ih hu hold
    | none =>
      obtain ⟨σ, hσ, hbegan, o, ws, hissues, hdeed, hdb, -⟩ := hrun.maker hu hv
      rw [hdb] at hf
      rcases hdeed.file_origin hf with hsame | ⟨file, rfl, rfl, rfl⟩
      · cases hold.symm.trans hsame
      cases hissues with
      | ready hstores =>
        rw [hold]
        refine ⟨σ, hσ, _, hstores.stores, rfl, fun w hw => ?_, rfl, rfl⟩
        cases hrow : w.db.fileObjects.get (weight (Files.object σ.op _).fileId) with
        | none => rfl
        | some f₀ =>
          obtain ⟨f₁, hf₁, -⟩ := hrun.history.file hbegan hw hu hrow
          cases hold.symm.trans hf₁

/-- An upload writes its data into a row of its own user and id only. -/
theorem UploadsApart.own_row (h : UploadsApart s) (hrun : Serves d s)
    {σ : Session Db Key Write Outcome Command} (hσ : σ ∈ s.sessions) {file : FileInfo}
    (hfile : σ.op.stores = some file) {j : ℕ} {v : Version Db Key} (hbegan : σ.began ≤ j)
    (hv : s.versions[j]? = some v) (hseen : OwnerSeen s.versions (Files.object σ.op file) σ.began j)
    (hkept : ∀ τ ∈ s.sessions, ∀ file ∈ τ.op.stores, varchar 36 file.fileId = file.fileId) {f : FileObject}
    (hf : v.db.fileObjects.get (weight file.fileId) = some f) :
    f.ownerUid = σ.op.actorUid ∧ f.fileId = file.fileId := by
  have hlt : σ.began < s.versions.length := Nat.lt_of_le_of_lt hbegan (List.getElem?_eq_some_iff.1 hv).1
  have hw : s.versions[σ.began]? = some s.versions[σ.began] := getElem?_eq_getElem hlt
  cases hrow : s.versions[σ.began].db.fileObjects.get (weight file.fileId) with
  | some f₀ =>
    -- the row was there to be looked at
    obtain ⟨i, u, hi, -, hu, howner⟩ := hseen
    obtain ⟨f₁, hf₁, -, howner₁⟩ := hrun.history.file hi hw hu hrow
    obtain ⟨f₂, hf₂, hid₂, howner₂⟩ := hrun.history.file hbegan hw hv hrow
    cases hf₂.symm.trans hf
    have huid : f₀.ownerUid = σ.op.actorUid := howner₁ ▸ howner f₁ hf₁
    exact ⟨howner₂.trans huid, hid₂.trans (h.spelled σ hσ file hfile _ hw f₀ hrow huid)⟩
  | none =>
    have hfree : FreeAt s.versions σ.began (weight file.fileId) := by
      intro w hw'
      cases hw.symm.trans hw'
      exact hrow
    obtain ⟨τ, hτ, file', hfile', hweight, hfree', huid, hid⟩ := hrun.file_origin hfree hbegan hv hf
    obtain ⟨hactor, hspell⟩ := h.alone σ hσ τ hτ file hfile file' hfile' hweight.symm hfree hfree'
    exact ⟨huid.trans hactor, (hid.trans (hkept τ hτ file' hfile')).trans hspell⟩

end sessions

/-! ### Rows and objects -/

/-- What is known of the answers and of the sessions that go by them. -/
structure Services.Sound (p : FileService.Platform) (d : Db) (s : Services) : Prop where
  serves : Serves d s.store
  first : FilesDescribed p s.storage d
  told : ∀ r a, (r, a) ∈ s.answers → a.status = .SUCCESS →
    s.storage.Holds p r.userId r.info.fileId r.info.fileSize r.info.sha256
  holds : ∀ σ ∈ s.store.sessions, ∀ file ∈ σ.op.stores,
    s.storage.Holds p σ.op.actorUid file.fileId file.fileSize file.sha256
  apart : UploadsApart s.store

section services

variable {p : FileService.Platform} {d : Db} {s s' : Services}

theorem Services.Sound.file_step (h : s.Sound p d) (q : FileService.Request)
    (hstep : s.step p (.file q) = some s') : s'.Sound p d := by
  cases hstep
  refine ⟨h.serves, fun k f hf hstate => (h.first k f hf hstate).execute q, fun r a hmem hok => ?_,
    fun σ hσ file hfile => (h.holds σ hσ file hfile).execute q, h.apart⟩
  split at hmem
  · rename_i r' a' hanswer
    rcases mem_cons.1 hmem with heq | hold
    · cases heq
      exact FileService.Storage.holds_of_success hanswer hok
    · exact (h.told r a hold hok).execute (.upload r')
  · exact (h.told r a hmem hok).execute _

theorem Services.Sound.store_step (h : s.Sound p d) {ev : Event Command} (hok : IdsApart s (.store ev))
    (hstep : s.step p (.store ev) = some s') : s'.Sound p d := by
  simp only [Services.step] at hstep
  split at hstep
  · rename_i hanswered
    obtain ⟨store, hstore, rfl⟩ := map_eq_some_iff.1 hstep
    refine ⟨h.serves.next hstore, h.first, h.told, fun σ' hσ' file hfile => ?_, h.apart.step h.serves ?_ hstore⟩
    · rcases h.serves.began_step hstore hσ' with ⟨σ, hσ, hop, -⟩ | ⟨hev, -⟩
      · rw [hop] at hfile ⊢
        exact h.holds σ hσ file hfile
      -- the upload begins with an answer of the File service
      obtain ⟨hsuccess, r, hcall, huid, hid, hsize, hsha⟩ := Command.call_of_stores hfile
      simp only [hev, Services.answered, hcall, all_some, decide_eq_true_eq, hsuccess] at hanswered
      have hheld := h.told r _ (hanswered.resolve_left (by simp)) hsuccess
      rwa [huid, hid, hsize, hsha] at hheld
    · rintro c rfl
      exact hok
  · cases hstep

/-- Every version describes the objects that are there now. -/
theorem Services.Sound.described (h : s.Sound p d) (j : ℕ) :
    ∀ v, s.store.versions[j]? = some v → FilesDescribed p s.storage v.db := by
  induction j with
  | zero =>
    intro v hv
    cases h.serves.first.symm.trans hv
    exact h.first
  | succ j ih =>
    intro v hv k f hf hstate
    have hlt : j < s.store.versions.length := Nat.lt_of_succ_lt (List.getElem?_eq_some_iff.1 hv).1
    have hu : s.store.versions[j]? = some s.store.versions[j] := getElem?_eq_getElem hlt
    obtain ⟨σ, hσ, hbegan, o, ws, hissues, hdeed, hdb, hseen⟩ := h.serves.maker hu hv
    rw [hdb] at hf
    by_cases hwrites : ws = []
    · subst hwrites
      exact ih _ hu k f hf hstate
    rcases hdeed.file_origin hf with hsame | ⟨file, rfl, rfl, rfl⟩
    · exact ih _ hu k f hsame hstate
    cases hissues with
    | @ready file hstores =>
      have hheld := h.holds σ hσ file hstores.stores
      have hkept : ∀ τ ∈ s.store.sessions, ∀ file ∈ τ.op.stores, varchar 36 file.fileId = file.fileId :=
        fun τ hτ file hfile => FileService.safeId_varchar (h.holds τ hτ file hfile).safe
      cases hold : s.store.versions[j].db.fileObjects.get (weight (Files.object σ.op file).fileId) with
      | none =>
        simpa only [FileObject.over, FileObject.stored, Files.object, hkept σ hσ file hstores.stores] using hheld
      | some old =>
        obtain ⟨huid, hid⟩ := h.apart.own_row h.serves hσ hstores.stores hbegan hu (hseen _ rfl hwrites)
          hkept hold
        simp only [FileObject.over, huid, hid]
        exact hheld

end services

/-- While uploads that meet in one row are of one user and in one spelling, or are turned away, the row of
    every ready file describes its object. -/
theorem files_described {p : FileService.Platform} {storage : FileService.Storage} {d : Db} {s : Services}
    (hd : FilesDescribed p storage d)
    (h : Steps.Path (Services.step p) IdsApart ⟨storage, [], Sys.init d⟩ s) :
    FilesDescribed p s.storage s.store.cur.db := by
  have hsound : s.Sound p d := by
    refine h.invariant ?_ fun s ev s' _ hs hok hstep => ?_
    · exact ⟨⟨[], rfl⟩, hd, by simp, by simp [Sys.init], ⟨by simp [Sys.init], by simp [Sys.init]⟩⟩
    · cases ev with
      | file q => exact hs.file_step q hstep
      | store ev => exact hs.store_step hok hstep
  exact hsound.described _ _ s.store.cur_now

/-! ### Small files -/

namespace FileService

/-- All of a file in one request. -/
def wholeUpload (k : Key) (data : Bytes) : UploadRequest where
  file := some { fileId := k.id, fileName := "a.bin", fileType := "a/b", fileSize := data.length,
                 sha256 := lengthDigest data }
  userId := k.uid
  offset := 0
  data := data
  complete := true

end FileService

open FileService (smallDisk noFiles wholeUpload lengthDigest)

/-- The command of a user who uploads a file in one request. -/
def storing (k : FileService.Key) (data : FileService.Bytes) : Command where
  actorUid := k.uid
  actorDeviceId := ""
  request := .fileUpload .complete (some {
    fileId := k.id, fileName := "a.bin", fileType := "a/b", fileSize := data.length
    sha256 := lengthDigest data }) 0 data true
  uploaded := { userId := k.uid, nextOffset := data.length }

theorem Services.step_whole (s : Services) {k : FileService.Key} {data : FileService.Bytes}
    (hvalid : (wholeUpload k data).valid = true) (hfree : s.storage.slot k = {}) :
    s.step smallDisk (.file (.upload (wholeUpload k data))) = some { s with
      storage := s.storage.put k { object := some data }
      answers := (wholeUpload k data, (storing k data).uploaded) :: s.answers } := by
  have hreceive : (s.storage.slot k).receive smallDisk.digest (wholeUpload k data)
      = ((storing k data).uploaded, { object := some data }) := by
    rw [hfree]
    simp [FileService.Slot.receive, FileService.Slot.stored, wholeUpload, FileService.UploadRequest.info, storing,
      smallDisk]
  simp only [Services.step, FileService.execute_upload hvalid rfl, hreceive]

omit [Collation]

def planKey : FileService.Key := ⟨1, "0f8fad5b-d9cb-469f-a165-70867728950e", by decide, by decide⟩

/-- The id of another user's file. -/
def rivalKey : FileService.Key := ⟨2, planKey.id, by decide, by decide⟩

/-- The id in another spelling. -/
def shoutedKey : FileService.Key := ⟨1, "0F8FAD5B-D9CB-469F-A165-70867728950E", by decide, by decide⟩

def plan : Command := storing planKey [72, 105]

def rival : Command := storing rivalKey [72, 105, 33]

def shouted : Command := storing shoutedKey [72, 105, 33]

/-- The numbers of an upload: its lease holds, and every call is let through. -/
def storingNumbers : List ℕ := [1, 0, 0, 0, 0, 0, 0]

/-- Nothing has been uploaded. -/
def noUploads : Services := ⟨noFiles, [], Sys.init {}⟩

/-- The File service has the first file. -/
def planUploaded : Services where
  storage := noFiles.put planKey { object := some [72, 105] }
  answers := [(wholeUpload planKey [72, 105], plan.uploaded)]
  store := Sys.init {}

theorem plan_uploaded : let _ := Collation.ascii
    noUploads.step smallDisk (.file (.upload (wholeUpload planKey [72, 105]))) = some planUploaded := by
  let _ := Collation.ascii
  exact Services.step_whole noUploads (by decide +kernel) rfl

theorem files_described_plan :
    let _ := Collation.ascii
    ∃ s : Services, Steps.Path (Services.step smallDisk) IdsApart noUploads s ∧
      (s.store.cur.db.fileObjects.get planKey.id).any (fun f => decide (f.state = 1)) = true ∧
      FilesDescribed smallDisk s.storage s.store.cur.db := by
  let _ := Collation.ascii
  have heval : (((handled 0 plan storingNumbers).map .store).foldlM
      (fun s ev => if decide (IdsApart s ev) then s.step smallDisk ev else none) planUploaded).any
      (fun s => (s.store.cur.db.fileObjects.get planKey.id).any fun f => decide (f.state = 1)) = true := by
    decide +kernel
  obtain ⟨s, hrun, hready⟩ := (any_eq_true _ _).1 heval
  have hpath : Steps.Path (Services.step smallDisk) IdsApart noUploads s :=
    (Steps.Path.here.next trivial plan_uploaded).checked (fun _ _ h => of_decide_eq_true h) hrun
  exact ⟨s, hpath, hready, files_described (by simp [FilesDescribed]) hpath⟩

/-- Both look at the owner while there is no row; then both write it. -/
def racing : List (Event Command) :=
  [.begin plan, .begin rival] ++ (storingNumbers.take 6).map (.act 0) ++ (storingNumbers.take 6).map (.act 1) ++
    [.act 0 0, .act 1 0]

/-- One user, one upload after the other. -/
def respelling : List (Event Command) := handled 0 plan storingNumbers ++ handled 1 shouted storingNumbers

/-- The File service has the files of `planKey` and of `k`. -/
def bothUploaded (k : FileService.Key) : Services where
  storage := (noFiles.put planKey { object := some [72, 105] }).put k { object := some [72, 105, 33] }
  answers := [(wholeUpload k [72, 105, 33], (storing k [72, 105, 33]).uploaded),
    (wholeUpload planKey [72, 105], plan.uploaded)]
  store := Sys.init {}

/-- The uploads of both files, and then what the Message shards do. -/
def afterUploads (k : FileService.Key) (evs : List (Event Command)) : List ServicesEvent :=
  .file (.upload (wholeUpload planKey [72, 105])) :: .file (.upload (wholeUpload k [72, 105, 33])) ::
    evs.map .store

theorem afterUploads_run {k : FileService.Key} (hvalid : (wholeUpload k [72, 105, 33]).valid = true)
    (hfree : planUploaded.storage.slot k = {}) (evs : List (Event Command)) :
    let _ := Collation.ascii
    (afterUploads k evs).foldlM (Services.step smallDisk) noUploads =
      (evs.map ServicesEvent.store).foldlM (Services.step smallDisk) (bothUploaded k) := by
  let _ := Collation.ascii
  have hsecond : planUploaded.step smallDisk (.file (.upload (wholeUpload k [72, 105, 33]))) =
      some (bothUploaded k) := Services.step_whole planUploaded hvalid hfree
  have hfirst := plan_uploaded
  simp only [afterUploads, foldlM_cons]
  rw [hfirst, bind_eq_bind, bind_some, hsecond, bind_some]

/-- A row that says three bytes, for an object of two. -/
def mislabelled (s : Services) : Bool :=
  decide (s.storage.files planKey.path = some [72, 105]) &&
    (s.store.cur.db.fileObjects.get planKey.id).any fun f =>
      decide (f.state = 1 ∧ f.ownerUid = planKey.uid ∧ f.fileId = planKey.id ∧ f.fileSize = 3)

theorem not_described_of_mislabelled {s : Services} (h : mislabelled s = true) :
    ¬ FilesDescribed smallDisk s.storage s.store.cur.db := by
  intro hdescribed
  simp only [mislabelled, Bool.and_eq_true, decide_eq_true_eq, Option.any_eq_true] at h
  obtain ⟨hobject, f, hf, hstate, huid, hid, hsize⟩ := h
  obtain ⟨-, -, content, hcontent, hlength, -⟩ := hdescribed _ f hf hstate
  rw [huid, hid] at hcontent
  cases hobject.symm.trans hcontent
  rw [hsize] at hlength
  cases hlength

/-- Two users race for one id, or one user uploads under two spellings of it: the row of the first file then
    has the size and the digest of the second. -/
theorem files_mislabelled :
    let _ := Collation.ascii
    (∃ s, (afterUploads rivalKey racing).foldlM (Services.step smallDisk) noUploads = some s ∧
      ¬ FilesDescribed smallDisk s.storage s.store.cur.db) ∧
    ∃ s, (afterUploads shoutedKey respelling).foldlM (Services.step smallDisk) noUploads = some s ∧
      ¬ FilesDescribed smallDisk s.storage s.store.cur.db := by
  let _ := Collation.ascii
  have hrace : ((racing.map ServicesEvent.store).foldlM (Services.step smallDisk) (bothUploaded rivalKey)).any
      mislabelled = true := by
    decide +kernel
  have hspell : ((respelling.map ServicesEvent.store).foldlM (Services.step smallDisk)
      (bothUploaded shoutedKey)).any mislabelled = true := by
    decide +kernel
  rw [← afterUploads_run (by decide +kernel) (by decide +kernel)] at hrace hspell
  obtain ⟨s, hrun, hwrong⟩ := (any_eq_true _ _).1 hrace
  obtain ⟨s', hrun', hwrong'⟩ := (any_eq_true _ _).1 hspell
  exact ⟨⟨s, hrun, not_described_of_mislabelled hwrong⟩, s', hrun', not_described_of_mislabelled hwrong'⟩

end Imm
