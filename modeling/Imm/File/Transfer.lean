import Imm.File.Slots

/-! Transfers over the File service. Whatever requests come, an object is what some request declared, is
    never touched again, and is all a download can give; stored bytes stay. If the requests for a key are
    slices of one file, in any order and with any overlap, what is stored is always a beginning of the file,
    and a download of the object gives it back page by page. -/

namespace Imm.FileService

open List

variable {p : Platform} {s : Storage} {k : Key} {t : Slot} {r : UploadRequest}

/-- All bytes of a key, published or not. -/
def Slot.bytes (t : Slot) : Bytes := t.object.getD t.stored

def Key.pair (k : Key) : ℤ × String := (k.uid, k.id)

/-! ### One upload -/

/-- What an upload can do to its slot. -/
inductive Slot.Change (digest : Bytes → String) (t : Slot) (r : UploadRequest) : Slot → Prop
  | same : Change digest t r t
  | grow (hobject : t.object = none) : Change digest t r { part := some (t.stored ++ r.data) }
  | publish (hobject : t.object = none) (hcomplete : r.complete = true)
      (hsize : (t.stored ++ r.data).length = r.info.fileSize.toNat)
      (hdigest : digest (t.stored ++ r.data) = r.info.sha256) :
      Change digest t r { object := some (t.stored ++ r.data) }

theorem Slot.receive_change (digest : Bytes → String) (t : Slot) (r : UploadRequest) :
    t.Change digest r (t.receive digest r).2 := by
  unfold Slot.receive
  split
  · split <;> exact .same
  rename_i hobject
  split
  · split <;> exact .same
  split
  · exact .same
  dsimp only
  split
  · rename_i hdone
    split
    · exact .publish hobject hdone.1 hdone.2 ‹_›
    · exact .grow hobject
  · exact .grow hobject

variable {digest : Bytes → String} {content stored : Bytes} {d : DownloadRequest}

theorem Slot.Change.bytes_le {t' : Slot} (h : t.Change digest r t') :
    t.bytes <+: t'.bytes := by
  cases h with
  | same => exact prefix_refl _
  | grow hobject => simp [Slot.bytes, Slot.stored, hobject]
  | publish hobject => simp [Slot.bytes, Slot.stored, hobject]

theorem Slot.Change.published {t' : Slot} (h : t.Change digest r t')
    (hobject : t.object = some content) : t' = t := by
  cases h with
  | same => rfl
  | grow hnone => simp [hnone] at hobject
  | publish hnone => simp [hnone] at hobject

theorem Slot.receive_success (h : (t.receive digest r).1.status = .SUCCESS) :
    ∃ content, (t.receive digest r).2.object = some content ∧ content.length = r.info.fileSize.toNat ∧
      digest content = r.info.sha256 := by
  unfold Slot.receive at h ⊢
  split
  · rename_i content hobject
    rw [hobject] at h
    dsimp only at h
    split at h
    · rename_i hmatch
      rw [if_pos hmatch]
      exact ⟨content, hobject, hmatch⟩
    · cases h
  · rename_i hobject
    rw [hobject] at h
    dsimp only at h ⊢
    split at h
    · split at h <;> cases h
    split at h
    · cases h
    rename_i hoffset hfits
    split at h
    · rename_i hdone
      split at h
      · rename_i hdigest
        rw [if_neg hoffset, if_neg hfits, if_pos hdone, if_pos hdigest]
        exact ⟨_, rfl, hdone.2, hdigest⟩
      · cases h
    · cases h

/-! ### Requests and slots -/

theorem UploadRequest.path_eq (h : (r.userId, r.info.fileId) = k.pair) :
    objectKey r.userId r.info.fileId = k.path := by
  obtain ⟨huid, hid⟩ := Prod.mk.inj h
  rw [huid, hid, Key.path]

theorem execute_upload (hvalid : r.valid = true) (hkey : (r.userId, r.info.fileId) = k.pair) :
    s.execute p (.upload r)
      = (.ok (.upload ((s.slot k).receive p.digest r).1), s.put k ((s.slot k).receive p.digest r).2) := by
  unfold Storage.execute
  simp only [hvalid, if_true, upload_refines p (UploadRequest.path_eq hkey)]
  rfl

theorem exists_key {uid : ℤ} {id : String} (huid : 0 < uid) (hid : safeId id = true) :
    ∃ k : Key, (uid, id) = k.pair := ⟨⟨uid, id, huid, hid⟩, rfl⟩

theorem UploadRequest.exists_key (hvalid : r.valid = true) : ∃ k : Key, (r.userId, r.info.fileId) = k.pair := by
  simp only [UploadRequest.valid, Bool.and_eq_true, decide_eq_true_eq] at hvalid
  exact FileService.exists_key (by tauto) (by tauto)

/-- A request changes the slot of its own key, as an upload may, and no other. -/
theorem slot_execute (p : Platform) (s : Storage) (q : Request) (k : Key) :
    (s.execute p q).2.slot k = s.slot k ∨
      ∃ r, q = .upload r ∧ r.valid = true ∧ (r.userId, r.info.fileId) = k.pair ∧
        (s.slot k).Change p.digest r ((s.execute p q).2.slot k) := by
  cases q with
  | download r =>
    left
    simp only [Storage.execute]
    split <;> rfl
  | upload r =>
    by_cases hvalid : r.valid = true
    · obtain ⟨k', hk'⟩ := UploadRequest.exists_key hvalid
      rw [execute_upload hvalid hk']
      by_cases hk : k = k'
      · subst hk
        right
        refine ⟨r, rfl, hvalid, hk', ?_⟩
        rw [Storage.slot_put_self]
        exact Slot.receive_change _ _ _
      · exact .inl (Storage.slot_put_ne _ _ hk)
    · left
      simp [Storage.execute, hvalid]

theorem run_nil (p : Platform) (s : Storage) : s.run p [] = s := rfl

theorem run_append (p : Platform) (s : Storage) (rs : List Request) (q : Request) :
    s.run p (rs ++ [q]) = ((s.run p rs).execute p q).2 := by
  simp [Storage.run]

/-! ### Any requests -/

theorem slot_run_published (h : (s.slot k).object = some content) (rs : List Request) :
    (s.run p rs).slot k = s.slot k := by
  induction rs using List.reverseRecOn with
  | nil => rfl
  | append_singleton rs q ih =>
    rw [run_append]
    rcases slot_execute p (s.run p rs) q k with hsame | ⟨r, -, -, -, hchange⟩
    · rw [hsame, ih]
    · rw [hchange.published (ih.symm ▸ h), ih]

theorem bytes_run (p : Platform) (s : Storage) (k : Key) (rs : List Request) :
    (s.slot k).bytes <+: ((s.run p rs).slot k).bytes := by
  induction rs using List.reverseRecOn with
  | nil => exact prefix_refl _
  | append_singleton rs q ih =>
    rw [run_append]
    rcases slot_execute p (s.run p rs) q k with hsame | ⟨r, -, -, -, hchange⟩
    · rwa [hsame]
    · exact ih.trans hchange.bytes_le

/-- The request that made an object, and what it declared. -/
structure Publishes (p : Platform) (s : Storage) (k : Key) (rs : List Request) (content : Bytes)
    (before : List Request) (r : UploadRequest) : Prop where
  step : before ++ [.upload r] <+: rs
  key : (r.userId, r.info.fileId) = k.pair
  complete : r.complete = true
  size : r.info.fileSize = content.length
  digest : r.info.sha256 = p.digest content
  absent : ((s.run p before).slot k).object = none
  present : ((s.run p (before ++ [.upload r])).slot k).object = some content

theorem exists_publishes (hnone : (s.slot k).object = none) {rs : List Request}
    (h : ((s.run p rs).slot k).object = some content) : ∃ before r, Publishes p s k rs content before r := by
  induction rs using List.reverseRecOn with
  | nil => simp [run_nil, hnone] at h
  | append_singleton rs q ih =>
    cases hrs : ((s.run p rs).slot k).object with
    | some content' =>
      -- the object was there before, and stays
      have hsame := slot_run_published (p := p) hrs [q]
      have hcontent : content' = content := by
        rw [run_append] at h
        have : ((s.run p rs).run p [q]) = ((s.run p rs).execute p q).2 := rfl
        rw [this] at hsame
        rw [hsame, hrs] at h
        exact Option.some.inj h
      obtain ⟨before, r, hp⟩ := ih (hcontent ▸ hrs)
      exact ⟨before, r, { hp with step := hp.step.trans (prefix_append _ _) }⟩
    | none =>
      rw [run_append] at h
      rcases slot_execute p (s.run p rs) q k with hsame | ⟨r, rfl, hvalid, hkey, hchange⟩
      · rw [hsame, hrs] at h
        cases h
      generalize ht : ((s.run p rs).execute p (.upload r)).2.slot k = t' at h hchange
      have hsize : 0 ≤ r.info.fileSize := by
        simp only [UploadRequest.valid, Bool.and_eq_true, decide_eq_true_eq] at hvalid
        tauto
      cases hchange with
      | same => simp [hrs] at h
      | grow => cases h
      | publish _ hcomplete hlength hdigest =>
        cases h
        exact ⟨rs, r, prefix_refl _, hkey, hcomplete, by omega, hdigest.symm, hrs, by rw [run_append, ht]⟩

/-! ### Downloads -/

/-- The number of bytes of a page. -/
def pageSize (limit : ℤ) (remaining : ℕ) : ℕ := min (max limit 1).toNat (min maxChunkSize remaining)

theorem pageSize_le (limit : ℤ) (remaining : ℕ) : pageSize limit remaining ≤ remaining := by
  unfold pageSize
  omega

theorem pageSize_pos (limit : ℤ) {remaining : ℕ} (h : 0 < remaining) : 0 < pageSize limit remaining := by
  unfold pageSize maxChunkSize
  omega

theorem download_page (hkey : (d.userId, d.info.fileId) = k.pair) (hobject : (s.slot k).object = some content)
    (hoffset : 0 ≤ d.offset) (hle : d.offset.toNat ≤ content.length) :
    s.download d = .ok {
      data := readRange content d.offset.toNat (pageSize d.limit (content.length - d.offset.toNat))
      nextOffset := d.offset + pageSize d.limit (content.length - d.offset.toNat)
      complete := decide (d.offset.toNat + pageSize d.limit (content.length - d.offset.toNat) = content.length)
      status := .SUCCESS } := by
  obtain ⟨huid, hid⟩ := Prod.mk.inj hkey
  have hfile : s.files (objectKey d.userId d.info.fileId) = some content := by rw [huid, hid]; exact hobject
  have hle' := pageSize_le d.limit (content.length - d.offset.toNat)
  have hcount : min (max d.limit 1).toNat (min maxChunkSize (content.length - d.offset.toNat))
      = pageSize d.limit (content.length - d.offset.toNat) := rfl
  generalize pageSize d.limit (content.length - d.offset.toNat) = n at *
  have hlen : (readRange content d.offset.toNat n).length = n := by
    rw [length_readRange]
    exact Nat.min_eq_left hle'
  have hdata : (if n ≠ 0 then readRange content d.offset.toNat n else []) = readRange content d.offset.toNat n := by
    split
    · rfl
    rename_i hzero
    rw [not_not.1 hzero, readRange, take_zero]
  have hend : (d.offset + n = (content.length : ℤ)) = (d.offset.toNat + n = content.length) := by
    rw [eq_iff_iff]
    omega
  unfold Storage.download
  simp only [hfile, hcount, hdata, hlen, hend]
  rw [if_neg (by omega), if_neg (by simp)]

theorem download_absent (hkey : (d.userId, d.info.fileId) = k.pair) (hobject : (s.slot k).object = none) :
    s.download d = .ok { status := .FAILED, message := "file unavailable" } := by
  obtain ⟨huid, hid⟩ := Prod.mk.inj hkey
  have hfile : s.files (objectKey d.userId d.info.fileId) = none := by rw [huid, hid]; exact hobject
  simp [Storage.download, hfile]

theorem download_success {response : DownloadResponse} (hkey : (d.userId, d.info.fileId) = k.pair)
    (h : (s.execute p (.download d)).1 = .ok (.download response)) (hsuccess : response.status = .SUCCESS) :
    ∃ content, (s.slot k).object = some content ∧
      response.data = readRange content d.offset.toNat response.data.length := by
  simp only [Storage.execute] at h
  split at h
  · rename_i hvalid
    have hoffset : 0 ≤ d.offset := by
      simp only [DownloadRequest.valid, Bool.and_eq_true, decide_eq_true_eq] at hvalid
      exact hvalid.2
    cases hobject : (s.slot k).object with
    | none =>
      rw [download_absent hkey hobject] at h
      cases h
      cases hsuccess
    | some content =>
      refine ⟨content, rfl, ?_⟩
      by_cases hle : d.offset.toNat ≤ content.length
      · rw [download_page hkey hobject hoffset hle] at h
        cases h
        simp only [length_readRange, Nat.min_eq_left (pageSize_le _ _)]
      obtain ⟨huid, hid⟩ := Prod.mk.inj hkey
      have hfile : s.files (objectKey d.userId d.info.fileId) = some content := by
        rw [huid, hid]
        exact hobject
      simp only [Storage.download, hfile, if_pos (Nat.lt_of_not_le hle)] at h
      cases h
      cases hsuccess
  · cases h
    cases hsuccess

/-- What a request answers and does to its own files is decided by these files. -/
theorem execute_congr {s' : Storage} {q : Request} (hkey : q.key = k.pair) (h : s'.slot k = s.slot k) :
    (s'.execute p q).1 = (s.execute p q).1 ∧ (s'.execute p q).2.slot k = (s.execute p q).2.slot k := by
  cases q with
  | upload r =>
    by_cases hvalid : r.valid = true
    · simp only [execute_upload hvalid hkey, h, Storage.slot_put_self, and_self]
    · simp [Storage.execute, hvalid, h]
  | download d =>
    obtain ⟨huid, hid⟩ := Prod.mk.inj hkey
    have hfile : s'.files (objectKey d.userId d.info.fileId) = s.files (objectKey d.userId d.info.fileId) := by
      rw [huid, hid]
      exact congrArg Slot.object h
    simp only [Storage.execute, Storage.download, hfile]
    split <;> simp [h]

/-! ### A small file -/

/-- A digest of 32 characters, the last of which is the number of bytes. -/
def lengthDigest (bytes : Bytes) : String :=
  String.ofList (List.replicate 31 'x' ++ [Char.ofNat (65 + bytes.length)])

def smallDisk : Platform := ⟨4, by decide, lengthDigest⟩

def smallKey : Key := ⟨7, "12345678-1234-1234-1234-123456789012", by decide, by decide⟩

/-- A chunk of the seven bytes `1, …, 7`. -/
def smallUpload (offset : ℕ) (data : Bytes) (complete : Bool) : UploadRequest where
  file := some { fileId := smallKey.id, fileName := "a.bin", fileType := "a/b", fileSize := 7,
                 sha256 := lengthDigest [1, 2, 3, 4, 5, 6, 7] }
  userId := 7
  offset := offset
  data := data
  complete := complete

/-- Three bytes, an overlapping retry, a chunk too far ahead, and the rest. -/
def smallUploads : List Request :=
  [.upload (smallUpload 0 [1, 2, 3] false), .upload (smallUpload 1 [2, 3, 4, 5] false),
    .upload (smallUpload 5 [6] true), .upload (smallUpload 3 [4, 5, 6, 7] true)]

def noFiles : Storage := ⟨fun _ => none⟩

theorem small_published :
    ((noFiles.run smallDisk smallUploads).slot smallKey).object = some [1, 2, 3, 4, 5, 6, 7] := by
  have hslot : (noFiles.run smallDisk (smallUploads.take 3)).slot smallKey = { part := some [1, 2, 3] } := by
    decide +kernel
  have hsplit : smallUploads = smallUploads.take 3 ++ [.upload (smallUpload 3 [4, 5, 6, 7] true)] := rfl
  decide +kernel

/-! ### The guarantees -/

/-- Against any requests: an object appears by a request that declared it as it is, stays as it is, and is all
    that downloads read; stored bytes stay; and a request has to do with the files of its own key only. -/
theorem objects_verified_immutable (p : Platform) (s : Storage) (rs : List Request) (k : Key) :
    (∀ content, (s.slot k).object = some content → (s.run p rs).slot k = s.slot k) ∧
    (∀ content, (s.slot k).object = none → ((s.run p rs).slot k).object = some content →
      ∃ before r, Publishes p s k rs content before r) ∧
    (s.slot k).bytes <+: ((s.run p rs).slot k).bytes ∧
    (∀ (d : DownloadRequest) (response : DownloadResponse), (d.userId, d.info.fileId) = k.pair →
      ((s.run p rs).execute p (.download d)).1 = .ok (.download response) → response.status = .SUCCESS →
      ∃ content, ((s.run p rs).slot k).object = some content ∧
        response.data = readRange content d.offset.toNat response.data.length) ∧
    (∀ q : Request, q.key ≠ k.pair → ((s.run p rs).execute p q).2.slot k = (s.run p rs).slot k) ∧
    (∀ (q : Request) (s' : Storage), q.key = k.pair → s'.slot k = (s.run p rs).slot k →
      (s'.execute p q).1 = ((s.run p rs).execute p q).1 ∧
      (s'.execute p q).2.slot k = ((s.run p rs).execute p q).2.slot k) := by
  refine ⟨fun _ h => slot_run_published h rs, fun _ hnone h => exists_publishes hnone h, bytes_run p s k rs,
    fun _ _ hkey h hsuccess => download_success hkey h hsuccess, ?_, fun _ _ hkey h => execute_congr hkey h⟩
  intro q hq
  rcases slot_execute p (s.run p rs) q k with hsame | ⟨r, rfl, -, hkey, -⟩
  · exact hsame
  · exact absurd hkey hq

theorem objects_verified_immutable_small :
    ∃ before r, Publishes smallDisk noFiles smallKey smallUploads [1, 2, 3, 4, 5, 6, 7] before r :=
  (objects_verified_immutable smallDisk noFiles smallUploads smallKey).2.1 _ rfl small_published

/-! ### Honest requests -/

/-- The request declares `content` and carries a slice of it. -/
structure Honest (digest : Bytes → String) (content : Bytes) (r : UploadRequest) : Prop where
  size : r.info.fileSize = content.length
  digest : r.info.sha256 = digest content
  slice : r.data <+: content.drop r.offset.toNat

/-- What honest requests leave in a slot. -/
structure Slot.Holds (t : Slot) (content : Bytes) : Prop where
  stored : t.bytes <+: content
  object : ∀ c, t.object = some c → c = content

theorem append_slice {data : Bytes} (hstored : stored <+: content)
    (hdata : data <+: content.drop stored.length) : stored ++ data <+: content := by
  obtain ⟨rest, rfl⟩ := hstored
  rw [drop_left] at hdata
  exact (prefix_append_right_inj stored).2 hdata

theorem overlap_slice {data : Bytes} {offset : ℕ} (hstored : stored <+: content)
    (hdata : data <+: content.drop offset) :
    data.take (stored.length - offset) = (stored.drop offset).take data.length := by
  have hs : stored = content.take stored.length := prefix_iff_eq_take.1 hstored
  have hd : data = (content.drop offset).take data.length := prefix_iff_eq_take.1 hdata
  conv_lhs => rw [hd]
  conv_rhs => rw [hs]
  rw [drop_take, take_take, take_take, Nat.min_comm]

theorem Slot.holds_part (h : stored <+: content) :
    ({ part := some stored } : Slot).Holds content := ⟨h, by simp⟩

theorem Slot.holds_object (content : Bytes) : ({ object := some content } : Slot).Holds content :=
  ⟨prefix_refl _, by simp⟩

theorem Slot.Holds.elsewhere (h : t.Holds content)
    (hr : Honest digest content r) (hobject : t.object = none) (hoffset : r.offset.toNat ≠ t.stored.length) :
    t.receive digest r =
      ({ userId := r.userId, status := .PARTIAL, nextOffset := t.stored.length
         message := "upload offset differs from stored progress" }, t) := by
  have hstored : t.stored <+: content := by
    have := h.stored
    rwa [Slot.bytes, hobject, Option.getD_none] at this
  have hoverlap := overlap_slice hstored hr.slice
  simp [Slot.receive, hobject, hoffset, hoverlap]

theorem Slot.Holds.appended (h : t.Holds content)
    (hr : Honest digest content r) (hobject : t.object = none) (hoffset : r.offset.toNat = t.stored.length) :
    t.stored ++ r.data <+: content := by
  have hstored := h.stored
  rw [Slot.bytes, hobject, Option.getD_none] at hstored
  exact append_slice hstored (hoffset ▸ hr.slice)

theorem Slot.Holds.grown (h : t.Holds content)
    (hr : Honest digest content r) (hobject : t.object = none) (hoffset : r.offset.toNat = t.stored.length)
    (hopen : ¬ (r.complete = true ∧ t.stored.length + r.data.length = content.length)) :
    t.receive digest r = ({ userId := r.userId, status := .PARTIAL, nextOffset := (t.stored ++ r.data).length },
      { part := some (t.stored ++ r.data) }) := by
  have hlen := (h.appended hr hobject hoffset).length_le
  rw [length_append] at hlen
  have hfits : ¬ content.length < t.stored.length + r.data.length := by omega
  have hfileSize : r.info.fileSize.toNat = content.length := by rw [hr.size]; rfl
  unfold Slot.receive
  simp only [hobject, hoffset, hfileSize, ne_eq, not_true_eq_false, if_false, hfits, length_append, hopen]

theorem Slot.Holds.finished (h : t.Holds content)
    (hr : Honest digest content r) (hobject : t.object = none) (hoffset : r.offset.toNat = t.stored.length)
    (hdone : r.complete = true ∧ t.stored.length + r.data.length = content.length) :
    t.receive digest r = ({ userId := r.userId, nextOffset := content.length }, { object := some content }) := by
  have hcontent : t.stored ++ r.data = content :=
    (h.appended hr hobject hoffset).eq_of_length (by simpa using hdone.2)
  have hfileSize : r.info.fileSize.toNat = content.length := by rw [hr.size]; rfl
  simp [Slot.receive, hobject, hoffset, hfileSize, hr.digest, hcontent, hdone]

theorem Slot.Holds.completed (h : t.Holds content)
    (hr : Honest digest content r) {c : Bytes} (hobject : t.object = some c) :
    t.receive digest r = ({ userId := r.userId, nextOffset := content.length }, t) := by
  have hfileSize : r.info.fileSize.toNat = content.length := by rw [hr.size]; rfl
  obtain rfl := h.object c hobject
  simp [Slot.receive, hobject, hfileSize, hr.digest]

/-- An honest request is never refused, and what it leaves is a beginning of the content or all of it. -/
theorem Slot.Holds.receive (h : t.Holds content) (hr : Honest digest content r) :
    (t.receive digest r).1.status ≠ .FAILED ∧
    (t.receive digest r).2.Holds content ∧
    (t.receive digest r).1.nextOffset = (t.receive digest r).2.bytes.length ∧
    (t.object ≠ none → (t.receive digest r).1.status = .SUCCESS) ∧
    (t.object = none → r.complete = true → r.offset.toNat = t.stored.length →
      t.stored.length + r.data.length = content.length →
      (t.receive digest r).1.status = .SUCCESS ∧ (t.receive digest r).2.object = some content) := by
  cases hobject : t.object with
  | some c =>
    obtain rfl := h.object c hobject
    rw [h.completed hr hobject]
    exact ⟨by simp, h, by simp [Slot.bytes, hobject], by simp, by simp⟩
  | none =>
    by_cases hoffset : r.offset.toNat = t.stored.length
    · by_cases hdone : r.complete = true ∧ t.stored.length + r.data.length = content.length
      · rw [h.finished hr hobject hoffset hdone]
        exact ⟨by simp, Slot.holds_object content, rfl, by simp, by simp⟩
      rw [h.grown hr hobject hoffset hdone]
      exact ⟨by simp, Slot.holds_part (h.appended hr hobject hoffset), rfl, by simp,
        fun _ hc _ hall => absurd ⟨hc, hall⟩ hdone⟩
    · rw [h.elsewhere hr hobject hoffset]
      exact ⟨by simp, h, by simp [Slot.bytes, hobject], by simp, fun _ _ heq => absurd heq hoffset⟩

/-- The requests for a key in a list are honest. -/
def Uploads (p : Platform) (k : Key) (content : Bytes) (rs : List Request) : Prop :=
  ∀ r, .upload r ∈ rs → (r.userId, r.info.fileId) = k.pair → r.valid = true ∧ Honest p.digest content r

theorem holds_run (hnew : s.slot k = {}) {rs : List Request} (h : Uploads p k content rs) :
    ((s.run p rs).slot k).Holds content := by
  induction rs using List.reverseRecOn with
  | nil => rw [run_nil, hnew]; exact ⟨List.nil_prefix, by simp⟩
  | append_singleton rs q ih =>
    have hbefore := ih fun r hr => h r (mem_append_left _ hr)
    rw [run_append]
    rcases slot_execute p (s.run p rs) q k with hsame | ⟨r, rfl, hvalid, hkey, -⟩
    · rwa [hsame]
    rw [execute_upload hvalid hkey, Storage.slot_put_self]
    exact (hbefore.receive (h r (by simp) hkey).2).2.1

/-! ### Following the pages -/

def pageRequest (k : Key) (offset limit : ℤ) : DownloadRequest :=
  { file := some { fileId := k.id }, userId := k.uid, offset, limit }

/-- A client that asks for the next page, with whatever limits, until a page is complete. -/
def follow (s : Storage) (k : Key) : List ℤ → ℤ → Except String (List DownloadResponse)
  | [], _ => .ok []
  | limit :: limits, offset => do
    let page ← s.download (pageRequest k offset limit)
    if page.complete then pure [page]
    else
      let pages ← follow s k limits page.nextOffset
      pure (page :: pages)

/-- What the pages from an offset to the end are. -/
structure Pages (content : Bytes) (offset : ℕ) (pages : List DownloadResponse) : Prop where
  success : ∀ page ∈ pages, page.status = .SUCCESS
  joined : pages.flatMap DownloadResponse.data = content.drop offset
  complete : ∀ page ∈ pages, page.complete = true ↔ page.nextOffset = content.length
  nonempty : ∀ page ∈ pages, page.complete = false → page.data ≠ []
  last : ∃ init page, pages = init ++ [page] ∧ page.complete = true ∧ ∀ page' ∈ init, page'.complete = false

/-- The page at an offset: as many bytes as the limit allows, one at least if any are left. -/
theorem exists_page (hobject : (s.slot k).object = some content) (limit : ℤ) {offset : ℕ}
    (hle : offset ≤ content.length) : ∃ n, n ≤ content.length - offset ∧ (offset < content.length → 0 < n) ∧
      s.download (pageRequest k offset limit) = .ok {
        data := readRange content offset n, nextOffset := (offset + n : ℕ)
        complete := decide (offset + n = content.length), status := .SUCCESS } := by
  have hpage := download_page (d := pageRequest k offset limit) rfl hobject (Int.natCast_nonneg _) hle
  exact ⟨pageSize limit (content.length - offset), pageSize_le _ _, fun h => pageSize_pos _ (by omega), hpage⟩

/-- Every incomplete page has a byte at least, so as many pages as there are bytes left are enough. -/
theorem follow_pages (hobject : (s.slot k).object = some content) :
    ∀ (limits : List ℤ) (offset : ℕ), offset ≤ content.length → content.length - offset < limits.length →
      ∃ pages, follow s k limits offset = .ok pages ∧ Pages content offset pages
  | [], _, _, hlt => by simp at hlt
  | limit :: limits, offset, hle, hlt => by
    obtain ⟨n, hn, hpos, hpage⟩ := exists_page hobject limit hle
    by_cases hend : offset + n = content.length
    · have hdrop : readRange content offset n = content.drop offset :=
        take_of_length_le (by rw [length_drop]; omega)
      rw [hdrop, decide_eq_true hend, hend] at hpage
      refine ⟨_, by rw [follow, hpage]; rfl, ?_⟩
      exact ⟨by simp, by simp, by simp, by simp, [], _, rfl, rfl, by simp⟩
    · rw [decide_eq_false hend] at hpage
      have hlt' : content.length - (offset + n) < limits.length := by
        rw [length_cons] at hlt
        omega
      obtain ⟨pages, hpages, hrest⟩ := follow_pages hobject limits (offset + n) (by omega) hlt'
      refine ⟨_, by rw [follow, hpage]; simp only [bind, Except.bind, hpages]; rfl, ?_⟩
      have hdata : readRange content offset n ≠ [] := by
        rw [ne_eq, ← length_eq_zero_iff, length_readRange]
        omega
      obtain ⟨init, last, rfl, hlast, hinit⟩ := hrest.last
      refine ⟨?_, ?_, ?_, ?_, _ :: init, last, rfl, hlast, ?_⟩
      · exact forall_mem_cons.2 ⟨rfl, hrest.success⟩
      · rw [flatMap_cons, hrest.joined, readRange, ← drop_drop]
        exact take_append_drop _ _
      · refine forall_mem_cons.2 ⟨?_, hrest.complete⟩
        simp only [Bool.false_eq_true, false_iff]
        omega
      · exact forall_mem_cons.2 ⟨fun _ => hdata, hrest.nonempty⟩
      · exact forall_mem_cons.2 ⟨rfl, hinit⟩

/-- Uploads that are slices of one file, in any order and with any repetition, and other requests in between:
    none is refused, what is stored is a beginning of the file and the offsets say how long it is, the request
    that completes it publishes it, and from then on it can be read back in pages of any size. -/
theorem file_round_trip (p : Platform) (content : Bytes) (k : Key) (s : Storage) (rs : List Request)
    (hnew : s.slot k = {}) (huploads : Uploads p k content rs) :
    (∀ (before : List Request) (r : UploadRequest), before ++ [.upload r] <+: rs →
      (r.userId, r.info.fileId) = k.pair →
      ∃ response : UploadResponse, ((s.run p before).execute p (.upload r)).1 = .ok (.upload response) ∧
        response.status ≠ .FAILED ∧
        response.nextOffset = ((s.run p (before ++ [.upload r])).slot k).bytes.length ∧
        (((s.run p before).slot k).object ≠ none →
          response.status = .SUCCESS ∧ response.nextOffset = content.length) ∧
        (((s.run p before).slot k).object = none → r.complete = true →
          r.offset = ((s.run p before).slot k).stored.length →
          ((s.run p before).slot k).stored.length + r.data.length = content.length →
          response.status = .SUCCESS ∧ ((s.run p (before ++ [.upload r])).slot k).object = some content)) ∧
    ((s.run p rs).slot k).bytes <+: content ∧
    (∀ c, ((s.run p rs).slot k).object = some c → c = content) ∧
    (((s.run p rs).slot k).object = some content → ∀ limits : List ℤ, content.length < limits.length →
      ∃ pages, follow (s.run p rs) k limits 0 = .ok pages ∧ Pages content 0 pages) := by
  have hholds := holds_run hnew huploads
  refine ⟨?_, hholds.stored, hholds.object, fun hobject limits hlimits => ?_⟩
  · intro before r hstep hkey
    have hbefore : ∀ q ∈ before, q ∈ rs := fun q hq => hstep.subset (mem_append_left _ hq)
    obtain ⟨hvalid, hhonest⟩ := huploads r (hstep.subset (by simp)) hkey
    have hheld : ((s.run p before).slot k).Holds content :=
      holds_run hnew fun r hr => huploads r (hbefore _ hr)
    obtain ⟨hstatus, -, hnext, hlater, hlast⟩ := hheld.receive hhonest
    have hexecute := execute_upload (p := p) (s := s.run p before) hvalid hkey
    have hslot : (s.run p (before ++ [.upload r])).slot k
        = (((s.run p before).slot k).receive p.digest r).2 := by
      rw [run_append, hexecute, Storage.slot_put_self]
    refine ⟨_, by rw [hexecute], hstatus, by rw [hslot]; exact hnext, ?_, ?_⟩
    · intro hobject
      refine ⟨hlater hobject, ?_⟩
      obtain ⟨c, hc⟩ := Option.ne_none_iff_exists'.1 hobject
      obtain rfl := hheld.object c hc
      rw [hnext, (Slot.receive_change p.digest _ r).published hc, Slot.bytes, hc, Option.getD_some]
    · intro hnone hcomplete hoffset hlen
      rw [hslot]
      exact hlast hnone hcomplete (by omega) hlen
  · exact follow_pages hobject limits 0 (Nat.zero_le _) (by simpa using hlimits)

theorem smallUploads_honest : Uploads smallDisk smallKey [1, 2, 3, 4, 5, 6, 7] smallUploads := by
  intro r hr _
  simp only [smallUploads, mem_cons, not_mem_nil, or_false, Request.upload.injEq] at hr
  rcases hr with rfl | rfl | rfl | rfl <;> exact ⟨by decide +kernel, by decide, by decide, by decide⟩

theorem file_round_trip_small :
    ∃ pages, follow (noFiles.run smallDisk smallUploads) smallKey [3, -1, 0, 100, 1, 1, 1, 1] 0 = .ok pages ∧
      Pages [1, 2, 3, 4, 5, 6, 7] 0 pages :=
  (file_round_trip smallDisk [1, 2, 3, 4, 5, 6, 7] smallKey noFiles smallUploads rfl smallUploads_honest).2.2.2
    small_published [3, -1, 0, 100, 1, 1, 1, 1] (by decide)

end Imm.FileService
