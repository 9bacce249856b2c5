import Mathlib.Order.Basic
import Mathlib.Order.BooleanAlgebra.Defs
import Imm.Transaction.Uploads

/-! The progress of an upload as the Message shards record it. The File service handles the chunks of a file one
    after the other and tells how far it is; the row is written afterwards, by whoever was told, and is overwritten
    by whoever comes last. The answers only go forward, so the row does if it is written in the order of the
    answers. Once the object is there, every chunk is answered with success, but only a chunk that says it is the
    last makes the row say that the upload is complete. -/

namespace Imm

open Txn SQL MysqlStore List Option
open FileService (UploadRequest UploadResponse Honest)

/-- How far the upload is, and whether it is complete. -/
def FileUpload.progress (row : FileUpload) : ℤ × Bool := (row.nextOffset, row.complete)

/-- The progress that a command records for an answer. -/
def progressOf (x : UploadRequest × UploadResponse) : ℤ × Bool :=
  (x.2.nextOffset, decide (x.2.status = .SUCCESS) && x.1.complete)

/-- The answers to uploads of a key, the last first. A refused chunk is no progress. -/
def Services.answersFor (s : Services) (k : FileService.Key) : List (UploadRequest × UploadResponse) :=
  s.answers.filter fun x => decide ((x.1.userId, x.1.info.fileId) = k.pair ∧ x.2.status ≠ .FAILED)

variable [Collation]

/-- The row of a key. -/
def Db.uploadOf (d : Db) (k : FileService.Key) : Option FileUpload :=
  d.fileUploads.get (k.uid, weight k.id)

/-- The command records its progress in the row of `k`. -/
def Command.uploads (c : Command) (k : FileService.Key) : Bool :=
  c.call.any fun r => decide (r.userId = k.uid ∧ weight r.info.fileId = weight k.id)

/-- The uploads of a key are those of one file, by a client that sends its bytes. -/
def UploadsHonest (p : FileService.Platform) (k : FileService.Key) (content : FileService.Bytes) :
    ServicesEvent → Prop
  | .file (.upload r) => (r.userId, r.info.fileId) = k.pair → Honest p.digest content r
  | .store (.begin c) => c.uploads k = true → ∀ r ∈ c.call, r.info.fileId = k.id
  | _ => True

/-- One command after the other: it goes by the last answer, and the commands before it have ended. Once the object
    is there, chunks are sent only as the last one. -/
def UploadsInTurn (k : FileService.Key) (s : Services) : ServicesEvent → Prop
  | .file (.upload r) => (r.userId, r.info.fileId) = k.pair → (s.storage.slot k).object ≠ none → r.complete = true
  | .store (.begin c) => c.uploads k = true →
      (c.uploaded.status ≠ .FAILED → ∀ r ∈ c.call, (s.answersFor k).head? = some (r, c.uploaded)) ∧
      ∀ σ ∈ s.store.sessions, σ.op.uploads k = true → σ.prog.over = true
  | _ => True

/-- From one version to a later one the row stays, and its progress does not go back. -/
def ProgressForward (k : FileService.Key) (V : Versions) : Prop :=
  ∀ (i j : ℕ) v w, i ≤ j → V[i]? = some v → V[j]? = some w → ∀ row, v.db.uploadOf k = some row →
    ∃ row', w.db.uploadOf k = some row' ∧ row.progress ≤ row'.progress

/-! ### Who writes the row -/

section deeds

variable {V : Versions} {t : ℕ} {d : Db} {ls : List (Lock Key)} {o : Operation} {ws : List Write}

theorem Deed.uploads_cases (h : Deed V t d ls o ws) :
    (applyAll ws d).fileUploads = d.fileUploads ∨
    ∃ u fileId row, o = .saveFileUploadProgress u fileId row ∧
      (applyAll ws d).fileUploads = d.fileUploads.set (u, weight fileId) (some row) := by
  cases h with
  | idle | apply | answer | befriend | upload | reupload | profile | found | requestJoin | reject | welcome
  | welcomeBare | sendGroup => exact .inl rfl
  | unfriend => exact .inl (applyAll_map Db.fileUploads _ _ rfl)
  | sendDirect _ _ hjoins _ _ _ =>
    rw [applyAll_append]
    exact .inl (hjoins.untouched Db.fileUploads rfl)
  | joinDirect _ _ hjoins => exact .inl (hjoins.untouched Db.fileUploads rfl)
  | receive _ _ hreceipt _ => rcases hreceipt with rfl | rfl <;> exact .inl rfl
  | progress => exact .inr ⟨_, _, _, rfl, rfl⟩
  | leave _ _ _ _ _ _ hstates => rcases hstates with rfl | ⟨rfl, -⟩ <;> exact .inl rfl
  | dissolve => exact .inl (dissolved_rest Db.fileUploads rfl rfl rfl rfl)

/-- The row of a key is written by a command that uploads it and was not refused. -/
theorem Deed.uploadOf (h : Deed V t d ls o ws) {c : Command} (hissues : Issues V t c o) (k : FileService.Key) :
    (applyAll ws d).uploadOf k = d.uploadOf k ∨
    ∃ r row, c.call = some r ∧ c.uploads k = true ∧ c.uploaded.status ≠ .FAILED ∧
      (applyAll ws d).uploadOf k = some row ∧ row.progress = progressOf (r, c.uploaded) := by
  rcases h.uploads_cases with hsame | ⟨u, fileId, row, rfl, hset⟩
  · exact .inl (by rw [Db.uploadOf, hsame, Db.uploadOf])
  rw [Db.uploadOf, hset, Table.get_set]
  split
  · rename_i hkey
    cases hissues with
    | @progress packet file offset data complete hreq hstatus =>
      obtain ⟨huid, hid⟩ := Prod.mk.inj hkey
      have hcall : c.call = some (Files.uploadRequest c file offset data complete) := by simp [Command.call, hreq]
      refine .inr ⟨_, _, hcall, ?_, hstatus, rfl, rfl⟩
      rw [Command.uploads, hcall]
      simp [Files.uploadRequest, UploadRequest.info, huid, hid]
  · exact .inl rfl

end deeds

/-! ### Answers go forward -/

/-- The state of an upload in which everything happens in turn. -/
structure Services.InTurn (p : FileService.Platform) (d : Db) (k : FileService.Key) (content : FileService.Bytes)
    (s : Services) : Prop where
  serves : Serves d s.store
  slot : (s.storage.slot k).Holds content
  /-- what the client was told is there -/
  told : ∀ x ∈ s.answersFor k, x.2.nextOffset ≤ (s.storage.slot k).bytes.length ∧
    (x.2.status = .SUCCESS → (s.storage.slot k).object ≠ none)
  ordered : (s.answersFor k).Pairwise fun new old => progressOf old ≤ progressOf new
  row : ∀ row, s.store.cur.db.uploadOf k = some row → ∃ x ∈ s.answersFor k, row.progress ≤ progressOf x
  /-- the commands in progress go by an answer that the row is not ahead of -/
  pending : ∀ σ ∈ s.store.sessions, σ.prog.over = false → σ.op.uploads k = true → σ.op.uploaded.status ≠ .FAILED →
    ∀ r ∈ σ.op.call, (r, σ.op.uploaded) ∈ s.answersFor k ∧
      ∀ row, s.store.cur.db.uploadOf k = some row → row.progress ≤ progressOf (r, σ.op.uploaded)
  alone : ∀ σ ∈ s.store.sessions, ∀ τ ∈ s.store.sessions, σ.prog.over = false → τ.prog.over = false →
    σ.op.uploads k = true → τ.op.uploads k = true → σ.op = τ.op
  forward : ProgressForward k s.store.versions

section inTurn

variable {p : FileService.Platform} {d : Db} {k : FileService.Key} {content : FileService.Bytes} {s s' : Services}

theorem Services.InTurn.answer (h : s.InTurn p d k content) {r : UploadRequest}
    (hr : Honest p.digest content r) (hlast : (s.storage.slot k).object ≠ none → r.complete = true) :
    ((s.storage.slot k).receive p.digest r).2.Holds content ∧
    ∀ x ∈ s.answersFor k, progressOf x ≤ progressOf (r, ((s.storage.slot k).receive p.digest r).1) := by
  obtain ⟨-, hholds, hnext, hsuccess, -⟩ := h.slot.receive hr
  refine ⟨hholds, fun x hx => ?_⟩
  obtain ⟨hle, hobject⟩ := h.told x hx
  have hgrows := (FileService.Slot.receive_change p.digest (s.storage.slot k) r).bytes_le.length_le
  refine Prod.mk_le_mk.2 ⟨by rw [hnext]; exact hle.trans (by exact_mod_cast hgrows), ?_⟩
  intro hcomplete
  rw [Bool.and_eq_true, decide_eq_true_eq] at hcomplete
  have hthere := hobject hcomplete.1
  simp [hsuccess hthere, hlast hthere]

omit [Collation] in
/-- A published object is what the later answers are about. -/
theorem receive_told (hslot : (s.storage.slot k).Holds content) {r : UploadRequest}
    (hr : Honest p.digest content r) :
    (((s.storage.slot k).receive p.digest r).1.nextOffset : ℤ) ≤
        ((s.storage.slot k).receive p.digest r).2.bytes.length ∧
      (((s.storage.slot k).receive p.digest r).1.status = .SUCCESS →
        ((s.storage.slot k).receive p.digest r).2.object ≠ none) := by
  obtain ⟨-, -, hnext, -⟩ := hslot.receive hr
  refine ⟨hnext.le, fun hsuccess => ?_⟩
  obtain ⟨c, hc, -⟩ := FileService.Slot.receive_success hsuccess
  rw [hc]
  exact some_ne_none c

theorem Services.InTurn.elsewhere (h : s.InTurn p d k content) {q : FileService.Request}
    (hq : ∀ r, q = .upload r → r.valid = true → (r.userId, r.info.fileId) ≠ k.pair)
    (hstep : s.step p (.file q) = some s') : s'.InTurn p d k content := by
  have hstore : s'.store = s.store := by cases hstep; rfl
  have hslot : s'.storage.slot k = s.storage.slot k := by
    cases hstep
    rcases FileService.slot_execute p s.storage q k with hsame | ⟨r, hr, hvalid, hkey, -⟩
    · exact hsame
    · exact absurd hkey (hq r hr hvalid)
  have hanswers : s'.answersFor k = s.answersFor k := by
    cases hstep
    unfold Services.answersFor
    cases q with
    | download r => rfl
    | upload r =>
      by_cases hkey : (r.userId, r.info.fileId) = k.pair
      · -- it did not pass the check
        have hvalid : ¬ r.valid = true := fun hvalid => hq r rfl hvalid hkey
        simp [FileService.Storage.execute, hvalid]
      dsimp only
      split
      · rename_i heq _
        cases heq
        simp [hkey]
      · rfl
  refine ⟨hstore ▸ h.serves, hslot ▸ h.slot, ?_, hanswers ▸ h.ordered, ?_, ?_, hstore ▸ h.alone, hstore ▸ h.forward⟩
  · rw [hanswers, hslot]
    exact h.told
  · rw [hanswers, hstore]
    exact h.row
  · rw [hanswers, hstore]
    exact h.pending

theorem Services.InTurn.file_step (h : s.InTurn p d k content) {q : FileService.Request}
    (hhonest : UploadsHonest p k content (.file q)) (hturn : UploadsInTurn k s (.file q))
    (hstep : s.step p (.file q) = some s') : s'.InTurn p d k content := by
  by_cases hq : ∃ r, q = .upload r ∧ r.valid = true ∧ (r.userId, r.info.fileId) = k.pair
  · obtain ⟨r, rfl, hvalid, hkey⟩ := hq
    have hr : Honest p.digest content r := hhonest hkey
    obtain ⟨hholds, hle⟩ := h.answer hr (hturn hkey)
    have hstatus := (h.slot.receive hr).1
    simp only [Services.step, FileService.execute_upload hvalid hkey] at hstep
    cases hstep
    have hslot : (s.storage.put k ((s.storage.slot k).receive p.digest r).2).slot k
        = ((s.storage.slot k).receive p.digest r).2 := FileService.Storage.slot_put_self _ _ _
    have hanswers : Services.answersFor { s with
        storage := s.storage.put k ((s.storage.slot k).receive p.digest r).2
        answers := (r, ((s.storage.slot k).receive p.digest r).1) :: s.answers } k
        = (r, ((s.storage.slot k).receive p.digest r).1) :: s.answersFor k := by
      simp [Services.answersFor, hkey, hstatus]
    have hgrows := (FileService.Slot.receive_change p.digest (s.storage.slot k) r).bytes_le.length_le
    refine ⟨h.serves, by rw [hslot]; exact hholds, ?_, ?_, ?_, ?_, h.alone, h.forward⟩
    · rw [hanswers, hslot]
      intro x hx
      rcases mem_cons.1 hx with rfl | hx
      · exact receive_told h.slot hr
      obtain ⟨hoffset, hobject⟩ := h.told x hx
      refine ⟨hoffset.trans (by exact_mod_cast hgrows), fun hsuccess => ?_⟩
      obtain ⟨c, hc⟩ := ne_none_iff_exists'.1 (hobject hsuccess)
      rw [(FileService.Slot.receive_change p.digest (s.storage.slot k) r).published hc, hc]
      exact some_ne_none c
    · rw [hanswers]
      exact pairwise_cons.2 ⟨hle, h.ordered⟩
    · rw [hanswers]
      intro row hrow
      obtain ⟨x, hx, hxrow⟩ := h.row row hrow
      exact ⟨x, mem_cons_of_mem _ hx, hxrow⟩
    · rw [hanswers]
      intro σ hσ hover huploads hstatus r hr
      obtain ⟨hmem, hrow⟩ := h.pending σ hσ hover huploads hstatus r hr
      exact ⟨mem_cons_of_mem _ hmem, hrow⟩
  · exact h.elsewhere (fun r hr hvalid hkey => hq ⟨r, hr, hvalid, hkey⟩) hstep

variable {store' : ServiceStore} {ev : Event Command}

/-- The row stays, or a command in progress that was not refused writes its progress. -/
theorem row_step {store : ServiceStore} (hserves : Serves d store)
    (hstep : store.step Service.process ev = some store') :
    store'.cur.db.uploadOf k = store.cur.db.uploadOf k ∨
    ∃ σ ∈ store.sessions, σ.prog.over = false ∧ σ.op.uploads k = true ∧ σ.op.uploaded.status ≠ .FAILED ∧
      ∃ r ∈ σ.op.call, ∃ row, store'.cur.db.uploadOf k = some row ∧ row.progress = progressOf (r, σ.op.uploaded) := by
  rcases hserves.step hstep with hsame | ⟨i, n, σ, o, ws, rfl, hi, hissues, hdeed, hdb⟩
  · exact .inl (by rw [hsame])
  rw [hdb]
  rcases hdeed.uploadOf hissues k with hsame | ⟨r, row, hcall, huploads, hstatus, hrow, hprogress⟩
  · exact .inl hsame
  have hover : σ.prog.over = false := by
    obtain ⟨σ', hi', hperform⟩ := bind_eq_some_iff.1 hstep
    rw [hi] at hi'
    cases hi'
    exact Sys.over_perform hperform
  exact .inr ⟨σ, mem_of_getElem? hi, hover, huploads, hstatus, r, hcall, row, hrow, hprogress⟩

theorem Services.InTurn.row_le (h : s.InTurn p d k content)
    (hstep : s.store.step Service.process ev = some store') {row : FileUpload}
    (hrow : s.store.cur.db.uploadOf k = some row) :
    ∃ row', store'.cur.db.uploadOf k = some row' ∧ row.progress ≤ row'.progress := by
  rcases row_step h.serves hstep with hsame | ⟨σ, hσ, hover, huploads, hstatus, r, hr, row', hrow', heq⟩
  · exact ⟨row, hsame.trans hrow, le_rfl⟩
  · exact ⟨row', hrow', heq ▸ (h.pending σ hσ hover huploads hstatus r hr).2 row hrow⟩

theorem Services.InTurn.forward_step (h : s.InTurn p d k content)
    (hstep : s.store.step Service.process ev = some store') : ProgressForward k store'.versions := by
  rcases h.serves.versions_step hstep with hsame | hnext
  · rw [hsame]
    exact h.forward
  rw [hnext]
  have hlength : s.store.versions.length = s.store.now + 1 := by simp [Sys.versions, Sys.now]
  intro i j v w hij hv hw row hrow
  rcases lt_or_ge j s.store.versions.length with hj | hj
  · rw [getElem?_append_left hj] at hw
    rw [getElem?_append_left (by omega)] at hv
    exact h.forward i j v w hij hv hw row hrow
  have hj' : j = s.store.versions.length := by
    have := (List.getElem?_eq_some_iff.1 hw).1
    simp only [length_append, length_singleton] at this
    omega
  subst hj'
  rw [getElem?_append_right le_rfl, Nat.sub_self, getElem?_cons_zero] at hw
  cases hw
  rcases hij.lt_or_eq with hi | rfl
  · rw [getElem?_append_left hi] at hv
    obtain ⟨row', hrow', hle⟩ := h.forward i s.store.now v s.store.cur (by omega) hv s.store.cur_now row hrow
    obtain ⟨row'', hrow'', hle'⟩ := h.row_le hstep hrow'
    exact ⟨row'', hrow'', hle.trans hle'⟩
  · rw [getElem?_append_right le_rfl, Nat.sub_self, getElem?_cons_zero] at hv
    cases hv
    exact ⟨row, hrow, le_rfl⟩

/-- The command that begins goes by the last answer. -/
theorem Services.InTurn.newest (h : s.InTurn p d k content) {x : UploadRequest × UploadResponse}
    (hx : (s.answersFor k).head? = some x) {row : FileUpload} (hrow : s.store.cur.db.uploadOf k = some row) :
    row.progress ≤ progressOf x := by
  obtain ⟨y, hy, hle⟩ := h.row row hrow
  have hordered := h.ordered
  cases hanswers : s.answersFor k with
  | nil => simp [hanswers] at hx
  | cons z zs =>
    rw [hanswers] at hx hy hordered
    cases hx
    rcases mem_cons.1 hy with rfl | hy
    · exact hle
    · exact hle.trans ((pairwise_cons.1 hordered).1 y hy)

theorem Services.InTurn.store_step (h : s.InTurn p d k content)
    (hturn : UploadsInTurn k s (.store ev)) (hstep : s.step p (.store ev) = some s') : s'.InTurn p d k content := by
  simp only [Services.step] at hstep
  split at hstep
  · obtain ⟨store, hstore, rfl⟩ := map_eq_some_iff.1 hstep
    have hrow := row_step (k := k) h.serves hstore
    refine ⟨h.serves.next hstore, h.slot, h.told, h.ordered, ?_, ?_, ?_, h.forward_step hstore⟩
    · intro row hnew
      rcases hrow with hsame | ⟨σ, hσ, hover, huploads, hstatus, r, hr, row', hrow', heq⟩
      · exact h.row row (hsame ▸ hnew)
      rw [hrow'] at hnew
      cases hnew
      exact ⟨_, (h.pending σ hσ hover huploads hstatus r hr).1, heq.le⟩
    · intro σ' hσ' hover' huploads' hstatus' r hr
      rcases Sys.unended_step hstore hσ' hover' with ⟨σ, hσ, hop, hover⟩ | rfl
      · rw [hop] at huploads' hstatus' hr ⊢
        obtain ⟨hmem, hle⟩ := h.pending σ hσ hover huploads' hstatus' r hr
        refine ⟨hmem, fun row hnew => ?_⟩
        rcases hrow with hsame | ⟨τ, hτ, hoverτ, huploadsτ, -, r', hr', row', hrow', heq⟩
        · exact hle row (hsame ▸ hnew)
        -- whoever writes the row is the same command
        obtain hsame := h.alone σ hσ τ hτ hover hoverτ huploads' huploadsτ
        rw [hrow'] at hnew
        cases hnew
        rw [← hsame] at hr' heq
        cases mem_def.1 hr |>.symm.trans hr'
        exact heq.le
      · obtain ⟨hhead, -⟩ := hturn huploads'
        refine ⟨mem_of_mem_head? (hhead hstatus' r hr), fun row hnew => ?_⟩
        cases hstore
        exact h.newest (hhead hstatus' r hr) hnew
    · intro σ' hσ' τ' hτ' hover hover' huploads huploads'
      rcases Sys.unended_step hstore hσ' hover with ⟨σ, hσ, hop, hoverσ⟩ | hev <;>
        rcases Sys.unended_step hstore hτ' hover' with ⟨τ, hτ, hop', hoverτ⟩ | hev'
      · rw [hop, hop']
        exact h.alone σ hσ τ hτ hoverσ hoverτ (hop ▸ huploads) (hop' ▸ huploads')
      · rw [hev'] at hturn
        rw [(hturn huploads').2 σ hσ (hop ▸ huploads)] at hoverσ
        cases hoverσ
      · rw [hev] at hturn
        rw [(hturn huploads).2 τ hτ (hop' ▸ huploads')] at hoverτ
        cases hoverτ
      · exact Event.begin.inj (hev.symm.trans hev')
  · cases hstep

end inTurn

/-- As long as the chunks of a file are recorded one after the other, and only last chunks come once the object is
    there, the recorded progress of an honest upload never goes back and stays complete. -/
theorem upload_progress_forward {p : FileService.Platform} {k : FileService.Key} {content : FileService.Bytes}
    {storage : FileService.Storage} {d : Db} {s : Services} (hnew : storage.slot k = {})
    (hnone : d.uploadOf k = none)
    (h : Steps.Path (Services.step p) (fun s e => UploadsHonest p k content e ∧ UploadsInTurn k s e)
      ⟨storage, [], Sys.init d⟩ s) :
    ∀ (i j : ℕ) v w, i ≤ j → s.store.versions[i]? = some v → s.store.versions[j]? = some w →
      ∀ row, v.db.uploadOf k = some row → ∃ row', w.db.uploadOf k = some row' ∧
        row.nextOffset ≤ row'.nextOffset ∧ (row.complete = true → row'.complete = true) := by
  have hturn : s.InTurn p d k content := by
    refine h.invariant ?_ fun s ev s' _ hs hok hstep => ?_
    · refine ⟨⟨[], rfl⟩, ?_, by simp [Services.answersFor], by simp [Services.answersFor], ?_, by simp [Sys.init],
        by simp [Sys.init], ?_⟩
      · rw [hnew]
        exact ⟨by simp [FileService.Slot.bytes, FileService.Slot.stored], by simp⟩
      · intro row hrow
        rw [show (Sys.init d : ServiceStore).cur.db.uploadOf k = none from hnone] at hrow
        cases hrow
      · intro i j v w _ hv _ row hrow
        have hi : i = 0 := by
          have := (List.getElem?_eq_some_iff.1 hv).1
          simpa [Sys.versions, Sys.init] using this
        subst hi
        cases hv
        rw [show (Sys.init d : ServiceStore).cur.db.uploadOf k = none from hnone] at hrow
        cases hrow
    · cases ev with
      | file q => exact hs.file_step hok.1 hok.2 hstep
      | store ev => exact hs.store_step hok.2 hstep
  intro i j v w hij hv hw row hrow
  obtain ⟨row', hrow', hle⟩ := hturn.forward i j v w hij hv hw row hrow
  exact ⟨row', hrow', hle.1, Bool.le_iff_imp.1 hle.2⟩

/-! ### A file of six bytes -/

open FileService (smallDisk lengthDigest)

/-- A check that is sufficient for both conditions. -/
def inTurn (p : FileService.Platform) (k : FileService.Key) (content : FileService.Bytes) (s : Services) :
    ServicesEvent → Bool
  | .file (.upload r) =>
    decide ((r.info.fileSize = content.length ∧ r.info.sha256 = p.digest content ∧
      r.data <+: content.drop r.offset.toNat) ∧ ((s.storage.slot k).object ≠ none → r.complete = true))
  | .store (.begin c) =>
    decide ((∀ r ∈ c.call, r.info.fileId = k.id ∧ (s.answersFor k).head? = some (r, c.uploaded)) ∧
      ∀ σ ∈ s.store.sessions, σ.op.uploads k = true → σ.prog.over = true)
  | _ => true

theorem inTurn_ok {p : FileService.Platform} {k : FileService.Key} {content : FileService.Bytes} (s : Services)
    (e : ServicesEvent) (h : inTurn p k content s e = true) :
    UploadsHonest p k content e ∧ UploadsInTurn k s e := by
  match e with
  | .file (.upload r) =>
    obtain ⟨⟨hsize, hdigest, hslice⟩, hlast⟩ := of_decide_eq_true h
    exact ⟨fun _ => ⟨hsize, hdigest, hslice⟩, fun _ => hlast⟩
  | .file (.download _) => exact ⟨trivial, trivial⟩
  | .store (.begin c) =>
    obtain ⟨hcall, halone⟩ := of_decide_eq_true h
    exact ⟨fun _ r hr => (hcall r hr).1, fun _ => ⟨fun _ r hr => (hcall r hr).2, halone⟩⟩
  | .store (.act _ _) | .store (.fault _ _) | .store (.orphan _ _ _) => exact ⟨trivial, trivial⟩

/-- What the versions of the row say. -/
def Services.recorded (s : Services) : List (Option (ℤ × Bool)) :=
  s.store.versions.map fun v => (v.db.uploadOf planKey).map FileUpload.progress

omit [Collation]

def sixBytes : FileService.Bytes := [1, 2, 3, 4, 5, 6]

def sixInfo : FileInfo where
  fileId := planKey.id
  fileName := "a.bin"
  fileType := "a/b"
  fileSize := 6
  sha256 := lengthDigest sixBytes

/-- The command that sends a chunk, and how the File service answered. -/
def sending (offset : ℤ) (data : FileService.Bytes) (complete : Bool) (uploaded : UploadResponse) : Command where
  actorUid := planKey.uid
  actorDeviceId := ""
  request := .fileUpload .chunk (some sixInfo) offset data complete
  uploaded := uploaded

def firstHalf : Command := sending 0 [1, 2, 3] false { userId := 1, status := .PARTIAL, nextOffset := 3 }

def secondHalf : Command := sending 3 [4, 5, 6] true { userId := 1, nextOffset := 6 }

/-- The first half comes once more when the file is complete. -/
def firstAgain : Command := sending 0 [1, 2, 3] false { userId := 1, nextOffset := 6 }

/-- The call that a command makes reaches the File service. -/
def calling (c : Command) : List ServicesEvent := c.call.toList.map fun r => .file (.upload r)

/-- The Message shard goes on with the answer as its session `i`. -/
def recording (i : ℕ) (c : Command) (ns : List ℕ) : List ServicesEvent := (handled i c ns).map .store

def oneByOne : List ServicesEvent :=
  calling firstHalf ++ recording 0 firstHalf (storingNumbers.take 4) ++ calling secondHalf ++
    recording 1 secondHalf storingNumbers

theorem upload_progress_forward_small :
    let _ := Collation.ascii
    ∃ s : Services, Steps.Path (Services.step smallDisk)
        (fun s e => UploadsHonest smallDisk planKey sixBytes e ∧ UploadsInTurn planKey s e) noUploads s ∧
      s.recorded = [none, some (3, false), some (6, true), some (6, true), some (6, true)] ∧
      ∀ (j : ℕ) v w, 1 ≤ j → s.store.versions[1]? = some v → s.store.versions[j]? = some w →
        ∀ row, v.db.uploadOf planKey = some row → ∃ row', w.db.uploadOf planKey = some row' ∧
          row.nextOffset ≤ row'.nextOffset ∧ (row.complete = true → row'.complete = true) := by
  let _ := Collation.ascii
  have heval : (oneByOne.foldlM (fun s e => if inTurn smallDisk planKey sixBytes s e then s.step smallDisk e else none)
      noUploads).any (fun s => decide (s.recorded =
        [none, some (3, false), some (6, true), some (6, true), some (6, true)])) = true := by decide +kernel
  obtain ⟨s, hrun, hrecorded⟩ := (any_eq_true _ _).1 heval
  have hpath : Steps.Path (Services.step smallDisk)
      (fun s e => UploadsHonest smallDisk planKey sixBytes e ∧ UploadsInTurn planKey s e) noUploads s :=
    Steps.Path.here.checked inTurn_ok hrun
  exact ⟨s, hpath, of_decide_eq_true hrecorded, fun j v w hj hv hw row hrow =>
    upload_progress_forward rfl rfl hpath 1 j v w hj hv hw row hrow⟩

theorem sending_honest (offset : ℤ) (data : FileService.Bytes) (complete : Bool) (uploaded : UploadResponse) (i : ℕ)
    (ns : List ℕ) (hslice : data <+: sixBytes.drop offset.toNat) : let _ := Collation.ascii
    ∀ e, e ∈ calling (sending offset data complete uploaded) ∨
        e ∈ recording i (sending offset data complete uploaded) ns →
      UploadsHonest smallDisk planKey sixBytes e := by
  intro _ e he
  rcases he with he | he
  · obtain rfl := mem_singleton.1 he
    exact fun _ => ⟨rfl, rfl, hslice⟩
  obtain ⟨ev, hev, rfl⟩ := mem_map.1 he
  rcases mem_cons.1 hev with rfl | hev
  · rintro - r hr
    cases hr
    rfl
  obtain ⟨n, -, rfl⟩ := mem_map.1 hev
  exact trivial

/-- Both chunks have been answered when the second is recorded, and then the first. -/
def outOfOrder : List ServicesEvent :=
  calling firstHalf ++ calling secondHalf ++ recording 0 secondHalf storingNumbers ++
    recording 1 firstHalf (storingNumbers.take 4)

/-- One after the other, but a copy of the first chunk comes when the file is complete. -/
def lateCopy : List ServicesEvent :=
  oneByOne ++ calling firstAgain ++ recording 2 firstAgain (storingNumbers.take 4)

/-- Chunks of an honest client: the progress goes back when they are recorded in another order than they were
    answered, and a late copy of a chunk makes a complete upload incomplete again. -/
theorem upload_progress_goes_back :
    let _ := Collation.ascii
    (∀ e ∈ outOfOrder ++ lateCopy, UploadsHonest smallDisk planKey sixBytes e) ∧
    (∃ s, outOfOrder.foldlM (Services.step smallDisk) noUploads = some s ∧
      s.recorded = [none, some (6, true), some (6, true), some (6, true), some (3, false)]) ∧
    ∃ s, lateCopy.foldlM (Services.step smallDisk) noUploads = some s ∧
      s.recorded = [none, some (3, false), some (6, true), some (6, true), some (6, true), some (6, false)] := by
  let _ := Collation.ascii
  refine ⟨?_, ?_, ?_⟩
  · have hfirst := fun i ns e => sending_honest 0 [1, 2, 3] false
      { userId := 1, status := .PARTIAL, nextOffset := 3 } i ns (by decide) e
    have hsecond := fun i ns e => sending_honest 3 [4, 5, 6] true
      { userId := 1, nextOffset := 6 } i ns (by decide) e
    have hagain := fun i ns e => sending_honest 0 [1, 2, 3] false
      { userId := 1, nextOffset := 6 } i ns (by decide) e
    intro e he
    simp only [outOfOrder, lateCopy, oneByOne, mem_append] at he
    rcases he with (((he | he) | he) | he) | ((((he | he) | he) | he) | he) | he
    · exact hfirst 0 [] e (.inl he)
    · exact hsecond 0 [] e (.inl he)
    · exact hsecond _ _ e (.inr he)
    · exact hfirst _ _ e (.inr he)
    · exact hfirst 0 [] e (.inl he)
    · exact hfirst _ _ e (.inr he)
    · exact hsecond 0 [] e (.inl he)
    · exact hsecond _ _ e (.inr he)
    · exact hagain 0 [] e (.inl he)
    · exact hagain _ _ e (.inr he)
  · obtain ⟨s, hrun, hrecorded⟩ := (any_eq_true _ _).1
      (show (outOfOrder.foldlM (Services.step smallDisk) noUploads).any (fun s => decide (s.recorded =
        [none, some (6, true), some (6, true), some (6, true), some (3, false)])) = true by decide +kernel)
    exact ⟨s, hrun, of_decide_eq_true hrecorded⟩
  · obtain ⟨s, hrun, hrecorded⟩ := (any_eq_true _ _).1
      (show (lateCopy.foldlM (Services.step smallDisk) noUploads).any (fun s => decide (s.recorded =
        [none, some (3, false), some (6, true), some (6, true), some (6, true), some (6, false)])) = true by
          decide +kernel)
    exact ⟨s, hrun, of_decide_eq_true hrecorded⟩

end Imm
