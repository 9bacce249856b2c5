import Imm.File.Transfer
import Imm.Schemes.Paths

/-! What an upload that does not succeed leaves behind. A chunk is written in whole pages and the file is cut
    back in a second step, so a failure in between leaves a file that is longer than what was sent; as long
    as the bytes of the padding are cut off again, what is left is what was stored and some more of the chunk,
    and a client that goes on at the offset it is told completes the file. A request that is refused should
    change nothing; the bytes of a last chunk whose digest is wrong stay. -/

namespace Imm.FileService

open Steps List

/-! ### What an append leaves -/

/-- No byte of the padding stays: the write stops before it, or there is none, or it is cut off. -/
def Trimmed (p : Platform) (failure : Option Failure) (offset : ℕ) (data : Bytes) : Prop :=
  match failure.map Failure.step with
  | some (.write written) =>
    written ≤ offset % p.alignment + data.length ∨ (offset + data.length) % p.alignment = 0
  | some .truncate => (offset + data.length) % p.alignment = 0
  | _ => True

/-- The chunk and what fills its last page. -/
def padded (p : Platform) (offset : ℕ) (data : Bytes) : Bytes :=
  data ++ List.replicate (pageEnd p (offset + data.length) - (offset + data.length)) 0

theorem pageEnd_sub_eq_zero (p : Platform) (size : ℕ) : pageEnd p size - size = 0 ↔ size % p.alignment = 0 := by
  have hle := le_pageEnd p size
  constructor
  · intro h
    have hend : pageEnd p size = size := by omega
    rw [← hend]
    exact Nat.mod_eq_zero_of_dvd (dvd_pageEnd p size)
  · intro h
    obtain ⟨m, rfl⟩ := Nat.dvd_of_mod_eq_zero h
    have hpos := p.alignment_pos
    rw [pageEnd, show p.alignment * m + p.alignment - 1 = p.alignment * m + (p.alignment - 1) by omega,
      Nat.mul_add_div hpos, Nat.div_eq_of_lt (by omega), Nat.add_zero, Nat.mul_comm, Nat.sub_self]

theorem take_padded_iff (p : Platform) (offset n : ℕ) (data : Bytes) :
    (padded p offset data).take n <+: data ↔ n ≤ data.length ∨ (offset + data.length) % p.alignment = 0 := by
  rw [← pageEnd_sub_eq_zero, padded]
  constructor
  · intro h
    have hlen := h.length_le
    simp only [length_take, length_append, length_replicate] at hlen
    omega
  · rintro (h | h)
    · rw [take_append_of_le_length h]
      exact take_prefix _ _
    · rw [h, replicate_zero, append_nil]
      exact take_prefix _ _

/-- The steps that write to the file. -/
def Step.writes : Step → Bool
  | .write _ => true
  | .truncate => true
  | _ => false

theorem trimmed_of_fails {p : Platform} {failure : Option Failure} {step : Step} (h : fails failure step = true)
    (hstep : step.writes = false) (offset : ℕ) (data : Bytes) : Trimmed p failure offset data := by
  cases failure with
  | none => trivial
  | some f =>
    obtain rfl : f.step = step := by simpa [fails] using h
    obtain ⟨step, text⟩ := f
    cases step <;> trivial

/-- Pages that begin with what is stored write it once more, and some of the chunk behind it. -/
theorem overwrite_take {content : Bytes} {first : ℕ} (hfirst : first ≤ content.length) (data : Bytes) (n : ℕ) :
    overwrite content first ((content.drop first ++ data).take n)
      = content ++ data.take (n - (content.length - first)) := by
  have hlen : (content.drop first).length = content.length - first := length_drop
  by_cases hn : n ≤ content.length - first
  · rw [take_append_of_le_length (by omega), Nat.sub_eq_zero_of_le hn, take_zero, append_nil]
    have hsame : (content.drop first).take n ++ content.drop (first + n) = content.drop first := by
      rw [← drop_drop, take_append_drop]
    simp only [overwrite, length_take, hlen, Nat.min_eq_left hn, append_assoc, hsame, take_append_drop]
  · rw [take_append, take_of_length_le (by omega), hlen]
    have hrest : content.drop (first + (content.drop first ++ data.take (n - (content.length - first))).length)
        = [] := by
      rw [drop_eq_nil_iff, length_append, hlen]
      omega
    rw [overwrite, hrest, append_nil, ← append_assoc, take_append_drop]

/-- An append that fails leaves what was stored, and some of the chunk and its padding. -/
theorem append_left (p : Platform) (failure : Option Failure) (content data : Bytes) :
    append p content content.length data failure = .ok (content ++ data) ∨
      ∃ e left, append p content content.length data failure = .error (e, content ++ left) ∧
        (Trimmed p failure content.length data ↔ left <+: data) := by
  rcases eq_or_ne data [] with rfl | hdata
  · simp [append]
  have hfirst := pageBegin_le p content.length
  have hinside : content.length - pageBegin p content.length = content.length % p.alignment := by
    have := Nat.div_add_mod' content.length p.alignment
    unfold pageBegin
    omega
  have hpages : pages p content data
      = content.drop (pageBegin p content.length) ++ padded p content.length data := by
    rw [pages, padded, append_assoc]
  rw [append_with p failure content hdata]
  split
  · rename_i htail
    refine .inr ⟨_, [], by rw [append_nil], iff_of_true ?_ nil_prefix⟩
    exact trimmed_of_fails htail.2 rfl _ _
  split
  · rename_i written hstep
    refine .inr ⟨_, _, by rw [hpages, overwrite_take hfirst], ?_⟩
    rw [take_padded_iff, hinside, Nat.sub_le_iff_le_add']
    simp only [Trimmed, hstep]
  · rename_i hstep
    have hall := overwrite_take hfirst (padded p content.length data) (pages p content data).length
    rw [← hpages, take_length] at hall
    refine .inr ⟨_, _, by rw [hall], ?_⟩
    have hlong : ¬ (pages p content data).length - (content.length - pageBegin p content.length) ≤ data.length ∨
        (content.length + data.length) % p.alignment = 0 := by
      rw [← pageEnd_sub_eq_zero, hpages, padded]
      simp only [length_append, length_drop, length_replicate]
      omega
    rw [take_padded_iff]
    simp only [Trimmed, hstep]
    tauto
  · exact .inl rfl

/-! ### What an upload leaves -/

section upload

variable {p : Platform} {failure : Option Failure} {s : Storage} {k : Key} {r : UploadRequest}

/-- What a failed upload can leave in its slot. -/
inductive Slot.Remains (t : Slot) (r : UploadRequest) : Slot → Prop
  | same : Remains t r t
  | some (left : Bytes) (hobject : t.object = none) (hoffset : r.offset.toNat = t.stored.length) :
      Remains t r { part := some (t.stored ++ left) }

/-- An upload throws, and what it leaves is what was stored and some of the chunk just if no padding stays. -/
def Throws (p : Platform) (failure : Option Failure) (s : Storage) (k : Key) (r : UploadRequest)
    (answer : Storage.Answer UploadResponse) : Prop :=
  ∃ e t, answer = (.error e, s.put k t) ∧ (s.slot k).Remains r t ∧
    (Trimmed p failure (s.slot k).stored.length r.data ↔ t.stored <+: (s.slot k).stored ++ r.data)

theorem throws_same {step : Step} (h : fails failure step = true) (hstep : step.writes = false) (e : String) :
    Throws p failure s k r (.error e, s) :=
  ⟨e, _, by rw [Storage.put_slot_self], .same, iff_of_true (trimmed_of_fails h hstep _ _) (prefix_append _ _)⟩

theorem extend_left (hobject : (s.slot k).object = none) (hoffset : r.offset.toNat = (s.slot k).stored.length)
    (response : UploadResponse) :
    s.extend p r response k.path (s.slot k).stored failure = s.extend p r response k.path (s.slot k).stored none ∨
      Throws p failure s k r (s.extend p r response k.path (s.slot k).stored failure) := by
  have hwrite : ∀ content, s.write (k.path ++ ".part") content = s.put k { part := some content } :=
    fun content => Storage.write_part s k content hobject
  -- once the whole chunk is stored
  have hall : ∀ {step : Step}, fails failure step = true → step.writes = false →
      Throws p failure s k r (.error (reason failure), s.put k { part := some ((s.slot k).stored ++ r.data) }) :=
    fun h hstep => ⟨_, _, rfl, .some r.data hobject hoffset,
      iff_of_true (trimmed_of_fails h hstep _ _) (prefix_refl _)⟩
  cases hopening : fails failure .opening with
  | true =>
    simp only [Storage.extend, hopening, if_true]
    exact .inr (throws_same hopening rfl _)
  | false =>
    rcases append_left p failure (s.slot k).stored r.data with happend | ⟨e, left, happend, htrim⟩
    · have hsha := sha256_eq p ((s.slot k).stored ++ r.data)
      rw [length_append] at hsha
      simp only [Storage.extend, writeAndHash, hopening, happend, append_eq, hwrite, fails_none,
        Bool.false_eq_true, if_false]
      generalize (r.complete && (s.slot k).stored.length + r.data.length == r.info.fileSize.toNat) = done
      cases done with
      | true =>
        simp only [if_true, hsha]
        cases hhash : fails failure .hash with
        | true => exact .inr (hall hhash rfl)
        | false =>
          cases hclose : fails failure .close with
          | true => exact .inr (hall hclose rfl)
          | false =>
            cases hrename : fails failure .rename with
            | false => exact .inl rfl
            | true =>
              simp only [Bool.false_eq_true, if_false, if_true]
              split
              · exact .inl rfl
              · exact .inr (hall hrename rfl)
      | false =>
        cases hclose : fails failure .close with
        | true => exact .inr (hall hclose rfl)
        | false => exact .inl rfl
    · simp only [Storage.extend, writeAndHash, hopening, happend, hwrite, Bool.false_eq_true, if_false]
      refine .inr ⟨e, _, rfl, .some left hobject hoffset, htrim.trans ?_⟩
      exact (prefix_append_right_inj _).symm

/-- An upload one step of which may fail: it is the upload, or it throws. -/
theorem upload_left (hkey : objectKey r.userId r.info.fileId = k.path) :
    s.upload p r failure = s.upload p r ∨ Throws p failure s k r (s.upload p r failure) := by
  cases hreading : fails failure .reading with
  | true =>
    simp only [Storage.upload, hreading, if_true]
    exact .inr (throws_same hreading rfl _)
  | false =>
    unfold Storage.upload
    simp only [hkey, hreading, fails_none, Bool.false_eq_true, if_false]
    cases hobject : s.files k.path with
    | some content => exact .inl rfl
    | none =>
      simp only
      split
      · exact .inl rfl
      rename_i hoffset
      split
      · exact .inl rfl
      · exact extend_left hobject (not_not.1 hoffset) _

theorem Slot.Remains.stored {t t' : Slot} (h : t.Remains r t') :
    t'.object = t.object ∧ t.stored <+: t'.stored := by
  cases h with
  | same => exact ⟨rfl, prefix_refl _⟩
  | some left hobject => exact ⟨hobject.symm, prefix_append _ _⟩

/-- What a failed upload of an honest client leaves is a beginning of its file. -/
theorem Slot.Remains.holds {t t' : Slot} {digest : Bytes → String} {content : Bytes} (h : t.Remains r t')
    (htrim : t'.stored <+: t.stored ++ r.data) (ht : t.Holds content) (hr : Honest digest content r) :
    t'.Holds content := by
  cases h with
  | same => exact ht
  | some left hobject hoffset => exact Slot.holds_part (htrim.trans (ht.appended hr hobject hoffset))

end upload

/-! ### An honest client -/

/-- An upload that arrives at the storage, and the failure it meets. -/
abbrev Attempt := UploadRequest × Option Failure

def attempt (p : Platform) (s : Storage) (a : Attempt) : Option Storage :=
  if a.1.valid then some (s.upload p a.1 a.2).2 else none

/-- The attempt carries a piece of the content for the key, and none of its padding stays. -/
def Resumable (p : Platform) (k : Key) (content : Bytes) (s : Storage) (a : Attempt) : Prop :=
  (a.1.userId, a.1.info.fileId) = k.pair ∧ Honest p.digest content a.1 ∧
    Trimmed p a.2 (s.slot k).stored.length a.1.data

/-- The piece of the content at an offset. -/
def UploadRequest.piece (r : UploadRequest) (content : Bytes) (offset : ℕ) : UploadRequest :=
  { r with
    offset, data := (content.drop offset).take maxChunkSize
    complete := decide (content.length ≤ offset + maxChunkSize) }

/-- A client that sends piece after piece, each at the offset it was told, until the answer is final. -/
def resume (p : Platform) (r : UploadRequest) (content : Bytes) : ℕ → Storage → ℕ → Storage
  | 0, s, _ => s
  | n + 1, s, offset =>
    match s.execute p (.upload (r.piece content offset)) with
    | (.ok (.upload response), s) =>
      if response.status = .PARTIAL then resume p r content n s response.nextOffset.toNat else s
    | (_, s) => s

section client

variable {p : Platform} {s t : Storage} {k : Key} {r : UploadRequest} {content : Bytes}

/-- After honest attempts that leave no padding, what is stored is a beginning of the content. -/
theorem attempts_hold (hnew : s.slot k = {}) (h : Path (attempt p) (Resumable p k content) s t) :
    (t.slot k).Holds content := by
  refine h.invariant (P := fun s => (s.slot k).Holds content) ?_ ?_
  · rw [hnew]
    exact ⟨List.nil_prefix, by simp⟩
  · rintro s ⟨r, failure⟩ s' - hs ⟨hkey, hr, htrim⟩ hstep
    simp only [attempt] at hstep
    split at hstep
    · cases hstep
      rcases upload_left (UploadRequest.path_eq hkey) with heq | ⟨e, t, heq, hremains, hprefix⟩
      · rw [heq, upload_refines p (UploadRequest.path_eq hkey), Storage.slot_put_self]
        exact (hs.receive hr).2.1
      rw [heq, Storage.slot_put_self]
      exact hremains.holds ( hprefix.1 htrim) hs hr
    · cases hstep

theorem Honest.piece (hr : Honest p.digest content r) (offset : ℕ) :
    Honest p.digest content (r.piece content offset) :=
  ⟨hr.size, hr.digest, take_prefix _ _⟩

theorem UploadRequest.piece_valid (hvalid : r.valid = true) (content : Bytes) (offset : ℕ) :
    (r.piece content offset).valid = true := by
  simp only [UploadRequest.valid, Bool.and_eq_true, decide_eq_true_eq] at hvalid ⊢
  refine ⟨⟨hvalid.1.1, Int.natCast_nonneg _⟩, ?_⟩
  exact length_take_le _ _

/-- Each piece that is not the last is stored, so as many pieces as there are bytes left are enough, and one
    more to learn the offset. -/
theorem resume_completes (hvalid : r.valid = true) (hkey : (r.userId, r.info.fileId) = k.pair)
    (hr : Honest p.digest content r) :
    ∀ (n : ℕ) (s : Storage) (offset : ℕ), (s.slot k).Holds content →
      content.length - (s.slot k).stored.length + (if offset = (s.slot k).stored.length then 1 else 2) ≤ n →
      ((resume p r content n s offset).slot k).object = some content := by
  intro n
  induction n with
  | zero =>
    intro s offset _ hn
    split at hn <;> omega
  | succ n ih =>
    intro s offset hs hn
    have hpiece := execute_upload (p := p) (s := s) (UploadRequest.piece_valid hvalid content offset)
      (show ((r.piece content offset).userId, (r.piece content offset).info.fileId) = k.pair from hkey)
    have hhonest := hr.piece offset
    simp only [resume, hpiece]
    cases hobject : (s.slot k).object with
    | some c =>
      obtain rfl := hs.object c hobject
      simp [hs.completed hhonest hobject, hobject]
    | none =>
      by_cases hoffset : offset = (s.slot k).stored.length
      · have hlen : (r.piece content offset).data.length = min maxChunkSize (content.length - offset) := by
          simp [UploadRequest.piece]
        have hle : offset ≤ content.length := by
          have := hs.stored.length_le
          rw [Slot.bytes, hobject, Option.getD_none] at this
          omega
        by_cases hlast : content.length ≤ offset + maxChunkSize
        · have hdone : (r.piece content offset).complete = true ∧
              (s.slot k).stored.length + (r.piece content offset).data.length = content.length := by
            refine ⟨decide_eq_true hlast, ?_⟩
            omega
          rw [hs.finished hhonest hobject hoffset hdone]
          simp
        · rw [hs.grown hhonest hobject hoffset fun hdone => hlast (of_decide_eq_true hdone.1)]
          simp only [if_true, Int.toNat_natCast]
          rw [if_pos hoffset] at hn
          refine ih _ _ ?_ ?_
          · rw [Storage.slot_put_self]
            exact Slot.holds_part (hs.appended hhonest hobject hoffset)
          · simp only [Storage.slot_put_self, Slot.stored, Option.getD_some, if_true, length_append]
            have hpos : maxChunkSize ≠ 0 := by decide
            have hmore : (s.slot k).part.getD [] = (s.slot k).stored := rfl
            rw [hmore]
            omega
      · rw [hs.elsewhere hhonest hobject hoffset]
        simp only [if_true, Int.toNat_natCast, Storage.put_slot_self]
        rw [if_neg hoffset] at hn
        exact ih s _ hs (by rw [if_pos rfl]; omega)

end client

/-- A failed upload leaves what was stored and at most the chunk behind it just if no byte of the padding stays.
    As long as none does, the offset an honest client is told is the length of a beginning of its file, and
    following these offsets completes the file. -/
theorem failed_upload_resumable (p : Platform) (k : Key) :
    (∀ (s : Storage) (r : UploadRequest) (failure : Option Failure) (e : String), r.valid = true →
      (r.userId, r.info.fileId) = k.pair → (s.slot k).object = none →
      r.offset.toNat = (s.slot k).stored.length → (s.upload p r failure).1 = .error e →
      (Trimmed p failure (s.slot k).stored.length r.data ↔
        ((s.upload p r failure).2.slot k).object = none ∧
        ((s.upload p r failure).2.slot k).stored <+: (s.slot k).stored ++ r.data ∧
        (s.slot k).stored.length ≤ ((s.upload p r failure).2.slot k).stored.length)) ∧
    ∀ (content : Bytes) (s t : Storage), s.slot k = {} → Path (attempt p) (Resumable p k content) s t →
      ∀ r : UploadRequest, r.valid = true → (r.userId, r.info.fileId) = k.pair → Honest p.digest content r →
      (∃ response, (t.upload p r).1 = .ok response ∧ response.status ≠ .FAILED ∧
        response.nextOffset = ((t.upload p r).2.slot k).bytes.length ∧
        ((t.upload p r).2.slot k).bytes <+: content) ∧
      ∀ offset n, content.length + 2 ≤ n → ((resume p r content n t offset).slot k).object = some content := by
  constructor
  · intro s r failure e hvalid hkey hobject hoffset hfailed
    rcases upload_left (UploadRequest.path_eq hkey) with heq | ⟨e', t', heq, hremains, hprefix⟩
    · rw [heq, upload_refines p (UploadRequest.path_eq hkey)] at hfailed
      cases hfailed
    obtain ⟨hobject', hold⟩ := hremains.stored
    rw [heq, Storage.slot_put_self, hprefix]
    exact ⟨fun h => ⟨hobject'.trans hobject, h, hold.length_le⟩, fun h => h.2.1⟩
  · intro content s t hnew hpath r hvalid hkey hr
    have ht := attempts_hold hnew hpath
    obtain ⟨hstatus, hholds, hnext, -⟩ := ht.receive hr
    constructor
    · rw [upload_refines p (UploadRequest.path_eq hkey), Storage.slot_put_self]
      exact ⟨_, rfl, hstatus, hnext, hholds.stored⟩
    · intro offset n hn
      refine resume_completes hvalid hkey hr n t offset ht ?_
      split <;> omega

/-- A write that stops after two bytes. -/
theorem failed_upload_resumable_small :
    ∃ s, attempt smallDisk noFiles (smallUpload 0 [1, 2, 3] false, some ⟨.write 2, "I/O error"⟩) = some s ∧
      (s.slot smallKey).stored = [1, 2] ∧
      ((resume smallDisk (smallUpload 0 [1, 2, 3] false) [1, 2, 3, 4, 5, 6, 7] 9 s 0).slot smallKey).object
        = some [1, 2, 3, 4, 5, 6, 7] := by
  have hvalid : (smallUpload 0 [1, 2, 3] false).valid = true := by decide +kernel
  have hhonest : Honest smallDisk.digest [1, 2, 3, 4, 5, 6, 7] (smallUpload 0 [1, 2, 3] false) :=
    ⟨by decide, by decide, by decide⟩
  have hstep : attempt smallDisk noFiles (smallUpload 0 [1, 2, 3] false, some ⟨.write 2, "I/O error"⟩)
      = some _ := if_pos hvalid
  refine ⟨_, hstep, by decide +kernel, ?_⟩
  refine ((failed_upload_resumable smallDisk smallKey).2 [1, 2, 3, 4, 5, 6, 7] noFiles _ rfl
    (Path.here.next ⟨rfl, hhonest, ?_⟩ hstep) _ hvalid rfl hhonest).2 0 9 (by decide)
  exact .inl (by decide : 2 ≤ 0 % 4 + 3)

/-- The padding of the page is not cut off: a byte that was never sent is stored, and a client that tries again
    is told to go on behind it. -/
theorem padding_stays :
    let s := (noFiles.upload smallDisk (smallUpload 0 [1, 2, 3] false) (some ⟨.truncate, "I/O error"⟩)).2
    (noFiles.slot smallKey).stored = [] ∧
      (noFiles.upload smallDisk (smallUpload 0 [1, 2, 3] false) (some ⟨.truncate, "I/O error"⟩)).1
        = .error "I/O error" ∧
      (s.slot smallKey).stored = [1, 2, 3, 0] ∧
      ¬ (s.slot smallKey).stored <+: (noFiles.slot smallKey).stored ++ [1, 2, 3] ∧
      (s.upload smallDisk (smallUpload 0 [1, 2, 3] false)).1 = .ok {
        userId := 7, status := .PARTIAL, nextOffset := 4
        message := "upload offset differs from stored progress" } := by
  decide +kernel

/-! ### Requests that are refused -/

/-- A chunk that completes the file has the digest it declares, or it carries nothing and finds the whole file
    stored. -/
def Slot.Matches (digest : Bytes → String) (t : Slot) (r : UploadRequest) : Prop :=
  t.object = none → r.offset.toNat = t.stored.length → r.complete = true →
    t.stored.length + r.data.length = r.info.fileSize.toNat →
    digest (t.stored ++ r.data) = r.info.sha256 ∨ r.data = [] ∧ t.part.isSome = true

theorem Slot.matches_iff (digest : Bytes → String) (t : Slot) (r : UploadRequest) :
    t.Matches digest r ↔ ((t.receive digest r).1.status = .FAILED → (t.receive digest r).2 = t) := by
  unfold Slot.receive Slot.Matches
  cases hobject : t.object with
  | some content =>
    simp only [reduceCtorEq, false_implies, true_iff]
    intro _
    split <;> rfl
  | none =>
    simp only [true_implies]
    split
    · rename_i hoffset
      refine iff_of_true (fun h => absurd h hoffset) fun _ => ?_
      split <;> rfl
    rename_i hoffset
    split
    · rename_i hlarge
      exact iff_of_true (fun _ _ h => absurd h (by omega)) fun _ => rfl
    split
    · rename_i hdone
      rw [length_append] at hdone
      simp only [not_not.1 hoffset, hdone, true_implies]
      split
      · rename_i hdigest
        exact iff_of_true (.inl hdigest) fun h => by cases h
      rename_i hdigest
      simp only [hdigest, false_or, true_implies]
      obtain ⟨object, part⟩ := t
      obtain rfl := hobject
      cases part <;> simp [Slot.stored]
    · rename_i hopen
      refine iff_of_true (fun _ hcomplete hsize => absurd ⟨hcomplete, ?_⟩ hopen) fun h => by cases h
      rwa [length_append]

/-- The digests of uploads that complete a file are right. -/
def Careful (p : Platform) (s : Storage) : Request → Prop
  | .upload r => ∀ k : Key, (r.userId, r.info.fileId) = k.pair → (s.slot k).Matches p.digest r
  | .download _ => True

def refuses (p : Platform) (s : Storage) (q : Request) : Bool :=
  match (s.execute p q).1 with
  | .ok (.upload response) => decide (response.status = .FAILED)
  | _ => false

/-- The requests of a run that are not refused. -/
def heard (p : Platform) : Storage → List Request → List Request
  | _, [] => []
  | s, q :: rs =>
    if refuses p s q then heard p (s.execute p q).2 rs else q :: heard p (s.execute p q).2 rs

def AllCareful (p : Platform) : Storage → List Request → Prop
  | _, [] => True
  | s, q :: rs => Careful p s q ∧ AllCareful p (s.execute p q).2 rs

theorem careful_iff {p : Platform} {s : Storage} {r : UploadRequest} (hvalid : r.valid = true) :
    Careful p s (.upload r) ↔ (refuses p s (.upload r) = true → (s.execute p (.upload r)).2 = s) := by
  obtain ⟨k, hkey⟩ := UploadRequest.exists_key hvalid
  have hput : ∀ t, s.put k t = s ↔ t = s.slot k := by
    intro t
    constructor
    · intro h
      rw [← h, Storage.slot_put_self]
    · rintro rfl
      exact Storage.put_slot_self s k
  have hslot : Careful p s (.upload r) ↔ (s.slot k).Matches p.digest r := by
    refine ⟨fun h => h k hkey, fun h k' hkey' => ?_⟩
    rwa [Key.path_inj ((UploadRequest.path_eq hkey').symm.trans (UploadRequest.path_eq hkey))]
  rw [hslot, Slot.matches_iff]
  simp only [refuses, execute_upload hvalid hkey, decide_eq_true_eq, hput]

theorem execute_refused {p : Platform} {s : Storage} {q : Request} (hcareful : Careful p s q)
    (h : refuses p s q = true) : (s.execute p q).2 = s := by
  cases q with
  | download r =>
    simp only [Storage.execute]
    split <;> rfl
  | upload r =>
    by_cases hvalid : r.valid = true
    · exact (careful_iff hvalid).1 hcareful h
    · simp [Storage.execute, hvalid]

/-- A refused request leaves every file as it is just if the digest of an upload that completes a file is right;
    as long as it is, a run is a run without the requests that were refused. -/
theorem refused_upload_changes_nothing (p : Platform) :
    (∀ (s : Storage) (r : UploadRequest) (response : UploadResponse), r.valid = true →
      (s.execute p (.upload r)).1 = .ok (.upload response) →
      (Careful p s (.upload r) ↔ (response.status = .FAILED → (s.execute p (.upload r)).2 = s))) ∧
    ∀ (s : Storage) (rs : List Request), AllCareful p s rs → s.run p rs = s.run p (heard p s rs) := by
  constructor
  · intro s r response hvalid h
    rw [careful_iff hvalid]
    simp only [refuses, h, decide_eq_true_eq]
  · intro s rs
    induction rs generalizing s with
    | nil =>
      intro _
      rfl
    | cons q rs ih =>
      rintro ⟨hcareful, hrest⟩
      have hlater := ih _ hrest
      simp only [heard]
      split
      · rename_i hrefused
        have hsame := execute_refused hcareful hrefused
        rw [hsame] at hlater ⊢
        rw [← hlater, Storage.run, foldl_cons, hsame, ← Storage.run]
      · rw [Storage.run, foldl_cons, ← Storage.run, hlater, Storage.run, Storage.run, foldl_cons]

/-- A chunk sent again with another byte is refused. -/
theorem refused_upload_changes_nothing_small :
    let s := noFiles.run smallDisk [.upload (smallUpload 0 [1, 2, 3] false)]
    (s.slot smallKey).stored = [1, 2, 3] ∧ refuses smallDisk s (.upload (smallUpload 1 [9] false)) = true ∧
      (s.execute smallDisk (.upload (smallUpload 1 [9] false))).2 = s := by
  refine ⟨by decide +kernel, by decide +kernel, ?_⟩
  refine ((refused_upload_changes_nothing smallDisk).1 _ _ {
    userId := 7, status := .FAILED, message := "retried chunk does not match stored bytes" } (by decide +kernel)
    (by decide +kernel)).1 ?_ rfl
  intro k _ _ _ hcomplete
  cases hcomplete

/-- Seven bytes that are not the file, under a digest that is not theirs. -/
def wrongUpload : UploadRequest where
  file := some { fileId := smallKey.id, fileName := "a.bin", fileType := "a/b", fileSize := 7,
                 sha256 := String.ofList (List.replicate 32 'y') }
  userId := 7
  offset := 0
  data := [9, 9, 9, 9, 9, 9, 9]
  complete := true

/-- The refused bytes stay, and the right ones are refused from then on. -/
theorem refused_upload_stays :
    let s := (noFiles.execute smallDisk (.upload wrongUpload)).2
    wrongUpload.valid = true ∧ refuses smallDisk noFiles (.upload wrongUpload) = true ∧
      noFiles.slot smallKey = {} ∧ s.slot smallKey = { part := some [9, 9, 9, 9, 9, 9, 9] } ∧
      refuses smallDisk noFiles (.upload (smallUpload 0 [1, 2, 3, 4, 5, 6, 7] true)) = false ∧
      refuses smallDisk s (.upload (smallUpload 0 [1, 2, 3, 4, 5, 6, 7] true)) = true := by
  decide +kernel

end Imm.FileService
