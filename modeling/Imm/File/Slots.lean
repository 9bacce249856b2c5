import Imm.File.Pages
import Imm.Schemes.Texts
import Mathlib.Data.List.Infix

/-! What the storage keeps for a key, without paths and pages. A slot holds the bytes received so far, or the
    object; an upload is a function of the slot of its own key. The storage refines this: appending through
    whole pages adds just the bytes of the chunk, hashing piece by piece gives the digest of the content, no
    exception is thrown, and the paths of different keys never meet. -/

namespace Imm.FileService

open List

/-! ### Slots -/

structure Slot where
  object : Option Bytes := none
  part : Option Bytes := none
  deriving DecidableEq

/-- The bytes received so far. -/
def Slot.stored (t : Slot) : Bytes := t.part.getD []

/-- The answer to an upload and the slot after it. -/
def Slot.receive (digest : Bytes → String) (t : Slot) (r : UploadRequest) : UploadResponse × Slot :=
  let failed (message : String) : UploadResponse := { userId := r.userId, status := .FAILED, message }
  match t.object with
  | some content =>
    if content.length = r.info.fileSize.toNat ∧ digest content = r.info.sha256 then
      ({ userId := r.userId, nextOffset := content.length }, t)
    else (failed "completed file metadata mismatch", t)
  | none =>
    if r.offset.toNat ≠ t.stored.length then
      if r.offset.toNat < t.stored.length ∧ r.data.take (t.stored.length - r.offset.toNat) ≠
          (t.stored.drop r.offset.toNat).take r.data.length then
        (failed "retried chunk does not match stored bytes", t)
      else
        ({ userId := r.userId, status := .PARTIAL, nextOffset := t.stored.length,
           message := "upload offset differs from stored progress" }, t)
    else if r.info.fileSize.toNat < t.stored.length + r.data.length then
      (failed "chunk exceeds declared size", t)
    else
      let content := t.stored ++ r.data
      if r.complete ∧ content.length = r.info.fileSize.toNat then
        if digest content = r.info.sha256 then
          ({ userId := r.userId, nextOffset := content.length }, { object := some content })
        else (failed "file sha256 mismatch", { part := some content })
      else ({ userId := r.userId, status := .PARTIAL, nextOffset := content.length }, { part := some content })

/-! ### Pages and pieces -/

theorem length_readRange (content : Bytes) (offset count : ℕ) :
    (readRange content offset count).length = min count (content.length - offset) := by
  simp [readRange]

/-- Reading up to the end in pieces of at most 64 KiB takes in everything. -/
theorem absorb_eq (content : Bytes) {offset : ℕ} (h : offset ≤ content.length) :
    absorb content content.length offset (content.take offset) = .ok content := by
  induction hn : content.length - offset using Nat.strong_induction_on generalizing offset with
  | _ n ih =>
    unfold absorb
    split
    · rename_i hlt
      have hlen := length_readRange content offset (min 65536 (content.length - offset))
      split
      · rename_i hnil
        rw [hnil, length_nil] at hlen
        omega
      rename_i b bytes hread
      rw [hread] at hlen
      have htake : content.take offset ++ b :: bytes = content.take (offset + (b :: bytes).length) := by
        rw [take_add, hlen, ← hread, readRange]
        congr 2
        omega
      rw [htake]
      exact ih _ (by omega) (by omega) rfl
    · obtain rfl : offset = content.length := by omega
      rw [take_length]

theorem sha256_eq (p : Platform) (content : Bytes) : sha256 p content content.length = .ok (p.digest content) := by
  have h := absorb_eq content (Nat.zero_le _)
  rw [take_zero] at h
  rw [sha256, h]
  rfl

/-! ### Paths -/

theorem toList_objectKey {uid : ℤ} (huid : 0 < uid) (id : String) :
    (objectKey uid id).toList = uid.toNat.repr.toList ++ '/' :: id.toList := by
  obtain ⟨n, rfl⟩ := Int.eq_ofNat_of_zero_le (Int.le_of_lt huid)
  have hrepr : toString (n : ℤ) = n.repr := rfl
  simp [objectKey, hrepr]

theorem slash_notMem_repr (n : ℕ) : '/' ∉ n.repr.toList := fun h =>
  absurd (Texts.isDigit_of_mem_repr h) (by decide)

/-- The slash ends the part of the user. -/
theorem objectKey_inj {uid uid' : ℤ} {id id' : String} (huid : 0 < uid) (huid' : 0 < uid')
    (h : objectKey uid id = objectKey uid' id') : uid = uid' ∧ id = id' := by
  have hlist := congrArg String.toList h
  rw [toList_objectKey huid, toList_objectKey huid'] at hlist
  obtain ⟨hrepr, hid⟩ := Texts.cut_first (slash_notMem_repr _) (slash_notMem_repr _) hlist
  have hnat := Texts.repr_inj hrepr
  exact ⟨by omega, String.toList_inj.1 hid⟩

/-- There is no dot in the path of an object, as there is in that of every partial file. -/
theorem dot_notMem_objectKey {uid : ℤ} {id : String} (huid : 0 < uid) (hid : safeId id = true) :
    '.' ∉ (objectKey uid id).toList := by
  rw [toList_objectKey huid, mem_append, mem_cons]
  rintro (hmem | hmem | hmem)
  · exact absurd (Texts.isDigit_of_mem_repr hmem) (by decide)
  · exact absurd hmem (by decide)
  · simp only [safeId, Bool.and_eq_true, all_eq_true] at hid
    exact absurd (hid.2 _ hmem) (by decide)

/-- A user and a file id that the checks let through. -/
structure Key where
  uid : ℤ
  id : String
  uid_pos : 0 < uid
  safe : safeId id = true
  deriving DecidableEq

namespace Key

def path (k : Key) : String := objectKey k.uid k.id

def part (k : Key) : String := k.path ++ ".part"

theorem path_inj {k k' : Key} (h : k.path = k'.path) : k = k' := by
  obtain ⟨huid, hid⟩ := objectKey_inj k.uid_pos k'.uid_pos h
  cases k
  cases k'
  simp_all

theorem path_ne_part (k k' : Key) : k.path ≠ k'.part := by
  intro h
  refine dot_notMem_objectKey k.uid_pos k.safe ?_
  have hlist : (objectKey k.uid k.id).toList = k'.path.toList ++ ".part".toList := by
    rw [show objectKey k.uid k.id = k'.path ++ ".part" from h, String.toList_append]
  rw [hlist]
  exact mem_append_right _ (by decide)

theorem part_inj {k k' : Key} (h : k.part = k'.part) : k = k' := by
  refine path_inj (String.toList_inj.1 ?_)
  have hlist := congrArg String.toList h
  simpa [part] using hlist

end Key

/-! ### The storage refines its slots -/

namespace Storage

def slot (s : Storage) (k : Key) : Slot := ⟨s.files k.path, s.files k.part⟩

/-- The files of one key replaced. -/
def put (s : Storage) (k : Key) (t : Slot) : Storage :=
  ⟨Function.update (Function.update s.files k.path t.object) k.part t.part⟩

@[simp] theorem slot_put_self (s : Storage) (k : Key) (t : Slot) : (s.put k t).slot k = t := by
  simp [slot, put, Key.path_ne_part]

theorem slot_put_ne (s : Storage) {k k' : Key} (t : Slot) (h : k' ≠ k) : (s.put k t).slot k' = s.slot k' := by
  have hpath : k'.path ≠ k.path := fun e => h (Key.path_inj e)
  have hpart : k'.part ≠ k.part := fun e => h (Key.part_inj e)
  simp [slot, put, Key.path_ne_part, (Key.path_ne_part _ _).symm, hpath, hpart]

theorem put_slot_self (s : Storage) (k : Key) : s.put k (s.slot k) = s := by
  simp [slot, put]

theorem write_part (s : Storage) (k : Key) (content : Bytes) (h : s.files k.path = none) :
    s.write k.part content = s.put k { part := some content } := by
  simp [write, put, ← h]

theorem rename_part (s : Storage) (k : Key) (content : Bytes) :
    (s.write k.part content).rename k.part k.path = s.put k { object := some content } := by
  simp only [write, rename, put, Function.update_self, Storage.mk.injEq]
  rw [Function.update_comm (Key.path_ne_part k k), Function.update_idem]
  exact Function.update_comm (Key.path_ne_part k k).symm _ _ _

end Storage

section refinement

variable (p : Platform) {s : Storage} {k : Key} {r : UploadRequest} {stored : Bytes}

/-- Bytes sent again are compared where they overlap with the stored ones. -/
theorem elsewhere_eq (hobject : s.files k.path = none) (hstored : (s.slot k).stored = stored)
    (hoffset : r.offset.toNat ≠ stored.length) :
    s.elsewhere r { userId := r.userId, status := .FAILED } stored
      = (.ok ((s.slot k).receive p.digest r).1, s.put k ((s.slot k).receive p.digest r).2) := by
  have hread : readRange stored r.offset.toNat (min r.data.length (stored.length - r.offset.toNat))
      = (stored.drop r.offset.toNat).take r.data.length := by
    rw [readRange, ← length_drop, ← take_take, take_length]
  have htake : r.data.take (min r.data.length (stored.length - r.offset.toNat))
      = r.data.take (stored.length - r.offset.toNat) := by
    rw [Nat.min_comm, ← take_take, take_length]
  have hempty : r.data = [] → r.data.take (stored.length - r.offset.toNat)
      = (stored.drop r.offset.toNat).take r.data.length := by
    rintro h
    simp [h]
  have hslot : (s.slot k).object = none := hobject
  unfold Storage.elsewhere Slot.receive
  simp only [hslot, hstored, hread, htake]
  rw [if_pos hoffset]
  by_cases hdiffer : r.offset.toNat < stored.length ∧ r.data.take (stored.length - r.offset.toNat) ≠
      (stored.drop r.offset.toNat).take r.data.length
  · have hdata : r.data ≠ [] := fun h => hdiffer.2 (hempty h)
    rw [if_pos hdiffer, if_pos (by simp [hdiffer.1, hdata, Ne.symm hdiffer.2]), Storage.put_slot_self]
  rw [if_neg hdiffer, if_neg (by simp only [Bool.and_eq_true, bne_iff_ne, decide_eq_true_eq]; tauto),
    Storage.put_slot_self]

theorem extend_eq (hobject : s.files k.path = none) (hstored : (s.slot k).stored = stored)
    (hoffset : r.offset.toNat = stored.length) (hsize : stored.length + r.data.length ≤ r.info.fileSize.toNat) :
    s.extend p r { userId := r.userId, status := .FAILED } k.path stored none
      = (.ok ((s.slot k).receive p.digest r).1, s.put k ((s.slot k).receive p.digest r).2) := by
  have hslot : (s.slot k).object = none := hobject
  have hfits : ¬ r.info.fileSize.toNat < stored.length + r.data.length := by omega
  have hsha := sha256_eq p (stored ++ r.data)
  rw [length_append] at hsha
  unfold Storage.extend Slot.receive writeAndHash
  simp only [hslot, hstored, append_eq, length_append, hoffset, ne_eq, not_true_eq_false, if_false, hfits,
    fails_none, Bool.false_eq_true]
  by_cases hdone : r.complete = true ∧ stored.length + r.data.length = r.info.fileSize.toNat
  · have hflag : (r.complete && stored.length + r.data.length == r.info.fileSize.toNat) = true := by
      simpa using hdone
    simp only [if_pos hdone, if_pos hflag, hsha]
    by_cases hdigest : p.digest (stored ++ r.data) = r.info.sha256
    · simp only [hdigest, not_true_eq_false, if_false, if_true]
      exact congrArg _ (Storage.rename_part s k _)
    simp only [hdigest, not_false_eq_true, if_false, if_true]
    exact congrArg _ (Storage.write_part s k _ hobject)
  · have hflag : (r.complete && stored.length + r.data.length == r.info.fileSize.toNat) = false := by
      simpa using hdone
    simp only [if_neg hdone, hflag, if_false, Bool.false_eq_true]
    exact congrArg _ (Storage.write_part s k _ hobject)

/-- An upload answers and changes the files as its slot says, and leaves every other file alone. -/
theorem upload_refines (hkey : objectKey r.userId r.info.fileId = k.path) :
    s.upload p r = (.ok ((s.slot k).receive p.digest r).1, s.put k ((s.slot k).receive p.digest r).2) := by
  unfold Storage.upload
  simp only [hkey, fails_none, Bool.false_eq_true, if_false]
  split
  · rename_i content hobject
    have hslot : (s.slot k).object = some content := hobject
    unfold Storage.completed Slot.receive
    simp only [sha256_eq, hslot]
    split
    · rename_i hmismatch
      rw [if_neg (by tauto), Storage.put_slot_self]
    rename_i hmatch
    rw [if_pos (by tauto), Storage.put_slot_self]
  · rename_i hobject
    have hslot : (s.slot k).object = none := hobject
    split
    · exact elsewhere_eq p hobject rfl ‹_›
    rename_i hoffset
    have hoffset : r.offset.toNat = (s.slot k).stored.length := not_not.1 hoffset
    split
    · rename_i hlarge
      have hlarge : r.info.fileSize.toNat < (s.slot k).stored.length + r.data.length := by
        omega
      unfold Slot.receive
      simp only [hslot]
      rw [if_neg (not_not.2 hoffset), if_pos hlarge, Storage.put_slot_self]
    · rename_i hfits
      refine extend_eq p hobject rfl hoffset ?_
      omega

end refinement

end Imm.FileService
