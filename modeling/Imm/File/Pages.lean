import Imm.File.Storage
import Mathlib.Tactic.Common

/-! How `append` writes a file in whole pages. It reads back what the page at the end of the file already
    holds, writes the pages from the beginning of that one on, and cuts the padding off.

                begin     |c|        |c| + |data|    end
        file ─────┼────────┤
        buffer    │  tail  │    data      │  zeros   │
        file ─────┼────────┴──────────────┤ -/

namespace Imm.FileService

open List

/-! ### Pages -/

/-- `begin` -/
def pageBegin (p : Platform) (offset : ℕ) : ℕ := offset / p.alignment * p.alignment

/-- `end`, for the offset after the data -/
def pageEnd (p : Platform) (offset : ℕ) : ℕ := (offset + p.alignment - 1) / p.alignment * p.alignment

theorem pageBegin_le (p : Platform) (offset : ℕ) : pageBegin p offset ≤ offset := Nat.div_mul_le_self _ _

theorem le_pageEnd (p : Platform) (offset : ℕ) : offset ≤ pageEnd p offset := by
  have hpos := p.alignment_pos
  have hdiv := Nat.div_add_mod' (offset + p.alignment - 1) p.alignment
  have hmod := Nat.mod_lt (offset + p.alignment - 1) hpos
  unfold pageEnd
  omega

theorem dvd_pageBegin (p : Platform) (offset : ℕ) : p.alignment ∣ pageBegin p offset := Nat.dvd_mul_left _ _

theorem dvd_pageEnd (p : Platform) (offset : ℕ) : p.alignment ∣ pageEnd p offset := Nat.dvd_mul_left _ _

/-! ### What is asked of the file -/

inductive FileOperation where
  /-- `dma_write` -/
  | write (position : ℕ) (bytes : Bytes)
  | truncate (size : ℕ)
  deriving DecidableEq, Repr

def FileOperation.apply (content : Bytes) : FileOperation → Bytes
  | .write position bytes => overwrite content position bytes
  | .truncate size => content.take size

/-- What `append` does to the file, in order. -/
def appendOperations (p : Platform) (content : Bytes) (offset : ℕ) (data : Bytes) :
    Except (String × Bytes) (List FileOperation) :=
  if data.isEmpty then .ok []
  else
    let first := pageBegin p offset
    let last := pageEnd p (offset + data.length)
    let buffer : Bytes := List.replicate (last - first) 0
    let kept := readRange content first (offset - first)
    if first < offset && kept.length != offset - first then .error ("cannot read upload tail", content)
    else
      let buffer := if first < offset then overwrite buffer 0 kept else buffer
      let buffer := overwrite buffer (offset - first) data
      .ok [.write first buffer, .truncate (offset + data.length)]

theorem append_operations (p : Platform) (content : Bytes) (offset : ℕ) (data : Bytes) :
    append p content offset data =
      (appendOperations p content offset data).map (·.foldl FileOperation.apply content) := by
  unfold append appendOperations pageBegin pageEnd
  split
  · rfl
  simp only [fails_none, Bool.false_or, Option.map_none]
  split
  · rfl
  · rfl

/-! ### The buffer -/

theorem overwrite_append_left (a b data : Bytes) :
    overwrite (a ++ b) a.length data = a ++ data ++ b.drop data.length := by
  simp [overwrite]

/-- The buffer holds the bytes before the chunk in its first page, the chunk and the padding. -/
theorem buffer_eq (p : Platform) (content data : Bytes) :
    let first := content.length / p.alignment * p.alignment
    let last := (content.length + data.length + p.alignment - 1) / p.alignment * p.alignment
    let kept := readRange content first (content.length - first)
    let zeros : Bytes := List.replicate (last - first) 0
    overwrite (if first < content.length then overwrite zeros 0 kept else zeros) (content.length - first) data
      = content.drop first ++ data ++ List.replicate (last - (content.length + data.length)) 0 := by
  intro first last kept zeros
  have hfirst : first ≤ content.length := Nat.div_mul_le_self _ _
  have hkept : kept = content.drop first := by
    simp [kept, readRange, take_of_length_le]
  have hlen : kept.length = content.length - first := by rw [hkept, length_drop]
  have hpadded : (if first < content.length then overwrite zeros 0 kept else zeros)
      = kept ++ zeros.drop kept.length := by
    split
    · simp [overwrite]
    have : kept = [] := length_eq_zero_iff.1 (by omega)
    simp [this]
  rw [hpadded, ← hlen, overwrite_append_left, hkept]
  congr 1
  simp only [zeros, drop_replicate, length_drop]
  congr 1
  omega

/-- The pages an append writes. -/
def pages (p : Platform) (content data : Bytes) : Bytes :=
  content.drop (pageBegin p content.length) ++ data ++
    List.replicate (pageEnd p (content.length + data.length) - (content.length + data.length)) 0

theorem length_pages (p : Platform) (content data : Bytes) :
    pageBegin p content.length + (pages p content data).length = pageEnd p (content.length + data.length) := by
  have hbegin := pageBegin_le p content.length
  have hend := le_pageEnd p (content.length + data.length)
  simp only [pages, length_append, length_drop, length_replicate]
  omega

/-- Appended at the end, the tail of the last page is there to be read. -/
theorem tail_read (p : Platform) (content : Bytes) :
    (readRange content (pageBegin p content.length) (content.length - pageBegin p content.length)).length
      = content.length - pageBegin p content.length := by
  simp [readRange]

theorem appendOperations_eq (p : Platform) (content : Bytes) {data : Bytes} (hdata : data ≠ []) :
    appendOperations p content content.length data =
      .ok [.write (pageBegin p content.length) (pages p content data),
        .truncate (content.length + data.length)] := by
  have hempty : ¬ data.isEmpty = true := by simpa using hdata
  unfold appendOperations
  rw [if_neg hempty]
  rw [if_neg (by simp [tail_read])]
  exact congrArg Except.ok
    (congrArg₂ List.cons (congrArg (FileOperation.write _) (buffer_eq p content data)) rfl)

/-- Writing the pages changes no byte of the file and adds the data before the padding. -/
theorem overwrite_pages (p : Platform) (content data : Bytes) :
    overwrite content (pageBegin p content.length) (pages p content data) =
      content ++ data ++ List.replicate (pageEnd p (content.length + data.length) -
        (content.length + data.length)) 0 := by
  have hrest : content.drop (pageBegin p content.length + (pages p content data).length) = [] := by
    rw [length_pages, drop_eq_nil_iff]
    exact Nat.le_trans (Nat.le_add_right _ _) (le_pageEnd p _)
  rw [overwrite, hrest, append_nil, pages, ← append_assoc, ← append_assoc, take_append_drop]

theorem take_overwrite_pages (p : Platform) (content data : Bytes) :
    (overwrite content (pageBegin p content.length) (pages p content data)).take (content.length + data.length)
      = content ++ data := by
  rw [overwrite_pages, take_left' (by simp)]

theorem append_with (p : Platform) (failure : Option Failure) (content : Bytes) {data : Bytes}
    (hdata : data ≠ []) :
    append p content content.length data failure =
      if pageBegin p content.length < content.length ∧ fails failure .tail = true then
        .error ("cannot read upload tail", content)
      else match failure.map Failure.step with
      | some (.write written) =>
        .error (reason failure, overwrite content (pageBegin p content.length) ((pages p content data).take written))
      | some .truncate => .error (reason failure, overwrite content (pageBegin p content.length) (pages p content data))
      | _ => .ok (content ++ data) := by
  have hempty : ¬ data.isEmpty = true := by simpa using hdata
  have hbuffer := buffer_eq p content data
  have hcut := take_overwrite_pages p content data
  have htail := tail_read p content
  have happend := append.eq_def p content content.length data failure
  unfold pages pageBegin pageEnd at *
  rw [if_neg hempty] at happend
  simp only [hbuffer, hcut, htail, bne_self_eq_false, Bool.or_false, Bool.and_eq_true, decide_eq_true_eq] at happend
  exact happend

theorem append_eq (p : Platform) (content data : Bytes) :
    append p content content.length data = .ok (content ++ data) := by
  rcases eq_or_ne data [] with rfl | hdata
  · simp [append]
  · simp [append_with p none content hdata]

theorem foldlM_append_eq (p : Platform) (chunks : List Bytes) (content : Bytes) :
    chunks.foldlM (fun content chunk => append p content content.length chunk) content =
      .ok (content ++ chunks.flatten) := by
  induction chunks generalizing content with
  | nil => simp [pure, Except.pure]
  | cons chunk chunks ih =>
    rw [foldlM_cons, append_eq, flatten_cons, ← append_assoc]
    exact ih (content ++ chunk)

/-- An append at the end of a file writes one block of whole pages around the data, in which the bytes before
    the data are those the file has, and leaves the file with the data added; so chunks appended one after
    the other leave their concatenation. -/
theorem append_aligned (p : Platform) (content data : Bytes) (hdata : data ≠ []) :
    (∃ first block, appendOperations p content content.length data =
        .ok [.write first block, .truncate (content.length + data.length)] ∧
      p.alignment ∣ first ∧ p.alignment ∣ first + block.length ∧
      first ≤ content.length ∧ content.length + data.length ≤ first + block.length ∧
      block.take (content.length - first) = content.drop first ∧
      (overwrite content first block).take content.length = content) ∧
    append p content content.length data =
      (appendOperations p content content.length data).map (·.foldl FileOperation.apply content) ∧
    append p content content.length data = .ok (content ++ data) ∧
    ∀ chunks : List Bytes, chunks.foldlM (fun content chunk => append p content content.length chunk) content =
      .ok (content ++ chunks.flatten) := by
  refine ⟨⟨pageBegin p content.length, pages p content data, appendOperations_eq p content hdata,
    dvd_pageBegin p _, ?_, pageBegin_le p _, ?_, ?_, ?_⟩, append_operations p _ _ _, append_eq p content data,
    fun chunks => foldlM_append_eq p chunks content⟩
  · rw [length_pages]
    exact dvd_pageEnd p _
  · rw [length_pages]
    exact le_pageEnd p _
  · rw [pages, append_assoc, take_left' (by simp)]
  · rw [overwrite_pages, append_assoc, take_left' rfl]

/-- Pages of four bytes: a chunk that ends in the page the file ends in, one that spans three. -/
def quads : Platform where
  alignment := 4
  alignment_pos := Nat.succ_pos 3
  digest := fun _ => ""

theorem append_aligned_quads :
    append quads [1, 2, 3, 4, 5] 5 [6] = .ok [1, 2, 3, 4, 5, 6] ∧
      [[1, 2, 3], [4, 5, 6, 7, 8, 9], [10]].foldlM
        (fun content chunk => append quads content content.length chunk) [0] =
        .ok [0, 1, 2, 3, 4, 5, 6, 7, 8, 9, 10] := by
  obtain ⟨-, -, happend, -⟩ := append_aligned quads [1, 2, 3, 4, 5] [6] (by decide)
  obtain ⟨-, -, -, hfold⟩ := append_aligned quads [0] [1] (by decide)
  exact ⟨happend, hfold [[1, 2, 3], [4, 5, 6, 7, 8, 9], [10]]⟩

end Imm.FileService
