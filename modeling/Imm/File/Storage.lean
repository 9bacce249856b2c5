import Mathlib.Data.Int.Notation
import Mathlib.Data.Nat.Notation
import Mathlib.Logic.Function.Basic

/-! The File service: `protocol.cc` and `storage.cc`. A file is uploaded in chunks that are appended to a
    `.part` file; the chunk that completes it has the whole content hashed and the `.part` file renamed to
    the object. Requests for one key run one after the other, on the shard that owns the key, so a request is
    a function of the files. Paths are those below the storage root. -/

namespace Imm.FileService

abbrev Bytes := List UInt8

/-- `file::FileInfo` -/
structure FileInfo where
  fileId : String := ""
  fileName : String := ""
  fileType : String := ""
  fileSize : ℤ := 0
  sha256 : String := ""
  deriving DecidableEq, Repr

inductive TransferStatus where | SUCCESS | FAILED | PARTIAL | PENDING
  deriving DecidableEq, Repr

structure UploadRequest where
  file : Option FileInfo
  userId : ℤ
  offset : ℤ
  data : Bytes
  complete : Bool
  deriving DecidableEq, Repr

structure UploadResponse where
  userId : ℤ := 0
  status : TransferStatus := .SUCCESS
  nextOffset : ℤ := 0
  message : String := ""
  deriving DecidableEq, Repr

structure DownloadRequest where
  file : Option FileInfo
  userId : ℤ
  offset : ℤ
  limit : ℤ
  deriving DecidableEq, Repr

structure DownloadResponse where
  data : Bytes := []
  nextOffset : ℤ := 0
  complete : Bool := false
  status : TransferStatus := .SUCCESS
  message : String := ""
  deriving DecidableEq, Repr

/-- `request.file()`, the default instance when the field is missing. -/
def UploadRequest.info (r : UploadRequest) : FileInfo := r.file.getD {}

def DownloadRequest.info (r : DownloadRequest) : FileInfo := r.file.getD {}

/-! ### `protocol.cc` -/

def maxFileSize : ℤ := 100 * 1024 * 1024
def maxChunkSize : ℕ := 1024 * 1024

def safeChar (c : Char) : Bool := c.isAlphanum || c == '-'

def safeId (id : String) : Bool := id.utf8ByteSize == 36 && id.toList.all safeChar

def displayName (value : String) (maximum : ℕ) : Bool :=
  value != "" && decide (value.utf8ByteSize ≤ maximum) &&
    value.toList.all fun c => decide (0x20 ≤ c.toNat) && c.toNat != 0x7f

def UploadRequest.valid (r : UploadRequest) : Bool :=
  r.file.isSome && decide (0 < r.userId) && safeId r.info.fileId && displayName r.info.fileName 255 &&
    displayName r.info.fileType 128 && r.info.fileType.toList.contains '/' && r.info.sha256.length == 32 &&
    decide (0 ≤ r.info.fileSize) && decide (r.info.fileSize ≤ maxFileSize) && decide (0 ≤ r.offset) &&
    decide (r.data.length ≤ maxChunkSize)

def DownloadRequest.valid (r : DownloadRequest) : Bool :=
  r.file.isSome && decide (0 < r.userId) && safeId r.info.fileId && decide (0 ≤ r.offset)

def objectKey (uid : ℤ) (id : String) : String := toString uid ++ "/" ++ id

/-! ### Files -/

/-- What the service takes from its libraries: the unit of a DMA write and SHA-256. -/
structure Platform where
  alignment : ℕ
  alignment_pos : 0 < alignment
  digest : Bytes → String

/-- The files below the root, by path. -/
structure Storage where
  files : String → Option Bytes

namespace Storage

def write (s : Storage) (path : String) (content : Bytes) : Storage :=
  ⟨Function.update s.files path (some content)⟩

/-- `rename_file`, of a file that exists. -/
def rename (s : Storage) (path target : String) : Storage :=
  ⟨Function.update (Function.update s.files target (s.files path)) path none⟩

end Storage

def readRange (content : Bytes) (offset count : ℕ) : Bytes := (content.drop offset).take count

/-- Bytes copied over a part of a buffer or of a file, which they may extend. -/
def overwrite (buffer : Bytes) (position : ℕ) (bytes : Bytes) : Bytes :=
  buffer.take position ++ bytes ++ buffer.drop (position + bytes.length)

/-- The loop of `sha256`: the context has taken in the bytes before `offset`. -/
def absorb (content : Bytes) (size offset : ℕ) (context : Bytes) : Except String Bytes :=
  if offset < size then
    match readRange content offset (min 65536 (size - offset)) with
    | [] => .error "cannot hash file"
    | b :: bytes => absorb content size (offset + (b :: bytes).length) (context ++ b :: bytes)
  else .ok context
termination_by size - offset
decreasing_by simp only [List.length_cons]; omega

def sha256 (p : Platform) (content : Bytes) (size : ℕ) : Except String String :=
  (absorb content size 0 []).map p.digest

/-- The steps of an upload that can fail. -/
inductive Step where
  /-- one of the steps that only read: the directory, a size, the object, bytes sent again -/
  | reading
  | opening
  | tail
  /-- `dma_write` stops after so many bytes -/
  | write (written : ℕ)
  | truncate
  | hash
  | close
  | rename
  deriving DecidableEq, Repr

/-- A failure and the text of its exception. -/
structure Failure where
  step : Step
  text : String
  deriving DecidableEq, Repr

/-- The step fails. -/
def fails (failure : Option Failure) (step : Step) : Bool := failure.any fun f => decide (f.step = step)

@[simp] theorem fails_none (step : Step) : fails none step = false := rfl

def reason (failure : Option Failure) : String := (failure.map Failure.text).getD ""

/-- `append`: whole pages are written, the old bytes of the first among them, and the file is cut back to the
    bytes it really has. An exception comes with the content it leaves behind. -/
def append (p : Platform) (content : Bytes) (offset : ℕ) (data : Bytes) (failure : Option Failure := none) :
    Except (String × Bytes) Bytes :=
  if data.isEmpty then .ok content
  else
    let first := offset / p.alignment * p.alignment
    let last := (offset + data.length + p.alignment - 1) / p.alignment * p.alignment
    let buffer : Bytes := List.replicate (last - first) 0
    let kept := readRange content first (offset - first)
    if first < offset && (fails failure .tail || kept.length != offset - first) then
      .error ("cannot read upload tail", content)
    else
      let buffer := if first < offset then overwrite buffer 0 kept else buffer
      let buffer := overwrite buffer (offset - first) data
      match failure.map Failure.step with
      | some (.write written) => .error (reason failure, overwrite content first (buffer.take written))
      | some .truncate => .error (reason failure, overwrite content first buffer)
      | _ => .ok ((overwrite content first buffer).take (offset + data.length))

/-- The digest is computed only for the chunk that completes the file. -/
def writeAndHash (p : Platform) (r : UploadRequest) (content : Bytes) (next : ℕ) (failure : Option Failure) :
    Except String String × Bytes :=
  match append p content content.length r.data failure with
  | .error (e, left) => (.error e, left)
  | .ok written =>
    if r.complete && next == r.info.fileSize.toNat then
      if fails failure .hash then (.error (reason failure), written) else (sha256 p written next, written)
    else (.ok "", written)

/-! ### `storage.cc` -/

namespace Storage

/-- The response so far and the files, or the text of the exception and the files. -/
abbrev Answer (α : Type) := Except String α × Storage

/-- The object is there already: the request must describe it. -/
def completed (p : Platform) (s : Storage) (r : UploadRequest) (response : UploadResponse) (content : Bytes) :
    Answer UploadResponse :=
  match sha256 p content content.length with
  | .error e => (.error e, s)
  | .ok digest =>
    if content.length ≠ r.info.fileSize.toNat ∨ digest ≠ r.info.sha256 then
      (.ok { response with message := "completed file metadata mismatch" }, s)
    else (.ok { response with status := .SUCCESS, nextOffset := content.length }, s)

/-- The chunk is not at the end of what is stored: bytes sent again must be those stored. -/
def elsewhere (s : Storage) (r : UploadRequest) (response : UploadResponse) (stored : Bytes) :
    Answer UploadResponse :=
  let count := min r.data.length (stored.length - r.offset.toNat)
  if r.offset.toNat < stored.length && !r.data.isEmpty &&
      readRange stored r.offset.toNat count != r.data.take count then
    (.ok { response with message := "retried chunk does not match stored bytes" }, s)
  else
    (.ok { response with status := .PARTIAL, nextOffset := stored.length,
                         message := "upload offset differs from stored progress" }, s)

/-- The chunk is appended; the one that completes the file publishes it. -/
def extend (p : Platform) (s : Storage) (r : UploadRequest) (response : UploadResponse) (object : String)
    (stored : Bytes) (failure : Option Failure) : Answer UploadResponse :=
  let next := stored.length + r.data.length
  let part := object ++ ".part"
  if fails failure .opening then (.error (reason failure), s)
  else match writeAndHash p r stored next failure with
  | (.error e, written) => (.error e, s.write part written)
  | (.ok digest, written) =>
    let s := s.write part written
    if fails failure .close then (.error (reason failure), s)
    else if r.complete && next == r.info.fileSize.toNat then
      if digest ≠ r.info.sha256 then (.ok { response with message := "file sha256 mismatch" }, s)
      else if fails failure .rename then (.error (reason failure), s)
      else (.ok { response with status := .SUCCESS, nextOffset := next }, s.rename part object)
    else (.ok { response with status := .PARTIAL, nextOffset := next }, s)

/-- `upload`, one step of which may fail. -/
def upload (p : Platform) (s : Storage) (r : UploadRequest) (failure : Option Failure := none) :
    Answer UploadResponse :=
  let response : UploadResponse := { userId := r.userId, status := .FAILED }
  let object := objectKey r.userId r.info.fileId
  if fails failure .reading then (.error (reason failure), s)
  else match s.files object with
  | some content => s.completed p r response content
  | none =>
    let stored := (s.files (object ++ ".part")).getD []
    if r.offset.toNat ≠ stored.length then s.elsewhere r response stored
    else if r.info.fileSize.toNat < stored.length ∨ r.info.fileSize.toNat - stored.length < r.data.length then
      (.ok { response with message := "chunk exceeds declared size" }, s)
    else s.extend p r response object stored failure

def download (s : Storage) (r : DownloadRequest) : Except String DownloadResponse :=
  let response : DownloadResponse := { status := .FAILED }
  match s.files (objectKey r.userId r.info.fileId) with
  | none => .ok { response with message := "file unavailable" }
  | some content =>
    if content.length < r.offset.toNat then .ok { response with message := "offset exceeds file size" }
    else
      let count := min (max r.limit 1).toNat (min maxChunkSize (content.length - r.offset.toNat))
      let data := if count ≠ 0 then readRange content r.offset.toNat count else []
      if count ≠ 0 ∧ data.length ≠ count then .error "short file read"
      else
        let nextOffset := r.offset + data.length
        .ok { response with
          nextOffset, complete := decide (nextOffset = content.length), data, status := .SUCCESS }

end Storage

/-! ### `service.cc` -/

inductive Request where
  | upload (r : UploadRequest)
  | download (r : DownloadRequest)
  deriving DecidableEq, Repr

inductive Response where
  | upload (r : UploadResponse)
  | download (r : DownloadResponse)
  deriving DecidableEq, Repr

def Request.valid : Request → Bool
  | .upload r => r.valid
  | .download r => r.valid

/-- The pair of user and file id a request is about. -/
def Request.key : Request → ℤ × String
  | .upload r => (r.userId, r.info.fileId)
  | .download r => (r.userId, r.info.fileId)

/-- `service::execute`: a field error is a business failure, and storage only sees what passed the check. -/
def Storage.execute (p : Platform) (s : Storage) : Request → Except String Response × Storage
  | .upload r =>
    if r.valid then ((s.upload p r).1.map .upload, (s.upload p r).2)
    else (.ok (.upload { userId := r.userId, status := .FAILED, message := "invalid file upload request" }), s)
  | .download r =>
    if r.valid then ((s.download r).map .download, s)
    else (.ok (.download { status := .FAILED, message := "invalid file download request" }), s)

/-- The files after a list of requests. -/
def Storage.run (p : Platform) (s : Storage) (rs : List Request) : Storage :=
  rs.foldl (fun s r => (s.execute p r).2) s

end Imm.FileService
