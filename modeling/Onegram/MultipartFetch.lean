import Onegram.Lib.Bytes
import Onegram.Lib.Run

/-!
# The multipart fetch

`MultipartFetchManager` downloads a range of a file in parts, several at a time, and hands them to
`partReady` in order. The file's own datacenter may redirect it to a CDN, whose answers it decrypts;
when it holds the hashes of the file's blocks, `checkState` compares each block before it hands the
part on. All blocks run on the manager's queue; an event is one of them.

SHA-256 and AES-CTR are parameters. Offsets are natural numbers, as files are shorter than `2 ^ 31`.
-/

namespace Onegram.MultipartFetch

structure TGCdnFileData where
  cdnId : ℤ
  token : Bytes
  encryptionKey : Bytes
  encryptionIv : Bytes

/-- What is asked for: the location in the file's own datacenter, or the file of a CDN. -/
inductive RequestData
  | location (fileReference : Bytes)
  | cdn (fileData : TGCdnFileData)

def RequestData.isCdn : RequestData → Bool
  | location _ => false
  | cdn _ => true

/-- A part being fetched; `asked` while a request for it is in flight. -/
structure MultipartPendingPart where
  offset : ℕ
  size : ℕ
  asked : Bool

/-- The bytes of a part. Whether a CDN sent them is not read by the code. -/
structure FetchedPart where
  offset : ℕ
  data : Bytes
  fromCdn : Bool

/-- A part that `checkState` took, the hashes it held then and whether `partReady` got the part. -/
structure TakenPart extends FetchedPart where
  hashes : Option (List (ℕ × Bytes))
  delivered : Bool

inductive Outcome
  | completed
  | failed
  /-- An assertion or a message to an object without such a method. -/
  | aborted
  deriving DecidableEq

/-- The manager. `requestData` is what the subscribers of the variable saw last, `nextRequestData`
what was put there while its worker is still to come. The last three fields are not read by the
code: how the fetch ended, the parts taken, and the hashes the file's own datacenter sent. -/
structure MultipartFetchManager where
  originInfo : Bool
  parallelParts : ℕ
  rangeLocation : ℕ
  rangeLength : ℕ
  committedOffset : ℕ
  completeSize : Option ℕ
  fetchingParts : List MultipartPendingPart := []
  fetchedParts : List FetchedPart := []
  retriedPartOffsets : List ℕ := []
  requestData : Option RequestData := none
  nextRequestData : Option RequestData
  switchedToCdn : Bool := false
  reuploadedToCdn : Bool := false
  updatedFileReference : Bool := false
  reuploadRequest : Option TGCdnFileData := none
  partHashesRequest : Option (TGCdnFileData × List (ℕ × Bytes)) := none
  fileReferenceRequest : Bool := false
  cdnFilePartHashes : Option (List (ℕ × Bytes)) := none
  terminated : Bool := false
  outcome : Option Outcome := none
  taken : List TakenPart := []
  ownHashes : List (ℕ × Bytes) := []

inductive Answer
  | file (bytes : Bytes)
  | fileCdnRedirect (fileData : TGCdnFileData) (fileHashes : List (ℕ × Bytes))
  | cdnFile (bytes : Bytes)
  | cdnFileReuploadNeeded (requestToken : Bytes)
  | other

inductive Event
  | start
  /-- The worker for the request data is there, and every part asks again. -/
  | worker
  | answer (offset : ℕ) (next : Answer)
  /-- An error, and whether it says that the file reference is out of date. -/
  | error (offset : ℕ) (fileReference : Bool)
  | timeout (offset : ℕ)
  | reuploaded
  /-- The reference `updateFileReference` is left with, empty where it finds none. -/
  | originInfo (fileReference : Bytes)
  | originInfoFailed
  | cdnFileHashes (hashes : List (ℕ × Bytes))
  | cancel

/-- The blocks that are hashed, and the size of a part where nothing bounds it. -/
def defaultPartSize : ℕ := 128 * 1024

namespace MultipartFetchManager

/-- `initWithResource:size:range:`. -/
def init (fileReference : Bytes) (originInfo : Bool) (size : Option ℕ) (location length : ℕ) :
    MultipartFetchManager where
  originInfo
  parallelParts := if size.isSome then 4 else 1
  rangeLocation := location
  rangeLength := size.elim length fun size => min (location + length) size
  committedOffset := location
  completeSize := size
  nextRequestData := some (.location fileReference)

def cancel (m : MultipartFetchManager) : MultipartFetchManager :=
  { m with
    terminated := true
    fetchingParts := []
    reuploadRequest := none
    partHashesRequest := none
    fileReferenceRequest := false }

def fail (m : MultipartFetchManager) : MultipartFetchManager :=
  if m.terminated then m
  else { m with terminated := true, fetchingParts := [], outcome := some .failed }

def complete (m : MultipartFetchManager) : MultipartFetchManager :=
  { m with terminated := true, outcome := some .completed }

def abort (m : MultipartFetchManager) : MultipartFetchManager :=
  { m with terminated := true, fetchingParts := [], outcome := some .aborted }

def removePart (m : MultipartFetchManager) (offset : ℕ) : MultipartFetchManager :=
  { m with fetchingParts := m.fetchingParts.filter (·.offset != offset) }

/-- The signal of a part waits for other request data. -/
def never (m : MultipartFetchManager) (offset : ℕ) : MultipartFetchManager :=
  { m with
    fetchingParts := m.fetchingParts.map fun part =>
      if part.offset = offset then { part with asked := false } else part }

/-- `[_requestData set:]`. -/
def setRequestData (m : MultipartFetchManager) (data : RequestData) : MultipartFetchManager :=
  { m with nextRequestData := some data }

section CheckState

variable (sha256 : Bytes → Bytes)

/-- Where the block that is hashed at `localOffset` ends. -/
def blockEnd (partOffset localOffset length : ℕ) : ℕ :=
  if length < partOffset + defaultPartSize then length else localOffset + defaultPartSize

def localHash (data : Bytes) (partOffset localOffset : ℕ) : Bytes :=
  sha256 ((data.take (blockEnd partOffset localOffset data.length)).drop localOffset)

/-- The loop over the blocks of a part, which ends at the first hash that is missing or differs. -/
def hashesMatch (hashes : List (ℕ × Bytes)) (basePartOffset : ℕ) (data : Bytes) : Bool :=
  (List.range ((data.length + defaultPartSize - 1) / defaultPartSize)).all fun i =>
    hashes.lookup (basePartOffset + i * defaultPartSize)
      == some (localHash sha256 data (basePartOffset + i * defaultPartSize) (i * defaultPartSize))

/-- Whether a part taken now goes to `partReady`. -/
def accepts (m : MultipartFetchManager) (part : FetchedPart) : Bool :=
  match m.cdnFilePartHashes with
  | none => true
  | some hashes => hashesMatch sha256 hashes part.offset part.data

/-- A part at the committed offset leaves `fetchedParts`. -/
def take (m : MultipartFetchManager) (part : FetchedPart) : MultipartFetchManager :=
  { m with
    committedOffset := m.committedOffset + part.data.length
    fetchedParts := m.fetchedParts.filter (·.offset != part.offset)
    taken := m.taken ++
      [{ part with hashes := m.cdnFilePartHashes, delivered := m.accepts sha256 part }] }

/-- The loop of `checkState` over the sorted offsets; a hash that is missing or differs ends it. -/
def takeParts : List FetchedPart → MultipartFetchManager → MultipartFetchManager
  | [], m => m
  | part :: parts, m =>
    if part.offset = m.committedOffset then
      if m.accepts sha256 part then takeParts parts (m.take sha256 part)
      else (m.take sha256 part).fail
    else takeParts parts m

def nextOffset (m : MultipartFetchManager) : ℕ :=
  ((m.fetchingParts.map fun part => part.offset + part.size)
    ++ m.fetchedParts.map fun part => part.offset + part.data.length).foldl max m.committedOffset

def upperBound (m : MultipartFetchManager) : ℕ :=
  m.completeSize.elim (m.rangeLocation + m.rangeLength)
    fun size => min (m.rangeLocation + m.rangeLength) size

/-- The `while` loop of `checkState`, which adds one part each time. A part asks at once when the
request data is there. -/
def fetchParts : ℕ → MultipartFetchManager → MultipartFetchManager
  | 0, m => m
  | fuel + 1, m =>
    if m.nextOffset < m.upperBound then
      fetchParts fuel
        { m with
          fetchingParts := m.fetchingParts ++
            [{ offset := m.nextOffset
               size := min (m.upperBound - m.nextOffset) defaultPartSize
               asked := m.requestData.isSome }] }
    else m

/-- What `checkState` does after its loop. -/
def completeOrFetch (m : MultipartFetchManager) : MultipartFetchManager :=
  if m.completeSize.any (· ≤ m.committedOffset) then m.complete
  else if m.rangeLocation + m.rangeLength ≤ m.committedOffset then m.complete
  else m.fetchParts (m.parallelParts - m.fetchingParts.length)

def sortedParts (m : MultipartFetchManager) : List FetchedPart :=
  m.fetchedParts.mergeSort fun p q => p.offset ≤ q.offset

def checkState (m : MultipartFetchManager) : MultipartFetchManager :=
  if m.terminated then m
  else
    let m := m.takeParts sha256 m.sortedParts
    if m.terminated then m else m.completeOrFetch

/-- The `next` block of a part. -/
def partData (m : MultipartFetchManager) (pending : MultipartPendingPart) (data : Bytes)
    (fromCdn : Bool) : MultipartFetchManager :=
  let store (m : MultipartFetchManager) : MultipartFetchManager :=
    let m := m.removePart pending.offset
    { m with
      fetchedParts := m.fetchedParts.filter (·.offset != pending.offset) ++
        [{ offset := pending.offset, data, fromCdn }] }
  match m.completeSize with
  | some _ => if data.length = pending.size then (store m).checkState sha256 else m.abort
  | none =>
    if data.length < pending.size then
      (store { m with completeSize := some (pending.offset + data.length) }).checkState sha256
    else (store m).checkState sha256

/-- The `error` block of a part. -/
def partError (m : MultipartFetchManager) (offset : ℕ) : MultipartFetchManager :=
  let m := m.removePart offset
  if offset ∈ m.retriedPartOffsets then m.fail
  else { m with retriedPartOffsets := m.retriedPartOffsets ++ [offset] }.checkState sha256

end CheckState

def switchToCdn (m : MultipartFetchManager) (fileData : TGCdnFileData) : MultipartFetchManager :=
  if m.switchedToCdn then m
  else { m with switchedToCdn := true }.setRequestData (.cdn fileData)

def maxOffset (hashes : List (ℕ × Bytes)) : ℕ :=
  (hashes.map fun hash => hash.1 + defaultPartSize).foldl max 0

/-- Nothing but the answer to its own request calls this. -/
def switchToCdnWithFileData (m : MultipartFetchManager) (fileData : TGCdnFileData)
    (partHashes : List (ℕ × Bytes)) : MultipartFetchManager :=
  if m.completeSize.any (maxOffset partHashes < ·) then
    { m with partHashesRequest := some (fileData, partHashes) }
  else { m with cdnFilePartHashes := some partHashes }.switchToCdn fileData

/-- The answer to `upload.getCdnFileHashes`, whose hashes replace those held at their offsets. -/
def cdnFileHashes (m : MultipartFetchManager) (hashes : List (ℕ × Bytes)) : MultipartFetchManager :=
  match m.partHashesRequest with
  | none => m
  | some (fileData, dict) =>
    { m with partHashesRequest := none, ownHashes := m.ownHashes ++ hashes }.switchToCdnWithFileData
      fileData (hashes.reverse ++ dict)

def reuploadToCdn (m : MultipartFetchManager) (fileData : TGCdnFileData) : MultipartFetchManager :=
  if m.reuploadedToCdn then m
  else { m with reuploadedToCdn := true, reuploadRequest := some fileData }

def reuploaded (m : MultipartFetchManager) : MultipartFetchManager :=
  match m.reuploadRequest with
  | none => m
  | some fileData =>
    { m with reuploadRequest := none, reuploadedToCdn := false }.setRequestData (.cdn fileData)

def updateFileReference (m : MultipartFetchManager) : MultipartFetchManager :=
  if m.updatedFileReference then m
  else if m.originInfo then { m with updatedFileReference := true, fileReferenceRequest := true }
  else m.fail

section Answers

variable (sha256 : Bytes → Bytes) (aesCtrDecrypt : Bytes → Bytes → Bytes → Bytes)

/-- `MTAesCtrDecrypt` with the number of the part's first block at the end of the vector. -/
def decryptPart (fileData : TGCdnFileData) (offset : ℕ) (bytes : Bytes) : Bytes :=
  let iv := fileData.encryptionIv
  aesCtrDecrypt bytes fileData.encryptionKey
    (iv.take (iv.length - 4) ++ Bytes.bytesBE 4 (offset / 16))

/-- The answer to the request of a part, made with `data`. -/
def receive (m : MultipartFetchManager) (pending : MultipartPendingPart) (data : RequestData) :
    Answer → MultipartFetchManager
  | .file bytes => m.partData sha256 pending bytes data.isCdn
  | .fileCdnRedirect fileData fileHashes =>
    ({ m with ownHashes := if data.isCdn then m.ownHashes else m.ownHashes ++ fileHashes }.never
      pending.offset).switchToCdn fileData
  | .cdnFile bytes =>
    match data with
    | .cdn fileData =>
      m.partData sha256 pending (decryptPart aesCtrDecrypt fileData pending.offset bytes) true
    | .location _ => m.abort
  | .cdnFileReuploadNeeded _ =>
    match data with
    | .cdn fileData => (m.never pending.offset).reuploadToCdn fileData
    | .location _ => if m.reuploadedToCdn then m.never pending.offset else m.abort
  | .other => m.never pending.offset

/-- The part whose request is in flight. -/
def asked (m : MultipartFetchManager) (offset : ℕ) : Option MultipartPendingPart :=
  m.fetchingParts.find? fun part => part.offset = offset && part.asked

def answer (m : MultipartFetchManager) (offset : ℕ) (next : Answer) : MultipartFetchManager :=
  match m.asked offset, m.requestData with
  | some pending, some data => m.receive sha256 aesCtrDecrypt pending data next
  | _, _ => m

def error (m : MultipartFetchManager) (offset : ℕ) (fileReference : Bool) :
    MultipartFetchManager :=
  match m.asked offset, m.requestData with
  | some _, some (.location _) =>
    if fileReference then (m.never offset).updateFileReference else m.partError sha256 offset
  | some _, some (.cdn _) => m.partError sha256 offset
  | _, _ => m

def timeout (m : MultipartFetchManager) (offset : ℕ) : MultipartFetchManager :=
  if m.fetchingParts.any (·.offset = offset) then m.partError sha256 offset else m

/-- The answer of `updatedOriginInfo:`. -/
def originInfoUpdated (m : MultipartFetchManager) (fileReference : Bytes) :
    MultipartFetchManager :=
  if m.fileReferenceRequest then
    let m := { m with updatedFileReference := false }
    if fileReference.isEmpty then m.fail
    else (m.setRequestData (.location fileReference)).checkState sha256
  else m

def originInfoFailed (m : MultipartFetchManager) : MultipartFetchManager :=
  if m.fileReferenceRequest then
    { m with updatedFileReference := false, fileReferenceRequest := false }.fail
  else m

/-- The request data comes with its worker: the parts drop what they wait for and ask anew. -/
def worker (m : MultipartFetchManager) : MultipartFetchManager :=
  match m.nextRequestData with
  | none => m
  | some data =>
    { m with
      requestData := some data
      nextRequestData := none
      fetchingParts := m.fetchingParts.map fun part => { part with asked := true } }

def step (m : MultipartFetchManager) : Event → MultipartFetchManager
  | .start => m.checkState sha256
  | .worker => m.worker
  | .answer offset next => m.answer sha256 aesCtrDecrypt offset next
  | .error offset fileReference => m.error sha256 offset fileReference
  | .timeout offset => m.timeout sha256 offset
  | .reuploaded => m.reuploaded
  | .originInfo fileReference => m.originInfoUpdated sha256 fileReference
  | .originInfoFailed => m.originInfoFailed
  | .cdnFileHashes hashes => m.cdnFileHashes hashes
  | .cancel => m.cancel

end Answers

end MultipartFetchManager

end Onegram.MultipartFetch

/-!
## What is asked of the server

The limit `checkState` asks for with a part, the range with which `MediaBox` resumes a file, and a
server that answers a request with the bytes of the file.
-/

namespace Onegram.MultipartFetch

/-- `while (updatedLimit % 4096 != 0 || 1048576 % updatedLimit != 0) updatedLimit++`; `none` if
`fuel` turns do not do. -/
def updatedLimit : ℕ → ℕ → Option ℕ
  | 0, _ => none
  | fuel + 1, limit =>
    if limit % 4096 ≠ 0 ∨ 1048576 % limit ≠ 0 then updatedLimit fuel (limit + 1) else some limit

def INT32_MAX : ℕ := 2147483647

/-- `wrappedFetchResource:range:` of a file of which so many bytes are there. -/
def MultipartFetchManager.resume (fileReference : Bytes) (originInfo : Bool) (size : Option ℕ)
    (currentSize : ℕ) : MultipartFetchManager :=
  init fileReference originInfo size currentSize INT32_MAX

/-- `[offset, min(offset + limit, size))` of the file. -/
def fileBytes (content : Bytes) (offset limit : ℕ) : Bytes := (content.drop offset).take limit

end Onegram.MultipartFetch
