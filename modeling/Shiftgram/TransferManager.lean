import Shiftgram.ImageTransfer
import Shiftgram.Parts

/- `AWSS3TransferManager`, the upload of one request. A file of at most one part size is put as one
   object; a larger one goes up as a multipart upload, one part after the other, each read off the
   file when its turn comes. The request keeps what has been acknowledged, so that an upload that was
   paused or has failed goes on there when `upload:` is called again with it.

   Assumed of S3: it gives every multipart upload a new id; it may process a request that was sent at
   any later time, more than once, or never, and its answer may get lost; it assembles an upload
   that is open if all listed parts are there with the listed ETags, in ascending order, and all but
   the last are of the minimum size. Assumed of callers: `upload:` is called again only after the
   task of the call before has ended. The part size is at least 1 and otherwise arbitrary, as is the
   ETag of a body.

   While the file stays as it is: every acknowledged part is kept once and in order, and whatever S3
   stores under the key is the file (`exact_run`); an upload that goes on sends just the parts that
   are missing (`resume_completes`); a cancelled one stores nothing unless its last part was already
   on its way (`cancel_iff`). -/
namespace Shiftgram

namespace TransferManager

/-- What the manager and S3 agree on. -/
structure Setting (ε : Type) where
  /-- The size of a part, which is also the least S3 takes for a part that is not the last. -/
  partSize : Nat
  pos : 0 < partSize
  etag : Bytes → ε

/-- `AWSS3TransferManagerMinimumPartSize`, 5 MB. -/
def AWSS3TransferManagerMinimumPartSize : Nat := 5 * 1024 * 1024

/-- The manager as the app gets it from `AWSS3TransferManager.default()`. -/
def Setting.default {ε : Type} (etag : Bytes → ε) : Setting ε :=
  ⟨AWSS3TransferManagerMinimumPartSize, by decide, etag⟩

inductive RequestState
  | notStarted
  | running
  | paused
  | canceling
  | completed
  deriving DecidableEq

/-- The errors a task ends with, by their codes. -/
inductive UploadError
  | unknown
  | cancelled
  | paused
  | completed
  | missingRequiredParameters
  /-- `NSURLErrorCancelled` -/
  | urlCancelled
  /-- Any other error, of S3, of the network or of the file system. -/
  | other
  deriving DecidableEq

inductive TaskResult
  | uploaded
  | failed (error : UploadError)
  deriving DecidableEq

structure CompletedPart (ε : Type) where
  partNumber : Nat
  ETag : ε
  deriving DecidableEq

structure UploadRequest (ε : Type) where
  bucket : String
  key : String
  state : RequestState
  currentUploadingPartNumber : Nat
  completedPartsArray : List (CompletedPart ε)
  uploadId : Option Nat
  totalSuccessfullySentPartsDataLength : Nat
  deriving DecidableEq

/-- `AWSS3UploadPartRequest` -/
structure PartRequest where
  uploadId : Option Nat
  partNumber : Nat
  body : Bytes
  deriving DecidableEq

/-- `AWSS3CompleteMultipartUploadRequest` -/
structure CompleteRequest (ε : Type) where
  uploadId : Option Nat
  parts : List (CompletedPart ε)
  deriving DecidableEq

/-- What S3 has for the key, and the requests it was sent. -/
structure S3 (ε : Type) where
  /-- The multipart uploads created so far, which are numbered. -/
  created : Nat
  opened : List Nat
  assembled : List Nat
  partRequests : List PartRequest
  completeRequests : List (CompleteRequest ε)
  putRequests : List Bytes
  abortRequests : List Nat
  /-- The parts it has taken, the last first. -/
  parts : List PartRequest
  /-- The objects stored under the key, one after the other. -/
  objects : List Bytes
  deriving DecidableEq

/-- Where the chain of continuations of a running task is. -/
inductive Stage
  /-- `createMultipartUpload` is on its way. -/
  | creating
  /-- The block of part `i` is next, and after the last part the one that completes. -/
  | block (i : Nat)
  /-- `uploadPart` is on its way, with what was read off the file. -/
  | sending (i : Nat) (data : Option Bytes)
  | completing
  /-- `putObject` has not read its body yet. -/
  | putBlock
  | putting (body : Option Bytes)
  deriving DecidableEq

/-- Whether the chain waits for the answer to a request. -/
def Stage.waiting : Stage → Bool
  | .block _ | .putBlock => false
  | .creating | .sending _ _ | .completing | .putting _ => true

structure Chain where
  fileSize : Nat
  stage : Stage
  deriving DecidableEq

structure State (ε : Type) where
  request : UploadRequest ε
  chain : Option Chain
  /-- Whether the manager's cache holds the request. -/
  cached : Bool
  /-- What the tasks returned by `upload:` have ended with. -/
  results : List TaskResult
  s3 : S3 ε
  deriving DecidableEq

variable {ε : Type}

def S3.init : S3 ε := ⟨0, [], [], [], [], [], [], [], []⟩

/-- A new request. -/
def State.init (bucket key : String) : State ε :=
  ⟨⟨bucket, key, .notStarted, 0, [], none, 0⟩, none, false, [], S3.init⟩

/-- `none` with no task running. -/
def State.waiting (s : State ε) : Option Bool := s.chain.map (·.stage.waiting)

namespace S3

/-- The body S3 holds for a part. -/
def body (s : S3 ε) (uploadId : Option Nat) (partNumber : Nat) : Option Bytes :=
  (s.parts.find? fun p => p.uploadId = uploadId ∧ p.partNumber = partNumber).map (·.body)

variable [DecidableEq ε]

/-- The object a complete request makes of the parts, `none` if S3 refuses it. -/
def assemble (m : Setting ε) (s : S3 ε) (r : CompleteRequest ε) : Option Bytes :=
  if r.uploadId ∈ s.opened.map some ∧ r.parts ≠ [] ∧
      (r.parts.map (·.partNumber)).Pairwise (· < ·) then
    (r.parts.mapM fun p => (s.body r.uploadId p.partNumber).filter (m.etag · = p.ETag)).bind fun bodies =>
      if ∀ b ∈ bodies.dropLast, m.partSize ≤ b.length then some bodies.flatten else none
  else none

def completeProcessed (m : Setting ε) (s : S3 ε) (r : CompleteRequest ε) : S3 ε :=
  match s.assemble m r with
  | none => s
  | some object =>
    { s with
      opened := s.opened.filter fun id => some id ≠ r.uploadId
      assembled := s.assembled ++ r.uploadId.toList
      objects := s.objects ++ [object] }

end S3

namespace AWSS3TransferManager

/-- The last block of `upload:cacheKey:`. -/
def taskEnded (s : State ε) : TaskResult → State ε
  | .failed .urlCancelled =>
    { s with
      chain := none
      results := s.results ++
        [.failed (if s.request.state = .paused then .paused else .cancelled)] }
  | .failed error => { s with chain := none, results := s.results ++ [.failed error] }
  | .uploaded =>
    { s with
      chain := none
      results := s.results ++ [.uploaded]
      request := { s.request with state := .completed } }

/-- "delete cached Object if state is not Paused" -/
def uncache (s : State ε) : State ε :=
  if s.request.state = .paused then s else { s with cached := false }

def abortMultipartUploadsForRequest (s : State ε) : State ε :=
  { s with s3 := { s.s3 with abortRequests := s.s3.abortRequests ++ s.request.uploadId.toList } }

/-- The last block of `multipartUpload:fileSize:cacheKey:`. -/
def multipartEnded (s : State ε) (result : TaskResult) : State ε :=
  let s := uncache s
  taskEnded (if s.request.state = .canceling then abortMultipartUploadsForRequest s else s) result

/-- The block of `putObject:fileSize:cacheKey:`. -/
def putEnded (s : State ε) (result : TaskResult) : State ε := taskEnded (uncache s) result

def multipartUpload (s : State ε) (fileSize : Nat) : State ε :=
  if s.request.currentUploadingPartNumber = 0 then
    { s with
      request := { s.request with completedPartsArray := [] }
      chain := some ⟨fileSize, .creating⟩ }
  else
    -- "if it is a paused request, skip initMultipart Upload request"
    { s with chain := some ⟨fileSize, .block s.request.currentUploadingPartNumber⟩ }

def refuse (s : State ε) (error : UploadError) : State ε :=
  { s with results := s.results ++ [.failed error] }

def upload (m : Setting ε) (file : Option Bytes) (s : State ε) : State ε :=
  if s.request.bucket = "" ∨ s.request.key = "" then refuse s .missingRequiredParameters
  else if s.request.state = .completed then refuse s .completed
  else if s.request.state = .canceling then refuse s .cancelled
  else
    let s := { s with request := { s.request with state := .running } }
    -- `attributesOfItemAtPath:error:`
    match file with
    | none => refuse s .other
    | some bytes =>
      let s := { s with cached := true }
      if bytes.length > m.partSize then multipartUpload s bytes.length
      else { s with chain := some ⟨bytes.length, .putBlock⟩ }

def partCount (m : Setting ε) (fileSize : Nat) : Nat := Parts.count m.partSize fileSize

def dataLength (m : Setting ε) (fileSize i : Nat) : Nat :=
  if i = partCount m fileSize then fileSize - (i - 1) * m.partSize else m.partSize

/-- `seekToFileOffset:` and `readDataOfLength:` -/
def readData (file : Bytes) (offset length : Nat) : Bytes := (file.drop offset).take length

/-- The block of part `i`, and after the last part the one that completes. -/
def block (m : Setting ε) (file : Option Bytes) (s : State ε) (fileSize i : Nat) : State ε :=
  if i < partCount m fileSize + 1 then
    if s.request.state = .canceling then multipartEnded s (.failed .cancelled)
    else if s.request.state = .paused then multipartEnded s (.failed .paused)
    else
      let data := file.map fun bytes =>
        readData bytes ((i - 1) * m.partSize) (dataLength m fileSize i)
      { s with
        chain := some ⟨fileSize, .sending i data⟩
        -- without the temporary file of the part no request goes out
        s3 := { s.s3 with
          partRequests := s.s3.partRequests ++ (data.map (⟨s.request.uploadId, i, ·⟩)).toList } }
  else if s.request.completedPartsArray.length ≠ partCount m fileSize then
    multipartEnded s (.failed .unknown)
  else
    { s with
      chain := some ⟨fileSize, .completing⟩
      s3 := { s.s3 with
        completeRequests := s.s3.completeRequests ++
          [⟨s.request.uploadId, s.request.completedPartsArray⟩] } }

/-- `putObject` reads its body and sends it. -/
def putBlock (file : Option Bytes) (s : State ε) (fileSize : Nat) : State ε :=
  { s with
    chain := some ⟨fileSize, .putting file⟩
    s3 := { s.s3 with putRequests := s.s3.putRequests ++ file.toList } }

/-- The answer to `createMultipartUpload`. -/
def created (s : State ε) (fileSize : Nat) : State ε :=
  { s with
    request := { s.request with uploadId := some s.s3.created }
    chain := some ⟨fileSize, .block
      (if s.request.currentUploadingPartNumber = 0 then 1
        else s.request.currentUploadingPartNumber)⟩
    s3 := { s.s3 with created := s.s3.created + 1, opened := s.s3.opened ++ [s.s3.created] } }

variable [DecidableEq ε]

/-- The answer to `uploadPart`. -/
def partSent (m : Setting ε) (s : State ε) (fileSize i : Nat) (data : Bytes) : State ε :=
  let completedPart : CompletedPart ε := ⟨i, m.etag data⟩
  { s with
    request := { s.request with
      completedPartsArray :=
        if completedPart ∈ s.request.completedPartsArray then s.request.completedPartsArray
        else s.request.completedPartsArray ++ [completedPart]
      totalSuccessfullySentPartsDataLength :=
        s.request.totalSuccessfullySentPartsDataLength + dataLength m fileSize i
      currentUploadingPartNumber := i + 1 }
    cached := true
    chain := some ⟨fileSize, .block (i + 1)⟩ }

end AWSS3TransferManager

namespace UploadRequest

def cancel (s : State ε) : State ε :=
  if s.request.state = .completed then s
  else { s with request := { s.request with state := .canceling } }

def pause (s : State ε) : State ε :=
  if s.request.state = .completed ∨ s.request.state = .canceling then s
  else { s with request := { s.request with state := .paused } }

end UploadRequest

/-- Whether a chain at this stage has still to read the file. -/
def Stage.unread (m : Setting ε) (fileSize : Nat) : Stage → Bool
  | .creating | .putBlock => true
  | .block i => decide (i < AWSS3TransferManager.partCount m fileSize + 1)
  | .sending i _ => decide (i < AWSS3TransferManager.partCount m fileSize)
  | .completing | .putting _ => false

/-- The task has still to read the file. -/
def State.Unread (m : Setting ε) (s : State ε) : Prop :=
  ∃ c ∈ s.chain, c.stage.unread m c.fileSize = true

instance (m : Setting ε) (s : State ε) : Decidable (s.Unread m) :=
  inferInstanceAs (Decidable (∃ c ∈ s.chain, c.stage.unread m c.fileSize = true))

inductive Event (ε : Type)
  | upload
  | pause
  | cancel
  /-- The next block of the chain runs. -/
  | proceed
  /-- The answer to the request that is on its way. -/
  | succeeded
  /-- Its failure, `urlCancelled` for `NSURLErrorCancelled`. -/
  | failed (urlCancelled : Bool)
  /-- S3 processes a request it was sent. -/
  | partProcessed (r : PartRequest)
  | completeProcessed (r : CompleteRequest ε)
  | putProcessed (body : Bytes)
  | abortProcessed (uploadId : Nat)
  deriving DecidableEq

variable [DecidableEq ε]

open AWSS3TransferManager

def State.proceed (m : Setting ε) (file : Option Bytes) (s : State ε) : Option (State ε) :=
  match s.chain with
  | some ⟨fileSize, .block i⟩ => some (block m file s fileSize i)
  | some ⟨fileSize, .putBlock⟩ => some (putBlock file s fileSize)
  | _ => none

def State.succeeded (m : Setting ε) (s : State ε) : Option (State ε) :=
  match s.chain with
  | some ⟨fileSize, .creating⟩ => some (created s fileSize)
  | some ⟨fileSize, .sending i (some data)⟩ => some (partSent m s fileSize i data)
  | some ⟨_, .completing⟩ => some (multipartEnded s .uploaded)
  | some ⟨_, .putting _⟩ => some (putEnded s .uploaded)
  | _ => none

def State.failed (s : State ε) (error : UploadError) : Option (State ε) :=
  match s.chain with
  | some ⟨_, .creating⟩ | some ⟨_, .sending _ _⟩ | some ⟨_, .completing⟩ =>
    some (multipartEnded s (.failed error))
  | some ⟨_, .putting _⟩ => some (putEnded s (.failed error))
  | _ => none

/-- One step, while the file's contents are `file`. -/
def step (m : Setting ε) (file : Option Bytes) (s : State ε) : Event ε → Option (State ε)
  | .upload => some (upload m file s)
  | .pause => some (UploadRequest.pause s)
  | .cancel => some (UploadRequest.cancel s)
  | .proceed => s.proceed m file
  | .succeeded => s.succeeded m
  | .failed urlCancelled => s.failed (if urlCancelled then .urlCancelled else .other)
  | .partProcessed r => some { s with s3 := { s.s3 with parts := r :: s.s3.parts } }
  | .completeProcessed r => some { s with s3 := s.s3.completeProcessed m r }
  | .putProcessed body => some { s with s3 := { s.s3 with objects := s.s3.objects ++ [body] } }
  | .abortProcessed uploadId =>
    some { s with s3 := { s.s3 with opened := s.s3.opened.filter (· ≠ uploadId) } }

/-- S3 has processed the request the chain waits for. -/
def State.processed (s : State ε) : Stage → Prop
  | .creating => True
  | .sending i data => ∃ d ∈ data, ⟨s.request.uploadId, i, d⟩ ∈ s.s3.parts
  | .completing => s.request.uploadId ∈ s.s3.assembled.map some
  | .putting body => ∃ b ∈ body, b ∈ s.s3.objects
  | .block _ | .putBlock => False

instance (s : State ε) (stage : Stage) : Decidable (s.processed stage) :=
  match stage with
  | .creating => isTrue trivial
  | .sending i data =>
    inferInstanceAs (Decidable (∃ d ∈ data, ⟨s.request.uploadId, i, d⟩ ∈ s.s3.parts))
  | .completing => inferInstanceAs (Decidable (s.request.uploadId ∈ s.s3.assembled.map some))
  | .putting body => inferInstanceAs (Decidable (∃ b ∈ body, b ∈ s.s3.objects))
  | .block _ | .putBlock => isFalse id

/-- The chain goes on where it is, S3 processes what it was sent, and a success is reported only of
    what it has processed. That `upload:` is called with no task of the request running is assumed of
    the callers: the manager itself refuses only a request that is completed or cancelled. -/
def Enabled (s : State ε) : Event ε → Prop
  | .upload => s.chain = none
  | .pause | .cancel => True
  | .proceed => s.waiting = some false
  | .succeeded => ∃ c ∈ s.chain, s.processed c.stage
  | .failed _ => s.waiting = some true
  | .partProcessed r => r ∈ s.s3.partRequests
  | .completeProcessed r => r ∈ s.s3.completeRequests
  | .putProcessed body => body ∈ s.s3.putRequests
  | .abortProcessed uploadId => uploadId ∈ s.s3.abortRequests

instance (s : State ε) (e : Event ε) : Decidable (Enabled s e) :=
  match e with
  | .upload => inferInstanceAs (Decidable (s.chain = none))
  | .pause | .cancel => isTrue trivial
  | .proceed => inferInstanceAs (Decidable (s.waiting = some false))
  | .succeeded => inferInstanceAs (Decidable (∃ c ∈ s.chain, s.processed c.stage))
  | .failed _ => inferInstanceAs (Decidable (s.waiting = some true))
  | .partProcessed r => inferInstanceAs (Decidable (r ∈ s.s3.partRequests))
  | .completeProcessed r => inferInstanceAs (Decidable (r ∈ s.s3.completeRequests))
  | .putProcessed body => inferInstanceAs (Decidable (body ∈ s.s3.putRequests))
  | .abortProcessed uploadId => inferInstanceAs (Decidable (uploadId ∈ s.s3.abortRequests))

end TransferManager

end Shiftgram
