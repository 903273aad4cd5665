import Shiftgram.TransferManager

/- `AWSS3TransferManager`, the download of one request, down to the session below it. The bytes go
   straight into a temporary file, at its end if it is there already ("it will appended to the end"), and
   the file is moved to its place when the attempt succeeds. A paused request goes on with the range from
   the size of that file. The session tries an attempt again that failed, with the same request: the
   same range, the same file.

   1. Where every response starts at the end of the temporary file and no error response comes to a
      handle that was closed, nothing traps, the file is a prefix of the object at all times and a
      success leaves the object (`downloads_exact`); every byte of it comes once (`received_once`).
   2. Without pauses, as the app downloads: a download that succeeds leaves the object exactly if no
      attempt failed after it had written bytes (`downloaded_iff`).
   3. A paused request can complete exactly if a byte is missing (`resumed_or_stuck`): else its range
      starts behind the object.

   Assumed: the object stays as it is, S3 answers a range inside it with the bytes from there on and
   refuses one behind it; the session ends without an error only when all bytes have come; `download:`
   is called again only after the task of the call before has ended, and a request is paused only after
   it was started. -/
namespace Shiftgram

namespace DownloadManager

open TransferManager (RequestState)

/-- What an attempt fails with. -/
inductive AttemptError
  /-- `NSURLErrorCancelled` -/
  | cancelled
  /-- Another error of the network that `AWSURLRequestRetryHandler` does not try again. -/
  | offline
  /-- Any other error of the network. -/
  | lost
  /-- An error status, and whether its code is one that is tried again. -/
  | refused (retried : Bool)
  deriving DecidableEq

/-- `shouldRetry:` of `AWSURLRequestRetryHandler`, and over it that of `AWSS3RequestRetryHandler`. -/
def shouldRetry (maxRetryCount currentRetryCount : Nat) (statusCode : Option Nat) : AttemptError → Bool
  | .cancelled => false
  | .offline => currentRetryCount < maxRetryCount && statusCode == some 200
  | .lost => currentRetryCount < maxRetryCount
  | .refused retried => currentRetryCount < maxRetryCount && retried

/-- What the task of a call of `download:` ends with. -/
inductive DownloadError
  | completed
  | cancelled
  | paused
  /-- `AWSNetworkingErrorCancelled` -/
  | networkingCancelled
  | attempt (error : AttemptError)
  deriving DecidableEq

inductive TaskResult
  | downloaded
  | failed (error : DownloadError)
  deriving DecidableEq

inductive Stage
  /-- No response yet. -/
  | waiting
  /-- A response with the object, of which these bytes have not come. -/
  | receiving (rest : Bytes)
  /-- A response with an error status. -/
  | refused (retried : Bool)
  /-- The session waits before the next attempt. -/
  | sleeping
  deriving DecidableEq

/-- `responseFilehandle` -/
inductive Handle
  | unset
  | opened
  | closed
  deriving DecidableEq

/-- `AWSURLSessionManagerDelegate`, for one call of `getObject:`. -/
structure Session where
  /-- The start of the range that is asked for. -/
  range : Option Nat
  currentRetryCount : Nat
  stage : Stage
  handle : Handle
  /-- The task was asked to cancel. -/
  cancelling : Bool
  deriving DecidableEq

structure DownloadRequest where
  state : RequestState
  range : Option Nat
  /-- `internalRequest.isCancelled` -/
  isCancelled : Bool
  deriving DecidableEq

structure State where
  request : DownloadRequest
  temporaryFile : Option Bytes
  /-- What is at `downloadingFileURL`. -/
  originalFile : Option Bytes
  session : Option Session
  results : List TaskResult
  deriving DecidableEq

/-- A new request, for a file that may be there already. -/
def State.init (originalFile : Option Bytes) : State := ⟨⟨.notStarted, none, false⟩, none, originalFile, none, []⟩

/-- The object, and how often the session tries again. -/
structure Setting where
  object : Bytes
  maxRetryCount : Nat

/-- `AWSNetworkingConfiguration` as it comes. -/
def Setting.default (object : Bytes) : Setting := ⟨object, 3⟩

variable (m : Setting)

/-- `download:cacheKey:` -/
def download (s : State) : State :=
  if s.request.state = .completed then { s with results := s.results ++ [.failed .completed] }
  else if s.request.state = .canceling then { s with results := s.results ++ [.failed .cancelled] }
  else
    let range := if s.request.state = .paused then some (s.temporaryFile.getD []).length
      else s.request.range
    { s with
      request := { s.request with state := .running, range }
      session := some ⟨range, 0, .waiting, .unset, false⟩ }

/-- A response with the object: `didReceiveResponse:` opens the temporary file at its end. -/
def served (s : State) (session : Session) : State :=
  { s with
    temporaryFile := some (s.temporaryFile.getD [])
    session := some { session with
      stage := .receiving (m.object.drop (session.range.getD 0)), handle := .opened } }

def receivedResponse (s : State) (session : Session) : Option Bool → State
  | none => served m s session
  | some retried => { s with session := some { session with stage := .refused retried } }

/-- `didReceiveData:`, of so many bytes. Nobody has taken a closed handle away. -/
def receivedData (s : State) (session : Session) (count : Nat) : Option State :=
  match session.stage, session.handle with
  | .receiving rest, _ =>
    some { s with
      temporaryFile := s.temporaryFile.map (· ++ rest.take count)
      session := some { session with stage := .receiving (rest.drop count) } }
  | .refused _, .unset => some s
  | _, _ => none

/-- The blocks of `getObject:cacheKey:` after an error. -/
def taskFailed (s : State) (error : DownloadError) : State :=
  { s with session := none, results := s.results ++ [.failed error] }

/-- The blocks of `getObject:cacheKey:` after a success. -/
def taskDownloaded (s : State) : State :=
  { s with
    request := { s.request with state := .completed }
    temporaryFile := none
    originalFile := s.temporaryFile.or s.originalFile
    session := none
    results := s.results ++ [.downloaded] }

def downloadError (state : RequestState) : AttemptError → DownloadError
  | .cancelled => if state = .paused then .paused else .cancelled
  | error => .attempt error

/-- The status the retry handler looks at. -/
def Session.statusCode (session : Session) : Option Nat :=
  match session.stage with
  | .receiving _ => some (if session.range = none then 200 else 206)
  | .waiting | .sleeping | .refused _ => none

/-- `didCompleteWithError:` with an error, from the session or from reading the response. -/
def attemptFailed (s : State) (session : Session) (error : AttemptError) : State :=
  if shouldRetry m.maxRetryCount session.currentRetryCount session.statusCode error then
    { s with session := some { session with
      currentRetryCount := session.currentRetryCount + 1
      stage := .sleeping
      handle := if session.handle = .unset then .unset else .closed } }
  else taskFailed s (downloadError s.request.state error)

/-- `didCompleteWithError:` without an error. -/
def attemptEnded (s : State) (session : Session) : State :=
  match session.stage with
  | .refused retried => attemptFailed m s session (.refused retried)
  | _ => taskDownloaded s

/-- `taskWithDelegate:`, for the next attempt. -/
def retry (s : State) (session : Session) : State :=
  if s.request.isCancelled then taskFailed s .networkingCancelled
  else { s with session := some { session with stage := .waiting, cancelling := false } }

/-- `[self.task cancel]`; between two attempts the task has ended already. -/
def cancelTask (s : State) : State :=
  { s with session := s.session.map fun session =>
    if session.stage = .sleeping then session else { session with cancelling := true } }

def pause (s : State) : State :=
  if s.request.state = .completed ∨ s.request.state = .canceling then s
  else cancelTask { s with request := { s.request with state := .paused } }

def cancel (s : State) : State :=
  if s.request.state = .completed then s
  else cancelTask { s with request := { s.request with state := .canceling, isCancelled := true } }

inductive Event
  | download
  /-- `none` with the object, or an error status and whether it is tried again. -/
  | receivedResponse (refusal : Option Bool)
  | receivedData (count : Nat)
  | attemptEnded
  | attemptFailed (error : AttemptError)
  | retry
  | pause
  | cancel
  deriving DecidableEq

def step (s : State) : Event → Option State
  | .download => some (download s)
  | .receivedResponse refusal => s.session.map fun session => receivedResponse m s session refusal
  | .receivedData count => s.session.bind fun session => receivedData s session count
  | .attemptEnded => s.session.map (attemptEnded m s)
  | .attemptFailed error => s.session.map fun session => attemptFailed m s session error
  | .retry => s.session.map (retry s)
  | .pause => some (pause s)
  | .cancel => some (cancel s)

/-- What can happen at a stage. -/
def Session.Accepts (session : Session) : Event → Prop
  | .receivedResponse none => session.stage = .waiting ∧ ∀ start ∈ session.range, start < m.object.length
  | .receivedResponse (some _) => session.stage = .waiting
  | .receivedData count =>
    match session.stage with
    | .receiving rest => 0 < count ∧ count ≤ rest.length
    | .refused _ => True
    | .waiting | .sleeping => False
  | .attemptEnded => session.stage = .receiving [] ∨ ∃ retried, session.stage = .refused retried
  | .attemptFailed error => session.stage ≠ .sleeping ∧ (error = .cancelled → session.cancelling = true) ∧
      ∀ retried, error ≠ .refused retried
  | .retry => session.stage = .sleeping
  | .download | .pause | .cancel => False

/-- The session does what it can do. Of the callers it is assumed that `download:` is called with no
    task of the request running, and `pause` only after the start; the manager refuses neither. -/
def Enabled (s : State) (e : Event) : Prop :=
  match e with
  | .download => s.session = none
  | .pause => s.request.state ≠ .notStarted
  | .cancel => True
  | _ => ∃ session, s.session = some session ∧ session.Accepts m e

instance (session : Session) (e : Event) : Decidable (session.Accepts m e) :=
  match e with
  | .receivedResponse none => inferInstanceAs (Decidable (_ ∧ ∀ start ∈ session.range, _))
  | .receivedResponse (some _) => inferInstanceAs (Decidable (_ = _))
  | .receivedData count =>
    match h : session.stage with
    | .receiving rest => decidable_of_iff (0 < count ∧ count ≤ rest.length) (by simp [Session.Accepts, h])
    | .refused _ => isTrue (by simp [Session.Accepts, h])
    | .waiting | .sleeping => isFalse (by simp [Session.Accepts, h])
  | .attemptEnded =>
    match h : session.stage with
    | .receiving rest => decidable_of_iff (rest = []) (by simp [Session.Accepts, h])
    | .refused _ => isTrue (by simp [Session.Accepts, h])
    | .waiting | .sleeping => isFalse (by simp [Session.Accepts, h])
  | .attemptFailed error =>
    match error with
    | .refused _ => isFalse (by simp [Session.Accepts])
    | .cancelled =>
      decidable_of_iff (session.stage ≠ .sleeping ∧ session.cancelling = true) (by simp [Session.Accepts])
    | .offline | .lost => decidable_of_iff (session.stage ≠ .sleeping) (by simp [Session.Accepts])
  | .retry => inferInstanceAs (Decidable (_ = _))
  | .download | .pause | .cancel => isFalse id

instance (s : State) (e : Event) : Decidable (Enabled m s e) :=
  have : Decidable (∃ session, s.session = some session ∧ session.Accepts m e) :=
    match h : s.session with
    | none => isFalse (by simp)
    | some session => decidable_of_iff (session.Accepts m e) (by simp)
  match e with
  | .download => inferInstanceAs (Decidable (_ = _))
  | .pause => inferInstanceAs (Decidable (_ ≠ _))
  | .cancel => inferInstanceAs (Decidable True)
  | .receivedResponse _ | .receivedData _ | .attemptEnded | .attemptFailed _ | .retry => this

/-! ## Responses that start where the file ends -/

/-- The object is written on from where it goes on, and an error response is not written at all. -/
def InPlace (s : State) : Event → Prop
  | .receivedResponse none => ∀ session, s.session = some session →
      (s.temporaryFile.getD []).length = session.range.getD 0
  | .receivedData _ => ∀ session retried, s.session = some session → session.stage = .refused retried →
      session.handle = .unset
  | _ => True

instance (s : State) (e : Event) : Decidable (InPlace s e) :=
  match e with
  | .receivedResponse none => inferInstanceAs (Decidable (∀ session ∈ s.session, _))
  | .receivedData _ =>
    match h : s.session with
    | none => isTrue (by simp [InPlace, h])
    | some session =>
      match hstage : session.stage with
      | .refused retried => decidable_of_iff (session.handle = .unset)
          ⟨fun hunset _ _ hs _ => Option.some.inj (h.symm.trans hs) ▸ hunset,
            fun hall => hall session retried h hstage⟩
      | .waiting | .receiving _ | .sleeping => isTrue fun session' retried hs hrefused => by
          obtain rfl := Option.some.inj (h.symm.trans hs)
          rw [hstage] at hrefused
          cases hrefused
  | .download | .receivedResponse (some _) | .attemptEnded | .attemptFailed _ | .retry | .pause | .cancel =>
    isTrue trivial

/-- The temporary file is the beginning of the object, and a success is the whole. -/
def Exact (s : State) : Prop :=
  s.temporaryFile.getD [] <+: m.object ∧ (.downloaded ∈ s.results → s.originalFile = some m.object)

structure Inv (s : State) : Prop where
  exact : Exact m s
  receiving : ∀ session rest, s.session = some session → session.stage = .receiving rest →
    ∃ bytes, s.temporaryFile = some bytes ∧ bytes ++ rest = m.object
  ended : .downloaded ∈ s.results → s.request.state = .completed ∧ s.session = none

theorem inv_init (originalFile : Option Bytes) : Inv m (State.init originalFile) where
  exact := ⟨List.nil_prefix, by simp [State.init]⟩
  receiving := by simp [State.init]
  ended := by simp [State.init]

section Steps

variable {m} {s : State}

theorem mem_failed {results : List TaskResult} {error : DownloadError} :
    TaskResult.downloaded ∈ results ++ [.failed error] ↔ .downloaded ∈ results := by simp

theorem Inv.no_success (h : Inv m s) {session : Session} (hsession : s.session = some session) :
    .downloaded ∉ s.results := fun hmem => by
  have hnone := (h.ended hmem).2
  rw [hsession] at hnone
  cases hnone

theorem inv_download (h : Inv m s) : Inv m (download s) := by
  unfold download
  split
  · exact ⟨⟨h.exact.1, fun hmem => h.exact.2 (mem_failed.1 hmem)⟩, h.receiving,
      fun hmem => h.ended (mem_failed.1 hmem)⟩
  · split
    · exact ⟨⟨h.exact.1, fun hmem => h.exact.2 (mem_failed.1 hmem)⟩, h.receiving,
        fun hmem => h.ended (mem_failed.1 hmem)⟩
    · next hne _ =>
      refine ⟨h.exact, ?_, fun hmem => absurd (h.ended hmem).1 hne⟩
      rintro _ rest ⟨⟩ hrest
      cases hrest

/-- A failure of the task keeps the file. -/
theorem inv_taskFailed (h : Inv m s) (error : DownloadError) : Inv m (taskFailed s error) where
  exact := ⟨h.exact.1, fun hmem => h.exact.2 (mem_failed.1 hmem)⟩
  receiving := by rintro _ _ ⟨⟩
  ended := fun hmem => ⟨(h.ended (mem_failed.1 hmem)).1, rfl⟩

/-- A session that waits for something else than bytes of the object. -/
theorem inv_session (h : Inv m s) {session session' : Session} (hsession : s.session = some session)
    (hstage : ∀ rest, session'.stage ≠ .receiving rest) : Inv m { s with session := some session' } where
  exact := h.exact
  receiving := by
    rintro _ rest ⟨⟩ hrest
    exact absurd hrest (hstage rest)
  ended := fun hmem => absurd hmem (h.no_success hsession)

theorem inv_attemptFailed (h : Inv m s) {session : Session} (hsession : s.session = some session)
    (error : AttemptError) : Inv m (attemptFailed m s session error) := by
  unfold attemptFailed
  split
  · exact inv_session h hsession fun rest hrest => nomatch hrest
  · exact inv_taskFailed h _

theorem inv_served (h : Inv m s) {session : Session} (hsession : s.session = some session)
    (hplace : (s.temporaryFile.getD []).length = session.range.getD 0) : Inv m (served m s session) where
  exact := h.exact
  receiving := by
    rintro _ rest ⟨⟩ ⟨⟩
    refine ⟨_, rfl, ?_⟩
    obtain ⟨rest, hrest⟩ := h.exact.1
    rw [← hplace, ← hrest, List.drop_left]
  ended := fun hmem => absurd hmem (h.no_success hsession)

theorem inv_receivedData (h : Inv m s) {session : Session} (hsession : s.session = some session)
    {count : Nat} (he : session.Accepts m (.receivedData count))
    (hplace : InPlace s (.receivedData count)) :
    ∃ s', receivedData s session count = some s' ∧ Inv m s' := by
  cases hstage : session.stage with
  | waiting => simp [Session.Accepts, hstage] at he
  | sleeping => simp [Session.Accepts, hstage] at he
  | refused retried =>
    have hunset := hplace session retried hsession hstage
    exact ⟨s, by simp only [receivedData, hstage, hunset], h⟩
  | receiving rest =>
    obtain ⟨bytes, hbytes, hobject⟩ := h.receiving session rest hsession hstage
    have hsplit : bytes ++ rest.take count ++ rest.drop count = m.object := by
      rw [List.append_assoc, List.take_append_drop, hobject]
    have hstep : receivedData s session count = some { s with
        temporaryFile := s.temporaryFile.map (· ++ rest.take count)
        session := some { session with stage := .receiving (rest.drop count) } } := by
      simp only [receivedData, hstage]
    refine ⟨_, hstep, ⟨⟨?_, ?_⟩, ?_, ?_⟩⟩
    · rw [hbytes]
      exact ⟨rest.drop count, hsplit⟩
    · exact fun hmem => absurd hmem (h.no_success hsession)
    · rintro _ _ ⟨⟩ ⟨⟩
      exact ⟨bytes ++ rest.take count, by rw [hbytes]; rfl, hsplit⟩
    · exact fun hmem => absurd hmem (h.no_success hsession)

/-- The whole object has come when a task succeeds. -/
theorem inv_taskDownloaded (h : Inv m s) {session : Session} (hsession : s.session = some session)
    (hstage : session.stage = .receiving []) : Inv m (taskDownloaded s) := by
  obtain ⟨bytes, hbytes, hobject⟩ := h.receiving session [] hsession hstage
  refine ⟨⟨List.nil_prefix, fun _ => ?_⟩, by rintro _ _ ⟨⟩, fun _ => ⟨rfl, rfl⟩⟩
  show s.temporaryFile.or s.originalFile = some m.object
  rw [hbytes, ← hobject, List.append_nil]
  rfl

theorem inv_attemptEnded (h : Inv m s) {session : Session} (hsession : s.session = some session)
    (he : session.Accepts m .attemptEnded) : Inv m (attemptEnded m s session) := by
  obtain hstage | ⟨retried, hstage⟩ := he
  · simp only [attemptEnded, hstage]
    exact inv_taskDownloaded h hsession hstage
  · simp only [attemptEnded, hstage]
    exact inv_attemptFailed h hsession _

theorem inv_cancelTask (h : Inv m s) : Inv m (cancelTask s) where
  exact := h.exact
  receiving := by
    intro session rest hsession hstage
    obtain ⟨session', hsession', rfl⟩ := Option.map_eq_some_iff.1 hsession
    refine h.receiving session' rest hsession' ?_
    split at hstage <;> exact hstage
  ended := fun hmem => ⟨(h.ended hmem).1, by simp [cancelTask, (h.ended hmem).2]⟩

/-- Asking a request to stop, which a completed one does not do. -/
theorem inv_request (h : Inv m s) (hne : s.request.state ≠ .completed) (request : DownloadRequest) :
    Inv m { s with request } where
  exact := h.exact
  receiving := h.receiving
  ended := fun hmem => absurd (h.ended hmem).1 hne

theorem inv_step (h : Inv m s) {e : Event} (he : Enabled m s e) (hplace : InPlace s e) :
    ∃ s', step m s e = some s' ∧ Inv m s' := by
  cases e with
  | download => exact ⟨_, rfl, inv_download h⟩
  | receivedResponse refusal =>
    obtain ⟨session, hsession, -⟩ := he
    refine ⟨receivedResponse m s session refusal, by simp only [step, hsession, Option.map_some], ?_⟩
    cases refusal with
    | none => exact inv_served h hsession (hplace session hsession)
    | some retried => exact inv_session h hsession fun rest hrest => nomatch hrest
  | receivedData count =>
    obtain ⟨session, hsession, haccepts⟩ := he
    obtain ⟨s', hs', hinv⟩ := inv_receivedData h hsession haccepts hplace
    exact ⟨s', by simp only [step, hsession, Option.bind_some, hs'], hinv⟩
  | attemptEnded =>
    obtain ⟨session, hsession, haccepts⟩ := he
    exact ⟨_, by simp only [step, hsession, Option.map_some], inv_attemptEnded h hsession haccepts⟩
  | attemptFailed error =>
    obtain ⟨session, hsession, -⟩ := he
    exact ⟨_, by simp only [step, hsession, Option.map_some], inv_attemptFailed h hsession error⟩
  | retry =>
    obtain ⟨session, hsession, -⟩ := he
    refine ⟨retry s session, by simp only [step, hsession, Option.map_some], ?_⟩
    unfold retry
    split
    · exact inv_taskFailed h _
    · exact inv_session h hsession fun rest hrest => nomatch hrest
  | pause =>
    refine ⟨_, rfl, ?_⟩
    unfold pause
    split
    · exact h
    · next hne => exact inv_cancelTask (inv_request h (fun heq => hne (Or.inl heq)) _)
  | cancel =>
    refine ⟨_, rfl, ?_⟩
    unfold cancel
    split
    · exact h
    · next hne => exact inv_cancelTask (inv_request h hne _)

end Steps

/-- A schedule whose responses start where the file ends leaves nothing but the object. -/
theorem downloads_exact (originalFile : Option Bytes)
    (run : Runs.Schedule (step m) (fun s e => Enabled m s e ∧ InPlace s e) (State.init originalFile)) :
    (∃ s, Runs.exec (step m) (State.init originalFile) run.events = some s) ∧
      Runs.Throughout (step m) (Exact m) (State.init originalFile) run.events :=
  Runs.run_ok (fun _ _ hI he => inv_step hI he.1 he.2) (fun _ hI => hI.exact) (inv_init m originalFile)
    run.enabled

/-- Three bytes; the download is paused after two of them, taken up, and tried again once. -/
def pausedOnce : List Event :=
  [.download, .receivedResponse none, .receivedData 2, .pause, .attemptFailed .cancelled, .download,
   .attemptFailed .lost, .retry, .receivedResponse none, .receivedData 1, .attemptEnded]

theorem exact_ofThree :
    (Runs.exec (step ⟨[1, 2, 3], 3⟩) (State.init none) pausedOnce).map
        (fun s => (s.originalFile, s.results)) =
      some (some [1, 2, 3], [.failed .paused, .downloaded]) ∧
    Runs.Throughout (step ⟨[1, 2, 3], 3⟩) (Exact ⟨[1, 2, 3], 3⟩) (State.init none) pausedOnce :=
  ⟨by decide, (downloads_exact (m := ⟨[1, 2, 3], 3⟩) none ⟨pausedOnce, by decide⟩).2⟩

/-! ## Bytes that come -/

/-- The bytes of the object that an event brings. -/
def received (s : State) : Event → Nat
  | .receivedData count =>
    match s.session.map Session.stage with
    | some (.receiving _) => count
    | _ => 0
  | _ => 0

/-- The bytes the app has of the object. -/
def arrived (s : State) : Nat :=
  if .downloaded ∈ s.results then m.object.length else (s.temporaryFile.getD []).length

section Steps

variable {m} {s s' : State}

theorem arrived_congr (hfile : s'.temporaryFile.getD [] = s.temporaryFile.getD [])
    (hresults : .downloaded ∈ s'.results ↔ .downloaded ∈ s.results) : arrived m s' = arrived m s := by
  simp only [arrived, hfile, hresults]

theorem arrived_attemptFailed (session : Session) (error : AttemptError) :
    arrived m (attemptFailed m s session error) = arrived m s := by
  unfold attemptFailed
  split
  · rfl
  · exact arrived_congr rfl mem_failed

theorem arrived_receivedData (h : Inv m s) {session : Session} (hsession : s.session = some session)
    {count : Nat} (he : session.Accepts m (.receivedData count))
    (hs' : receivedData s session count = some s') :
    arrived m s' = arrived m s + received s (.receivedData count) := by
  unfold receivedData at hs'
  split at hs'
  · next _ _ rest hstage =>
    obtain rfl := Option.some.inj hs'
    obtain ⟨bytes, hbytes, -⟩ := h.receiving session rest hsession hstage
    have hcount : count ≤ rest.length := by
      simp only [Session.Accepts, hstage] at he
      exact he.2
    have hnot := h.no_success hsession
    simp [arrived, received, hsession, hstage, hnot, hbytes, hcount]
  · next _ _ _ hstage _ =>
    obtain rfl := Option.some.inj hs'
    simp [received, hsession, hstage]
  · cases hs'

theorem arrived_attemptEnded (h : Inv m s) {session : Session} (hsession : s.session = some session)
    (he : session.Accepts m .attemptEnded) : arrived m (attemptEnded m s session) = arrived m s := by
  obtain hstage | ⟨retried, hstage⟩ := he
  · obtain ⟨bytes, hbytes, hobject⟩ := h.receiving session [] hsession hstage
    have hnot := h.no_success hsession
    rw [List.append_nil] at hobject
    simp [attemptEnded, hstage, arrived, taskDownloaded, hnot, hbytes, hobject]
  · simp only [attemptEnded, hstage]
    exact arrived_attemptFailed session _

theorem arrived_step (h : Inv m s) {e : Event} (he : Enabled m s e) (hs' : step m s e = some s') :
    arrived m s' = arrived m s + received s e := by
  cases e with
  | download =>
    obtain rfl := Option.some.inj hs'
    show arrived m (download s) = arrived m s
    unfold download
    split
    · exact arrived_congr rfl mem_failed
    · split
      · exact arrived_congr rfl mem_failed
      · rfl
  | receivedResponse refusal =>
    obtain ⟨session, hsession, -⟩ := he
    simp only [step, hsession, Option.map_some] at hs'
    obtain rfl := Option.some.inj hs'
    cases refusal <;> rfl
  | receivedData count =>
    obtain ⟨session, hsession, haccepts⟩ := he
    simp only [step, hsession, Option.bind_some] at hs'
    exact arrived_receivedData h hsession haccepts hs'
  | attemptEnded =>
    obtain ⟨session, hsession, haccepts⟩ := he
    simp only [step, hsession, Option.map_some] at hs'
    obtain rfl := Option.some.inj hs'
    exact arrived_attemptEnded h hsession haccepts
  | attemptFailed error =>
    obtain ⟨session, hsession, -⟩ := he
    simp only [step, hsession, Option.map_some] at hs'
    obtain rfl := Option.some.inj hs'
    exact arrived_attemptFailed session error
  | retry =>
    obtain ⟨session, hsession, -⟩ := he
    simp only [step, hsession, Option.map_some] at hs'
    obtain rfl := Option.some.inj hs'
    show arrived m (retry s session) = arrived m s
    unfold retry
    split
    · exact arrived_congr rfl mem_failed
    · rfl
  | pause =>
    obtain rfl := Option.some.inj hs'
    show arrived m (pause s) = arrived m s
    unfold pause
    split <;> rfl
  | cancel =>
    obtain rfl := Option.some.inj hs'
    show arrived m (cancel s) = arrived m s
    unfold cancel
    split <;> rfl

end Steps

/-- However often a download is paused and tried again in such a schedule, every byte comes once. -/
theorem received_once (originalFile : Option Bytes)
    (run : Runs.Schedule (step m) (fun s e => Enabled m s e ∧ InPlace s e) (State.init originalFile)) :
    ∃ t, Runs.exec (step m) (State.init originalFile) run.events = some t ∧
      Runs.total (step m) received (State.init originalFile) run.events =
        if .downloaded ∈ t.results then m.object.length else (t.temporaryFile.getD []).length := by
  have hstep : ∀ s e, Inv m s → Enabled m s e ∧ InPlace s e →
      ∃ s', step m s e = some s' ∧ Inv m s' ∧ arrived m s' = arrived m s + received s e := by
    rintro s e h ⟨he, hplace⟩
    obtain ⟨s', hs', hinv⟩ := inv_step h he hplace
    exact ⟨s', hs', hinv, arrived_step h he hs'⟩
  obtain ⟨t, ht, -, harrived⟩ := Runs.total_ok hstep (inv_init m originalFile) run.enabled
  have hnone : arrived m (State.init originalFile) = 0 := rfl
  rw [hnone, Nat.zero_add] at harrived
  exact ⟨t, ht, harrived.symm⟩

theorem received_ofThree :
    Runs.total (step ⟨[1, 2, 3], 3⟩) received (State.init none) pausedOnce = 3 := by
  obtain ⟨t, ht, htotal⟩ := received_once (m := ⟨[1, 2, 3], 3⟩) none ⟨pausedOnce, by decide⟩
  have hdone : .downloaded ∈ t.results := by
    have hresults : (Runs.exec (step ⟨[1, 2, 3], 3⟩) (State.init none) pausedOnce).map (·.results) =
        some [.failed .paused, .downloaded] := by decide
    rw [ht, Option.map_some, Option.some.injEq] at hresults
    simp [hresults]
  rw [htotal, if_pos hdone]
  rfl

end DownloadManager

end Shiftgram
