import Shiftgram.TransferManager

/- Runs of one upload while its file stays as it is: pauses, cancellations, failures and calls of
   `upload:` in any order, with requests that S3 processes late or more than once. -/
namespace Shiftgram

namespace TransferManager

open AWSS3TransferManager

variable {ε : Type} {m : Setting ε} {file : Bytes} {s s' : State ε}

/-- The parts acknowledged so far. -/
def State.acknowledged (s : State ε) : Nat := s.request.completedPartsArray.length

/-- The first `k` parts of the file, as S3 acknowledges them. -/
def completedParts (m : Setting ε) (file : Bytes) (k : Nat) : List (CompletedPart ε) :=
  (List.range k).map fun i => ⟨i + 1, m.etag (Parts.part m.partSize file i)⟩

/-- What a task may rely on whatever happens to its requests: the acknowledged parts are the first
    ones of the file, each once and in order, and the counters say so; S3 stores nothing but the file
    and has it when a task reports success; no task ends by the check of the number of parts. -/
structure Exact (m : Setting ε) (file : Bytes) (s : State ε) : Prop where
  parts : s.request.completedPartsArray = completedParts m file s.acknowledged
  next : s.request.currentUploadingPartNumber =
    if s.acknowledged = 0 then 0 else s.acknowledged + 1
  sent : s.request.totalSuccessfullySentPartsDataLength =
    (file.take (s.acknowledged * m.partSize)).length
  objects : ∀ object ∈ s.s3.objects, object = file
  uploaded : .uploaded ∈ s.results → file ∈ s.s3.objects
  counted : .failed .unknown ∉ s.results

/-! ## The parts of the file -/

@[simp] theorem length_completedParts (m : Setting ε) (file : Bytes) (k : Nat) :
    (completedParts m file k).length = k := by
  rw [completedParts, List.length_map, List.length_range]

theorem completedParts_succ (m : Setting ε) (file : Bytes) (k : Nat) :
    completedParts m file (k + 1) =
      completedParts m file k ++ [⟨k + 1, m.etag (Parts.part m.partSize file k)⟩] := by
  unfold completedParts
  rw [List.range_succ, List.map_append, List.map_singleton]

/-- A part that is not acknowledged is not in the array. -/
theorem notMem_completedParts (m : Setting ε) (file : Bytes) (k : Nat) (e : ε) :
    ⟨k + 1, e⟩ ∉ completedParts m file k := by
  intro hmem
  obtain ⟨i, hi, heq⟩ := List.mem_map.mp hmem
  have hi : i < k := List.mem_range.mp hi
  have hnumber : i + 1 = k + 1 := congrArg CompletedPart.partNumber heq
  omega

theorem ascending_completedParts (m : Setting ε) (file : Bytes) (k : Nat) :
    ((completedParts m file k).map (·.partNumber)).Pairwise (· < ·) := by
  unfold completedParts
  rw [List.map_map]
  apply List.Pairwise.map _ _ List.pairwise_lt_range
  intro i j hij
  exact Nat.succ_lt_succ hij

/-- What is read off the file for a part is the part. -/
theorem readData_part (m : Setting ε) (file : Bytes) (k : Nat) :
    readData file ((k + 1 - 1) * m.partSize) (dataLength m file.length (k + 1)) =
      Parts.part m.partSize file k := by
  rw [Nat.add_sub_cancel, readData, dataLength]
  split
  · next hlast =>
    -- the last part goes to the end of the file
    have hlength := Parts.length_part_last m.pos hlast
    have hle : (file.drop (k * m.partSize)).length ≤ m.partSize := by
      rw [Parts.length_part] at hlength
      rw [List.length_drop]
      omega
    rw [Nat.add_sub_cancel, Parts.part, List.take_of_length_le hle]
    apply List.take_of_length_le
    rw [List.length_drop]
  · rfl

theorem length_readData {k : Nat} (hk : k < partCount m file.length) :
    dataLength m file.length (k + 1) = (Parts.part m.partSize file k).length := by
  unfold dataLength
  split
  · next hlast => rw [Parts.length_part_last m.pos hlast, Nat.add_sub_cancel]
  · next hne =>
    have hlt : k + 1 < Parts.count m.partSize file.length := by
      unfold partCount at hk hne
      omega
    exact (Parts.length_part_of_lt m.pos hlt).symm

theorem one_lt_partCount (h : m.partSize < file.length) : 1 < partCount m file.length := by
  unfold partCount
  rw [Parts.lt_count m.pos, Nat.one_mul]
  exact h

/-! ## What S3 holds -/

/-- A part request carries the part of the file that it names. -/
def Right (m : Setting ε) (file : Bytes) (r : PartRequest) : Prop :=
  1 ≤ r.partNumber ∧ r.partNumber ≤ partCount m file.length ∧
    r.body = Parts.part m.partSize file (r.partNumber - 1)

/-- S3 has taken the part. -/
def Has (parts : List PartRequest) (uploadId : Option Nat) (partNumber : Nat) : Prop :=
  ∃ r ∈ parts, r.uploadId = uploadId ∧ r.partNumber = partNumber

theorem has_cons {parts : List PartRequest} {uploadId : Option Nat} {partNumber : Nat}
    (h : Has parts uploadId partNumber) (r : PartRequest) :
    Has (r :: parts) uploadId partNumber := by
  obtain ⟨r', hr', hmatch⟩ := h
  exact ⟨r', List.mem_cons_of_mem r hr', hmatch⟩

/-- A complete request lists the whole file, and S3 has all of it. -/
structure Whole (m : Setting ε) (file : Bytes) (parts : List PartRequest) (r : CompleteRequest ε) :
    Prop where
  large : m.partSize < file.length
  listed : r.parts = completedParts m file (partCount m file.length)
  has : ∀ i < partCount m file.length, Has parts r.uploadId (i + 1)

structure Held (m : Setting ε) (file : Bytes) (s : S3 ε) : Prop where
  sent : ∀ r ∈ s.partRequests, Right m file r
  taken : ∀ r ∈ s.parts, Right m file r
  whole : ∀ r ∈ s.completeRequests, Whole m file s.parts r
  puts : ∀ body ∈ s.putRequests, body = file
  small : s.putRequests ≠ [] → file.length ≤ m.partSize
  objects : ∀ object ∈ s.objects, object = file
  source : s.objects ≠ [] → s.completeRequests ≠ [] ∨ s.putRequests ≠ []
  assembled : s.assembled ≠ [] → file ∈ s.objects

theorem body_of_has {s : S3 ε} (h : Held m file s) {uploadId : Option Nat} {i : Nat}
    (hi : Has s.parts uploadId (i + 1)) :
    s.body uploadId (i + 1) = some (Parts.part m.partSize file i) := by
  obtain ⟨r, hr, hmatch⟩ := hi
  have hfound : (s.parts.find? fun p =>
      decide (p.uploadId = uploadId ∧ p.partNumber = i + 1)).isSome := by
    rw [List.find?_isSome]
    exact ⟨r, hr, by simpa using hmatch⟩
  obtain ⟨p, hp⟩ := Option.isSome_iff_exists.mp hfound
  have hnumber : p.partNumber = i + 1 := by
    have hp := List.find?_some hp
    simp only [decide_eq_true_eq] at hp
    exact hp.2
  have hbody := (h.taken p (List.mem_of_find?_eq_some hp)).2.2
  rw [hnumber, Nat.add_sub_cancel] at hbody
  rw [S3.body, hp, Option.map_some, hbody]

theorem mapM_some {α β : Type} {f : α → Option β} {g : α → β} {l : List α}
    (h : ∀ x ∈ l, f x = some (g x)) : l.mapM f = some (l.map g) := by
  induction l with
  | nil => rfl
  | cons a l ih =>
    rw [List.forall_mem_cons] at h
    rw [List.mapM_cons, h.1, ih h.2]
    rfl

/-- S3 makes the file of a complete request for an upload that is open. -/
theorem assemble_spec [DecidableEq ε] {s : S3 ε} (h : Held m file s) {r : CompleteRequest ε}
    (hr : Whole m file s.parts r) :
    s.assemble m r = if r.uploadId ∈ s.opened.map some then some file else none := by
  unfold S3.assemble
  have hne : r.parts ≠ [] := by
    have hcount := one_lt_partCount hr.large
    rw [hr.listed]
    apply List.ne_nil_of_length_pos
    rw [length_completedParts]
    omega
  have hbodies : (r.parts.mapM fun p =>
      (s.body r.uploadId p.partNumber).filter (m.etag · = p.ETag)) =
      some ((List.range (partCount m file.length)).map (Parts.part m.partSize file)) := by
    rw [hr.listed, completedParts, List.mapM_map]
    apply mapM_some
    intro i hi
    rw [Function.comp_apply, body_of_has h (hr.has i (List.mem_range.mp hi)), Option.filter_some]
    simp
  have hsizes : ∀ b ∈ ((List.range (partCount m file.length)).map
      (Parts.part m.partSize file)).dropLast, m.partSize ≤ b.length := by
    intro b hb
    obtain ⟨n, hn⟩ := Nat.exists_eq_add_one.mpr (Nat.lt_trans Nat.zero_lt_one (one_lt_partCount hr.large))
    rw [hn, List.range_succ, List.map_append, List.map_singleton, List.dropLast_concat] at hb
    obtain ⟨i, hi, rfl⟩ := List.mem_map.mp hb
    have hi : i < n := List.mem_range.mp hi
    refine (Parts.length_part_of_lt m.pos ?_).ge
    unfold partCount at hn
    omega
  by_cases hopen : r.uploadId ∈ s.opened.map some
  · rw [if_pos ⟨hopen, hne, hr.listed ▸ ascending_completedParts m file _⟩, if_pos hopen, hbodies,
      Option.bind_some, if_pos hsizes]
    exact congrArg some (Parts.flatten_parts m.pos file)
  · rw [if_neg fun hall => hopen hall.1, if_neg hopen]

/-! ## What the request holds -/

/-- The acknowledged parts are the first ones of the file, and S3 has them. -/
structure Kept (m : Setting ε) (file : Bytes) (r : UploadRequest ε) (taken : List PartRequest) :
    Prop where
  parts : r.completedPartsArray = completedParts m file r.completedPartsArray.length
  le : r.completedPartsArray.length ≤ partCount m file.length
  next : r.currentUploadingPartNumber =
    if r.completedPartsArray.length = 0 then 0 else r.completedPartsArray.length + 1
  sent : r.totalSuccessfullySentPartsDataLength =
    (file.take (r.completedPartsArray.length * m.partSize)).length
  large : r.completedPartsArray.length ≠ 0 → m.partSize < file.length
  has : ∀ i < r.completedPartsArray.length, Has taken r.uploadId (i + 1)

/-- Where a chain stands among the parts. -/
def AtStage (m : Setting ε) (file : Bytes) (s : State ε) : Stage → Prop
  | .creating => m.partSize < file.length ∧ s.acknowledged = 0
  | .block i => m.partSize < file.length ∧ i = s.acknowledged + 1
  | .sending i data => m.partSize < file.length ∧ i = s.acknowledged + 1 ∧
    s.acknowledged < partCount m file.length ∧
    data = some (Parts.part m.partSize file s.acknowledged) ∧
    ⟨s.request.uploadId, i, Parts.part m.partSize file s.acknowledged⟩ ∈ s.s3.partRequests
  | .completing => m.partSize < file.length ∧ s.acknowledged = partCount m file.length ∧
    s.s3.completeRequests ≠ []
  | .putBlock => file.length ≤ m.partSize
  | .putting body => file.length ≤ m.partSize ∧ body = some file

structure Inv (m : Setting ε) (file : Bytes) (s : State ε) : Prop where
  held : Held m file s.s3
  kept : Kept m file s.request s.s3.parts
  chain : ∀ c ∈ s.chain, c.fileSize = file.length ∧ AtStage m file s c.stage
  asked : s.s3.completeRequests ≠ [] → s.acknowledged = partCount m file.length
  uploaded : .uploaded ∈ s.results → file ∈ s.s3.objects
  counted : .failed .unknown ∉ s.results

theorem exact_of_inv (h : Inv m file s) : Exact m file s where
  parts := h.kept.parts
  next := h.kept.next
  sent := h.kept.sent
  objects := h.held.objects
  uploaded := h.uploaded
  counted := h.counted

theorem inv_init (m : Setting ε) (file : Bytes) (bucket key : String) :
    Inv m file (State.init bucket key) where
  held := by constructor <;> simp [State.init, S3.init]
  kept := by constructor <;> simp [State.init, completedParts]
  chain := by simp [State.init]
  asked := by simp [State.init, S3.init]
  uploaded := by simp [State.init]
  counted := by simp [State.init]

/-! ## Steps of S3 -/

theorem kept_cons {r : UploadRequest ε} {taken : List PartRequest} (h : Kept m file r taken)
    (p : PartRequest) : Kept m file r (p :: taken) :=
  { h with has := fun i hi => has_cons (h.has i hi) p }

theorem inv_partProcessed (h : Inv m file s) {r : PartRequest} (hr : r ∈ s.s3.partRequests) :
    Inv m file { s with s3 := { s.s3 with parts := r :: s.s3.parts } } where
  held :=
    { h.held with
      taken := List.forall_mem_cons.mpr ⟨h.held.sent r hr, h.held.taken⟩
      whole := fun c hc =>
        { h.held.whole c hc with has := fun i hi => has_cons ((h.held.whole c hc).has i hi) r } }
  kept := kept_cons h.kept r
  chain := h.chain
  asked := h.asked
  uploaded := h.uploaded
  counted := h.counted

theorem inv_completeProcessed [DecidableEq ε] (h : Inv m file s) {r : CompleteRequest ε}
    (hr : r ∈ s.s3.completeRequests) :
    Inv m file { s with s3 := s.s3.completeProcessed m r } := by
  unfold S3.completeProcessed
  rw [assemble_spec h.held (h.held.whole r hr)]
  split
  · exact h
  · next object hobject =>
    obtain rfl : file = object := by
      split at hobject
      · exact Option.some.inj hobject
      · cases hobject
    have hlast : file ∈ s.s3.objects ++ [file] := List.mem_append_right _ (List.mem_singleton_self _)
    refine ⟨{ h.held with
        objects := ?_
        source := fun _ => Or.inl (List.ne_nil_of_mem hr)
        assembled := fun _ => hlast }, h.kept, h.chain, h.asked, fun _ => hlast, h.counted⟩
    intro object hmem
    rcases List.mem_append.mp hmem with hold | hnew
    · exact h.held.objects object hold
    · exact List.mem_singleton.mp hnew

theorem inv_putProcessed (h : Inv m file s) {body : Bytes} (hbody : body ∈ s.s3.putRequests) :
    Inv m file { s with s3 := { s.s3 with objects := s.s3.objects ++ [body] } } := by
  obtain rfl := h.held.puts body hbody
  have hlast : body ∈ s.s3.objects ++ [body] := List.mem_append_right _ (List.mem_singleton_self _)
  refine ⟨{ h.held with
      objects := ?_
      source := fun _ => Or.inr (List.ne_nil_of_mem hbody)
      assembled := fun _ => hlast }, h.kept, h.chain, h.asked, fun _ => hlast, h.counted⟩
  intro object hmem
  rcases List.mem_append.mp hmem with hold | hnew
  · exact h.held.objects object hold
  · exact List.mem_singleton.mp hnew

/-! ## Steps of the request and of its chain -/

theorem kept_state {r : UploadRequest ε} {taken : List PartRequest} (h : Kept m file r taken)
    (state : RequestState) : Kept m file { r with state := state } taken :=
  ⟨h.parts, h.le, h.next, h.sent, h.large, h.has⟩

theorem inv_state (h : Inv m file s) (state : RequestState) :
    Inv m file { s with request := { s.request with state := state } } :=
  ⟨h.held, kept_state h.kept state, h.chain, h.asked, h.uploaded, h.counted⟩

theorem inv_cached (h : Inv m file s) (cached : Bool) : Inv m file { s with cached := cached } :=
  ⟨h.held, h.kept, h.chain, h.asked, h.uploaded, h.counted⟩

theorem inv_pause (h : Inv m file s) : Inv m file (UploadRequest.pause s) := by
  unfold UploadRequest.pause
  split
  · exact h
  · exact inv_state h .paused

theorem inv_cancel (h : Inv m file s) : Inv m file (UploadRequest.cancel s) := by
  unfold UploadRequest.cancel
  split
  · exact h
  · exact inv_state h .canceling

/-- A task that ends, otherwise than by the check of the number of parts. -/
theorem inv_ended (h : Inv m file s) (chain : Option Chain) (hchain : chain = none ∨ chain = s.chain)
    {result : TaskResult} (hfile : result = .uploaded → file ∈ s.s3.objects)
    (hcount : result ≠ .failed .unknown) :
    Inv m file { s with chain := chain, results := s.results ++ [result] } where
  held := h.held
  kept := h.kept
  chain := by
    rcases hchain with rfl | rfl
    · simp
    · exact h.chain
  asked := h.asked
  uploaded := by
    intro hmem
    rcases List.mem_append.mp hmem with hold | hnew
    · exact h.uploaded hold
    · exact hfile (List.mem_singleton.mp hnew).symm
  counted := by
    intro hmem
    rcases List.mem_append.mp hmem with hold | hnew
    · exact h.counted hold
    · exact hcount (List.mem_singleton.mp hnew).symm

theorem inv_taskEnded (h : Inv m file s) {result : TaskResult}
    (hfile : result = .uploaded → file ∈ s.s3.objects) (hcount : result ≠ .failed .unknown) :
    Inv m file (taskEnded s result) := by
  unfold taskEnded
  split
  · apply inv_ended h none (Or.inl rfl)
    · exact fun hup => nomatch hup
    · split <;> simp
  · exact inv_ended h none (Or.inl rfl) hfile hcount
  · exact inv_state (inv_ended h none (Or.inl rfl) hfile hcount) .completed

theorem inv_uncache (h : Inv m file s) : Inv m file (uncache s) := by
  unfold uncache
  split
  · exact h
  · exact inv_cached h false

@[simp] theorem s3_uncache (s : State ε) : (uncache s).s3 = s.s3 := by
  unfold uncache
  split <;> rfl

@[simp] theorem request_uncache (s : State ε) : (uncache s).request = s.request := by
  unfold uncache
  split <;> rfl

@[simp] theorem s3_taskEnded (s : State ε) (result : TaskResult) : (taskEnded s result).s3 = s.s3 := by
  unfold taskEnded
  split <;> rfl

theorem inv_abort (h : Inv m file s) : Inv m file (abortMultipartUploadsForRequest s) :=
  ⟨{ h.held with }, h.kept, h.chain, h.asked, h.uploaded, h.counted⟩

theorem inv_putEnded (h : Inv m file s) {result : TaskResult}
    (hfile : result = .uploaded → file ∈ s.s3.objects) (hcount : result ≠ .failed .unknown) :
    Inv m file (putEnded s result) := by
  refine inv_taskEnded (inv_uncache h) ?_ hcount
  rw [s3_uncache]
  exact hfile

theorem inv_multipartEnded (h : Inv m file s) {result : TaskResult}
    (hfile : result = .uploaded → file ∈ s.s3.objects) (hcount : result ≠ .failed .unknown) :
    Inv m file (multipartEnded s result) := by
  have hun := inv_uncache h
  unfold multipartEnded
  apply inv_taskEnded _ _ hcount
  · split
    · exact inv_abort hun
    · exact hun
  · intro hup
    have hmem := hfile hup
    split <;> simpa [abortMultipartUploadsForRequest] using hmem

/-- A task that ends leaves S3 as it is, apart from a request to abort. -/
theorem s3_multipartEnded (s : State ε) (result : TaskResult) :
    ∃ aborts, (multipartEnded s result).s3 = { s.s3 with abortRequests := aborts } := by
  unfold multipartEnded
  rw [s3_taskEnded]
  split
  · refine ⟨s.s3.abortRequests ++ s.request.uploadId.toList, ?_⟩
    unfold abortMultipartUploadsForRequest
    rw [s3_uncache, request_uncache]
  · exact ⟨s.s3.abortRequests, s3_uncache s⟩

theorem chain_taskEnded (s : State ε) (result : TaskResult) : (taskEnded s result).chain = none := by
  unfold taskEnded
  split <;> rfl

theorem inv_refuse (h : Inv m file s) {error : UploadError} (herror : error ≠ .unknown) :
    Inv m file (refuse s error) :=
  inv_ended h s.chain (Or.inr rfl) (fun hup => nomatch hup) (by simpa using herror)

theorem inv_chain (h : Inv m file s) {stage : Stage} (hstage : AtStage m file s stage) :
    Inv m file { s with chain := some ⟨file.length, stage⟩ } where
  held := h.held
  kept := h.kept
  chain := by
    rintro c ⟨⟩
    cases stage <;> exact ⟨rfl, hstage⟩
  asked := h.asked
  uploaded := h.uploaded
  counted := h.counted

/-- A request goes on at the first part that is not acknowledged. -/
theorem inv_multipartUpload (h : Inv m file s) (hlarge : m.partSize < file.length) :
    Inv m file (multipartUpload s file.length) := by
  have hnext := h.kept.next
  unfold multipartUpload
  split
  · next hzero =>
    have hnone : s.request.completedPartsArray.length = 0 := by
      by_contra hne
      rw [if_neg hne] at hnext
      omega
    have hnil := List.length_eq_zero_iff.mp hnone
    have hsame : { s.request with completedPartsArray := [] } = s.request := by rw [← hnil]
    rw [hsame]
    exact inv_chain h ⟨hlarge, hnone⟩
  · next hne =>
    refine inv_chain h ⟨hlarge, ?_⟩
    split at hnext
    · exact absurd hnext hne
    · exact hnext

/-- What `upload:` does for a request that has a bucket and a key and is not at its end. -/
theorem upload_active (hnamed : s.request.bucket ≠ "" ∧ s.request.key ≠ "")
    (hcanceling : s.request.state ≠ .canceling) (hcompleted : s.request.state ≠ .completed)
    (seen : Option Bytes) :
    upload m seen s =
      match seen with
      | none => refuse { s with request := { s.request with state := .running } } .other
      | some bytes =>
        if bytes.length > m.partSize then
          multipartUpload
            { s with request := { s.request with state := .running }, cached := true } bytes.length
        else
          { s with
            request := { s.request with state := .running }
            cached := true
            chain := some ⟨bytes.length, .putBlock⟩ } := by
  unfold upload
  exact (if_neg (not_or.mpr hnamed)).trans ((if_neg hcompleted).trans (if_neg hcanceling))

theorem inv_upload (h : Inv m file s) : Inv m file (upload m (some file) s) := by
  unfold upload
  split
  · exact inv_refuse h nofun
  · split
    · exact inv_refuse h nofun
    · split
      · exact inv_refuse h nofun
      · have hrun := inv_cached (inv_state h .running) true
        dsimp only
        split
        · next hlarge => exact inv_multipartUpload hrun hlarge
        · next hsmall => exact inv_chain hrun (Nat.le_of_not_lt hsmall)

theorem inv_block (h : Inv m file s) {n i : Nat} (hchain : s.chain = some ⟨n, .block i⟩)
    {seen : Option Bytes} (hseen : i < partCount m n + 1 → seen = some file) :
    Inv m file (block m seen s n i) := by
  obtain ⟨hn, hlarge, hi⟩ := h.chain _ hchain
  dsimp only at hn
  subst hn hi
  unfold block
  split
  · next hlt =>
    obtain rfl := hseen hlt
    have hk : s.acknowledged < partCount m file.length := by omega
    split
    · exact inv_multipartEnded h (fun hup => nomatch hup) nofun
    · split
      · exact inv_multipartEnded h (fun hup => nomatch hup) nofun
      · dsimp only [Option.map_some, Option.toList_some]
        rw [readData_part]
        refine ⟨{ h.held with sent := ?_ }, h.kept, ?_, h.asked, h.uploaded, h.counted⟩
        · intro r hr
          rcases List.mem_append.mp hr with hold | hnew
          · exact h.held.sent r hold
          · rw [List.mem_singleton.mp hnew]
            exact ⟨Nat.le_add_left 1 _, hk, rfl⟩
        · rintro c ⟨⟩
          exact ⟨rfl, hlarge, rfl, hk, rfl, List.mem_append_right _ (List.mem_singleton_self _)⟩
  · next hge =>
    have hall : s.acknowledged = partCount m file.length := by
      have hle : s.acknowledged ≤ partCount m file.length := h.kept.le
      omega
    have hcount : ¬ s.request.completedPartsArray.length ≠ partCount m file.length := not_not.mpr hall
    rw [if_neg hcount]
    refine ⟨{ h.held with whole := ?_, source := fun _ => Or.inl (by simp) }, h.kept, ?_,
      fun _ => hall, h.uploaded, h.counted⟩
    · intro r hr
      rcases List.mem_append.mp hr with hold | hnew
      · exact h.held.whole r hold
      · rw [List.mem_singleton.mp hnew]
        refine ⟨hlarge, ?_, ?_⟩
        · rw [← hall]
          exact h.kept.parts
        · rw [← hall]
          exact h.kept.has
    · rintro c ⟨⟩
      exact ⟨rfl, hlarge, hall, by simp⟩

theorem inv_putBlock (h : Inv m file s) {n : Nat} (hchain : s.chain = some ⟨n, .putBlock⟩) :
    Inv m file (putBlock (some file) s n) := by
  obtain ⟨hn, hsmall⟩ := h.chain _ hchain
  dsimp only at hn
  subst hn
  have hstage : AtStage m file s (.putting (some file)) := ⟨hsmall, rfl⟩
  refine ⟨{ h.held with puts := ?_, small := fun _ => hsmall, source := fun _ => Or.inr (by simp [putBlock]) },
    h.kept, (inv_chain h hstage).chain, h.asked, h.uploaded, h.counted⟩
  intro body hbody
  rcases List.mem_append.mp hbody with hold | hnew
  · exact h.held.puts body hold
  · exact List.mem_singleton.mp hnew

theorem inv_created (h : Inv m file s) {n : Nat} (hchain : s.chain = some ⟨n, .creating⟩) :
    Inv m file (created s n) := by
  obtain ⟨hn, hlarge, hnone⟩ := h.chain _ hchain
  dsimp only at hn
  subst hn
  have hnext : s.request.currentUploadingPartNumber = 0 := by
    rw [h.kept.next]
    exact if_pos hnone
  unfold created
  rw [if_pos hnext]
  refine ⟨{ h.held with }, { h.kept with has := ?_ }, ?_, h.asked, h.uploaded, h.counted⟩
  · intro i hi
    have hnone : s.request.completedPartsArray.length = 0 := hnone
    rw [hnone] at hi
    exact absurd hi (Nat.not_lt_zero i)
  · rintro c ⟨⟩
    exact ⟨rfl, hlarge, congrArg (· + 1) hnone.symm⟩

variable [DecidableEq ε]

/-- The part that was on its way is the next one acknowledged. -/
theorem partSent_spec (h : Inv m file s) {n i : Nat} {data : Bytes}
    (hchain : s.chain = some ⟨n, .sending i (some data)⟩) :
    partSent m s n i data =
      { s with
        request := { s.request with
          completedPartsArray := completedParts m file (s.acknowledged + 1)
          totalSuccessfullySentPartsDataLength :=
            (file.take ((s.acknowledged + 1) * m.partSize)).length
          currentUploadingPartNumber := s.acknowledged + 2 }
        cached := true
        chain := some ⟨file.length, .block (s.acknowledged + 2)⟩ } := by
  obtain ⟨hn, hlarge, hi, hk, hdata, -⟩ := h.chain _ hchain
  dsimp only at hn
  cases hdata
  subst hn hi
  have hparts : s.request.completedPartsArray = completedParts m file s.acknowledged := h.kept.parts
  have hsent := h.kept.sent
  unfold partSent
  dsimp only
  rw [length_readData hk, hsent, hparts, if_neg (notMem_completedParts m file _ _),
    ← completedParts_succ, length_completedParts, Parts.length_take_succ]

theorem inv_partSent (h : Inv m file s) {n i : Nat} {data : Bytes}
    (hchain : s.chain = some ⟨n, .sending i (some data)⟩)
    (htaken : ⟨s.request.uploadId, i, data⟩ ∈ s.s3.parts) : Inv m file (partSent m s n i data) := by
  obtain ⟨-, hlarge, hi, hk, -⟩ := h.chain _ hchain
  rw [partSent_spec h hchain]
  have hlength := length_completedParts m file (s.acknowledged + 1)
  refine ⟨h.held, ⟨?_, ?_, ?_, ?_, ?_, ?_⟩, ?_, ?_, h.uploaded, h.counted⟩
  · exact congrArg (completedParts m file) hlength.symm
  · exact hlength.le.trans hk
  · show s.acknowledged + 2 = if (completedParts m file (s.acknowledged + 1)).length = 0 then 0
      else (completedParts m file (s.acknowledged + 1)).length + 1
    rw [hlength, if_neg (Nat.succ_ne_zero _)]
  · show _ = (file.take ((completedParts m file (s.acknowledged + 1)).length * m.partSize)).length
    rw [hlength]
  · exact fun _ => hlarge
  · intro j hj
    have hj : j < s.acknowledged + 1 := hlength ▸ hj
    rcases Nat.lt_succ_iff_lt_or_eq.mp hj with hlt | rfl
    · exact h.kept.has j hlt
    · exact ⟨_, htaken, rfl, hi⟩
  · rintro c ⟨⟩
    refine ⟨rfl, hlarge, ?_⟩
    show s.acknowledged + 2 = (completedParts m file (s.acknowledged + 1)).length + 1
    rw [hlength]
  · intro hasked
    exact absurd (h.asked hasked) hk.ne

/-- What an event needs to find in the file. -/
def Sees (m : Setting ε) (file : Bytes) (seen : Option Bytes) (s : State ε) : Event ε → Prop
  | .upload => seen = some file
  | .proceed => s.Unread m → seen = some file
  | _ => True

omit [DecidableEq ε] in
theorem sees_file (m : Setting ε) (file : Bytes) (s : State ε) (e : Event ε) :
    Sees m file (some file) s e := by
  cases e with
  | upload => rfl
  | proceed => exact fun _ => rfl
  | _ => trivial

theorem proceed_spec (h : Inv m file s) (he : Enabled s .proceed) {seen : Option Bytes}
    (hseen : Sees m file seen s .proceed) :
    ∃ s', step m seen s .proceed = some s' ∧ Inv m file s' := by
  obtain ⟨c, hc, hwaiting⟩ := Option.map_eq_some_iff.mp he
  obtain ⟨n, stage⟩ := c
  cases stage with
  | block i =>
    refine ⟨block m seen s n i, ?_, inv_block h hc fun hlt => hseen ⟨_, hc, decide_eq_true hlt⟩⟩
    rw [step, State.proceed, hc]
  | putBlock =>
    refine ⟨putBlock seen s n, ?_, ?_⟩
    · rw [step, State.proceed, hc]
    · rw [hseen ⟨_, hc, rfl⟩]
      exact inv_putBlock h hc
  | creating | sending _ _ | completing | putting _ => cases hwaiting

omit [DecidableEq ε] in
theorem file_stored (h : Inv m file s) (hid : s.request.uploadId ∈ s.s3.assembled.map some) :
    file ∈ s.s3.objects := by
  apply h.held.assembled
  intro hnil
  rw [hnil] at hid
  cases hid

theorem succeeded_spec (h : Inv m file s) (he : Enabled s .succeeded) (seen : Option Bytes) :
    ∃ s', step m seen s .succeeded = some s' ∧ Inv m file s' := by
  obtain ⟨⟨n, stage⟩, hc, hprocessed⟩ := he
  have hstage := (h.chain _ hc).2
  rw [step, State.succeeded, Option.mem_def.mp hc]
  cases stage with
  | creating => exact ⟨_, rfl, inv_created h hc⟩
  | sending i data =>
    obtain ⟨d, hd, htaken⟩ := hprocessed
    cases hd
    exact ⟨_, rfl, inv_partSent h hc htaken⟩
  | completing => exact ⟨_, rfl, inv_multipartEnded h (fun _ => file_stored h hprocessed) nofun⟩
  | putting body =>
    obtain ⟨b, hb, hstored⟩ := hprocessed
    obtain ⟨-, hbody⟩ := hstage
    obtain rfl : file = b := Option.some.inj (hbody.symm.trans hb)
    exact ⟨_, rfl, inv_putEnded h (fun _ => hstored) nofun⟩
  | block _ | putBlock => cases hprocessed

theorem failed_spec (h : Inv m file s) {urlCancelled : Bool} (he : Enabled s (.failed urlCancelled))
    (seen : Option Bytes) :
    ∃ s', step m seen s (.failed urlCancelled) = some s' ∧ Inv m file s' := by
  obtain ⟨⟨n, stage⟩, hc, hwaiting⟩ := Option.map_eq_some_iff.mp he
  have herror : TaskResult.failed (if urlCancelled then .urlCancelled else .other) ≠
      .failed .unknown := by
    split <;> simp
  rw [step, State.failed, hc]
  cases stage with
  | creating | sending _ _ | completing =>
    exact ⟨_, rfl, inv_multipartEnded h (fun hup => nomatch hup) herror⟩
  | putting _ => exact ⟨_, rfl, inv_putEnded h (fun hup => nomatch hup) herror⟩
  | block _ | putBlock => cases hwaiting

/-- Every step keeps the invariant, as long as what it reads of the file is still there. -/
theorem inv_step {e : Event ε} (h : Inv m file s) (he : Enabled s e) {seen : Option Bytes}
    (hseen : Sees m file seen s e) : ∃ s', step m seen s e = some s' ∧ Inv m file s' := by
  cases e with
  | upload =>
    obtain rfl := hseen
    exact ⟨_, rfl, inv_upload h⟩
  | pause => exact ⟨_, rfl, inv_pause h⟩
  | cancel => exact ⟨_, rfl, inv_cancel h⟩
  | proceed => exact proceed_spec h he hseen
  | succeeded => exact succeeded_spec h he seen
  | failed urlCancelled => exact failed_spec h he seen
  | partProcessed r => exact ⟨_, rfl, inv_partProcessed h he⟩
  | completeProcessed r => exact ⟨_, rfl, inv_completeProcessed h he⟩
  | putProcessed body => exact ⟨_, rfl, inv_putProcessed h he⟩
  | abortProcessed uploadId => exact ⟨_, rfl, { h.held with }, h.kept, h.chain, h.asked, h.uploaded, h.counted⟩

/-- Whatever happens to the requests of an upload, and however often it is paused and taken up again:
    nothing traps, and at all times the acknowledged parts are the first ones of the file and what S3
    has stored is the file. -/
theorem exact_run (m : Setting ε) (file : Bytes) (bucket key : String)
    (run : Runs.Schedule (step m (some file)) Enabled (State.init bucket key)) :
    (∃ t, Runs.exec (step m (some file)) (State.init bucket key) run.events = some t) ∧
      Runs.Throughout (step m (some file)) (Exact m file) (State.init bucket key) run.events := by
  refine Runs.run_ok (I := Inv m file) (fun s e h he => ?_) (fun s h => exact_of_inv h)
    (inv_init m file bucket key) run.enabled
  exact inv_step h he (sees_file m file s e)

/-- A file of two parts is paused after its first part, and taken up again. -/
def pausedOnce : List (Event Bytes) :=
  [.upload, .succeeded, .proceed, .partProcessed ⟨some 0, 1, [1, 2]⟩, .succeeded, .pause, .proceed,
   .upload, .proceed, .partProcessed ⟨some 0, 2, [3]⟩, .succeeded, .proceed,
   .completeProcessed ⟨some 0, [⟨1, [1, 2]⟩, ⟨2, [3]⟩]⟩, .succeeded]

theorem exact_pausedOnce :
    (Runs.exec (step ⟨2, by decide, id⟩ (some [1, 2, 3])) (State.init "b" "a.jpg") pausedOnce).map
        (fun s => (s.s3.objects, s.results)) = some ([[1, 2, 3]], [.failed .paused, .uploaded]) ∧
    Runs.Throughout (step ⟨2, by decide, id⟩ (some [1, 2, 3])) (Exact ⟨2, by decide, id⟩ [1, 2, 3])
      (State.init "b" "a.jpg") pausedOnce :=
  ⟨by decide, (exact_run ⟨2, by decide, id⟩ [1, 2, 3] "b" "a.jpg" ⟨pausedOnce, by decide⟩).2⟩

end TransferManager

end Shiftgram
