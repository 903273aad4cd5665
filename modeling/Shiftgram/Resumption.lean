import Shiftgram.Uploads

/- An upload that is taken up again, and one that is cancelled. `upload:` goes on at the first part
   that is not acknowledged and, if its requests succeed, sends just the missing parts and completes
   (`resume_completes`). A cancelled upload stores nothing and sends no further part, unless its last
   part was acknowledged or on its way when it was cancelled (`cancel_iff`): the block that completes
   does not look at the state of the request. -/
namespace Shiftgram

namespace TransferManager

open AWSS3TransferManager

variable {ε : Type} {m : Setting ε} {file : Bytes} {s s' : State ε}

/-- Stages that use the id of a multipart upload. -/
def Stage.identified : Stage → Bool
  | .block _ | .sending _ _ | .completing => true
  | .creating | .putBlock | .putting _ => false

/-- The multipart uploads that a request still counts on: unless it was cancelled, its upload is open
    at S3 or already assembled. -/
structure Alive (s : State ε) : Prop where
  named : s.request.bucket ≠ "" ∧ s.request.key ≠ ""
  opened : ∀ id < s.s3.created,
    id ∈ s.s3.opened ∨ id ∈ s.s3.assembled ∨ id ∈ s.s3.abortRequests
  given : (s.acknowledged ≠ 0 ∨ ∃ c ∈ s.chain, c.stage.identified = true) →
    ∃ id < s.s3.created, s.request.uploadId = some id
  asked : ∀ r ∈ s.s3.completeRequests, ∃ id < s.s3.created, r.uploadId = some id
  aborted : s.s3.abortRequests ≠ [] →
    s.request.state = .canceling ∨ s.request.state = .completed

theorem alive_init {bucket key : String} (hbucket : bucket ≠ "") (hkey : key ≠ "") :
    Alive (State.init bucket key : State ε) where
  named := ⟨hbucket, hkey⟩
  opened := by simp [State.init, S3.init]
  given := by simp [State.init, State.acknowledged]
  asked := by simp [State.init, S3.init]
  aborted := by simp [State.init, S3.init]

/-- The request is neither cancelled nor completed. -/
def Active (s : State ε) : Prop := s.request.state ≠ .canceling ∧ s.request.state ≠ .completed

theorem no_abort (h : Alive s) (hs : Active s) : s.s3.abortRequests = [] := by
  by_contra hne
  exact (h.aborted hne).elim hs.1 hs.2

/-- With nothing aborted, an id is of an upload that is open or assembled. -/
theorem open_or_assembled (h : Alive s) (hnone : s.s3.abortRequests = []) {id : Nat}
    (hid : id < s.s3.created) : id ∈ s.s3.opened ∨ id ∈ s.s3.assembled := by
  rcases h.opened id hid with hopen | hassembled | haborted
  · exact Or.inl hopen
  · exact Or.inr hassembled
  · rw [hnone] at haborted
    cases haborted

/-! ## Steps -/

/-- A chain that ends, or starts without an upload id. -/
theorem alive_chain (h : Alive s) {chain : Option Chain}
    (hchain : ∀ c ∈ chain, c.stage.identified = true →
      ∃ id < s.s3.created, s.request.uploadId = some id)
    (results : List TaskResult) (cached : Bool) :
    Alive { s with chain := chain, results := results, cached := cached } where
  named := h.named
  opened := h.opened
  given := by
    rintro (hne | ⟨c, hc, hid⟩)
    · exact h.given (Or.inl hne)
    · exact hchain c hc hid
  asked := h.asked
  aborted := h.aborted

theorem alive_state (h : Alive s) {state : RequestState}
    (hstate : s.s3.abortRequests ≠ [] → state = .canceling ∨ state = .completed) :
    Alive { s with request := { s.request with state := state } } :=
  ⟨h.named, h.opened, h.given, h.asked, hstate⟩

theorem alive_pause (h : Alive s) : Alive (UploadRequest.pause s) := by
  unfold UploadRequest.pause
  split
  · exact h
  · next hs =>
    rw [not_or] at hs
    exact alive_state h fun hne => absurd (no_abort h ⟨hs.2, hs.1⟩) hne

theorem alive_cancel (h : Alive s) : Alive (UploadRequest.cancel s) := by
  unfold UploadRequest.cancel
  split
  · exact h
  · exact alive_state h fun _ => Or.inl rfl

theorem alive_taskEnded (h : Alive s) (result : TaskResult) : Alive (taskEnded s result) := by
  have hnone : ∀ results, Alive { s with chain := none, results := results } :=
    fun results => alive_chain h (by rintro c ⟨⟩) results s.cached
  unfold taskEnded
  split
  · exact hnone _
  · exact hnone _
  · exact alive_state (hnone _) fun _ => Or.inr rfl

theorem alive_uncache (h : Alive s) : Alive (uncache s) := by
  unfold uncache
  split
  · exact h
  · exact ⟨h.named, h.opened, h.given, h.asked, h.aborted⟩

theorem alive_multipartEnded (h : Alive s) (result : TaskResult) :
    Alive (multipartEnded s result) := by
  have hun := alive_uncache h
  unfold multipartEnded
  apply alive_taskEnded
  split
  · next hstate =>
    refine ⟨hun.named, fun id hid => ?_, hun.given, hun.asked, fun _ => Or.inl hstate⟩
    rcases hun.opened id hid with hopen | hassembled | haborted
    · exact Or.inl hopen
    · exact Or.inr (Or.inl hassembled)
    · exact Or.inr (Or.inr (List.mem_append_left _ haborted))
  · exact hun

theorem alive_multipartUpload (h : Alive s) (hI : Inv m file s) (fileSize : Nat) :
    Alive (multipartUpload s fileSize) := by
  unfold multipartUpload
  split
  · refine ⟨h.named, h.opened, ?_, h.asked, h.aborted⟩
    rintro (hne | ⟨c, hc, hid⟩)
    · exact absurd rfl hne
    · cases hc
      cases hid
  · next hne =>
    have hsome : s.acknowledged ≠ 0 := by
      intro hzero
      apply hne
      rw [hI.kept.next]
      exact if_pos hzero
    exact alive_chain h (fun _ _ _ => h.given (Or.inl hsome)) s.results s.cached

theorem alive_upload (h : Alive s) (hI : Inv m file s) : Alive (upload m (some file) s) := by
  have hrefuse : ∀ error, Alive (refuse s error) := fun error =>
    ⟨h.named, h.opened, h.given, h.asked, h.aborted⟩
  unfold upload
  split
  · exact hrefuse _
  · split
    · exact hrefuse _
    · split
      · exact hrefuse _
      · next hcompleted hcanceling =>
        have hrun : Alive { s with
            request := { s.request with state := .running }
            cached := true } :=
          ⟨h.named, h.opened, h.given, h.asked,
            fun hne => absurd (no_abort h ⟨hcanceling, hcompleted⟩) hne⟩
        dsimp only
        split
        · exact alive_multipartUpload hrun (inv_cached (inv_state hI .running) true) _
        · exact alive_chain hrun (by rintro c ⟨⟩ ⟨⟩) _ _

theorem alive_block (h : Alive s) {n i : Nat} (hchain : s.chain = some ⟨n, .block i⟩)
    (seen : Option Bytes) : Alive (block m seen s n i) := by
  have hgiven : ∃ id < s.s3.created, s.request.uploadId = some id :=
    h.given (Or.inr ⟨_, hchain, rfl⟩)
  unfold block
  split
  · split
    · exact alive_multipartEnded h _
    · split
      · exact alive_multipartEnded h _
      · exact ⟨h.named, h.opened, fun _ => hgiven, h.asked, h.aborted⟩
  · split
    · exact alive_multipartEnded h _
    · refine ⟨h.named, h.opened, fun _ => hgiven, ?_, h.aborted⟩
      intro r hr
      rcases List.mem_append.mp hr with hold | hnew
      · exact h.asked r hold
      · rw [List.mem_singleton.mp hnew]
        exact hgiven

theorem alive_putBlock (h : Alive s) (seen : Option Bytes) (n : Nat) :
    Alive (putBlock seen s n) := by
  refine ⟨h.named, h.opened, ?_, h.asked, h.aborted⟩
  rintro (hne | ⟨c, hc, hid⟩)
  · exact h.given (Or.inl hne)
  · cases hc
    cases hid

theorem alive_created (h : Alive s) (n : Nat) : Alive (created s n) where
  named := h.named
  opened := by
    intro id hid
    show id ∈ s.s3.opened ++ [s.s3.created] ∨ _
    rcases Nat.lt_succ_iff_lt_or_eq.mp hid with hold | rfl
    · exact (h.opened id hold).imp_left (List.mem_append_left _)
    · exact Or.inl (List.mem_append_right _ (List.mem_singleton_self _))
  given := fun _ => ⟨s.s3.created, Nat.lt_succ_self _, rfl⟩
  asked := by
    intro r hr
    obtain ⟨id, hid, hr⟩ := h.asked r hr
    exact ⟨id, Nat.lt_succ_of_lt hid, hr⟩
  aborted := h.aborted

theorem alive_abortProcessed (h : Alive s) {id : Nat} (hid : id ∈ s.s3.abortRequests) :
    Alive { s with s3 := { s.s3 with opened := s.s3.opened.filter (· ≠ id) } } := by
  refine ⟨h.named, fun id' hid' => ?_, h.given, h.asked, h.aborted⟩
  rcases h.opened id' hid' with hopen | hrest
  · by_cases hne : id' = id
    · exact Or.inr (Or.inr (hne ▸ hid))
    · exact Or.inl (List.mem_filter.mpr ⟨hopen, by simpa using hne⟩)
  · exact Or.inr hrest

variable [DecidableEq ε]

theorem alive_partSent (h : Alive s) {n i : Nat} {data : Option Bytes}
    (hchain : s.chain = some ⟨n, .sending i data⟩) (bytes : Bytes) :
    Alive (partSent m s n i bytes) :=
  ⟨h.named, h.opened, fun _ => h.given (Or.inr ⟨_, hchain, rfl⟩), h.asked, h.aborted⟩

theorem alive_completeProcessed (h : Alive s) (r : CompleteRequest ε) :
    Alive { s with s3 := s.s3.completeProcessed m r } := by
  unfold S3.completeProcessed
  split
  · exact h
  · refine ⟨h.named, fun id hid => ?_, h.given, h.asked, h.aborted⟩
    rcases h.opened id hid with hopen | hassembled | haborted
    · by_cases hr : r.uploadId = some id
      · refine Or.inr (Or.inl (List.mem_append_right _ ?_))
        rw [hr]
        exact List.mem_singleton_self _
      · exact Or.inl (List.mem_filter.mpr ⟨hopen, by simpa using fun hid => hr hid.symm⟩)
    · exact Or.inr (Or.inl (List.mem_append_left _ hassembled))
    · exact Or.inr (Or.inr haborted)

theorem alive_step {e : Event ε} (h : Alive s) (hI : Inv m file s) (he : Enabled s e)
    (hs' : step m (some file) s e = some s') : Alive s' := by
  cases e with
  | upload => exact Option.some.inj hs' ▸ alive_upload h hI
  | pause => exact Option.some.inj hs' ▸ alive_pause h
  | cancel => exact Option.some.inj hs' ▸ alive_cancel h
  | proceed =>
    rw [step, State.proceed] at hs'
    split at hs'
    · next hchain => exact Option.some.inj hs' ▸ alive_block h hchain _
    · exact Option.some.inj hs' ▸ alive_putBlock h _ _
    · cases hs'
  | succeeded =>
    rw [step, State.succeeded] at hs'
    split at hs'
    · exact Option.some.inj hs' ▸ alive_created h _
    · next hchain => exact Option.some.inj hs' ▸ alive_partSent h hchain _
    · exact Option.some.inj hs' ▸ alive_multipartEnded h _
    · exact Option.some.inj hs' ▸ alive_taskEnded (alive_uncache h) _
    · cases hs'
  | failed urlCancelled =>
    rw [step, State.failed] at hs'
    split at hs'
    · exact Option.some.inj hs' ▸ alive_multipartEnded h _
    · exact Option.some.inj hs' ▸ alive_multipartEnded h _
    · exact Option.some.inj hs' ▸ alive_multipartEnded h _
    · exact Option.some.inj hs' ▸ alive_taskEnded (alive_uncache h) _
    · cases hs'
  | partProcessed r =>
    exact Option.some.inj hs' ▸ ⟨h.named, h.opened, h.given, h.asked, h.aborted⟩
  | completeProcessed r => exact Option.some.inj hs' ▸ alive_completeProcessed h r
  | putProcessed body =>
    exact Option.some.inj hs' ▸ ⟨h.named, h.opened, h.given, h.asked, h.aborted⟩
  | abortProcessed id => exact Option.some.inj hs' ▸ alive_abortProcessed h he

/-- What holds of every state that a request with a bucket and a key comes to. -/
structure Ok (m : Setting ε) (file : Bytes) (s : State ε) : Prop where
  inv : Inv m file s
  alive : Alive s

theorem ok_of_step {e : Event ε} (h : Ok m file s) (he : Enabled s e)
    (hs' : step m (some file) s e = some s') : Ok m file s' := by
  obtain ⟨t, ht, hI⟩ := inv_step h.inv he (sees_file m file s e)
  exact ⟨Option.some.inj (ht.symm.trans hs') ▸ hI, alive_step h.alive h.inv he hs'⟩

theorem ok_step {e : Event ε} (h : Ok m file s) (he : Enabled s e) :
    ∃ s', step m (some file) s e = some s' ∧ Ok m file s' := by
  obtain ⟨s', hs', -⟩ := inv_step h.inv he (sees_file m file s e)
  exact ⟨s', hs', ok_of_step h he hs'⟩

theorem ok_of_run {bucket key : String} (hbucket : bucket ≠ "") (hkey : key ≠ "")
    (run : Runs.Schedule (step m (some file)) Enabled (State.init bucket key))
    (hs : Runs.exec (step m (some file)) (State.init bucket key) run.events = some s) :
    Ok m file s := by
  obtain ⟨t, ht, hok⟩ := Runs.exec_ok (fun s e h he => ok_step h he)
    ⟨inv_init m file bucket key, alive_init hbucket hkey⟩ run.enabled
  exact Option.some.inj (ht.symm.trans hs) ▸ hok

/-! ## Taking up an upload again -/

/-- The request goes on with the part after the first `k`. -/
structure Going (m : Setting ε) (file : Bytes) (s : State ε) (k : Nat) : Prop where
  ok : Ok m file s
  chain : s.chain = some ⟨file.length, .block (k + 1)⟩
  count : s.acknowledged = k
  running : s.request.state = .running

omit [DecidableEq ε] in
theorem Going.active {k : Nat} (h : Going m file s k) : Active s := by
  unfold Active
  rw [h.running]
  exact ⟨by decide, by decide⟩

/-- The requests for the parts from the one after the first `k` on. -/
def missing (m : Setting ε) (file : Bytes) (uploadId : Option Nat) (k : Nat) : List PartRequest :=
  (List.range' k (partCount m file.length - k)).map fun i =>
    ⟨uploadId, i + 1, Parts.part m.partSize file i⟩

/-- One part: it is read and sent, S3 takes it and answers. -/
theorem sendPart {k : Nat} (h : Going m file s k) (hk : k < partCount m file.length) :
    ∃ s', Runs.Leads (step m (some file)) Enabled s s' ∧ Going m file s' (k + 1) ∧
      s'.request.uploadId = s.request.uploadId ∧
      s'.s3.partRequests = s.s3.partRequests ++
        [⟨s.request.uploadId, k + 1, Parts.part m.partSize file k⟩] := by
  let r : PartRequest := ⟨s.request.uploadId, k + 1, Parts.part m.partSize file k⟩
  let sent : State ε :=
    { s with
      chain := some ⟨file.length, .sending (k + 1) (some r.body)⟩
      s3 := { s.s3 with partRequests := s.s3.partRequests ++ [r] } }
  let taken : State ε := { sent with s3 := { sent.s3 with parts := r :: sent.s3.parts } }
  have hunpaused : s.request.state ≠ .paused := by
    rw [h.running]
    decide
  have hsend : step m (some file) s .proceed = some sent := by
    rw [step, State.proceed, h.chain]
    dsimp only
    rw [block, if_pos (Nat.succ_lt_succ hk), if_neg h.active.1, if_neg hunpaused]
    dsimp only [Option.map_some]
    rw [readData_part]
    rfl
  have hgo : Enabled s .proceed := by
    show s.chain.map _ = _
    rw [h.chain]
    rfl
  have hok := ok_of_step h.ok hgo hsend
  have hr : Enabled sent (.partProcessed r) := List.mem_append_right _ (List.mem_singleton_self _)
  have htaken : Ok m file taken := ok_of_step hok hr rfl
  have hanswer : Enabled taken .succeeded :=
    ⟨_, rfl, r.body, rfl, List.mem_cons_self⟩
  have hchain : taken.chain = some ⟨file.length, .sending (k + 1) (some r.body)⟩ := rfl
  have hdone : step m (some file) taken .succeeded =
      some (partSent m taken file.length (k + 1) r.body) := by
    rw [step, State.succeeded, hchain]
  have hspec := partSent_spec htaken.inv hchain
  have hack : taken.acknowledged = k := h.count
  rw [hack] at hspec
  refine ⟨_, .head hgo hsend (.head hr rfl (.head hanswer hdone (.refl _))), ?_, ?_, ?_⟩
  · refine ⟨ok_of_step htaken hanswer hdone, ?_, ?_, ?_⟩
    · rw [hspec]
    · rw [hspec]
      exact length_completedParts m file (k + 1)
    · rw [hspec]
      exact h.running
  · rw [hspec]
  · rw [hspec]

/-- All missing parts, by induction on their number. -/
theorem sendParts {k : Nat} (h : Going m file s k) (hk : k ≤ partCount m file.length) :
    ∃ s', Runs.Leads (step m (some file)) Enabled s s' ∧
      Going m file s' (partCount m file.length) ∧
      s'.request.uploadId = s.request.uploadId ∧
      s'.s3.partRequests = s.s3.partRequests ++ missing m file s.request.uploadId k := by
  obtain ⟨n, hn⟩ := Nat.exists_eq_add_of_le hk
  induction n generalizing s k with
  | zero =>
    have hall : k = partCount m file.length := by omega
    refine ⟨s, .refl s, hall ▸ h, rfl, ?_⟩
    rw [missing, hall, Nat.sub_self]
    simp
  | succ n ih =>
    obtain ⟨s₁, hlead, hgoing, hid, hsent⟩ := sendPart h (by omega)
    obtain ⟨s', hlead', hgoing', hid', hsent'⟩ := ih hgoing (by omega) (by omega)
    refine ⟨s', hlead.trans hlead', hgoing', hid'.trans hid, ?_⟩
    have hcount : partCount m file.length - k = (partCount m file.length - (k + 1)) + 1 := by omega
    rw [hsent', hsent, hid, missing, missing, hcount, List.range'_succ, List.map_cons,
      List.append_assoc, List.singleton_append]

omit [DecidableEq ε] in
theorem partRequests_multipartEnded (s : State ε) (result : TaskResult) :
    (multipartEnded s result).s3.partRequests = s.s3.partRequests := by
  obtain ⟨aborts, haborts⟩ := s3_multipartEnded s result
  rw [haborts]

/-- S3 can process a complete request that it was sent. -/
theorem assembles (h : Ok m file s) (hnone : s.s3.abortRequests = []) {r : CompleteRequest ε}
    (hr : r ∈ s.s3.completeRequests) :
    ∃ s', Runs.Leads (step m (some file)) Enabled s s' ∧ Ok m file s' ∧
      r.uploadId ∈ s'.s3.assembled.map some ∧ s'.chain = s.chain ∧ s'.request = s.request ∧
      s'.s3.partRequests = s.s3.partRequests := by
  obtain ⟨id, hid, huploadId⟩ := h.alive.asked r hr
  rcases open_or_assembled h.alive hnone hid with hopen | hassembled
  · have hobject : s.s3.assemble m r = some file := by
      rw [assemble_spec h.inv.held (h.inv.held.whole r hr), if_pos]
      rw [huploadId]
      exact List.mem_map_of_mem hopen
    have hprocess : Enabled s (.completeProcessed r) := hr
    have hdone := ok_of_step h hprocess rfl
    refine ⟨_, .head hprocess rfl (.refl _), hdone, ?_, rfl, rfl, ?_⟩
    · show r.uploadId ∈ (s.s3.completeProcessed m r).assembled.map some
      unfold S3.completeProcessed
      rw [hobject, huploadId]
      simp
    · show (s.s3.completeProcessed m r).partRequests = _
      unfold S3.completeProcessed
      rw [hobject]
  · rw [huploadId]
    exact ⟨s, .refl s, h, List.mem_map_of_mem hassembled, rfl, rfl, rfl⟩

/-- With all parts acknowledged, the block that completes asks S3 to assemble them. -/
theorem ask (h : Ok m file s)
    (hchain : s.chain = some ⟨file.length, .block (partCount m file.length + 1)⟩) :
    ∃ s', Runs.Leads (step m (some file)) Enabled s s' ∧ Ok m file s' ∧
      s'.chain = some ⟨file.length, .completing⟩ ∧ s'.request = s.request ∧
      s'.s3.abortRequests = s.s3.abortRequests ∧ s'.s3.partRequests = s.s3.partRequests ∧
      ⟨s.request.uploadId, s.request.completedPartsArray⟩ ∈ s'.s3.completeRequests := by
  have hcount : ¬ s.request.completedPartsArray.length ≠ partCount m file.length := by
    have hall := (h.inv.chain _ hchain).2.2
    exact not_not.mpr (Nat.succ.inj hall).symm
  have hask : step m (some file) s .proceed = some
      { s with
        chain := some ⟨file.length, .completing⟩
        s3 := { s.s3 with
          completeRequests := s.s3.completeRequests ++
            [⟨s.request.uploadId, s.request.completedPartsArray⟩] } } := by
    rw [step, State.proceed, hchain]
    dsimp only
    rw [block, if_neg (Nat.lt_irrefl _), if_neg hcount]
  have hgo : Enabled s .proceed := by
    show s.chain.map _ = _
    rw [hchain]
    rfl
  refine ⟨_, .head hgo hask (.refl _), ok_of_step h hgo hask, rfl, rfl, rfl, rfl, ?_⟩
  exact List.mem_append_right _ (List.mem_singleton_self _)

/-- With all parts acknowledged, the upload is completed. -/
theorem completeParts (h : Going m file s (partCount m file.length)) :
    ∃ s', Runs.Leads (step m (some file)) Enabled s s' ∧ s'.request.state = .completed ∧
      file ∈ s'.s3.objects ∧ s'.s3.partRequests = s.s3.partRequests := by
  have hnone := no_abort h.ok.alive h.active
  obtain ⟨s₁, hlead₁, hok₁, hchain₁, hrequest₁, habort, hsent₁, hmem⟩ := ask h.ok h.chain
  obtain ⟨s₂, hlead₂, hok₂, hassembled, hchain₂, hrequest₂, hsent₂⟩ :=
    assembles hok₁ (habort.trans hnone) hmem
  have hchain : s₂.chain = some ⟨file.length, .completing⟩ := hchain₂.trans hchain₁
  have hanswer : Enabled s₂ .succeeded := by
    refine ⟨_, hchain, ?_⟩
    show s₂.request.uploadId ∈ _
    rw [hrequest₂, hrequest₁]
    exact hassembled
  have hdone : step m (some file) s₂ .succeeded = some (multipartEnded s₂ .uploaded) := by
    rw [step, State.succeeded, hchain]
  have hok := ok_of_step hok₂ hanswer hdone
  refine ⟨_, (hlead₁.trans hlead₂).trans (.head hanswer hdone (.refl _)), rfl, ?_, ?_⟩
  · apply hok.inv.uploaded
    exact List.mem_append_right _ (List.mem_singleton_self _)
  · rw [partRequests_multipartEnded, hsent₂, hsent₁]

/-- A new multipart upload is created, or an old one goes on at its first missing part. -/
theorem multipartUpload_going (h : Ok m file s) (hrunning : s.request.state = .running)
    (hok : Ok m file (multipartUpload s file.length)) :
    ∃ s', Runs.Leads (step m (some file)) Enabled (multipartUpload s file.length) s' ∧
      Going m file s' s.acknowledged ∧ s'.s3.partRequests = s.s3.partRequests := by
  have hnext := h.inv.kept.next
  unfold multipartUpload at hok ⊢
  split at hok
  · next hzero =>
    have hnone : s.request.completedPartsArray.length = 0 := by
      by_contra hne
      rw [if_neg hne] at hnext
      omega
    rw [if_pos hzero]
    have hanswer : Enabled { s with
        request := { s.request with completedPartsArray := [] }
        chain := some ⟨file.length, .creating⟩ } .succeeded := ⟨_, rfl, trivial⟩
    refine ⟨_, .head hanswer rfl (.refl _), ⟨ok_of_step hok hanswer rfl, ?_, ?_, hrunning⟩, rfl⟩
    · show some (Chain.mk _ (.block (if s.request.currentUploadingPartNumber = 0 then 1 else _))) = _
      rw [if_pos hzero, State.acknowledged, hnone]
    · exact hnone.symm
  · next hne =>
    rw [if_neg hne]
    refine ⟨_, .refl _, ⟨hok, ?_, rfl, hrunning⟩, rfl⟩
    split at hnext
    · exact absurd hnext hne
    · rw [hnext]
      rfl

/-- `putObject` reads the file, S3 stores it and answers. -/
theorem putFile (hchain : s.chain = some ⟨file.length, .putBlock⟩) :
    ∃ s', Runs.Leads (step m (some file)) Enabled s s' ∧ s'.request.state = .completed ∧
      file ∈ s'.s3.objects ∧ s'.s3.partRequests = s.s3.partRequests := by
  let sent := putBlock (some file) s file.length
  let stored : State ε := { sent with s3 := { sent.s3 with objects := sent.s3.objects ++ [file] } }
  have hgo : Enabled s .proceed := by
    show s.chain.map _ = _
    rw [hchain]
    rfl
  have hsend : step m (some file) s .proceed = some sent := by
    rw [step, State.proceed, hchain]
  have hbody : Enabled sent (.putProcessed file) :=
    List.mem_append_right _ (List.mem_singleton_self _)
  have hmem : file ∈ stored.s3.objects := List.mem_append_right _ (List.mem_singleton_self _)
  have hanswer : Enabled stored .succeeded := ⟨_, rfl, file, rfl, hmem⟩
  refine ⟨putEnded stored .uploaded,
    .head hgo hsend (.head hbody rfl (.head hanswer rfl (.refl _))), rfl, ?_, ?_⟩
  · show file ∈ (uncache stored).s3.objects
    rw [s3_uncache]
    exact hmem
  · show (uncache stored).s3.partRequests = _
    rw [s3_uncache]
    rfl

/-- An upload that is neither completed nor cancelled can be taken up again at any time: if its
    requests succeed, then S3 stores the file, and what is sent for it are exactly the parts that
    were not acknowledged. -/
theorem resume_completes (m : Setting ε) (file : Bytes) {bucket key : String} (hbucket : bucket ≠ "")
    (hkey : key ≠ "")
    (run : Runs.Schedule (step m (some file)) Enabled (State.init bucket key)) {s : State ε}
    (hs : Runs.exec (step m (some file)) (State.init bucket key) run.events = some s)
    (hidle : s.chain = none) (hactive : Active s) :
    Enabled s .upload ∧ ∃ t,
      Runs.Leads (step m (some file)) Enabled (upload m (some file) s) t ∧
      t.request.state = .completed ∧ file ∈ t.s3.objects ∧
      ∃ uploadId, t.s3.partRequests = s.s3.partRequests ++
        if m.partSize < file.length then missing m file uploadId s.acknowledged else [] := by
  have hok := ok_of_run hbucket hkey run hs
  refine ⟨hidle, ?_⟩
  have hready : Enabled s .upload := hidle
  have hup : Ok m file (upload m (some file) s) := ok_of_step hok hready rfl
  let running : State ε :=
    { s with
      request := { s.request with state := .running }
      cached := true }
  have hrunning : Ok m file running :=
    ⟨inv_cached (inv_state hok.inv .running) true, hok.alive.named, hok.alive.opened,
      hok.alive.given, hok.alive.asked, fun hne => absurd (no_abort hok.alive hactive) hne⟩
  have hupload : upload m (some file) s =
      if file.length > m.partSize then multipartUpload running file.length
      else { running with chain := some ⟨file.length, .putBlock⟩ } :=
    upload_active hok.alive.named hactive.1 hactive.2 (some file)
  rw [hupload] at hup ⊢
  by_cases hlarge : m.partSize < file.length
  · rw [if_pos hlarge] at hup ⊢
    obtain ⟨s₁, hlead₁, hgoing, hsame⟩ := multipartUpload_going hrunning rfl hup
    obtain ⟨s₂, hlead₂, hall, -, hsent⟩ := sendParts hgoing hok.inv.kept.le
    obtain ⟨t, hlead, hstate, hfile, hlast⟩ := completeParts hall
    refine ⟨t, (hlead₁.trans hlead₂).trans hlead, hstate, hfile, s₁.request.uploadId, ?_⟩
    rw [if_pos hlarge, hlast, hsent, hsame]
    rfl
  · rw [if_neg hlarge] at hup ⊢
    have hchain : ({ running with chain := some ⟨file.length, .putBlock⟩ } : State ε).chain =
        some ⟨file.length, .putBlock⟩ := rfl
    obtain ⟨t, hlead, hstate, hfile, hsame⟩ := putFile (m := m) hchain
    refine ⟨t, hlead, hstate, hfile, none, ?_⟩
    rw [if_neg hlarge, List.append_nil, hsame]

/-- Parts of two bytes, with the part as its own ETag. -/
def pairs : Setting Bytes := ⟨2, by decide, id⟩

/-- Five bytes, whose second part fails after S3 has taken the first. -/
def firstPart : Runs.Schedule (step pairs (some [1, 2, 3, 4, 5])) Enabled
    (State.init "shiftgramimage" "a.jpg") :=
  ⟨[.upload, .succeeded, .proceed, .partProcessed ⟨some 0, 1, [1, 2]⟩, .succeeded, .proceed,
    .failed false], by decide⟩

def afterFirstPart : State Bytes where
  request := ⟨"shiftgramimage", "a.jpg", .running, 2, [⟨1, [1, 2]⟩], some 0, 2⟩
  chain := none
  cached := false
  results := [.failed .other]
  s3 := ⟨1, [0], [], [⟨some 0, 1, [1, 2]⟩, ⟨some 0, 2, [3, 4]⟩], [], [], [], [⟨some 0, 1, [1, 2]⟩], []⟩

/-- The second and the third part are sent. -/
theorem resume_afterFirstPart : Enabled afterFirstPart .upload ∧ ∃ t,
    Runs.Leads (step pairs (some [1, 2, 3, 4, 5])) Enabled
      (upload pairs (some [1, 2, 3, 4, 5]) afterFirstPart) t ∧
    t.request.state = .completed ∧ [1, 2, 3, 4, 5] ∈ t.s3.objects ∧
    ∃ uploadId, t.s3.partRequests = afterFirstPart.s3.partRequests ++
      if 2 < 5 then missing pairs [1, 2, 3, 4, 5] uploadId 1 else [] := by
  exact resume_completes pairs [1, 2, 3, 4, 5] (by decide) (by decide) firstPart
    (s := afterFirstPart) (by decide) (by decide) ⟨by decide, by decide⟩

/-! ## Cancelling -/

/-- S3 has been asked to complete the upload, or will be without a look at the request's state: the
    last part is acknowledged or on its way. -/
def Late (m : Setting ε) (file : Bytes) (s : State ε) : Prop :=
  s.s3.completeRequests ≠ [] ∨ ∃ c ∈ s.chain,
    c.stage = .block (partCount m file.length + 1) ∨
      ∃ data, c.stage = .sending (partCount m file.length) data

/-- The answer to the part that is on its way. -/
theorem partAcknowledged (h : Ok m file s) {n i : Nat} {data : Option Bytes}
    (hchain : s.chain = some ⟨n, .sending i data⟩) :
    ∃ s', Runs.Leads (step m (some file)) Enabled s s' ∧ Ok m file s' ∧
      s'.chain = some ⟨file.length, .block (i + 1)⟩ ∧
      s'.s3.abortRequests = s.s3.abortRequests := by
  obtain ⟨hn, hlarge, hi, hk, hdata, hsent⟩ := h.inv.chain _ hchain
  dsimp only at hn
  subst hn hi hdata
  let r : PartRequest := ⟨s.request.uploadId, s.acknowledged + 1,
    Parts.part m.partSize file s.acknowledged⟩
  let taken : State ε := { s with s3 := { s.s3 with parts := r :: s.s3.parts } }
  have hr : Enabled s (.partProcessed r) := hsent
  have htaken : Ok m file taken := ok_of_step h hr rfl
  have hanswer : Enabled taken .succeeded := ⟨_, hchain, r.body, rfl, List.mem_cons_self⟩
  have hdone : step m (some file) taken .succeeded =
      some (partSent m taken file.length (s.acknowledged + 1) r.body) := by
    rw [step, State.succeeded, show taken.chain = s.chain from rfl, hchain]
  exact ⟨_, .head hr rfl (.head hanswer hdone (.refl _)), ok_of_step htaken hanswer hdone, rfl, rfl⟩

/-- Then S3 can store the file, whatever the state of the request. -/
theorem late_stores (h : Ok m file s) (hnone : s.s3.abortRequests = []) (hlate : Late m file s) :
    ∃ t, Runs.Leads (step m (some file)) Enabled s t ∧ t.s3.objects ≠ [] := by
  have hasked : ∀ {t : State ε} {r : CompleteRequest ε}, Ok m file t → t.s3.abortRequests = [] →
      r ∈ t.s3.completeRequests →
      ∃ u, Runs.Leads (step m (some file)) Enabled t u ∧ u.s3.objects ≠ [] := by
    intro t r ht hnone hr
    obtain ⟨u, hlead, hok, hassembled, -⟩ := assembles ht hnone hr
    refine ⟨u, hlead, List.ne_nil_of_mem (hok.inv.held.assembled ?_)⟩
    intro hnil
    rw [hnil] at hassembled
    cases hassembled
  have hblock : ∀ {t : State ε}, Ok m file t → t.s3.abortRequests = [] →
      t.chain = some ⟨file.length, .block (partCount m file.length + 1)⟩ →
      ∃ u, Runs.Leads (step m (some file)) Enabled t u ∧ u.s3.objects ≠ [] := by
    intro t ht hnone hchain
    obtain ⟨t', hlead, hok, -, -, habort, -, hmem⟩ := ask ht hchain
    obtain ⟨u, hlead', hne⟩ := hasked hok (habort.trans hnone) hmem
    exact ⟨u, hlead.trans hlead', hne⟩
  rcases hlate with hne | ⟨⟨n, stage⟩, hc, hstage⟩
  · obtain ⟨r, hr⟩ := List.exists_mem_of_ne_nil _ hne
    exact hasked h hnone hr
  · obtain ⟨hn, -⟩ := h.inv.chain _ hc
    dsimp only at hn hstage
    subst hn
    rcases hstage with rfl | ⟨data, rfl⟩
    · exact hblock h hnone hc
    · obtain ⟨t, hlead, hok, hchain, habort⟩ := partAcknowledged h hc
      obtain ⟨u, hlead', hne⟩ := hblock hok (habort.trans hnone) hchain
      exact ⟨u, hlead.trans hlead', hne⟩

/-- A cancelled upload before its last part. -/
structure Stopped (m : Setting ε) (file : Bytes) (sent : List PartRequest) (s : State ε) : Prop where
  ok : Ok m file s
  state : s.request.state = .canceling
  sent : s.s3.partRequests = sent
  notLate : ¬ Late m file s

omit [DecidableEq ε] in
theorem objects_of_stopped {sent : List PartRequest} (h : Stopped m file sent s)
    (hlarge : m.partSize < file.length) : s.s3.objects = [] := by
  by_contra hne
  rcases h.ok.inv.held.source hne with hasked | hput
  · exact h.notLate (Or.inl hasked)
  · have hsmall := h.ok.inv.held.small hput
    omega

omit [DecidableEq ε] in
/-- A step that leaves the chain, or ends it, keeps a cancelled upload stopped. -/
theorem stopped_of_eq {sent : List PartRequest} (h : Stopped m file sent s) (hok : Ok m file s')
    (hstate : s'.request.state = s.request.state)
    (hsent : s'.s3.partRequests = s.s3.partRequests)
    (hasked : s'.s3.completeRequests = s.s3.completeRequests)
    (hchain : s'.chain = s.chain ∨ s'.chain = none) : Stopped m file sent s' := by
  refine ⟨hok, hstate.trans h.state, hsent.trans h.sent, ?_⟩
  rintro (hne | ⟨c, hc, hstage⟩)
  · exact h.notLate (Or.inl (hasked ▸ hne))
  · rcases hchain with hsame | hnone
    · exact h.notLate (Or.inr ⟨c, hsame ▸ hc, hstage⟩)
    · rw [hnone] at hc
      cases hc

omit [DecidableEq ε] in
theorem completeRequests_multipartEnded (s : State ε) (result : TaskResult) :
    (multipartEnded s result).s3.completeRequests = s.s3.completeRequests := by
  obtain ⟨aborts, haborts⟩ := s3_multipartEnded s result
  rw [haborts]

omit [DecidableEq ε] in
theorem failed_multipartEnded (s : State ε) (error : UploadError) :
    (multipartEnded s (.failed error)).chain = none ∧
      (multipartEnded s (.failed error)).request = s.request := by
  unfold multipartEnded taskEnded
  cases error <;> refine ⟨rfl, ?_⟩ <;> dsimp only <;> split <;>
    simp [abortMultipartUploadsForRequest]

omit [DecidableEq ε] in
theorem stopped_failed {sent : List PartRequest} (h : Stopped m file sent s) {error : UploadError}
    (hok : Ok m file (multipartEnded s (.failed error))) :
    Stopped m file sent (multipartEnded s (.failed error)) := by
  obtain ⟨hchain, hrequest⟩ := failed_multipartEnded s error
  exact stopped_of_eq h hok (congrArg UploadRequest.state hrequest) (partRequests_multipartEnded s _)
    (completeRequests_multipartEnded s _) (Or.inr hchain)

theorem stopped_step (hlarge : m.partSize < file.length) {sent : List PartRequest} {e : Event ε}
    (h : Stopped m file sent s) (he : Enabled s e) :
    ∃ s', step m (some file) s e = some s' ∧ Stopped m file sent s' := by
  obtain ⟨s', hs', hok⟩ := ok_step h.ok he
  refine ⟨s', hs', ?_⟩
  have hnil : s.s3.completeRequests = [] := by
    by_contra hne
    exact h.notLate (Or.inl hne)
  have hne : s.request.state ≠ .completed := by
    rw [h.state]
    decide
  have hcount := one_lt_partCount hlarge
  have hsmall : ¬ file.length ≤ m.partSize := Nat.not_le_of_lt hlarge
  cases e with
  | upload =>
    obtain rfl := Option.some.inj hs'
    have hrefuse : upload m (some file) s = refuse s .cancelled := by
      unfold upload
      rw [if_neg (not_or.mpr h.ok.alive.named), if_neg hne, if_pos h.state]
    rw [hrefuse] at hok ⊢
    exact stopped_of_eq h hok rfl rfl rfl (Or.inl rfl)
  | pause =>
    obtain rfl := Option.some.inj hs'
    rw [UploadRequest.pause, if_pos (Or.inr h.state)]
    exact h
  | cancel =>
    obtain rfl := Option.some.inj hs'
    rw [UploadRequest.cancel, if_neg hne] at hok ⊢
    exact stopped_of_eq h hok h.state.symm rfl rfl (Or.inl rfl)
  | proceed =>
    obtain ⟨⟨n, stage⟩, hc, hwaiting⟩ := Option.map_eq_some_iff.mp he
    obtain ⟨hn, hstage⟩ := h.ok.inv.chain _ hc
    dsimp only at hn
    subst hn
    rw [step, State.proceed, hc] at hs'
    cases stage with
    | block i =>
      have hi : i ≠ partCount m file.length + 1 := by
        rintro rfl
        exact h.notLate (Or.inr ⟨_, hc, Or.inl rfl⟩)
      have hle : s.acknowledged ≤ partCount m file.length := h.ok.inv.kept.le
      have hlt : i < partCount m file.length + 1 := by
        have hnext : i = s.acknowledged + 1 := hstage.2
        omega
      obtain rfl := Option.some.inj hs'
      rw [block, if_pos hlt, if_pos h.state] at hok ⊢
      exact stopped_failed h hok
    | putBlock => exact absurd hstage hsmall
    | creating | sending _ _ | completing | putting _ => cases hwaiting
  | succeeded =>
    obtain ⟨⟨n, stage⟩, hc, hprocessed⟩ := he
    obtain ⟨hn, hstage⟩ := h.ok.inv.chain _ hc
    dsimp only at hn
    subst hn
    rw [step, State.succeeded, Option.mem_def.mp hc] at hs'
    cases stage with
    | creating =>
      obtain rfl := Option.some.inj hs'
      refine ⟨hok, h.state, h.sent, ?_⟩
      rintro (hne | ⟨c, hc', hlast⟩)
      · exact hne hnil
      · have hnext : s.request.currentUploadingPartNumber = 0 := by
          rw [h.ok.inv.kept.next]
          exact if_pos hstage.2
        cases hc'
        rw [if_pos hnext] at hlast
        rcases hlast with hlast | ⟨data, hlast⟩
        · have := Stage.block.inj hlast
          omega
        · cases hlast
    | sending i data =>
      obtain ⟨d, hd, -⟩ := hprocessed
      cases hd
      have hi : i ≠ partCount m file.length := by
        rintro rfl
        exact h.notLate (Or.inr ⟨_, hc, Or.inr ⟨_, rfl⟩⟩)
      obtain rfl := Option.some.inj hs'
      refine ⟨hok, h.state, h.sent, ?_⟩
      rintro (hne | ⟨c, hc', hlast⟩)
      · exact hne hnil
      · cases hc'
        rcases hlast with hlast | ⟨data, hlast⟩
        · exact hi (Nat.succ.inj (Stage.block.inj hlast))
        · cases hlast
    | completing => exact absurd hnil hstage.2.2
    | putting body => exact absurd hstage.1 hsmall
    | block _ | putBlock => cases hprocessed
  | failed urlCancelled =>
    obtain ⟨⟨n, stage⟩, hc, hwaiting⟩ := Option.map_eq_some_iff.mp he
    have hstage := (h.ok.inv.chain _ hc).2
    rw [step, State.failed, hc] at hs'
    cases stage with
    | creating | sending _ _ | completing =>
      obtain rfl := Option.some.inj hs'
      exact stopped_failed h hok
    | putting _ => exact absurd hstage.1 hsmall
    | block _ | putBlock => cases hwaiting
  | partProcessed r =>
    obtain rfl := Option.some.inj hs'
    exact stopped_of_eq h hok rfl rfl rfl (Or.inl rfl)
  | completeProcessed r =>
    have hr : r ∈ s.s3.completeRequests := he
    rw [hnil] at hr
    cases hr
  | putProcessed body =>
    have hbody : body ∈ s.s3.putRequests := he
    exact absurd (h.ok.inv.held.small (List.ne_nil_of_mem hbody)) hsmall
  | abortProcessed id =>
    obtain rfl := Option.some.inj hs'
    exact stopped_of_eq h hok rfl rfl rfl (Or.inl rfl)

/-- An upload of several parts that is cancelled stores nothing and sends no further part, whatever
    comes then, exactly if its last part was neither acknowledged nor on its way. -/
theorem cancel_iff (m : Setting ε) {file : Bytes} (hlarge : m.partSize < file.length)
    {bucket key : String} (hbucket : bucket ≠ "") (hkey : key ≠ "")
    (run : Runs.Schedule (step m (some file)) Enabled (State.init bucket key)) {s : State ε}
    (hs : Runs.exec (step m (some file)) (State.init bucket key) run.events = some s)
    (hactive : Active s) :
    (∀ after : Runs.Schedule (step m (some file)) Enabled (UploadRequest.cancel s),
      Runs.Throughout (step m (some file))
        (fun t => t.s3.objects = [] ∧ t.s3.partRequests = s.s3.partRequests)
        (UploadRequest.cancel s) after.events) ↔ ¬ Late m file s := by
  have hok := ok_of_run hbucket hkey run hs
  have hcancel : UploadRequest.cancel s =
      { s with request := { s.request with state := .canceling } } := if_neg hactive.2
  have hready : Enabled s .cancel := trivial
  have hok' : Ok m file (UploadRequest.cancel s) := ok_of_step hok hready rfl
  have hnone := no_abort hok.alive hactive
  rw [hcancel] at hok' ⊢
  refine ⟨fun hall hlate => ?_, fun hlate after => ?_⟩
  · obtain ⟨t, ⟨es, hes, ht⟩, hne⟩ := late_stores hok' hnone hlate
    exact hne (Runs.throughout_last (hall ⟨es, hes⟩) ht).1
  · have hstopped : Stopped m file s.s3.partRequests
        { s with request := { s.request with state := .canceling } } := ⟨hok', rfl, rfl, hlate⟩
    exact (Runs.run_ok (fun t e ht he => stopped_step hlarge ht he)
      (fun t ht => ⟨objects_of_stopped ht hlarge, ht.sent⟩) hstopped after.enabled).2

/-- Cancelled after its first of three parts, an upload stores nothing. -/
theorem cancel_afterFirstPart : ¬ Late pairs [1, 2, 3, 4, 5] afterFirstPart ∧
    ∀ after : Runs.Schedule (step pairs (some [1, 2, 3, 4, 5])) Enabled
        (UploadRequest.cancel afterFirstPart),
      Runs.Throughout (step pairs (some [1, 2, 3, 4, 5]))
        (fun t => t.s3.objects = [] ∧ t.s3.partRequests = afterFirstPart.s3.partRequests)
        (UploadRequest.cancel afterFirstPart) after.events := by
  have hlate : ¬ Late pairs [1, 2, 3, 4, 5] afterFirstPart := by
    rintro (hne | ⟨c, hc, -⟩)
    · exact hne rfl
    · cases hc
  exact ⟨hlate, (cancel_iff pairs (by decide) (by decide) (by decide)
    firstPart (s := afterFirstPart) (by decide) ⟨by decide, by decide⟩).mpr hlate⟩

end TransferManager

end Shiftgram
