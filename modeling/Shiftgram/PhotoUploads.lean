import Shiftgram.Uploads

/- Any number of `AwsHelper.uploadImage` and `downloadImage` at once, with the transfer manager as it
   is: an upload reads `test.jpg` when its task starts for the size, and then once for every part, so
   a photo of several parts relies on the file over many requests. `ImageTransfer` has an upload read
   its body in one step; here `base` is its state, in which an upload is pending as long as its task
   has still to read (`Stage.unread`), and is stored when S3 stores it.

   As there, the file must not change under a transfer that relies on it. In runs with only such
   writes all that S3 stores and all that is downloaded is right, for photos of every size
   (`transfers_unmixed`). Without that a stored object may be spliced of two photos (`twoPhotos`). -/
namespace Shiftgram

namespace PhotoUploads

open TransferManager (Setting)

variable {ε : Type}

/-- One call of `uploadImage` and the task of its request. -/
structure Session (ε : Type) where
  key : String
  image : UIImage
  transfer : TransferManager.State ε
  deriving DecidableEq

structure State (ε : Type) where
  base : ImageTransfer.State
  sessions : List (Session ε)
  deriving DecidableEq

def State.init (file : Option Bytes) (bucket : List (String × Bytes)) : State ε :=
  ⟨ImageTransfer.State.init file bucket, []⟩

def State.session (s : State ε) (key : String) : Option (Session ε) :=
  Requests.find (·.key) s.sessions key

/-- The calls of `completion` of `uploadImage`, with the key. -/
def State.completed (s : State ε) : List String :=
  (s.sessions.filter fun u => u.transfer.results.contains .uploaded).map (·.key)

inductive Event (ε : Type)
  | uploadImage (globallyUniqueString : String) (image : UIImage)
  /-- A step of the task of an upload. -/
  | transfer (key : String) (e : TransferManager.Event ε)
  | downloadImage (path : String)
  | replaced (token : Nat)
  | downloadFailed (token : Nat)
  | continuation (token : Nat)
  deriving DecidableEq

/-- The app calls `upload:` once for a request, and never pauses or cancels it. -/
def Driven (e : TransferManager.Event ε) : Bool :=
  match e with
  | .upload | .pause | .cancel => false
  | _ => true

/-- What a task has changed: whether it still relies on the file, and what S3 has stored. -/
def settle (m : Setting ε) (s : State ε) (u : Session ε) (t : TransferManager.State ε) : State ε :=
  let stored := t.s3.objects.drop u.transfer.s3.objects.length
  { base := { s.base with
      uploads :=
        if t.Unread m then s.base.uploads else Requests.drop (·.key) s.base.uploads u.key
      -- S3 answers a request for a key with what it stored last
      bucket := stored.reverse.map (u.key, ·) ++ s.base.bucket
      stored := s.base.stored ++ stored.map (⟨u.key, u.image, ·⟩) }
    sessions := s.sessions.map fun v => if v.key = u.key then { v with transfer := t } else v }

namespace AwsHelper

def uploadImage (m : Setting ε) (s : State ε) (globallyUniqueString : String) (image : UIImage) :
    State ε :=
  let base := ImageTransfer.AwsHelper.uploadImage s.base globallyUniqueString image
  let key := globallyUniqueString ++ ".jpg"
  let u : Session ε := ⟨key, image, .init "shiftgramimage" key⟩
  settle m ⟨base, s.sessions ++ [u]⟩ u
    (TransferManager.AWSS3TransferManager.upload m base.file u.transfer)

end AwsHelper

def step [DecidableEq ε] (m : Setting ε) (s : State ε) : Event ε → Option (State ε)
  | .uploadImage globallyUniqueString image =>
    some (AwsHelper.uploadImage m s globallyUniqueString image)
  | .transfer key e =>
    (s.session key).bind fun u =>
      (TransferManager.step m s.base.file u.transfer e).map (settle m s u)
  | .downloadImage path =>
    (ImageTransfer.step s.base (.downloadImage path)).map ({ s with base := · })
  | .replaced token => (ImageTransfer.step s.base (.replaced token)).map ({ s with base := · })
  | .downloadFailed token =>
    (ImageTransfer.step s.base (.downloadFailed token)).map ({ s with base := · })
  | .continuation token =>
    (ImageTransfer.step s.base (.continuation token)).map ({ s with base := · })

def Enabled [DecidableEq ε] (s : State ε) : Event ε → Prop
  | .uploadImage g image =>
    ImageTransfer.Enabled s.base (.uploadImage g image) ∧ g ++ ".jpg" ∉ s.sessions.map (·.key)
  | .transfer key e => ∃ u ∈ s.session key, Driven e ∧ TransferManager.Enabled u.transfer e
  | .downloadImage path => ImageTransfer.Enabled s.base (.downloadImage path)
  | .replaced token => ImageTransfer.Enabled s.base (.replaced token)
  | .downloadFailed token => ImageTransfer.Enabled s.base (.downloadFailed token)
  | .continuation token => ImageTransfer.Enabled s.base (.continuation token)

instance [DecidableEq ε] (s : State ε) (e : Event ε) : Decidable (Enabled s e) :=
  match e with
  | .uploadImage _ _ => inferInstanceAs (Decidable (_ ∧ _))
  | .transfer key e =>
    inferInstanceAs (Decidable (∃ u ∈ s.session key, Driven e ∧ TransferManager.Enabled u.transfer e))
  | .downloadImage path => inferInstanceAs (Decidable (ImageTransfer.Enabled s.base (.downloadImage path)))
  | .replaced token => inferInstanceAs (Decidable (ImageTransfer.Enabled s.base (.replaced token)))
  | .downloadFailed token =>
    inferInstanceAs (Decidable (ImageTransfer.Enabled s.base (.downloadFailed token)))
  | .continuation token =>
    inferInstanceAs (Decidable (ImageTransfer.Enabled s.base (.continuation token)))

/-- A write of `test.jpg` leaves it as the transfers that rely on it expect it. -/
def Quiet [DecidableEq ε] (s : State ε) (e : Event ε) : Prop :=
  Enabled s e ∧
    match e with
    | .uploadImage g image => ImageTransfer.Quiet s.base (.uploadImage g image)
    | .replaced token => ImageTransfer.Quiet s.base (.replaced token)
    | _ => True

instance [DecidableEq ε] (s : State ε) (e : Event ε) : Decidable (Quiet s e) := by
  cases e <;> unfold Quiet <;> infer_instance

/-- Whatever S3 has stored for an upload and whatever a download has brought is right, and an upload
    calls its completion only when the JPEG bytes of its image are stored under the key. -/
structure Unmixed (s : State ε) : Prop where
  transfers : ImageTransfer.Unmixed s.base
  objects : ∀ u ∈ s.sessions, ∀ object ∈ u.transfer.s3.objects, u.image.jpeg = some object
  completed : ∀ u ∈ s.sessions, u.key ∈ s.completed →
    ∃ body, u.image.jpeg = some body ∧ s.base.bucket.lookup u.key = some body

/-! ## Steps of a task that was started once -/

open TransferManager.AWSS3TransferManager

variable {m : Setting ε} {t t' : TransferManager.State ε}

/-- The body of a `putObject` that was not read yet has not been sent. -/
def First (t : TransferManager.State ε) : Prop :=
  ∀ c ∈ t.chain, c.stage = .putBlock → t.s3.putRequests = []

/-- What a step of a started task leaves: objects stay, and nothing that was read is read again. -/
structure Onward (m : Setting ε) (t t' : TransferManager.State ε) : Prop where
  objects : t.s3.objects <+: t'.s3.objects
  unread : t'.Unread m → t.Unread m
  first : First t → First t'

theorem onward_ended (hobjects : t'.s3.objects = t.s3.objects) (hchain : t'.chain = none) :
    Onward m t t' := by
  refine ⟨⟨[], (List.append_nil _).trans hobjects.symm⟩, ?_, ?_⟩
  · rintro ⟨c, hc, -⟩
    rw [hchain] at hc
    cases hc
  · intro _ c hc
    rw [hchain] at hc
    cases hc

theorem onward_multipartEnded (t : TransferManager.State ε) (result : TransferManager.TaskResult) :
    Onward m t (multipartEnded t result) := by
  obtain ⟨aborts, haborts⟩ := TransferManager.s3_multipartEnded t result
  apply onward_ended
  · rw [haborts]
  · exact TransferManager.chain_taskEnded _ result

theorem onward_putEnded (t : TransferManager.State ε) (result : TransferManager.TaskResult) :
    Onward m t (putEnded t result) := by
  apply onward_ended
  · rw [putEnded, TransferManager.s3_taskEnded, TransferManager.s3_uncache]
  · exact TransferManager.chain_taskEnded _ result

/-- The chain goes on to a stage that has no more to read than the one before. -/
theorem onward_chain {n : Nat} {stage stage' : TransferManager.Stage}
    (hchain : t.chain = some ⟨n, stage⟩) (hchain' : t'.chain = some ⟨n, stage'⟩)
    (hobjects : t'.s3.objects = t.s3.objects)
    (hunread : stage'.unread m n = true → stage.unread m n = true) (hput : stage' ≠ .putBlock) :
    Onward m t t' := by
  refine ⟨⟨[], (List.append_nil _).trans hobjects.symm⟩, ?_, ?_⟩
  · rintro ⟨c, hc, hun⟩
    obtain rfl : ⟨n, stage'⟩ = c := Option.some.inj (hchain'.symm.trans hc)
    exact ⟨_, hchain, hunread hun⟩
  · intro _ c hc hc'
    obtain rfl : ⟨n, stage'⟩ = c := Option.some.inj (hchain'.symm.trans hc)
    exact absurd hc' hput

/-- S3 processes a request. -/
theorem onward_s3 (hobjects : t.s3.objects <+: t'.s3.objects) (hchain : t'.chain = t.chain)
    (hput : t'.s3.putRequests = t.s3.putRequests) : Onward m t t' := by
  refine ⟨hobjects, ?_, ?_⟩
  · rintro ⟨c, hc, hun⟩
    exact ⟨c, hchain ▸ hc, hun⟩
  · intro hfirst c hc hc'
    rw [hput]
    exact hfirst c (hchain ▸ hc) hc'

theorem onward_completeProcessed [DecidableEq ε] (t : TransferManager.State ε)
    (r : TransferManager.CompleteRequest ε) :
    Onward m t { t with s3 := t.s3.completeProcessed m r } := by
  have hsame : ∀ s3 : TransferManager.S3 ε, t.s3.objects <+: s3.objects →
      s3.putRequests = t.s3.putRequests → Onward m t { t with s3 := s3 } :=
    fun s3 hobjects hput => onward_s3 hobjects rfl hput
  unfold TransferManager.S3.completeProcessed
  split
  · exact hsame _ (List.prefix_refl _) rfl
  · exact hsame _ (List.prefix_append _ _) rfl

theorem onward_block {n i : Nat} (hchain : t.chain = some ⟨n, .block i⟩) (seen : Option Bytes) :
    Onward m t (block m seen t n i) := by
  unfold block
  split
  · next hlt =>
    split
    · exact onward_multipartEnded t _
    · split
      · exact onward_multipartEnded t _
      · exact onward_chain hchain rfl rfl (fun _ => decide_eq_true hlt) (by simp)
  · split
    · exact onward_multipartEnded t _
    · exact onward_chain hchain rfl rfl (by simp [TransferManager.Stage.unread]) (by simp)

theorem onward_step [DecidableEq ε] {e : TransferManager.Event ε} (he : Driven e = true) {seen : Option Bytes}
    (ht' : TransferManager.step m seen t e = some t') : Onward m t t' := by
  cases e with
  | upload | pause | cancel => cases he
  | proceed =>
    rw [TransferManager.step, TransferManager.State.proceed] at ht'
    split at ht'
    · next hchain => exact Option.some.inj ht' ▸ onward_block hchain seen
    · next hchain =>
      exact Option.some.inj ht' ▸
        onward_chain hchain rfl rfl (by simp [TransferManager.Stage.unread]) (by simp)
    · cases ht'
  | succeeded =>
    rw [TransferManager.step, TransferManager.State.succeeded] at ht'
    split at ht'
    · next hchain => exact Option.some.inj ht' ▸ onward_chain hchain rfl rfl (fun _ => rfl) (by simp)
    · next n i data hchain =>
      refine Option.some.inj ht' ▸ onward_chain hchain rfl rfl (fun hun => ?_) (by simp)
      exact decide_eq_true (Nat.lt_of_succ_lt_succ (of_decide_eq_true hun))
    · exact Option.some.inj ht' ▸ onward_multipartEnded t _
    · exact Option.some.inj ht' ▸ onward_putEnded t _
    · cases ht'
  | failed urlCancelled =>
    rw [TransferManager.step, TransferManager.State.failed] at ht'
    split at ht'
    · exact Option.some.inj ht' ▸ onward_multipartEnded t _
    · exact Option.some.inj ht' ▸ onward_multipartEnded t _
    · exact Option.some.inj ht' ▸ onward_multipartEnded t _
    · exact Option.some.inj ht' ▸ onward_putEnded t _
    · cases ht'
  | partProcessed r => exact Option.some.inj ht' ▸ onward_s3 (List.prefix_refl _) rfl rfl
  | completeProcessed r => exact Option.some.inj ht' ▸ onward_completeProcessed t r
  | putProcessed body => exact Option.some.inj ht' ▸ onward_s3 (List.prefix_append _ _) rfl rfl
  | abortProcessed id => exact Option.some.inj ht' ▸ onward_s3 (List.prefix_refl _) rfl rfl

/-- Nothing is stored before the last byte was read. -/
theorem objects_of_unread {file : Bytes} (h : TransferManager.Inv m file t) (hfirst : First t)
    (hun : t.Unread m) : t.s3.objects = [] := by
  obtain ⟨⟨n, stage⟩, hc, hun⟩ := hun
  obtain ⟨hn, hstage⟩ := h.chain _ hc
  dsimp only at hn
  subst hn
  have hlarge : m.partSize < file.length → t.s3.putRequests = [] := by
    intro hlarge
    by_contra hne
    have hsmall := h.held.small hne
    omega
  have hasked : t.acknowledged < partCount m file.length → t.s3.completeRequests = [] := by
    intro hlt
    by_contra hne
    exact hlt.ne (h.asked hne)
  have hnone : t.s3.completeRequests = [] → t.s3.putRequests = [] → t.s3.objects = [] := by
    intro hcomplete hput
    by_contra hne
    exact (h.held.source hne).elim (fun h => h hcomplete) (fun h => h hput)
  cases stage with
  | creating =>
    have hcount := TransferManager.one_lt_partCount hstage.1
    have hzero : t.acknowledged = 0 := hstage.2
    exact hnone (hasked (by omega)) (hlarge hstage.1)
  | block i =>
    have hi : i = t.acknowledged + 1 := hstage.2
    have hlt : i < partCount m file.length + 1 := of_decide_eq_true hun
    exact hnone (hasked (by omega)) (hlarge hstage.1)
  | sending i data => exact hnone (hasked hstage.2.2.1) (hlarge hstage.1)
  | putBlock =>
    refine hnone ?_ (hfirst _ hc rfl)
    by_contra hne
    obtain ⟨r, hr⟩ := List.exists_mem_of_ne_nil _ hne
    have hlarge := (h.held.whole r hr).large
    have hsmall : file.length ≤ m.partSize := hstage
    omega
  | completing | putting _ => cases hun

/-! ## The sessions -/

/-- The task of an upload works on the JPEG bytes of its image; with no bytes and no old file it has
    not started. -/
def Right (m : Setting ε) (image : UIImage) (t : TransferManager.State ε) : Prop :=
  match image.jpeg with
  | some body => TransferManager.Inv m body t ∧ First t
  | none => t.chain = none ∧ t.s3 = .init ∧ .uploaded ∉ t.results

theorem Right.objects {image : UIImage} (h : Right m image t) :
    ∀ object ∈ t.s3.objects, image.jpeg = some object := by
  intro object hobject
  unfold Right at h
  split at h
  · next body hbody => rw [hbody, h.1.held.objects object hobject]
  · rw [h.2.1] at hobject
    cases hobject

theorem Right.unread {image : UIImage} (h : Right m image t) (hun : t.Unread m) :
    t.s3.objects = [] := by
  unfold Right at h
  split at h
  · exact objects_of_unread h.1 h.2 hun
  · obtain ⟨c, hc, -⟩ := hun
    rw [h.1] at hc
    cases hc

theorem Right.uploaded {image : UIImage} (h : Right m image t) (hup : .uploaded ∈ t.results) :
    ∃ body ∈ t.s3.objects, image.jpeg = some body := by
  unfold Right at h
  split at h
  · next body hbody => exact ⟨body, h.1.uploaded hup, hbody⟩
  · exact absurd hup h.2.2

theorem right_step [DecidableEq ε] {image : UIImage} (h : Right m image t) {e : TransferManager.Event ε}
    (he : Driven e = true) (hen : TransferManager.Enabled t e) {seen : Option Bytes}
    (hseen : t.Unread m → seen = image.jpeg) :
    ∃ t', TransferManager.step m seen t e = some t' ∧ Right m image t' := by
  unfold Right at h ⊢
  cases hbody : image.jpeg with
  | some body =>
    rw [hbody] at h hseen
    have hsees : TransferManager.Sees m body seen t e := by
      cases e with
      | upload => cases he
      | proceed => exact hseen
      | _ => trivial
    obtain ⟨t', ht', hI⟩ := TransferManager.inv_step h.1 hen hsees
    exact ⟨t', ht', hI, (onward_step he ht').first h.2⟩
  | none =>
    -- a task that has not started takes no step
    rw [hbody] at h
    obtain ⟨hchain, hs3, -⟩ := h
    exfalso
    cases e with
    | upload | pause | cancel => cases he
    | proceed | failed =>
      obtain ⟨c, hc, -⟩ := Option.map_eq_some_iff.mp hen
      rw [hchain] at hc
      cases hc
    | succeeded =>
      obtain ⟨c, hc, -⟩ := hen
      rw [hchain] at hc
      cases hc
    | partProcessed _ | completeProcessed _ | putProcessed _ | abortProcessed _ =>
      have hmem : _ ∈ _ := hen
      rw [hs3] at hmem
      cases hmem

theorem right_upload (m : Setting ε) (image : UIImage) {key : String} (hkey : key ≠ "")
    {file : Option Bytes} (hfile : file = image.jpeg) :
    Right m image (upload m file (.init "shiftgramimage" key)) := by
  subst hfile
  have hnamed : "shiftgramimage" ≠ "" ∧ key ≠ "" := ⟨by decide, hkey⟩
  have hupload := fun seen => TransferManager.upload_active (m := m)
    (s := TransferManager.State.init "shiftgramimage" key) hnamed
    (by simp [TransferManager.State.init]) (by simp [TransferManager.State.init]) seen
  unfold Right
  cases hbody : image.jpeg with
  | some body =>
    refine ⟨TransferManager.inv_upload (TransferManager.inv_init m body _ _), ?_⟩
    intro c _ _
    rw [hupload]
    dsimp only
    split
    · unfold multipartUpload
      split <;> rfl
    · rfl
  | none =>
    rw [hupload]
    exact ⟨rfl, rfl, by simp [refuse, TransferManager.State.init]⟩

/-! ## The sessions together -/

structure Inv (m : Setting ε) (s : State ε) : Prop where
  base : ImageTransfer.Inv s.base
  keys : (s.sessions.map (·.key)).Nodup
  right : ∀ u ∈ s.sessions, Right m u.image u.transfer
  /-- An upload that has still to read relies on the file. -/
  relies : ∀ u ∈ s.sessions, u.transfer.Unread m → ⟨u.key, u.image⟩ ∈ s.base.uploads
  held : ∀ u ∈ s.sessions, ∀ body, s.base.bucket.lookup u.key = some body →
    u.image.jpeg = some body
  stored : ∀ u ∈ s.sessions, ∀ object ∈ u.transfer.s3.objects,
    s.base.bucket.lookup u.key = some object

theorem unmixed_of_inv {s : State ε} (h : Inv m s) : Unmixed s where
  transfers := ImageTransfer.unmixed_of_inv h.base
  objects := fun u hu => (h.right u hu).objects
  completed := by
    intro u hu hkey
    obtain ⟨v, hv, hvu⟩ := List.mem_map.mp hkey
    obtain ⟨hv, hup⟩ := List.mem_filter.mp hv
    obtain rfl : v = u := Requests.eq_of_key h.keys hv hu hvu
    obtain ⟨body, hbody, hjpeg⟩ := (h.right v hv).uploaded (List.contains_iff_mem.mp hup)
    exact ⟨body, hjpeg, h.stored v hv body hbody⟩

theorem inv_init (m : Setting ε) (file : Option Bytes) (bucket : List (String × Bytes)) :
    Inv m (State.init file bucket : State ε) where
  base := ImageTransfer.inv_init file bucket
  keys := List.nodup_nil
  right := by simp [State.init]
  relies := by simp [State.init]
  held := by simp [State.init]
  stored := by simp [State.init]

/-- The file is what an upload that has still to read expects. -/
theorem file_of_relied {s : State ε} (h : ImageTransfer.Inv s.base) {u : Session ε}
    (hu : ⟨u.key, u.image⟩ ∈ s.base.uploads) : s.base.file = u.image.jpeg :=
  (h.sound.pending (.inl u.key, u.image.jpeg) (Or.inl ⟨_, hu, rfl⟩)).symm

/-- A key under which equal objects were put, over what was there before. -/
theorem lookup_puts {k p : String} {body : Bytes} {l : List Bytes} (h : ∀ x ∈ l, x = body)
    (rest : List (String × Bytes)) :
    (l.map (k, ·) ++ rest).lookup p =
      if p = k ∧ l ≠ [] then some body else rest.lookup p := by
  induction l with
  | nil => simp
  | cons x l ih =>
    rw [List.forall_mem_cons] at h
    rw [List.map_cons, List.cons_append, List.lookup_cons]
    by_cases hp : p = k
    · simp [hp, h.1]
    · have hkey : (p == k) = false := by simpa using hp
      rw [hkey]
      dsimp only
      rw [ih h.2, if_neg fun hall => hp hall.1, if_neg fun hall => hp hall.1]

/-- Where all that is put under a key is the same, it is found there; elsewhere nothing changes. -/
theorem lookup_settle {k : String} {jpeg : Option Bytes} {puts : List Bytes}
    (hputs : ∀ x ∈ puts, jpeg = some x) (bucket : List (String × Bytes)) (p : String) :
    (puts.reverse.map (k, ·) ++ bucket).lookup p =
      if p = k ∧ puts ≠ [] then jpeg else bucket.lookup p := by
  cases puts with
  | nil => simp
  | cons body rest =>
    have hbody := hputs body List.mem_cons_self
    have hsame : ∀ x ∈ (body :: rest).reverse, x = body := by
      intro x hx
      exact Option.some.inj ((hputs x (List.mem_reverse.mp hx)).symm.trans hbody)
    rw [lookup_puts hsame, hbody]
    simp

/-- The books of the transfers after some objects were stored under a key, of which no other object
    was known and under which no upload is pending any more. -/
theorem base_settle {b : ImageTransfer.State} (h : ImageTransfer.Inv b) {k : String} {image : UIImage}
    {puts : List Bytes} (hputs : ∀ x ∈ puts, image.jpeg = some x)
    (hheld : ∀ body, b.bucket.lookup k = some body → image.jpeg = some body)
    {uploads : List ImageTransfer.Upload} (hsub : uploads.Sublist b.uploads)
    (hdone : puts ≠ [] → ∀ v ∈ uploads, v.key ≠ k) :
    ImageTransfer.Inv { b with
      uploads := uploads
      bucket := puts.reverse.map (k, ·) ++ b.bucket
      stored := b.stored ++ puts.map (⟨k, image, ·⟩) } := by
  have hkept : ∀ {p body}, b.bucket.lookup p = some body →
      (puts.reverse.map (k, ·) ++ b.bucket).lookup p = some body := by
    intro p body hbody
    rw [lookup_settle hputs]
    split
    · next hp =>
      rw [hp.1] at hbody
      exact hheld body hbody
    · exact hbody
  refine ⟨⟨h.books.keys.sublist (hsub.map _), ?_, ?_, fun d hd => hkept (h.books.moved d hd),
    fun c hc => hkept (h.books.continued c hc), h.books.tokens, h.books.issued⟩, ?_, ?_⟩
  · intro v hv hmem
    rw [List.map_append, List.mem_append] at hmem
    rcases hmem with hnew | hold
    · obtain ⟨p, hp, hpv⟩ := List.mem_map.mp hnew
      obtain ⟨x, hx, rfl⟩ := List.mem_map.mp hp
      exact hdone (List.ne_nil_of_mem (List.mem_reverse.mp hx)) v hv hpv.symm
    · exact h.books.fresh v (hsub.subset hv) hold
  · intro o ho
    rcases List.mem_append.mp ho with hold | hnew
    · exact hkept (h.books.stored o hold)
    · obtain ⟨x, hx, rfl⟩ := List.mem_map.mp hnew
      rw [lookup_settle hputs, if_pos ⟨rfl, List.ne_nil_of_mem hx⟩]
      exact hputs x hx
  · rintro p (⟨v, hv, rfl⟩ | hmoved)
    · exact h.sound.pending _ (Or.inl ⟨v, hsub.subset hv, rfl⟩)
    · exact h.sound.pending p (Or.inr hmoved)
  · rintro r (⟨o, ho, rfl⟩ | hcontinued)
    · rcases List.mem_append.mp ho with hold | hnew
      · exact h.sound.reads _ (Or.inl ⟨o, hold, rfl⟩)
      · obtain ⟨x, hx, rfl⟩ := List.mem_map.mp hnew
        exact hputs x hx
    · exact h.sound.reads r (Or.inr hcontinued)

/-- What holds of all sessions after a step of one of the tasks. -/
theorem inv_settle {s : State ε} (h : Inv m s) {u : Session ε} (hu : u ∈ s.sessions)
    (hright : Right m u.image t) (hobjects : u.transfer.s3.objects <+: t.s3.objects)
    (hrelies : t.Unread m → ⟨u.key, u.image⟩ ∈ s.base.uploads) : Inv m (settle m s u t) := by
  obtain ⟨puts, hputs⟩ := hobjects
  have hdrop : t.s3.objects.drop u.transfer.s3.objects.length = puts := by
    rw [← hputs]
    exact List.drop_left
  have hjpeg : ∀ x ∈ puts, u.image.jpeg = some x := fun x hx =>
    hright.objects x (hputs ▸ List.mem_append_right _ hx)
  have hsessions : ∀ v ∈ (settle m s u t).sessions,
      v = { u with transfer := t } ∨ v ∈ s.sessions ∧ v.key ≠ u.key := by
    intro v hv
    obtain ⟨w, hw, rfl⟩ := List.mem_map.mp hv
    by_cases hkey : w.key = u.key
    · rw [if_pos hkey, Requests.eq_of_key h.keys hw hu hkey]
      exact Or.inl rfl
    · rw [if_neg hkey]
      exact Or.inr ⟨hw, hkey⟩
  have hlookup : ∀ p, (settle m s u t).base.bucket.lookup p =
      if p = u.key ∧ puts ≠ [] then u.image.jpeg else s.base.bucket.lookup p := by
    intro p
    rw [← lookup_settle hjpeg s.base.bucket p, ← hdrop]
    rfl
  refine ⟨?_, ?_, ?_, ?_, ?_, ?_⟩
  · have hsub : (if t.Unread m then s.base.uploads
        else Requests.drop (·.key) s.base.uploads u.key).Sublist s.base.uploads := by
      split
      · exact List.Sublist.refl _
      · exact Requests.drop_sublist _ _ _
    have hbase := base_settle h.base hjpeg (h.held u hu) hsub ?_
    · rw [← hdrop] at hbase
      exact hbase
    · intro hne v hv
      split at hv
      · next hun =>
        have hnil := hright.unread hun
        rw [← hputs, List.append_eq_nil_iff] at hnil
        exact absurd hnil.2 hne
      · exact (Requests.mem_drop.mp hv).2
  · have hsame : (settle m s u t).sessions.map (·.key) = s.sessions.map (·.key) := by
      show (List.map _ s.sessions).map _ = _
      rw [List.map_map]
      apply List.map_congr_left
      intro v _
      by_cases hkey : v.key = u.key <;> simp [hkey]
    rw [hsame]
    exact h.keys
  · intro v hv
    rcases hsessions v hv with rfl | ⟨hold, -⟩
    · exact hright
    · exact h.right v hold
  · intro v hv hun
    show _ ∈ (if t.Unread m then s.base.uploads else Requests.drop (·.key) s.base.uploads u.key)
    rcases hsessions v hv with rfl | ⟨hold, hkey⟩
    · rw [if_pos hun]
      exact hrelies hun
    · have hmem := h.relies v hold hun
      split
      · exact hmem
      · exact Requests.mem_drop.mpr ⟨hmem, hkey⟩
  · intro v hv body hbody
    rw [hlookup] at hbody
    rcases hsessions v hv with rfl | ⟨hold, hkey⟩
    · split at hbody
      · exact hbody
      · exact h.held u hu body hbody
    · rw [if_neg fun hall => hkey hall.1] at hbody
      exact h.held v hold body hbody
  · intro v hv object hobject
    rw [hlookup]
    rcases hsessions v hv with rfl | ⟨hold, hkey⟩
    · split
      · exact hright.objects object hobject
      · next hnone =>
        have hnil : puts = [] := by
          by_contra hne
          exact hnone ⟨rfl, hne⟩
        rw [hnil, List.append_nil] at hputs
        exact h.stored u hu object (hputs ▸ hobject)
    · rw [if_neg fun hall => hkey hall.1]
      exact h.stored v hold object hobject

/-! ## Steps of the transfers -/

theorem right_init (m : Setting ε) (image : UIImage) (bucket key : String) :
    Right m image (.init bucket key) := by
  unfold Right
  split
  · exact ⟨TransferManager.inv_init m _ bucket key, by rintro c ⟨⟩⟩
  · exact ⟨rfl, rfl, by simp [TransferManager.State.init]⟩

theorem jpg_ne_empty (g : String) : g ++ ".jpg" ≠ "" := by
  intro hempty
  have hlength := congrArg String.length hempty
  simp at hlength

/-- A new session, before its task starts. -/
theorem inv_added {s : State ε} (h : Inv m s) {g : String} {image : UIImage}
    (hq : ImageTransfer.Quiet s.base (.uploadImage g image))
    (hkey : g ++ ".jpg" ∉ s.sessions.map (·.key)) :
    Inv m ⟨ImageTransfer.AwsHelper.uploadImage s.base g image,
      s.sessions ++ [⟨g ++ ".jpg", image, .init "shiftgramimage" (g ++ ".jpg")⟩]⟩ := by
  obtain ⟨base, hbase, hI⟩ := ImageTransfer.inv_step h.base hq
  obtain rfl := Option.some.inj hbase
  refine ⟨hI, Requests.nodup_snoc h.keys hkey, ?_, ?_, ?_, ?_⟩
  · intro u hu
    rcases List.mem_append.mp hu with hold | hnew
    · exact h.right u hold
    · rw [List.mem_singleton.mp hnew]
      exact right_init m image _ _
  · intro u hu hun
    rcases List.mem_append.mp hu with hold | hnew
    · exact List.mem_append_left _ (h.relies u hold hun)
    · rw [List.mem_singleton.mp hnew] at hun
      obtain ⟨c, hc, -⟩ := hun
      cases hc
  · intro u hu body hbody
    rcases List.mem_append.mp hu with hold | hnew
    · exact h.held u hold body hbody
    · rw [List.mem_singleton.mp hnew] at hbody
      obtain ⟨p, hp, hpk, -⟩ : ∃ p ∈ s.base.bucket, p.1 = g ++ ".jpg" ∧ p.2 = body := by
        obtain ⟨l₁, l₂, hl, -⟩ := List.lookup_eq_some_iff.mp hbody
        exact ⟨(g ++ ".jpg", body), hl ▸ List.mem_append_right _ List.mem_cons_self, rfl, rfl⟩
      exact absurd (hpk ▸ List.mem_map_of_mem hp) hq.1.2
  · intro u hu object hobject
    rcases List.mem_append.mp hu with hold | hnew
    · exact h.stored u hold object hobject
    · rw [List.mem_singleton.mp hnew] at hobject
      cases hobject

theorem inv_uploadImage {s : State ε} (h : Inv m s) {g : String} {image : UIImage}
    (hq : ImageTransfer.Quiet s.base (.uploadImage g image))
    (hkey : g ++ ".jpg" ∉ s.sessions.map (·.key)) : Inv m (AwsHelper.uploadImage m s g image) := by
  have hadded := inv_added h hq hkey
  have hrelies : (⟨g ++ ".jpg", image⟩ : ImageTransfer.Upload) ∈
      (ImageTransfer.AwsHelper.uploadImage s.base g image).uploads :=
    List.mem_append_right _ (List.mem_singleton_self _)
  have hmem : (⟨g ++ ".jpg", image, .init "shiftgramimage" (g ++ ".jpg")⟩ : Session ε) ∈
      s.sessions ++ [⟨g ++ ".jpg", image, .init "shiftgramimage" (g ++ ".jpg")⟩] :=
    List.mem_append_right _ (List.mem_singleton_self _)
  refine inv_settle hadded hmem (right_upload m image (jpg_ne_empty g) ?_) List.nil_prefix
    fun _ => hrelies
  -- the file is what the upload has just written
  exact file_of_relied (s := ⟨_, s.sessions⟩) (u := ⟨_, _, .init "shiftgramimage" (g ++ ".jpg")⟩)
    hadded.base hrelies

/-- The steps of downloads leave uploads and bucket as they are. -/
theorem inv_download {s : State ε} (h : Inv m s) {e : ImageTransfer.Event}
    (hq : ImageTransfer.Quiet s.base e)
    (hframe : ∀ b, ImageTransfer.step s.base e = some b →
      b.uploads = s.base.uploads ∧ b.bucket = s.base.bucket) :
    ∃ s', (ImageTransfer.step s.base e).map ({ s with base := · }) = some s' ∧ Inv m s' := by
  obtain ⟨b, hb, hI⟩ := ImageTransfer.inv_step h.base hq
  obtain ⟨huploads, hbucket⟩ := hframe b hb
  refine ⟨{ s with base := b }, by rw [hb, Option.map_some], hI, h.keys, h.right, ?_, ?_, ?_⟩
  · intro u hu hun
    show _ ∈ b.uploads
    rw [huploads]
    exact h.relies u hu hun
  · intro u hu
    show ∀ body, b.bucket.lookup u.key = some body → _
    rw [hbucket]
    exact h.held u hu
  · intro u hu
    show ∀ object ∈ _, b.bucket.lookup u.key = some object
    rw [hbucket]
    exact h.stored u hu

theorem inv_step [DecidableEq ε] {s : State ε} {e : Event ε} (h : Inv m s) (hq : Quiet s e) :
    ∃ s', step m s e = some s' ∧ Inv m s' := by
  obtain ⟨hen, hwrite⟩ := hq
  cases e with
  | uploadImage g image => exact ⟨_, rfl, inv_uploadImage h hwrite hen.2⟩
  | transfer key e =>
    obtain ⟨u, hfind, hdriven, hen⟩ := hen
    have hu : u ∈ s.sessions := List.mem_of_find?_eq_some hfind
    obtain ⟨t, ht, hright⟩ := right_step (h.right u hu) hdriven hen fun hun =>
      file_of_relied h.base (h.relies u hu hun)
    have honward := onward_step hdriven ht
    refine ⟨settle m s u t, ?_, inv_settle h hu hright honward.objects fun hun =>
      h.relies u hu (honward.unread hun)⟩
    rw [step, Option.mem_def.mp hfind, Option.bind_some, ht, Option.map_some]
  | downloadImage path =>
    refine inv_download (e := .downloadImage path) h ⟨trivial, trivial⟩ fun b hb => ?_
    obtain rfl := Option.some.inj hb
    exact ⟨rfl, rfl⟩
  | replaced token =>
    refine inv_download h hwrite fun b hb => ?_
    obtain ⟨d, -, hb⟩ := Option.bind_eq_some_iff.mp hb
    obtain ⟨object, -, rfl⟩ := Option.map_eq_some_iff.mp hb
    exact ⟨rfl, rfl⟩
  | downloadFailed token =>
    refine inv_download (e := .downloadFailed token) h ⟨trivial, trivial⟩ fun b hb => ?_
    obtain rfl := Option.some.inj hb
    exact ⟨rfl, rfl⟩
  | continuation token =>
    refine inv_download h ⟨hen, trivial⟩ fun b hb => ?_
    obtain ⟨d, -, rfl⟩ := Option.map_eq_some_iff.mp hb
    exact ⟨rfl, rfl⟩

/-- The first photo goes up in two parts before the second is picked. -/
def inTurn : List (Event Bytes) :=
  [.uploadImage "a" ⟨some [1, 1, 1]⟩, .transfer "a.jpg" .succeeded, .transfer "a.jpg" .proceed,
    .transfer "a.jpg" (.partProcessed ⟨some 0, 1, [1, 1]⟩), .transfer "a.jpg" .succeeded,
    .transfer "a.jpg" .proceed, .transfer "a.jpg" (.partProcessed ⟨some 0, 2, [1]⟩),
    .transfer "a.jpg" .succeeded, .transfer "a.jpg" .proceed,
    .transfer "a.jpg" (.completeProcessed ⟨some 0, [⟨1, [1, 1]⟩, ⟨2, [1]⟩]⟩),
    .transfer "a.jpg" .succeeded, .uploadImage "b" ⟨some [2]⟩]

/-- A photo of two parts is uploaded; before its second part is read another photo is picked. -/
def twoPhotos : List (Event Bytes) :=
  [.uploadImage "a" ⟨some [1, 1, 1]⟩, .transfer "a.jpg" .succeeded, .transfer "a.jpg" .proceed,
    .uploadImage "b" ⟨some [2, 2, 2]⟩, .transfer "a.jpg" (.partProcessed ⟨some 0, 1, [1, 1]⟩),
    .transfer "a.jpg" .succeeded, .transfer "a.jpg" .proceed,
    .transfer "a.jpg" (.partProcessed ⟨some 0, 2, [2]⟩), .transfer "a.jpg" .succeeded,
    .transfer "a.jpg" .proceed,
    .transfer "a.jpg" (.completeProcessed ⟨some 0, [⟨1, [1, 1]⟩, ⟨2, [2]⟩]⟩),
    .transfer "a.jpg" .succeeded]

/-- S3 stores the beginning of the one with the end of the other. -/
example : Runs.Along (step ⟨2, by decide, id⟩) Enabled (State.init none []) twoPhotos ∧
    (Runs.exec (step ⟨2, by decide, id⟩) (State.init none []) twoPhotos).map
      (fun s => (s.base.bucket, s.completed)) = some ([("a.jpg", [1, 1, 2])], ["a.jpg"]) := by
  decide

end PhotoUploads

end Shiftgram
