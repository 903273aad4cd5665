import Shiftgram.Runs
import Shiftgram.SharedCell
import Shiftgram.Requests

/- `AwsHelper.uploadImage` and `AwsHelper.downloadImage`. Both use one file of the temporary
   directory, `test.jpg`: an upload writes it and the transfer manager reads the request's body from
   it some time later; a download has it replaced by the fetched object and reads it back in the
   continuation. Any number of transfers run at once.

   Assumed of the transfer manager: it reads the body of an upload once, at some time after `upload`,
   and fails if there is no file; a download that succeeds has the file replaced before its
   continuation runs. Assumed of S3: a key keeps its object. A write of `test.jpg` that throws starts
   no transfer, so it is no event here.

   A transfer relies on `test.jpg` between its own write and its own read. The bytes are right in
   every run in which the file is only written while the transfers that rely on it rely on the same
   bytes (`quiet_unmixed`); any other write can be followed by a wrong transfer (`unquiet_mixes`). -/
namespace Shiftgram

abbrev Bytes := List UInt8

structure UIImage where
  /-- `UIImageJPEGRepresentation(image, 1)`, `nil` for an image it cannot encode. -/
  jpeg : Option Bytes
  deriving DecidableEq

namespace ImageTransfer

/-- An upload whose body has not been read yet. -/
structure Upload where
  key : String
  image : UIImage
  deriving DecidableEq

/-- A download whose object has not arrived yet. -/
structure Download where
  token : Nat
  path : String
  deriving DecidableEq

/-- A download whose object has replaced `test.jpg` and whose continuation has not run yet. -/
structure Moved where
  token : Nat
  path : String
  object : Bytes
  deriving DecidableEq

/-- What an upload left in the bucket. -/
structure Stored where
  key : String
  image : UIImage
  body : Bytes
  deriving DecidableEq

/-- A continuation that ran without an error, `data` the result of `NSData(contentsOf:)`. -/
structure Continued where
  token : Nat
  path : String
  object : Bytes
  data : Option Bytes
  deriving DecidableEq

structure State where
  /-- `test.jpg` -/
  file : Option Bytes
  bucket : List (String × Bytes)
  /-- Calls of `downloadImage` so far; a download is known by its number. -/
  calls : Nat
  uploads : List Upload
  downloads : List Download
  moved : List Moved
  stored : List Stored
  continued : List Continued
  deriving DecidableEq

/-- The calls `completion(data)` of `downloadImage`, with the number of the download. -/
def State.completions (s : State) : List (Nat × Bytes) :=
  s.continued.filterMap fun c => c.data.map (c.token, ·)

def State.init (file : Option Bytes) (bucket : List (String × Bytes)) : State :=
  ⟨file, bucket, 0, [], [], [], [], []⟩

inductive Event
  | uploadImage (globallyUniqueString : String) (image : UIImage)
  /-- The transfer manager reads the body and stores it. -/
  | bodyRead (key : String)
  | uploadFailed (key : String)
  | downloadImage (path : String)
  /-- The transfer manager puts the fetched object in the place of `test.jpg`. -/
  | replaced (token : Nat)
  | downloadFailed (token : Nat)
  /-- The continuation of a download that succeeded. -/
  | continuation (token : Nat)
  deriving DecidableEq

namespace AwsHelper

def uploadImage (s : State) (globallyUniqueString : String) (image : UIImage) : State :=
  { s with
    -- `try jpgImage?.write(to: fileUrl)` writes nothing for `nil`
    file := image.jpeg.or s.file
    uploads := s.uploads ++ [⟨globallyUniqueString ++ ".jpg", image⟩] }

def downloadImage (s : State) (path : String) : State :=
  { s with
    calls := s.calls + 1
    downloads := s.downloads ++ [⟨s.calls, path⟩] }

def continuation (s : State) (d : Moved) : State :=
  { s with
    moved := Requests.drop (·.token) s.moved d.token
    continued := s.continued ++ [⟨d.token, d.path, d.object, s.file⟩] }

end AwsHelper

namespace AWSS3TransferManager

def dropUpload (s : State) (key : String) : State :=
  { s with uploads := Requests.drop (·.key) s.uploads key }

def bodyRead (s : State) (u : Upload) : State :=
  match s.file with
  | none => dropUpload s u.key
  | some body =>
    { dropUpload s u.key with
      bucket := s.bucket ++ [(u.key, body)]
      stored := s.stored ++ [⟨u.key, u.image, body⟩] }

def dropDownload (s : State) (token : Nat) : State :=
  { s with downloads := Requests.drop (·.token) s.downloads token }

def replaced (s : State) (d : Download) (object : Bytes) : State :=
  { dropDownload s d.token with
    file := some object
    moved := s.moved ++ [⟨d.token, d.path, object⟩] }

end AWSS3TransferManager

def State.upload (s : State) (key : String) : Option Upload :=
  Requests.find (·.key) s.uploads key

def State.download (s : State) (token : Nat) : Option Download :=
  Requests.find (·.token) s.downloads token

/-- The object a running download will bring. -/
def State.object (s : State) (token : Nat) : Option Bytes :=
  (s.download token).bind fun d => s.bucket.lookup d.path

def step (s : State) : Event → Option State
  | .uploadImage globallyUniqueString image =>
    some (AwsHelper.uploadImage s globallyUniqueString image)
  | .bodyRead key => (s.upload key).map (AWSS3TransferManager.bodyRead s)
  | .uploadFailed key => some (AWSS3TransferManager.dropUpload s key)
  | .downloadImage path => some (AwsHelper.downloadImage s path)
  | .replaced token =>
    (s.download token).bind fun d =>
      (s.bucket.lookup d.path).map (AWSS3TransferManager.replaced s d)
  | .downloadFailed token => some (AWSS3TransferManager.dropDownload s token)
  | .continuation token =>
    (Requests.find (·.token) s.moved token).map (AwsHelper.continuation s)

/-- New keys are fresh; the transfer manager and the continuation work on requests that are there,
    and what a download brings is in the bucket. -/
def Enabled (s : State) : Event → Prop
  | .uploadImage globallyUniqueString _ =>
    globallyUniqueString ++ ".jpg" ∉ s.uploads.map (·.key) ∧
      globallyUniqueString ++ ".jpg" ∉ s.bucket.map (·.1)
  | .bodyRead key => key ∈ s.uploads.map (·.key)
  | .uploadFailed _ | .downloadImage _ | .downloadFailed _ => True
  | .replaced token => s.object token ≠ none
  | .continuation token => token ∈ s.moved.map (·.token)

instance (s : State) (e : Event) : Decidable (Enabled s e) :=
  match e with
  | .uploadImage _ _ => inferInstanceAs (Decidable (_ ∧ _))
  | .bodyRead key => inferInstanceAs (Decidable (key ∈ s.uploads.map (·.key)))
  | .uploadFailed _ | .downloadImage _ | .downloadFailed _ => isTrue trivial
  | .replaced token => inferInstanceAs (Decidable (s.object token ≠ none))
  | .continuation token => inferInstanceAs (Decidable (token ∈ s.moved.map (·.token)))

/-- What the transfers between their write and their read of `test.jpg` expect to find there. -/
def State.relied (s : State) : List (Option Bytes) :=
  s.uploads.map (·.image.jpeg) ++ s.moved.map (some ·.object)

/-- The event can happen, and if it writes `test.jpg`, then with the bytes that the transfers in
    between expect there. An image without JPEG representation is only uploaded while there is
    no file. -/
def Quiet (s : State) (e : Event) : Prop :=
  Enabled s e ∧
    match e with
    | .uploadImage _ image =>
      (image.jpeg ≠ none ∨ s.file = none) ∧ ∀ v ∈ s.relied, v = image.jpeg
    | .replaced token => ∀ v ∈ s.relied, v = s.object token
    | _ => True

instance (s : State) (e : Event) : Decidable (Quiet s e) := by
  cases e <;> unfold Quiet <;> infer_instance

/-- Objects stored by uploads are the JPEG bytes of their images, and a download whose transfer
    succeeded has completed once, with the bytes stored under its path. -/
structure Unmixed (s : State) : Prop where
  stored : ∀ o ∈ s.stored, s.bucket.lookup o.key = o.image.jpeg
  completed : ∀ c ∈ s.continued, ∃ bytes, s.bucket.lookup c.path = some bytes ∧
    s.completions.filter (·.1 = c.token) = [(c.token, bytes)]

/-! ## `test.jpg` as a shared cell -/

/-- An upload is the reader `inl key`, a download the reader `inr token`. -/
def view (s : State) : SharedCell.Cell (String ⊕ Nat) (Option Bytes) where
  value := s.file
  pending := {p | (∃ u ∈ s.uploads, p = (.inl u.key, u.image.jpeg)) ∨
    ∃ d ∈ s.moved, p = (.inr d.token, some d.object)}
  reads := {r | (∃ o ∈ s.stored, r = (.inl o.key, o.image.jpeg, some o.body)) ∨
    ∃ c ∈ s.continued, r = (.inr c.token, some c.object, c.data)}

theorem relied_iff {s : State} {v : Option Bytes} :
    (∀ p ∈ (view s).pending, p.2 = v) ↔ ∀ w ∈ s.relied, w = v := by
  simp only [view, State.relied, List.mem_append, List.mem_map, Set.mem_ofPred_eq]
  refine ⟨?_, ?_⟩
  · rintro h w (⟨u, hu, rfl⟩ | ⟨d, hd, rfl⟩)
    · exact h _ (Or.inl ⟨u, hu, rfl⟩)
    · exact h _ (Or.inr ⟨d, hd, rfl⟩)
  · rintro h p (⟨u, hu, rfl⟩ | ⟨d, hd, rfl⟩)
    · exact h _ (Or.inl ⟨u, hu, rfl⟩)
    · exact h _ (Or.inr ⟨d, hd, rfl⟩)

theorem view_uploadImage (s : State) (g : String) (image : UIImage) :
    view (AwsHelper.uploadImage s g image) =
      (view s).run [.write (image.jpeg.or s.file), .rely (.inl (g ++ ".jpg")) image.jpeg] := by
  simp only [SharedCell.run_cons, SharedCell.run_nil, SharedCell.Cell.step, view,
    AwsHelper.uploadImage, SharedCell.Cell.mk.injEq, true_and, and_true]
  ext p
  simp only [Set.mem_ofPred_eq, Set.mem_insert_iff, List.mem_append, List.mem_singleton]
  grind

theorem view_dropUpload (s : State) (key : String) :
    view (AWSS3TransferManager.dropUpload s key) = (view s).run [.drop (.inl key)] := by
  simp only [SharedCell.run_cons, SharedCell.run_nil, SharedCell.Cell.step, view,
    AWSS3TransferManager.dropUpload, SharedCell.Cell.mk.injEq, true_and, and_true]
  ext p
  simp only [Set.mem_ofPred_eq, Requests.mem_drop]
  grind

theorem view_bodyRead {s : State} {u : Upload} {body : Bytes} (hfile : s.file = some body) :
    view (AWSS3TransferManager.bodyRead s u) =
      (view s).run [.read (.inl u.key) u.image.jpeg] := by
  simp only [SharedCell.run_cons, SharedCell.run_nil, SharedCell.Cell.step, view,
    AWSS3TransferManager.bodyRead, AWSS3TransferManager.dropUpload, hfile,
    SharedCell.Cell.mk.injEq, true_and]
  refine ⟨?_, ?_⟩
  · ext p
    simp only [Set.mem_ofPred_eq, Requests.mem_drop]
    grind
  · ext r
    simp only [Set.mem_ofPred_eq, Set.mem_insert_iff, List.mem_append, List.mem_singleton]
    grind

theorem view_replaced (s : State) (d : Download) (object : Bytes) :
    view (AWSS3TransferManager.replaced s d object) =
      (view s).run [.write (some object), .rely (.inr d.token) (some object)] := by
  simp only [SharedCell.run_cons, SharedCell.run_nil, SharedCell.Cell.step, view,
    AWSS3TransferManager.replaced, AWSS3TransferManager.dropDownload, SharedCell.Cell.mk.injEq,
    true_and, and_true]
  ext p
  simp only [Set.mem_ofPred_eq, Set.mem_insert_iff, List.mem_append, List.mem_singleton]
  grind

theorem view_continuation (s : State) (d : Moved) :
    view (AwsHelper.continuation s d) =
      (view s).run [.read (.inr d.token) (some d.object)] := by
  simp only [SharedCell.run_cons, SharedCell.run_nil, SharedCell.Cell.step, view,
    AwsHelper.continuation, SharedCell.Cell.mk.injEq, true_and]
  refine ⟨?_, ?_⟩
  · ext p
    simp only [Set.mem_ofPred_eq, Requests.mem_drop]
    grind
  · ext r
    simp only [Set.mem_ofPred_eq, Set.mem_insert_iff, List.mem_append, List.mem_singleton]
    grind

/-! ## The bookkeeping of requests -/

/-- The downloads that have not failed, by their state. -/
def State.tokens (s : State) : List Nat :=
  s.downloads.map (·.token) ++ (s.moved.map (·.token) ++ s.continued.map (·.token))

structure Books (s : State) : Prop where
  keys : (s.uploads.map (·.key)).Nodup
  fresh : ∀ u ∈ s.uploads, u.key ∉ s.bucket.map (·.1)
  stored : ∀ o ∈ s.stored, s.bucket.lookup o.key = some o.body
  moved : ∀ d ∈ s.moved, s.bucket.lookup d.path = some d.object
  continued : ∀ c ∈ s.continued, s.bucket.lookup c.path = some c.object
  tokens : s.tokens.Nodup
  issued : ∀ t ∈ s.tokens, t < s.calls

theorem lookup_append_of_some {k : String} {v : Bytes} {l : List (String × Bytes)}
    (h : l.lookup k = some v) (l' : List (String × Bytes)) : (l ++ l').lookup k = some v := by
  rw [List.lookup_append, h, Option.some_or]

theorem lookup_append_fresh {k : String} {l : List (String × Bytes)} (h : k ∉ l.map (·.1))
    (v : Bytes) : (l ++ [(k, v)]).lookup k = some v := by
  have hnone : l.lookup k = none := by
    rw [List.lookup_eq_none_iff]
    intro p hp
    have : k ≠ p.1 := fun hk => h (hk ▸ List.mem_map_of_mem hp)
    simpa using this
  rw [List.lookup_append, hnone]
  simp

theorem upload_spec {s : State} {key : String} (h : key ∈ s.uploads.map (·.key)) :
    ∃ u ∈ s.uploads, u.key = key ∧ s.upload key = some u := Requests.find_mem h

theorem download_spec {s : State} {token : Nat} (h : s.object token ≠ none) :
    ∃ d ∈ s.downloads, ∃ object, d.token = token ∧ s.bucket.lookup d.path = some object ∧
      s.object token = some object ∧
      step s (.replaced token) = some (AWSS3TransferManager.replaced s d object) := by
  obtain ⟨object, hobj⟩ := Option.ne_none_iff_exists'.mp h
  obtain ⟨d, hd, hlook⟩ := Option.bind_eq_some_iff.mp hobj
  refine ⟨d, List.mem_of_find?_eq_some hd, object, by simpa using List.find?_some hd, hlook, hobj, ?_⟩
  show (s.download token).bind _ = _
  rw [hd, Option.bind_some, hlook, Option.map_some]

theorem continuation_spec {s : State} {token : Nat} (h : token ∈ s.moved.map (·.token)) :
    ∃ d ∈ s.moved, d.token = token ∧
      step s (.continuation token) = some (AwsHelper.continuation s d) := by
  obtain ⟨d, hd, hdt, hfind⟩ := Requests.find_mem h
  refine ⟨d, hd, hdt, ?_⟩
  show (Requests.find _ _ _).map _ = _
  rw [hfind, Option.map_some]

theorem books_dropUpload {s : State} (h : Books s) (key : String) :
    Books (AWSS3TransferManager.dropUpload s key) where
  keys := Requests.nodup_drop h.keys key
  fresh := fun u hu => h.fresh u (Requests.mem_drop.mp hu).1
  stored := h.stored
  moved := h.moved
  continued := h.continued
  tokens := h.tokens
  issued := h.issued

theorem books_dropDownload {s : State} (h : Books s) (token : Nat) :
    Books (AWSS3TransferManager.dropDownload s token) where
  keys := h.keys
  fresh := h.fresh
  stored := h.stored
  moved := h.moved
  continued := h.continued
  tokens := h.tokens.sublist (((Requests.drop_sublist _ _ _).map _).append_right _)
  issued := fun t ht => h.issued t ((((Requests.drop_sublist _ _ _).map _).append_right _).subset ht)

theorem books_uploadImage {s : State} {g : String} (h : Books s)
    (hkey : g ++ ".jpg" ∉ s.uploads.map (·.key)) (hbucket : g ++ ".jpg" ∉ s.bucket.map (·.1))
    (image : UIImage) : Books (AwsHelper.uploadImage s g image) := by
  refine ⟨?_, ?_, h.stored, h.moved, h.continued, h.tokens, h.issued⟩
  · exact Requests.nodup_snoc h.keys hkey
  · intro u hu
    rcases List.mem_append.mp hu with hu | hu
    · exact h.fresh u hu
    · rw [List.mem_singleton.mp hu]
      exact hbucket

theorem books_bodyRead {s : State} {u : Upload} (h : Books s) (hu : u ∈ s.uploads) :
    Books (AWSS3TransferManager.bodyRead s u) := by
  have hdrop := books_dropUpload h u.key
  unfold AWSS3TransferManager.bodyRead
  split
  · exact hdrop
  · rename_i body _
    refine ⟨hdrop.keys, ?_, ?_, ?_, ?_, h.tokens, h.issued⟩
    · -- the other running uploads have other keys
      intro v hv
      have hne : v.key ≠ u.key := (Requests.mem_drop.mp hv).2
      simp only [List.map_append, List.map_singleton, List.mem_append, List.mem_singleton, not_or]
      exact ⟨hdrop.fresh v hv, hne⟩
    · intro o ho
      rcases List.mem_append.mp ho with ho | ho
      · exact lookup_append_of_some (h.stored o ho) _
      · rw [List.mem_singleton.mp ho]
        exact lookup_append_fresh (h.fresh u hu) body
    · exact fun d hd => lookup_append_of_some (h.moved d hd) _
    · exact fun c hc => lookup_append_of_some (h.continued c hc) _

theorem tokens_downloadImage (s : State) (path : String) :
    (AwsHelper.downloadImage s path).tokens.Perm (s.calls :: s.tokens) := by
  show (List.map (·.token) (s.downloads ++ [_]) ++ _).Perm _
  rw [List.map_append, List.map_singleton, List.append_assoc]
  exact List.perm_middle

theorem books_downloadImage {s : State} (h : Books s) (path : String) :
    Books (AwsHelper.downloadImage s path) where
  keys := h.keys
  fresh := h.fresh
  stored := h.stored
  moved := h.moved
  continued := h.continued
  tokens := by
    rw [(tokens_downloadImage s path).nodup_iff, List.nodup_cons]
    exact ⟨fun hmem => Nat.lt_irrefl _ (h.issued _ hmem), h.tokens⟩
  issued := by
    intro t ht
    show t < s.calls + 1
    rcases List.mem_cons.mp ((tokens_downloadImage s path).mem_iff.mp ht) with ht | ht
    · omega
    · have := h.issued t ht
      omega

theorem tokens_replaced {s : State} (h : Books s) {d : Download} (hd : d ∈ s.downloads)
    (object : Bytes) : (AWSS3TransferManager.replaced s d object).tokens.Perm s.tokens := by
  have hperm := (Requests.perm_drop (List.nodup_append.mp h.tokens).1 hd).map (·.token)
  rw [List.map_cons] at hperm
  show (_ ++ (List.map (·.token) (s.moved ++ [_]) ++ _)).Perm (_ ++ _)
  refine List.Perm.trans ?_ (hperm.append_right _).symm
  rw [List.map_append, List.map_singleton, List.append_assoc, ← List.append_assoc,
    List.singleton_append, List.cons_append, ← List.append_assoc]
  exact List.perm_middle

theorem tokens_continuation {s : State} (h : Books s) {d : Moved} (hd : d ∈ s.moved) :
    (AwsHelper.continuation s d).tokens.Perm s.tokens := by
  have hmoved := (List.nodup_append.mp (List.nodup_append.mp h.tokens).2.1).1
  have hperm := (Requests.perm_drop hmoved hd).map (·.token)
  rw [List.map_cons] at hperm
  show (_ ++ (_ ++ List.map (·.token) (s.continued ++ [_]))).Perm (_ ++ (_ ++ _))
  refine List.Perm.append_left _ (List.Perm.trans ?_ (hperm.append_right _).symm)
  rw [List.map_append, List.map_singleton, ← List.append_assoc, List.cons_append]
  exact List.perm_append_singleton _ _

theorem books_replaced {s : State} (h : Books s) {d : Download} (hd : d ∈ s.downloads)
    {object : Bytes} (hobj : s.bucket.lookup d.path = some object) :
    Books (AWSS3TransferManager.replaced s d object) where
  keys := h.keys
  fresh := h.fresh
  stored := h.stored
  moved := by
    intro e he
    rcases List.mem_append.mp he with he | he
    · exact h.moved e he
    · rw [List.mem_singleton.mp he]
      exact hobj
  continued := h.continued
  tokens := (tokens_replaced h hd object).nodup_iff.mpr h.tokens
  issued := fun t ht => h.issued t ((tokens_replaced h hd object).mem_iff.mp ht)

theorem books_continuation {s : State} (h : Books s) {d : Moved} (hd : d ∈ s.moved) :
    Books (AwsHelper.continuation s d) where
  keys := h.keys
  fresh := h.fresh
  stored := h.stored
  moved := fun e he => h.moved e (Requests.mem_drop.mp he).1
  continued := by
    intro c hc
    rcases List.mem_append.mp hc with hc | hc
    · exact h.continued c hc
    · rw [List.mem_singleton.mp hc]
      exact h.moved d hd
  tokens := (tokens_continuation h hd).nodup_iff.mpr h.tokens
  issued := fun t ht => h.issued t ((tokens_continuation h hd).mem_iff.mp ht)

theorem books_step {s : State} {e : Event} (h : Books s) (he : Enabled s e) :
    ∃ s', step s e = some s' ∧ Books s' := by
  cases e with
  | uploadImage g image => exact ⟨_, rfl, books_uploadImage h he.1 he.2 image⟩
  | bodyRead key =>
    obtain ⟨u, hu, -, hstep⟩ := upload_spec he
    exact ⟨_, congrArg (Option.map _) hstep, books_bodyRead h hu⟩
  | uploadFailed key => exact ⟨_, rfl, books_dropUpload h key⟩
  | downloadImage path => exact ⟨_, rfl, books_downloadImage h path⟩
  | replaced token =>
    obtain ⟨d, hd, object, -, hlook, -, hstep⟩ := download_spec he
    exact ⟨_, hstep, books_replaced h hd hlook⟩
  | downloadFailed token => exact ⟨_, rfl, books_dropDownload h token⟩
  | continuation token =>
    obtain ⟨d, hd, -, hstep⟩ := continuation_spec he
    exact ⟨_, hstep, books_continuation h hd⟩

theorem books_init (file : Option Bytes) (bucket : List (String × Bytes)) :
    Books (State.init file bucket) where
  keys := List.nodup_nil
  fresh := by simp [State.init]
  stored := by simp [State.init]
  moved := by simp [State.init]
  continued := by simp [State.init]
  tokens := List.nodup_nil
  issued := by simp [State.init, State.tokens]

/-! ## Quiet steps keep the cell sound -/

/-- What an upload relies on is what it finds after its own write. -/
theorem jpeg_written {image : UIImage} {file : Option Bytes} :
    image.jpeg ≠ none ∨ file = none ↔ image.jpeg = image.jpeg.or file := by
  cases hj : image.jpeg with
  | none => simp [eq_comm]
  | some b => simp

theorem sound_step {s s' : State} {e : Event} (h : SharedCell.Sound (view s)) (hq : Quiet s e)
    (hs' : step s e = some s') : SharedCell.Sound (view s') := by
  cases e with
  | uploadImage g image =>
    obtain ⟨-, hjpeg, hrelied⟩ := hq
    have hvalue := jpeg_written.mp hjpeg
    rw [← Option.some.inj hs', view_uploadImage]
    apply SharedCell.sound_run h
    exact ⟨relied_iff.mpr fun v hv => (hrelied v hv).trans hvalue, hvalue, trivial⟩
  | bodyRead key =>
    obtain ⟨u, hu, -, hstep⟩ := upload_spec hq.1
    obtain rfl : AWSS3TransferManager.bodyRead s u = s' :=
      Option.some.inj ((congrArg (Option.map _) hstep).symm.trans hs')
    cases hfile : s.file with
    | none =>
      rw [AWSS3TransferManager.bodyRead, hfile, view_dropUpload]
      exact SharedCell.sound_run h ⟨trivial, trivial⟩
    | some body =>
      rw [view_bodyRead hfile]
      exact SharedCell.sound_run h ⟨Or.inl ⟨u, hu, rfl⟩, trivial⟩
  | uploadFailed key =>
    rw [← Option.some.inj hs', view_dropUpload]
    exact SharedCell.sound_run h ⟨trivial, trivial⟩
  | downloadImage path => exact Option.some.inj hs' ▸ h
  | replaced token =>
    obtain ⟨d, -, object, -, -, hobj, hstep⟩ := download_spec hq.1
    rw [← Option.some.inj (hstep.symm.trans hs'), view_replaced]
    apply SharedCell.sound_run h
    exact ⟨relied_iff.mpr fun v hv => (hq.2 v hv).trans hobj, rfl, trivial⟩
  | downloadFailed token => exact Option.some.inj hs' ▸ h
  | continuation token =>
    obtain ⟨d, hd, -, hstep⟩ := continuation_spec hq.1
    rw [← Option.some.inj (hstep.symm.trans hs'), view_continuation]
    exact SharedCell.sound_run h ⟨Or.inr ⟨d, hd, rfl⟩, trivial⟩

structure Inv (s : State) : Prop where
  books : Books s
  sound : SharedCell.Sound (view s)

theorem inv_step {s : State} {e : Event} (h : Inv s) (hq : Quiet s e) :
    ∃ s', step s e = some s' ∧ Inv s' := by
  obtain ⟨s', hs', hbooks⟩ := books_step h.books hq.1
  exact ⟨s', hs', hbooks, sound_step h.sound hq hs'⟩

theorem inv_init (file : Option Bytes) (bucket : List (String × Bytes)) :
    Inv (State.init file bucket) :=
  ⟨books_init file bucket, by simp [view, State.init], by simp [view, State.init]⟩

/-- Completions of different downloads have different tokens. -/
theorem completions_filter {l : List Continued} (h : (l.map (·.token)).Nodup) {c : Continued}
    (hc : c ∈ l) :
    (l.filterMap fun c => c.data.map (c.token, ·)).filter (·.1 = c.token) =
      (c.data.map (c.token, ·)).toList := by
  induction l with
  | nil => cases hc
  | cons a l ih =>
    rw [List.map_cons, List.nodup_cons] at h
    have hsplit : ((a :: l).filterMap fun c => c.data.map (c.token, ·)) =
        (a.data.map (a.token, ·)).toList ++ l.filterMap fun c => c.data.map (c.token, ·) := by
      cases ha : a.data <;> simp [ha]
    rw [hsplit, List.filter_append]
    rcases List.mem_cons.mp hc with rfl | hc
    · have hothers : (l.filterMap fun c => c.data.map (c.token, ·)).filter (·.1 = c.token) = [] := by
        rw [List.filter_eq_nil_iff]
        intro p hp
        obtain ⟨b, hb, hbp⟩ := List.mem_filterMap.mp hp
        obtain ⟨data, -, rfl⟩ := Option.map_eq_some_iff.mp hbp
        have : b.token ≠ c.token := fun hbc => h.1 (hbc ▸ List.mem_map_of_mem hb)
        simpa using this
      rw [hothers, List.append_nil]
      cases c.data <;> simp
    · have hne : a.token ≠ c.token := fun hac => h.1 (hac ▸ List.mem_map_of_mem hc)
      rw [ih h.2 hc]
      cases a.data <;> simp [hne]

theorem unmixed_of_inv {s : State} (h : Inv s) : Unmixed s where
  stored := by
    intro o ho
    have hread : o.image.jpeg = some o.body := h.sound.reads _ (Or.inl ⟨o, ho, rfl⟩)
    rw [h.books.stored o ho, hread]
  completed := by
    intro c hc
    have hread : some c.object = c.data := h.sound.reads _ (Or.inr ⟨c, hc, rfl⟩)
    have htokens := (List.nodup_append.mp (List.nodup_append.mp h.books.tokens).2.1).2.1
    refine ⟨c.object, h.books.continued c hc, ?_⟩
    rw [State.completions, completions_filter htokens hc, ← hread]
    rfl

/-! ## Runs -/

/-- In a run whose steps are all quiet nothing traps, and at all times the stored objects and the
    completions are right. -/
theorem quiet_unmixed (file : Option Bytes) (bucket : List (String × Bytes))
    (run : Runs.Schedule step Quiet (State.init file bucket)) :
    (∃ s, Runs.exec step (State.init file bucket) run.events = some s) ∧
      Runs.Throughout step Unmixed (State.init file bucket) run.events := by
  exact Runs.run_ok (fun s e hI hC => inv_step hI hC) (fun s hI => unmixed_of_inv hI)
    (inv_init file bucket) run.enabled

/-- One photo after the other: the first is uploaded and downloaded again, then the second is. -/
def inTurn : List Event :=
  [.uploadImage "a" ⟨some [1, 1]⟩, .bodyRead "a.jpg", .downloadImage "a.jpg", .replaced 0,
   .continuation 0, .uploadImage "b" ⟨some [2]⟩, .bodyRead "b.jpg"]

theorem quiet_inTurn :
    (Runs.exec step (State.init none []) inTurn).map (fun s => (s.bucket, s.completions)) =
      some ([("a.jpg", [1, 1]), ("b.jpg", [2])], [(0, [1, 1])]) ∧
    Runs.Throughout step Unmixed (State.init none []) inTurn :=
  ⟨by decide, (quiet_unmixed none [] ⟨inTurn, by decide⟩).2⟩

/-- An upload finds other bytes than its image's. -/
theorem bodyRead_mixes {s : State} (h : Books s) {u : Upload} (hu : u ∈ s.uploads) {body : Bytes}
    (hfile : s.file = some body) (hne : u.image.jpeg ≠ some body) :
    ∃ e s', Enabled s e ∧ step s e = some s' ∧ ¬ Unmixed s' := by
  have hkey : u.key ∈ s.uploads.map (·.key) := List.mem_map_of_mem hu
  obtain ⟨v, hv, hvu, hstep⟩ := upload_spec hkey
  obtain rfl : v = u := Requests.eq_of_key h.keys hv hu hvu
  refine ⟨.bodyRead v.key, _, hkey, congrArg (Option.map _) hstep, fun hmixed => hne ?_⟩
  rw [AWSS3TransferManager.bodyRead, hfile] at hmixed
  have hstored := hmixed.stored ⟨v.key, v.image, body⟩
    (List.mem_append_right _ (List.mem_singleton_self _))
  exact hstored.symm.trans (lookup_append_fresh (h.fresh v hu) body)

/-- A download finds other bytes than its object's. -/
theorem continuation_mixes {s : State} (h : Books s) {d : Moved} (hd : d ∈ s.moved) {body : Bytes}
    (hfile : s.file = some body) (hne : d.object ≠ body) :
    ∃ e s', Enabled s e ∧ step s e = some s' ∧ ¬ Unmixed s' := by
  have htoken : d.token ∈ s.moved.map (·.token) := List.mem_map_of_mem hd
  obtain ⟨d', hd', hdd, hstep⟩ := continuation_spec htoken
  have hmoved := (List.nodup_append.mp (List.nodup_append.mp h.tokens).2.1).1
  obtain rfl : d' = d := Requests.eq_of_key hmoved hd' hd hdd
  refine ⟨.continuation d'.token, _, htoken, hstep, fun hmixed => hne ?_⟩
  have hbooks := books_continuation h hd'
  let c : Continued := ⟨d'.token, d'.path, d'.object, s.file⟩
  have hc : c ∈ (AwsHelper.continuation s d').continued :=
    List.mem_append_right _ (List.mem_singleton_self _)
  obtain ⟨bytes, hbytes, hone⟩ := hmixed.completed c hc
  have htokens := (List.nodup_append.mp (List.nodup_append.mp hbooks.tokens).2.1).2.1
  rw [State.completions, completions_filter htokens hc] at hone
  have hobj : some bytes = some d'.object := hbytes.symm.trans (h.moved d' hd)
  have hbody : [(d'.token, body)] = [(d'.token, bytes)] := by
    simpa [c, hfile] using hone
  simp only [List.cons.injEq, Prod.mk.injEq, true_and, and_true] at hbody
  exact (Option.some.inj hobj).symm.trans hbody.symm

/-- What was relied on before a write of other bytes is still pending after it, and goes wrong. -/
theorem overwritten_mixes {s s' : State} (h : Books s') {body : Bytes} (hfile : s'.file = some body)
    (huploads : s.uploads ⊆ s'.uploads) (hmoved : s.moved ⊆ s'.moved)
    (hother : ¬ ∀ v ∈ s.relied, v = some body) :
    ∃ e s'', Enabled s' e ∧ step s' e = some s'' ∧ ¬ Unmixed s'' := by
  push Not at hother
  obtain ⟨v, hv, hne⟩ := hother
  rcases List.mem_append.mp hv with hv | hv
  · obtain ⟨u, hu, rfl⟩ := List.mem_map.mp hv
    exact bodyRead_mixes h (huploads hu) hfile hne
  · obtain ⟨d, hd, rfl⟩ := List.mem_map.mp hv
    exact continuation_mixes h (hmoved hd) hfile fun hobj => hne (congrArg some hobj)

/-- After a quiet run, a step that is not quiet can be followed by a wrong transfer. -/
theorem unquiet_mixes {file : Option Bytes} {bucket : List (String × Bytes)}
    (run : Runs.Schedule step Quiet (State.init file bucket)) {s : State}
    (hs : Runs.exec step (State.init file bucket) run.events = some s) {e : Event}
    (he : Enabled s e) (hq : ¬ Quiet s e) :
    ∃ s', step s e = some s' ∧ ∃ e' s'', Enabled s' e' ∧ step s' e' = some s'' ∧ ¬ Unmixed s'' := by
  obtain ⟨t, ht, hI⟩ := Runs.exec_ok (fun s e hI hC => inv_step hI hC) (inv_init file bucket) run.enabled
  obtain rfl : t = s := Option.some.inj (ht.symm.trans hs)
  obtain ⟨s', hs', hbooks⟩ := books_step hI.books he
  refine ⟨s', hs', ?_⟩
  cases e with
  | uploadImage g image =>
    obtain rfl := Option.some.inj hs'
    have hcases : ¬ ((image.jpeg ≠ none ∨ t.file = none) ∧ ∀ v ∈ t.relied, v = image.jpeg) :=
      fun h => hq ⟨he, h⟩
    cases hj : image.jpeg with
    | some body =>
      apply overwritten_mixes (s := t) hbooks
      · show image.jpeg.or t.file = _
        rw [hj, Option.some_or]
      · exact List.subset_append_left _ _
      · exact fun d hd => hd
      · exact fun hall => hcases ⟨Or.inl (by simp [hj]), fun v hv => (hall v hv).trans hj.symm⟩
    | none =>
      cases hf : t.file with
      | some body =>
        -- the upload itself will find the old file
        apply bodyRead_mixes hbooks (List.mem_append_right _ (List.mem_singleton_self _))
        · show image.jpeg.or t.file = some body
          rw [hj, hf, Option.none_or]
        · simp [hj]
      | none =>
        -- nothing is written, and nobody relies on a file
        refine absurd ⟨Or.inr hf, fun v hv => ?_⟩ hcases
        rw [hj, ← hf]
        exact relied_iff.mp (fun p hp => hI.sound.pending p hp) v hv
  | replaced token =>
    obtain ⟨d, hd, object, -, hlook, hobj, hstep⟩ := download_spec he
    obtain rfl := Option.some.inj (hstep.symm.trans hs')
    apply overwritten_mixes (s := t) hbooks rfl (fun u hu => hu) (List.subset_append_left _ _)
    exact fun hall => hq ⟨he, fun v hv => (hall v hv).trans hobj.symm⟩
  | bodyRead _ | uploadFailed _ | downloadImage _ | downloadFailed _ | continuation _ =>
    exact absurd ⟨he, trivial⟩ hq

/-- Two rows of a table download their photos; both objects arrive before the first
    continuation runs. -/
def twoRows : List Event :=
  [.downloadImage "a.jpg", .downloadImage "b.jpg", .replaced 0, .replaced 1, .continuation 0,
    .continuation 1]

def photos : List (String × Bytes) := [("a.jpg", [1]), ("b.jpg", [2])]

/-- The row of `a.jpg` gets the photo of `b.jpg`. -/
theorem twoRows_mixes :
    Runs.Along step Enabled (State.init none photos) twoRows ∧
      (Runs.exec step (State.init none photos) twoRows).map (·.completions) =
        some [(0, [2]), (1, [2])] ∧
      ¬ Runs.Throughout step Unmixed (State.init none photos) twoRows := by
  refine ⟨by decide, by decide, fun h => ?_⟩
  have hlast : Runs.exec step (State.init none photos) twoRows = some
      ⟨some [2], photos, 2, [], [], [], [], [⟨0, "a.jpg", [1], some [2]⟩, ⟨1, "b.jpg", [2], some [2]⟩]⟩ :=
    by decide
  obtain ⟨bytes, hbytes, hone⟩ :=
    (Runs.throughout_last h hlast).completed ⟨0, "a.jpg", [1], some [2]⟩ (by decide)
  have hstored : bytes = [1] := Option.some.inj (hbytes.symm.trans (by decide))
  rw [hstored] at hone
  exact absurd hone (by decide)

end ImageTransfer

end Shiftgram
