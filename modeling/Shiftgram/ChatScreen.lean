import Shiftgram.Runs
import Shiftgram.Requests
import Shiftgram.Swift
import Shiftgram.ImageTransfer

/- The chat screen as a reader: the closure `initChat` registers for the children of the
   conversation, and the array `messages`. A text or voice record becomes a bubble at once, in the
   language of the viewer; a photo record starts a download, and its bubble comes when the
   download completes.

   The bubbles stand in the order of the records' keys in exactly those runs in which every photo
   arrives before a record after it has been shown (`ordered_iff`). -/
namespace Shiftgram

inductive Content
  | text (text : String)
  | photo (image : UIImage)
  deriving DecidableEq

structure JSQMessage where
  senderId : String
  displayName : String
  content : Content
  deriving DecidableEq

/-- What the closure does with a record. -/
inductive Reaction
  | nothing
  | bubble (message : JSQMessage)
  | download (path : String) (senderId displayName : Option String)
  deriving DecidableEq

namespace ChatViewController

/-- A bubble with the text, nothing for the empty text. It traps if the text is missing, by
    `(text?.isEmpty)!`, and if a bubble lacks its sender or name, by the assertions of
    `JSQMessage`. -/
def appendText (id name text : Option String) : Option Reaction := do
  let text ← text
  if text.isEmpty then some .nothing
  else
    let id ← id
    let name ← name
    some (.bubble ⟨id, name, .text text⟩)

/-- The closure of `initChat`. -/
def childAdded (userId : Int32) (data : Swift.Dictionary) : Option Reaction :=
  let id := data.value "sender_id"
  let name := data.value "name"
  let isOwn := id == some (Swift.string userId)
  match (data.value "photo").filter (!·.isEmpty), (data.value "audio").filter (!·.isEmpty) with
  | some photo, _ => some (.download photo id name)
  | none, some _ =>
    appendText id name (if isOwn then data.value "ownAudio" else data.value "transAudio")
  | none, none =>
    appendText id name (if isOwn then data.value "ownText" else data.value "transText")

end ChatViewController

/-- A photo whose download has not finished. -/
structure Photo where
  key : Nat
  path : String
  senderId : Option String
  displayName : Option String
  deriving DecidableEq

/-- An open chat. The records are numbered by the order of their keys. -/
structure ChatScreen where
  userId : Int32
  /-- `messages`, each with the number of its record. -/
  messages : List (Nat × JSQMessage)
  photos : List Photo
  deriving DecidableEq

namespace ChatScreen

def react (s : ChatScreen) (key : Nat) : Reaction → ChatScreen
  | .nothing => s
  | .bubble message => { s with messages := s.messages ++ [(key, message)] }
  | .download path id name => { s with photos := s.photos ++ [⟨key, path, id, name⟩] }

def childAdded (s : ChatScreen) (key : Nat) (data : Swift.Dictionary) : Option ChatScreen :=
  (ChatViewController.childAdded s.userId data).map (s.react key)

def dropPhoto (s : ChatScreen) (key : Nat) : ChatScreen :=
  { s with photos := Requests.drop (·.key) s.photos key }

/-- The completion of `downloadImage`; `image` is `UIImage(data:)`. -/
def downloaded (s : ChatScreen) (photo : Photo) (image : Option UIImage) : Option ChatScreen := do
  let image ← image
  let id ← photo.senderId
  let name ← photo.displayName
  some { s.dropPhoto photo.key with messages := s.messages ++ [(photo.key, ⟨id, name, .photo image⟩)] }

end ChatScreen

/-! ## The order of the bubbles -/

namespace Display

/-- An open chat with the records it has been given and the photos that failed. -/
structure State where
  screen : ChatScreen
  delivered : List (Nat × Swift.Dictionary)
  failed : List Nat
  deriving DecidableEq

def State.init (userId : Int32) : State := ⟨⟨userId, [], []⟩, [], []⟩

inductive Event
  | childAdded (key : Nat) (data : Swift.Dictionary)
  | downloaded (key : Nat) (image : Option UIImage)
  | downloadFailed (key : Nat)
  deriving DecidableEq

def step (s : State) : Event → Option State
  | .childAdded key data =>
    (s.screen.childAdded key data).map fun screen =>
      { s with screen, delivered := s.delivered ++ [(key, data)] }
  | .downloaded key image =>
    (Requests.find (·.key) s.screen.photos key).bind fun photo =>
      (s.screen.downloaded photo image).map fun screen => { s with screen }
  | .downloadFailed key =>
    some { s with screen := s.screen.dropPhoto key, failed := s.failed ++ [key] }

/-- Records come in the order of their keys, name their sender, and have the text that is read
    of them; what is downloaded is an image. -/
def Enabled (s : State) : Event → Prop
  | .childAdded key data =>
    (∀ r ∈ s.delivered, r.1 < key) ∧ data.value "sender_id" ≠ none ∧ data.value "name" ≠ none ∧
      ChatViewController.childAdded s.screen.userId data ≠ none
  | .downloaded key image => key ∈ s.screen.photos.map (·.key) ∧ image ≠ none
  | .downloadFailed key => key ∈ s.screen.photos.map (·.key)

instance (s : State) (e : Event) : Decidable (Enabled s e) :=
  match e with
  | .childAdded _ _ => inferInstanceAs (Decidable (_ ∧ _ ∧ _ ∧ _))
  | .downloaded _ _ => inferInstanceAs (Decidable (_ ∧ _))
  | .downloadFailed key => inferInstanceAs (Decidable (key ∈ s.screen.photos.map (·.key)))

/-- No record delivered after a photo has been shown when the photo arrives: it has no text for
    this viewer, or is a photo that is still on its way or has failed. -/
def InTime (s : State) : Event → Prop
  | .downloaded key _ => ∀ r ∈ s.delivered, key < r.1 →
      ChatViewController.childAdded s.screen.userId r.2 = some .nothing ∨
        r.1 ∈ s.screen.photos.map (·.key) ∨ r.1 ∈ s.failed
  | _ => True

/-- The bubbles stand in the order of their records' keys. -/
def Ordered (s : State) : Prop := (s.screen.messages.map Prod.fst).Pairwise (· < ·)

structure Inv (s : State) : Prop where
  delivered : (s.delivered.map Prod.fst).Pairwise (· < ·)
  photos : (s.screen.photos.map (·.key)).Nodup
  named : ∀ p ∈ s.screen.photos, p.senderId ≠ none ∧ p.displayName ≠ none
  known : ∀ k, k ∈ s.screen.messages.map Prod.fst ∨ k ∈ s.screen.photos.map (·.key) ∨ k ∈ s.failed →
    k ∈ s.delivered.map Prod.fst
  loading : ∀ r ∈ s.delivered, r.1 ∈ s.screen.photos.map (·.key) →
    ChatViewController.childAdded s.screen.userId r.2 ≠ some .nothing ∧ r.1 ∉ s.failed
  shown : ∀ r ∈ s.delivered, (r.1 ∈ s.screen.messages.map Prod.fst ↔
    ¬ (ChatViewController.childAdded s.screen.userId r.2 = some .nothing ∨
      r.1 ∈ s.screen.photos.map (·.key) ∨ r.1 ∈ s.failed))

theorem init_inv (userId : Int32) : Inv (State.init userId) where
  delivered := List.Pairwise.nil
  photos := List.nodup_nil
  named := by simp [State.init]
  known := by simp [State.init]
  loading := by simp [State.init]
  shown := by simp [State.init]

/-- A download keeps the record's sender and name. -/
theorem childAdded_download {userId : Int32} {data : Swift.Dictionary} {path : String}
    {id name : Option String}
    (h : ChatViewController.childAdded userId data = some (.download path id name)) :
    id = data.value "sender_id" ∧ name = data.value "name" := by
  have htext : ∀ id' name' text, ChatViewController.appendText id' name' text ≠
      some (.download path id name) := by
    intro id' name' text
    simp only [ChatViewController.appendText]
    cases text <;> cases id' <;> cases name' <;> simp
    all_goals split <;> simp
  unfold ChatViewController.childAdded at h
  split at h
  · simp only [Option.some.injEq, Reaction.download.injEq] at h
    exact ⟨h.2.1.symm, h.2.2.symm⟩
  · exact absurd h (htext _ _ _)
  · exact absurd h (htext _ _ _)

theorem childAdded_spec {s : State} {key : Nat} {data : Swift.Dictionary}
    (he : Enabled s (.childAdded key data)) :
    ∃ reaction, ChatViewController.childAdded s.screen.userId data = some reaction ∧
      step s (.childAdded key data) = some
        { s with screen := s.screen.react key reaction, delivered := s.delivered ++ [(key, data)] } := by
  obtain ⟨reaction, hreaction⟩ := Option.ne_none_iff_exists'.mp he.2.2.2
  refine ⟨reaction, hreaction, ?_⟩
  show (ChatScreen.childAdded _ _ _).map _ = _
  rw [ChatScreen.childAdded, hreaction]
  rfl

/-- The new key is nowhere yet. -/
theorem key_new {s : State} (h : Inv s) {key : Nat} (hkey : ∀ r ∈ s.delivered, r.1 < key) :
    key ∉ s.delivered.map Prod.fst ∧ key ∉ s.screen.messages.map Prod.fst ∧
      key ∉ s.screen.photos.map (·.key) ∧ key ∉ s.failed := by
  have hdelivered : key ∉ s.delivered.map Prod.fst := by
    intro hmem
    obtain ⟨r, hr, rfl⟩ := List.mem_map.mp hmem
    exact Nat.lt_irrefl _ (hkey r hr)
  exact ⟨hdelivered, fun h' => hdelivered (h.known key (Or.inl h')),
    fun h' => hdelivered (h.known key (Or.inr (Or.inl h'))),
    fun h' => hdelivered (h.known key (Or.inr (Or.inr h')))⟩

theorem mem_react_messages {s : ChatScreen} {reaction : Reaction} {k key : Nat} :
    k ∈ (s.react key reaction).messages.map Prod.fst ↔
      k ∈ s.messages.map Prod.fst ∨ (k = key ∧ ∃ message, reaction = .bubble message) := by
  cases reaction <;> simp [ChatScreen.react]

theorem mem_react_photos {s : ChatScreen} {reaction : Reaction} {k key : Nat} :
    k ∈ (s.react key reaction).photos.map (·.key) ↔
      k ∈ s.photos.map (·.key) ∨ (k = key ∧ ∃ path id name, reaction = .download path id name) := by
  cases reaction <;> simp [ChatScreen.react]

/-- Photos on their way stay apart and keep their senders. -/
theorem react_photos {s : State} (h : Inv s) {key : Nat} {data : Swift.Dictionary}
    (he : Enabled s (.childAdded key data)) (hphotos : key ∉ s.screen.photos.map (·.key))
    {reaction : Reaction}
    (hreaction : ChatViewController.childAdded s.screen.userId data = some reaction) :
    ((s.screen.react key reaction).photos.map (·.key)).Nodup ∧
      ∀ p ∈ (s.screen.react key reaction).photos, p.senderId ≠ none ∧ p.displayName ≠ none := by
  obtain ⟨-, hid, hname, -⟩ := he
  cases reaction with
  | nothing => exact ⟨h.photos, h.named⟩
  | bubble message => exact ⟨h.photos, h.named⟩
  | download path id name =>
    obtain ⟨rfl, rfl⟩ := childAdded_download hreaction
    refine ⟨Requests.nodup_snoc h.photos hphotos, ?_⟩
    show ∀ p ∈ s.screen.photos ++ [_], _
    rw [List.forall_mem_append, List.forall_mem_singleton]
    exact ⟨h.named, hid, hname⟩

theorem inv_childAdded {s : State} (h : Inv s) {key : Nat} {data : Swift.Dictionary}
    (he : Enabled s (.childAdded key data)) {reaction : Reaction}
    (hreaction : ChatViewController.childAdded s.screen.userId data = some reaction) :
    Inv { s with screen := s.screen.react key reaction, delivered := s.delivered ++ [(key, data)] } := by
  have hkey := he.1
  obtain ⟨hnew, hmessages, hphotos, hfailed⟩ := key_new h hkey
  obtain ⟨hnodup, hnamed⟩ := react_photos h he hphotos hreaction
  have hother : ∀ r ∈ s.delivered, r.1 ≠ key := fun r hr => Nat.ne_of_lt (hkey r hr)
  have huser : (s.screen.react key reaction).userId = s.screen.userId := by cases reaction <;> rfl
  refine ⟨?_, hnodup, hnamed, fun k hk => ?_, ?_, ?_⟩
  · show ((s.delivered ++ [(key, data)]).map Prod.fst).Pairwise (· < ·)
    rw [List.map_append, List.pairwise_append]
    refine ⟨h.delivered, List.pairwise_singleton _ _, ?_⟩
    intro k hk k' hk'
    obtain ⟨r, hr, rfl⟩ := List.mem_map.mp hk
    obtain rfl : k' = key := by simpa using hk'
    exact hkey r hr
  · show k ∈ (s.delivered ++ [(key, data)]).map Prod.fst
    rw [List.map_append, List.mem_append]
    rw [mem_react_messages, mem_react_photos] at hk
    rcases hk with (hk | ⟨rfl, -⟩) | (hk | ⟨rfl, -⟩) | hk
    · exact Or.inl (h.known k (Or.inl hk))
    · exact Or.inr (List.mem_singleton_self _)
    · exact Or.inl (h.known k (Or.inr (Or.inl hk)))
    · exact Or.inr (List.mem_singleton_self _)
    · exact Or.inl (h.known k (Or.inr (Or.inr hk)))
  · show ∀ r ∈ s.delivered ++ [(key, data)], r.1 ∈ (s.screen.react key reaction).photos.map (·.key) →
      ChatViewController.childAdded (s.screen.react key reaction).userId r.2 ≠ some .nothing ∧ r.1 ∉ s.failed
    rw [huser, List.forall_mem_append, List.forall_mem_singleton]
    refine ⟨fun r hr hload => ?_, fun hload => ?_⟩
    · rw [mem_react_photos, or_iff_left fun hk => hother r hr hk.1] at hload
      exact h.loading r hr hload
    · rw [mem_react_photos, or_iff_right hphotos] at hload
      obtain ⟨-, path, id, name, rfl⟩ := hload
      exact ⟨by simp [hreaction], hfailed⟩
  · show ∀ r ∈ s.delivered ++ [(key, data)],
      (r.1 ∈ (s.screen.react key reaction).messages.map Prod.fst ↔
        ¬ (ChatViewController.childAdded (s.screen.react key reaction).userId r.2 = some .nothing ∨
          r.1 ∈ (s.screen.react key reaction).photos.map (·.key) ∨ r.1 ∈ s.failed))
    rw [huser, List.forall_mem_append, List.forall_mem_singleton]
    refine ⟨fun r hr => ?_, ?_⟩
    · rw [mem_react_messages, or_iff_left fun hk => hother r hr hk.1, mem_react_photos]
      simp only [hother r hr, false_and, or_false]
      exact h.shown r hr
    · -- the new record is shown at once, or loads, or has nothing to show
      rw [mem_react_messages, mem_react_photos, hreaction]
      cases reaction <;> simp [hmessages, hphotos, hfailed]

theorem mem_dropPhoto {s : ChatScreen} {k key : Nat} :
    k ∈ (s.dropPhoto key).photos.map (·.key) ↔ k ∈ s.photos.map (·.key) ∧ k ≠ key := by
  simp only [ChatScreen.dropPhoto, List.mem_map, Requests.mem_drop]
  refine ⟨?_, ?_⟩
  · intro h
    obtain ⟨p, hp, hk⟩ := h
    exact ⟨⟨p, hp.1, hk⟩, hk ▸ hp.2⟩
  · intro h
    obtain ⟨⟨p, hp, hk⟩, hne⟩ := h
    exact ⟨p, ⟨hp, hk ▸ hne⟩, hk⟩

theorem downloaded_spec {s : State} (h : Inv s) {key : Nat} {image : Option UIImage}
    (he : Enabled s (.downloaded key image)) :
    ∃ message, step s (.downloaded key image) = some { s with screen :=
      { s.screen.dropPhoto key with messages := s.screen.messages ++ [(key, message)] } } := by
  obtain ⟨hkey, himage⟩ := he
  obtain ⟨image, rfl⟩ := Option.ne_none_iff_exists'.mp himage
  obtain ⟨photo, hphoto, rfl, hfind⟩ := Requests.find_mem hkey
  obtain ⟨hid, hname⟩ := h.named photo hphoto
  obtain ⟨id, hid⟩ := Option.ne_none_iff_exists'.mp hid
  obtain ⟨name, hname⟩ := Option.ne_none_iff_exists'.mp hname
  refine ⟨⟨id, name, .photo image⟩, ?_⟩
  show (Requests.find _ _ _).bind _ = _
  rw [hfind, Option.bind_some, ChatScreen.downloaded, hid, hname]
  rfl

theorem inv_downloaded {s : State} (h : Inv s) {key : Nat}
    (hkey : key ∈ s.screen.photos.map (·.key)) (message : JSQMessage) :
    Inv { s with screen :=
      { s.screen.dropPhoto key with messages := s.screen.messages ++ [(key, message)] } } := by
  refine ⟨h.delivered, Requests.nodup_drop h.photos key, fun p hp => ?_, fun k hk => ?_,
    fun r hr hload => ?_, fun r hr => ?_⟩
  · exact h.named p (Requests.mem_drop.mp hp).1
  · have := h.known k
    rw [mem_dropPhoto, List.map_append, List.mem_append, List.map_singleton, List.mem_singleton] at hk
    grind
  · exact h.loading r hr (mem_dropPhoto.mp hload).1
  · rw [mem_dropPhoto, List.map_append, List.mem_append, List.map_singleton, List.mem_singleton]
    by_cases hk : r.1 = key
    · -- the photo itself: it was loading, and is shown now
      obtain ⟨hreaction, hfailed⟩ := h.loading r hr (hk ▸ hkey)
      rw [hk] at hfailed
      simp [hk, hfailed, ChatScreen.dropPhoto, hreaction]
    · simp only [hk, or_false, ne_eq, not_false_eq_true, and_true]
      exact h.shown r hr

theorem inv_downloadFailed {s : State} (h : Inv s) {key : Nat}
    (hkey : key ∈ s.screen.photos.map (·.key)) :
    Inv { s with screen := s.screen.dropPhoto key, failed := s.failed ++ [key] } := by
  refine ⟨h.delivered, Requests.nodup_drop h.photos key, fun p hp => ?_, fun k hk => ?_,
    fun r hr hload => ?_, fun r hr => ?_⟩
  · exact h.named p (Requests.mem_drop.mp hp).1
  · have := h.known k
    rw [mem_dropPhoto, List.mem_append, List.mem_singleton] at hk
    change k ∈ s.screen.messages.map Prod.fst ∨ _ at hk
    grind
  · obtain ⟨hload, hne⟩ := mem_dropPhoto.mp hload
    obtain ⟨hreaction, hfailed⟩ := h.loading r hr hload
    exact ⟨hreaction, by simp [hfailed, hne]⟩
  · have hshown := h.shown r hr
    rw [mem_dropPhoto, List.mem_append, List.mem_singleton]
    change r.1 ∈ s.screen.messages.map Prod.fst ↔ ¬ (ChatViewController.childAdded s.screen.userId r.2 =
      some .nothing ∨ _)
    grind

/-- A bubble at the end is in order if and only if its key is the largest. -/
theorem ordered_append {s s' : State} {key : Nat} {message : JSQMessage}
    (hs' : s'.screen.messages = s.screen.messages ++ [(key, message)]) (hs : Ordered s) :
    Ordered s' ↔ ∀ k ∈ s.screen.messages.map Prod.fst, k < key := by
  rw [Ordered, hs', List.map_append, List.pairwise_append]
  refine ⟨?_, ?_⟩
  · intro ⟨_, _, hlast⟩ k hk
    exact hlast k hk key (List.mem_singleton_self _)
  · intro hlast
    refine ⟨hs, List.pairwise_singleton _ _, fun k hk k' hk' => ?_⟩
    rw [List.mem_singleton.mp hk']
    exact hlast k hk

/-- A photo in time is after all bubbles, and the other way round. -/
theorem inTime_iff {s : State} (h : Inv s) {key : Nat} {image : Option UIImage}
    (hkey : key ∈ s.screen.photos.map (·.key)) :
    InTime s (.downloaded key image) ↔ ∀ k ∈ s.screen.messages.map Prod.fst, k < key := by
  refine ⟨?_, ?_⟩
  · intro htime k hk
    obtain ⟨r, hr, rfl⟩ := List.mem_map.mp (h.known k (Or.inl hk))
    have hnot := (h.shown r hr).mp hk
    -- a bubble is not of the photo itself, which is still on its way
    have hne : r.1 ≠ key := fun hrk => hnot (Or.inr (Or.inl (hrk ▸ hkey)))
    by_contra hlt
    exact hnot (htime r hr (by omega))
  · intro hall r hr hlt
    by_contra hnot
    have := hall r.1 ((h.shown r hr).mpr hnot)
    omega

/-- One step keeps the order exactly if it shows no photo too late. -/
theorem step_ordered (s : State) (e : Event) (h : Inv s) (he : Enabled s e) :
    ∃ s', step s e = some s' ∧ Inv s' ∧ (Ordered s → (Ordered s' ↔ InTime s e)) := by
  cases e with
  | childAdded key data =>
    obtain ⟨reaction, hreaction, hstep⟩ := childAdded_spec he
    refine ⟨_, hstep, inv_childAdded h he hreaction, fun hs => ⟨fun _ => trivial, fun _ => ?_⟩⟩
    cases reaction with
    | nothing => exact hs
    | bubble message =>
      rw [ordered_append rfl hs]
      intro k hk
      obtain ⟨r, hr, rfl⟩ := List.mem_map.mp (h.known k (Or.inl hk))
      exact he.1 r hr
    | download path id name => exact hs
  | downloaded key image =>
    obtain ⟨message, hstep⟩ := downloaded_spec h he
    refine ⟨_, hstep, inv_downloaded h he.1 message, fun hs => ?_⟩
    rw [inTime_iff h he.1]
    exact ordered_append rfl hs
  | downloadFailed key =>
    exact ⟨_, rfl, inv_downloadFailed h he, fun hs => ⟨fun _ => trivial, fun _ => hs⟩⟩

/-- The bubbles of a run are in order at all times exactly if every photo arrives in time. -/
theorem ordered_iff (userId : Int32) (run : Runs.Schedule step Enabled (State.init userId)) :
    (∃ s, Runs.exec step (State.init userId) run.events = some s) ∧
      (Runs.Throughout step Ordered (State.init userId) run.events ↔
        Runs.Along step InTime (State.init userId) run.events) := by
  exact Runs.throughout_iff_along step_ordered (init_inv userId) List.Pairwise.nil run.enabled

/-- Two screens in order that show the same records show them in the same order. -/
theorem same_order {s s' : State} (h : Ordered s) (h' : Ordered s')
    (hsame : (s.screen.messages.map Prod.fst).Perm (s'.screen.messages.map Prod.fst)) :
    s.screen.messages.map Prod.fst = s'.screen.messages.map Prod.fst :=
  hsame.eq_of_pairwise (fun _ _ _ _ hab hba => absurd hba (Nat.lt_asymm hab)) h h'

/-- A photo, then a text; the text is shown while the photo is on its way. -/
def photoThenText : List Event :=
  [.childAdded 1 [("sender_id", "2"), ("name", "2"), ("photo", "a.jpg")],
    .childAdded 2 [("sender_id", "2"), ("name", "2"), ("text", "hi"), ("ownText", "hi"), ("transText", "hi")],
    .downloaded 1 (some ⟨some [1]⟩)]

theorem photoThenText_swaps :
    Runs.Along step Enabled (State.init 3) photoThenText ∧
      (Runs.exec step (State.init 3) photoThenText).map (fun s => s.screen.messages.map Prod.fst) =
        some [2, 1] ∧
      ¬ Runs.Throughout step Ordered (State.init 3) photoThenText := by
  have hlast : (Runs.exec step (State.init 3) photoThenText).map
      (fun s => s.screen.messages.map Prod.fst) = some [2, 1] := by decide
  refine ⟨by decide, hlast, fun h => ?_⟩
  obtain ⟨s, hs, hkeys⟩ := Option.map_eq_some_iff.mp hlast
  have hordered := Runs.throughout_last h hs
  rw [Ordered, hkeys] at hordered
  exact absurd hordered (by decide)

end Display

end Shiftgram
