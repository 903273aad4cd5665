import Shiftgram.ChatReader
import Shiftgram.Composer
import Shiftgram.VoiceMessages

/- The conversation as its ends read it. The records of three writers (`didPressSend`, the voice
   messages of the chat and `imagePickerController`) stand on one node. A key is taken with
   `childByAutoId` before its record is set, a translation earlier for instance, so records may arrive
   in another order than that of their keys. A chat screen is given records of the node; a photo is
   shown when its download completes. Which records a screen is given, and in which order, is left
   open: Firebase gives the last ten in the order of their keys, and then those that arrive among the
   last ten.

   `history_run`, for any number of screens, opened at any time:
     1. A run traps just where a screen is given a voice record without a text. The chat writes one
        when the text was cleared by an earlier message before the language or the translation came.
     2. Otherwise a screen shows the records it was given, less those without a text for its user and
        the photos that are on their way or have failed, each once, the texts in the order in which
        it was given them.
     3. Any two screens show the same of a record that both were given, each in its user's language.

   Assumed: Firebase gives a record to a screen once, each download is of the bytes under its own
   path, and those are an image for every path that a record names. -/
namespace Shiftgram.History

/-- What a writer puts into a record. -/
inductive Body
  | text (own translation : String)
  | voice (own translation : String)
  | photo (path : String)
  deriving DecidableEq

structure Post where
  sender : Int32
  body : Body
  deriving DecidableEq

def Post.value (p : Post) : Swift.Dictionary :=
  let user := Swift.string p.sender
  match p.body with
  | .text own translation => Composer.message user own translation
  | .voice own translation => Voice.Screen.message .chat user own translation
  | .photo path => [("sender_id", user), ("name", user), ("photo", path)]

-- `UIImage(data:)` of the bytes under a path
variable (images : String → Option UIImage)

/-- What the writers see to: a text is not empty, and a photo is stored. -/
def Post.Valid (p : Post) : Prop :=
  match p.body with
  | .text own _ => own ≠ ""
  | .voice _ _ => True
  | .photo path => path ≠ "" ∧ images path ≠ none

/-- No voice record without a text. -/
def Post.Readable (p : Post) : Prop :=
  match p.body with
  | .voice own _ => own ≠ ""
  | .text _ _ | .photo _ => True

/-- What the user is to see of the record, nothing of an empty translation. -/
def Post.content (userId : Int32) (p : Post) : Option Content :=
  match p.body with
  | .text own translation | .voice own translation =>
    let text := if p.sender = userId then own else translation
    if text = "" then none else some (.text text)
  | .photo path => (images path).map .photo

def Post.message (userId : Int32) (p : Post) : Option JSQMessage :=
  (p.content images userId).map fun content => ⟨Swift.string p.sender, Swift.string p.sender, content⟩

/-- A chat screen. -/
structure Screen where
  chat : ChatScreen
  /-- The keys of the records it was given, in that order. -/
  given : List Nat
  failed : List Nat
  deriving DecidableEq

/-- Records with their keys, in the order in which they arrived. -/
abbrev Node := List (Nat × Post)

structure State where
  node : Node
  screens : List Screen
  deriving DecidableEq

def State.init : State := ⟨[], []⟩

def initChat (userId : Int32) : Screen := ⟨⟨userId, [], []⟩, [], []⟩

namespace Screen

def childAdded (node : Node) (key : Nat) (v : Screen) : Option Screen := do
  let p ← node.lookup key
  let chat ← v.chat.childAdded key p.value
  some { v with chat, given := v.given ++ [key] }

def downloaded (v : Screen) (key : Nat) : Option Screen := do
  let photo ← Requests.find (·.key) v.chat.photos key
  let chat ← v.chat.downloaded photo (images photo.path)
  some { v with chat }

def downloadFailed (v : Screen) (key : Nat) : Screen :=
  { v with chat := v.chat.dropPhoto key, failed := v.failed ++ [key] }

end Screen

inductive Event
  /-- A record arrives under a key that `childByAutoId` gave. -/
  | setValue (key : Nat) (p : Post)
  | initChat (userId : Int32)
  | childAdded (screen key : Nat)
  | downloaded (screen key : Nat)
  | downloadFailed (screen key : Nat)
  deriving DecidableEq

def step (s : State) : Event → Option State
  | .setValue key p => some { s with node := s.node ++ [(key, p)] }
  | .initChat userId => some { s with screens := s.screens ++ [initChat userId] }
  | .childAdded i key => do
    let v ← s.screens[i]?
    let v' ← v.childAdded s.node key
    some { s with screens := s.screens.set i v' }
  | .downloaded i key => do
    let v ← s.screens[i]?
    let v' ← v.downloaded images key
    some { s with screens := s.screens.set i v' }
  | .downloadFailed i key => do
    let v ← s.screens[i]?
    some { s with screens := s.screens.set i (v.downloadFailed key) }

/-- Keys are given once, and a screen is given a record of the node once. -/
def Enabled (s : State) : Event → Prop
  | .setValue key p => s.node.lookup key = none ∧ p.Valid images
  | .initChat _ => True
  | .childAdded i key => s.node.lookup key ≠ none ∧ ∃ v ∈ s.screens[i]?, key ∉ v.given
  | .downloaded i key | .downloadFailed i key =>
    ∃ v ∈ s.screens[i]?, key ∈ v.chat.photos.map (·.key)

instance (p : Post) : Decidable (p.Valid images) := by
  unfold Post.Valid
  cases p.body <;> infer_instance

instance (s : State) (e : Event) : Decidable (Enabled images s e) := by
  cases e <;> unfold Enabled <;> infer_instance

/-- If a screen is given a voice record, it has a text. -/
def GivesReadable (s : State) : Event → Prop
  | .childAdded _ key => ∀ p ∈ s.node.lookup key, p.Readable
  | _ => True

instance (p : Post) : Decidable p.Readable := by
  unfold Post.Readable
  cases p.body <;> infer_instance

instance (s : State) (e : Event) : Decidable (GivesReadable s e) := by
  cases e <;> unfold GivesReadable <;> infer_instance

/-! ## What the screens show -/

/-- The record was given to the screen, and is no photo that is on its way or has failed. -/
def Screen.Settled (v : Screen) (key : Nat) : Prop :=
  key ∈ v.given ∧ key ∉ v.chat.photos.map (·.key) ∧ key ∉ v.failed

/-- Whether `messageBubbleImageDataForItemAt` takes the outgoing bubble. -/
def Screen.outgoing (v : Screen) (message : JSQMessage) : Bool :=
  message.senderId = Swift.string v.chat.userId

def isText (message : JSQMessage) : Bool :=
  match message.content with
  | .text _ => true
  | .photo _ => false

/-- The record has a text for the user. -/
def Post.hasText (userId : Int32) (p : Post) : Bool :=
  match p.body with
  | .text own translation | .voice own translation =>
    (if p.sender = userId then own else translation) ≠ ""
  | .photo _ => false

structure Shows (node : Node) (v : Screen) : Prop where
  exact : ∀ key message, (key, message) ∈ v.chat.messages ↔
    v.Settled key ∧ ∃ p, node.lookup key = some p ∧ p.message images v.chat.userId = some message
  once : (v.chat.messages.map Prod.fst).Nodup
  texts : (v.chat.messages.filter (isText ·.2)).map Prod.fst =
    v.given.filter fun key => (node.lookup key).any (·.hasText v.chat.userId)

/-- Where a screen is given the records in the order of their keys, its texts stand in it. -/
theorem Shows.keyOrder {node : Node} {v : Screen} (h : Shows images node v)
    (hgiven : v.given.Pairwise (· < ·)) :
    ((v.chat.messages.filter (isText ·.2)).map Prod.fst).Pairwise (· < ·) := by
  rw [h.texts]
  exact hgiven.sublist List.filter_sublist

/-! ## Reading what was written -/

/-- What the closure does with the record. -/
def Post.reaction (userId : Int32) (p : Post) : Reaction :=
  match p.body with
  | .text own translation | .voice own translation =>
    let text := if p.sender = userId then own else translation
    if text = "" then .nothing
    else .bubble ⟨Swift.string p.sender, Swift.string p.sender, .text text⟩
  | .photo path => .download path (some (Swift.string p.sender)) (some (Swift.string p.sender))

theorem appendText_some (sender text : String) :
    ChatViewController.appendText (some sender) (some sender) (some text) =
      some (if text = "" then .nothing else .bubble ⟨sender, sender, .text text⟩) := by
  by_cases h : text = "" <;> simp [ChatViewController.appendText, h]

theorem childAdded_voice (userId : Int32) (sender own translation : String) (h : own ≠ "") :
    ChatViewController.childAdded userId (Voice.Screen.message .chat sender own translation) =
      ChatViewController.appendText (some sender) (some sender)
        (some (if sender = Swift.string userId then own else translation)) := by
  have haudio : ChatReader.filled (Voice.Screen.message .chat sender own translation) "audio" = some own := by
    rw [ChatReader.filled_of_value rfl, if_neg h]
  have hsender : (Voice.Screen.message .chat sender own translation).value "sender_id" = some sender := rfl
  have hfield : ChatReader.field userId (Voice.Screen.message .chat sender own translation) =
      if sender = Swift.string userId then "ownAudio" else "transAudio" := by
    rw [ChatReader.field, haudio, hsender]
    by_cases hown : sender = Swift.string userId <;> simp [hown]
  rw [ChatReader.childAdded_field rfl, hfield]
  split <;> rfl

variable {images}

/-- The closure reads every other record of the writers. -/
theorem childAdded_value {p : Post} (hp : p.Valid images) (hread : p.Readable) (userId : Int32) :
    ChatViewController.childAdded userId p.value = some (p.reaction userId) := by
  obtain ⟨sender, body⟩ := p
  cases body with
  | text own translation =>
    simp only [Post.value, Post.reaction, Composer.childAdded_message, appendText_some, Swift.string_inj]
  | voice own translation =>
    simp only [Post.value, Post.reaction, childAdded_voice userId _ own translation hread,
      appendText_some, Swift.string_inj]
  | photo path =>
    have hphoto : ChatReader.filled (Post.value ⟨sender, .photo path⟩) "photo" = some path := by
      rw [ChatReader.filled_of_value rfl, if_neg hp.1]
    exact ChatReader.childAdded_photo hphoto

/-- A voice record without a text is taken for a text record, which it is not. -/
theorem childAdded_unreadable {p : Post} (h : ¬ p.Readable) (userId : Int32) :
    ChatViewController.childAdded userId p.value = none := by
  obtain ⟨sender, body⟩ := p
  cases body with
  | text own translation => exact absurd trivial h
  | photo path => exact absurd trivial h
  | voice own translation =>
    obtain rfl : own = "" := not_not.mp h
    have haudio : ChatReader.filled (Post.value ⟨sender, .voice "" translation⟩) "audio" = none := by
      rw [ChatReader.filled_of_value rfl, if_pos rfl]
    rw [ChatReader.childAdded_field rfl, ChatReader.field, haudio]
    dsimp only
    split <;> rfl

variable (images) in
/-- Texts have their bubble at once, or none. -/
theorem reaction_text {p : Post} (h : ∀ path, p.body ≠ .photo path) (userId : Int32) :
    p.reaction userId = (p.message images userId).elim .nothing .bubble := by
  obtain ⟨sender, body⟩ := p
  cases body with
  | text own translation =>
    by_cases htext : (if sender = userId then own else translation) = "" <;>
      simp [Post.reaction, Post.message, Post.content, htext]
  | voice own translation =>
    by_cases htext : (if sender = userId then own else translation) = "" <;>
      simp [Post.reaction, Post.message, Post.content, htext]
  | photo path => exact absurd rfl (h path)

theorem isText_message {userId : Int32} {p : Post} {message : JSQMessage}
    (h : p.message images userId = some message) : isText message = p.hasText userId := by
  obtain ⟨sender, body⟩ := p
  obtain ⟨content, hcontent, rfl⟩ := Option.map_eq_some_iff.1 h
  cases body with
  | photo path =>
    obtain ⟨image, -, rfl⟩ := Option.map_eq_some_iff.1 hcontent
    rfl
  | text own translation | voice own translation =>
    by_cases htext : (if sender = userId then own else translation) = ""
    · simp [Post.content, htext] at hcontent
    · simp only [Post.content, htext, if_false, Option.some.injEq] at hcontent
      subst hcontent
      simp [isText, Post.hasText, htext]

theorem hasText_of_message {userId : Int32} {p : Post} {message : JSQMessage}
    (hbody : ∀ path, p.body ≠ .photo path) (h : p.message images userId = some message) :
    p.hasText userId = true := by
  obtain ⟨sender, body⟩ := p
  cases body with
  | photo path => exact absurd rfl (hbody path)
  | text own translation | voice own translation =>
    by_cases htext : (if sender = userId then own else translation) = ""
    · simp [Post.message, Post.content, htext] at h
    · simp [Post.hasText, htext]

theorem hasText_of_none {userId : Int32} {p : Post} (h : p.message images userId = none) :
    p.hasText userId = false := by
  obtain ⟨sender, body⟩ := p
  cases body with
  | photo path => rfl
  | text own translation | voice own translation =>
    by_cases htext : (if sender = userId then own else translation) = ""
    · simp [Post.hasText, htext]
    · simp [Post.message, Post.content, htext] at h

/-! ## One screen -/

/-- What holds of a screen: it shows what it is to show, and its photos are those of records given. -/
structure Screen.Ok (images : String → Option UIImage) (node : Node) (v : Screen) : Prop where
  shows : Shows images node v
  given : ∀ key ∈ v.given, ∃ p, node.lookup key = some p ∧ p.Readable
  photos_nodup : (v.chat.photos.map (·.key)).Nodup
  photos : ∀ photo ∈ v.chat.photos, photo.key ∈ v.given ∧ ∃ sender path,
    node.lookup photo.key = some ⟨sender, .photo path⟩ ∧
      photo = ⟨photo.key, path, some (Swift.string sender), some (Swift.string sender)⟩
  failed : ∀ key ∈ v.failed, key ∈ v.given ∧ key ∉ v.chat.photos.map (·.key)

theorem ok_initChat (userId : Int32) (node : Node) : (initChat userId).Ok images node where
  shows := {
    exact := fun _ _ => iff_of_false List.not_mem_nil fun h => List.not_mem_nil h.1.1
    once := List.nodup_nil
    texts := rfl }
  given := nofun
  photos_nodup := List.nodup_nil
  photos := nofun
  failed := nofun

/-- A voice record without a text is not served. -/
theorem childAdded_trap {node : Node} {v : Screen} {key : Nat} {p : Post}
    (hp : node.lookup key = some p) (h : ¬ p.Readable) : v.childAdded node key = none := by
  simp [Screen.childAdded, hp, ChatScreen.childAdded, childAdded_unreadable h]

section Ok

variable {node : Node} {v : Screen} (hv : v.Ok images node)
include hv

/-- A record that arrives is not given yet, and changes none of the others. -/
theorem Screen.Ok.setValue (key : Nat) (p : Post) : v.Ok images (node ++ [(key, p)]) := by
  have hlookup : ∀ k ∈ v.given, (node ++ [(key, p)]).lookup k = node.lookup k := by
    intro k hk
    obtain ⟨q, hq, -⟩ := hv.given k hk
    rw [List.lookup_append, hq, Option.some_or]
  refine ⟨⟨fun k message => ?_, hv.shows.once, ?_⟩, fun k hk => ?_, hv.photos_nodup, ?_, hv.failed⟩
  · rw [hv.shows.exact]
    refine and_congr_right fun hsettled => ?_
    rw [hlookup k hsettled.1]
  · rw [hv.shows.texts]
    exact List.filter_congr fun k hk => by rw [hlookup k hk]
  · rw [hlookup k hk]
    exact hv.given k hk
  · intro photo hphoto
    obtain ⟨hgiven, hrest⟩ := hv.photos photo hphoto
    exact ⟨hgiven, by rwa [hlookup _ hgiven]⟩

/-- The keys of the bubbles are those of records given. -/
theorem Screen.Ok.mem_given {entry : Nat × JSQMessage} (h : entry ∈ v.chat.messages) :
    entry.1 ∈ v.given :=
  ((hv.shows.exact entry.1 entry.2).1 h).1.1

/-- A record that is given now, and what it does to the keys. -/
theorem Screen.Ok.key_new {key : Nat} (hnew : key ∉ v.given) :
    key ∉ v.chat.messages.map Prod.fst ∧ key ∉ v.chat.photos.map (·.key) ∧ key ∉ v.failed := by
  refine ⟨fun hmem => ?_, fun hmem => ?_, fun hmem => hnew (hv.failed _ hmem).1⟩
  · obtain ⟨entry, hentry, rfl⟩ := List.mem_map.1 hmem
    exact hnew (hv.mem_given hentry)
  · obtain ⟨photo, hphoto, rfl⟩ := List.mem_map.1 hmem
    exact hnew (hv.photos photo hphoto).1

/-- The given records with one more. -/
theorem Screen.Ok.given_snoc {key : Nat} {p : Post} (hp : node.lookup key = some p)
    (hread : p.Readable) : ∀ k ∈ v.given ++ [key], ∃ p, node.lookup k = some p ∧ p.Readable := by
  rw [List.forall_mem_append, List.forall_mem_singleton]
  exact ⟨hv.given, p, hp, hread⟩

/-- A record without anything to show. -/
theorem Screen.Ok.nothing {key : Nat} {p : Post} (hp : node.lookup key = some p)
    (hread : p.Readable) (hmessage : p.message images v.chat.userId = none) :
    Screen.Ok images node { v with given := v.given ++ [key] } where
  shows := {
    exact := fun k message => by
      rw [hv.shows.exact]
      show v.Settled k ∧ _ ↔ (k ∈ v.given ++ [key] ∧ _) ∧ _
      rw [List.mem_append, List.mem_singleton]
      constructor
      · rintro ⟨⟨hgiven, hrest⟩, hmsg⟩
        exact ⟨⟨.inl hgiven, hrest⟩, hmsg⟩
      · rintro ⟨⟨hgiven, hrest⟩, q, hq, hmsg⟩
        rcases hgiven with hgiven | rfl
        · exact ⟨⟨hgiven, hrest⟩, q, hq, hmsg⟩
        · obtain rfl : p = q := Option.some.inj (hp.symm.trans hq)
          exact absurd (hmessage.symm.trans hmsg) (by simp)
    once := hv.shows.once
    texts := by
      show _ = (v.given ++ [key]).filter _
      have hnone : (node.lookup key).any (·.hasText v.chat.userId) = false := by
        rw [hp, Option.any_some, hasText_of_none hmessage]
      rw [List.filter_append, List.filter_singleton, hnone, hv.shows.texts]
      simp }
  given := hv.given_snoc hp hread
  photos_nodup := hv.photos_nodup
  photos := fun photo hphoto =>
    have ⟨hgiven, hrest⟩ := hv.photos photo hphoto
    ⟨List.mem_append_left _ hgiven, hrest⟩
  failed := fun k hk => ⟨List.mem_append_left _ (hv.failed k hk).1, (hv.failed k hk).2⟩

/-- A record whose bubble is shown at once. -/
theorem Screen.Ok.bubble {key : Nat} {p : Post} (hnew : key ∉ v.given)
    (hp : node.lookup key = some p) (hread : p.Readable) {message : JSQMessage}
    (htext : p.hasText v.chat.userId = true)
    (hmessage : p.message images v.chat.userId = some message) :
    Screen.Ok images node { v with
      chat := { v.chat with messages := v.chat.messages ++ [(key, message)] }
      given := v.given ++ [key] } where
  shows := {
    exact := fun k shown => by
      show (k, shown) ∈ v.chat.messages ++ [(key, message)] ↔ (k ∈ v.given ++ [key] ∧ _) ∧ _
      obtain ⟨-, hphotos, hfailed⟩ := hv.key_new hnew
      rw [List.mem_append, List.mem_singleton, Prod.mk.injEq, hv.shows.exact, List.mem_append,
        List.mem_singleton]
      constructor
      · rintro (⟨⟨hgiven, hrest⟩, hmsg⟩ | ⟨rfl, rfl⟩)
        · exact ⟨⟨.inl hgiven, hrest⟩, hmsg⟩
        · exact ⟨⟨.inr rfl, hphotos, hfailed⟩, p, hp, hmessage⟩
      · rintro ⟨⟨hgiven, hrest⟩, q, hq, hmsg⟩
        rcases hgiven with hgiven | rfl
        · exact .inl ⟨⟨hgiven, hrest⟩, q, hq, hmsg⟩
        · obtain rfl : p = q := Option.some.inj (hp.symm.trans hq)
          exact .inr ⟨rfl, Option.some.inj (hmsg.symm.trans hmessage)⟩
    once := by
      show ((v.chat.messages ++ [(key, message)]).map Prod.fst).Nodup
      exact Requests.nodup_snoc hv.shows.once (hv.key_new hnew).1
    texts := by
      show ((v.chat.messages ++ [(key, message)]).filter (isText ·.2)).map Prod.fst =
        (v.given ++ [key]).filter _
      have hshown : isText message = true := (isText_message hmessage).trans htext
      rw [List.filter_append, List.filter_append, List.map_append, hv.shows.texts]
      simp [hshown, hp, htext] }
  given := hv.given_snoc hp hread
  photos_nodup := hv.photos_nodup
  photos := fun photo hphoto =>
    have ⟨hgiven, hrest⟩ := hv.photos photo hphoto
    ⟨List.mem_append_left _ hgiven, hrest⟩
  failed := fun k hk => ⟨List.mem_append_left _ (hv.failed k hk).1, (hv.failed k hk).2⟩

/-- A photo whose download starts. -/
theorem Screen.Ok.download {key : Nat} (hnew : key ∉ v.given) {sender : Int32} {path : String}
    (hp : node.lookup key = some ⟨sender, .photo path⟩) {photo : Photo}
    (hphoto : photo = ⟨key, path, some (Swift.string sender), some (Swift.string sender)⟩) :
    Screen.Ok images node { v with
      chat := { v.chat with photos := v.chat.photos ++ [photo] }, given := v.given ++ [key] } := by
  obtain ⟨-, hphotos, hfailed⟩ := hv.key_new hnew
  have hkey : photo.key = key := by rw [hphoto]
  have hkeys : ∀ k, k ∈ (v.chat.photos ++ [photo]).map (·.key) ↔
      k ∈ v.chat.photos.map (·.key) ∨ k = key := by simp [hkey, eq_comm]
  refine ⟨⟨fun k message => ?_, hv.shows.once, ?_⟩, hv.given_snoc hp trivial,
    Requests.nodup_snoc hv.photos_nodup (hkey ▸ hphotos), ?_, ?_⟩
  · rw [hv.shows.exact]
    refine and_congr_left fun _ => ?_
    show v.Settled k ↔ k ∈ v.given ++ [key] ∧ k ∉ List.map _ _ ∧ k ∉ v.failed
    rw [hkeys, Screen.Settled, List.mem_append, List.mem_singleton]
    constructor
    · rintro ⟨hgiven, hnot, hfail⟩
      have hne : k ≠ key := fun heq => hnew (heq ▸ hgiven)
      exact ⟨.inl hgiven, by simp [hnot, hne], hfail⟩
    · rintro ⟨hgiven, hnot, hfail⟩
      rw [not_or] at hnot
      exact ⟨hgiven.resolve_right hnot.2, hnot.1, hfail⟩
  · show _ = (v.given ++ [key]).filter _
    have hnone : (node.lookup key).any (·.hasText v.chat.userId) = false := by
      rw [hp]
      rfl
    rw [List.filter_append, List.filter_singleton, hnone, ← hv.shows.texts]
    simp
  · show ∀ other ∈ v.chat.photos ++ [photo], _
    rw [List.forall_mem_append, List.forall_mem_singleton, hkey]
    refine ⟨fun other hother => ?_, List.mem_append_right _ (List.mem_singleton_self key), sender,
      path, hp, hphoto⟩
    obtain ⟨hgiven, hrest⟩ := hv.photos other hother
    exact ⟨List.mem_append_left _ hgiven, hrest⟩
  · intro k hk
    obtain ⟨hgiven, hnot⟩ := hv.failed k hk
    refine ⟨List.mem_append_left _ hgiven, ?_⟩
    rw [hkeys, not_or]
    exact ⟨hnot, fun heq => hnew (heq ▸ hgiven)⟩

/-- The screen serves a record that is not a voice record without a text. -/
theorem Screen.Ok.childAdded {key : Nat} {p : Post} (hnew : key ∉ v.given)
    (hp : node.lookup key = some p) (hvalid : p.Valid images) (hread : p.Readable) :
    ∃ v', v.childAdded node key = some v' ∧ v'.Ok images node := by
  have hstep : v.childAdded node key =
      some { v with chat := v.chat.react key (p.reaction v.chat.userId), given := v.given ++ [key] } := by
    simp [Screen.childAdded, hp, ChatScreen.childAdded, childAdded_value hvalid hread]
  refine ⟨_, hstep, ?_⟩
  by_cases hphoto : ∃ path, p.body = .photo path
  · obtain ⟨path, hbody⟩ := hphoto
    obtain ⟨sender, body⟩ := p
    subst hbody
    exact hv.download hnew hp rfl
  · have hbody : ∀ path, p.body ≠ .photo path := fun path hbody => hphoto ⟨path, hbody⟩
    rw [reaction_text images hbody]
    cases hmessage : p.message images v.chat.userId with
    | none => exact hv.nothing hp hread hmessage
    | some message => exact hv.bubble hnew hp hread (hasText_of_message hbody hmessage) hmessage

/-- A download that completes shows its photo. -/
theorem Screen.Ok.downloaded (hnode : ∀ key p, node.lookup key = some p → p.Valid images) {key : Nat}
    (hkey : key ∈ v.chat.photos.map (·.key)) :
    ∃ v', v.downloaded images key = some v' ∧ v'.Ok images node := by
  obtain ⟨photo, hmem, rfl, hfind⟩ := Requests.find_mem hkey
  obtain ⟨hgiven, sender, path, hp, hphoto⟩ := hv.photos photo hmem
  obtain ⟨image, himage⟩ : ∃ image, images path = some image :=
    Option.ne_none_iff_exists'.1 (hnode _ _ hp).2
  have hpath : photo.path = path := by rw [hphoto]
  have hsender : photo.senderId = some (Swift.string sender) ∧
      photo.displayName = some (Swift.string sender) := by
    rw [hphoto]
    exact ⟨rfl, rfl⟩
  have hmessage : Post.message images v.chat.userId ⟨sender, .photo path⟩ =
      some ⟨Swift.string sender, Swift.string sender, .photo image⟩ := by
    simp [Post.message, Post.content, himage]
  generalize hm : (⟨Swift.string sender, Swift.string sender, .photo image⟩ : JSQMessage) = message
    at hmessage
  have hstep : v.downloaded images photo.key = some { v with chat :=
      { v.chat.dropPhoto photo.key with messages := v.chat.messages ++ [(photo.key, message)] } } := by
    simp [Screen.downloaded, hfind, ChatScreen.downloaded, hpath, himage, hsender, hm]
  refine ⟨_, hstep, ?_⟩
  have hnew : photo.key ∉ v.chat.messages.map Prod.fst := by
    intro hshown
    obtain ⟨entry, hentry, heq⟩ := List.mem_map.1 hshown
    exact ((hv.shows.exact entry.1 entry.2).1 hentry).1.2.1 (heq ▸ hkey)
  have hfailed : photo.key ∉ v.failed := fun hfail => (hv.failed _ hfail).2 hkey
  refine ⟨⟨fun k shown => ?_, Requests.nodup_snoc hv.shows.once hnew, ?_⟩, hv.given,
    Requests.nodup_drop hv.photos_nodup _, fun other hother => ?_, fun k hk => ?_⟩
  · show (k, shown) ∈ v.chat.messages ++ [(photo.key, message)] ↔ (k ∈ v.given ∧
      k ∉ (v.chat.dropPhoto photo.key).photos.map (·.key) ∧ k ∉ v.failed) ∧
        ∃ p, node.lookup k = some p ∧ p.message images v.chat.userId = some shown
    rw [List.mem_append, List.mem_singleton, Prod.mk.injEq, hv.shows.exact, Display.mem_dropPhoto]
    by_cases hk : k = photo.key
    · subst hk
      have hloading : ¬v.Settled photo.key := fun hsettled => hsettled.2.1 hkey
      simp [hloading, hgiven, hfailed, hp, hmessage, eq_comm]
    · simp [Screen.Settled, hk]
  · show ((v.chat.messages ++ [(photo.key, message)]).filter (isText ·.2)).map Prod.fst = _
    have hphotoBubble : isText message = false := by
      rw [← hm]
      rfl
    rw [List.filter_append, List.map_append, hv.shows.texts]
    simp [hphotoBubble, ChatScreen.dropPhoto]
  · exact hv.photos other (Requests.mem_drop.1 hother).1
  · obtain ⟨hlt, hnot⟩ := hv.failed k hk
    exact ⟨hlt, fun hmem => hnot (Display.mem_dropPhoto.1 hmem).1⟩

/-- A download that fails leaves its photo out. -/
theorem Screen.Ok.downloadFailed {key : Nat} (hkey : key ∈ v.chat.photos.map (·.key)) :
    (v.downloadFailed key).Ok images node := by
  obtain ⟨photo, hmem, rfl, -⟩ := Requests.find_mem hkey
  obtain ⟨hgiven, -⟩ := hv.photos photo hmem
  refine ⟨⟨fun k shown => ?_, hv.shows.once, hv.shows.texts⟩, hv.given,
    Requests.nodup_drop hv.photos_nodup _, fun other hother => ?_, fun k hk => ?_⟩
  · show (k, shown) ∈ v.chat.messages ↔ (k ∈ v.given ∧
      k ∉ (v.chat.dropPhoto photo.key).photos.map (·.key) ∧ k ∉ v.failed ++ [photo.key]) ∧
        ∃ p, node.lookup k = some p ∧ p.message images v.chat.userId = some shown
    rw [hv.shows.exact, Display.mem_dropPhoto, List.mem_append, List.mem_singleton]
    refine and_congr_left fun _ => ?_
    by_cases hk : k = photo.key
    · subst hk
      have hloading : ¬v.Settled photo.key := fun hsettled => hsettled.2.1 hkey
      simp [hloading]
    · simp [Screen.Settled, hk]
  · exact hv.photos other (Requests.mem_drop.1 hother).1
  · show k ∈ v.given ∧ k ∉ (v.chat.dropPhoto photo.key).photos.map (·.key)
    rw [Display.mem_dropPhoto]
    obtain hk | hk := List.mem_append.1 hk
    · exact ⟨(hv.failed k hk).1, fun h => (hv.failed k hk).2 h.1⟩
    · obtain rfl := List.mem_singleton.1 hk
      exact ⟨hgiven, fun h => h.2 rfl⟩

end Ok

/-! ## All screens -/

/-- Of a record that both screens were given, and whose photo neither waits for or has missed, they
    show the same photo, or the text and its translation. -/
def Agree (images : String → Option UIImage) (node : Node) (v w : Screen) : Prop :=
  ∀ key p, node.lookup key = some p → v.Settled key → w.Settled key →
    match p.body with
    | .photo path => ∃ image, images path = some image ∧
        (key, ⟨Swift.string p.sender, Swift.string p.sender, .photo image⟩) ∈ v.chat.messages ∧
        (key, ⟨Swift.string p.sender, Swift.string p.sender, .photo image⟩) ∈ w.chat.messages
    | .text own translation | .voice own translation =>
      p.sender = v.chat.userId → p.sender ≠ w.chat.userId →
        (key, ⟨Swift.string p.sender, Swift.string p.sender, .text own⟩) ∈ v.chat.messages ∧
        (translation ≠ "" →
          (key, ⟨Swift.string p.sender, Swift.string p.sender, .text translation⟩) ∈ w.chat.messages)

structure Inv (images : String → Option UIImage) (s : State) : Prop where
  valid : ∀ key p, s.node.lookup key = some p → p.Valid images
  screens : ∀ v ∈ s.screens, v.Ok images s.node

/-- One screen changes. -/
theorem Inv.set {s : State} (h : Inv images s) {v : Screen} (hv : v.Ok images s.node) (i : Nat) :
    Inv images { s with screens := s.screens.set i v } :=
  ⟨h.valid, Swift.forall_mem_set h.screens hv i⟩

/-- A step traps where a screen is given a voice record without a text, and keeps the invariant
    otherwise. -/
theorem inv_step {s : State} (h : Inv images s) {e : Event} (he : Enabled images s e) :
    (GivesReadable s e → ∃ s', step images s e = some s' ∧ Inv images s') ∧
      (¬ GivesReadable s e → step images s e = none) := by
  cases e with
  | setValue key p =>
    refine ⟨fun _ => ⟨_, rfl, fun k q hq => ?_, fun v hv => (h.screens v hv).setValue key p⟩,
      fun hno => absurd trivial hno⟩
    rw [List.lookup_append, Option.or_eq_some_iff] at hq
    rcases hq with hold | ⟨-, hnew⟩
    · exact h.valid k q hold
    · -- the new record
      by_cases hk : k = key
      · simp only [hk, List.lookup_cons_self, Option.some.injEq] at hnew
        exact hnew ▸ he.2
      · simp [List.lookup_cons, beq_eq_false_iff_ne.2 hk] at hnew
  | initChat userId =>
    refine ⟨fun _ => ⟨_, rfl, h.valid, ?_⟩, fun hno => absurd trivial hno⟩
    show ∀ v ∈ s.screens ++ [_], _
    rw [List.forall_mem_append, List.forall_mem_singleton]
    exact ⟨h.screens, ok_initChat userId s.node⟩
  | childAdded i key =>
    obtain ⟨hthere, v, hv, hnew⟩ := he
    obtain ⟨p, hp⟩ := Option.ne_none_iff_exists'.1 hthere
    have hok := h.screens v (List.mem_of_getElem? hv)
    have hstep : step images s (.childAdded i key) = (v.childAdded s.node key).map fun v' =>
        { s with screens := s.screens.set i v' } := by
      simp [step, Option.mem_def.1 hv, Option.map_eq_bind]
    have hiff : GivesReadable s (.childAdded i key) ↔ p.Readable := by simp [GivesReadable, hp]
    rw [hstep, hiff]
    refine ⟨fun hread => ?_, fun hread => ?_⟩
    · obtain ⟨v', hv', hok'⟩ := hok.childAdded hnew hp (h.valid key p hp) hread
      exact ⟨_, by rw [hv', Option.map_some], h.set hok' i⟩
    · rw [childAdded_trap hp hread, Option.map_none]
  | downloaded i key =>
    obtain ⟨v, hv, hkey⟩ := he
    obtain ⟨v', hv', hok⟩ := (h.screens v (List.mem_of_getElem? hv)).downloaded h.valid hkey
    refine ⟨fun _ => ⟨_, ?_, h.set hok i⟩, fun hno => absurd trivial hno⟩
    simp [step, Option.mem_def.1 hv, hv']
  | downloadFailed i key =>
    obtain ⟨v, hv, hkey⟩ := he
    have hok := (h.screens v (List.mem_of_getElem? hv)).downloadFailed hkey
    refine ⟨fun _ => ⟨_, ?_, h.set hok i⟩, fun hno => absurd trivial hno⟩
    simp [step, Option.mem_def.1 hv]

theorem keep_step {s s' : State} (h : Inv images s) {e : Event} (he : Enabled images s e)
    (hs' : step images s e = some s') : Inv images s' := by
  by_cases hread : GivesReadable s e
  · obtain ⟨t, ht, hinv⟩ := (inv_step h he).1 hread
    cases ht.symm.trans hs'
    exact hinv
  · cases ((inv_step h he).2 hread).symm.trans hs'

theorem agree_of_ok {node : Node} (hnode : ∀ key p, node.lookup key = some p → p.Valid images)
    {v w : Screen} (hv : v.Ok images node) (hw : w.Ok images node) : Agree images node v w := by
  intro key p hp hsv hsw
  have hvalid := hnode key p hp
  obtain ⟨q, hq, hread⟩ := hv.given key hsv.1
  obtain rfl : p = q := Option.some.inj (hp.symm.trans hq)
  have hown : ∀ own translation, (p.body = .text own translation ∨ p.body = .voice own translation) →
      own ≠ "" := by
    rintro own translation (hbody | hbody)
    · simpa [Post.Valid, hbody] using hvalid
    · simpa [Post.Readable, hbody] using hread
  obtain ⟨sender, body⟩ := p
  cases body with
  | photo path =>
    obtain ⟨image, himage⟩ := Option.ne_none_iff_exists'.1 hvalid.2
    refine ⟨image, himage, (hv.shows.exact _ _).2 ⟨hsv, _, hp, ?_⟩,
      (hw.shows.exact _ _).2 ⟨hsw, _, hp, ?_⟩⟩ <;> simp [Post.message, Post.content, himage]
  | text own translation | voice own translation =>
    intro hsender hother
    have htext : own ≠ "" := hown own translation (by simp)
    refine ⟨(hv.shows.exact _ _).2 ⟨hsv, _, hp, ?_⟩,
      fun hne => (hw.shows.exact _ _).2 ⟨hsw, _, hp, ?_⟩⟩
    · simp [Post.message, Post.content, ← hsender, htext]
    · have hlanguage : (if sender = w.chat.userId then own else translation) = translation :=
        if_neg hother
      simp [Post.message, Post.content, hlanguage, hne]

/-- The bubbles of the own records are the outgoing ones. -/
theorem outgoing_iff {node : Node} {v : Screen} (hv : Shows images node v) {key : Nat}
    {message : JSQMessage} (h : (key, message) ∈ v.chat.messages) :
    v.outgoing message = true ↔ ∃ p, node.lookup key = some p ∧ p.sender = v.chat.userId := by
  obtain ⟨-, p, hp, hmessage⟩ := (hv.exact key message).1 h
  obtain ⟨content, -, rfl⟩ := Option.map_eq_some_iff.1 hmessage
  simp [Screen.outgoing, Swift.string_inj, hp]

theorem init_inv : Inv images State.init := ⟨nofun, nofun⟩

/-- **Both ends read one conversation.** A run traps just where a screen is given a voice record
    without a text; where it does not, every screen shows what it is to show, and any two agree. -/
theorem history_run (run : Runs.Schedule (step images) (Enabled images) State.init) :
    ((∃ s, Runs.exec (step images) State.init run.events = some s) ↔
      Runs.Along (step images) GivesReadable State.init run.events) ∧
    ∀ s, Runs.exec (step images) State.init run.events = some s →
      (∀ v ∈ s.screens, Shows images s.node v ∧ ∀ key message, (key, message) ∈ v.chat.messages →
        (v.outgoing message = true ↔
          ∃ p, s.node.lookup key = some p ∧ p.sender = v.chat.userId)) ∧
      ∀ v ∈ s.screens, ∀ w ∈ s.screens, Agree images s.node v w := by
  refine ⟨?_, fun s hs => ?_⟩
  · have hall : Runs.Throughout (step images) (fun _ => True) State.init run.events :=
      Runs.throughout_ok (I := fun _ => True) (fun _ _ _ _ _ _ => trivial) (fun _ _ => trivial) trivial
        run.enabled
    rw [← and_iff_left (a := ∃ s, _) hall]
    refine Runs.safe_iff_along (fun s e hI he => ⟨fun h => ?_, fun hC => ?_⟩)
      (fun s e s' hI he _ hs' => keep_step hI he hs') (fun _ _ => trivial) init_inv run.enabled
    · obtain ⟨s', hs', -⟩ := h
      by_contra hno
      cases ((inv_step hI he).2 hno).symm.trans hs'
    · obtain ⟨s', hs', -⟩ := (inv_step hI he).1 hC
      exact ⟨s', hs', trivial⟩
  · have hinv : Inv images s := (Runs.exec_iff_along_trap (G := fun _ => True) (C := fun _ _ => True)
      (fun s e s' hI he hs' => ⟨keep_step hI he hs', by simp⟩) init_inv run.enabled hs).1
    refine ⟨fun v hv => ?_, fun v hv w hw => agree_of_ok hinv.valid (hinv.screens v hv) (hinv.screens w hw)⟩
    have hshows := (hinv.screens v hv).shows
    exact ⟨hshows, fun key message h => outgoing_iff hshows h⟩

/-- One photo is stored. -/
def onePhoto (path : String) : Option UIImage := if path = "a.jpg" then some ⟨some []⟩ else none

/-- The user 2 writes a text, and the user 3 answers by voice with a record whose key was taken first;
    then a photo is sent, which one of the screens has downloaded. -/
def answered : List Event :=
  [.initChat 2, .initChat 3, .setValue 5 ⟨2, .text "hi" "hallo"⟩, .childAdded 0 5, .childAdded 1 5,
   .setValue 4 ⟨3, .voice "ja" "yes"⟩, .childAdded 0 4, .childAdded 1 4,
   .setValue 6 ⟨2, .photo "a.jpg"⟩, .childAdded 0 6, .childAdded 1 6, .downloaded 1 6]

/-- Each reads the other in his language, in the order of arrival. -/
theorem history_answered :
    (Runs.exec (step onePhoto) State.init answered).map (·.screens.map fun v =>
        v.chat.messages.map fun m => (m.1, m.2.content)) =
      some [[(5, .text "hi"), (4, .text "yes")],
        [(5, .text "hallo"), (4, .text "ja"), (6, .photo ⟨some []⟩)]] ∧
    ∃ s, Runs.exec (step onePhoto) State.init answered = some s ∧
      (∀ v ∈ s.screens, Shows onePhoto s.node v) ∧
      ∀ v ∈ s.screens, ∀ w ∈ s.screens, Agree onePhoto s.node v w := by
  obtain ⟨hexec, hshows⟩ := history_run (⟨answered, by decide⟩ : Runs.Schedule (step onePhoto)
    (Enabled onePhoto) State.init)
  obtain ⟨s, hs⟩ := hexec.mpr (by decide)
  obtain ⟨hscreens, hagree⟩ := hshows s hs
  exact ⟨by decide, s, hs, fun v hv => (hscreens v hv).1, hagree⟩

/-- The text of a voice message was cleared by the one before, and the record traps the screens. -/
example : Runs.exec (step onePhoto) State.init
    [.setValue 0 ⟨3, .voice "" "yes"⟩, .initChat 2, .childAdded 0 0] = none := by
  decide

end Shiftgram.History
