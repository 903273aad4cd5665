import Shiftgram.ChatScreen

/- The chat screen as a reader of whatever a child of the conversation holds. A record has up to three
   payloads, of which the photo goes before the voice message and that before the text, and the last
   two have a field for the sender and one for everybody else.

   `readable_iff`: the closure of `initChat` serves a record exactly if it has a photo, or has the
   field that this viewer reads and, unless that field is empty, a sender and a name. The closure asks
   for the text with `!(text?.isEmpty)! && text != nil`, which unwraps before it compares. -/
namespace Shiftgram

namespace ChatReader

/-- A value that is there and not empty. -/
def filled (data : Swift.Dictionary) (key : String) : Option String :=
  (data.value key).filter (!·.isEmpty)

/-- The field with the text for the viewer. -/
def field (userId : Int32) (data : Swift.Dictionary) : String :=
  let isOwn := data.value "sender_id" == some (Swift.string userId)
  match filled data "audio" with
  | some _ => if isOwn then "ownAudio" else "transAudio"
  | none => if isOwn then "ownText" else "transText"

/-- From `s` to `s'` one download is started for a photo, one bubble appended for a text, and nothing
    is done without either. -/
def Served (s : ChatScreen) (key : Nat) (data : Swift.Dictionary) (s' : ChatScreen) : Prop :=
  match filled data "photo", filled data (field s.userId data) with
  | some path, _ => ∃ id name, s' = { s with photos := s.photos ++ [⟨key, path, id, name⟩] }
  | none, some text => ∃ message : JSQMessage, message.content = .text text ∧
      s' = { s with messages := s.messages ++ [(key, message)] }
  | none, none => s' = s

/-- A photo is there, or the viewer's text is, and where it is not empty so are its sender and name. -/
def Readable (userId : Int32) (data : Swift.Dictionary) : Prop :=
  filled data "photo" ≠ none ∨ ∃ text, data.value (field userId data) = some text ∧
    (text = "" ∨ (data.value "sender_id" ≠ none ∧ data.value "name" ≠ none))

variable {userId : Int32} {data : Swift.Dictionary}

theorem filled_of_value {key text : String} (h : data.value key = some text) :
    filled data key = if text = "" then none else some text := by
  rw [filled, h, Option.filter_some]
  by_cases hempty : text = ""
  · simp [hempty]
  · simp [hempty]

/-- Without a photo the closure appends the text of the viewer's field. -/
theorem childAdded_field (h : filled data "photo" = none) :
    ChatViewController.childAdded userId data = ChatViewController.appendText (data.value "sender_id")
      (data.value "name") (data.value (field userId data)) := by
  unfold filled at h
  unfold ChatViewController.childAdded field filled
  rw [h]
  dsimp only
  -- the closure reads the typed text first, and leaves it for the voice text if there is an audio
  cases (data.value "audio").filter (!·.isEmpty) <;>
    cases data.value "sender_id" == some (Swift.string userId) <;> rfl

theorem childAdded_photo {path : String} (h : filled data "photo" = some path) :
    ChatViewController.childAdded userId data =
      some (.download path (data.value "sender_id") (data.value "name")) := by
  unfold filled at h
  unfold ChatViewController.childAdded
  rw [h]

/-- A text needs to be there, and unless it is empty a sender and a name. -/
theorem appendText_iff (id name text : Option String) :
    (∃ reaction, ChatViewController.appendText id name text = some reaction) ↔
      ∃ t, text = some t ∧ (t = "" ∨ (id ≠ none ∧ name ≠ none)) := by
  cases text with
  | none => simp [ChatViewController.appendText]
  | some t =>
    by_cases hempty : t = ""
    · simp [ChatViewController.appendText, hempty]
    · cases id <;> cases name <;> simp [ChatViewController.appendText, hempty]

/-- What is appended is the text. -/
theorem appendText_served {s : ChatScreen} {key : Nat} {reaction : Reaction}
    (hphoto : filled data "photo" = none)
    (h : ChatViewController.appendText (data.value "sender_id") (data.value "name")
      (data.value (field s.userId data)) = some reaction) :
    Served s key data (s.react key reaction) := by
  obtain ⟨text, htext, -⟩ := (appendText_iff _ _ _).mp ⟨reaction, h⟩
  unfold Served
  rw [hphoto, filled_of_value htext]
  rw [htext] at h
  by_cases hempty : text = ""
  · rw [if_pos hempty]
    simp only [ChatViewController.appendText, hempty] at h
    obtain rfl := Option.some.inj h
    rfl
  · rw [if_neg hempty]
    simp only [ChatViewController.appendText, Option.bind_eq_bind, Option.bind_some,
      String.isEmpty_iff, hempty, if_false, Option.bind_eq_some_iff] at h
    obtain ⟨id, -, name, -, h⟩ := h
    obtain rfl := Option.some.inj h
    exact ⟨⟨id, name, .text text⟩, rfl, rfl⟩

/-- For every viewer and every record: the closure ends, with one download, one bubble or nothing as
    the record has a photo, a text or neither, exactly if the record is readable. -/
theorem readable_iff (s : ChatScreen) (key : Nat) (data : Swift.Dictionary) :
    (∃ s', s.childAdded key data = some s' ∧ Served s key data s') ↔ Readable s.userId data := by
  unfold Readable ChatScreen.childAdded
  cases hphoto : filled data "photo" with
  | some path =>
    rw [childAdded_photo hphoto]
    refine iff_of_true ⟨_, rfl, ?_⟩ (.inl (Option.some_ne_none path))
    unfold Served
    rw [hphoto]
    exact ⟨_, _, rfl⟩
  | none =>
    rw [childAdded_field hphoto, or_iff_right (fun h => h rfl), ← appendText_iff]
    refine ⟨?_, ?_⟩
    · intro h
      obtain ⟨s', hs', -⟩ := h
      obtain ⟨reaction, hreaction, -⟩ := Option.map_eq_some_iff.mp hs'
      exact ⟨reaction, hreaction⟩
    · intro h
      obtain ⟨reaction, hreaction⟩ := h
      exact ⟨s.react key reaction, by rw [hreaction, Option.map_some],
        appendText_served hphoto hreaction⟩

/-- A friend's record with nothing but a sender and a name. -/
theorem bareRecord_traps :
    ChatScreen.childAdded ⟨3, [], []⟩ 1 [("sender_id", "2"), ("name", "2")] = none ∧
      ¬ ∃ s', ChatScreen.childAdded ⟨3, [], []⟩ 1 [("sender_id", "2"), ("name", "2")] = some s' ∧
        Served ⟨3, [], []⟩ 1 [("sender_id", "2"), ("name", "2")] s' := by
  have htrap : ChatScreen.childAdded ⟨3, [], []⟩ 1 [("sender_id", "2"), ("name", "2")] = none := by
    decide
  refine ⟨htrap, fun h => ?_⟩
  obtain ⟨s', hs', -⟩ := h
  rw [htrap] at hs'
  cases hs'

end ChatReader

end Shiftgram
