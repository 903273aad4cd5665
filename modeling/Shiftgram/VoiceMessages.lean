import Shiftgram.Runs
import Shiftgram.SharedCell
import Shiftgram.Requests
import Shiftgram.ConversationName

/- Voice messages of the chat screen and of the two call screens. All three record in the same way
   (`startRecording`): the recogniser's handler keeps overwriting the field `speechText`. When the
   recording stops, the screen asks the server for the friend's language, then the translator for a
   translation, and writes a message. The callbacks run later and in any order, and each reads
   `speechText` anew.

   The screens differ in where they write, in their keys and in three decisions:
     * the chat asks for the language only if `speechText` is not empty;
     * the chat and the audio call write at once if both languages are the same;
     * the audio call writes nothing for an empty translation.

   Assumed: callbacks are atomic, each comes at most once, the language response is well formed, a
   speech recogniser for the locale exists, and installing a tap on a bus that has one traps.
   The audio session, the buttons and the recording view do not enter the messages. -/
namespace Shiftgram

structure SFSpeechRecognitionResult where
  /-- `bestTranscription.formattedString` -/
  formattedString : String
  isFinal : Bool
  deriving DecidableEq, Repr

namespace Voice

/-- The fields of a screen that recording uses. A session is a call of `startRecording`. -/
structure Recorder where
  speechText : String
  /-- `audioEngine.isRunning` -/
  isRunning : Bool
  /-- A tap is installed on bus 0 of the input node. -/
  tap : Bool
  recognitionRequest : Option Nat
  recognitionTask : Option Nat
  sessions : Nat
  deriving DecidableEq

/-- `starts` says whether `audioEngine.start()` succeeds. -/
def Recorder.startRecording (r : Recorder) (starts : Bool) : Option Recorder :=
  if r.tap then none
  else some { r with
    recognitionRequest := some r.sessions
    recognitionTask := some r.sessions
    tap := true
    isRunning := starts || r.isRunning
    sessions := r.sessions + 1 }

/-- The closure passed to `recognitionTask(with:resultHandler:)`. -/
def Recorder.resultHandler (r : Recorder) (result : Option SFSpeechRecognitionResult)
    (error : Bool) : Recorder :=
  let heard := match result with
    | some result => { r with speechText := result.formattedString }
    | none => r
  if error || result.any (·.isFinal) then
    -- whichever session the closure belongs to
    { heard with isRunning := false, tap := false, recognitionRequest := none, recognitionTask := none }
  else heard

inductive Screen
  | chat | audio | video
  deriving DecidableEq, Repr

namespace Screen

def channel : Screen → Channel
  | chat => .messages
  | audio => .audio
  | video => .video

def asksForEmpty : Screen → Bool
  | chat => false
  | audio | video => true

def comparesLanguage : Screen → Bool
  | chat | audio => true
  | video => false

def writesEmpty : Screen → Bool
  | chat | video => true
  | audio => false

/-- The message with the transcript `own` and the translation `trans`. -/
def message (screen : Screen) (user own trans : String) : Swift.Dictionary :=
  match screen with
  | chat => [("sender_id", user), ("name", user), ("audio", own), ("ownAudio", own), ("transAudio", trans)]
  | audio | video => [("sender_id", user), ("ownText", own), ("transText", trans)]

def ownKey : Screen → String
  | chat => "ownAudio"
  | audio | video => "ownText"

def transKey : Screen → String
  | chat => "transAudio"
  | audio | video => "transText"

end Screen

/-- A language request under way. -/
structure Asked where
  token : Nat
  session : Nat
  friend : Int
  deriving DecidableEq

/-- A translation under way. -/
structure Translating where
  /-- The key `childByAutoId` gave; keys are numbered in the order they are given. -/
  ref : Nat
  session : Nat
  params : ROGoogleTranslateParams
  deriving DecidableEq

/-- A message set at its key. -/
structure Message where
  ref : Nat
  session : Nat
  /-- What the translator was asked for, nothing where the languages are the same. -/
  params : Option ROGoogleTranslateParams
  value : Swift.Dictionary
  deriving DecidableEq

structure State where
  recorder : Recorder
  /-- Language requests so far. -/
  requests : Nat
  /-- Keys given so far. -/
  refs : Nat
  asked : List Asked
  translating : List Translating
  /-- `conversationName` with the channel's suffix, in the order of writing. -/
  messages : List Message
  deriving DecidableEq

def State.init : State := ⟨⟨"", false, false, none, none, 0⟩, 0, 0, [], [], []⟩

/-- `self.speechText = text` -/
def State.setText (s : State) (text : String) : State :=
  { s with recorder := { s.recorder with speechText := text } }

variable (d : Device) (screen : Screen)

/-- `userDM.getFriendLanguage(id: frId)` -/
def getFriendLanguage (s : State) : Option State :=
  (frId d.peers.conversationName d.peers.own.toInt).map fun friend =>
    { s with
      requests := s.requests + 1
      asked := s.asked ++ [⟨s.requests, s.recorder.sessions - 1, friend⟩] }

/-- `audioEngine.stop()` -/
def State.stopEngine (s : State) : State :=
  { s with recorder := { s.recorder with isRunning := false } }

/-- The end of a recording, once `audioEngine.isRunning` has been checked. -/
def stopRecording (s : State) : Option State :=
  if screen.asksForEmpty || !s.recorder.speechText.isEmpty then getFriendLanguage d s.stopEngine
  else some s.stopEngine

/-- The completion of `getFriendLanguage`. -/
def languageAnswered (s : State) (a : Asked) (value : String) : State :=
  let text := s.recorder.speechText
  let given := { s with asked := Requests.drop (·.token) s.asked a.token, refs := s.refs + 1 }
  if screen.comparesLanguage && d.language == value then
    State.setText { given with
      messages := s.messages ++ [⟨s.refs, a.session, none, screen.message d.user text text⟩] } ""
  else
    { given with translating := s.translating ++ [⟨s.refs, a.session, ⟨d.language, value, text⟩⟩] }

/-- The callback of `translate`. -/
def translated (s : State) (t : Translating) : State :=
  let value := d.translate t.params
  let done := { s with translating := Requests.drop (·.ref) s.translating t.ref }
  if screen.writesEmpty || !value.isEmpty then
    State.setText { done with
      messages := s.messages ++
        [⟨t.ref, t.session, some t.params, screen.message d.user s.recorder.speechText value⟩] } ""
  else done

/-- What the user does: the two ends of a long press in the chat, a tap in a call. -/
inductive Gesture
  | began | ended | tap
  deriving DecidableEq

def State.startRecording (s : State) (starts : Bool) : Option State :=
  (s.recorder.startRecording starts).map fun r => { s with recorder := r }

def ChatViewController.longPressedButton (s : State) (starts : Bool) : Gesture → Option State
  | .began => s.startRecording starts
  | .ended => if s.recorder.isRunning then stopRecording d .chat s else some s
  | .tap => some s

def AudioViewController.sendText (s : State) (starts : Bool) : Option State :=
  if s.recorder.isRunning then stopRecording d .audio s else s.startRecording starts

def VideoViewController.tapGestureRecroding (s : State) (starts : Bool) : Option State :=
  if s.recorder.isRunning then stopRecording d .video s else s.startRecording starts

inductive Event
  | gesture (g : Gesture) (starts : Bool)
  | recogniser (session : Nat) (result : Option SFSpeechRecognitionResult) (error : Bool)
  | language (token : Nat) (value : String)
  | translator (ref : Nat)
  deriving DecidableEq

def step (s : State) : Event → Option State
  | .gesture g starts =>
    match screen with
    | .chat => ChatViewController.longPressedButton d s starts g
    | .audio => AudioViewController.sendText d s starts
    | .video => VideoViewController.tapGestureRecroding d s starts
  | .recogniser _ result error => some { s with recorder := s.recorder.resultHandler result error }
  | .language token value =>
    (Requests.find (·.token) s.asked token).map fun a => languageAnswered d screen s a value
  | .translator ref => (Requests.find (·.ref) s.translating ref).map (translated d screen s)

/-- Sessions that have begun report, and requests that are under way are answered. -/
def Enabled (s : State) : Event → Prop
  | .gesture g _ => if screen = .chat then g ≠ .tap else g = .tap
  | .recogniser session _ _ => session < s.recorder.sessions
  | .language token _ => token ∈ s.asked.map (·.token)
  | .translator ref => ref ∈ s.translating.map (·.ref)

instance (s : State) (e : Event) : Decidable (Enabled screen s e) :=
  match e with
  | .gesture g _ => inferInstanceAs (Decidable (if screen = .chat then g ≠ .tap else g = .tap))
  | .recogniser session _ _ => inferInstanceAs (Decidable (session < s.recorder.sessions))
  | .language token _ => inferInstanceAs (Decidable (token ∈ s.asked.map (·.token)))
  | .translator ref => inferInstanceAs (Decidable (ref ∈ s.translating.map (·.ref)))

/-! ## Pairing of transcript and translation -/

/-- The translation of a message is that of the transcript in the same message. -/
def Paired (m : Message) : Prop :=
  ∃ own trans, m.value.value screen.ownKey = some own ∧ m.value.value screen.transKey = some trans ∧
    match m.params with
    | none => trans = own
    | some params => trans = d.translate ⟨d.language, params.target, own⟩

/-- The callback of a translation that ends in a message. -/
def Writes (t : Translating) : Prop := screen.writesEmpty ∨ d.translate t.params ≠ ""

/-- The event can happen, and if it changes `speechText`, then not under a translation under way:
    a result repeats the text that is being translated, and a message is finished, which clears
    `speechText`, only while no other non-empty text is being translated. -/
def Quiet (s : State) (e : Event) : Prop :=
  Enabled screen s e ∧
    match e with
    | .gesture _ _ => True
    | .recogniser _ result _ =>
      ∀ r, result = some r → ∀ t ∈ s.translating, t.params.text = r.formattedString
    | .language _ value =>
      screen.comparesLanguage ∧ d.language = value → ∀ t ∈ s.translating, t.params.text = ""
    | .translator ref =>
      (∃ t ∈ s.translating, t.ref = ref ∧ Writes d screen t) →
        ∀ t ∈ s.translating, t.ref ≠ ref → t.params.text = ""

@[simp] theorem message_own (user own trans : String) :
    (screen.message user own trans).value screen.ownKey = some own := by
  cases screen <;> rfl

@[simp] theorem message_trans (user own trans : String) :
    (screen.message user own trans).value screen.transKey = some trans := by
  cases screen <;> rfl

/-- How messages come about. -/
structure Books (s : State) : Prop where
  source : ∀ t ∈ s.translating, t.params.source = d.language
  messages : ∀ m ∈ s.messages, ∃ own trans, m.value = screen.message d.user own trans ∧
    match m.params with
    | none => trans = own
    | some params => params.source = d.language ∧ trans = d.translate params

/-- A translation relies on `speechText` to be the text it was requested for. -/
def view (s : State) : SharedCell.Cell Nat String where
  value := s.recorder.speechText
  pending := {p | ∃ t ∈ s.translating, p = (t.ref, t.params.text)}
  reads := {r | ∃ m ∈ s.messages, ∃ params own, m.params = some params ∧
    m.value.value screen.ownKey = some own ∧ r = (m.ref, params.text, own)}

theorem getFriendLanguage_eq (s : State) :
    getFriendLanguage d s = some { s with
      requests := s.requests + 1
      asked := s.asked ++ [⟨s.requests, s.recorder.sessions - 1, d.peers.friend.toInt⟩] } := by
  rw [getFriendLanguage, frId_conversationName, Option.map_some]

/-- What a gesture leaves as it is. -/
structure Frame (s s' : State) : Prop where
  text : s'.recorder.speechText = s.recorder.speechText
  translating : s'.translating = s.translating
  messages : s'.messages = s.messages

variable {d screen}

theorem startRecording_frame {s s' : State} {starts : Bool} (h : s.startRecording starts = some s') :
    Frame s s' := by
  unfold State.startRecording Recorder.startRecording at h
  split at h
  · cases h
  · obtain rfl := Option.some.inj h
    exact ⟨rfl, rfl, rfl⟩

theorem stopRecording_frame {s s' : State} (h : stopRecording d screen s = some s') : Frame s s' := by
  unfold stopRecording at h
  split at h
  · rw [getFriendLanguage_eq] at h
    obtain rfl := Option.some.inj h
    exact ⟨rfl, rfl, rfl⟩
  · obtain rfl := Option.some.inj h
    exact ⟨rfl, rfl, rfl⟩

/-- The gesture starts a recording: a press in the chat, a tap while the engine stands in a call. -/
def Begins (screen : Screen) (s : State) (g : Gesture) : Prop :=
  if screen = .chat then g = .began else s.recorder.isRunning = false

instance (screen : Screen) (s : State) (g : Gesture) : Decidable (Begins screen s g) :=
  inferInstanceAs (Decidable (if screen = .chat then g = .began else s.recorder.isRunning = false))

/-- A gesture starts a recording, stops the one that runs or does nothing. -/
theorem gesture_eq (s : State) (g : Gesture) (starts : Bool) :
    step d screen s (.gesture g starts) =
      if Begins screen s g then s.startRecording starts
      else if s.recorder.isRunning = true ∧ (screen = .chat → g = .ended) then
        stopRecording d screen s
      else some s := by
  cases screen with
  | chat => cases g <;> simp [step, Begins, ChatViewController.longPressedButton]
  | audio =>
    cases hrunning : s.recorder.isRunning <;>
      simp [step, Begins, AudioViewController.sendText, hrunning]
  | video =>
    cases hrunning : s.recorder.isRunning <;>
      simp [step, Begins, VideoViewController.tapGestureRecroding, hrunning]

theorem gesture_frame {s s' : State} {g : Gesture} {starts : Bool}
    (h : step d screen s (.gesture g starts) = some s') : Frame s s' := by
  rw [gesture_eq] at h
  split at h
  · exact startRecording_frame h
  · split at h
    · exact stopRecording_frame h
    · exact Option.some.inj h ▸ ⟨rfl, rfl, rfl⟩

theorem view_frame {s s' : State} (h : Frame s s') : view screen s' = view screen s := by
  unfold view
  rw [h.text, h.translating, h.messages]

/-- Of the recorder, the callbacks of a message change at most `speechText`. -/
theorem languageAnswered_recorder (s : State) (a : Asked) (value : String) :
    ∃ text, (languageAnswered d screen s a value).recorder =
      { s.recorder with speechText := text } := by
  unfold languageAnswered
  dsimp only
  split
  · exact ⟨"", rfl⟩
  · exact ⟨s.recorder.speechText, rfl⟩

theorem translated_recorder (s : State) (t : Translating) :
    ∃ text, (translated d screen s t).recorder = { s.recorder with speechText := text } := by
  unfold translated
  dsimp only
  split
  · exact ⟨"", rfl⟩
  · exact ⟨s.recorder.speechText, rfl⟩

/-- A result overwrites `speechText`; an error alone does not. -/
theorem resultHandler_text (r : Recorder) (result : Option SFSpeechRecognitionResult) (error : Bool) :
    (r.resultHandler result error).speechText =
      (result.map (·.formattedString)).getD r.speechText := by
  unfold Recorder.resultHandler
  cases result <;> simp only [] <;> split <;> rfl

theorem view_recogniser (s : State) (result : Option SFSpeechRecognitionResult) (error : Bool) :
    view screen { s with recorder := s.recorder.resultHandler result error } =
      (view screen s).run ((result.map fun r => .write r.formattedString).toList) := by
  unfold view
  rw [resultHandler_text]
  cases result <;> rfl

theorem view_written {s : State} {a : Asked} {value : String}
    (h : screen.comparesLanguage ∧ d.language = value) :
    view screen (languageAnswered d screen s a value) = (view screen s).run [.write ""] := by
  have hif : (screen.comparesLanguage && d.language == value) = true := by simpa using h
  simp only [languageAnswered, hif, if_true, State.setText, view, SharedCell.run_cons,
    SharedCell.run_nil, SharedCell.Cell.step, SharedCell.Cell.mk.injEq, true_and]
  ext r
  simp only [Set.mem_ofPred_eq, List.mem_append, List.mem_singleton]
  grind

theorem view_requested {s : State} {a : Asked} {value : String}
    (h : ¬ (screen.comparesLanguage ∧ d.language = value)) :
    view screen (languageAnswered d screen s a value) =
      (view screen s).run [.rely s.refs s.recorder.speechText] := by
  have hif : (screen.comparesLanguage && d.language == value) = false := by simpa using h
  simp only [languageAnswered, hif, Bool.false_eq_true, if_false, view, SharedCell.run_cons,
    SharedCell.run_nil, SharedCell.Cell.step, SharedCell.Cell.mk.injEq, true_and, and_true]
  ext p
  simp only [Set.mem_ofPred_eq, Set.mem_insert_iff, List.mem_append, List.mem_singleton]
  grind

theorem view_translated {s : State} {t : Translating} (h : Writes d screen t) :
    view screen (translated d screen s t) =
      (view screen s).run [.read t.ref t.params.text, .write ""] := by
  have hif : (screen.writesEmpty || !(d.translate t.params).isEmpty) = true := by
    simpa [Writes] using h
  simp only [translated, hif, if_true, State.setText, view, SharedCell.run_cons,
    SharedCell.run_nil, SharedCell.Cell.step, SharedCell.Cell.mk.injEq, true_and]
  refine ⟨?_, ?_⟩
  · ext p
    simp only [Set.mem_ofPred_eq, Requests.mem_drop]
    grind
  · ext r
    simp only [Set.mem_ofPred_eq, Set.mem_insert_iff, List.mem_append, List.mem_singleton]
    refine ⟨?_, ?_⟩
    · intro h
      obtain ⟨m, hm | rfl, params, own, hparams, hown, hr⟩ := h
      · exact Or.inr ⟨m, hm, params, own, hparams, hown, hr⟩
      · obtain rfl := Option.some.inj hparams
        rw [message_own] at hown
        exact Or.inl (hr.trans (by rw [Option.some.inj hown]))
    · intro hr
      rcases hr with hr | ⟨m, hm, h⟩
      · exact ⟨_, Or.inr rfl, t.params, _, rfl, message_own screen _ _ _, hr⟩
      · exact ⟨m, Or.inl hm, h⟩

theorem view_dropped {s : State} {t : Translating} (h : ¬ Writes d screen t) :
    view screen (translated d screen s t) = (view screen s).run [.drop t.ref] := by
  have hif : (screen.writesEmpty || !(d.translate t.params).isEmpty) = false := by
    simpa [Writes] using h
  simp only [translated, hif, Bool.false_eq_true, if_false, view, SharedCell.run_cons,
    SharedCell.run_nil, SharedCell.Cell.step, SharedCell.Cell.mk.injEq, true_and, and_true]
  ext p
  simp only [Set.mem_ofPred_eq, Requests.mem_drop]
  grind

theorem asked_spec (d : Device) (screen : Screen) {s : State} {token : Nat}
    (h : token ∈ s.asked.map (·.token)) :
    ∃ a ∈ s.asked, a.token = token ∧ ∀ value,
      step d screen s (.language token value) = some (languageAnswered d screen s a value) := by
  obtain ⟨a, ha, hat, hfind⟩ := Requests.find_mem h
  refine ⟨a, ha, hat, fun value => ?_⟩
  show (Requests.find _ _ _).map _ = _
  rw [hfind, Option.map_some]

theorem translating_spec (d : Device) (screen : Screen) {s : State} {ref : Nat}
    (h : ref ∈ s.translating.map (·.ref)) :
    ∃ t ∈ s.translating, t.ref = ref ∧
      step d screen s (.translator ref) = some (translated d screen s t) := by
  obtain ⟨t, ht, htr, hfind⟩ := Requests.find_mem h
  refine ⟨t, ht, htr, ?_⟩
  show (Requests.find _ _ _).map _ = _
  rw [hfind, Option.map_some]

/-! ## Steps -/

theorem books_frame {s s' : State} (h : Frame s s') (hs : Books d screen s) : Books d screen s' where
  source := by rw [h.translating]; exact hs.source
  messages := by rw [h.messages]; exact hs.messages

theorem books_languageAnswered {s : State} (h : Books d screen s) (a : Asked) (value : String) :
    Books d screen (languageAnswered d screen s a value) := by
  unfold languageAnswered
  simp only []
  split
  · refine ⟨h.source, fun m hm => ?_⟩
    rcases List.mem_append.mp hm with hm | hm
    · exact h.messages m hm
    · rw [List.mem_singleton.mp hm]
      exact ⟨_, _, rfl, rfl⟩
  · refine ⟨fun t ht => ?_, h.messages⟩
    rcases List.mem_append.mp ht with ht | ht
    · exact h.source t ht
    · rw [List.mem_singleton.mp ht]

theorem books_translated {s : State} (h : Books d screen s) {t : Translating}
    (ht : t ∈ s.translating) : Books d screen (translated d screen s t) := by
  have hsource : ∀ u ∈ Requests.drop (·.ref) s.translating t.ref, u.params.source = d.language :=
    fun u hu => h.source u (Requests.mem_drop.mp hu).1
  unfold translated
  simp only []
  split
  · refine ⟨hsource, fun m hm => ?_⟩
    rcases List.mem_append.mp hm with hm | hm
    · exact h.messages m hm
    · rw [List.mem_singleton.mp hm]
      exact ⟨_, _, rfl, h.source t ht, rfl⟩
  · exact ⟨hsource, h.messages⟩

theorem books_step {s s' : State} {e : Event} (h : Books d screen s) (he : Enabled screen s e)
    (hs' : step d screen s e = some s') : Books d screen s' := by
  cases e with
  | gesture g starts => exact books_frame (gesture_frame hs') h
  | recogniser session result error =>
    obtain rfl := Option.some.inj hs'
    exact ⟨h.source, h.messages⟩
  | language token value =>
    obtain ⟨a, -, -, hstep⟩ := asked_spec d screen he
    obtain rfl := Option.some.inj ((hstep value).symm.trans hs')
    exact books_languageAnswered h a value
  | translator ref =>
    obtain ⟨t, ht, -, hstep⟩ := translating_spec d screen he
    obtain rfl := Option.some.inj (hstep.symm.trans hs')
    exact books_translated h ht

theorem pending_iff {s : State} {v : String} :
    (∀ p ∈ (view screen s).pending, p.2 = v) ↔ ∀ t ∈ s.translating, t.params.text = v := by
  refine ⟨?_, ?_⟩
  · intro h t ht
    exact h _ ⟨t, ht, rfl⟩
  · intro h p hp
    obtain ⟨t, ht, rfl⟩ := hp
    exact h t ht

theorem sound_step {s s' : State} {e : Event} (h : SharedCell.Sound (view screen s))
    (hq : Quiet d screen s e) (hs' : step d screen s e = some s') :
    SharedCell.Sound (view screen s') := by
  obtain ⟨he, hq⟩ := hq
  cases e with
  | gesture g starts =>
    rw [view_frame (gesture_frame hs')]
    exact h
  | recogniser session result error =>
    rw [← Option.some.inj hs', view_recogniser]
    apply SharedCell.sound_run h
    cases result with
    | none => trivial
    | some r => exact ⟨pending_iff.mpr (hq r rfl), trivial⟩
  | language token value =>
    obtain ⟨a, -, -, hstep⟩ := asked_spec d screen he
    rw [← Option.some.inj ((hstep value).symm.trans hs')]
    by_cases hsame : screen.comparesLanguage ∧ d.language = value
    · rw [view_written hsame]
      exact SharedCell.sound_run h ⟨pending_iff.mpr (hq hsame), trivial⟩
    · -- the new translation relies on the text as it is now
      rw [view_requested hsame]
      exact SharedCell.sound_run h ⟨rfl, trivial⟩
  | translator ref =>
    obtain ⟨t, ht, htref, hstep⟩ := translating_spec d screen he
    rw [← Option.some.inj (hstep.symm.trans hs')]
    by_cases hwrites : Writes d screen t
    · rw [view_translated hwrites]
      apply SharedCell.sound_run h
      refine ⟨⟨t, ht, rfl⟩, ?_, trivial⟩
      -- the message is written, then the text is cleared under the other translations
      intro p hp
      obtain ⟨⟨u, hu, rfl⟩, hne⟩ := hp
      exact hq ⟨t, ht, htref, hwrites⟩ u hu (htref ▸ hne)
    · rw [view_dropped hwrites]
      exact SharedCell.sound_run h ⟨trivial, trivial⟩

structure Inv (d : Device) (screen : Screen) (s : State) : Prop where
  books : Books d screen s
  sound : SharedCell.Sound (view screen s)

theorem paired_of_inv {s : State} (h : Inv d screen s) : ∀ m ∈ s.messages, Paired d screen m := by
  intro m hm
  obtain ⟨own, trans, hvalue, hparams⟩ := h.books.messages m hm
  have hown : m.value.value screen.ownKey = some own := by rw [hvalue, message_own]
  have htrans : m.value.value screen.transKey = some trans := by rw [hvalue, message_trans]
  refine ⟨own, trans, hown, htrans, ?_⟩
  cases hp : m.params with
  | none =>
    rw [hp] at hparams
    exact hparams
  | some params =>
    rw [hp] at hparams
    obtain ⟨hsource, htr⟩ := hparams
    have hread : params.text = own := h.sound.reads _ ⟨m, hm, params, own, hp, hown, rfl⟩
    show trans = d.translate ⟨d.language, params.target, own⟩
    rw [htr, ← hsource, ← hread]

theorem inv_init (d : Device) (screen : Screen) : Inv d screen State.init :=
  ⟨⟨by simp [State.init], by simp [State.init]⟩, by simp [view, State.init], by simp [view, State.init]⟩

/-- On each of the three screens, in every run whose steps are all quiet: at all times every
    message carries the translation of its own transcript. -/
theorem quiet_paired (d : Device) (screen : Screen)
    (run : Runs.Schedule (step d screen) (Quiet d screen) State.init) :
    Runs.Throughout (step d screen) (fun s => ∀ m ∈ s.messages, Paired d screen m)
      State.init run.events := by
  exact Runs.throughout_ok (I := Inv d screen)
    (fun s e hI hq s' hs' => ⟨books_step hI.books hq.1 hs', sound_step hI.sound hq hs'⟩)
    (fun s hI => paired_of_inv hI) (inv_init d screen) run.enabled

/-- User 2 speaks English; the translator marks what it translated. -/
def speaker : Device where
  peers := .twoThree
  language := "en"
  translate params := params.source ++ "-" ++ params.target ++ ": " ++ params.text

instance (d : Device) (screen : Screen) (s : State) (e : Event) : Decidable (Quiet d screen s e) := by
  cases e <;> unfold Quiet Writes <;> infer_instance

/-- Two voice messages, one after the other, the second with its final result before the release. -/
def twoMessages : List Event :=
  [.gesture .began true, .recogniser 0 (some ⟨"one", false⟩) false, .gesture .ended true,
    .language 0 "de", .recogniser 0 (some ⟨"one", true⟩) false, .translator 0,
    .gesture .began true, .recogniser 1 (some ⟨"two", false⟩) false, .gesture .ended true,
    .language 1 "en"]

theorem quiet_twoMessages :
    (Runs.exec (step speaker .chat) State.init twoMessages).map
        (·.messages.map fun m => (m.value.value "ownAudio", m.value.value "transAudio")) =
      some [(some "one", some "en-de: one"), (some "two", some "two")] ∧
    Runs.Throughout (step speaker .chat) (fun s => ∀ m ∈ s.messages, Paired speaker .chat m)
      State.init twoMessages :=
  ⟨by decide, quiet_paired speaker .chat ⟨twoMessages, by decide⟩⟩

/-- The final result comes after the button was released and the translation requested. -/
def lateFinal : List Event :=
  [.gesture .began true, .recogniser 0 (some ⟨"one", false⟩) false, .gesture .ended true,
    .language 0 "de", .recogniser 0 (some ⟨"one two", true⟩) false, .translator 0]

/-- The message says `one two` with the translation of `one`. -/
theorem lateFinal_mispairs :
    Runs.Along (step speaker .chat) (Enabled .chat) State.init lateFinal ∧
      ¬ Runs.Throughout (step speaker .chat)
        (fun s => ∀ m ∈ s.messages, Paired speaker .chat m) State.init lateFinal := by
  refine ⟨by decide, fun h => ?_⟩
  have hlast : (Runs.exec (step speaker .chat) State.init lateFinal).map (·.messages) = some
      [⟨0, 0, some ⟨"en", "de", "one"⟩, Screen.chat.message "2" "one two" "en-de: one"⟩] := by decide
  obtain ⟨s, hs, hmessages⟩ := Option.map_eq_some_iff.mp hlast
  obtain ⟨own, trans, hown, htrans, hpaired⟩ :=
    Runs.throughout_last h hs _ (hmessages ▸ List.mem_singleton_self _)
  obtain rfl : "one two" = own := Option.some.inj hown
  obtain rfl : "en-de: one" = trans := Option.some.inj htrans
  exact absurd hpaired (by decide)

end Voice

end Shiftgram
