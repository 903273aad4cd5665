import Shiftgram.VoiceMessages

/- What recording in the chat is for: each long press is one recording session, and when it is
   released with a transcript, that transcript becomes one voice message. `Ideal` says so without
   the field `speechText`, and `quiet_delivers` compares it with the screen.

   The screen agrees with it in every run whose steps are quiet: it is pressed only after the
   previous session has ended for good, the session being recorded reports only while no message
   is under way, late results change nothing that is still needed, and a release finds in
   `speechText` what the session heard. -/
namespace Shiftgram.Voice

/-- The sessions by themselves. -/
structure Ideal where
  sessions : Nat
  /-- The last transcript of the session being recorded. -/
  held : Option String
  /-- Released sessions, with their last transcript before the release. -/
  utterances : List (Nat × String)
  deriving DecidableEq

namespace Ideal

def init : Ideal := ⟨0, none, []⟩

/-- The session that reports is the one being recorded. -/
def IsCurrent (i : Ideal) (session : Nat) : Prop := i.held ≠ none ∧ session + 1 = i.sessions

instance (i : Ideal) (session : Nat) : Decidable (i.IsCurrent session) :=
  inferInstanceAs (Decidable (_ ∧ _))

def step (i : Ideal) : Event → Ideal
  | .gesture .began _ => { i with sessions := i.sessions + 1, held := some "" }
  | .gesture .ended _ =>
    match i.held with
    | some text => { i with held := none, utterances := i.utterances ++ [(i.sessions - 1, text)] }
    | none => i
  | .recogniser session (some result) _ =>
    if i.IsCurrent session then { i with held := some result.formattedString } else i
  | _ => i

end Ideal

/-- The chat screen and, beside it, the sessions. -/
structure Tracked where
  code : State
  ideal : Ideal
  deriving DecidableEq

def Tracked.init : Tracked := ⟨State.init, Ideal.init⟩

def Tracked.step (d : Device) (t : Tracked) (e : Event) : Option Tracked :=
  (Voice.step d .chat t.code e).map fun s => ⟨s, t.ideal.step e⟩

/-- The sessions whose message is under way. -/
def State.underWay (s : State) : List Nat :=
  s.asked.map (·.session) ++ s.translating.map (·.session)

/-- The transcripts of the messages of a session. -/
def State.sent (s : State) (session : Nat) : List String :=
  (s.messages.filter (·.session = session)).filterMap fun m => m.value.value "ownAudio"

/-- Once all callbacks have come, each session that was released with a transcript has given one
    message with it, and the other sessions none. -/
def Delivered (t : Tracked) : Prop :=
  t.code.underWay = [] →
    (∀ u ∈ t.ideal.utterances, t.code.sent u.1 = if u.2 = "" then [] else [u.2]) ∧
      ∀ m ∈ t.code.messages, m.session ∈ t.ideal.utterances.map Prod.fst

def Tracked.Quiet (t : Tracked) (e : Event) : Prop :=
  Enabled .chat t.code e ∧
    match e with
    -- installing a second tap would trap
    | .gesture .began _ => t.code.recorder.tap = false
    | .gesture .ended _ =>
      ∀ text, t.ideal.held = some text →
        if text = "" then t.code.recorder.isRunning → t.code.recorder.speechText = ""
        else t.code.recorder.isRunning
    | .recogniser session (some result) _ =>
      if t.ideal.IsCurrent session then t.code.underWay = []
      else t.code.underWay ≠ [] ∨ (∃ text, t.ideal.held = some text ∧ text ≠ "") →
        result.formattedString = t.code.recorder.speechText
    | _ => True

instance decidableSpoken (o : Option String) : Decidable (∃ text, o = some text ∧ text ≠ "") :=
  decidable_of_iff (o.any (· ≠ "") = true) (by simp [Option.any_eq_true])

instance (t : Tracked) (e : Event) : Decidable (t.Quiet e) :=
  match e with
  | .gesture .began _ => inferInstanceAs (Decidable (_ ∧ _ = false))
  | .gesture .ended _ =>
    inferInstanceAs (Decidable (_ ∧ ∀ text ∈ t.ideal.held,
      if text = "" then t.code.recorder.isRunning → t.code.recorder.speechText = ""
      else t.code.recorder.isRunning))
  | .recogniser session (some result) _ =>
    inferInstanceAs (Decidable (_ ∧ if t.ideal.IsCurrent session then t.code.underWay = []
      else t.code.underWay ≠ [] ∨ (∃ text, t.ideal.held = some text ∧ text ≠ "") →
        result.formattedString = t.code.recorder.speechText))
  | .gesture .tap _ | .recogniser _ none _ | .language _ _ | .translator _ =>
    inferInstanceAs (Decidable (_ ∧ True))

structure Tracked.Inv (t : Tracked) : Prop where
  sessions : t.ideal.sessions = t.code.recorder.sessions
  idle : t.ideal.held = none → t.code.recorder.isRunning = false
  underWay : t.code.underWay = [] ∨ ∃ k, t.code.underWay = [k] ∧
    t.code.recorder.speechText ≠ "" ∧ (k, t.code.recorder.speechText) ∈ t.ideal.utterances
  current : ∀ text, t.ideal.held = some text → text ≠ "" →
    t.code.underWay = [] ∧ t.code.recorder.speechText = text
  sent : ∀ u ∈ t.ideal.utterances,
    t.code.sent u.1 = if u.2 = "" ∨ u.1 ∈ t.code.underWay then [] else [u.2]
  messages : ∀ m ∈ t.code.messages, m.session ∈ t.ideal.utterances.map Prod.fst
  distinct : (t.ideal.utterances.map Prod.fst).Nodup
  released : ∀ k ∈ t.ideal.utterances.map Prod.fst, k < t.ideal.sessions
  recording : t.ideal.held ≠ none → t.ideal.sessions ≠ 0 ∧
    t.ideal.sessions - 1 ∉ t.ideal.utterances.map Prod.fst

theorem delivered_of_inv {t : Tracked} (h : t.Inv) : Delivered t := by
  intro hdone
  refine ⟨fun u hu => ?_, h.messages⟩
  rw [h.sent u hu, hdone]
  simp

/-! ## Messages of a session -/

theorem sent_append {s s' : State} {m : Message} (hs : s'.messages = s.messages ++ [m]) {own : String}
    (hm : m.value.value "ownAudio" = some own) (k : Nat) :
    s'.sent k = s.sent k ++ if m.session = k then [own] else [] := by
  rw [State.sent, hs, List.filter_append, List.filterMap_append]
  by_cases hk : m.session = k <;> simp [State.sent, hk, hm]

theorem sent_congr {s s' : State} (hs : s'.messages = s.messages) (k : Nat) : s'.sent k = s.sent k := by
  rw [State.sent, hs, State.sent]

theorem sent_eq_nil {s : State} {k : Nat} (h : ∀ m ∈ s.messages, m.session ≠ k) : s.sent k = [] := by
  rw [State.sent, List.filter_eq_nil_iff.mpr (by simpa using h), List.filterMap_nil]

variable {d : Device}

/-! ## The steps -/

theorem inv_began {t : Tracked} (h : t.Inv) (htap : t.code.recorder.tap = false) (starts : Bool) :
    ∃ t', t.step d (.gesture .began starts) = some t' ∧ t'.Inv := by
  have hstep : Voice.step d .chat t.code (.gesture .began starts) = some { t.code with
      recorder := { t.code.recorder with
        recognitionRequest := some t.code.recorder.sessions
        recognitionTask := some t.code.recorder.sessions
        tap := true
        isRunning := starts || t.code.recorder.isRunning
        sessions := t.code.recorder.sessions + 1 } } := by
    show State.startRecording _ _ = _
    rw [State.startRecording, Recorder.startRecording, htap]
    rfl
  refine ⟨_, congrArg (Option.map _) hstep, ?_⟩
  refine ⟨?_, ?_, h.underWay, ?_, h.sent, h.messages, h.distinct, ?_, ?_⟩
  · exact congrArg (· + 1) h.sessions
  · exact fun hheld => absurd hheld (by simp [Ideal.step])
  · intro text htext hne
    exact absurd (Option.some.inj htext).symm hne
  · intro k hk
    have := h.released k hk
    show k < t.ideal.sessions + 1
    omega
  · intro _
    refine ⟨Nat.succ_ne_zero _, fun hmem => ?_⟩
    have := h.released _ hmem
    simp only [Ideal.step] at this
    omega

/-- A release sends nothing yet: the earlier sessions have sent what they had, and the new one is
    under way or has nothing to send. -/
theorem sent_released {t : Tracked} (h : t.Inv) {text : String} (hheld : t.ideal.held = some text)
    {s : State} (hframe : Frame t.code s)
    (hunder : s.underWay = if text = "" then t.code.underWay else [t.ideal.sessions - 1]) :
    ∀ u ∈ t.ideal.utterances ++ [(t.ideal.sessions - 1, text)],
      s.sent u.1 = if u.2 = "" ∨ u.1 ∈ s.underWay then [] else [u.2] := by
  obtain ⟨-, hnew⟩ := h.recording (by simp [hheld])
  rw [List.forall_mem_append, List.forall_mem_singleton]
  refine ⟨fun u hu => ?_, ?_⟩
  · rw [sent_congr hframe.messages, hunder, h.sent u hu]
    by_cases htext : text = ""
    · rw [if_pos htext]
    · -- nothing was under way, and the new session is none of the earlier ones
      have hu1 : u.1 ≠ t.ideal.sessions - 1 := fun hk => hnew (hk ▸ List.mem_map_of_mem hu)
      rw [if_neg htext, (h.current text hheld htext).1]
      simp [hu1]
  · have hnil : t.code.sent (t.ideal.sessions - 1) = [] := by
      apply sent_eq_nil
      intro m hm hk
      exact hnew (hk ▸ h.messages m hm)
    rw [sent_congr hframe.messages, hunder, hnil]
    by_cases htext : text = "" <;> simp [htext]

/-- A release, given what it leaves under way: the session's message, if it has heard anything. -/
theorem inv_released {t : Tracked} (h : t.Inv) {text : String} (hheld : t.ideal.held = some text)
    {s : State} (hframe : Frame t.code s) (hsessions : s.recorder.sessions = t.code.recorder.sessions)
    (hidle : s.recorder.isRunning = false)
    (hunder : s.underWay = if text = "" then t.code.underWay else [t.code.recorder.sessions - 1])
    (starts : Bool) : Tracked.Inv ⟨s, t.ideal.step (.gesture .ended starts)⟩ := by
  obtain ⟨hpos, hnew⟩ := h.recording (by simp [hheld])
  have hideal : t.ideal.step (.gesture .ended starts) = { t.ideal with
      held := none, utterances := t.ideal.utterances ++ [(t.ideal.sessions - 1, text)] } := by
    simp [Ideal.step, hheld]
  rw [← h.sessions] at hunder
  rw [hideal]
  refine ⟨?_, fun _ => hidle, ?_, ?_, ?_, ?_, ?_, ?_, ?_⟩
  · exact h.sessions.trans hsessions.symm
  · show s.underWay = [] ∨ _
    rw [hunder, hframe.text]
    split
    · rcases h.underWay with hnone | ⟨k, hk, hne, hmem⟩
      · exact Or.inl hnone
      · exact Or.inr ⟨k, hk, hne, List.mem_append_left _ hmem⟩
    · next hne =>
      rw [(h.current text hheld hne).2]
      exact Or.inr ⟨_, rfl, hne, List.mem_append_right _ (List.mem_singleton_self _)⟩
  · exact fun text htext => absurd htext (by simp)
  · exact sent_released h hheld hframe hunder
  · intro m hm
    rw [List.map_append]
    exact List.mem_append_left _ (h.messages m (hframe.messages ▸ hm))
  · exact Requests.nodup_snoc h.distinct hnew
  · intro k hk
    rw [List.map_append, List.map_singleton, List.mem_append, List.mem_singleton] at hk
    show k < t.ideal.sessions
    rcases hk with hk | rfl
    · exact h.released k hk
    · show t.ideal.sessions - 1 < t.ideal.sessions
      omega
  · exact fun hne => absurd rfl hne

theorem inv_ended {t : Tracked} (h : t.Inv)
    (hq : ∀ text, t.ideal.held = some text →
      if text = "" then t.code.recorder.isRunning → t.code.recorder.speechText = ""
      else t.code.recorder.isRunning) (starts : Bool) :
    ∃ t', t.step d (.gesture .ended starts) = some t' ∧ t'.Inv := by
  have hstep : Voice.step d .chat t.code (.gesture .ended starts) =
      if t.code.recorder.isRunning then stopRecording d .chat t.code else some t.code := rfl
  cases hheld : t.ideal.held with
  | none =>
    have hideal : t.ideal.step (.gesture .ended starts) = t.ideal := by simp [Ideal.step, hheld]
    refine ⟨t, ?_, h⟩
    rw [Tracked.step, hstep, h.idle hheld, hideal]
    rfl
  | some text =>
    have hq := hq text hheld
    by_cases hrun : t.code.recorder.isRunning
    · rw [if_pos hrun] at hstep
      by_cases htext : text = ""
      · -- nothing to send: `speechText` is empty
        rw [if_pos htext] at hq
        rw [stopRecording, hq hrun] at hstep
        have hframe : Frame t.code t.code.stopEngine := ⟨rfl, rfl, rfl⟩
        refine ⟨_, congrArg (Option.map _) hstep, ?_⟩
        exact inv_released h hheld hframe rfl rfl (by rw [if_pos htext]; rfl) starts
      · have hcurrent := h.current text hheld htext
        have hne : t.code.recorder.speechText.isEmpty = false := by simpa [hcurrent.2] using htext
        have hstop : stopRecording d .chat t.code = getFriendLanguage d t.code.stopEngine := by
          rw [stopRecording, hne]
          rfl
        rw [hstop, getFriendLanguage_eq] at hstep
        rw [getFriendLanguage_eq] at hstop
        refine ⟨_, congrArg (Option.map _) hstep, ?_⟩
        apply inv_released h hheld (stopRecording_frame hstop) rfl rfl
        rw [if_neg htext]
        have hnone : t.code.asked.map (·.session) ++ t.code.translating.map (·.session) = [] :=
          hcurrent.1
        obtain ⟨hasked, htranslating⟩ := List.append_eq_nil_iff.mp hnone
        show List.map (·.session) (t.code.asked ++ [_]) ++ List.map (·.session) t.code.translating = _
        rw [List.map_append, hasked, htranslating]
        rfl
    · -- the engine has stopped by itself
      have htext : text = "" := by
        by_contra hne
        rw [if_neg hne] at hq
        exact hrun hq
      rw [if_neg hrun] at hstep
      refine ⟨_, congrArg (Option.map _) hstep, ?_⟩
      exact inv_released h hheld ⟨rfl, rfl, rfl⟩ rfl (by simpa using hrun) (by rw [if_pos htext]) starts

theorem resultHandler_sessions (r : Recorder) (result : Option SFSpeechRecognitionResult)
    (error : Bool) : (r.resultHandler result error).sessions = r.sessions := by
  unfold Recorder.resultHandler
  cases result <;> simp only [] <;> split <;> rfl

theorem resultHandler_idle {r : Recorder} (h : r.isRunning = false)
    (result : Option SFSpeechRecognitionResult) (error : Bool) :
    (r.resultHandler result error).isRunning = false := by
  unfold Recorder.resultHandler
  cases result <;> simp only [] <;> split <;> first | rfl | exact h

theorem inv_recogniser {t : Tracked} (h : t.Inv) {session : Nat}
    {result : Option SFSpeechRecognitionResult} {error : Bool}
    (hq : t.Quiet (.recogniser session result error)) :
    ∃ t', t.step d (.recogniser session result error) = some t' ∧ t'.Inv := by
  refine ⟨_, rfl, ?_⟩
  have hsessions := resultHandler_sessions t.code.recorder result error
  have hidle : t.code.recorder.isRunning = false → _ := fun h =>
    resultHandler_idle h result error
  have htext := resultHandler_text t.code.recorder result error
  cases result with
  | none =>
    refine ⟨h.sessions.trans hsessions.symm, fun hheld => hidle (h.idle hheld), ?_, ?_, h.sent,
      h.messages, h.distinct, h.released, h.recording⟩
    · show t.code.underWay = [] ∨ _
      rw [htext]
      exact h.underWay
    · intro text hheld hne
      exact ⟨(h.current text hheld hne).1, htext.trans (h.current text hheld hne).2⟩
  | some r =>
    by_cases hcurrent : t.ideal.IsCurrent session
    · -- the session being recorded: nothing is under way
      have hnone : t.code.underWay = [] := by simpa [hcurrent] using hq.2
      have hideal : t.ideal.step (.recogniser session (some r) error) =
          { t.ideal with held := some r.formattedString } := if_pos hcurrent
      rw [hideal]
      refine ⟨h.sessions.trans hsessions.symm, fun hheld => absurd hheld (by simp), Or.inl hnone, ?_,
        h.sent, h.messages, h.distinct, h.released, fun _ => h.recording hcurrent.1⟩
      intro text hheld _
      exact ⟨hnone, htext.trans (Option.some.inj hheld)⟩
    · have hideal : t.ideal.step (.recogniser session (some r) error) = t.ideal := if_neg hcurrent
      have hlate : t.code.underWay ≠ [] ∨ (∃ text, t.ideal.held = some text ∧ text ≠ "") →
          r.formattedString = t.code.recorder.speechText := by simpa [hcurrent] using hq.2
      rw [hideal]
      refine ⟨h.sessions.trans hsessions.symm, fun hheld => hidle (h.idle hheld), ?_, ?_, h.sent,
        h.messages, h.distinct, h.released, h.recording⟩
      · show t.code.underWay = [] ∨ _
        by_cases hnone : t.code.underWay = []
        · exact Or.inl hnone
        · rw [htext.trans (hlate (Or.inl hnone))]
          exact h.underWay
      · intro text hheld hne
        obtain ⟨hnone, hspeech⟩ := h.current text hheld hne
        exact ⟨hnone, htext.trans ((hlate (Or.inr ⟨text, hheld, hne⟩)).trans hspeech)⟩

/-- The message under way is written with the text in `speechText`. -/
theorem inv_written {t : Tracked} (h : t.Inv) {m : Message} (hk : t.code.underWay = [m.session])
    (hown : m.value.value "ownAudio" = some t.code.recorder.speechText) {s : State}
    (hmessages : s.messages = t.code.messages ++ [m]) (hnone : s.underWay = [])
    (hsessions : s.recorder.sessions = t.code.recorder.sessions)
    (hrunning : s.recorder.isRunning = t.code.recorder.isRunning) : Tracked.Inv ⟨s, t.ideal⟩ := by
  obtain ⟨hne, hmem⟩ : t.code.recorder.speechText ≠ "" ∧
      (m.session, t.code.recorder.speechText) ∈ t.ideal.utterances := by
    rcases h.underWay with hempty | ⟨k, hkk, hne, hmem⟩
    · rw [hempty] at hk
      cases hk
    · obtain rfl := List.singleton_inj.mp (hkk.symm.trans hk)
      exact ⟨hne, hmem⟩
  refine ⟨h.sessions.trans hsessions.symm, fun hheld => hrunning.trans (h.idle hheld), Or.inl hnone,
    ?_, ?_, ?_, h.distinct, h.released, h.recording⟩
  · -- no session that has heard something is being recorded
    intro text hheld htext
    rw [(h.current text hheld htext).1] at hk
    cases hk
  · intro u hu
    show s.sent u.1 = if u.2 = "" ∨ u.1 ∈ s.underWay then [] else [u.2]
    rw [sent_append hmessages hown, h.sent u hu, hk, hnone]
    by_cases hu1 : m.session = u.1
    · have hu2 : u = (m.session, t.code.recorder.speechText) :=
        Requests.eq_of_key h.distinct hu hmem hu1.symm
      rw [hu2]
      simp [hne]
    · simp [hu1, Ne.symm hu1]
  · intro m' hm'
    rw [hmessages] at hm'
    rcases List.mem_append.mp hm' with hm' | hm'
    · exact h.messages m' hm'
    · rw [List.mem_singleton.mp hm']
      exact List.mem_map_of_mem hmem

/-- The message under way gets on, and everything it rests on stays. -/
theorem inv_congr {t : Tracked} (h : t.Inv) {s : State} (hrecorder : s.recorder = t.code.recorder)
    (hunder : s.underWay = t.code.underWay) (hmessages : s.messages = t.code.messages) :
    Tracked.Inv ⟨s, t.ideal⟩ where
  sessions := by rw [hrecorder]; exact h.sessions
  idle := by rw [hrecorder]; exact h.idle
  underWay := by rw [hrecorder, hunder]; exact h.underWay
  current := by rw [hrecorder, hunder]; exact h.current
  sent := by
    intro u hu
    rw [sent_congr hmessages, hunder]
    exact h.sent u hu
  messages := by rw [hmessages]; exact h.messages
  distinct := h.distinct
  released := h.released
  recording := h.recording

theorem underWay_length {t : Tracked} (h : t.Inv) : t.code.underWay.length ≤ 1 := by
  rcases h.underWay with hnone | ⟨k, hk, -⟩
  · simp [hnone]
  · simp [hk]

theorem only_asked {t : Tracked} (h : t.Inv) {a : Asked} (ha : a ∈ t.code.asked) :
    t.code.asked = [a] ∧ t.code.translating = [] := by
  have hlen : t.code.asked.length + t.code.translating.length ≤ 1 := by
    simpa [State.underWay] using underWay_length h
  have hpos := List.length_pos_of_mem ha
  obtain ⟨b, hb⟩ := List.length_eq_one_iff.mp (show t.code.asked.length = 1 by omega)
  rw [hb, List.mem_singleton] at ha
  exact ⟨ha ▸ hb, List.length_eq_zero_iff.mp (by omega)⟩

theorem only_translating {t : Tracked} (h : t.Inv) {u : Translating} (hu : u ∈ t.code.translating) :
    t.code.asked = [] ∧ t.code.translating = [u] := by
  have hasked : t.code.asked = [] := by
    by_contra hne
    obtain ⟨a, ha⟩ := List.exists_mem_of_ne_nil _ hne
    rw [(only_asked h ha).2] at hu
    cases hu
  have hlen : t.code.translating.length ≤ 1 := by
    simpa [State.underWay, hasked] using underWay_length h
  have hpos := List.length_pos_of_mem hu
  obtain ⟨b, hb⟩ := List.length_eq_one_iff.mp (show t.code.translating.length = 1 by omega)
  rw [hb, List.mem_singleton] at hu
  exact ⟨hasked, hu ▸ hb⟩

theorem inv_language {t : Tracked} (h : t.Inv) {token : Nat}
    (htoken : token ∈ t.code.asked.map (·.token)) (value : String) :
    ∃ t', t.step d (.language token value) = some t' ∧ t'.Inv := by
  obtain ⟨a, ha, -, hstep⟩ := asked_spec d .chat htoken
  obtain ⟨hasked, htranslating⟩ := only_asked h ha
  have hk : t.code.underWay = [a.session] := by rw [State.underWay, hasked, htranslating]; rfl
  have hrest : Requests.drop (·.token) t.code.asked a.token = [] := by rw [hasked]; simp [Requests.drop]
  refine ⟨_, congrArg (Option.map _) (hstep value), ?_⟩
  show Tracked.Inv ⟨_, t.ideal⟩
  by_cases hsame : d.language = value
  · have hif : (Screen.chat.comparesLanguage && d.language == value) = true := by
      simp [Screen.comparesLanguage, hsame]
    have hmessages : (languageAnswered d .chat t.code a value).messages = t.code.messages ++
        [⟨t.code.refs, a.session, none, Screen.chat.message d.user t.code.recorder.speechText
          t.code.recorder.speechText⟩] := by
      simp only [languageAnswered, hif, if_true, State.setText]
    have hnone : (languageAnswered d .chat t.code a value).underWay = [] := by
      simp only [languageAnswered, hif, if_true, State.setText, State.underWay, hrest, htranslating]
      rfl
    apply inv_written h hk (message_own .chat _ _ _) hmessages hnone
    all_goals simp only [languageAnswered, hif, if_true, State.setText]
  · have hif : (Screen.chat.comparesLanguage && d.language == value) = false := by
      simp [hsame]
    have hunder : (languageAnswered d .chat t.code a value).underWay = t.code.underWay := by
      rw [hk]
      simp only [languageAnswered, hif, Bool.false_eq_true, if_false, State.underWay, hrest, htranslating]
      rfl
    have hrecorder : (languageAnswered d .chat t.code a value).recorder = t.code.recorder := by
      simp only [languageAnswered, hif, Bool.false_eq_true, if_false]
    have hmessages : (languageAnswered d .chat t.code a value).messages = t.code.messages := by
      simp only [languageAnswered, hif, Bool.false_eq_true, if_false]
    exact inv_congr h hrecorder hunder hmessages

theorem inv_translator {t : Tracked} (h : t.Inv) {ref : Nat}
    (href : ref ∈ t.code.translating.map (·.ref)) :
    ∃ t', t.step d (.translator ref) = some t' ∧ t'.Inv := by
  obtain ⟨u, hu, -, hstep⟩ := translating_spec d .chat href
  obtain ⟨hasked, htranslating⟩ := only_translating h hu
  have hk : t.code.underWay = [u.session] := by rw [State.underWay, hasked, htranslating]; rfl
  have hrest : Requests.drop (·.ref) t.code.translating u.ref = [] := by
    rw [htranslating]
    simp [Requests.drop]
  have hif : (Screen.chat.writesEmpty || !(d.translate u.params).isEmpty) = true := rfl
  have hmessages : (translated d .chat t.code u).messages = t.code.messages ++
      [⟨u.ref, u.session, some u.params, Screen.chat.message d.user t.code.recorder.speechText
        (d.translate u.params)⟩] := by
    simp only [translated, hif, if_true, State.setText]
  have hnone : (translated d .chat t.code u).underWay = [] := by
    simp only [translated, hif, if_true, State.setText, State.underWay, hrest, hasked]
    rfl
  refine ⟨_, congrArg (Option.map _) hstep, ?_⟩
  show Tracked.Inv ⟨_, t.ideal⟩
  apply inv_written h hk (message_own .chat _ _ _) hmessages hnone
  all_goals simp only [translated, hif, if_true, State.setText]

theorem inv_step {t : Tracked} {e : Event} (h : t.Inv) (hq : t.Quiet e) :
    ∃ t', t.step d e = some t' ∧ t'.Inv := by
  cases e with
  | gesture g starts =>
    cases g with
    | began => exact inv_began h hq.2 starts
    | ended => exact inv_ended h hq.2 starts
    | tap => exact absurd rfl hq.1
  | recogniser session result error => exact inv_recogniser h hq
  | language token value => exact inv_language h hq.1 value
  | translator ref => exact inv_translator h hq.1

theorem tracked_init : Tracked.Inv Tracked.init where
  sessions := rfl
  idle := fun _ => rfl
  underWay := Or.inl rfl
  current := by simp [Tracked.init, Ideal.init]
  sent := by simp [Tracked.init, Ideal.init]
  messages := by simp [Tracked.init, State.init]
  distinct := List.nodup_nil
  released := by simp [Tracked.init, Ideal.init]
  recording := by simp [Tracked.init, Ideal.init]

/-- In a run of the chat whose steps are all quiet nothing traps, and whenever no callback is
    outstanding, each session released with a transcript has given one message with it, and the
    others none. -/
theorem quiet_delivers (d : Device) (run : Runs.Schedule (Tracked.step d) Tracked.Quiet Tracked.init) :
    (∃ t, Runs.exec (Tracked.step d) Tracked.init run.events = some t) ∧
      Runs.Throughout (Tracked.step d) Delivered Tracked.init run.events := by
  exact Runs.run_ok (fun t e hI hq => inv_step (d := d) hI hq) (fun t hI => delivered_of_inv hI)
    tracked_init run.enabled

/-- Each of the two messages is given once. -/
theorem delivered_twoMessages :
    (Runs.exec (Tracked.step speaker) Tracked.init twoMessages).map
        (fun t => (t.code.underWay, t.ideal.utterances, t.code.sent 0, t.code.sent 1)) =
      some ([], [(0, "one"), (1, "two")], ["one"], ["two"]) ∧
    Runs.Throughout (Tracked.step speaker) Delivered Tracked.init twoMessages :=
  ⟨by decide, (quiet_delivers speaker ⟨twoMessages, by decide⟩).2⟩

/-- The final result of the first session comes after its message; the second session hears
    nothing, and sends it again. -/
def staleText : List Event :=
  [.gesture .began true, .recogniser 0 (some ⟨"hello", false⟩) false, .gesture .ended true,
    .language 0 "en", .recogniser 0 (some ⟨"hello", true⟩) false,
    .gesture .began true, .gesture .ended true, .language 1 "en"]

theorem staleText_repeats :
    Runs.Along (Tracked.step speaker) (fun t e => Enabled .chat t.code e) Tracked.init staleText ∧
      (Runs.exec (Tracked.step speaker) Tracked.init staleText).map
          (fun t => (t.ideal.utterances, t.code.sent 0, t.code.sent 1)) =
        some ([(0, "hello"), (1, "")], ["hello"], ["hello"]) ∧
      ¬ Runs.Throughout (Tracked.step speaker) Delivered Tracked.init staleText := by
  have hlast : (Runs.exec (Tracked.step speaker) Tracked.init staleText).map
      (fun t => (t.code.underWay, t.ideal.utterances, t.code.sent 0, t.code.sent 1)) =
        some ([], [(0, "hello"), (1, "")], ["hello"], ["hello"]) := by decide
  refine ⟨by decide, by decide, fun h => ?_⟩
  obtain ⟨t, ht, hfacts⟩ := Option.map_eq_some_iff.mp hlast
  simp only [Prod.mk.injEq] at hfacts
  obtain ⟨hnone, hutterances, -, hsent⟩ := hfacts
  have hsilent := (Runs.throughout_last h ht hnone).1 (1, "") (by rw [hutterances]; simp)
  rw [hsent] at hsilent
  exact absurd hsilent (by decide)

end Shiftgram.Voice
