import Shiftgram.VoiceMessages

/- The recorder of the three screens, over every order of gestures and callbacks. A recording installs
   a tap on bus 0 of the input node; only the last callback of a session takes it out, whichever
   session it belongs to, while the gesture that ends a recording stops the engine and leaves the tap
   where it is.

   `safe_iff_afterEnd`: no tap is installed over another, and no session touches a later one, exactly
   if every recording begins after the last callback of the session before.

   Assumed: callbacks are atomic, a session reports nothing after its final result or its error, and
   installing a tap on a bus that has one traps. -/
namespace Shiftgram

namespace Recording

/-- The screen, and the sessions whose last callback has not come. -/
structure State where
  voice : Voice.State
  live : List Nat
  deriving DecidableEq

def State.init : State := ⟨Voice.State.init, []⟩

/-- The event begins a recording. -/
def Opens (screen : Voice.Screen) (s : Voice.State) : Voice.Event → Prop
  | .gesture g _ => Voice.Begins screen s g
  | .recogniser _ _ _ | .language _ _ | .translator _ => False

instance (screen : Voice.Screen) (s : Voice.State) (e : Voice.Event) : Decidable (Opens screen s e) :=
  match e with
  | .gesture g _ => inferInstanceAs (Decidable (Voice.Begins screen s g))
  | .recogniser _ _ _ | .language _ _ | .translator _ => inferInstanceAs (Decidable False)

/-- The callback is the last one of its session. -/
def ends (result : Option SFSpeechRecognitionResult) (error : Bool) : Bool :=
  error || result.any (·.isFinal)

/-- The sessions that are live after the event. -/
def live (screen : Voice.Screen) (s : State) (e : Voice.Event) : List Nat :=
  match e with
  | .gesture _ _ =>
    if Opens screen s.voice e then s.live ++ [s.voice.recorder.sessions] else s.live
  | .recogniser session result error => if ends result error then s.live.erase session else s.live
  | .language _ _ | .translator _ => s.live

variable (d : Device) (screen : Voice.Screen)

def step (s : State) (e : Voice.Event) : Option State :=
  (Voice.step d screen s.voice e).map fun voice => ⟨voice, live screen s e⟩

/-- Only live sessions report. -/
def Enabled (s : State) (e : Voice.Event) : Prop :=
  Voice.Enabled screen s.voice e ∧
    match e with
    | .recogniser session _ _ => session ∈ s.live
    | .gesture _ _ | .language _ _ | .translator _ => True

instance (s : State) (e : Voice.Event) : Decidable (Enabled screen s e) :=
  match e with
  | .recogniser session _ _ => inferInstanceAs (Decidable (_ ∧ session ∈ s.live))
  | .gesture _ _ | .language _ _ | .translator _ => inferInstanceAs (Decidable (_ ∧ True))

/-- No tap is installed over another; the callback of a session that is not the last one changes
    neither the engine nor the tap nor the request. -/
def Safe (s : State) (e : Voice.Event) : Prop :=
  let r := s.voice.recorder
  match e with
  | .gesture _ _ => Opens screen s.voice e → r.tap = false
  | .recogniser session result error =>
    let r' := r.resultHandler result error
    session + 1 < r.sessions →
      r'.isRunning = r.isRunning ∧ r'.tap = r.tap ∧ r'.recognitionRequest = r.recognitionRequest
  | .language _ _ | .translator _ => True

instance (s : State) (e : Voice.Event) : Decidable (Safe screen s e) :=
  match e with
  | .gesture _ _ => inferInstanceAs (Decidable (Opens screen s.voice _ → _))
  | .recogniser _ _ _ => inferInstanceAs (Decidable (_ → _ ∧ _ ∧ _))
  | .language _ _ | .translator _ => inferInstanceAs (Decidable True)

/-- A recording begins after the last callback of every session so far. -/
def AfterEnd (s : State) (e : Voice.Event) : Prop := Opens screen s.voice e → s.live = []

/-! ## What a step does to the recorder -/

/-- What belongs to a session in the recorder. -/
structure SameSession (s s' : Voice.State) : Prop where
  tap : s'.recorder.tap = s.recorder.tap
  request : s'.recorder.recognitionRequest = s.recorder.recognitionRequest
  sessions : s'.recorder.sessions = s.recorder.sessions

variable {d screen}

/-- A gesture that begins a recording finds no tap, and leaves its own session with one. -/
theorem step_opens {s s' : Voice.State} {g : Voice.Gesture} {starts : Bool}
    (h : Voice.Begins screen s g)
    (hs' : Voice.step d screen s (.gesture g starts) = some s') :
    s.recorder.tap = false ∧ s'.recorder.tap = true ∧
      s'.recorder.sessions = s.recorder.sessions + 1 := by
  rw [Voice.gesture_eq, if_pos h] at hs'
  unfold Voice.State.startRecording Voice.Recorder.startRecording at hs'
  split at hs'
  · cases hs'
  · next htap =>
    obtain rfl := Option.some.inj hs'
    exact ⟨Bool.eq_false_iff.mpr htap, rfl, rfl⟩

theorem stopRecording_same {s s' : Voice.State} (h : Voice.stopRecording d screen s = some s') :
    SameSession s s' := by
  unfold Voice.stopRecording at h
  split at h
  · rw [Voice.getFriendLanguage_eq] at h
    obtain rfl := Option.some.inj h
    exact ⟨rfl, rfl, rfl⟩
  · obtain rfl := Option.some.inj h
    exact ⟨rfl, rfl, rfl⟩

/-- The other gestures leave the tap where it is. -/
theorem gesture_same {s s' : Voice.State} {g : Voice.Gesture} {starts : Bool}
    (h : ¬ Voice.Begins screen s g)
    (hs' : Voice.step d screen s (.gesture g starts) = some s') : SameSession s s' := by
  rw [Voice.gesture_eq, if_neg h] at hs'
  split at hs'
  · exact stopRecording_same hs'
  · exact Option.some.inj hs' ▸ ⟨rfl, rfl, rfl⟩

theorem sameSession_text {s s' : Voice.State} {text : String}
    (h : s'.recorder = { s.recorder with speechText := text }) : SameSession s s' := by
  refine ⟨?_, ?_, ?_⟩ <;> rw [h]

theorem language_same {s s' : Voice.State} {token : Nat} {value : String}
    (h : Voice.step d screen s (.language token value) = some s') : SameSession s s' := by
  obtain ⟨a, -, rfl⟩ := Option.map_eq_some_iff.mp h
  obtain ⟨text, hrecorder⟩ := Voice.languageAnswered_recorder s a value
  exact sameSession_text hrecorder

theorem translator_same {s s' : Voice.State} {ref : Nat}
    (h : Voice.step d screen s (.translator ref) = some s') : SameSession s s' := by
  obtain ⟨t, -, rfl⟩ := Option.map_eq_some_iff.mp h
  obtain ⟨text, hrecorder⟩ := Voice.translated_recorder s t
  exact sameSession_text hrecorder

/-- The last callback of a session takes the tap out, the others change nothing of a session. -/
theorem resultHandler_spec (r : Voice.Recorder) (result : Option SFSpeechRecognitionResult)
    (error : Bool) :
    (r.resultHandler result error).sessions = r.sessions ∧
      (r.resultHandler result error).tap = (r.tap && !ends result error) := by
  unfold Voice.Recorder.resultHandler ends
  cases hends : error || result.any (·.isFinal) <;> cases result <;> simp

/-! ## Runs -/

/-- A tap is in as long as a session is live, and only the last session can be live. -/
structure Inv (s : State) : Prop where
  live : s.live = if s.voice.recorder.tap then [s.voice.recorder.sessions - 1] else []
  opened : s.voice.recorder.tap = true → 0 < s.voice.recorder.sessions

theorem inv_init : Inv State.init := ⟨rfl, Bool.noConfusion⟩

theorem live_nil_iff {s : State} (h : Inv s) : s.live = [] ↔ s.voice.recorder.tap = false := by
  rw [h.live]
  cases s.voice.recorder.tap <;> simp

theorem inv_same {s s' : State} (h : Inv s) (hsame : SameSession s.voice s'.voice)
    (hlive : s'.live = s.live) : Inv s' where
  live := by rw [hlive, h.live, hsame.tap, hsame.sessions]
  opened := by
    rw [hsame.tap, hsame.sessions]
    exact h.opened

/-- A live session is the last one. -/
theorem session_of_live {s : State} (h : Inv s) {session : Nat} (hs : session ∈ s.live) :
    s.voice.recorder.tap = true ∧ session + 1 = s.voice.recorder.sessions := by
  rw [h.live] at hs
  split at hs
  · next htap =>
    have hpos := h.opened htap
    have heq : session = s.voice.recorder.sessions - 1 := List.mem_singleton.mp hs
    exact ⟨htap, by omega⟩
  · exact absurd hs List.not_mem_nil

theorem inv_recogniser {s s' : State} {session : Nat} {result : Option SFSpeechRecognitionResult}
    {error : Bool} (h : Inv s) (hs : session ∈ s.live)
    (hs' : step d screen s (.recogniser session result error) = some s') : Inv s' := by
  obtain ⟨htap, hsession⟩ := session_of_live h hs
  obtain rfl := Option.some.inj hs'
  obtain ⟨hsessions, htap'⟩ := resultHandler_spec s.voice.recorder result error
  have hone : s.live = [session] := by
    rw [h.live, if_pos htap, ← hsession, Nat.add_sub_cancel]
  refine ⟨?_, fun _ => ?_⟩
  · show (if ends result error then s.live.erase session else s.live) =
      if (s.voice.recorder.resultHandler result error).tap then
        [(s.voice.recorder.resultHandler result error).sessions - 1] else []
    rw [hsessions, htap', htap, hone, ← hsession, Nat.add_sub_cancel]
    cases ends result error <;> simp
  · show 0 < (s.voice.recorder.resultHandler result error).sessions
    omega

/-- Steps that begin a recording after the end of all others keep the invariant. -/
theorem inv_step {s s' : State} {e : Voice.Event} (h : Inv s) (he : Enabled screen s e)
    (hC : AfterEnd screen s e) (hs' : step d screen s e = some s') : Inv s' := by
  obtain ⟨v, hv, rfl⟩ := Option.map_eq_some_iff.mp hs'
  cases e with
  | gesture g starts =>
    by_cases hopens : Opens screen s.voice (.gesture g starts)
    · obtain ⟨-, htap, hsessions⟩ := step_opens hopens hv
      refine ⟨?_, fun _ => ?_⟩
      · show live screen s (.gesture g starts) = if v.recorder.tap then [v.recorder.sessions - 1] else []
        rw [htap, hsessions, live, if_pos hopens, hC hopens]
        simp
      · show 0 < v.recorder.sessions
        omega
    · exact inv_same h (gesture_same hopens hv) (if_neg hopens)
  | recogniser session result error => exact inv_recogniser h he.2 hs'
  | language token value => exact inv_same h (language_same hv) rfl
  | translator ref => exact inv_same h (translator_same hv) rfl

/-- Where the tap is that of the live session, the two conditions say the same. -/
theorem afterEnd_iff_safe {s : State} {e : Voice.Event} (h : Inv s) (he : Enabled screen s e) :
    AfterEnd screen s e ↔ Safe screen s e := by
  cases e with
  | gesture g starts => exact imp_congr_right fun _ => live_nil_iff h
  | recogniser session result error =>
    -- no session but the last one reports
    have hlast := (session_of_live h he.2).2
    exact iff_of_true (fun hopens => absurd hopens not_false) (fun hlt => absurd hlast hlt.ne)
  | language token value => exact iff_of_true (fun hopens => absurd hopens not_false) trivial
  | translator ref => exact iff_of_true (fun hopens => absurd hopens not_false) trivial

/-- On each of the three screens, a run is safe exactly if each of its recordings begins after the
    last callback of the session before. -/
theorem safe_iff_afterEnd (d : Device) (screen : Voice.Screen)
    (run : Runs.Schedule (step d screen) (Enabled screen) State.init) :
    Runs.Along (step d screen) (Safe screen) State.init run.events ↔
      Runs.Along (step d screen) (AfterEnd screen) State.init run.events := by
  have hiff := Runs.along_iff_along (I := Inv) (C := AfterEnd screen) (D := Enabled screen)
    (fun _ _ hI he => afterEnd_iff_safe hI he)
    (fun _ _ _ hI he hC hs' => inv_step hI he hC hs') inv_init run.enabled
  exact hiff.symm

/-- Released and pressed again before the final result of the first press has come. -/
def pressTwice : List Voice.Event :=
  [.gesture .began true, .gesture .ended true, .gesture .began true]

/-- The second press installs a tap over the first one. -/
theorem pressTwice_unsafe :
    Runs.Along (step Voice.speaker .chat) (Enabled .chat) State.init pressTwice ∧
      Runs.exec (step Voice.speaker .chat) State.init pressTwice = none ∧
      ¬ Runs.Along (step Voice.speaker .chat) (Safe .chat) State.init pressTwice := by
  decide

end Recording

end Shiftgram
