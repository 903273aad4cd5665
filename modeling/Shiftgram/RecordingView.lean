import Shiftgram.VoiceMessages

/- The recording view of the chat screen. A press adds a view with a timer of its own to the input
   toolbar; a release takes a view away and stops the timer of the field `timer`, but only if the audio
   engine is running then. The engine may not have started, and the last callback of a session stops
   it.

   `recorded_iff`: there is one view with its running timer while the button is held, and neither view
   nor running timer when it is not, exactly if every press finds the button free and no tap
   installed, and every release finds the engine running. -/
namespace Shiftgram

namespace RecordingView

/-- A view that `addViewRecording` made, with the timer that writes its label. -/
structure Overlay where
  tag : Int
  timer : Nat
  deriving DecidableEq, Repr

structure State where
  voice : Voice.State
  /-- The recording views among the subviews of `inputToolbar.contentView`, in their order. -/
  overlays : List Overlay
  /-- The timers that are scheduled; timers are numbered in the order they are made. -/
  running : List Nat
  /-- `self.timer`, none for the `Timer()` it starts with. -/
  timer : Option Nat
  timers : Nat
  /-- The button is held. -/
  held : Bool
  deriving DecidableEq

def State.init : State := ⟨Voice.State.init, [], [], none, 0, false⟩

/-- `viewWithTag(tag)` among the recording views, then `removeFromSuperview()`. -/
def removeWithTag (overlays : List Overlay) (tag : Int) : List Overlay :=
  overlays.eraseP (·.tag = tag)

/-- `timer.invalidate()` -/
def invalidate (running : List Nat) : Option Nat → List Nat
  | some timer => running.erase timer
  | none => running

variable (d : Device)

def addViewRecording (s : State) : State :=
  { s with
    overlays := s.overlays ++ [⟨d.peers.own.toInt, s.timers⟩]
    running := s.running ++ [s.timers]
    timer := some s.timers
    timers := s.timers + 1 }

def deleteViewRecording (s : State) : State :=
  { s with
    running := invalidate s.running s.timer
    overlays := removeWithTag s.overlays d.peers.own.toInt }

/-- What a release does to the views. -/
def release (s : State) : State :=
  if s.voice.recorder.isRunning then deleteViewRecording d s else s

def longPressedButton (s : State) (starts : Bool) (g : Voice.Gesture) : Option State :=
  (Voice.ChatViewController.longPressedButton d s.voice starts g).map fun voice =>
    match g with
    | .began => { addViewRecording d s with voice := voice, held := true }
    | .ended => { release d s with voice := voice, held := false }
    | .tap => { s with voice := voice }

def step (s : State) : Voice.Event → Option State
  | .gesture g starts => longPressedButton d s starts g
  | e => (Voice.step d .chat s.voice e).map fun voice => { s with voice := voice }

def Enabled (s : State) (e : Voice.Event) : Prop := Voice.Enabled .chat s.voice e

instance (s : State) (e : Voice.Event) : Decidable (Enabled s e) :=
  inferInstanceAs (Decidable (Voice.Enabled .chat s.voice e))

/-- One view with its running timer while the button is held, nothing otherwise. -/
def Shown (s : State) : Prop :=
  if s.held then ∃ o : Overlay, s.overlays = [o] ∧ s.running = [o.timer]
  else s.overlays = [] ∧ s.running = []

/-- A press finds the button free and no tap, the release of a held button finds the engine running. -/
def Recorded (s : State) : Voice.Event → Prop
  | .gesture .began _ => s.held = false ∧ s.voice.recorder.tap = false
  | .gesture .ended _ => s.held = true → s.voice.recorder.isRunning = true
  | .gesture .tap _ | .recogniser _ _ _ | .language _ _ | .translator _ => True

instance (s : State) (e : Voice.Event) : Decidable (Recorded s e) :=
  match e with
  | .gesture .began _ => inferInstanceAs (Decidable (_ ∧ _))
  | .gesture .ended _ => inferInstanceAs (Decidable (_ → _))
  | .gesture .tap _ | .recogniser _ _ _ | .language _ _ | .translator _ =>
    inferInstanceAs (Decidable True)

/-- The view is there while the button is held, with the tag it is found by and the timer of the
    field, and the engine runs at no other time. -/
structure Inv (d : Device) (s : State) : Prop where
  held : s.held = true → ∃ o : Overlay, s.overlays = [o] ∧ s.running = [o.timer] ∧
    s.timer = some o.timer ∧ o.tag = d.peers.own.toInt
  free : s.held = false → s.overlays = [] ∧ s.running = [] ∧ s.voice.recorder.isRunning = false

variable {d}

theorem inv_init : Inv d State.init := ⟨Bool.noConfusion, fun _ => ⟨rfl, rfl, rfl⟩⟩

theorem shown_of_inv {s : State} (h : Inv d s) : Shown s := by
  unfold Shown
  split
  · next hheld =>
    obtain ⟨o, hoverlays, hrunning, -, -⟩ := h.held hheld
    exact ⟨o, hoverlays, hrunning⟩
  · next hheld =>
    obtain ⟨hoverlays, hrunning, -⟩ := h.free (Bool.eq_false_iff.mpr hheld)
    exact ⟨hoverlays, hrunning⟩

/-- An event that leaves the views alone, and does not start the engine. -/
theorem inv_voice {s : State} (h : Inv d s) {voice : Voice.State}
    (hrunning : s.voice.recorder.isRunning = false → voice.recorder.isRunning = false) :
    Inv d { s with voice := voice } where
  held := h.held
  free := fun hheld => (h.free hheld).imp_right fun hs => hs.imp_right hrunning

/-! ## The two ends of a press -/

/-- A press traps on a tap, and adds a view otherwise. -/
theorem began_spec (s : State) (starts : Bool) :
    if s.voice.recorder.tap then step d s (.gesture .began starts) = none
    else ∃ voice, step d s (.gesture .began starts) =
      some { addViewRecording d s with voice := voice, held := true } := by
  split
  · next htap =>
    simp [step, longPressedButton, Voice.ChatViewController.longPressedButton,
      Voice.State.startRecording, Voice.Recorder.startRecording, htap]
  · next htap =>
    simp [step, longPressedButton, Voice.ChatViewController.longPressedButton,
      Voice.State.startRecording, Voice.Recorder.startRecording, htap]

theorem began_iff {s : State} (h : Inv d s) (starts : Bool) :
    (∃ s', step d s (.gesture .began starts) = some s' ∧ Shown s') ↔
      Recorded s (.gesture .began starts) := by
  have hspec := began_spec (d := d) s starts
  split at hspec
  · next htap =>
    refine iff_of_false ?_ fun hC => absurd (htap.symm.trans hC.2) Bool.noConfusion
    rintro ⟨s', hs', -⟩
    rw [hspec] at hs'
    cases hs'
  · next htap =>
    obtain ⟨voice, hsome⟩ := hspec
    rw [hsome]
    simp only [Option.some.injEq, exists_eq_left', Shown, if_true]
    cases hheld : s.held with
    | false =>
      obtain ⟨hoverlays, hrunning, -⟩ := h.free hheld
      refine iff_of_true ⟨⟨d.peers.own.toInt, s.timers⟩, ?_, ?_⟩ ⟨hheld, Bool.eq_false_iff.mpr htap⟩
      · rw [addViewRecording, hoverlays, List.nil_append]
      · rw [addViewRecording, hrunning, List.nil_append]
    | true =>
      -- the view of the press before is still there
      obtain ⟨o, hoverlays, -⟩ := h.held hheld
      refine iff_of_false ?_ fun hC => absurd (hheld.symm.trans hC.1) Bool.noConfusion
      rintro ⟨o', ho', -⟩
      rw [addViewRecording, hoverlays] at ho'
      cases ho'

/-- A release stops the engine. -/
theorem ended_spec (s : State) (starts : Bool) :
    ∃ voice : Voice.State, voice.recorder.isRunning = false ∧
      step d s (.gesture .ended starts) =
        some { release d s with voice := voice, held := false } := by
  cases hrunning : s.voice.recorder.isRunning with
  | false =>
    refine ⟨s.voice, hrunning, ?_⟩
    simp [step, longPressedButton, Voice.ChatViewController.longPressedButton, hrunning]
  | true =>
    have hstop : ∃ voice, Voice.stopRecording d .chat s.voice = some voice ∧
        voice.recorder.isRunning = false := by
      unfold Voice.stopRecording
      split
      · exact ⟨_, Voice.getFriendLanguage_eq d _, rfl⟩
      · exact ⟨_, rfl, rfl⟩
    obtain ⟨voice, hvoice, hstopped⟩ := hstop
    refine ⟨voice, hstopped, ?_⟩
    simp [step, longPressedButton, Voice.ChatViewController.longPressedButton, hrunning, hvoice]

theorem deleteViewRecording_one {s : State} {o : Overlay} (hoverlays : s.overlays = [o])
    (hrunning : s.running = [o.timer]) (htimer : s.timer = some o.timer)
    (htag : o.tag = d.peers.own.toInt) :
    (deleteViewRecording d s).overlays = [] ∧ (deleteViewRecording d s).running = [] := by
  refine ⟨?_, ?_⟩
  · simp [deleteViewRecording, removeWithTag, hoverlays, htag]
  · simp [deleteViewRecording, invalidate, hrunning, htimer]

/-- A release leaves nothing exactly if it finds the engine running or the button free. -/
theorem release_iff {s : State} (h : Inv d s) :
    ((release d s).overlays = [] ∧ (release d s).running = []) ↔
      (s.held = true → s.voice.recorder.isRunning = true) := by
  unfold release
  cases hheld : s.held with
  | true =>
    obtain ⟨o, hoverlays, hrunning, htimer, htag⟩ := h.held hheld
    split
    · next hengine =>
      exact iff_of_true (deleteViewRecording_one hoverlays hrunning htimer htag) fun _ => hengine
    · next hengine =>
      refine iff_of_false (fun hclear => ?_) fun hC => hengine (hC rfl)
      exact absurd (hoverlays.symm.trans hclear.1) (List.cons_ne_nil _ _)
  | false =>
    obtain ⟨hoverlays, hrunning, hengine⟩ := h.free hheld
    rw [hengine]
    exact iff_of_true ⟨hoverlays, hrunning⟩ Bool.noConfusion

theorem ended_iff {s : State} (h : Inv d s) (starts : Bool) :
    (∃ s', step d s (.gesture .ended starts) = some s' ∧ Shown s') ↔
      Recorded s (.gesture .ended starts) := by
  obtain ⟨voice, -, hsome⟩ := ended_spec (d := d) s starts
  rw [hsome]
  simp only [Option.some.injEq, exists_eq_left', Shown, Bool.false_eq_true, if_false]
  exact release_iff h

/-! ## Runs -/

/-- The callbacks leave the views alone and do not start the engine. -/
theorem callback_spec {s : State} {e : Voice.Event} (he : Enabled s e)
    (hcallback : ∀ g starts, e ≠ .gesture g starts) :
    ∃ voice : Voice.State, step d s e = some { s with voice := voice } ∧
      (s.voice.recorder.isRunning = false → voice.recorder.isRunning = false) := by
  cases e with
  | gesture g starts => exact absurd rfl (hcallback g starts)
  | recogniser session result error =>
    refine ⟨_, rfl, fun hstopped => ?_⟩
    show (s.voice.recorder.resultHandler result error).isRunning = false
    unfold Voice.Recorder.resultHandler
    cases result <;> dsimp only <;> split <;> first | rfl | exact hstopped
  | language token value =>
    obtain ⟨a, -, -, hstep⟩ := Voice.asked_spec d .chat he
    refine ⟨Voice.languageAnswered d .chat s.voice a value, ?_, fun hstopped => ?_⟩
    · show (Voice.step d .chat s.voice _).map _ = _
      rw [hstep, Option.map_some]
    · obtain ⟨text, hrecorder⟩ := Voice.languageAnswered_recorder s.voice a value
      rw [hrecorder]
      exact hstopped
  | translator ref =>
    obtain ⟨t, -, -, hstep⟩ := Voice.translating_spec d .chat he
    refine ⟨Voice.translated d .chat s.voice t, ?_, fun hstopped => ?_⟩
    · show (Voice.step d .chat s.voice _).map _ = _
      rw [hstep, Option.map_some]
    · obtain ⟨text, hrecorder⟩ := Voice.translated_recorder s.voice t
      rw [hrecorder]
      exact hstopped

theorem step_iff {s : State} {e : Voice.Event} (h : Inv d s) (he : Enabled s e) :
    (∃ s', step d s e = some s' ∧ Shown s') ↔ Recorded s e := by
  have hcallback : (∀ g starts, e ≠ .gesture g starts) → ∃ s', step d s e = some s' ∧ Shown s' := by
    intro hne
    obtain ⟨voice, hstep, hrunning⟩ := callback_spec (d := d) he hne
    exact ⟨_, hstep, shown_of_inv (inv_voice h hrunning)⟩
  cases e with
  | gesture g starts =>
    cases g with
    | began => exact began_iff h starts
    | ended => exact ended_iff h starts
    | tap => exact absurd rfl he
  | recogniser session result error =>
    exact iff_of_true (hcallback fun _ _ => Voice.Event.noConfusion) trivial
  | language token value => exact iff_of_true (hcallback fun _ _ => Voice.Event.noConfusion) trivial
  | translator ref => exact iff_of_true (hcallback fun _ _ => Voice.Event.noConfusion) trivial

theorem inv_step {s s' : State} {e : Voice.Event} (h : Inv d s) (he : Enabled s e)
    (hC : Recorded s e) (hs' : step d s e = some s') : Inv d s' := by
  have hcallback : (∀ g starts, e ≠ .gesture g starts) → Inv d s' := by
    intro hne
    obtain ⟨voice, hstep, hrunning⟩ := callback_spec (d := d) he hne
    obtain rfl := Option.some.inj (hstep.symm.trans hs')
    exact inv_voice h hrunning
  cases e with
  | gesture g starts =>
    cases g with
    | began =>
      have hspec := began_spec (d := d) s starts
      rw [if_neg (Bool.eq_false_iff.mp hC.2)] at hspec
      obtain ⟨voice, hsome⟩ := hspec
      obtain rfl := Option.some.inj (hsome.symm.trans hs')
      obtain ⟨hoverlays, hrunning, -⟩ := h.free hC.1
      refine ⟨fun _ => ⟨⟨d.peers.own.toInt, s.timers⟩, ?_, ?_, rfl, rfl⟩, Bool.noConfusion⟩
      · rw [addViewRecording, hoverlays, List.nil_append]
      · rw [addViewRecording, hrunning, List.nil_append]
    | ended =>
      obtain ⟨voice, hstopped, hsome⟩ := ended_spec (d := d) s starts
      obtain rfl := Option.some.inj (hsome.symm.trans hs')
      obtain ⟨hoverlays, hrunning⟩ := (release_iff h).mpr hC
      exact ⟨Bool.noConfusion, fun _ => ⟨hoverlays, hrunning, hstopped⟩⟩
    | tap => exact absurd rfl he
  | recogniser session result error => exact hcallback fun _ _ => Voice.Event.noConfusion
  | language token value => exact hcallback fun _ _ => Voice.Event.noConfusion
  | translator ref => exact hcallback fun _ _ => Voice.Event.noConfusion

/-- However presses, releases and callbacks follow each other, and whether or not the engine starts:
    the screen does not trap, shows one view with a running timer while the button is held and leaves
    nothing of it after the release, exactly if each press finds the button free and no tap, and each
    release of the held button finds the engine running. -/
theorem recorded_iff (d : Device) (run : Runs.Schedule (step d) Enabled State.init) :
    ((∃ t, Runs.exec (step d) State.init run.events = some t) ∧
        Runs.Throughout (step d) Shown State.init run.events) ↔
      Runs.Along (step d) Recorded State.init run.events :=
  Runs.safe_iff_along (I := Inv d) (fun _ _ hI he => step_iff hI he)
    (fun _ _ _ hI he hC hs' => inv_step hI he hC hs') (fun _ hI => shown_of_inv hI) inv_init
    run.enabled

/-- The engine does not start, and the button is released. -/
def silentPress : List Voice.Event := [.gesture .began false, .gesture .ended false]

/-- The view stays after the release, with its timer running. -/
theorem silentPress_leaves :
    Runs.Along (step Voice.speaker) Enabled State.init silentPress ∧
      (Runs.exec (step Voice.speaker) State.init silentPress).map
        (fun s => (s.held, s.overlays, s.running)) = some (false, [⟨2, 0⟩], [0]) ∧
      ¬ Runs.Throughout (step Voice.speaker) Shown State.init silentPress := by
  have hlast : (Runs.exec (step Voice.speaker) State.init silentPress).map
      (fun s => (s.held, s.overlays, s.running)) = some (false, [⟨2, 0⟩], [0]) := by decide
  refine ⟨by decide, hlast, fun h => ?_⟩
  obtain ⟨s, hs, hfields⟩ := Option.map_eq_some_iff.mp hlast
  simp only [Prod.mk.injEq] at hfields
  obtain ⟨hheld, hoverlays, -⟩ := hfields
  have hshown := Runs.throughout_last h hs
  rw [Shown, hheld] at hshown
  exact absurd (hoverlays.symm.trans hshown.1) (List.cons_ne_nil _ _)

end RecordingView

end Shiftgram
