import Shiftgram.VideoRoom

/- One video screen, over every order of the room's events. The screen binds one participant and
   keeps one view for it; three optional fields say so, and the handlers unwrap two of them by force.

   `orderly_iff`: no handler unwraps `nil`, and the screen has one view while the track of the bound
   participant is subscribed and none otherwise, exactly if the disconnect button is not tapped after
   the connection has failed or ended, and a connection is only reported where the participant bound
   then is subscribed if and only if the one bound before was.

   Assumed of the video service: a participant's events come between its connect and its disconnect,
   it has at most one video track, a track is subscribed only while it is published, and it has not
   been subscribed when its participant is first reported. -/
namespace Shiftgram

namespace VideoScreen

/-- The video track of a participant. -/
inductive Track
  | unpublished
  | published
  | subscribed
  deriving DecidableEq, Repr

/-- A participant as the room reports it, and whether it has published a video track. -/
structure Reported where
  participant : Nat
  published : Bool
  deriving DecidableEq, Repr

def Reported.track (p : Reported) : Track := if p.published then .published else .unpublished

/-- The screen, and the tracks of the participants that are connected. -/
structure State where
  screen : VideoViewController
  tracks : Nat → Option Track

/-- The screen once it is loaded. -/
def State.loaded (media : Media) (conversationName friendLaguage language : String) : State :=
  ⟨((VideoViewController.init conversationName friendLaguage language).viewDidLoad media).1,
    fun _ => none⟩

inductive Event
  | didConnect (remoteParticipants : List Reported)
  | didFailToConnect
  | didDisconnect
  | participantDidConnect (p : Reported)
  | participantDidDisconnect (participant : Nat)
  | publishedVideoTrack (participant : Nat)
  | unpublishedVideoTrack (participant : Nat)
  | subscribed (participant : Nat)
  | unsubscribed (participant : Nat)
  | tapGestureDisconnect
  deriving DecidableEq, Repr

/-- `videoTracks` of the bound participant, each with whether its `remoteTrack` is there. -/
def State.videoTracks (s : State) : List Bool :=
  match s.screen.remoteParticipant.bind s.tracks with
  | some .published => [false]
  | some .subscribed => [true]
  | some .unpublished | none => []

def State.setTrack (s : State) (participant : Nat) (track : Option Track) : State :=
  { s with tracks := Function.update s.tracks participant track }

/-- Those that are reported for the first time are connected. -/
def enroll (tracks : Nat → Option Track) (ps : List Reported) (participant : Nat) : Option Track :=
  (tracks participant).or ((ps.find? (·.participant = participant)).map (·.track))

def step (s : State) : Event → Option State
  | .didConnect ps =>
    some ⟨s.screen.didConnect (ps.map (·.participant)), enroll s.tracks ps⟩
  | .didFailToConnect => some { s with screen := s.screen.didFailToConnect }
  | .didDisconnect =>
    (s.screen.didDisconnect s.videoTracks).map fun screen => { s with screen := screen }
  | .participantDidConnect p =>
    some ⟨s.screen.participantDidConnect p.participant, enroll s.tracks [p]⟩
  | .participantDidDisconnect participant =>
    (s.screen.participantDidDisconnect participant s.videoTracks).map fun screen =>
      State.setTrack { s with screen := screen } participant none
  | .publishedVideoTrack participant => some (s.setTrack participant (some .published))
  | .unpublishedVideoTrack participant => some (s.setTrack participant (some .unpublished))
  | .subscribed participant =>
    some (State.setTrack { s with screen := s.screen.subscribed participant } participant
      (some .subscribed))
  | .unsubscribed participant =>
    (s.screen.unsubscribed participant).map fun screen =>
      State.setTrack { s with screen := screen } participant (some .published)
  | .tapGestureDisconnect => s.screen.disconnect.map fun screen => { s with screen := screen }

/-- What the service does, with failures and disconnections at any time. -/
def Enabled (s : State) : Event → Prop
  | .didConnect _ | .didFailToConnect | .didDisconnect | .tapGestureDisconnect => True
  | .participantDidConnect p => s.tracks p.participant = none
  | .participantDidDisconnect participant => s.tracks participant ≠ none
  | .publishedVideoTrack participant => s.tracks participant = some .unpublished
  | .unpublishedVideoTrack participant => s.tracks participant = some .published
  | .subscribed participant => s.tracks participant = some .published
  | .unsubscribed participant => s.tracks participant = some .subscribed

instance (s : State) (e : Event) : Decidable (Enabled s e) := by
  cases e <;> unfold Enabled <;> infer_instance

/-- The remote views in the screen's hierarchy. -/
def State.views (s : State) : List Nat := s.screen.remoteView.toList ++ s.screen.replaced

/-- The video track of the bound participant is subscribed. -/
def State.Receiving (s : State) : Prop :=
  s.screen.remoteParticipant.bind s.tracks = some .subscribed

instance (s : State) : Decidable s.Receiving := inferInstanceAs (Decidable (_ = _))

def Shown (s : State) : Prop := s.views.length ≤ 1 ∧ (s.views ≠ [] ↔ s.Receiving)

/-- Whether the connection has failed or ended since the screen was loaded. -/
def note (_ : State) (ended : Bool) : Event → Bool
  | .didFailToConnect | .didDisconnect => true
  | _ => ended

/-- A tap comes before the connection fails or ends; the participant bound by a connection is
    subscribed if and only if the one that was bound is. -/
def Orderly (p : State × Bool) : Event → Prop
  | .tapGestureDisconnect => p.2 = false
  | .didConnect ps =>
    ∀ q ∈ ps.head?, (p.1.tracks q.participant = some .subscribed ↔ p.1.Receiving)
  | .didFailToConnect | .didDisconnect | .participantDidConnect _ | .participantDidDisconnect _
  | .publishedVideoTrack _ | .unpublishedVideoTrack _ | .subscribed _ | .unsubscribed _ => True

/-- The same, where a tap finds a room. -/
def OrderlyRoom (s : State) : Event → Prop
  | .tapGestureDisconnect => s.screen.room ≠ none
  | e => Orderly (s, false) e

/-! ## The invariant -/

/-- The bound participant is connected, no view was replaced, and the view is there exactly while
    the bound participant is received. -/
structure Inv (s : State) : Prop where
  replaced : s.screen.replaced = []
  bound : ∀ p, s.screen.remoteParticipant = some p → s.tracks p ≠ none
  view : s.screen.remoteView ≠ none ↔ s.Receiving

/-- The view is there exactly while its participant is received, where no view was replaced. -/
theorem shown_iff_view {s : State} (h : s.screen.replaced = []) :
    Shown s ↔ (s.screen.remoteView ≠ none ↔ s.Receiving) := by
  unfold Shown State.views
  rw [h, List.append_nil]
  cases s.screen.remoteView <;> simp

theorem Inv.shown {s : State} (h : Inv s) : Shown s := (shown_iff_view h.replaced).mpr h.view

/-- Without the bound participant nothing is received. -/
theorem not_receiving {s : State} (h : s.screen.remoteParticipant = none) : ¬ s.Receiving := by
  rw [State.Receiving, h]
  exact (Option.some_ne_none _).symm

/-- A screen with nothing bound and no view. -/
theorem inv_cleared {s : State} (hparticipant : s.screen.remoteParticipant = none)
    (hview : s.screen.remoteView = none) (hreplaced : s.screen.replaced = []) : Inv s where
  replaced := hreplaced
  bound := fun p hp => absurd (hparticipant.symm.trans hp) (Option.some_ne_none p).symm
  view := iff_of_false (fun h => h hview) (not_receiving hparticipant)

theorem inv_loaded (media : Media) (conversationName friendLaguage language : String) :
    Inv (State.loaded media conversationName friendLaguage language) := by
  have hshown := VideoRoom.shown_viewDidLoad (.init conversationName friendLaguage language) media
  have hnone : (VideoViewController.init conversationName friendLaguage language).shown = [] := rfl
  rw [hnone, VideoViewController.shown, List.append_eq_nil_iff, List.append_eq_nil_iff,
    Option.toList_eq_nil_iff, Option.toList_eq_nil_iff] at hshown
  exact inv_cleared hshown.1.1 hshown.1.2 hshown.2

/-! ## What the handlers do -/

/-- `cleanupRemoteParticipant` finds the view it unwraps, and leaves neither view nor participant. -/
theorem cleanup_spec {s : State} (h : Inv s) :
    ∃ vc, s.screen.cleanupRemoteParticipant s.videoTracks = some vc ∧
      vc.remoteParticipant = none ∧ vc.remoteView = none ∧ vc.replaced = [] := by
  unfold VideoViewController.cleanupRemoteParticipant
  split
  · next hbound =>
    unfold State.videoTracks
    cases htrack : s.screen.remoteParticipant.bind s.tracks with
    | none =>
      obtain ⟨p, hp⟩ := Option.ne_none_iff_exists'.mp hbound
      rw [hp] at htrack
      exact absurd htrack (h.bound p hp)
    | some track =>
      have hview : track ≠ .subscribed → s.screen.remoteView = none := by
        intro hne
        by_contra hsome
        exact hne (Option.some.inj (htrack.symm.trans (h.view.mp hsome)))
      cases track with
      | unpublished => exact ⟨_, rfl, rfl, hview Track.noConfusion, h.replaced⟩
      | published => exact ⟨_, if_neg (fun h => Bool.noConfusion h.1), rfl, rfl, h.replaced⟩
      | subscribed => exact ⟨_, if_neg (fun hno => h.view.mpr htrack hno.2), rfl, rfl, h.replaced⟩
  · next hbound =>
    have hnone : s.screen.remoteParticipant = none := not_not.mp hbound
    refine ⟨s.screen, rfl, hnone, ?_, h.replaced⟩
    by_contra hsome
    exact not_receiving hnone (h.view.mp hsome)

/-- The view of the bound participant. -/
theorem view_of_bound {s : State} (h : Inv s) {participant : Nat}
    (hbound : s.screen.remoteParticipant = some participant) :
    s.screen.remoteView ≠ none ↔ s.tracks participant = some .subscribed := by
  rw [h.view, State.Receiving, hbound, Option.bind_some]

/-- A change of the track of one participant, with what the screen does about it: only if it is the
    bound one may the view change, and then it has to. -/
theorem inv_setTrack {s : State} {screen : VideoViewController} {participant : Nat}
    {track : Option Track} (h : Inv s)
    (hsame : screen.remoteParticipant = s.screen.remoteParticipant) (hreplaced : screen.replaced = [])
    (hown : s.screen.remoteParticipant = some participant →
      track ≠ none ∧ (screen.remoteView ≠ none ↔ track = some .subscribed))
    (hother : s.screen.remoteParticipant ≠ some participant →
      screen.remoteView = s.screen.remoteView) :
    Inv (State.setTrack { s with screen := screen } participant track) where
  replaced := hreplaced
  bound := by
    intro p hp
    show Function.update s.tracks participant track p ≠ none
    by_cases hparticipant : p = participant
    · rw [hparticipant, Function.update_self]
      exact (hown (hsame.symm.trans (hparticipant ▸ hp))).1
    · rw [Function.update_of_ne hparticipant]
      exact h.bound p (hsame.symm.trans hp)
  view := by
    show screen.remoteView ≠ none ↔
      screen.remoteParticipant.bind (Function.update s.tracks participant track) = some .subscribed
    rw [hsame]
    cases hbound : s.screen.remoteParticipant with
    | none =>
      rw [hother (hbound ▸ (Option.some_ne_none _).symm)]
      exact iff_of_false (fun hsome => not_receiving hbound (h.view.mp hsome))
        (Option.some_ne_none _).symm
    | some p =>
      rw [Option.bind_some]
      by_cases hparticipant : p = participant
      · subst hparticipant
        rw [Function.update_self]
        exact (hown hbound).2
      · have hne : s.screen.remoteParticipant ≠ some participant := fun hp =>
          hparticipant (Option.some.inj (hbound.symm.trans hp))
        rw [hother hne, Function.update_of_ne hparticipant]
        exact view_of_bound h hbound

/-- Nobody who is reported for the first time has a subscribed track. -/
theorem enroll_subscribed (tracks : Nat → Option Track) (ps : List Reported) (participant : Nat) :
    enroll tracks ps participant = some .subscribed ↔ tracks participant = some .subscribed := by
  unfold enroll
  cases htracks : tracks participant with
  | some track => rw [Option.some_or]
  | none =>
    rw [Option.none_or]
    refine iff_of_false (fun h => ?_) (Option.some_ne_none _).symm
    obtain ⟨p, -, hp⟩ := Option.map_eq_some_iff.mp h
    unfold Reported.track at hp
    split at hp <;> cases hp

theorem receiving_enroll {s : State} (ps : List Reported) :
    s.screen.remoteParticipant.bind (enroll s.tracks ps) = some .subscribed ↔ s.Receiving := by
  rw [State.Receiving]
  cases s.screen.remoteParticipant with
  | none => exact Iff.rfl
  | some p => exact enroll_subscribed s.tracks ps p

theorem enroll_ne_none {tracks : Nat → Option Track} {ps : List Reported} {participant : Nat}
    (h : tracks participant ≠ none ∨ participant ∈ ps.map (·.participant)) :
    enroll tracks ps participant ≠ none := by
  unfold enroll
  cases htracks : tracks participant with
  | some track => exact Option.some_ne_none track
  | none =>
    obtain ⟨p, hp, hsame⟩ := List.mem_map.mp (h.resolve_left fun hne => hne htracks)
    rw [Option.none_or, ne_eq, Option.map_eq_none_iff, List.find?_eq_none]
    exact fun hall => hall p hp (decide_eq_true hsame)

/-- New participants alone change nothing. -/
theorem inv_enroll {s : State} (h : Inv s) (ps : List Reported) :
    Inv ⟨s.screen, enroll s.tracks ps⟩ where
  replaced := h.replaced
  bound := fun p hp => enroll_ne_none (.inl (h.bound p hp))
  view := h.view.trans (receiving_enroll ps).symm

/-- A reported participant is bound in place of one that is subscribed if and only if it is. -/
theorem inv_bind {s : State} (h : Inv s) {ps : List Reported} {participant : Nat}
    (hreported : participant ∈ ps.map (·.participant))
    (hsame : s.tracks participant = some .subscribed ↔ s.Receiving) :
    Inv ⟨{ s.screen with remoteParticipant := some participant }, enroll s.tracks ps⟩ where
  replaced := h.replaced
  bound := fun _ hp => enroll_ne_none (.inr (Option.some.inj hp ▸ hreported))
  view := h.view.trans (hsame.symm.trans (enroll_subscribed s.tracks ps participant).symm)

theorem inv_participantDidConnect {s : State} (h : Inv s) {p : Reported}
    (hnew : s.tracks p.participant = none) :
    Inv ⟨s.screen.participantDidConnect p.participant, enroll s.tracks [p]⟩ := by
  unfold VideoViewController.participantDidConnect
  split
  · next hbound =>
    refine inv_bind h List.mem_cons_self (iff_of_false (fun hsub => ?_) (not_receiving hbound))
    rw [hnew] at hsub
    cases hsub
  · exact inv_enroll h [p]

theorem participantDidDisconnect_ok {s : State} (h : Inv s) (participant : Nat) :
    ∃ s', step s (.participantDidDisconnect participant) = some s' ∧ Inv s' := by
  simp only [step, VideoViewController.participantDidDisconnect]
  split
  · obtain ⟨vc, hvc, hparticipant, hview, hreplaced⟩ := cleanup_spec h
    exact ⟨_, by rw [hvc, Option.map_some], inv_cleared hparticipant hview hreplaced⟩
  · next hbound =>
    exact ⟨_, rfl, inv_setTrack h rfl h.replaced (fun hp => absurd hp hbound) fun _ => rfl⟩

/-- A track that is not subscribed, before or after. -/
theorem inv_published {s : State} (h : Inv s) {participant : Nat} {track : Track}
    (hbefore : s.tracks participant ≠ some .subscribed) (hafter : track ≠ .subscribed) :
    Inv (s.setTrack participant (some track)) := by
  refine inv_setTrack h rfl h.replaced (fun hbound => ⟨Option.some_ne_none _, ?_⟩) fun _ => rfl
  rw [view_of_bound h hbound, Option.some.injEq]
  exact iff_of_false hbefore hafter

theorem inv_subscribed {s : State} (h : Inv s) {participant : Nat}
    (hpublished : s.tracks participant = some .published) :
    Inv (State.setTrack { s with screen := s.screen.subscribed participant } participant
      (some .subscribed)) := by
  unfold VideoViewController.subscribed
  split
  · next hbound =>
    -- there is no view yet
    have hview : s.screen.remoteView = none := by
      by_contra hsome
      have hsub := (view_of_bound h hbound).mp hsome
      rw [hpublished] at hsub
      cases hsub
    refine inv_setTrack h rfl ?_ (fun _ => ⟨Option.some_ne_none _, ?_⟩) fun hne => absurd hbound hne
    · rw [h.replaced, hview, Option.toList_none, List.append_nil]
    · exact iff_of_true (Option.some_ne_none _) rfl
  · next hbound => exact inv_setTrack h rfl h.replaced (fun hp => absurd hp hbound) fun _ => rfl

theorem unsubscribed_ok {s : State} (h : Inv s) {participant : Nat}
    (hsubscribed : s.tracks participant = some .subscribed) :
    ∃ s', step s (.unsubscribed participant) = some s' ∧ Inv s' := by
  simp only [step, VideoViewController.unsubscribed]
  split
  · next hbound =>
    rw [if_neg ((view_of_bound h hbound).mpr hsubscribed)]
    refine ⟨_, rfl, inv_setTrack h rfl h.replaced (fun _ => ⟨Option.some_ne_none _, ?_⟩)
      fun hne => absurd hbound hne⟩
    exact iff_of_false (fun hsome => hsome rfl) (by decide)
  · next hbound =>
    exact ⟨_, rfl, inv_setTrack h rfl h.replaced (fun hp => absurd hp hbound) fun _ => rfl⟩

/-! ## Runs -/

/-- Orderly steps do not trap and keep the invariant. -/
theorem step_ok {s : State} {e : Event} (h : Inv s) (he : Enabled s e) (hC : OrderlyRoom s e) :
    ∃ s', step s e = some s' ∧ Inv s' := by
  cases e with
  | didConnect ps =>
    cases ps with
    | nil => exact ⟨_, rfl, inv_enroll h []⟩
    | cons p ps => exact ⟨_, rfl, inv_bind h List.mem_cons_self (hC p rfl)⟩
  | didFailToConnect => exact ⟨_, rfl, h.replaced, h.bound, h.view⟩
  | didDisconnect =>
    obtain ⟨vc, hvc, hparticipant, hview, hreplaced⟩ := cleanup_spec h
    refine ⟨⟨{ vc with room := none }, s.tracks⟩, ?_, inv_cleared hparticipant hview hreplaced⟩
    simp only [step, VideoViewController.didDisconnect, hvc]
    rfl
  | participantDidConnect p => exact ⟨_, rfl, inv_participantDidConnect h he⟩
  | participantDidDisconnect participant => exact participantDidDisconnect_ok h participant
  | publishedVideoTrack participant =>
    exact ⟨_, rfl, inv_published h (by rw [he]; decide) (by decide)⟩
  | unpublishedVideoTrack participant =>
    exact ⟨_, rfl, inv_published h (by rw [he]; decide) (by decide)⟩
  | subscribed participant => exact ⟨_, rfl, inv_subscribed h he⟩
  | unsubscribed participant => exact unsubscribed_ok h he
  | tapGestureDisconnect =>
    refine ⟨s, ?_, h⟩
    simp only [step, VideoViewController.disconnect, if_neg hC, Option.map_some]

/-- A step that does not trap and leaves the view as it should be is orderly. -/
theorem orderly_of_shown {s s' : State} {e : Event} (h : Inv s) (hs' : step s e = some s')
    (hshown : Shown s') : OrderlyRoom s e := by
  cases e with
  | didConnect ps =>
    intro p hp
    obtain ⟨ps, rfl⟩ := List.head?_eq_some_iff.mp hp
    obtain rfl := Option.some.inj hs'
    -- the view is that of the participant bound before
    have hview : s.screen.remoteView ≠ none ↔
        enroll s.tracks (p :: ps) p.participant = some .subscribed :=
      (shown_iff_view (by exact h.replaced)).mp hshown
    exact (enroll_subscribed s.tracks _ p.participant).symm.trans (hview.symm.trans h.view)
  | tapGestureDisconnect =>
    intro hroom
    simp only [step, VideoViewController.disconnect, if_pos hroom] at hs'
    cases hs'
  | didFailToConnect => trivial
  | didDisconnect => trivial
  | participantDidConnect p => trivial
  | participantDidDisconnect participant => trivial
  | publishedVideoTrack participant => trivial
  | unpublishedVideoTrack participant => trivial
  | subscribed participant => trivial
  | unsubscribed participant => trivial

/-! ## The room -/

theorem room_cleanup {vc vc' : VideoViewController} {videoTracks : List Bool}
    (h : vc.cleanupRemoteParticipant videoTracks = some vc') : vc'.room = vc.room := by
  unfold VideoViewController.cleanupRemoteParticipant at h
  split at h
  · split at h
    · obtain rfl := Option.some.inj h
      rfl
    · split at h
      · cases h
      · obtain rfl := Option.some.inj h
        rfl
  · obtain rfl := Option.some.inj h
    rfl

/-- A loaded screen has a room until the connection fails or ends. -/
theorem room_step {s s' : State} {e : Event} {ended : Bool}
    (h : s.screen.room ≠ none ↔ ended = false) (hs' : step s e = some s') :
    s'.screen.room ≠ none ↔ note s ended e = false := by
  cases e with
  | didFailToConnect =>
    obtain rfl := Option.some.inj hs'
    exact iff_of_false (fun hroom => hroom rfl) Bool.noConfusion
  | didDisconnect =>
    obtain ⟨vc, hvc, rfl⟩ := Option.map_eq_some_iff.mp hs'
    obtain ⟨vc', -, hvc⟩ := Option.bind_eq_some_iff.mp hvc
    obtain rfl := Option.some.inj hvc
    exact iff_of_false (fun hroom => hroom rfl) Bool.noConfusion
  | didConnect ps =>
    obtain rfl := Option.some.inj hs'
    cases ps <;> exact h
  | participantDidConnect p =>
    obtain rfl := Option.some.inj hs'
    simp only [VideoViewController.participantDidConnect]
    split <;> exact h
  | participantDidDisconnect participant =>
    obtain ⟨vc, hvc, rfl⟩ := Option.map_eq_some_iff.mp hs'
    unfold VideoViewController.participantDidDisconnect at hvc
    split at hvc
    · exact room_cleanup hvc ▸ h
    · exact Option.some.inj hvc ▸ h
  | publishedVideoTrack participant => exact Option.some.inj hs' ▸ h
  | unpublishedVideoTrack participant => exact Option.some.inj hs' ▸ h
  | subscribed participant =>
    obtain rfl := Option.some.inj hs'
    simp only [State.setTrack, VideoViewController.subscribed]
    split <;> exact h
  | unsubscribed participant =>
    obtain ⟨vc, hvc, rfl⟩ := Option.map_eq_some_iff.mp hs'
    unfold VideoViewController.unsubscribed at hvc
    split at hvc
    · split at hvc
      · cases hvc
      · exact Option.some.inj hvc ▸ h
    · exact Option.some.inj hvc ▸ h
  | tapGestureDisconnect =>
    obtain ⟨vc, hvc, rfl⟩ := Option.map_eq_some_iff.mp hs'
    unfold VideoViewController.disconnect at hvc
    split at hvc
    · cases hvc
    · exact Option.some.inj hvc ▸ h

theorem room_loaded (media : Media) (conversationName friendLaguage language : String) :
    (State.loaded media conversationName friendLaguage language).screen.room = some "Shiftgram" := rfl

/-- Over any run from the loaded screen, taps find a room as long as the connection has neither
    failed nor ended. -/
theorem orderly_iff_room (media : Media) (conversationName friendLaguage language : String)
    (events : List Event) :
    let s := State.loaded media conversationName friendLaguage language
    Runs.Along (Runs.observe step note) Orderly (s, false) events ↔
      Runs.Along step OrderlyRoom s events := by
  refine Runs.along_observe (I := fun s ended => s.screen.room ≠ none ↔ ended = false)
    (fun s ended e h => ?_) (fun s ended e s' h hs' => room_step h hs') ?_
  · cases e with
    | tapGestureDisconnect => exact h.symm
    | _ => exact Iff.rfl
  · rw [room_loaded]
    exact iff_of_true (Option.some_ne_none _) rfl

/-- From the loaded screen on, however the events of the room and the taps follow each other: no
    handler traps, and there is one view while the bound participant is received and none otherwise,
    exactly if all steps are orderly. -/
theorem orderly_iff (media : Media) (conversationName friendLaguage language : String)
    (run : Runs.Schedule step Enabled (State.loaded media conversationName friendLaguage language)) :
    let s := State.loaded media conversationName friendLaguage language
    ((∃ t, Runs.exec step s run.events = some t) ∧ Runs.Throughout step Shown s run.events) ↔
      Runs.Along (Runs.observe step note) Orderly (s, false) run.events := by
  intro s
  have hroom := orderly_iff_room media conversationName friendLaguage language run.events
  refine Iff.trans ?_ hroom.symm
  refine Runs.safe_iff_along (I := Inv) (fun s e hI he => ⟨?_, fun hC => ?_⟩)
    (fun s e s' hI he hC hs' => ?_) (fun _ hI => hI.shown)
    (inv_loaded media conversationName friendLaguage language) run.enabled
  · rintro ⟨s', hs', hshown⟩
    exact orderly_of_shown hI hs' hshown
  · exact (step_ok hI he hC).imp fun _ hs' => ⟨hs'.1, hs'.2.shown⟩
  · obtain ⟨t, ht, hIt⟩ := step_ok hI he hC
    exact Option.some.inj (ht.symm.trans hs') ▸ hIt

/-- The connection fails, and the disconnect button is tapped. -/
def failedCall : List Event := [.didFailToConnect, .tapGestureDisconnect]

/-- `self.room!` finds no room. -/
theorem failedCall_traps :
    let s := State.loaded ⟨true, true⟩ "6" "en" "en"
    Runs.Along step Enabled s failedCall ∧ Runs.exec step s failedCall = none ∧
      ¬ ((∃ t, Runs.exec step s failedCall = some t) ∧ Runs.Throughout step Shown s failedCall) := by
  intro s
  have hnone : Runs.exec step s failedCall = none := rfl
  refine ⟨⟨trivial, fun _ _ => ⟨trivial, fun _ _ => trivial⟩⟩, hnone, ?_⟩
  rintro ⟨⟨t, ht⟩, -⟩
  rw [hnone] at ht
  cases ht

end VideoScreen

end Shiftgram
