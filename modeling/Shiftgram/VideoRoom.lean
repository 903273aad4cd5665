import Shiftgram.ConversationName
import Shiftgram.Runs
import Mathlib.Data.Sym.Sym2

/- Video calls. Every video screen connects to the room with one and the same name, whatever its
   conversation is. It binds the first participant that the room lists, or else the next one that
   joins, and renders the video of the one it has bound.

   As long as a client enters the room only when all who are in it are of its own conversation, every
   screen keeps to clients of its conversation. Where another pair is in a call already, the screen
   that enters may be told of one of them, and binds him (`private_iff`).

   Assumed of the video service, which is not in the repository: clients that connect with one room
   name are in one room, the participants a room lists are others in that room, and delegate events
   come from that room only. -/
namespace Shiftgram

/-- The options that the screens set. -/
structure TVIConnectOptions where
  audioTracks : List String
  videoTracks : List String
  roomName : String
  deriving DecidableEq, Repr

/-- Which tracks the device can create. -/
structure Media where
  microphone : Bool
  camera : Bool
  deriving DecidableEq, Repr

/-- The video screen. Tracks are given by their names, participants by their numbers. -/
structure VideoViewController where
  conversationName : String
  friendLaguage : String
  language : String
  room : Option String
  localVideoTrack : Option String
  localAudioTrack : Option String
  remoteParticipant : Option Nat
  /-- The participant whose track the view `remoteView` renders. -/
  remoteView : Option Nat
  /-- The same for views that were replaced and are still in the hierarchy. -/
  replaced : List Nat
  deriving DecidableEq, Repr

namespace VideoViewController

def init (conversationName friendLaguage language : String) : VideoViewController :=
  ⟨conversationName, friendLaguage, language, none, none, none, none, none, []⟩

def startPreview (media : Media) (vc : VideoViewController) : VideoViewController :=
  { vc with localVideoTrack := if media.camera then some "Camera" else none }

def prepareLocalMedia (media : Media) (vc : VideoViewController) : VideoViewController :=
  let vc :=
    if vc.localAudioTrack = none then
      if vc.language = vc.friendLaguage then
        { vc with localAudioTrack := if media.microphone then some "Microphone" else none }
      else vc
    else vc
  if vc.localVideoTrack = none then vc.startPreview media else vc

/-- The options as the builder leaves them; they start with no tracks. -/
def connectOptions (vc : VideoViewController) : TVIConnectOptions where
  audioTracks := if vc.language = vc.friendLaguage then vc.localAudioTrack.toList else []
  videoTracks := vc.localVideoTrack.toList
  roomName := "Shiftgram"

def initConnection (media : Media) (vc : VideoViewController) :
    VideoViewController × TVIConnectOptions :=
  let vc := vc.prepareLocalMedia media
  ({ vc with room := some vc.connectOptions.roomName }, vc.connectOptions)

/-- `viewDidLoad`, as far as the room is concerned. -/
def viewDidLoad (media : Media) (vc : VideoViewController) :
    VideoViewController × TVIConnectOptions :=
  (vc.startPreview media).initConnection media

/-- `videoTracks` are those of the bound participant, each with whether its `remoteTrack` is there. -/
def cleanupRemoteParticipant (videoTracks : List Bool) (vc : VideoViewController) :
    Option VideoViewController :=
  if vc.remoteParticipant ≠ none then
    match videoTracks with
    | [] => some { vc with remoteParticipant := none }
    | remoteTrack :: _ =>
      -- `removeRenderer(self.remoteView!)` is only evaluated where there is a track
      if remoteTrack = true ∧ vc.remoteView = none then none
      else some { vc with remoteView := none, remoteParticipant := none }
  else some vc

/-- `didConnect(to:)` -/
def didConnect (remoteParticipants : List Nat) (vc : VideoViewController) : VideoViewController :=
  match remoteParticipants with
  | [] => vc
  | participant :: _ => { vc with remoteParticipant := some participant }

def didDisconnect (videoTracks : List Bool) (vc : VideoViewController) :
    Option VideoViewController := do
  let vc ← vc.cleanupRemoteParticipant videoTracks
  some { vc with room := none }

def didFailToConnect (vc : VideoViewController) : VideoViewController := { vc with room := none }

def participantDidConnect (participant : Nat) (vc : VideoViewController) : VideoViewController :=
  if vc.remoteParticipant = none then { vc with remoteParticipant := some participant } else vc

def participantDidDisconnect (participant : Nat) (videoTracks : List Bool)
    (vc : VideoViewController) : Option VideoViewController :=
  if vc.remoteParticipant = some participant then vc.cleanupRemoteParticipant videoTracks
  else some vc

/-- `subscribed(to:publication:for:)`, for a video track. -/
def subscribed (participant : Nat) (vc : VideoViewController) : VideoViewController :=
  if vc.remoteParticipant = some participant then
    { vc with replaced := vc.replaced ++ vc.remoteView.toList, remoteView := some participant }
  else vc

/-- `unsubscribed(from:publication:for:)`, for a video track. -/
def unsubscribed (participant : Nat) (vc : VideoViewController) : Option VideoViewController :=
  if vc.remoteParticipant = some participant then
    if vc.remoteView = none then none else some { vc with remoteView := none }
  else some vc

/-- `self.room!.disconnect()`, in `tapGestureDisconnect`. -/
def disconnect (vc : VideoViewController) : Option VideoViewController :=
  if vc.room = none then none else some vc

/-- The participants that the screen has bound or renders. -/
def shown (vc : VideoViewController) : List Nat :=
  vc.remoteParticipant.toList ++ vc.remoteView.toList ++ vc.replaced

end VideoViewController

namespace VideoRoom

/-- A client of the service: a video screen, and the users whose conversation it was opened in. -/
structure Client where
  user : Int32
  friend : Int32
  options : TVIConnectOptions
  joined : Bool
  screen : VideoViewController
  deriving DecidableEq, Repr

def Client.conversation (c : Client) : Sym2 Int32 := s(c.user, c.friend)

/-- Clients are known by their positions. -/
structure State where
  clients : List Client
  deriving DecidableEq, Repr

def State.init : State := ⟨[]⟩

inductive Event
  | viewDidLoad (user friend : Int32) (language friendLaguage : String) (media : Media)
  /-- The service admits the client to the room. -/
  | joined (client : Nat)
  /-- The client is no longer in the room. -/
  | left (client : Nat)
  | didConnect (client : Nat) (remoteParticipants : List Nat)
  | didFailToConnect (client : Nat)
  | didDisconnect (client : Nat) (videoTracks : List Bool)
  | participantDidConnect (client participant : Nat)
  | participantDidDisconnect (client participant : Nat) (videoTracks : List Bool)
  | subscribed (client participant : Nat)
  | unsubscribed (client participant : Nat)
  | tapGestureDisconnect (client : Nat)
  deriving DecidableEq, Repr

/-- A delegate method of the client's screen. -/
def State.onScreen (s : State) (client : Nat)
    (f : VideoViewController → Option VideoViewController) : Option State := do
  let c ← s.clients[client]?
  let screen ← f c.screen
  some ⟨s.clients.set client { c with screen }⟩

def step (s : State) : Event → Option State
  | .viewDidLoad user friend language friendLaguage media => do
    let conversationName ← ConversationViewController.conversationName user friend
    let loaded := (VideoViewController.init conversationName friendLaguage language).viewDidLoad media
    some ⟨s.clients ++ [⟨user, friend, loaded.2, false, loaded.1⟩]⟩
  | .joined client => do
    let c ← s.clients[client]?
    some ⟨s.clients.set client { c with joined := true }⟩
  | .left client => do
    let c ← s.clients[client]?
    some ⟨s.clients.set client { c with joined := false }⟩
  | .didConnect client participants => s.onScreen client fun vc => some (vc.didConnect participants)
  | .didFailToConnect client => s.onScreen client fun vc => some vc.didFailToConnect
  | .didDisconnect client videoTracks => s.onScreen client fun vc => vc.didDisconnect videoTracks
  | .participantDidConnect client participant =>
    s.onScreen client fun vc => some (vc.participantDidConnect participant)
  | .participantDidDisconnect client participant videoTracks =>
    s.onScreen client fun vc => vc.participantDidDisconnect participant videoTracks
  | .subscribed client participant => s.onScreen client fun vc => some (vc.subscribed participant)
  | .unsubscribed client participant => s.onScreen client fun vc => vc.unsubscribed participant
  | .tapGestureDisconnect client => s.onScreen client fun vc => vc.disconnect

/-- The room the service has admitted the client to. -/
def State.room (s : State) (client : Nat) : Option String := do
  let c ← s.clients[client]?
  if c.joined then some c.options.roomName else none

def State.Roommates (s : State) (client participant : Nat) : Prop :=
  client ≠ participant ∧ s.room client ≠ none ∧ s.room participant = s.room client

/-- What the service does. Others that it lists or reports as connected are in the client's room
    then; what it says of a participant later may come when he, or the client, has left. -/
def Enabled (s : State) : Event → Prop
  | .viewDidLoad .. => True
  | .joined client | .left client | .didFailToConnect client | .didDisconnect client _
  | .tapGestureDisconnect client | .participantDidDisconnect client _ _ | .subscribed client _
  | .unsubscribed client _ => client < s.clients.length
  | .didConnect client participants =>
    s.room client ≠ none ∧ ∀ participant ∈ participants, s.Roommates client participant
  | .participantDidConnect client participant => s.Roommates client participant

instance (s : State) (client participant : Nat) : Decidable (s.Roommates client participant) :=
  inferInstanceAs (Decidable (_ ∧ _ ∧ _))

instance (s : State) (e : Event) : Decidable (Enabled s e) := by
  cases e <;> unfold Enabled <;> infer_instance

def State.conversations (s : State) : List (Sym2 Int32) := s.clients.map Client.conversation

/-- What every screen has bound or renders is a client of the screen's conversation. -/
def Private (s : State) : Prop :=
  ∀ c ∈ s.clients, ∀ participant ∈ c.screen.shown,
    s.conversations[participant]? = some c.conversation

/-- The participant is a client of the same conversation. -/
def State.Fellow (s : State) (client participant : Nat) : Prop :=
  s.conversations[participant]? = s.conversations[client]?

/-- A client enters the room only when all who are in it are of its conversation. -/
def EntersOwnCall (s : State) : Event → Prop
  | .joined client => ∀ c, s.clients[client]? = some c →
      ∀ other ∈ s.clients, other.joined = true → other.conversation = c.conversation
  | _ => True

/-- What is told to a screen that is there, as opposed to who opens a screen, enters and leaves. -/
def Event.toScreen : Event → Bool
  | .viewDidLoad .. | .joined _ | .left _ => false
  | _ => true

def Told (s : State) (e : Event) : Prop := e.toScreen = true ∧ Enabled s e

/-- Whatever the service tells the screens from here on, they keep to their conversations. -/
def StaysPrivate (s : State) : Prop :=
  ∀ es : List Event, Runs.Along step Told s es → Runs.Throughout step Private s es

/-- All who are in the room are of one conversation. -/
def OneCall (s : State) : Prop :=
  ∀ c ∈ s.clients, ∀ other ∈ s.clients, c.joined = true → other.joined = true →
    other.conversation = c.conversation

/-- If the screen binds a participant, it is a client of the same conversation. -/
def BindsFellow (s : State) : Event → Prop
  | .didConnect client participants => ∀ participant ∈ participants.head?, s.Fellow client participant
  | .participantDidConnect client participant =>
    s.clients[client]?.bind (·.screen.remoteParticipant) = none → s.Fellow client participant
  | _ => True

/-! ## Which participants the delegate methods bind or render -/

section Screen

variable {vc vc' : VideoViewController} {participant : Nat} {videoTracks : List Bool}

theorem shown_cleanup (h : vc.cleanupRemoteParticipant videoTracks = some vc') :
    vc'.shown ⊆ vc.shown := by
  unfold VideoViewController.cleanupRemoteParticipant at h
  split at h
  · split at h
    · obtain rfl := Option.some.inj h
      simp [VideoViewController.shown]
    · split at h
      · cases h
      · obtain rfl := Option.some.inj h
        simp [VideoViewController.shown]
  · obtain rfl := Option.some.inj h
    exact List.Subset.refl _

theorem shown_didDisconnect (h : vc.didDisconnect videoTracks = some vc') :
    vc'.shown ⊆ vc.shown := by
  obtain ⟨vc'', hvc, h⟩ := Option.bind_eq_some_iff.mp h
  obtain rfl := Option.some.inj h
  have hsub := shown_cleanup hvc
  exact hsub

theorem shown_participantDidDisconnect
    (h : vc.participantDidDisconnect participant videoTracks = some vc') :
    vc'.shown ⊆ vc.shown := by
  unfold VideoViewController.participantDidDisconnect at h
  split at h
  · exact shown_cleanup h
  · obtain rfl := Option.some.inj h
    exact List.Subset.refl _

/-- Only the video of the bound participant is rendered. -/
theorem shown_subscribed : (vc.subscribed participant).shown ⊆ vc.shown := by
  unfold VideoViewController.subscribed
  split
  · next hbound =>
    intro p hp
    simp only [VideoViewController.shown, hbound, List.mem_append, Option.mem_toList] at hp ⊢
    tauto
  · exact List.Subset.refl _

theorem shown_unsubscribed (h : vc.unsubscribed participant = some vc') : vc'.shown ⊆ vc.shown := by
  unfold VideoViewController.unsubscribed at h
  split at h
  · split at h
    · cases h
    · obtain rfl := Option.some.inj h
      simp [VideoViewController.shown]
  · obtain rfl := Option.some.inj h
    exact List.Subset.refl _

theorem shown_disconnect (h : vc.disconnect = some vc') : vc'.shown ⊆ vc.shown := by
  unfold VideoViewController.disconnect at h
  split at h
  · cases h
  · obtain rfl := Option.some.inj h
    exact List.Subset.refl _

/-- A new screen keeps to what it has bound: nobody. -/
theorem shown_viewDidLoad (vc : VideoViewController) (media : Media) :
    (vc.viewDidLoad media).1.shown = vc.shown := by
  have hprepare : ∀ vc : VideoViewController, (vc.prepareLocalMedia media).shown = vc.shown := by
    intro vc
    simp only [VideoViewController.prepareLocalMedia]
    split_ifs <;> rfl
  exact hprepare (vc.startPreview media)

end Screen

/-! ## Runs -/

variable {s s' : State} {e : Event} {client : Nat}
  {f : VideoViewController → Option VideoViewController}

theorem conversations_getElem? {c : Client} (hc : s.clients[client]? = some c) :
    s.conversations[client]? = some c.conversation := by
  rw [State.conversations, List.getElem?_map, hc]
  rfl

theorem fellow_shown (hs : Private s) {c : Client} (hc : s.clients[client]? = some c) :
    ∀ participant ∈ c.screen.shown, s.Fellow client participant := by
  intro participant hp
  rw [State.Fellow, hs c (List.mem_of_getElem? hc) participant hp, conversations_getElem? hc]

/-- One client changes: what its screen has bound or renders then decides. -/
theorem private_set (hs : Private s) {c c' : Client} (hc : s.clients[client]? = some c)
    (hc' : c'.conversation = c.conversation) :
    Private ⟨s.clients.set client c'⟩ ↔
      ∀ participant ∈ c'.screen.shown, s.Fellow client participant := by
  have hlt : client < s.clients.length := (List.getElem?_eq_some_iff.mp hc).1
  have hsame := conversations_getElem? hc
  have hconversations : (s.clients.set client c').map Client.conversation = s.conversations :=
    Swift.map_set_of_same hc hc'
  unfold Private State.Fellow
  rw [hsame, State.conversations, hconversations, ← hc']
  exact ⟨fun h => h c' (List.mem_set hlt _), fun h => Swift.forall_mem_set hs h client⟩

/-- Entering and leaving bind nobody. -/
theorem private_setJoined (hs : Private s) {c : Client} (hc : s.clients[client]? = some c)
    (joined : Bool) : Private ⟨s.clients.set client { c with joined }⟩ := by
  have hold := fellow_shown hs hc
  have hiff := private_set hs hc (rfl : Client.conversation { c with joined } = _)
  exact hiff.mpr hold

theorem private_onScreen (hs : Private s) (h : s.onScreen client f = some s') :
    ∃ c screen, s.clients[client]? = some c ∧ f c.screen = some screen ∧
      (Private s' ↔ ∀ participant ∈ screen.shown, s.Fellow client participant) := by
  obtain ⟨c, hc, h⟩ := Option.bind_eq_some_iff.mp h
  obtain ⟨screen, hscreen, h⟩ := Option.bind_eq_some_iff.mp h
  obtain rfl := Option.some.inj h
  exact ⟨c, screen, hc, hscreen, private_set hs hc rfl⟩

theorem private_of_subset (hs : Private s) (h : s.onScreen client f = some s')
    (hf : ∀ {vc vc'}, f vc = some vc' → vc'.shown ⊆ vc.shown) : Private s' := by
  obtain ⟨c, screen, hc, hscreen, hiff⟩ := private_onScreen hs h
  exact hiff.mpr fun participant hp => fellow_shown hs hc participant (hf hscreen hp)

theorem private_viewDidLoad (hs : Private s) {user friend : Int32} {language friendLaguage : String}
    {media : Media} (h : step s (.viewDidLoad user friend language friendLaguage media) = some s') :
    Private s' := by
  obtain ⟨conversationName, -, h⟩ := Option.bind_eq_some_iff.mp h
  obtain rfl := Option.some.inj h
  intro c hc participant hp
  rcases List.mem_append.mp hc with hold | hnew
  · have hsame := hs c hold participant hp
    rw [State.conversations, List.map_append]
    exact (List.getElem?_append_left (List.getElem?_eq_some_iff.mp hsame).1).trans hsame
  · -- a new screen has bound nobody
    obtain rfl := List.mem_singleton.mp hnew
    have hnone := shown_viewDidLoad (.init conversationName friendLaguage language) media
    rw [hnone] at hp
    cases hp

/-- `remoteParticipants[0]` is all that `didConnect` binds. -/
theorem private_didConnect (hs : Private s) {participants : List Nat}
    (h : s.onScreen client (fun vc => some (vc.didConnect participants)) = some s') :
    Private s' ↔ ∀ participant ∈ participants.head?, s.Fellow client participant := by
  obtain ⟨c, screen, hc, hscreen, hiff⟩ := private_onScreen hs h
  obtain rfl := Option.some.inj hscreen
  rw [hiff]
  have hold := fellow_shown hs hc
  cases participants with
  | nil => exact iff_of_true hold fun _ h => nomatch h
  | cons p participants =>
    simp only [VideoViewController.didConnect, VideoViewController.shown, List.mem_append,
      Option.mem_toList, Option.mem_def, List.head?_cons] at hold ⊢
    refine ⟨fun h participant hp => h participant (.inl (.inl hp)), fun h participant hp => ?_⟩
    rcases hp with (hp | hp) | hp
    · exact h participant hp
    · exact hold participant (.inl (.inr hp))
    · exact hold participant (.inr hp)

theorem private_participantDidConnect (hs : Private s) {participant : Nat}
    (h : s.onScreen client (fun vc => some (vc.participantDidConnect participant)) = some s') :
    Private s' ↔ (s.clients[client]?.bind (·.screen.remoteParticipant) = none →
      s.Fellow client participant) := by
  obtain ⟨c, screen, hc, hscreen, hiff⟩ := private_onScreen hs h
  obtain rfl := Option.some.inj hscreen
  have hold := fellow_shown hs hc
  rw [hiff, hc, Option.bind_some]
  unfold VideoViewController.participantDidConnect
  split
  · next hnone =>
    rw [forall_prop_of_true hnone]
    simp only [VideoViewController.shown, List.mem_append, Option.mem_toList,
      Option.some.injEq] at hold ⊢
    refine ⟨fun h => h participant (.inl (.inl rfl)), fun h p hp => ?_⟩
    rcases hp with (rfl | hp) | hp
    · exact h
    · exact hold p (.inl (.inr hp))
    · exact hold p (.inr hp)
  · next hbound => exact ⟨fun _ hnone => absurd hnone hbound, fun _ => hold⟩

/-- A step keeps the screens to their conversations exactly if what it binds is a fellow client. -/
theorem step_private (hs : Private s) (h : step s e = some s') : Private s' ↔ BindsFellow s e := by
  cases e with
  | didConnect client participants => exact private_didConnect hs h
  | participantDidConnect client participant => exact private_participantDidConnect hs h
  | viewDidLoad user friend language friendLaguage media =>
    exact iff_of_true (private_viewDidLoad hs h) trivial
  | joined client | left client =>
    obtain ⟨c, hc, h⟩ := Option.bind_eq_some_iff.mp h
    obtain rfl := Option.some.inj h
    exact iff_of_true (private_setJoined hs hc _) trivial
  | didFailToConnect client =>
    refine iff_of_true (private_of_subset (f := fun vc => some vc.didFailToConnect) hs h ?_) trivial
    rintro vc vc' ⟨⟩
    exact List.Subset.refl _
  | didDisconnect client videoTracks =>
    exact iff_of_true (private_of_subset hs h shown_didDisconnect) trivial
  | participantDidDisconnect client participant videoTracks =>
    exact iff_of_true (private_of_subset hs h shown_participantDidDisconnect) trivial
  | subscribed client participant =>
    refine iff_of_true (private_of_subset (f := fun vc => some (vc.subscribed participant)) hs h ?_)
      trivial
    rintro vc vc' ⟨⟩
    exact shown_subscribed
  | unsubscribed client participant =>
    exact iff_of_true (private_of_subset hs h shown_unsubscribed) trivial
  | tapGestureDisconnect client =>
    exact iff_of_true (private_of_subset hs h shown_disconnect) trivial

/-! ## Who is in the room -/

/-- All clients connect with the same room name. -/
def Named (s : State) : Prop := ∀ c ∈ s.clients, c.options.roomName = "Shiftgram"

/-- Every client was one before, in the room if it is now, or has a new screen and is outside. -/
structure NobodyEnters (s s' : State) : Prop where
  old : ∀ c' ∈ s'.clients, (∃ c ∈ s.clients, c'.options = c.options ∧
      c'.conversation = c.conversation ∧ (c'.joined = true → c.joined = true)) ∨
    (c'.options.roomName = "Shiftgram" ∧ c'.joined = false)

theorem NobodyEnters.named (h : NobodyEnters s s') (hs : Named s) : Named s' := by
  intro c' hc'
  rcases h.old c' hc' with ⟨c, hc, hoptions, -⟩ | ⟨hnew, -⟩
  · rw [hoptions]
    exact hs c hc
  · exact hnew

theorem NobodyEnters.oneCall (h : NobodyEnters s s') (hs : OneCall s) : OneCall s' := by
  have hold : ∀ c' ∈ s'.clients, c'.joined = true →
      ∃ c ∈ s.clients, c'.conversation = c.conversation ∧ c.joined = true := by
    intro c' hc' hjoined
    rcases h.old c' hc' with ⟨c, hc, -, hconversation, hin⟩ | ⟨-, hout⟩
    · exact ⟨c, hc, hconversation, hin hjoined⟩
    · rw [hout] at hjoined
      cases hjoined
  intro c' hc' other' hother' hin hotherIn
  obtain ⟨c, hc, hconversation, hjoined⟩ := hold c' hc' hin
  obtain ⟨other, hother, hotherConversation, hotherJoined⟩ := hold other' hother' hotherIn
  rw [hconversation, hotherConversation]
  exact hs c hc other hother hjoined hotherJoined

/-- One client is put in another's place, which was in the room if the new one is. -/
theorem nobodyEnters_set {c c' : Client} (hc : s.clients[client]? = some c)
    (hoptions : c'.options = c.options) (hconversation : c'.conversation = c.conversation)
    (hjoined : c'.joined = true → c.joined = true) :
    NobodyEnters s ⟨s.clients.set client c'⟩ where
  old := by
    refine Swift.forall_mem_set (fun d hd => .inl ⟨d, hd, rfl, rfl, id⟩) (.inl ?_) client
    exact ⟨c, List.mem_of_getElem? hc, hoptions, hconversation, hjoined⟩

theorem nobodyEnters_onScreen (h : s.onScreen client f = some s') : NobodyEnters s s' := by
  obtain ⟨c, hc, h⟩ := Option.bind_eq_some_iff.mp h
  obtain ⟨screen, -, h⟩ := Option.bind_eq_some_iff.mp h
  obtain rfl := Option.some.inj h
  exact nobodyEnters_set hc rfl rfl id

/-- Only the event that says so brings a client into the room. -/
theorem nobodyEnters_step (he : ∀ client, e ≠ .joined client) (h : step s e = some s') :
    NobodyEnters s s' := by
  cases e with
  | joined client => exact absurd rfl (he client)
  | viewDidLoad user friend language friendLaguage media =>
    obtain ⟨conversationName, -, h⟩ := Option.bind_eq_some_iff.mp h
    obtain rfl := Option.some.inj h
    refine ⟨List.forall_mem_append.mpr ⟨fun c hc => .inl ⟨c, hc, rfl, rfl, id⟩, ?_⟩⟩
    exact List.forall_mem_singleton.mpr (.inr ⟨rfl, rfl⟩)
  | left client =>
    obtain ⟨c, hc, h⟩ := Option.bind_eq_some_iff.mp h
    obtain rfl := Option.some.inj h
    exact nobodyEnters_set hc rfl rfl fun h => Bool.noConfusion h
  | didConnect client participants =>
    exact nobodyEnters_onScreen (f := fun vc => some (vc.didConnect participants)) h
  | didFailToConnect client =>
    exact nobodyEnters_onScreen (f := fun vc => some vc.didFailToConnect) h
  | didDisconnect client videoTracks => exact nobodyEnters_onScreen h
  | participantDidConnect client participant =>
    exact nobodyEnters_onScreen (f := fun vc => some (vc.participantDidConnect participant)) h
  | participantDidDisconnect client participant videoTracks => exact nobodyEnters_onScreen h
  | subscribed client participant =>
    exact nobodyEnters_onScreen (f := fun vc => some (vc.subscribed participant)) h
  | unsubscribed client participant => exact nobodyEnters_onScreen h
  | tapGestureDisconnect client => exact nobodyEnters_onScreen h

theorem named_step (hs : Named s) (h : step s e = some s') : Named s' := by
  by_cases he : ∃ client, e = .joined client
  · obtain ⟨client, rfl⟩ := he
    obtain ⟨c, hc, h⟩ := Option.bind_eq_some_iff.mp h
    obtain rfl := Option.some.inj h
    have hname : ({ c with joined := true } : Client).options.roomName = "Shiftgram" :=
      hs c (List.mem_of_getElem? hc)
    exact Swift.forall_mem_set hs hname client
  · exact (nobodyEnters_step (fun client hjoined => he ⟨client, hjoined⟩) h).named hs

theorem room_ne_none : s.room client ≠ none ↔ ∃ c, s.clients[client]? = some c ∧ c.joined = true := by
  unfold State.room
  cases s.clients[client]? with
  | none => simp
  | some c => by_cases hjoined : c.joined = true <;> simp [hjoined]

/-- In one room with a client of the one conversation is only a client of it. -/
theorem fellow_of_roommates (hs : OneCall s) {participant : Nat}
    (h : s.Roommates client participant) : s.Fellow client participant := by
  obtain ⟨-, hroom, hsame⟩ := h
  obtain ⟨c, hc, hjoined⟩ := room_ne_none.mp hroom
  obtain ⟨other, hother, hotherJoined⟩ := room_ne_none.mp (hsame ▸ hroom)
  have hone := hs c (List.mem_of_getElem? hc) other (List.mem_of_getElem? hother) hjoined hotherJoined
  rw [State.Fellow, conversations_getElem? hc, conversations_getElem? hother, hone]

/-- With one room name all who are in a room are in the same one. -/
theorem roommates_of_joined (hs : Named s) {participant : Nat} {c other : Client}
    (hc : s.clients[client]? = some c) (hother : s.clients[participant]? = some other)
    (hjoined : c.joined = true) (hotherJoined : other.joined = true) (hne : client ≠ participant) :
    s.Roommates client participant := by
  have hname := hs c (List.mem_of_getElem? hc)
  have hotherName := hs other (List.mem_of_getElem? hother)
  refine ⟨hne, room_ne_none.mpr ⟨c, hc, hjoined⟩, ?_⟩
  simp [State.room, hc, hother, hjoined, hotherJoined, hname, hotherName]

/-- The service lists and reports roommates only. -/
theorem bindsFellow_of_oneCall (hs : OneCall s) (he : Enabled s e) : BindsFellow s e := by
  cases e with
  | didConnect client participants =>
    intro participant hp
    exact fellow_of_roommates hs (he.2 participant (List.mem_of_mem_head? hp))
  | participantDidConnect client participant => exact fun _ => fellow_of_roommates hs he
  | _ => trivial

/-- Whoever enters meets those who are in the room. -/
theorem oneCall_joined (hs : OneCall s) (h : step s (.joined client) = some s') :
    OneCall s' ↔ EntersOwnCall s (.joined client) := by
  obtain ⟨c, hc, h⟩ := Option.bind_eq_some_iff.mp h
  obtain rfl := Option.some.inj h
  have hlt := (List.getElem?_eq_some_iff.mp hc).1
  simp only [EntersOwnCall, hc, Option.some.injEq, forall_eq']
  refine ⟨fun h other hother hjoined => ?_, fun h => ?_⟩
  · -- the other client is there still, or is the one that enters
    obtain ⟨i, hi⟩ := List.mem_iff_getElem?.mp hother
    have hentered : ({ c with joined := true } : Client) ∈
        s.clients.set client { c with joined := true } := List.mem_set hlt _
    by_cases hsame : client = i
    · obtain rfl : c = other := Option.some.inj (hc.symm.trans (hsame ▸ hi))
      rfl
    · have hstill : other ∈ s.clients.set client { c with joined := true } := by
        refine List.mem_of_getElem? (i := i) ?_
        rw [List.getElem?_set_ne hsame]
        exact hi
      exact h _ hentered other hstill rfl hjoined
  · refine Swift.forall_mem_set (fun d hd => Swift.forall_mem_set (hs d hd) ?_ client) ?_ client
    · exact fun hjoined _ => (h d hd hjoined).symm
    · intro d hd _ hjoined
      exact Swift.forall_mem_set (p := fun d => d.joined = true → d.conversation = c.conversation)
        h (fun _ => rfl) client d hd hjoined

/-- What a step does to the screens and to the room, where both are as they should be. -/
theorem step_kept (hprivate : Private s) (hone : OneCall s) (he : Enabled s e)
    (h : step s e = some s') : (Private s' ∧ OneCall s') ↔ EntersOwnCall s e := by
  rw [and_iff_right ((step_private hprivate h).mpr (bindsFellow_of_oneCall hone he))]
  by_cases hjoined : ∃ client, e = .joined client
  · obtain ⟨client, rfl⟩ := hjoined
    exact oneCall_joined hone h
  · have hnobody := nobodyEnters_step (fun client heq => hjoined ⟨client, heq⟩) h
    refine iff_of_true (hnobody.oneCall hone) ?_
    cases e with
    | joined client => exact absurd ⟨client, rfl⟩ hjoined
    | _ => trivial

/-- The screens stay private exactly if they are, and the room has one conversation: of any two
    clients in it one may be listed to the other. -/
theorem staysPrivate_iff (hs : Named s) : StaysPrivate s ↔ Private s ∧ OneCall s := by
  refine ⟨fun h => ?_, ?_⟩
  · have hprivate : Private s := h [] trivial
    refine ⟨hprivate, fun c hc other hother hjoined hotherJoined => ?_⟩
    obtain ⟨client, hclient⟩ := List.mem_iff_getElem?.mp hc
    obtain ⟨participant, hparticipant⟩ := List.mem_iff_getElem?.mp hother
    by_cases hsame : client = participant
    · obtain rfl : c = other := Option.some.inj (hclient.symm.trans (hsame ▸ hparticipant))
      rfl
    · have hmates := roommates_of_joined hs hclient hparticipant hjoined hotherJoined hsame
      have henabled : Enabled s (.didConnect client [participant]) :=
        ⟨hmates.2.1, by simpa using hmates⟩
      obtain ⟨s', hs'⟩ : ∃ s', step s (.didConnect client [participant]) = some s' := by
        simp [step, State.onScreen, hclient]
      have hafter := (h [.didConnect client [participant]] ⟨⟨rfl, henabled⟩, fun _ _ => trivial⟩).2
        s' hs'
      have hfellow := (step_private hprivate hs').mp hafter participant (by simp)
      rw [State.Fellow, conversations_getElem? hclient, conversations_getElem? hparticipant] at hfellow
      exact Option.some.inj hfellow
  · intro hkept es hes
    have hentered : ∀ (s : State) (e : Event), e.toScreen = true → EntersOwnCall s e := by
      intro s e he
      cases e with
      | joined client => cases he
      | _ => trivial
    exact Runs.throughout_ok (I := fun s => Private s ∧ OneCall s)
      (fun s e hI he s' hs' => (step_kept hI.1 hI.2 he.2 hs').mpr (hentered s e he.1))
      (fun s hI => hI.1) hkept hes

theorem staysPrivate_run (run : Runs.Schedule step Enabled State.init) :
    Runs.Throughout step StaysPrivate State.init run.events ↔
      Runs.Along step EntersOwnCall State.init run.events := by
  have hinit : Named State.init := by
    intro c hc
    cases hc
  have hstart : StaysPrivate State.init := by
    refine (staysPrivate_iff hinit).mpr ⟨fun c hc => ?_, fun c hc => ?_⟩ <;> cases hc
  refine Runs.throughout_iff_along_trap (I := Named) (fun s e s' hnamed he h => ?_)
    (fun s e _ _ h => ?_) hinit hstart run.enabled
  · have hnamed' := named_step hnamed h
    refine ⟨hnamed', fun hs => ?_⟩
    obtain ⟨hprivate, hone⟩ := (staysPrivate_iff hnamed).mp hs
    rw [staysPrivate_iff hnamed']
    exact step_kept hprivate hone he h
  · -- a client that is not there cannot enter
    cases e with
    | joined client =>
      intro c hc
      simp [step, hc] at h
    | _ => trivial

/-- Over any calls of any users in any order: if each client that enters the room finds only clients
    of its own conversation there, then the screens keep to clients of their own conversations at all
    times; and it is only then that they keep to them whatever the service goes on to tell them. -/
theorem private_iff (run : Runs.Schedule step Enabled State.init) :
    (Runs.Along step EntersOwnCall State.init run.events →
      Runs.Throughout step Private State.init run.events) ∧
    (Runs.Throughout step StaysPrivate State.init run.events ↔
      Runs.Along step EntersOwnCall State.init run.events) := by
  have hstays := staysPrivate_run run
  refine ⟨fun h => ?_, hstays⟩
  exact Runs.throughout_imp (I := fun _ => True) (fun _ _ _ _ _ _ => trivial)
    (fun s _ hs => hs [] trivial) trivial run.enabled (hstays.mpr h)

/-- The user 2 calls the user 3, then the user 5 calls the user 7. -/
def twoCalls : List Event :=
  [.viewDidLoad 2 3 "en" "en" ⟨true, true⟩, .joined 0, .didConnect 0 [],
   .viewDidLoad 5 7 "en" "en" ⟨true, true⟩, .joined 1, .didConnect 1 [0], .subscribed 1 0]

instance (s : State) : Decidable (Private s) :=
  inferInstanceAs (Decidable (∀ c ∈ s.clients, _))

/-- The second caller sees the first one, with whom he has no conversation. -/
theorem twoCalls_meet : Runs.Along step Enabled State.init twoCalls ∧
    (∃ s, Runs.exec step State.init twoCalls = some s ∧ s.clients.map (·.screen.conversationName) =
      ["6", "35"] ∧ s.clients.map (·.screen.shown) = [[], [0, 0]]) ∧
    ¬ Runs.Throughout step Private State.init twoCalls := by
  have hrun : ∃ s, Runs.exec step State.init twoCalls = some s ∧
      (s.clients.map (·.screen.conversationName) = ["6", "35"] ∧
        s.clients.map (·.screen.shown) = [[], [0, 0]]) ∧ ¬ Private s :=
    ⟨_, rfl, by decide, by decide⟩
  obtain ⟨s, hs, hclients, hprivate⟩ := hrun
  exact ⟨by decide, ⟨s, hs, hclients⟩, fun h => hprivate (Runs.throughout_last h hs)⟩

end VideoRoom

end Shiftgram
