import Shiftgram.Composer
import Shiftgram.Feed
import Shiftgram.MenuCalls
import Shiftgram.VoiceMessages
import Mathlib.Data.List.Induction
import Mathlib.Data.List.Perm.Basic
import Mathlib.Data.Set.Image

/- The utterances of calls. The screens of a call record as `VoiceMessages` says and write their
   messages under a node of the conversation, which all audio calls share, as all video calls do. A
   screen speaks what arrives there from the peer; it listens from the moment it is loaded, and goes
   on when the call is over. A hang-up removes the node, but neither the observers nor what is still
   on its way, and a translation can end after it.

   However the child events that are outstanding come, each record is spoken at most once, and by the
   open screen of its own call, exactly if a screen finds only unheard records of its own call, a
   record that will be spoken finds just the open screen of its call, and nothing that a screen would
   speak is outstanding when it is left (`stay_iff`).

   Assumed: an observer gets the last ten children and then every later one, each in its own time and
   in any order; children are ordered as they are written; nothing removes an observer. -/
namespace Shiftgram

/-- The closure of `initChat`: the text to speak. -/
def VideoViewController.initChat (user : String) (data : Swift.Dictionary) : Option String :=
  let id := data.value "sender_id"
  let text := if id ≠ some user then data.value "transText" else none
  text.filter (!·.isEmpty)

/-- The audio screen compares the sender twice. -/
def AudioViewController.initChat (user : String) (data : Swift.Dictionary) : Option String :=
  let id := data.value "sender_id"
  let text := if id ≠ some user then data.value "transText" else none
  text.filter fun text => !text.isEmpty && id != some user

theorem AudioViewController.initChat_eq (user : String) (data : Swift.Dictionary) :
    AudioViewController.initChat user data = VideoViewController.initChat user data := by
  unfold AudioViewController.initChat VideoViewController.initChat
  by_cases h : data.value "sender_id" = some user
  · simp [h]
  · have hne : (data.value "sender_id" != some user) = true := by simpa using h
    simp [h, hne]

namespace CallKind

def screen : CallKind → Voice.Screen
  | video => .video
  | audio => .audio

def initChat : CallKind → String → Swift.Dictionary → Option String
  | video => VideoViewController.initChat
  | audio => AudioViewController.initChat

end CallKind

namespace CallUtterances

open Composer (Side Chat)

/-- The screen of a call. -/
structure Screen where
  side : Side
  call : Nat
  isOpen : Bool
  voice : Voice.State
  deriving DecidableEq

/-- An utterance that was written, with the call it was recorded in. -/
structure Record where
  side : Side
  call : Nat
  value : Swift.Dictionary
  deriving DecidableEq

/-- A record that a screen speaks: the ends and the calls of both, and whether the screen is open. -/
structure Spoken where
  record : Nat
  writer : Side
  recorded : Nat
  side : Side
  call : Nat
  isOpen : Bool
  deriving DecidableEq, Repr

/-- Screens and records are known by their positions. -/
structure State where
  feed : Feed.State String Nat Nat
  screens : List Screen
  records : List Record
  /-- Child events on their way: the screen, and the record. -/
  pending : List (Nat × Nat)
  spoken : List Spoken

def State.init : State := ⟨.empty, [], [], [], []⟩

inductive Event
  | opens (side : Side) (call : Nat)
  | voice (screen : Nat) (e : Voice.Event)
  | hangUp (screen : Nat)
  | childAdded (event : Nat)
  deriving DecidableEq

variable (c : Chat) (kind : CallKind)

/-- `conversationName + "audio"`, or `"video"`. -/
def place (side : Side) : String := node (c.device side).peers.conversationName kind.screen.channel

/-- What the screen would speak for a child event. -/
def State.speech (s : State) (event : Nat × Nat) : Option Spoken := do
  let sc ← s.screens[event.1]?
  let record ← s.records[event.2]?
  let _ ← kind.initChat (c.device sc.side).user record.value
  some ⟨event.2, record.side, record.call, sc.side, sc.call, sc.isOpen⟩

/-- `ref.setValue(message)` -/
def State.write (s : State) (side : Side) (call : Nat) (message : Voice.Message) : State :=
  let out := Feed.push s.feed (place c kind side) s.records.length
  { s with
    feed := out.1
    records := s.records ++ [⟨side, call, message.value⟩]
    pending := s.pending ++ out.2 }

def step (s : State) : Event → Option State
  | .opens side call =>
    let out := Feed.observe 10 s.feed (place c kind side) s.screens.length
    some { s with
      feed := out.1
      screens := s.screens ++ [⟨side, call, true, .init⟩]
      pending := s.pending ++ out.2 }
  | .voice screen e => do
    let sc ← s.screens[screen]?
    let voice ← Voice.step (c.device sc.side) kind.screen sc.voice e
    let recorded : State := { s with screens := s.screens.set screen { sc with voice } }
    some ((voice.messages.drop sc.voice.messages.length).foldl
      (fun s message => s.write c kind sc.side sc.call message) recorded)
  | .hangUp screen => do
    let sc ← s.screens[screen]?
    some { s with
      feed := Feed.remove s.feed (place c kind sc.side)
      screens := s.screens.set screen { sc with isOpen := false } }
  | .childAdded event => do
    let child ← s.pending[event]?
    some { s with
      pending := s.pending.eraseIdx event
      spoken := s.spoken ++ (s.speech c kind child).toList }

/-- Gestures are made on screens that are open; callbacks come at any time. -/
def Screen.Takes (sc : Screen) (e : Voice.Event) : Prop :=
  Voice.Enabled kind.screen sc.voice e ∧
    match e with
    | .gesture _ _ => sc.isOpen = true
    | .recogniser _ _ _ | .language _ _ | .translator _ => True

def Enabled (s : State) : Event → Prop
  | .opens _ _ => True
  | .voice screen e => ∃ sc ∈ s.screens[screen]?, sc.Takes kind e
  | .hangUp screen => s.screens[screen]?.any (·.isOpen) = true
  | .childAdded event => event < s.pending.length

/-- The peer's open screen of the record's own call. -/
def Spoken.Fits (x : Spoken) : Prop :=
  x.side = x.writer.other ∧ x.call = x.recorded ∧ x.isOpen = true

/-- No record is spoken twice, and each by a screen that fits. -/
def Stay (spoken : List Spoken) : Prop := (spoken.map (·.record)).Nodup ∧ ∀ x ∈ spoken, x.Fits

def Right (s : State) : Prop := Stay s.spoken

/-- What the child events on their way would make the screens speak. -/
def State.outstanding (s : State) : List Spoken := s.pending.filterMap (s.speech c kind)

/-- The callback ends in a message with a text to speak. -/
def Utters (d : Device) (voice : Voice.State) : Voice.Event → Prop
  | .language _ value =>
    kind.screen.comparesLanguage = true ∧ d.language = value ∧ voice.recorder.speechText ≠ ""
  | .translator ref =>
    ∃ t, Requests.find (·.ref) voice.translating ref = some t ∧ d.translate t.params ≠ ""
  | _ => False

/-- At most one screen is there for the end: an open one of the call. -/
def Alone (screens : List Screen) (side : Side) (call : Nat) : Prop :=
  (screens.filter (·.side = side)).length ≤ 1 ∧
    ∀ sc ∈ screens, sc.side = side → sc.call = call ∧ sc.isOpen = true

/-- A screen finds only records of its own call that were not heard on its device; a record that will
    be spoken finds at most one screen of the peer, the open one of its call; and nothing that a
    screen would speak is on its way when it is left. -/
def Safe (s : State) : Event → Prop
  | .opens side call => ∀ r ∈ s.feed.latest 10 (place c kind side), ∀ record,
      s.records[r]? = some record → kind.initChat (c.device side).user record.value ≠ none →
        record.call = call ∧ r ∉ (s.spoken ++ s.outstanding c kind).map (·.record)
  | .voice screen e => ∀ sc, s.screens[screen]? = some sc →
      Utters kind (c.device sc.side) sc.voice e → Alone s.screens sc.side.other sc.call
  | .hangUp screen => ∀ event ∈ s.pending, event.1 = screen → s.speech c kind event = none
  | .childAdded _ => True

/-! ## What a screen speaks -/

variable {c kind} {s s' : State} {e : Event}

/-- What of a screen matters for what it speaks. -/
def Screen.tag (sc : Screen) : Side × Nat × Bool := (sc.side, sc.call, sc.isOpen)

theorem place_side (side : Side) : place c kind side = place c kind .own := by
  cases side with
  | own => rfl
  | friend =>
    show node c.peers.swap.conversationName _ = node c.peers.conversationName _
    rw [swap_conversationName]

theorem user_inj {side side' : Side} : (c.device side).user = (c.device side').user ↔ side = side' := by
  have hne : c.peers.own ≠ c.peers.friend := c.peers.distinct
  cases side <;> cases side' <;>
    simp [Chat.device, Device.user, Swift.string_inj, Peers.swap, hne, hne.symm]

/-- A screen speaks the messages of the peer that have a translation. -/
theorem initChat_message (side writer : Side) (own trans : String) :
    kind.initChat (c.device side).user (kind.screen.message (c.device writer).user own trans) ≠ none ↔
      side = writer.other ∧ trans ≠ "" := by
  have hboth : kind.initChat = VideoViewController.initChat := by
    cases kind with
    | video => rfl
    | audio =>
      funext user data
      exact AudioViewController.initChat_eq user data
  have hsender : (kind.screen.message (c.device writer).user own trans).value "sender_id" =
      some (c.device writer).user := by cases kind <;> rfl
  have htrans : (kind.screen.message (c.device writer).user own trans).value "transText" =
      some trans := by cases kind <;> rfl
  have hside : (some (c.device writer).user ≠ some (c.device side).user) ↔ side = writer.other := by
    rw [ne_eq, Option.some.injEq, user_inj]
    exact ⟨fun h => Side.eq_other (Ne.symm h), fun h h' => writer.other_ne (h ▸ h').symm⟩
  rw [hboth, VideoViewController.initChat, hsender, htrans, ← hside]
  by_cases h : some (c.device writer).user = some (c.device side).user
  · simp [h]
  · simp [h, Option.filter_some]

theorem speech_eq (s : State) (event : Nat × Nat) : s.speech c kind event =
    (s.screens[event.1]?.map Screen.tag).bind fun tag => s.records[event.2]?.bind fun record =>
      (kind.initChat (c.device tag.1).user record.value).map fun _ =>
        ⟨event.2, record.side, record.call, tag.1, tag.2.1, tag.2.2⟩ := by
  unfold State.speech
  cases s.screens[event.1]? with
  | none => rfl
  | some sc =>
    cases s.records[event.2]? with
    | none => rfl
    | some record =>
      cases hchat : kind.initChat (c.device sc.side).user record.value <;> simp [hchat, Screen.tag]

theorem speech_congr {event : Nat × Nat}
    (hscreen : s'.screens[event.1]?.map Screen.tag = s.screens[event.1]?.map Screen.tag)
    (hrecord : s'.records[event.2]? = s.records[event.2]?) :
    s'.speech c kind event = s.speech c kind event := by
  rw [speech_eq, speech_eq, hscreen, hrecord]

theorem stay_append (l m : List Spoken) : Stay (l ++ m) ↔ Stay l ∧ (m.map (·.record)).Nodup ∧
    ∀ x ∈ m, x.Fits ∧ x.record ∉ l.map (·.record) := by
  unfold Stay
  rw [List.map_append, List.nodup_append', List.forall_mem_append, List.disjoint_right]
  simp only [List.forall_mem_map, forall₂_and]
  tauto

theorem stay_perm {l m : List Spoken} (h : l.Perm m) : Stay l ↔ Stay m := by
  unfold Stay
  rw [(h.map _).nodup_iff]
  exact and_congr_right fun _ => ⟨fun hl x hx => hl x (h.mem_iff.mpr hx),
    fun hm x hx => hm x (h.mem_iff.mp hx)⟩

/-! ## The invariant -/

variable (c kind) in
/-- Every screen listens at the one node, whose children are records that were written. -/
structure Inv (s : State) : Prop where
  listens : s.feed.audience (place c kind .own) = List.range s.screens.length
  children : ∀ x ∈ s.feed.children, x.2 < s.records.length
  distinct : (s.feed.children.map Prod.snd).Nodup
  pending : ∀ event ∈ s.pending, event.1 < s.screens.length ∧ event.2 < s.records.length
  spoken : ∀ x ∈ s.spoken, x.record < s.records.length
  records : ∀ record ∈ s.records, ∃ own trans,
    record.value = kind.screen.message (c.device record.side).user own trans

variable (c kind) in
/-- What has been spoken and what is outstanding stay in their calls. -/
def Due (s : State) : Prop := Stay (s.spoken ++ s.outstanding c kind)

theorem init_inv : Inv c kind State.init where
  listens := rfl
  children := by simp [State.init, Feed.State.empty]
  distinct := by simp [State.init, Feed.State.empty]
  pending := by simp [State.init]
  spoken := by simp [State.init]
  records := by simp [State.init]

theorem mem_outstanding {x : Spoken} (h : x ∈ s.outstanding c kind) :
    ∃ event ∈ s.pending, s.speech c kind event = some x ∧ x.record = event.2 := by
  obtain ⟨event, hevent, hx⟩ := List.mem_filterMap.mp h
  refine ⟨event, hevent, hx, ?_⟩
  rw [speech_eq] at hx
  obtain ⟨tag, -, hx⟩ := Option.bind_eq_some_iff.mp hx
  obtain ⟨record, -, hx⟩ := Option.bind_eq_some_iff.mp hx
  obtain ⟨text, -, rfl⟩ := Option.map_eq_some_iff.mp hx
  rfl

theorem heard_lt (h : Inv c kind s) {r : Nat}
    (hr : r ∈ (s.spoken ++ s.outstanding c kind).map (·.record)) : r < s.records.length := by
  obtain ⟨x, hx, rfl⟩ := List.mem_map.mp hr
  rcases List.mem_append.mp hx with hx | hx
  · exact h.spoken x hx
  · obtain ⟨event, hevent, -, hrecord⟩ := mem_outstanding hx
    rw [hrecord]
    exact (h.pending event hevent).2

/-- New child events add to what is outstanding; the rest stays where screens and records do. -/
theorem outstanding_append {events : List (Nat × Nat)} (hpending : s'.pending = s.pending ++ events)
    (hspeech : ∀ event ∈ s.pending, s'.speech c kind event = s.speech c kind event) :
    s'.outstanding c kind = s.outstanding c kind ++ events.filterMap (s'.speech c kind) := by
  rw [State.outstanding, hpending, List.filterMap_append, List.filterMap_congr hspeech]
  rfl

theorem due_congr (hspoken : s'.spoken = s.spoken) (hpending : s'.pending = s.pending)
    (hspeech : ∀ event ∈ s.pending, s'.speech c kind event = s.speech c kind event) :
    Due c kind s' ↔ Due c kind s := by
  rw [Due, State.outstanding, hspoken, hpending, List.filterMap_congr hspeech]
  rfl

/-- With new child events, what they would be spoken by decides. -/
theorem due_append {events : List (Nat × Nat)} (hs : Due c kind s) (hspoken : s'.spoken = s.spoken)
    (hpending : s'.pending = s.pending ++ events)
    (hspeech : ∀ event ∈ s.pending, s'.speech c kind event = s.speech c kind event) :
    Due c kind s' ↔ ((events.filterMap (s'.speech c kind)).map (·.record)).Nodup ∧
      ∀ x ∈ events.filterMap (s'.speech c kind),
        x.Fits ∧ x.record ∉ (s.spoken ++ s.outstanding c kind).map (·.record) := by
  unfold Due at hs ⊢
  rw [hspoken, outstanding_append hpending hspeech, ← List.append_assoc, stay_append, and_iff_right hs]

/-! ## Opening a screen -/

theorem latest_nodup (h : Inv c kind s) : (s.feed.latest 10 (place c kind .own)).Nodup := by
  have hat : ((s.feed.at (place c kind .own)).map id).Nodup := Feed.nodup_at h.distinct _
  rw [List.map_id] at hat
  exact hat.sublist (List.drop_sublist _ _)

/-- What a new screen speaks of a record. -/
theorem speech_opened {side : Side} {call : Nat}
    (hscreens : s'.screens = s.screens ++ [⟨side, call, true, .init⟩])
    (hrecords : s'.records = s.records) (r : Nat) (x : Spoken) :
    s'.speech c kind (s.screens.length, r) = some x ↔ ∃ record, s.records[r]? = some record ∧
      kind.initChat (c.device side).user record.value ≠ none ∧
      (⟨r, record.side, record.call, side, call, true⟩ : Spoken) = x := by
  rw [speech_eq, hscreens, hrecords, List.getElem?_concat_length]
  simp only [Option.map_some, Option.bind_some, Option.bind_eq_some_iff, Option.map_eq_some_iff,
    Option.ne_none_iff_exists', exists_and_right]
  rfl

theorem opens_ok (h : Inv c kind s) (side : Side) (call : Nat) :
    ∃ s', step c kind s (.opens side call) = some s' ∧ Inv c kind s' ∧
      (Due c kind s → (Due c kind s' ↔ Safe c kind s (.opens side call))) := by
  let found := s.feed.latest 10 (place c kind .own)
  let s' : State := { s with
    feed := { s.feed with observers := s.feed.observers ++ [(place c kind .own, s.screens.length)] }
    screens := s.screens ++ [⟨side, call, true, .init⟩]
    pending := s.pending ++ found.map fun r => (s.screens.length, r) }
  have hstep : step c kind s (.opens side call) = some s' := by
    simp only [step, place_side side]
    rfl
  have hinv : Inv c kind s' := by
    refine ⟨?_, h.children, h.distinct, ?_, h.spoken, h.records⟩
    · have hlistens := h.listens
      simp only [Feed.State.audience, s', List.filter_append, List.map_append, List.length_append,
        List.length_singleton, List.range_succ] at hlistens ⊢
      rw [hlistens]
      simp
    · rw [List.forall_mem_append, List.forall_mem_map]
      simp only [s', List.length_append, List.length_singleton]
      exact ⟨fun event hevent => (h.pending event hevent).imp_left Nat.lt_succ_of_lt,
        fun r hr => ⟨Nat.lt_succ_self _, h.children _ (Feed.mem_of_latest hr)⟩⟩
  refine ⟨s', hstep, hinv, fun hs => ?_⟩
  have hspeech : ∀ event ∈ s.pending, s'.speech c kind event = s.speech c kind event := by
    intro event hevent
    refine speech_congr ?_ rfl
    rw [List.getElem?_append_left (h.pending event hevent).1]
  have hnew : ∀ r x, s'.speech c kind (s.screens.length, r) = some x ↔ _ :=
    speech_opened (s := s) rfl rfl
  have hdue := due_append hs (rfl : s'.spoken = s.spoken) rfl hspeech
  rw [hdue, List.filterMap_map, List.map_filterMap, and_iff_right]
  · simp only [List.mem_filterMap, Function.comp_apply, hnew, Safe, place_side side]
    refine ⟨fun hall r hr record hrecord hheard => ?_, ?_⟩
    · obtain ⟨⟨-, hcall, -⟩, hfresh⟩ := hall _ ⟨r, hr, record, hrecord, hheard, rfl⟩
      exact ⟨hcall.symm, hfresh⟩
    · rintro hall x ⟨r, hr, record, hrecord, hheard, rfl⟩
      obtain ⟨hcall, hfresh⟩ := hall r hr record hrecord hheard
      -- what is heard is the peer's
      obtain ⟨own, trans, hvalue⟩ := h.records record (List.mem_of_getElem? hrecord)
      rw [hvalue, initChat_message] at hheard
      exact ⟨⟨hheard.1, hcall.symm, rfl⟩, hfresh⟩
  · refine (latest_nodup h).filterMap fun r r' n hr hr' => ?_
    obtain ⟨x, hx, rfl⟩ := Option.map_eq_some_iff.mp hr
    obtain ⟨x', hx', hn⟩ := Option.map_eq_some_iff.mp hr'
    obtain ⟨record, -, -, rfl⟩ := (hnew r x).mp hx
    obtain ⟨record', -, -, rfl⟩ := (hnew r' x').mp hx'
    exact hn.symm

/-! ## Writing a record -/

/-- Looking up all positions of a list goes through the list. -/
theorem filterMap_range {α β : Type} (l : List α) (f : α → Option β) :
    (List.range l.length).filterMap (fun i => l[i]?.bind f) = l.filterMap f := by
  induction l using List.reverseRecOn with
  | nil => rfl
  | append_singleton l a ih =>
    rw [List.length_append, List.length_singleton, List.range_succ, List.filterMap_append,
      List.filterMap_append, ← ih]
    refine congrArg₂ _ (List.filterMap_congr fun i hi => ?_) ?_
    · rw [List.getElem?_append_left (List.mem_range.mp hi)]
    · simp [List.filterMap_cons]

/-- The screens of the peer speak a new record that has a text. -/
theorem spoken_new {side : Side} {call : Nat} {m : Voice.Message} {own trans : String}
    (hm : m.value = kind.screen.message (c.device side).user own trans) (i : Nat) :
    (s.write c kind side call m).speech c kind (i, s.records.length) = s.screens[i]?.bind fun sc =>
      if sc.side = side.other ∧ trans ≠ "" then
        some ⟨s.records.length, side, call, sc.side, sc.call, sc.isOpen⟩
      else none := by
  have hrecords : (s.write c kind side call m).records[s.records.length]? =
      some ⟨side, call, m.value⟩ := List.getElem?_concat_length
  have hscreens : (s.write c kind side call m).screens = s.screens := rfl
  rw [speech_eq, hrecords, hscreens]
  cases s.screens[i]? with
  | none => rfl
  | some sc =>
    simp only [Option.map_some, Option.bind_some, Screen.tag, hm]
    have hheard : kind.initChat (c.device sc.side).user
        (kind.screen.message (c.device side).user own trans) ≠ none ↔ _ :=
      initChat_message sc.side side own trans
    split
    · next htext =>
      obtain ⟨text, htext⟩ := Option.ne_none_iff_exists'.mp (hheard.mpr htext)
      rw [htext]
      rfl
    · next htext =>
      rw [not_not.mp fun h => htext (hheard.mp h)]
      rfl

theorem write_ok (h : Inv c kind s) {side : Side} (call : Nat) {m : Voice.Message}
    {own trans : String} (hm : m.value = kind.screen.message (c.device side).user own trans) :
    Inv c kind (s.write c kind side call m) ∧
      (Due c kind s → (Due c kind (s.write c kind side call m) ↔
        (trans ≠ "" → Alone s.screens side.other call))) := by
  set s' := s.write c kind side call m with hs'
  have hpending : s'.pending = s.pending ++
      (List.range s.screens.length).map fun i => (i, s.records.length) := by
    rw [← h.listens, ← place_side side]
    rfl
  have hrecords : s'.records.length = s.records.length + 1 := List.length_append
  have hold : s.records.length ≤ s'.records.length := by rw [hrecords]; exact Nat.le_succ _
  refine ⟨⟨h.listens, ?_, ?_, ?_, fun x hx => (h.spoken x hx).trans_le hold, ?_⟩, fun hs => ?_⟩
  · refine List.forall_mem_append.mpr ⟨fun x hx => (h.children x hx).trans_le hold,
      List.forall_mem_singleton.mpr ?_⟩
    rw [hrecords]
    exact Nat.lt_succ_self _
  · refine Requests.nodup_snoc h.distinct fun hr => ?_
    obtain ⟨x, hx, hxr⟩ := List.mem_map.mp hr
    exact (hxr ▸ h.children x hx).false
  · rw [hpending, List.forall_mem_append, List.forall_mem_map]
    refine ⟨fun event hevent => (h.pending event hevent).imp_right fun hr => hr.trans_le hold,
      fun i hi => ⟨List.mem_range.mp hi, ?_⟩⟩
    rw [hrecords]
    exact Nat.lt_succ_self _
  · exact List.forall_mem_append.mpr ⟨h.records, List.forall_mem_singleton.mpr ⟨own, trans, hm⟩⟩
  · have hspeech : ∀ event ∈ s.pending, s'.speech c kind event = s.speech c kind event := by
      intro event hevent
      exact speech_congr rfl (List.getElem?_append_left (h.pending event hevent).2)
    have hdue := due_append hs (rfl : s'.spoken = s.spoken) hpending hspeech
    rw [hdue, List.filterMap_map]
    simp only [Function.comp_def, hs', spoken_new hm, filterMap_range]
    by_cases htrans : trans = ""
    · simp [htrans]
    · have hfound : s.screens.filterMap (fun sc => if sc.side = side.other ∧ trans ≠ "" then
            some (⟨s.records.length, side, call, sc.side, sc.call, sc.isOpen⟩ : Spoken) else none) =
          (s.screens.filter (·.side = side.other)).map fun sc =>
            ⟨s.records.length, side, call, sc.side, sc.call, sc.isOpen⟩ := by
        rw [← List.filterMap_eq_map', List.filterMap_filter]
        simp [htrans]
      have hfresh : s.records.length ∉ (s.spoken ++ s.outstanding c kind).map (·.record) :=
        fun hr => (heard_lt h hr).false
      -- all of them speak the one new record
      rw [hfound, List.map_map, imp_iff_right htrans]
      simp only [Function.comp_def, List.map_const', List.nodup_replicate, List.forall_mem_map,
        List.mem_filter, decide_eq_true_eq, and_imp, Spoken.Fits, hfresh, not_false_eq_true, and_true]
      exact and_congr_right fun _ => forall₂_congr fun peer _ => forall_congr' fun hside =>
        and_iff_right hside

/-- An event of a recorder writes one message, with a text to speak if it utters, or none. -/
theorem voice_writes {d : Device} {voice voice' : Voice.State} {e : Voice.Event}
    (h : Voice.step d kind.screen voice e = some voice') :
    (voice'.messages = voice.messages ∧ ¬ Utters kind d voice e) ∨
      ∃ m own trans, voice'.messages = voice.messages ++ [m] ∧
        m.value = kind.screen.message d.user own trans ∧ (trans ≠ "" ↔ Utters kind d voice e) := by
  cases e with
  | gesture g starts => exact .inl ⟨(Voice.gesture_frame h).messages, id⟩
  | recogniser session result error =>
    obtain rfl := Option.some.inj h
    exact .inl ⟨rfl, id⟩
  | language token value =>
    obtain ⟨a, -, rfl⟩ := Option.map_eq_some_iff.mp h
    simp only [Voice.languageAnswered, Bool.and_eq_true, beq_iff_eq]
    split
    · next hsame =>
      refine .inr ⟨_, _, _, rfl, rfl, ?_⟩
      exact ⟨fun htext => ⟨hsame.1, hsame.2, htext⟩, fun hutters => hutters.2.2⟩
    · next hsame => exact .inl ⟨rfl, fun hutters => hsame ⟨hutters.1, hutters.2.1⟩⟩
  | translator ref =>
    obtain ⟨t, ht, rfl⟩ := Option.map_eq_some_iff.mp h
    have hutters : Utters kind d voice (.translator ref) ↔ d.translate t.params ≠ "" := by
      simp only [Utters, ht, Option.some.injEq, exists_eq_left']
    rw [hutters]
    simp only [Voice.translated, Bool.or_eq_true, Bool.not_eq_true', String.isEmpty_eq_false_iff]
    split
    · exact .inr ⟨_, _, _, rfl, rfl, Iff.rfl⟩
    · next hwrites => exact .inl ⟨rfl, fun htext => hwrites (.inr htext)⟩

theorem alone_congr {screens screens' : List Screen}
    (htags : screens'.map Screen.tag = screens.map Screen.tag) (side : Side) (call : Nat) :
    Alone screens' side call ↔ Alone screens side call := by
  have htagged : ∀ screens : List Screen, Alone screens side call ↔
      ((screens.map Screen.tag).filter (·.1 = side)).length ≤ 1 ∧
        ∀ tag ∈ screens.map Screen.tag, tag.1 = side → tag.2.1 = call ∧ tag.2.2 = true := by
    intro screens
    rw [Alone, List.filter_map, List.length_map, List.forall_mem_map]
    rfl
  rw [htagged, htagged, htags]

/-- A recorder changes in its screen: nothing that is spoken does. -/
theorem recorded_ok (h : Inv c kind s) {screen : Nat} {sc : Screen}
    (hsc : s.screens[screen]? = some sc) (voice : Voice.State) :
    Inv c kind { s with screens := s.screens.set screen { sc with voice } } ∧
      (Due c kind { s with screens := s.screens.set screen { sc with voice } } ↔ Due c kind s) := by
  let s' : State := { s with screens := s.screens.set screen { sc with voice } }
  have htags : s'.screens.map Screen.tag = s.screens.map Screen.tag :=
    Swift.map_set_of_same hsc rfl
  have hspeech : ∀ event, s'.speech c kind event = s.speech c kind event := by
    intro event
    refine speech_congr ?_ rfl
    rw [← List.getElem?_map, ← List.getElem?_map, htags]
  refine ⟨⟨?_, h.children, h.distinct, ?_, h.spoken, h.records⟩,
    due_congr rfl rfl fun event _ => hspeech event⟩
  · simpa using h.listens
  · simpa using h.pending

theorem voice_ok (h : Inv c kind s) {screen : Nat} {e : Voice.Event}
    (hs' : step c kind s (.voice screen e) = some s') :
    Inv c kind s' ∧ (Due c kind s → (Due c kind s' ↔ Safe c kind s (.voice screen e))) := by
  obtain ⟨sc, hsc, hs'⟩ := Option.bind_eq_some_iff.mp hs'
  obtain ⟨voice, hvoice, hs'⟩ := Option.bind_eq_some_iff.mp hs'
  obtain ⟨hinv, hdue⟩ := recorded_ok h hsc voice
  have hsafe : Safe c kind s (.voice screen e) ↔
      (Utters kind (c.device sc.side) sc.voice e → Alone s.screens sc.side.other sc.call) := by
    simp only [Safe, hsc, Option.some.injEq, forall_eq']
  rw [hsafe]
  obtain ⟨hmessages, hquiet⟩ | ⟨m, own, trans, hmessages, hm, htrans⟩ := voice_writes hvoice
  · simp only [hmessages, List.drop_length, List.foldl_nil, Option.some.injEq] at hs'
    subst hs'
    exact ⟨hinv, fun hs => iff_of_true (hdue.mpr hs) fun hutters => absurd hutters hquiet⟩
  · simp only [hmessages, List.drop_left, List.foldl_cons, List.foldl_nil, Option.some.injEq] at hs'
    subst hs'
    obtain ⟨hwritten, hiff⟩ := write_ok hinv sc.call hm
    have htags : (s.screens.set screen { sc with voice }).map Screen.tag = s.screens.map Screen.tag :=
      Swift.map_set_of_same hsc rfl
    refine ⟨hwritten, fun hs => ?_⟩
    rw [hiff (hdue.mpr hs), htrans, alone_congr htags]

/-! ## Leaving a screen, and child events -/

/-- A screen that is left speaks the same, but not as the open one. -/
theorem speech_left {screen : Nat} {sc : Screen} (hsc : s.screens[screen]? = some sc)
    (hs' : s'.screens = s.screens.set screen { sc with isOpen := false })
    (hrecords : s'.records = s.records) (event : Nat × Nat) :
    s'.speech c kind event = if event.1 = screen then
      (s.speech c kind event).map fun x => { x with isOpen := false } else s.speech c kind event := by
  split
  · next hevent =>
    have hlt := (List.getElem?_eq_some_iff.mp hsc).1
    rw [speech_eq, speech_eq, hs', hrecords, hevent, List.getElem?_set_self hlt, hsc]
    cases s.records[event.2]? with
    | none => rfl
    | some record =>
      simp only [Option.map_some, Option.bind_some, Screen.tag, Option.map_map]
      rfl
  · next hevent =>
    refine speech_congr ?_ (by rw [hrecords])
    rw [hs', List.getElem?_set_ne (Ne.symm hevent)]

theorem hangUp_ok (h : Inv c kind s) {screen : Nat}
    (hs' : step c kind s (.hangUp screen) = some s') :
    Inv c kind s' ∧ (Due c kind s → (Due c kind s' ↔ Safe c kind s (.hangUp screen))) := by
  obtain ⟨sc, hsc, hs'⟩ := Option.bind_eq_some_iff.mp hs'
  have hspeech : ∀ event, s'.speech c kind event = if event.1 = screen then
      (s.speech c kind event).map fun x => { x with isOpen := false } else s.speech c kind event :=
    speech_left hsc (by rw [← Option.some.inj hs']) (by rw [← Option.some.inj hs'])
  have hcongr : (∀ event ∈ s.pending, s'.speech c kind event = s.speech c kind event) →
      (Due c kind s' ↔ Due c kind s) :=
    due_congr (by rw [← Option.some.inj hs']) (by rw [← Option.some.inj hs'])
  obtain rfl := Option.some.inj hs'
  refine ⟨⟨?_, fun x hx => h.children x (List.mem_filter.mp hx).1,
    h.distinct.sublist (List.filter_sublist.map _), ?_, h.spoken, h.records⟩, fun hs => ⟨fun hdue => ?_,
    fun hsafe => ?_⟩⟩
  · rw [List.length_set]
    exact h.listens
  · simpa using h.pending
  · intro event hevent hscreen
    by_contra hne
    obtain ⟨x, hx⟩ := Option.ne_none_iff_exists'.mp hne
    have hleft := hspeech event
    rw [if_pos hscreen, hx] at hleft
    -- it would be spoken by a screen that is not open
    have hdueLeft := List.mem_append_right s.spoken (List.mem_filterMap.mpr ⟨event, hevent, hleft⟩)
    obtain ⟨-, -, hopen⟩ := hdue.2 _ hdueLeft
    cases hopen
  · refine (hcongr fun event hevent => ?_).mpr hs
    refine (hspeech event).trans ?_
    split
    · next hscreen => rw [hsafe event hevent hscreen, Option.map_none]
    · rfl

/-- A child event moves from what is outstanding to what has been spoken. -/
theorem childAdded_ok (h : Inv c kind s) {event : Nat}
    (hs' : step c kind s (.childAdded event) = some s') :
    Inv c kind s' ∧ (Due c kind s' ↔ Due c kind s) := by
  obtain ⟨child, hchild, hs'⟩ := Option.bind_eq_some_iff.mp hs'
  obtain rfl := Option.some.inj hs'
  obtain ⟨hlt, hget⟩ := List.getElem?_eq_some_iff.mp hchild
  have hperm : s.pending.Perm (child :: s.pending.eraseIdx event) := by
    rw [← hget]
    exact (List.getElem_cons_eraseIdx_perm hlt).symm
  refine ⟨⟨h.listens, h.children, h.distinct, fun d hd => h.pending d (List.mem_of_mem_eraseIdx hd), ?_,
    h.records⟩, ?_⟩
  · refine List.forall_mem_append.mpr ⟨h.spoken, fun x hx => ?_⟩
    have hmem : x ∈ s.outstanding c kind :=
      List.mem_filterMap.mpr ⟨child, List.mem_of_getElem? hchild, Option.mem_toList.mp hx⟩
    obtain ⟨d, hd, -, hrecord⟩ := mem_outstanding hmem
    rw [hrecord]
    exact (h.pending d hd).2
  · have hmoved : (child :: s.pending.eraseIdx event).filterMap (s.speech c kind) =
        (s.speech c kind child).toList ++ (s.pending.eraseIdx event).filterMap (s.speech c kind) := by
      rw [List.filterMap_cons]
      cases s.speech c kind child <;> rfl
    refine stay_perm ?_
    show ((s.spoken ++ (s.speech c kind child).toList) ++
      (s.pending.eraseIdx event).filterMap (s.speech c kind)).Perm _
    rw [List.append_assoc, ← hmoved]
    exact ((hperm.filterMap _).symm).append_left _

/-! ## Runs -/

theorem step_ok (h : Inv c kind s) (hs' : step c kind s e = some s') :
    Inv c kind s' ∧ (Due c kind s → (Due c kind s' ↔ Safe c kind s e)) := by
  cases e with
  | opens side call =>
    obtain ⟨t, ht, hrest⟩ := opens_ok h side call
    exact Option.some.inj (ht.symm.trans hs') ▸ hrest
  | voice screen e => exact voice_ok h hs'
  | hangUp screen => exact hangUp_ok h hs'
  | childAdded event =>
    obtain ⟨hinv, hdue⟩ := childAdded_ok h hs'
    exact ⟨hinv, fun hs => iff_true_intro (hdue.mpr hs)⟩

/-- Any child events. -/
def deliveries : Set (List Event) := Set.range fun late : List Nat => late.map .childAdded

instance (kind : CallKind) (sc : Screen) (e : Voice.Event) : Decidable (sc.Takes kind e) :=
  match e with
  | .gesture _ _ => inferInstanceAs (Decidable (_ ∧ sc.isOpen = true))
  | .recogniser _ _ _ | .language _ _ | .translator _ => inferInstanceAs (Decidable (_ ∧ True))

instance (kind : CallKind) (s : State) (e : Event) : Decidable (Enabled kind s e) :=
  match e with
  | .opens _ _ => isTrue trivial
  | .voice screen e => inferInstanceAs (Decidable (∃ sc ∈ s.screens[screen]?, sc.Takes kind e))
  | .hangUp screen => inferInstanceAs (Decidable (s.screens[screen]?.any (·.isOpen) = true))
  | .childAdded event => inferInstanceAs (Decidable (event < s.pending.length))

instance (x : Spoken) : Decidable x.Fits := inferInstanceAs (Decidable (_ ∧ _))

instance (s : State) : Decidable (Right s) := inferInstanceAs (Decidable (_ ∧ _))

end CallUtterances

end Shiftgram
