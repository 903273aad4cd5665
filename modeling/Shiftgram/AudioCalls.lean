import Shiftgram.Composer
import Shiftgram.Feed
import Shiftgram.MenuCalls

/- Audio calls between the two users of a conversation. The caller's screen says "Contacting ..."
   until a child appears under the node `audioCalling`, which an answer writes and a hang-up removes.
   The node is that of the conversation: all calls of both users share it, and the screens of calls
   that are over keep listening.

   The timer of a caller's screen starts only after that very call was answered, exactly if no
   answer is left in the node when a call is started and, whenever an answer is written, every
   caller's screen that is still contacting is of a call that is answered by then (`connected_iff`).
   The same holds of the screens that are still open.

   Assumed: child events are delivered at once (the screens that get one are those that observe the node
   when it is written, so one that comes late only starts the timer later); an observer gets the last
   ten children and then every later one, and no removal takes it away. -/
namespace Shiftgram

/-- The label of an audio screen. -/
inductive Label
  | contacting
  | clock (minute seconds : Nat)
  deriving DecidableEq, Repr

/-- The audio screen, as far as the state of the call is concerned. -/
structure AudioViewController where
  name : String
  conversationName : String
  friendLanguage : String
  label : Label
  /-- The counters of the timers that were started; none is ever stopped. -/
  timers : List Nat
  deriving DecidableEq, Repr

namespace AudioViewController

def init (name conversationName friendLanguage : String) : AudioViewController :=
  ⟨name, conversationName, friendLanguage, .contacting, []⟩

/-- What the closure of `initAudioCalling` asks of a child. -/
def signals (data : Swift.Dictionary) : Bool := (data.value "sender_id").any (!·.isEmpty)

/-- The closure of `initAudioCalling`. -/
def childAdded (vc : AudioViewController) (data : Swift.Dictionary) : AudioViewController :=
  if signals data then { vc with label := .clock 0 0, timers := vc.timers ++ [0] } else vc

/-- The block of a timer. -/
def tick (vc : AudioViewController) (timer : Nat) : AudioViewController :=
  match vc.timers[timer]? with
  | some count =>
    let counter := count + 1
    { vc with
      label := if counter > 60 then .clock (counter / 60) (counter % 60) else .clock 0 counter
      timers := vc.timers.set timer counter }
  | none => vc

end AudioViewController

namespace AudioCalls

open Composer (Side)

/-- The accounts of two users who have a conversation with each other. -/
structure Ends where
  account : Side → Account
  conversation : Side → Conversation
  mem : ∀ side, conversation side ∈ (account side).conversations
  accountBId : ∀ side, (conversation side).accountBId = (account side.other).userId

structure Call where
  caller : Side
  titleConversation : String
  deriving DecidableEq, Repr

/-- An audio screen, and the call it was opened for. -/
structure Screen where
  side : Side
  call : Nat
  caller : Bool
  isOpen : Bool
  view : AudioViewController
  deriving DecidableEq, Repr

structure Menu where
  side : Side
  view : MenuViewController
  deriving DecidableEq, Repr

/-- Calls, screens and Menus are known by their positions. -/
structure State where
  feed : Feed.State String Nat Swift.Dictionary
  calls : List Call
  screens : List Screen
  menus : List Menu
  /-- The calls that ring, with the Menu that reported them. -/
  reports : List (Nat × Nat)
  answered : List Nat

def State.init : State :=
  ⟨.empty, [], [], [⟨.own, .init⟩, ⟨.friend, .init⟩], [], []⟩

inductive Event
  /-- `pressCallButton` in a chat, for a voice call. -/
  | voiceCall (side : Side) (friendName friendLanguage titleConversation : String)
  | ring (call menu : Nat)
  | answer (report : Nat)
  | decline (report : Nat)
  /-- `tapGestureRecroding`, the tap on the red button. -/
  | hangUp (screen : Nat)
  | tick (screen timer : Nat)
  deriving DecidableEq, Repr

def Screen.childAdded (sc : Screen) (data : Swift.Dictionary) : Screen :=
  { sc with view := sc.view.childAdded data }

/-- `viewDidLoad` of a new audio screen. -/
def State.opens (s : State) (side : Side) (call : Nat) (caller : Bool)
    (view : AudioViewController) : State :=
  let out := Feed.observe 10 s.feed (node view.conversationName .audioCalling) s.screens.length
  { s with
    feed := out.1
    screens := Feed.deliver Screen.childAdded (s.screens ++ [⟨side, call, caller, true, view⟩]) out.2 }

def State.written (s : State) : Write → State
  | .childByAutoId n value =>
    let out := Feed.push s.feed n value
    { s with feed := out.1, screens := Feed.deliver Screen.childAdded s.screens out.2 }
  | .removeValue n => { s with feed := Feed.remove s.feed n }

variable (E : Ends)

def step (s : State) : Event → Option State
  | .voiceCall side friendName friendLanguage titleConversation => do
    let conversationName ← ConversationViewController.conversationName (E.account side).userId
      (E.conversation side).accountBId
    let started : State := { s with calls := s.calls ++ [⟨side, titleConversation⟩] }
    some (started.opens side s.calls.length true (.init friendName conversationName friendLanguage))
  | .ring call menu => do
    let c ← s.calls[call]?
    let m ← s.menus[menu]?
    let conversation := E.conversation m.side
    let conversationName ← MenuViewController.conversationName (E.account m.side).userId
      conversation.accountBId
    -- the closure for video calls lets the record pass
    let (view, _) ← MenuViewController.initAudioConversation (E.account m.side) conversation
      conversationName m.view (ChatViewController.pressCallButton
        (Swift.string (E.account c.caller).userId) c.titleConversation .audio)
    some { s with menus := s.menus.set menu { m with view }, reports := s.reports ++ [(call, menu)] }
  | .answer report => do
    let r ← s.reports[report]?
    let m ← s.menus[r.2]?
    let out := m.view.answerCall (E.account m.side).userId
    let s := { s with
      menus := s.menus.set r.2 { m with view := out.1 }
      reports := s.reports.eraseIdx report
      answered := s.answered ++ [r.1] }
    let s := out.2.2.foldl State.written s
    match out.2.1 with
    | some (.audio name conversationName friendLanguage) =>
      some (s.opens m.side r.1 false (.init name conversationName friendLanguage))
    | _ => some s
  | .decline report => some { s with reports := s.reports.eraseIdx report }
  | .hangUp screen => do
    let sc ← s.screens[screen]?
    let s := s.written (.removeValue (node sc.view.conversationName .audio))
    let s := s.written (.removeValue (node sc.view.conversationName .audioCalling))
    some { s with
      screens := s.screens.set screen { sc with isOpen := false }
      -- `navigateToVideo` opens a new Menu
      menus := s.menus ++ [⟨sc.side, .init⟩] }
  | .tick screen timer =>
    some { s with screens := s.screens.modify screen fun sc => { sc with view := sc.view.tick timer } }

/-- A call rings at the other user, what is answered or declined rings, and a screen that is left was
    open. -/
def Enabled (s : State) : Event → Prop
  | .ring call menu => s.calls[call]?.map (·.caller.other) = s.menus[menu]?.map (·.side) ∧
      call < s.calls.length
  | .answer report | .decline report => report < s.reports.length
  | .hangUp screen => s.screens[screen]?.any (·.isOpen) = true
  | _ => True

instance (s : State) (e : Event) : Decidable (Enabled s e) := by
  cases e <;> unfold Enabled <;> infer_instance

/-- The screens of callers, those that were left included or not. -/
def Screen.Watched (left : Bool) (sc : Screen) : Prop :=
  sc.caller = true ∧ (left = true ∨ sc.isOpen = true)

/-- No watched screen shows the timer before its call was answered. -/
def Connected (left : Bool) (s : State) : Prop :=
  ∀ sc ∈ s.screens, sc.Watched left → sc.view.label ≠ .contacting → sc.call ∈ s.answered

/-- The node that the answers of the conversation are written to. -/
def Ends.audioCalling : String :=
  node (Calls.nameOf (E.account .own) (E.conversation .own)) .audioCalling

/-- A call is started when no answer is left, and an answer finds no other watched call waiting that
    was not answered. -/
def Fresh (left : Bool) (s : State) : Event → Prop
  | .voiceCall _ _ _ _ => s.feed.at E.audioCalling = []
  | .answer report => ∀ r, s.reports[report]? = some r → ∀ m, s.menus[r.2]? = some m →
      m.view.isAudio ≠ "" → ∀ sc ∈ s.screens, sc.Watched left → sc.view.label = .contacting →
        sc.call ∈ s.answered ∨ sc.call = r.1
  | _ => True

/-! ## What screens hear -/

/-- What a child event leaves of a screen. -/
structure Screen.After (sc sc' : Screen) : Prop where
  call : sc'.call = sc.call
  caller : sc'.caller = sc.caller
  isOpen : sc'.isOpen = sc.isOpen
  conversationName : sc'.view.conversationName = sc.view.conversationName

theorem Screen.After.watched {left : Bool} {sc sc' : Screen} (h : sc.After sc') :
    sc'.Watched left ↔ sc.Watched left := by
  rw [Screen.Watched, Screen.Watched, h.caller, h.isOpen]

/-- A screen whose timers run shows one of them. -/
def Screen.Timed (sc : Screen) : Prop := sc.view.timers ≠ [] → sc.view.label ≠ .contacting

theorem childAdded_after (sc : Screen) (data : Swift.Dictionary) : sc.After (sc.childAdded data) := by
  unfold Screen.childAdded AudioViewController.childAdded
  split <;> exact ⟨rfl, rfl, rfl, rfl⟩

theorem childAdded_timed {sc : Screen} (h : sc.Timed) (data : Swift.Dictionary) :
    (sc.childAdded data).Timed := by
  unfold Screen.childAdded AudioViewController.childAdded
  split
  · exact fun _ => nofun
  · exact h

/-- The children of the node signal, so the first one replaces the label. -/
theorem childAdded_label {sc : Screen} {data : Swift.Dictionary}
    (h : AudioViewController.signals data = true) : (sc.childAdded data).view.label ≠ .contacting := by
  simp [Screen.childAdded, AudioViewController.childAdded, h]

theorem tick_after (sc : Screen) (timer : Nat) :
    sc.After { sc with view := sc.view.tick timer } := by
  unfold AudioViewController.tick
  split <;> exact ⟨rfl, rfl, rfl, rfl⟩

theorem tick_timed {sc : Screen} (h : sc.Timed) (timer : Nat) :
    Screen.Timed { sc with view := sc.view.tick timer } := by
  unfold AudioViewController.tick
  split
  · intro _
    dsimp only
    split <;> exact nofun
  · exact h

/-- Where a timer ticks, the label has been replaced before. -/
theorem tick_label {sc : Screen} (h : sc.Timed) {timer : Nat}
    (hlabel : (sc.view.tick timer).label ≠ .contacting) : sc.view.label ≠ .contacting := by
  unfold AudioViewController.tick at hlabel
  split at hlabel
  · next count hcount =>
    apply h
    intro hnone
    rw [hnone] at hcount
    cases hcount
  · exact hlabel

theorem heard_after (sc : Screen) (xs : List Swift.Dictionary) :
    sc.After (xs.foldl Screen.childAdded sc) := by
  induction xs generalizing sc with
  | nil => exact ⟨rfl, rfl, rfl, rfl⟩
  | cons x xs ih =>
    have hfirst := childAdded_after sc x
    have hrest := ih (sc.childAdded x)
    exact ⟨hrest.call.trans hfirst.call, hrest.caller.trans hfirst.caller,
      hrest.isOpen.trans hfirst.isOpen, hrest.conversationName.trans hfirst.conversationName⟩

theorem heard_timed {sc : Screen} (h : sc.Timed) (xs : List Swift.Dictionary) :
    (xs.foldl Screen.childAdded sc).Timed := by
  induction xs generalizing sc with
  | nil => exact h
  | cons x xs ih => exact ih (childAdded_timed h x)

theorem heard_label {sc : Screen} {xs : List Swift.Dictionary}
    (h : ∀ x ∈ xs, AudioViewController.signals x = true) :
    (xs.foldl Screen.childAdded sc).view.label = .contacting ↔
      sc.view.label = .contacting ∧ xs = [] := by
  rcases List.eq_nil_or_concat xs with rfl | ⟨ys, y, rfl⟩
  · simp
  · refine iff_of_false ?_ (by simp)
    rw [List.concat_eq_append, List.foldl_append]
    exact childAdded_label (h y (by simp))

/-! ## The invariant -/

/-- The name that both users compute. -/
def Ends.name : String := Calls.nameOf (E.account .own) (E.conversation .own)

/-- Every screen listens to the answers, whose senders are not empty; Menus that hold an audio call
    hold the conversation. -/
structure Inv (s : State) : Prop where
  listens : ∀ i < s.screens.length, (E.audioCalling, i) ∈ s.feed.observers
  signals : ∀ c ∈ s.feed.children, AudioViewController.signals c.2 = true
  names : ∀ sc ∈ s.screens, sc.view.conversationName = E.name
  timed : ∀ sc ∈ s.screens, sc.Timed
  menus : ∀ m ∈ s.menus, m.view.isVideo = "" ∧
    (m.view.isAudio ≠ "" → m.view.currentConversationName = E.name)
  reports : ∀ r ∈ s.reports, r.1 < s.calls.length ∧ r.2 < s.menus.length
  answered : ∀ k ∈ s.answered, k < s.calls.length

variable {E} {s s' : State} {left : Bool}

theorem name_side (side : Side) : Calls.nameOf (E.account side) (E.conversation side) = E.name := by
  cases side with
  | own => rfl
  | friend =>
    have hown := E.accountBId .own
    have hfriend := E.accountBId .friend
    simp only [Side.other] at hown hfriend
    rw [Ends.name, Calls.nameOf, Calls.nameOf, hown, hfriend, Int.mul_comm]

theorem chatName_side (side : Side) : ConversationViewController.conversationName
    (E.account side).userId (E.conversation side).accountBId = some E.name := by
  rw [← name_side side]
  exact conversationName_eq (Calls.peers _ (E.mem side))

theorem menuName_side (side : Side) : MenuViewController.conversationName
    (E.account side).userId (E.conversation side).accountBId = some E.name := by
  rw [← name_side side]
  exact Calls.conversationName_of (E.mem side)

/-- The id that an answer carries is not empty. -/
theorem signals_answer (userId : Int32) :
    AudioViewController.signals [("sender_id", Swift.string userId)] = true := by
  simp [AudioViewController.signals, Swift.Dictionary.value, Swift.string_ne_empty]

theorem init_inv : Inv E State.init where
  listens := by simp [State.init]
  signals := by simp [State.init, Feed.State.empty]
  names := by simp [State.init]
  timed := by simp [State.init]
  menus := by simp [State.init, MenuViewController.init]
  reports := by simp [State.init]
  answered := by simp [State.init]

/-! ## Opening a screen, writing and removing -/

/-- A new screen hears the answers that are there, and the others hear nothing. -/
theorem opens_screens (s : State) (side : Side) (call : Nat) (caller : Bool)
    (view : AudioViewController) :
    (s.opens side call caller view).screens = s.screens ++
      [(s.feed.latest 10 (node view.conversationName .audioCalling)).foldl Screen.childAdded
        ⟨side, call, caller, true, view⟩] := by
  exact Feed.deliver_last _ _ _ _

theorem opens_inv (h : Inv E s) (side : Side) (call : Nat) (caller : Bool)
    {view : AudioViewController} (hname : view.conversationName = E.name) (hnew : view.timers = []) :
    Inv E (s.opens side call caller view) := by
  have hscreens := opens_screens s side call caller view
  refine ⟨fun i hi => ?_, h.signals, ?_, ?_, h.menus, h.reports, h.answered⟩
  · rw [hscreens, List.length_append] at hi
    have hobservers : (s.opens side call caller view).feed.observers =
        s.feed.observers ++ [(E.audioCalling, s.screens.length)] := by
      rw [Ends.audioCalling, ← Ends.name, ← hname]
      rfl
    rw [hobservers]
    rcases Nat.lt_succ_iff_lt_or_eq.mp hi with hold | rfl
    · exact List.mem_append_left _ (h.listens i hold)
    · exact List.mem_append_right _ (List.mem_singleton_self _)
  · rw [hscreens, List.forall_mem_append]
    exact ⟨h.names, List.forall_mem_singleton.mpr ((heard_after _ _).conversationName.trans hname)⟩
  · rw [hscreens, List.forall_mem_append]
    exact ⟨h.timed, List.forall_mem_singleton.mpr (heard_timed (fun ht => absurd hnew ht) _)⟩

theorem latest_signals (h : Inv E s) (n : String) :
    ∀ x ∈ s.feed.latest 10 n, AudioViewController.signals x = true :=
  fun _ hx => h.signals _ (Feed.mem_of_latest hx)

/-- An answer reaches every screen, and starts its timer. -/
theorem pushed (h : Inv E s) {x : Swift.Dictionary} (hx : AudioViewController.signals x = true) :
    (∀ sc' ∈ (s.written (.childByAutoId E.audioCalling x)).screens,
        sc'.view.label ≠ .contacting ∧ sc'.Timed ∧ ∃ sc ∈ s.screens, sc.After sc') ∧
      ∀ sc ∈ s.screens, ∃ sc' ∈ (s.written (.childByAutoId E.audioCalling x)).screens, sc.After sc' := by
  have hheard : ∀ i sc, s.screens[i]? = some sc →
      ((((s.feed.audience E.audioCalling).map fun o => (o, x)).filter (·.1 = i)).map Prod.snd) ≠ [] ∧
        ∀ y ∈ ((((s.feed.audience E.audioCalling).map fun o => (o, x)).filter (·.1 = i)).map Prod.snd),
          AudioViewController.signals y = true := by
    intro i sc hi
    have hmem : i ∈ s.feed.audience E.audioCalling :=
      Feed.mem_audience.mpr (h.listens i (List.getElem?_eq_some_iff.mp hi).1)
    refine ⟨List.ne_nil_of_mem (a := x) ?_, fun y hy => ?_⟩
    · simp [hmem]
    · obtain ⟨d, hd, rfl⟩ := List.mem_map.mp hy
      obtain ⟨o, -, rfl⟩ := List.mem_map.mp (List.mem_filter.mp hd).1
      exact hx
  refine ⟨fun sc' hsc' => ?_, fun sc hsc => ?_⟩
  · obtain ⟨i, sc, hi, rfl⟩ := Feed.mem_deliver.mp hsc'
    obtain ⟨hne, hsignals⟩ := hheard i sc hi
    exact ⟨fun hlabel => hne ((heard_label hsignals).mp hlabel).2,
      heard_timed (h.timed sc (List.mem_of_getElem? hi)) _, sc, List.mem_of_getElem? hi, heard_after _ _⟩
  · obtain ⟨i, hi⟩ := List.mem_iff_getElem?.mp hsc
    exact ⟨_, Feed.mem_deliver.mpr ⟨i, sc, hi, rfl⟩, heard_after _ _⟩

theorem pushed_inv (h : Inv E s) {x : Swift.Dictionary} (hx : AudioViewController.signals x = true) :
    Inv E (s.written (.childByAutoId E.audioCalling x)) := by
  obtain ⟨hscreens, -⟩ := pushed h hx
  refine ⟨fun i hi => h.listens i ?_, ?_, fun sc' hsc' => ?_, fun sc' hsc' => (hscreens sc' hsc').2.1,
    h.menus, h.reports, h.answered⟩
  · simpa [State.written] using hi
  · exact List.forall_mem_append.mpr ⟨h.signals, List.forall_mem_singleton.mpr hx⟩
  · obtain ⟨-, -, sc, hsc, hafter⟩ := hscreens sc' hsc'
    exact hafter.conversationName.trans (h.names sc hsc)

theorem removed_inv (h : Inv E s) (n : String) : Inv E (s.written (.removeValue n)) :=
  ⟨h.listens, fun c hc => h.signals c (List.mem_filter.mp hc).1, h.names, h.timed, h.menus, h.reports,
    h.answered⟩

/-! ## Steps -/

/-- The property reads the screens and the answered calls. -/
theorem connected_congr (hscreens : s'.screens = s.screens) (hanswered : s.answered ⊆ s'.answered)
    (hs : Connected left s) : Connected left s' := by
  intro sc hsc hwatched hlabel
  rw [hscreens] at hsc
  exact hanswered (hs sc hsc hwatched hlabel)

/-- A new caller's screen must find no answer, unless its call has been answered. -/
theorem opens_connected (h : Inv E s) (side : Side) (call : Nat) (caller : Bool)
    {view : AudioViewController} (hname : view.conversationName = E.name)
    (hnew : view.label = .contacting) :
    Connected left (s.opens side call caller view) ↔ Connected left s ∧
      (caller = true → call ∉ s.answered → s.feed.at E.audioCalling = []) := by
  have hnode : node view.conversationName .audioCalling = E.audioCalling := by
    rw [hname]
    rfl
  have hlatest : s.feed.latest 10 E.audioCalling = [] ↔ s.feed.at E.audioCalling = [] :=
    Feed.latest_eq_nil (by decide)
  have hanswered : (s.opens side call caller view).answered = s.answered := rfl
  unfold Connected
  rw [opens_screens, List.forall_mem_append, List.forall_mem_singleton, hanswered, hnode,
    (heard_after _ _).watched, (heard_after _ _).call, ne_eq, heard_label (latest_signals h _), hlatest]
  refine and_congr_right fun _ => ?_
  simp only [Screen.Watched, hnew, true_and, or_true, and_true]
  exact forall_congr' fun _ => ⟨fun h hcall => by_contra fun hat => hcall (h hat),
    fun h hat => by_contra fun hcall => hat (h hcall)⟩

theorem voiceCall_ok (h : Inv E s) (side : Side) (friendName friendLanguage titleConversation : String) :
    ∃ s', step E s (.voiceCall side friendName friendLanguage titleConversation) = some s' ∧
      Inv E s' ∧ (Connected left s → (Connected left s' ↔ s.feed.at E.audioCalling = [])) := by
  let started : State := { s with calls := s.calls ++ [⟨side, titleConversation⟩] }
  let view := AudioViewController.init friendName E.name friendLanguage
  have hmore : s.calls.length ≤ started.calls.length := by simp [started]
  have hstarted : Inv E started :=
    ⟨h.listens, h.signals, h.names, h.timed, h.menus,
      fun r hr => ⟨(h.reports r hr).1.trans_le hmore, (h.reports r hr).2⟩,
      fun k hk => (h.answered k hk).trans_le hmore⟩
  refine ⟨started.opens side s.calls.length true view, ?_, opens_inv hstarted side _ true rfl rfl,
    fun hs => ?_⟩
  · simp only [step, chatName_side, Option.bind_eq_bind, Option.bind_some]
    rfl
  · have hunanswered : s.calls.length ∉ started.answered := fun hk => (h.answered _ hk).false
    have hold : Connected left started := connected_congr rfl (List.Subset.refl _) hs
    rw [opens_connected hstarted side _ true rfl rfl, and_iff_right hold, imp_iff_right rfl,
      imp_iff_right hunanswered]

theorem ring_ok (h : Inv E s) {call menu : Nat} (he : Enabled s (.ring call menu)) :
    ∃ s', step E s (.ring call menu) = some s' ∧ Inv E s' ∧ (Connected left s → Connected left s') := by
  obtain ⟨hside, hcall⟩ := he
  have hc := List.getElem?_eq_getElem hcall
  set c := s.calls[call]
  rw [hc, Option.map_some, eq_comm, Option.map_eq_some_iff] at hside
  obtain ⟨m, hm, hside⟩ := hside
  have haccountB : (E.conversation m.side).accountBId = (E.account c.caller).userId := by
    rw [E.accountBId, hside, Side.other_other]
  obtain ⟨language, hlanguage⟩ :=
    Option.ne_none_iff_exists'.mp ((E.account m.side).stored _ (E.mem m.side))
  obtain ⟨name, hname⟩ := Option.ne_none_iff_exists'.mp ((E.account m.side).named _ (E.mem m.side))
  let view : MenuViewController := ⟨E.name, language, name, "audio", m.view.isVideo⟩
  have hclosure : MenuViewController.initAudioConversation (E.account m.side) (E.conversation m.side)
      E.name m.view (ChatViewController.pressCallButton
        (Swift.string (E.account c.caller).userId) c.titleConversation .audio) =
      some (view, some c.titleConversation) := by
    rw [← haccountB]
    exact Calls.childAdded_incoming ((Calls.incoming_record
      (n := ⟨E.conversation m.side, .audio, c.titleConversation⟩) (E.mem m.side) .audio).mpr rfl)
      hlanguage (by rw [hname]; rfl) rfl
  refine ⟨{ s with
    menus := s.menus.set menu { m with view }, reports := s.reports ++ [(call, menu)] }, ?_,
    ⟨h.listens, h.signals, h.names, h.timed, ?_, ?_, h.answered⟩, fun hs => ?_⟩
  · simp only [step, hc, hm, menuName_side, hclosure, Option.bind_eq_bind, Option.bind_some]
  · refine Swift.forall_mem_set h.menus ?_ menu
    exact ⟨(h.menus m (List.mem_of_getElem? hm)).1, fun _ => rfl⟩
  · rw [List.forall_mem_append, List.forall_mem_singleton]
    simp only [List.length_set]
    exact ⟨h.reports, hcall, (List.getElem?_eq_some_iff.mp hm).1⟩
  · exact connected_congr rfl (List.Subset.refl _) hs

/-- An answer leaves no watched screen contacting, so the calls of all of them must be answered. -/
theorem pushed_connected (h : Inv E s) {x : Swift.Dictionary}
    (hx : AudioViewController.signals x = true) :
    Connected left (s.written (.childByAutoId E.audioCalling x)) ↔
      ∀ sc ∈ s.screens, sc.Watched left → sc.call ∈ s.answered := by
  obtain ⟨hscreens, hall⟩ := pushed h hx
  refine ⟨fun hs sc hsc hwatched => ?_, fun hs sc' hsc' hwatched _ => ?_⟩
  · obtain ⟨sc', hsc', hafter⟩ := hall sc hsc
    rw [← hafter.call]
    exact hs sc' hsc' (hafter.watched.mpr hwatched) (hscreens sc' hsc').1
  · obtain ⟨-, -, sc, hsc, hafter⟩ := hscreens sc' hsc'
    rw [hafter.call]
    exact hs sc hsc (hafter.watched.mp hwatched)

/-- The Menu of an audio call opens its screen and writes the answer. -/
theorem answerCall_audio {menu : MenuViewController} (userId : Int32) (hvideo : menu.isVideo = "")
    (haudio : menu.isAudio ≠ "") :
    menu.answerCall userId = ({ menu with
        currentFriendLanguage := "", isVideo := "", isAudio := "", currentConversationName := "" },
      some (.audio menu.currentName menu.currentConversationName menu.currentFriendLanguage),
      [.childByAutoId (node menu.currentConversationName .audioCalling)
        [("sender_id", Swift.string userId)],
       .removeValue (node menu.currentConversationName .notification)]) := by
  simp [MenuViewController.answerCall, hvideo, haudio]

/-- A Menu changes as it takes a report. -/
theorem taken_inv (h : Inv E s) {call menu report : Nat} (hcall : call < s.calls.length) {m : Menu}
    (hvideo : m.view.isVideo = "")
    (hname : m.view.isAudio ≠ "" → m.view.currentConversationName = E.name) :
    Inv E { s with
      menus := s.menus.set menu m
      reports := s.reports.eraseIdx report
      answered := s.answered ++ [call] } := by
  refine ⟨h.listens, h.signals, h.names, h.timed, Swift.forall_mem_set h.menus ⟨hvideo, hname⟩ menu,
    fun r hr => ?_, ?_⟩
  · simp only [List.length_set]
    exact h.reports r (List.mem_of_mem_eraseIdx hr)
  · exact List.forall_mem_append.mpr ⟨h.answered, List.forall_mem_singleton.mpr hcall⟩

theorem answer_ok (h : Inv E s) {report : Nat} (he : report < s.reports.length) :
    ∃ s', step E s (.answer report) = some s' ∧ Inv E s' ∧
      (Connected left s → (Connected left s' ↔ Fresh E left s (.answer report))) := by
  have hr := List.getElem?_eq_getElem he
  set r := s.reports[report]
  obtain ⟨hcall, hmenu⟩ := h.reports r (List.mem_of_getElem? hr)
  have hm := List.getElem?_eq_getElem hmenu
  set m := s.menus[r.2]
  obtain ⟨hvideo, hname⟩ := h.menus m (List.mem_of_getElem? hm)
  let taken (view : MenuViewController) : State := { s with
    menus := s.menus.set r.2 { m with view }
    reports := s.reports.eraseIdx report
    answered := s.answered ++ [r.1] }
  have hfresh : Fresh E left s (.answer report) ↔ (m.view.isAudio ≠ "" → ∀ sc ∈ s.screens,
      sc.Watched left → sc.view.label = .contacting → sc.call ∈ s.answered ∨ sc.call = r.1) := by
    simp only [Fresh, hr, hm, Option.some.injEq, forall_eq']
  rw [hfresh]
  by_cases haudio : m.view.isAudio = ""
  · -- the Menu holds no call: nothing is opened or written
    have hidle : m.view.answerCall (E.account m.side).userId = (m.view, none, []) :=
      Calls.answerCall_idle _ (by simp [hvideo, haudio])
    refine ⟨taken m.view, ?_, taken_inv h hcall hvideo hname, fun hs => iff_of_true ?_ ?_⟩
    · simp only [step, hr, hm, hidle, Option.bind_eq_bind, Option.bind_some, List.foldl_nil]
      rfl
    · exact connected_congr (s := s) rfl (List.subset_append_left _ _) hs
    · exact fun hheld => absurd haudio hheld
  · have hopens := answerCall_audio (E.account m.side).userId hvideo haudio
    rw [hname haudio] at hopens
    let view : MenuViewController := { m.view with
      currentFriendLanguage := "", isVideo := "", isAudio := "", currentConversationName := "" }
    have hinv : Inv E (taken view) := taken_inv h hcall rfl (fun hheld => absurd rfl hheld)
    have hsignals := signals_answer (E.account m.side).userId
    have hwritten := removed_inv (pushed_inv hinv hsignals) (node E.name .notification)
    let screen := AudioViewController.init m.view.currentName E.name m.view.currentFriendLanguage
    have hscreen : screen.conversationName = E.name := rfl
    refine ⟨_, ?_, opens_inv hwritten m.side r.1 false hscreen rfl, fun hs => ?_⟩
    · simp only [step, hr, hm, hopens, Option.bind_eq_bind, Option.bind_some, List.foldl_cons,
        List.foldl_nil]
      rfl
    · have hpushed : Connected left ((taken view).written (.childByAutoId E.audioCalling _)) ↔ _ :=
        pushed_connected hinv hsignals
      rw [opens_connected hwritten m.side r.1 false hscreen rfl, and_iff_left (fun h => nomatch h),
        imp_iff_right haudio]
      refine hpushed.trans ?_
      simp only [taken, List.mem_append, List.mem_singleton]
      refine ⟨fun hall sc hsc hwatched _ => hall sc hsc hwatched, fun hall sc hsc hwatched => ?_⟩
      by_cases hlabel : sc.view.label = .contacting
      · exact hall sc hsc hwatched hlabel
      · exact .inl (hs sc hsc hwatched hlabel)

theorem hangUp_ok (h : Inv E s) {screen : Nat} (he : Enabled s (.hangUp screen)) :
    ∃ s', step E s (.hangUp screen) = some s' ∧ Inv E s' ∧ (Connected left s → Connected left s') := by
  obtain ⟨sc, hsc, -⟩ := (Option.any_eq_true _ _).mp he
  have hmem := List.mem_of_getElem? hsc
  let removed : State := (s.written (.removeValue (node sc.view.conversationName .audio))).written
    (.removeValue (node sc.view.conversationName .audioCalling))
  have hremoved : Inv E removed := removed_inv (removed_inv h _) _
  let s' : State := { removed with
    screens := s.screens.set screen { sc with isOpen := false }
    menus := s.menus ++ [⟨sc.side, .init⟩] }
  have hstep : step E s (.hangUp screen) = some s' := by
    simp only [step, hsc, Option.bind_eq_bind, Option.bind_some]
    rfl
  refine ⟨s', hstep, ⟨fun i hi => ?_, hremoved.signals, ?_, ?_, ?_, fun r hr => ?_, h.answered⟩, ?_⟩
  · exact h.listens i (by simpa [s'] using hi)
  · refine Swift.forall_mem_set h.names ?_ screen
    exact h.names sc hmem
  · refine Swift.forall_mem_set h.timed ?_ screen
    exact h.timed sc hmem
  · exact List.forall_mem_append.mpr ⟨h.menus, by simp [MenuViewController.init]⟩
  · obtain ⟨hcall, hmenu⟩ := h.reports r hr
    exact ⟨hcall, by simpa [s'] using Nat.lt_succ_of_lt hmenu⟩
  · -- leaving a screen stops watching it, at most
    intro hs sc' hsc' hwatched hlabel
    rcases List.mem_or_eq_of_mem_set hsc' with hold | rfl
    · exact hs sc' hold hwatched hlabel
    · have hleft : left = true := hwatched.2.resolve_right Bool.false_ne_true
      exact hs sc hmem ⟨hwatched.1, .inl hleft⟩ hlabel

theorem tick_ok (h : Inv E s) (screen timer : Nat) :
    ∃ s', step E s (.tick screen timer) = some s' ∧ Inv E s' ∧
      (Connected left s → Connected left s') := by
  let tick (sc : Screen) : Screen := { sc with view := sc.view.tick timer }
  have hscreens : ∀ sc' ∈ s.screens.modify screen tick, ∃ sc ∈ s.screens, sc.After sc' ∧ sc'.Timed ∧
      (sc'.view.label ≠ .contacting → sc.view.label ≠ .contacting) := by
    intro sc' hsc'
    obtain ⟨i, hi⟩ := List.mem_iff_getElem?.mp hsc'
    obtain ⟨sc, hsc, rfl⟩ := Swift.getElem?_modify_eq_some.mp hi
    have hmem := List.mem_of_getElem? hsc
    have htimed := h.timed sc hmem
    refine ⟨sc, hmem, ?_⟩
    split
    · exact ⟨tick_after sc timer, tick_timed htimed timer, tick_label htimed⟩
    · exact ⟨⟨rfl, rfl, rfl, rfl⟩, htimed, id⟩
  refine ⟨{ s with screens := s.screens.modify screen tick }, rfl,
    ⟨fun i hi => h.listens i (by simpa using hi), h.signals, fun sc' hsc' => ?_, fun sc' hsc' => ?_,
      h.menus, h.reports, h.answered⟩,
    fun hs sc' hsc' hwatched hlabel => ?_⟩
  · obtain ⟨sc, hsc, hafter, -⟩ := hscreens sc' hsc'
    exact hafter.conversationName.trans (h.names sc hsc)
  · obtain ⟨sc, hsc, -, htimed, -⟩ := hscreens sc' hsc'
    exact htimed
  · obtain ⟨sc, hsc, hafter, -, hback⟩ := hscreens sc' hsc'
    rw [hafter.call]
    exact hs sc hsc (hafter.watched.mp hwatched) (hback hlabel)

theorem step_ok (left : Bool) (s : State) (e : Event) (h : Inv E s) (he : Enabled s e) :
    ∃ s', step E s e = some s' ∧ Inv E s' ∧
      (Connected left s → (Connected left s' ↔ Fresh E left s e)) := by
  have hquiet : (∃ s', step E s e = some s' ∧ Inv E s' ∧ (Connected left s → Connected left s')) →
      ∃ s', step E s e = some s' ∧ Inv E s' ∧ (Connected left s → (Connected left s' ↔ True)) :=
    fun ⟨s', hs', hinv, hconnected⟩ => ⟨s', hs', hinv, fun hs => iff_true_intro (hconnected hs)⟩
  cases e with
  | voiceCall side friendName friendLanguage titleConversation =>
    exact voiceCall_ok h side friendName friendLanguage titleConversation
  | ring call menu => exact hquiet (ring_ok h he)
  | answer report => exact answer_ok h he
  | decline report =>
    exact hquiet ⟨{ s with reports := s.reports.eraseIdx report }, rfl, ⟨h.listens, h.signals, h.names,
      h.timed, h.menus, fun r hr => h.reports r (List.mem_of_mem_eraseIdx hr), h.answered⟩,
      connected_congr rfl (List.Subset.refl _)⟩
  | hangUp screen => exact hquiet (hangUp_ok h he)
  | tick screen timer => exact hquiet (tick_ok h screen timer)

/-- Over any calls of the two users, the timers of the callers' screens start only after their calls
    were answered if and only if every call is started on an empty node and every answer finds no
    other unanswered call waiting: on the screens that are open, and also on those that were left. -/
theorem connected_iff (E : Ends) (left : Bool) (run : Runs.Schedule (step E) Enabled State.init) :
    Runs.Throughout (step E) (Connected left) State.init run.events ↔
      Runs.Along (step E) (Fresh E left) State.init run.events :=
  (Runs.throughout_iff_along (step_ok left) init_inv (by simp [Connected, State.init]) run.enabled).2

/-- Users 2 and 3. -/
def bothEnds : Ends where
  account
    | .own => Calls.twoFriends
    | .friend => {
        userId := 3
        conversations := [⟨2, some "Bo"⟩]
        friends := [⟨2, none, none, none, some "en"⟩]
        user_ne := Peers.twoThree.friend_ne
        single := by decide
        friend_ne := by decide
        distinct := by decide
        fits := by decide
        named := by decide
        stored := by decide }
  conversation
    | .own => ⟨3, some "Ann"⟩
    | .friend => ⟨2, some "Bo"⟩
  mem side := by cases side <;> decide
  accountBId side := by cases side <;> rfl

instance (left : Bool) (sc : Screen) : Decidable (sc.Watched left) :=
  inferInstanceAs (Decidable (_ ∧ _))

instance (left : Bool) (s : State) : Decidable (Connected left s) :=
  inferInstanceAs (Decidable (∀ sc ∈ s.screens, _))

/-- The friend answers after the caller has hung up; then the caller calls again. -/
def answeredLate : List Event :=
  [.voiceCall .own "Ann" "en" "Bo", .ring 0 1, .hangUp 0, .answer 0, .voiceCall .own "Ann" "en" "Bo"]

/-- The second call shows the timer at once, and has not even rung. -/
theorem answeredLate_connects : Runs.Along (step bothEnds) Enabled State.init answeredLate ∧
    (∃ s, Runs.exec (step bothEnds) State.init answeredLate = some s ∧
      s.screens.map (fun sc => (sc.call, sc.caller, sc.isOpen, sc.view.label)) =
        [(0, true, false, .clock 0 0), (0, false, true, .clock 0 0), (1, true, true, .clock 0 0)] ∧
      s.answered = [0]) ∧
    ¬ Runs.Throughout (step bothEnds) (Connected false) State.init answeredLate := by
  have hrun : ∃ s, Runs.exec (step bothEnds) State.init answeredLate = some s ∧
      (s.screens.map (fun sc => (sc.call, sc.caller, sc.isOpen, sc.view.label)) =
        [(0, true, false, .clock 0 0), (0, false, true, .clock 0 0), (1, true, true, .clock 0 0)] ∧
      s.answered = [0]) ∧ ¬ Connected false s := ⟨_, rfl, ⟨by decide, by decide⟩, by decide⟩
  obtain ⟨s, hs, hends, hconnected⟩ := hrun
  exact ⟨by decide, ⟨s, hs, hends⟩, fun h => hconnected (Runs.throughout_last h hs)⟩

end AudioCalls

end Shiftgram
