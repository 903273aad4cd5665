import Shiftgram.ConversationName
import Shiftgram.FriendStore
import Shiftgram.Runs

/- Incoming calls in the Menu. For each conversation one closure for video and one for audio calls
   watch the notification node and report a call to CallKit. All calls share the fields of the Menu:
   an answer opens the screen the fields describe, whichever call it is for, and a decline leaves
   the fields alone.

   Every answer opens the screen of its own call in exactly those runs in which, at each answer, the
   last notification since a screen was opened is of the call's conversation, and the call is a
   video call if and only if one of those notifications is (`right_iff`). -/
namespace Shiftgram

/-- A record of the entity `Conversation`. -/
structure Conversation where
  accountBId : Int32
  name : Option String
  deriving DecidableEq, Repr

/-- The store of a signed-in user: named conversations, one with each of some stored friends, all of
    which the Menu can name. -/
structure Account where
  userId : Int32
  conversations : List Conversation
  friends : List Friend
  user_ne : userId ≠ 0
  single : (conversations.map (·.accountBId)).Nodup
  friend_ne : ∀ c ∈ conversations, c.accountBId ≠ 0
  distinct : ∀ c ∈ conversations, userId ≠ c.accountBId
  fits : ∀ c ∈ conversations, Swift.fits32 (userId.toInt * c.accountBId.toInt) = true
  named : ∀ c ∈ conversations, c.name ≠ none
  stored : ∀ c ∈ conversations, FriendEntity.getFriendLanguage friends c.accountBId.toInt ≠ none

inductive CallKind
  | video | audio
  deriving DecidableEq, Repr

def CallKind.key : CallKind → String
  | video => "videoCall"
  | audio => "audioCall"

/-- The record `pressCallButton` writes to the notification node. -/
def ChatViewController.pressCallButton (senderId titleConversation : String) (kind : CallKind) :
    Swift.Dictionary :=
  [("sender_id", senderId), ("name", titleConversation), (kind.key, "true")]

/-- What all notification closures ask of a record before they report a call. -/
def incoming (userId : Int32) (kind : CallKind) (data : Swift.Dictionary) : Bool :=
  data.value "sender_id" != some (Swift.string userId) &&
    (data.value kind.key).any (!·.isEmpty)

/-- The screen of a call, with what the Menu hands to it. -/
inductive CallScreen
  | video (conversationName friendLaguage : String)
  | audio (name conversationName friendLanguage : String)
  deriving DecidableEq, Repr

namespace CallScreen

def kind : CallScreen → CallKind
  | video .. => .video
  | audio .. => .audio

def conversationName : CallScreen → String
  | video name _ => name
  | audio _ name _ => name

def friendLanguage : CallScreen → String
  | video _ language => language
  | audio _ _ language => language

end CallScreen

inductive Write
  | removeValue (node : String)
  | childByAutoId (node : String) (value : Swift.Dictionary)
  deriving DecidableEq, Repr

/-- The fields of the Menu that calls use. -/
structure MenuViewController where
  currentConversationName : String
  currentFriendLanguage : String
  currentName : String
  isAudio : String
  isVideo : String
  deriving DecidableEq, Repr

namespace MenuViewController

def init : MenuViewController := ⟨"", "", "", "", ""⟩

/-- The closure of both functions below, with the name a reported call shows; `mark` is what they
    set in their own ways. -/
def childAdded (kind : CallKind) (mark : MenuViewController → Option MenuViewController)
    (a : Account) (conversation : Conversation) (conversationName : String)
    (menu : MenuViewController) (data : Swift.Dictionary) :
    Option (MenuViewController × Option String) :=
  if incoming a.userId kind data then do
    let friendLanguage ← FriendEntity.getFriendLanguage a.friends conversation.accountBId.toInt
    let menu ← mark { menu with
      currentConversationName := conversationName
      currentFriendLanguage := friendLanguage }
    let name ← data.value "name"
    some (menu, some name)
  else some (menu, none)

def initConversations (a : Account) (conversation : Conversation) :
    String → MenuViewController → Swift.Dictionary → Option (MenuViewController × Option String) :=
  childAdded .video (fun menu => some { menu with isVideo := "video" }) a conversation

/-- Here the Menu keeps the name of the conversation as well, for the audio screen. -/
def initAudioConversation (a : Account) (conversation : Conversation) :
    String → MenuViewController → Swift.Dictionary → Option (MenuViewController × Option String) :=
  childAdded .audio
    (fun menu => conversation.name.map fun name =>
      { menu with currentName := name, isAudio := "audio" })
    a conversation

/-- `prepare(for:sender:)`, for the segue `Video`. -/
def prepare (menu : MenuViewController) : MenuViewController × Option CallScreen × List Write :=
  ({ menu with currentConversationName := "", currentFriendLanguage := "", isVideo := "", isAudio := "" },
    some (.video menu.currentConversationName menu.currentFriendLanguage),
    [.removeValue (node menu.currentConversationName .notification)])

/-- `provider(_:perform:)` for an answer; the action says which call, and is not looked at. -/
def answerCall (userId : Int32) (menu : MenuViewController) :
    MenuViewController × Option CallScreen × List Write :=
  if !menu.isVideo.isEmpty then menu.prepare
  else if !menu.isAudio.isEmpty then
    ({ menu with currentFriendLanguage := "", isVideo := "", isAudio := "", currentConversationName := "" },
      some (.audio menu.currentName menu.currentConversationName menu.currentFriendLanguage),
      [.childByAutoId (node menu.currentConversationName .audioCalling)
        [("sender_id", Swift.string userId)],
       .removeValue (node menu.currentConversationName .notification)])
  else (menu, none, [])

end MenuViewController

/-! ## One Menu and its calls -/

namespace Calls

/-- A call notification of the friend of a conversation. -/
structure Notification where
  conversation : Conversation
  kind : CallKind
  titleConversation : String
  deriving DecidableEq, Repr

def Notification.record (n : Notification) : Swift.Dictionary :=
  ChatViewController.pressCallButton (Swift.string n.conversation.accountBId) n.titleConversation n.kind

/-- A call reported to CallKit, with the notification it was reported for. -/
structure Call where
  notification : Notification
  remoteHandle : String
  deriving DecidableEq, Repr

structure State where
  menu : MenuViewController
  /-- Every call so far; a call is known by its position. -/
  calls : List Call
  pending : List Nat
  answers : List (Nat × Option CallScreen)
  writes : List Write
  /-- The notifications since a screen was last opened. -/
  recent : List Notification
  deriving DecidableEq

def State.init : State := ⟨.init, [], [], [], [], []⟩

inductive Event
  | notification (n : Notification)
  | answer (call : Nat)
  | decline (call : Nat)
  deriving DecidableEq

variable (a : Account)

/-- The two closures of the conversation, in the order in which `viewDidLoad` registers them. -/
def notified (s : State) (n : Notification) : Option State := do
  let name ← MenuViewController.conversationName a.userId n.conversation.accountBId
  let (menu, video) ← MenuViewController.initConversations a n.conversation name s.menu n.record
  let (menu, audio) ← MenuViewController.initAudioConversation a n.conversation name menu n.record
  let reported := (video.toList ++ audio.toList).map fun handle => (⟨n, handle⟩ : Call)
  some { s with
    menu
    calls := s.calls ++ reported
    pending := s.pending ++ List.range' s.calls.length reported.length
    recent := s.recent ++ [n] }

def answered (s : State) (call : Nat) : State :=
  let (menu, screen, writes) := s.menu.answerCall a.userId
  { s with
    menu
    pending := s.pending.filter (· ≠ call)
    answers := s.answers ++ [(call, screen)]
    writes := s.writes ++ writes
    recent := if screen.isSome then [] else s.recent }

def step (s : State) : Event → Option State
  | .notification n => notified a s n
  | .answer call => some (answered a s call)
  | .decline call => some { s with pending := s.pending.filter (· ≠ call) }

/-- Notifications come from the user's conversations; calls are answered or declined while they
    ring. -/
def Enabled (s : State) : Event → Prop
  | .notification n => n.conversation ∈ a.conversations
  | .answer call | .decline call => call ∈ s.pending

instance (s : State) (e : Event) : Decidable (Enabled a s e) :=
  match e with
  | .notification n => inferInstanceAs (Decidable (n.conversation ∈ a.conversations))
  | .answer call | .decline call => inferInstanceAs (Decidable (call ∈ s.pending))

/-- The screen of the kind of the call, on its conversation, with its friend's language. -/
def Fits (n : Notification) (screen : CallScreen) : Prop :=
  screen.kind = n.kind ∧
    MenuViewController.conversationName a.userId n.conversation.accountBId =
      some screen.conversationName ∧
    FriendEntity.getFriendLanguage a.friends n.conversation.accountBId.toInt =
      some screen.friendLanguage

/-- Every answer opened the screen of its own call. -/
def Right (s : State) : Prop :=
  ∀ answer ∈ s.answers, ∃ call screen,
    s.calls[answer.1]? = some call ∧ answer.2 = some screen ∧ Fits a call.notification screen

/-- The recent notifications end with the conversation of `n`, and hold a video call exactly if `n`
    is one. -/
def Current (recent : List Notification) (n : Notification) : Prop :=
  ∃ last, recent.getLast? = some last ∧ last.conversation.accountBId = n.conversation.accountBId ∧
    (n.kind = .video ↔ ∃ r ∈ recent, r.kind = .video)

/-- A call is answered while its notification is current. -/
def Timely (s : State) : Event → Prop
  | .answer k => ∃ call, s.calls[k]? = some call ∧ Current s.recent call.notification
  | _ => True

/-! ## The closures -/

/-- The user and the friend of a conversation. -/
def peers (a : Account) {c : Conversation} (hc : c ∈ a.conversations) : Peers :=
  ⟨a.userId, c.accountBId, a.user_ne, a.friend_ne c hc, a.distinct c hc, a.fits c hc⟩

/-- The name of a conversation of the user. -/
def nameOf (a : Account) (c : Conversation) : String :=
  Swift.string (Int32.ofInt (a.userId.toInt * c.accountBId.toInt))

variable {a} {s : State} {n : Notification}

theorem conversationName_of {c : Conversation} (hc : c ∈ a.conversations) :
    MenuViewController.conversationName a.userId c.accountBId = some (nameOf a c) :=
  menuConversationName_eq (peers a hc)

/-- Conversations of one name are with one friend. -/
theorem nameOf_inj {c c' : Conversation} (hc : c ∈ a.conversations) (hc' : c' ∈ a.conversations)
    (h : nameOf a c = nameOf a c') : c.accountBId = c'.accountBId := by
  have hne : a.userId.toInt ≠ 0 := fun h0 => a.user_ne (Int32.toInt.inj h0)
  have hproduct : a.userId.toInt * c.accountBId.toInt = a.userId.toInt * c'.accountBId.toInt :=
    calc a.userId.toInt * c.accountBId.toInt
        = (peers a hc).product.toInt := (peers a hc).toInt_product.symm
      _ = (peers a hc').product.toInt := congrArg Int32.toInt (Swift.string_inj.mp h)
      _ = a.userId.toInt * c'.accountBId.toInt := (peers a hc').toInt_product
  exact Int32.toInt.inj (Int.eq_of_mul_eq_mul_left hne hproduct)

/-- A friend's record is an incoming call for the closure of its kind only. -/
theorem incoming_record (hn : n.conversation ∈ a.conversations) (kind : CallKind) :
    incoming a.userId kind n.record = true ↔ kind = n.kind := by
  have hother : n.record.value "sender_id" ≠ some (Swift.string a.userId) := by
    intro hsame
    exact a.distinct _ hn (Swift.string_inj.mp (Option.some.inj hsame)).symm
  unfold incoming
  rw [bne_iff_ne.mpr hother, Bool.true_and]
  obtain ⟨c, k, title⟩ := n
  cases kind <;> cases k <;> simp [Notification.record, ChatViewController.pressCallButton,
    CallKind.key, Swift.Dictionary.value, List.lookup_cons]

/-- The fields name the conversation of `n` and hold its friend's language. -/
def Names (a : Account) (menu : MenuViewController) (n : Notification) : Prop :=
  MenuViewController.conversationName a.userId n.conversation.accountBId =
      some menu.currentConversationName ∧
    FriendEntity.getFriendLanguage a.friends n.conversation.accountBId.toInt =
      some menu.currentFriendLanguage

theorem childAdded_other {kind : CallKind} {mark : MenuViewController → Option MenuViewController}
    {c : Conversation} {data : Swift.Dictionary} (h : ¬ incoming a.userId kind data = true)
    (name : String) (menu : MenuViewController) :
    MenuViewController.childAdded kind mark a c name menu data = some (menu, none) :=
  if_neg h

theorem childAdded_incoming {kind : CallKind} {mark : MenuViewController → Option MenuViewController}
    {c : Conversation} {data : Swift.Dictionary} {name language title : String}
    {menu menu' : MenuViewController} (h : incoming a.userId kind data = true)
    (hlanguage : FriendEntity.getFriendLanguage a.friends c.accountBId.toInt = some language)
    (hmark : mark { menu with currentConversationName := name, currentFriendLanguage := language } =
      some menu')
    (htitle : data.value "name" = some title) :
    MenuViewController.childAdded kind mark a c name menu data = some (menu', some title) := by
  rw [MenuViewController.childAdded, if_pos h, hlanguage, Option.bind_eq_bind, Option.bind_some]
  simp only [hmark, htitle, Option.bind_eq_bind, Option.bind_some]

/-- A notification is reported once, and overwrites the fields. -/
theorem notified_spec (hn : n.conversation ∈ a.conversations) (s : State) :
    ∃ menu, notified a s n = some { s with
        menu
        calls := s.calls ++ [⟨n, n.titleConversation⟩]
        pending := s.pending ++ [s.calls.length]
        recent := s.recent ++ [n] } ∧
      Names a menu n ∧
      (menu.isVideo.isEmpty = false ↔ s.menu.isVideo.isEmpty = false ∨ n.kind = .video) ∧
      (menu.isAudio.isEmpty = false ↔ s.menu.isAudio.isEmpty = false ∨ n.kind = .audio) := by
  obtain ⟨language, hlanguage⟩ := Option.ne_none_iff_exists'.mp (a.stored _ hn)
  obtain ⟨name, hname⟩ := Option.ne_none_iff_exists'.mp (a.named _ hn)
  have hconversation := conversationName_of hn
  have htitle : n.record.value "name" = some n.titleConversation := rfl
  cases hkind : n.kind with
  | video =>
    let menu : MenuViewController :=
      ⟨nameOf a n.conversation, language, s.menu.currentName, s.menu.isAudio, "video"⟩
    have hvideo : MenuViewController.initConversations a n.conversation (nameOf a n.conversation)
        s.menu n.record = some (menu, some n.titleConversation) :=
      childAdded_incoming ((incoming_record hn .video).mpr hkind.symm) hlanguage rfl htitle
    have haudio : MenuViewController.initAudioConversation a n.conversation (nameOf a n.conversation)
        menu n.record = some (menu, none) :=
      childAdded_other (by rw [incoming_record hn, hkind]; decide) _ _
    refine ⟨menu, ?_, ⟨hconversation, hlanguage⟩, by simp [menu], by simp [menu]⟩
    simp [notified, hconversation, hvideo, haudio]
  | audio =>
    let menu : MenuViewController :=
      ⟨nameOf a n.conversation, language, name, "audio", s.menu.isVideo⟩
    have hvideo : MenuViewController.initConversations a n.conversation (nameOf a n.conversation)
        s.menu n.record = some (s.menu, none) :=
      childAdded_other (by rw [incoming_record hn, hkind]; decide) _ _
    have haudio : MenuViewController.initAudioConversation a n.conversation (nameOf a n.conversation)
        s.menu n.record = some (menu, some n.titleConversation) :=
      childAdded_incoming ((incoming_record hn .audio).mpr hkind.symm) hlanguage
        (by rw [hname]; rfl) htitle
    refine ⟨menu, ?_, ⟨hconversation, hlanguage⟩, by simp [menu], by simp [menu]⟩
    simp [notified, hconversation, hvideo, haudio]

/-- Two notifications the fields name are of one conversation. -/
theorem names_iff {menu : MenuViewController} {m : Notification} (hm : m.conversation ∈ a.conversations)
    (hn : n.conversation ∈ a.conversations) (h : Names a menu m) :
    Names a menu n ↔ m.conversation.accountBId = n.conversation.accountBId := by
  refine ⟨?_, ?_⟩
  · intro h'
    apply nameOf_inj hm hn
    have hname : some (nameOf a m.conversation) = some (nameOf a n.conversation) :=
      calc some (nameOf a m.conversation)
          = some menu.currentConversationName := (conversationName_of hm).symm.trans h.1
        _ = some (nameOf a n.conversation) := h'.1.symm.trans (conversationName_of hn)
    exact Option.some.inj hname
  · intro hid
    unfold Names
    rw [← hid]
    exact h

/-! ## An answer -/

theorem answerCall_idle {menu : MenuViewController} (userId : Int32)
    (h : ¬ (menu.isVideo.isEmpty = false ∨ menu.isAudio.isEmpty = false)) :
    menu.answerCall userId = (menu, none, []) := by
  simp only [not_or, Bool.not_eq_false] at h
  simp [MenuViewController.answerCall, h.1, h.2]

/-- A screen opens with the fields, the notification is removed, and flags and name are cleared. -/
theorem answerCall_opens {menu : MenuViewController} (userId : Int32)
    (h : menu.isVideo.isEmpty = false ∨ menu.isAudio.isEmpty = false) :
    ∃ menu' screen writes, menu.answerCall userId = (menu', some screen, writes) ∧
      (menu'.isVideo = "" ∧ menu'.isAudio = "" ∧ menu'.currentConversationName = "") ∧
      (∀ removed, Write.removeValue removed ∈ writes ↔
        removed = node menu.currentConversationName .notification) ∧
      screen.conversationName = menu.currentConversationName ∧
      screen.friendLanguage = menu.currentFriendLanguage ∧
      (screen.kind = .video ↔ menu.isVideo.isEmpty = false) := by
  unfold MenuViewController.answerCall MenuViewController.prepare
  cases hvideo : menu.isVideo.isEmpty with
  | false =>
    simp only [Bool.not_false, if_true]
    exact ⟨_, _, _, rfl, ⟨rfl, rfl, rfl⟩, fun _ => by simp, rfl, rfl, by simp [CallScreen.kind]⟩
  | true =>
    have haudio : menu.isAudio.isEmpty = false := by simpa [hvideo] using h
    simp only [haudio, Bool.not_true, Bool.not_false, Bool.false_eq_true, if_false, if_true]
    exact ⟨_, _, _, rfl, ⟨rfl, rfl, rfl⟩, fun _ => by simp, rfl, rfl, by simp [CallScreen.kind]⟩

/-! ## Runs -/

structure Inv (a : Account) (s : State) : Prop where
  calls : ∀ call ∈ s.calls, call.notification.conversation ∈ a.conversations
  pending : ∀ k ∈ s.pending, k < s.calls.length
  recent : ∀ n ∈ s.recent, n.conversation ∈ a.conversations
  isVideo : s.menu.isVideo.isEmpty = false ↔ ∃ n ∈ s.recent, n.kind = .video
  isAudio : s.menu.isAudio.isEmpty = false ↔ ∃ n ∈ s.recent, n.kind = .audio
  current : ∀ n, s.recent.getLast? = some n → Names a s.menu n

theorem init_inv : Inv a State.init where
  calls := by simp [State.init]
  pending := by simp [State.init]
  recent := by simp [State.init]
  isVideo := by simp [State.init, MenuViewController.init]
  isAudio := by simp [State.init, MenuViewController.init]
  current := by simp [State.init]

/-- The Menu holds a call exactly if a notification came since a screen was last opened. -/
theorem holds_iff (h : Inv a s) :
    s.menu.isVideo.isEmpty = false ∨ s.menu.isAudio.isEmpty = false ↔ s.recent ≠ [] := by
  rw [h.isVideo, h.isAudio]
  refine ⟨?_, ?_⟩
  · rintro (hr | hr) hnil
    all_goals
      obtain ⟨r, hr, -⟩ := hr
      rw [hnil] at hr
      exact List.not_mem_nil hr
  · intro hne
    obtain ⟨r, rest, hrecent⟩ := List.exists_cons_of_ne_nil hne
    cases hkind : r.kind with
    | video => exact Or.inl ⟨r, by simp [hrecent], hkind⟩
    | audio => exact Or.inr ⟨r, by simp [hrecent], hkind⟩

theorem inv_notified (h : Inv a s) (hn : n.conversation ∈ a.conversations) :
    ∃ s', notified a s n = some s' ∧ Inv a s' ∧
      s'.answers = s.answers ∧ ∃ call, s'.calls = s.calls ++ [call] := by
  obtain ⟨menu, hstep, hnames, hvideo, haudio⟩ := notified_spec hn s
  refine ⟨_, hstep, ⟨?_, ?_, ?_, ?_, ?_, ?_⟩, rfl, _, rfl⟩
  · rw [List.forall_mem_append]
    exact ⟨h.calls, by simpa using hn⟩
  · intro k hk
    rw [List.length_append, List.length_singleton]
    rcases List.mem_append.mp hk with hk | hk
    · have := h.pending k hk
      omega
    · have := List.mem_singleton.mp hk
      omega
  · rw [List.forall_mem_append]
    exact ⟨h.recent, by simpa using hn⟩
  · rw [hvideo, h.isVideo]
    simp [or_and_right, exists_or]
  · rw [haudio, h.isAudio]
    simp [or_and_right, exists_or]
  · intro m hm
    rw [List.getLast?_concat, Option.some.injEq] at hm
    exact hm ▸ hnames

theorem inv_answered (h : Inv a s) (k : Nat) : Inv a (answered a s k) := by
  have hpending : ∀ j ∈ s.pending.filter (· ≠ k), j < s.calls.length :=
    fun j hj => h.pending j (List.mem_of_mem_filter hj)
  unfold answered
  by_cases hhold : s.menu.isVideo.isEmpty = false ∨ s.menu.isAudio.isEmpty = false
  · obtain ⟨menu, screen, writes, hanswer, ⟨hvideo, haudio, -⟩, -⟩ := answerCall_opens a.userId hhold
    rw [hanswer]
    exact ⟨h.calls, hpending, by simp, by simp [hvideo], by simp [haudio], by simp⟩
  · rw [answerCall_idle a.userId hhold]
    exact ⟨h.calls, hpending, h.recent, h.isVideo, h.isAudio, h.current⟩

/-- The screen that opens fits a call exactly if its notification is current. -/
theorem fits_iff (h : Inv a s) (hn : n.conversation ∈ a.conversations) :
    (∃ screen, (s.menu.answerCall a.userId).2.1 = some screen ∧ Fits a n screen) ↔
      Current s.recent n := by
  by_cases hhold : s.menu.isVideo.isEmpty = false ∨ s.menu.isAudio.isEmpty = false
  · -- the flags choose the kind, the last notification the conversation
    obtain ⟨menu, screen, writes, hanswer, -, -, hname, hlanguage, hkind⟩ :=
      answerCall_opens a.userId hhold
    obtain ⟨last, hlast⟩ : ∃ last, s.recent.getLast? = some last :=
      ⟨_, List.getLast?_eq_some_getLast ((holds_iff h).mp hhold)⟩
    have hmem := h.recent last (List.mem_of_getLast? hlast)
    have hfits : Fits a n screen ↔
        screen.kind = n.kind ∧ last.conversation.accountBId = n.conversation.accountBId := by
      rw [← names_iff hmem hn (h.current last hlast), Fits, hname, hlanguage]
      rfl
    have hsame : screen.kind = n.kind ↔ (n.kind = .video ↔ ∃ r ∈ s.recent, r.kind = .video) := by
      rw [← h.isVideo, ← hkind]
      cases screen.kind <;> cases n.kind <;> simp
    simp only [hanswer, Option.some.injEq, exists_eq_left', hfits, Current, hlast, hsame]
    exact and_comm
  · -- no screen opens, and no notification is recent
    have hnil : s.recent = [] := by
      by_contra hne
      exact hhold ((holds_iff h).mpr hne)
    simp [answerCall_idle a.userId hhold, Current, hnil]

/-- One step keeps the answers right exactly if it answers no call out of time. -/
theorem step_right (a : Account) (s : State) (e : Event) (h : Inv a s) (he : Enabled a s e) :
    ∃ s', step a s e = some s' ∧ Inv a s' ∧ (Right a s → (Right a s' ↔ Timely s e)) := by
  cases e with
  | notification n =>
    obtain ⟨s', hstep, hinv, hanswers, call, hcalls⟩ := inv_notified h he
    refine ⟨s', hstep, hinv, fun hs => ⟨fun _ => trivial, fun _ answer hanswer => ?_⟩⟩
    rw [hanswers] at hanswer
    obtain ⟨call, screen, hcall, hright⟩ := hs answer hanswer
    obtain ⟨hlt, -⟩ := List.getElem?_eq_some_iff.mp hcall
    exact ⟨call, screen, by rw [hcalls, List.getElem?_append_left hlt, hcall], hright⟩
  | answer k =>
    refine ⟨_, rfl, inv_answered h k, fun hs => ?_⟩
    obtain ⟨call, hcall⟩ : ∃ call, s.calls[k]? = some call :=
      ⟨_, List.getElem?_eq_getElem (h.pending k he)⟩
    have hmem := h.calls call (List.mem_of_getElem? hcall)
    -- the earlier answers stay right, so the new one decides
    have hright : Right a (answered a s k) ↔
        ∃ screen, (s.menu.answerCall a.userId).2.1 = some screen ∧ Fits a call.notification screen := by
      have hanswers : (answered a s k).answers =
          s.answers ++ [(k, (s.menu.answerCall a.userId).2.1)] := rfl
      have hcalls : (answered a s k).calls = s.calls := rfl
      simp only [Right, hanswers, hcalls, List.forall_mem_append, List.forall_mem_singleton]
      exact (and_iff_right hs).trans (by simp [hcall])
    rw [hright, fits_iff h hmem, Timely, hcall]
    simp
  | decline k =>
    exact ⟨_, rfl,
      ⟨h.calls, fun j hj => h.pending j (List.mem_of_mem_filter hj), h.recent, h.isVideo, h.isAudio,
        h.current⟩,
      fun hs => ⟨fun _ => trivial, fun _ => hs⟩⟩

/-- The answers of a run are right at all times exactly if each comes while its notification is
    current. -/
theorem right_iff (a : Account) (run : Runs.Schedule (step a) (Enabled a) State.init) :
    (∃ s, Runs.exec (step a) State.init run.events = some s) ∧
      (Runs.Throughout (step a) (Right a) State.init run.events ↔
        Runs.Along (step a) Timely State.init run.events) := by
  exact Runs.throughout_iff_along (step_right a) init_inv (by simp [Right, State.init]) run.enabled

/-- User 2 with the friends 3 and 5. -/
def twoFriends : Account where
  userId := 2
  conversations := [⟨3, some "Ann"⟩, ⟨5, some "Bob"⟩]
  friends := [⟨3, none, none, none, some "en"⟩, ⟨5, none, none, none, some "de"⟩]
  user_ne := Peers.twoThree.own_ne
  single := by decide
  friend_ne := by decide
  distinct := by decide
  fits := by decide
  named := by decide
  stored := by decide

/-- A video call is declined; the audio call after it is answered. -/
def declinedThenAnswered : List Event :=
  [.notification ⟨⟨3, some "Ann"⟩, .video, "Me"⟩, .decline 0,
    .notification ⟨⟨5, some "Bob"⟩, .audio, "Me"⟩, .answer 1]

/-- It opens as a video call: the declined call left its flag behind. -/
theorem declinedThenAnswered_opens :
    Runs.Along (step twoFriends) (Enabled twoFriends) State.init declinedThenAnswered ∧
      (Runs.exec (step twoFriends) State.init declinedThenAnswered).map (·.answers) =
        some [(1, some (.video "10" "de"))] ∧
      ¬ Runs.Throughout (step twoFriends) (Right twoFriends) State.init declinedThenAnswered := by
  have hlast : (Runs.exec (step twoFriends) State.init declinedThenAnswered).map
      (fun s => (s.answers, s.calls.map (·.notification.kind))) =
        some ([(1, some (.video "10" "de"))], [.video, .audio]) := by decide
  obtain ⟨s, hs, hends⟩ := Option.map_eq_some_iff.mp hlast
  obtain ⟨hanswers, hkinds⟩ := Prod.mk.inj hends
  refine ⟨by decide, by rw [hs, Option.map_some, hanswers], fun h => ?_⟩
  obtain ⟨call, screen, hcall, hscreen, hkind, -⟩ :=
    Runs.throughout_last h hs (1, some (.video "10" "de")) (by rw [hanswers]; simp)
  have hvideo : screen.kind = .video := by rw [← Option.some.inj hscreen]; rfl
  have haudio : call.notification.kind = .audio := by
    have := congrArg (·[1]?) hkinds
    simpa [hcall] using this
  rw [hvideo, haudio] at hkind
  cases hkind

end Calls

end Shiftgram
