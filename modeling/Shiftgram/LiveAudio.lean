import Shiftgram.App
import Shiftgram.Composer
import Shiftgram.VideoRoom

/- Live audio in video calls. Each end of a call decides alone whether to publish its microphone: it
   does if its own language is the one that it holds for the friend. The caller holds the language
   that was stored when the conversation was opened, before the refresh that the same tap starts; the
   other end holds the one that was stored when the call rang.

   In every call both ends publish audio or neither does, as long as what they hold was right when
   it was read, the caller's when the conversation was opened and the other's when the call rang, and
   has not been made wrong by a change of a device since (`agree_of_upToDate`). A refresh that comes
   later than the tap is too late. The exact condition at an answer is that the languages held mislead
   both ends or neither (`agree_iff`). As long as nobody changes the language of the device, nobody is
   misled (`settled_agree`).

   Assumed: the devices can create their tracks. Of a friend list only the entry of the other user
   is modelled. -/
namespace Shiftgram.LiveAudio

open Composer (Side)

/-- The two users of a conversation, with what the server and the devices start with. -/
structure Ends where
  user : Side → User
  conversation : Side → Conversation
  account : Side → FriendModel
  friends : Side → List Friend
  language : Side → String
  accountBId : ∀ side, (conversation side).accountBId = (user side.other).id
  account_id : ∀ side, (account side).id = (user side).id.toInt

/-- What is under way between a device and the server. -/
inductive Message
  /-- `updateLanguage`, and its completion. -/
  | put (side : Side) (language : String)
  | updated (side : Side)
  /-- `updateLanguageFriend`, and the entry of the other user in its response. -/
  | get (side : Side)
  | friends (side : Side) (friend : FriendModel)
  deriving DecidableEq, Repr

def Message.isPut : Message → Bool
  | put .. => true
  | _ => false

/-- A chat screen. -/
structure Chat where
  side : Side
  conversationName : String
  friendLanguage : String
  deriving DecidableEq, Repr

/-- One end of a video call: the screen, and the options it connects with. -/
structure End where
  screen : VideoViewController
  options : TVIConnectOptions
  deriving DecidableEq, Repr

def End.load (conversationName friendLaguage language : String) : End :=
  let loaded := (VideoViewController.init conversationName friendLaguage language).viewDidLoad
    ⟨true, true⟩
  ⟨loaded.1, loaded.2⟩

/-- The end publishes a local audio track. -/
def End.Publishes (e : End) : Prop := e.options.audioTracks ≠ []

structure Call where
  caller : Side
  screen : End
  deriving DecidableEq, Repr

structure State where
  language : Side → String
  account : Side → FriendModel
  friends : Side → List Friend
  menu : Side → MenuViewController
  messages : List Message
  /-- Chat screens and calls are known by their positions. -/
  chats : List Chat
  calls : List Call
  /-- The calls that were reported on the other device. -/
  rung : List Nat
  answers : List (Nat × End)

variable (E : Ends)

def State.init : State where
  language := E.language
  account := E.account
  friends := E.friends
  menu _ := .init
  messages := []
  chats := []
  calls := []
  rung := []
  answers := []

inductive Event
  | changeLanguage (side : Side) (language : String)
  /-- The update that the tabs and the chat send as well. -/
  | updateLanguage (side : Side)
  | didSelectRow (side : Side)
  /-- The message arrives. -/
  | deliver (message : Nat)
  /-- The server answers an update with an error. -/
  | refuse (message : Nat)
  | lose (message : Nat)
  | videoCall (chat : Nat)
  | ring (call : Nat)
  | answer (call : Nat)
  deriving DecidableEq, Repr

/-- What the video closure of the Menu sets for a call of the conversation. -/
def ringing (userId : Int32) (friends : List Friend) (conversation : Conversation)
    (menu : MenuViewController) : Option MenuViewController := do
  let conversationName ← MenuViewController.conversationName userId conversation.accountBId
  let friendLanguage ← FriendEntity.getFriendLanguage friends conversation.accountBId.toInt
  some { menu with
    currentConversationName := conversationName
    currentFriendLanguage := friendLanguage
    isVideo := "video" }

def State.arrive (s : State) : Message → Option State
  | .put side language =>
    some { s with
      account := Function.update s.account side { s.account side with language }
      messages := s.messages ++ [.updated side] }
  | .updated side => some { s with messages := s.messages ++ [.get side] }
  | .get side =>
    some { s with messages := s.messages ++ [.friends side (s.account side.other)] }
  | .friends side friend => do
    let (friends, _) ← FriendDataManager.updateLanguageFriends (s.friends side)
      ⟨some 200, some (.array [FriendSync.object friend])⟩
    some { s with friends := Function.update s.friends side friends }

def step (s : State) : Event → Option State
  | .changeLanguage side language =>
    some { s with language := Function.update s.language side language }
  | .updateLanguage side =>
    some { s with messages := s.messages ++ [.put side (s.language side)] }
  | .didSelectRow side => do
    let (conversationName, friendLanguage) ← ConversationViewController.didSelectRow [E.user side]
      (s.friends side) (E.conversation side)
    some { s with
      messages := s.messages ++ [.put side (s.language side)]
      chats := s.chats ++ [⟨side, conversationName, friendLanguage⟩] }
  | .deliver message => do
    let m ← s.messages[message]?
    { s with messages := s.messages.eraseIdx message }.arrive m
  | .refuse message => do
    let .put side _ ← s.messages[message]? | none
    some { s with messages := s.messages.eraseIdx message ++ [.updated side] }
  | .lose message => some { s with messages := s.messages.eraseIdx message }
  | .videoCall chat => do
    let c ← s.chats[chat]?
    some { s with
      calls := s.calls ++ [⟨c.side, .load c.conversationName c.friendLanguage (s.language c.side)⟩] }
  | .ring call => do
    let c ← s.calls[call]?
    let side := c.caller.other
    let menu ← ringing (E.user side).id (s.friends side) (E.conversation side) (s.menu side)
    some { s with menu := Function.update s.menu side menu, rung := s.rung ++ [call] }
  | .answer call => do
    let c ← s.calls[call]?
    let side := c.caller.other
    let answered := (s.menu side).answerCall (E.user side).id
    let s := { s with menu := Function.update s.menu side answered.1 }
    match answered.2.1 with
    | some (.video conversationName friendLaguage) =>
      some { s with
        answers := s.answers ++ [(call, .load conversationName friendLaguage (s.language side))] }
    | _ => some s

/-- What can happen: messages, chats and calls are there, and an answered call has rung. -/
def Enabled (s : State) : Event → Prop
  | .deliver message | .lose message => message < s.messages.length
  | .refuse message => s.messages[message]?.any Message.isPut = true
  | .videoCall chat => chat < s.chats.length
  | .ring call => call < s.calls.length
  | .answer call => call ∈ s.rung
  | _ => True

/-- In every answered call both ends publish audio or neither does. -/
def Agree (s : State) : Prop :=
  ∀ a ∈ s.answers, ∀ c, s.calls[a.1]? = some c → (c.screen.Publishes ↔ a.2.Publishes)

/-- The language held for the friend hides that the languages differ, or that they are the same. -/
def Misled (own held friend : String) : Prop := ¬ (own = held ↔ own = friend)

/-- At an answer that opens the screen, both ends are misled or neither is. -/
def EquallyMisled (s : State) : Event → Prop
  | .answer call => ∀ c, s.calls[call]? = some c →
      let menu := s.menu c.caller.other
      let caller := c.screen.screen
      let answering := s.language c.caller.other
      menu.isVideo ≠ "" →
        (Misled caller.language caller.friendLaguage answering ↔
          Misled answering menu.currentFriendLanguage caller.language)
  | _ => True

instance (s : State) (e : Event) : Decidable (Enabled s e) := by
  cases e <;> unfold Enabled <;> infer_instance

/-! ## The two ends of a call -/

section End

variable (conversationName friendLaguage language : String)

@[simp] theorem load_language :
    (End.load conversationName friendLaguage language).screen.language = language := by
  simp only [End.load, VideoViewController.viewDidLoad, VideoViewController.initConnection,
    VideoViewController.prepareLocalMedia]
  split_ifs <;> rfl

@[simp] theorem load_friendLaguage :
    (End.load conversationName friendLaguage language).screen.friendLaguage = friendLaguage := by
  simp only [End.load, VideoViewController.viewDidLoad, VideoViewController.initConnection,
    VideoViewController.prepareLocalMedia]
  split_ifs <;> rfl

@[simp] theorem load_publishes :
    (End.load conversationName friendLaguage language).Publishes ↔ language = friendLaguage := by
  by_cases h : language = friendLaguage <;>
    simp [End.Publishes, End.load, VideoViewController.viewDidLoad, VideoViewController.init,
      VideoViewController.initConnection, VideoViewController.prepareLocalMedia,
      VideoViewController.startPreview, VideoViewController.connectOptions, h]

end End

/-- Two ends that compare with what they hold agree exactly if both are misled or neither is. -/
theorem agree_iff_misled (own held friend held' : String) :
    (own = held ↔ friend = held') ↔ (Misled own held friend ↔ Misled friend held' own) := by
  unfold Misled
  rw [eq_comm (a := friend) (b := own)]
  tauto

theorem not_misled (own friend : String) : ¬ Misled own friend friend := by
  simp [Misled]

/-- The video closure of a Menu sets just this for a video call of the conversation. -/
theorem ringing_eq {a : Account} {n : Calls.Notification} (hn : n.conversation ∈ a.conversations)
    (hkind : n.kind = .video) (menu : MenuViewController) :
    ((MenuViewController.conversationName a.userId n.conversation.accountBId).bind fun name =>
      MenuViewController.initConversations a n.conversation name menu n.record) =
      (ringing a.userId a.friends n.conversation menu).map (·, some n.titleConversation) := by
  obtain ⟨language, hlanguage⟩ := Option.ne_none_iff_exists'.mp (a.stored n.conversation hn)
  have hincoming := (Calls.incoming_record hn .video).mpr hkind.symm
  have hclosure : MenuViewController.initConversations a n.conversation (Calls.nameOf a n.conversation)
      menu n.record = some (⟨Calls.nameOf a n.conversation, language, menu.currentName,
        menu.isAudio, "video"⟩, some n.titleConversation) :=
    Calls.childAdded_incoming hincoming hlanguage rfl rfl
  rw [Calls.conversationName_of hn, Option.bind_some, hclosure]
  simp [ringing, Calls.conversationName_of hn, hlanguage]

/-! ## Agreement -/

/-- Screens keep what they were loaded with, and answers are for calls. -/
structure Inv (s : State) : Prop where
  calls : ∀ c ∈ s.calls, ∃ name friendLaguage language, c.screen = .load name friendLaguage language
  answers : ∀ a ∈ s.answers, a.1 < s.calls.length

variable {E} {s s' : State} {e : Event}

theorem init_inv : Inv (State.init E) where
  calls := by simp [State.init]
  answers := by simp [State.init]

/-- Agreement and bookkeeping read the calls and the answers only. -/
theorem agree_of_same (h : Inv s) (hcalls : s'.calls = s.calls) (hanswers : s'.answers = s.answers) :
    Inv s' ∧ (Agree s → Agree s') := by
  refine ⟨⟨by rw [hcalls]; exact h.calls, by rw [hcalls, hanswers]; exact h.answers⟩, fun hs => ?_⟩
  unfold Agree
  rw [hcalls, hanswers]
  exact hs

theorem arrive_same {m : Message} (h : s.arrive m = some s') :
    s'.calls = s.calls ∧ s'.answers = s.answers := by
  cases m with
  | friends side friend =>
    obtain ⟨⟨friends, n⟩, -, h⟩ := Option.bind_eq_some_iff.mp h
    obtain rfl := Option.some.inj h
    exact ⟨rfl, rfl⟩
  | _ =>
    obtain rfl := Option.some.inj h
    exact ⟨rfl, rfl⟩

/-- An answer opens a video screen with what the Menu holds, if the flag of a video call is set. -/
theorem answerCall_video (userId : Int32) (menu : MenuViewController) :
    (menu.isVideo ≠ "" ∧ (menu.answerCall userId).2.1 =
        some (.video menu.currentConversationName menu.currentFriendLanguage)) ∨
      (menu.isVideo = "" ∧ ∀ name language, (menu.answerCall userId).2.1 ≠ some (.video name language)) := by
  unfold MenuViewController.answerCall
  by_cases hvideo : menu.isVideo = ""
  · refine .inr ⟨hvideo, ?_⟩
    rw [hvideo]
    by_cases haudio : menu.isAudio = "" <;> simp [haudio]
  · exact .inl ⟨hvideo, by simp [hvideo, MenuViewController.prepare]⟩

theorem answer_spec {call : Nat} (h : step E s (.answer call) = some s') :
    ∃ c, s.calls[call]? = some c ∧ s'.calls = s.calls ∧
      (((s.menu c.caller.other).isVideo = "" ∧ s'.answers = s.answers) ∨
        ((s.menu c.caller.other).isVideo ≠ "" ∧ ∃ name,
          s'.answers = s.answers ++ [(call, .load name
            (s.menu c.caller.other).currentFriendLanguage (s.language c.caller.other))])) := by
  obtain ⟨c, hc, h⟩ := Option.bind_eq_some_iff.mp h
  refine ⟨c, hc, ?_⟩
  rcases answerCall_video (E.user c.caller.other).id (s.menu c.caller.other) with
    ⟨hvideo, hscreen⟩ | ⟨hvideo, hscreen⟩
  · simp only [hscreen] at h
    obtain rfl := Option.some.inj h
    exact ⟨rfl, .inr ⟨hvideo, _, rfl⟩⟩
  · dsimp only at h
    split at h
    · next name language hsome => exact absurd hsome (hscreen name language)
    · obtain rfl := Option.some.inj h
      exact ⟨rfl, .inl ⟨hvideo, rfl⟩⟩

theorem step_agree (h : Inv s) (hs' : step E s e = some s') :
    Inv s' ∧ (Agree s → (Agree s' ↔ EquallyMisled s e)) := by
  have hquiet : s'.calls = s.calls → s'.answers = s.answers →
      Inv s' ∧ (Agree s → (Agree s' ↔ True)) := fun hcalls hanswers =>
    have hsame := agree_of_same h hcalls hanswers
    ⟨hsame.1, fun hs => iff_true_intro (hsame.2 hs)⟩
  cases e with
  | videoCall chat =>
    obtain ⟨c, hc, hs'⟩ := Option.bind_eq_some_iff.mp hs'
    obtain rfl := Option.some.inj hs'
    refine ⟨⟨?_, fun a ha => ?_⟩, fun hs => iff_true_intro fun a ha => ?_⟩
    · simp only [List.mem_append, List.mem_singleton]
      rintro c' (hc' | rfl)
      · exact h.calls c' hc'
      · exact ⟨_, _, _, rfl⟩
    · rw [List.length_append]
      exact Nat.lt_add_right 1 (h.answers a ha)
    · -- the calls that were answered are still the same
      rw [List.getElem?_append_left (h.answers a ha)]
      exact hs a ha
  | answer call =>
    obtain ⟨c, hc, hcalls, ⟨hvideo, hanswers⟩ | ⟨hvideo, name, hanswers⟩⟩ := answer_spec hs'
    · obtain ⟨hinv, hagree⟩ := agree_of_same h hcalls hanswers
      refine ⟨hinv, fun hs => iff_of_true (hagree hs) fun c' hc' hvideo' => ?_⟩
      obtain rfl := Option.some.inj (hc.symm.trans hc')
      exact absurd hvideo hvideo'
    · obtain ⟨name', friendLaguage, language, hscreen⟩ := h.calls c (List.mem_of_getElem? hc)
      refine ⟨⟨by rw [hcalls]; exact h.calls, ?_⟩, fun hs => ?_⟩
      · rw [hcalls, hanswers, List.forall_mem_append]
        exact ⟨h.answers, by simpa using (List.getElem?_eq_some_iff.mp hc).1⟩
      · unfold Agree at hs ⊢
        rw [hcalls, hanswers, List.forall_mem_append, and_iff_right hs]
        simp only [List.forall_mem_singleton, EquallyMisled, hc, Option.some.injEq, forall_eq',
          hscreen, load_publishes, load_language, load_friendLaguage, ← agree_iff_misled]
        exact (imp_iff_right hvideo).symm
  | deliver message =>
    obtain ⟨m, hm, hs'⟩ := Option.bind_eq_some_iff.mp hs'
    obtain ⟨hcalls, hanswers⟩ := arrive_same hs'
    exact hquiet hcalls hanswers
  | refuse message =>
    obtain ⟨m, hm, hs'⟩ := Option.bind_eq_some_iff.mp hs'
    cases m <;> cases hs'
    exact hquiet rfl rfl
  | ring call =>
    obtain ⟨c, hc, hs'⟩ := Option.bind_eq_some_iff.mp hs'
    obtain ⟨menu, hmenu, hs'⟩ := Option.bind_eq_some_iff.mp hs'
    obtain rfl := Option.some.inj hs'
    exact hquiet rfl rfl
  | didSelectRow side =>
    obtain ⟨chat, hchat, hs'⟩ := Option.bind_eq_some_iff.mp hs'
    obtain rfl := Option.some.inj hs'
    exact hquiet rfl rfl
  | _ =>
    obtain rfl := Option.some.inj hs'
    exact hquiet rfl rfl

theorem equallyMisled_of_trap (h : step E s e = none) : EquallyMisled s e := by
  cases e with
  | answer call =>
    intro c hc
    exfalso
    simp only [step, hc, Option.bind_eq_bind, Option.bind_some] at h
    split at h <;> cases h
  | _ => trivial

/-- Over any run, in every call both ends publish audio or neither does, if and only if at each
    answer the languages that the ends hold mislead both of them or neither. -/
theorem agree_iff (E : Ends) (run : Runs.Schedule (step E) Enabled (State.init E)) :
    Runs.Throughout (step E) Agree (State.init E) run.events ↔
      Runs.Along (step E) EquallyMisled (State.init E) run.events :=
  Runs.throughout_iff_along_trap (fun _ _ _ h _ hs' => step_agree h hs')
    (fun _ _ _ _ h => equallyMisled_of_trap h) init_inv (by simp [Agree, State.init]) run.enabled

instance (e : End) : Decidable e.Publishes := inferInstanceAs (Decidable (_ ≠ _))

instance (s : State) : Decidable (Agree s) :=
  inferInstanceAs (Decidable (∀ a ∈ s.answers, ∀ c ∈ s.calls[a.1]?,
    (c.screen.Publishes ↔ a.2.Publishes)))

/-! ## Languages that are up to date -/

/-- The language stored for the other user is that of the other device. -/
def State.current (E : Ends) (s : State) (side : Side) : Bool :=
  FriendEntity.getFriendLanguage (s.friends side) (E.conversation side).accountBId.toInt =
    some (s.language side.other)

/-- What is known of the languages that are held. -/
structure Notes where
  /-- The chat was opened with the friend's language up to date, which has not changed since. -/
  chats : Nat → Bool
  /-- The call was made from such a chat, and no device has changed its language since. -/
  calls : Nat → Bool
  /-- The last call that rang here found the caller's language up to date; it is the same since. -/
  rung : Side → Bool

def Notes.init : Notes := ⟨fun _ => false, fun _ => false, fun _ => false⟩

def note (E : Ends) (s : State) (n : Notes) : Event → Notes
  | .changeLanguage side _ =>
    -- what this side holds is about the other one
    { chats := fun i => n.chats i && s.chats[i]?.any (·.side = side)
      calls := fun _ => false
      rung := fun here => n.rung here && (here = side) }
  | .didSelectRow side =>
    { n with chats := Function.update n.chats s.chats.length (State.current E s side) }
  | .videoCall chat => { n with calls := Function.update n.calls s.calls.length (n.chats chat) }
  | .ring call =>
    s.calls[call]?.elim n fun c =>
      { n with rung := Function.update n.rung c.caller.other (State.current E s c.caller.other) }
  | _ => n

/-- An answer that opens the video screen finds what both ends hold to be up to date. -/
def UpToDate (p : State × Notes) : Event → Prop
  | .answer call => ∀ c ∈ p.1.calls[call]?, (p.1.menu c.caller.other).isVideo ≠ "" →
      p.2.calls call = true ∧ p.2.rung c.caller.other = true
  | _ => True

instance (p : State × Notes) (e : Event) : Decidable (UpToDate p e) := by
  cases e <;> unfold UpToDate <;> infer_instance

/-- What is noted is the case. -/
structure Noted (s : State) (n : Notes) : Prop where
  chats : ∀ i c, s.chats[i]? = some c → n.chats i = true →
    c.friendLanguage = s.language c.side.other
  calls : ∀ i c, s.calls[i]? = some c → n.calls i = true →
    c.screen.screen.language = s.language c.caller ∧
      c.screen.screen.friendLaguage = s.language c.caller.other
  rung : ∀ side, n.rung side = true → (s.menu side).isVideo ≠ "" →
    (s.menu side).currentFriendLanguage = s.language side.other

variable {n : Notes}

theorem init_noted : Noted (State.init E) Notes.init where
  chats := fun _ _ _ h => Bool.noConfusion h
  calls := fun _ _ _ h => Bool.noConfusion h
  rung := fun _ h => Bool.noConfusion h

/-- With what is up to date nobody is misled. -/
theorem equallyMisled_of_noted (h : Noted s n) (he : UpToDate (s, n) e) : EquallyMisled s e := by
  cases e with
  | answer call =>
    intro c hc menu caller answering hvideo
    obtain ⟨hcall, hrung⟩ := he c hc hvideo
    obtain ⟨hlanguage, hheld⟩ := h.calls call c hc hcall
    have hmenu : menu.currentFriendLanguage = caller.language := by
      rw [hlanguage, h.rung c.caller.other hrung hvideo, Side.other_other]
    rw [hmenu]
    exact iff_of_false (hheld ▸ not_misled _ _) (not_misled _ _)
  | _ => trivial

/-- The messages and the stores are not what the notes are about. -/
theorem noted_of_same (h : Noted s n) (hlanguage : s'.language = s.language)
    (hchats : s'.chats = s.chats) (hcalls : s'.calls = s.calls) (hmenu : s'.menu = s.menu) :
    Noted s' n where
  chats := by
    rw [hchats, hlanguage]
    exact h.chats
  calls := by
    rw [hcalls, hlanguage]
    exact h.calls
  rung := by
    rw [hmenu, hlanguage]
    exact h.rung

/-- A change leaves right what the side that changes holds of the other one. -/
theorem noted_changeLanguage (h : Noted s n) (side : Side) (language : String) :
    Noted { s with language := Function.update s.language side language }
      (note E s n (.changeLanguage side language)) where
  chats := by
    intro i c hc hnoted
    obtain ⟨hbefore, hside⟩ := Bool.and_eq_true_iff.mp hnoted
    have hc : s.chats[i]? = some c := hc
    rw [hc, Option.any_some, decide_eq_true_eq] at hside
    have hother : c.side.other ≠ side := hside ▸ c.side.other_ne
    show c.friendLanguage = Function.update s.language side language c.side.other
    rw [Function.update_of_ne hother]
    exact h.chats i c hc hbefore
  calls := fun _ _ _ hnoted => Bool.noConfusion hnoted
  rung := by
    intro here hnoted hvideo
    obtain ⟨hbefore, hside⟩ := Bool.and_eq_true_iff.mp hnoted
    rw [decide_eq_true_eq] at hside
    have hother : here.other ≠ side := hside ▸ here.other_ne
    show (s.menu here).currentFriendLanguage = Function.update s.language side language here.other
    rw [Function.update_of_ne hother]
    exact h.rung here hbefore hvideo

/-- An answer takes the flag of a video call down, or changes nothing. -/
theorem answerCall_flag (userId : Int32) (menu : MenuViewController) :
    (menu.answerCall userId).1.isVideo = "" ∨ (menu.answerCall userId).1 = menu := by
  unfold MenuViewController.answerCall MenuViewController.prepare
  split
  · exact .inl rfl
  · split
    · exact .inl rfl
    · exact .inr rfl

/-- A new element at the end, and a note about it. -/
theorem noted_concat {α : Type} {l : List α} {a : α} {noted : Nat → Bool} {new : Bool}
    {P : α → Prop} (h : ∀ i c, l[i]? = some c → noted i = true → P c) (hnew : new = true → P a) :
    ∀ i c, (l ++ [a])[i]? = some c → Function.update noted l.length new i = true → P c := by
  intro i c hc hnoted
  by_cases hi : i = l.length
  · subst hi
    rw [Function.update_self] at hnoted
    rw [List.getElem?_concat_length] at hc
    exact Option.some.inj hc ▸ hnew hnoted
  · rw [Function.update_of_ne hi] at hnoted
    rw [Swift.getElem?_concat_of_ne hi] at hc
    exact h i c hc hnoted

/-- One Menu changes, and what is noted of it. -/
theorem noted_menu (h : Noted s n) {side : Side} {menu : MenuViewController} {new : Bool}
    (hmenu : new = true → menu.isVideo ≠ "" → menu.currentFriendLanguage = s.language side.other) :
    ∀ here, Function.update n.rung side new here = true →
      (Function.update s.menu side menu here).isVideo ≠ "" →
        (Function.update s.menu side menu here).currentFriendLanguage = s.language here.other := by
  intro here hnoted hvideo
  by_cases hside : here = side
  · subst hside
    rw [Function.update_self] at hnoted hvideo ⊢
    exact hmenu hnoted hvideo
  · rw [Function.update_of_ne hside] at hnoted hvideo ⊢
    exact h.rung here hnoted hvideo

theorem arrive_rest {m : Message} (h : s.arrive m = some s') :
    s'.language = s.language ∧ s'.chats = s.chats ∧ s'.menu = s.menu := by
  cases m with
  | friends side friend =>
    obtain ⟨⟨friends, n⟩, -, h⟩ := Option.bind_eq_some_iff.mp h
    obtain rfl := Option.some.inj h
    exact ⟨rfl, rfl, rfl⟩
  | _ =>
    obtain rfl := Option.some.inj h
    exact ⟨rfl, rfl, rfl⟩

theorem step_noted (h : Noted s n) (hs' : step E s e = some s') : Noted s' (note E s n e) := by
  cases e with
  | changeLanguage side language =>
    obtain rfl := Option.some.inj hs'
    exact noted_changeLanguage h side language
  | updateLanguage side =>
    obtain rfl := Option.some.inj hs'
    exact noted_of_same h rfl rfl rfl rfl
  | lose message =>
    obtain rfl := Option.some.inj hs'
    exact noted_of_same h rfl rfl rfl rfl
  | refuse message =>
    obtain ⟨m, hm, hs'⟩ := Option.bind_eq_some_iff.mp hs'
    cases m <;> cases hs'
    exact noted_of_same h rfl rfl rfl rfl
  | deliver message =>
    obtain ⟨m, hm, hs'⟩ := Option.bind_eq_some_iff.mp hs'
    obtain ⟨hlanguage, hchats, hmenu⟩ := arrive_rest hs'
    exact noted_of_same h hlanguage hchats (arrive_same hs').1 hmenu
  | didSelectRow side =>
    obtain ⟨⟨name, language⟩, hchat, hs'⟩ := Option.bind_eq_some_iff.mp hs'
    obtain rfl := Option.some.inj hs'
    refine ⟨noted_concat (P := fun c : Chat => c.friendLanguage = s.language c.side.other) h.chats
      fun hcurrent => ?_, h.calls, h.rung⟩
    obtain ⟨_, -, hchat⟩ := Option.bind_eq_some_iff.mp hchat
    obtain ⟨language', hlanguage, hchat⟩ := Option.bind_eq_some_iff.mp hchat
    obtain ⟨-, rfl⟩ := Prod.mk.inj (Option.some.inj hchat)
    exact Option.some.inj (hlanguage.symm.trans (of_decide_eq_true hcurrent))
  | videoCall chat =>
    obtain ⟨c, hc, hs'⟩ := Option.bind_eq_some_iff.mp hs'
    obtain rfl := Option.some.inj hs'
    refine ⟨h.chats, noted_concat (P := fun c : Call => c.screen.screen.language = s.language c.caller ∧
      c.screen.screen.friendLaguage = s.language c.caller.other) h.calls fun hnoted => ?_, h.rung⟩
    rw [load_language, load_friendLaguage]
    exact ⟨rfl, h.chats chat c hc hnoted⟩
  | ring call =>
    obtain ⟨c, hc, hs'⟩ := Option.bind_eq_some_iff.mp hs'
    obtain ⟨menu, hmenu, hs'⟩ := Option.bind_eq_some_iff.mp hs'
    obtain rfl := Option.some.inj hs'
    simp only [note, hc, Option.elim_some]
    refine ⟨h.chats, h.calls, noted_menu h fun hcurrent _ => ?_⟩
    obtain ⟨name, -, hmenu⟩ := Option.bind_eq_some_iff.mp hmenu
    obtain ⟨language, hlanguage, hmenu⟩ := Option.bind_eq_some_iff.mp hmenu
    obtain rfl := Option.some.inj hmenu
    exact Option.some.inj (hlanguage.symm.trans (of_decide_eq_true hcurrent))
  | answer call =>
    obtain ⟨c, hc, hs'⟩ := Option.bind_eq_some_iff.mp hs'
    let menu := (s.menu c.caller.other).answerCall (E.user c.caller.other).id
    -- an answer takes the flag of a video call down, or leaves the Menu as it is
    have hmenu : n.rung c.caller.other = true → menu.1.isVideo ≠ "" →
        menu.1.currentFriendLanguage = s.language c.caller.other.other := by
      intro hnoted hvideo
      rcases answerCall_flag (E.user c.caller.other).id (s.menu c.caller.other) with hflag | hsame
      · exact absurd hflag hvideo
      · simp only [menu, hsame] at hvideo ⊢
        exact h.rung _ hnoted hvideo
    have hrung := noted_menu h hmenu
    rw [Function.update_eq_self] at hrung
    dsimp only at hs'
    split at hs' <;> obtain rfl := Option.some.inj hs' <;> exact ⟨h.chats, h.calls, hrung⟩

/-- In a run in which every call that is answered was made, and rang, with the languages held up to
    date, and no change has come between, both ends of each call publish audio or neither does. -/
theorem agree_of_upToDate (E : Ends) (run : Runs.Schedule (step E) Enabled (State.init E))
    (h : Runs.Along (Runs.observe (step E) (note E)) UpToDate (State.init E, Notes.init) run.events) :
    Runs.Throughout (step E) Agree (State.init E) run.events := by
  refine Runs.throughout_observe.mp (Runs.throughout_ok
    (I := fun p => Inv p.1 ∧ Noted p.1 p.2 ∧ Agree p.1) (C := UpToDate) ?_ (fun p h => h.2.2) ?_ h)
  · intro p e hI he p' hp'
    obtain ⟨hinv, hnoted, hagree⟩ := hI
    obtain ⟨s', hs', rfl⟩ := Option.map_eq_some_iff.mp hp'
    obtain ⟨hinv', hiff⟩ := step_agree hinv hs'
    exact ⟨hinv', step_noted hnoted hs', (hiff hagree).mpr (equallyMisled_of_noted hnoted he)⟩
  · exact ⟨init_inv, init_noted, by simp [Agree, State.init]⟩

/-- Users 2 and 3, whose devices are set to English and whose stores say so. -/
def twoEnglish : Ends where
  user
    | .own => ⟨2, "+2", "en", true, true, true⟩
    | .friend => ⟨3, "+3", "en", true, true, true⟩
  conversation
    | .own => ⟨3, some "bo"⟩
    | .friend => ⟨2, some "ann"⟩
  account
    | .own => ⟨2, "2.jpg", "ann", "+2", "en"⟩
    | .friend => ⟨3, "3.jpg", "bo", "+3", "en"⟩
  friends
    | .own => [⟨3, some "3.jpg", some "bo", some "+3", some "en"⟩]
    | .friend => [⟨2, some "2.jpg", some "ann", some "+2", some "en"⟩]
  language _ := "en"
  accountBId side := by cases side <;> rfl
  account_id side := by cases side <;> decide

/-- The friend's device is set to German, which reaches the server; then the conversation is opened
    and the friend is called, who answers. -/
def changedBefore : List Event :=
  [.changeLanguage .friend "de", .updateLanguage .friend, .deliver 0, .didSelectRow .own,
   .videoCall 0, .ring 0, .answer 0]

/-- The caller publishes audio for a friend who, at the other end, does not. -/
theorem changedBefore_disagree :
    Runs.Along (step twoEnglish) Enabled (State.init twoEnglish) changedBefore ∧
      (∃ s, Runs.exec (step twoEnglish) (State.init twoEnglish) changedBefore = some s ∧
        s.calls.map (·.screen.options.audioTracks) = [["Microphone"]] ∧
        s.answers.map (·.2.options.audioTracks) = [[]]) ∧
      ¬ Runs.Throughout (step twoEnglish) Agree (State.init twoEnglish) changedBefore := by
  have hrun : ∃ s, Runs.exec (step twoEnglish) (State.init twoEnglish) changedBefore = some s ∧
      (s.calls.map (·.screen.options.audioTracks) = [["Microphone"]] ∧
        s.answers.map (·.2.options.audioTracks) = [[]]) ∧ ¬ Agree s := by
    exact ⟨_, rfl, ⟨by decide, by decide⟩, by decide⟩
  obtain ⟨s, hs, hends, hagree⟩ := hrun
  exact ⟨by decide, ⟨s, hs, hends⟩, fun h => hagree (Runs.throughout_last h hs)⟩

/-- The friend's device is set to German, which reaches the server; the conversation is opened, and
    opened again when the refresh has come; then the friend is called, who answers. -/
def openedAgain : List Event :=
  [.changeLanguage .friend "de", .updateLanguage .friend, .deliver 0, .didSelectRow .own, .deliver 1,
   .deliver 1, .deliver 1, .deliver 1, .didSelectRow .own, .videoCall 1, .ring 0, .answer 0]

/-- Neither end publishes audio then. -/
theorem openedAgain_agree :
    (∃ s, Runs.exec (step twoEnglish) (State.init twoEnglish) openedAgain = some s ∧
      s.calls.map (·.screen.options.audioTracks) = [[]] ∧
      s.answers.map (·.2.options.audioTracks) = [[]]) ∧
    Runs.Throughout (step twoEnglish) Agree (State.init twoEnglish) openedAgain :=
  ⟨⟨_, rfl, by decide, by decide⟩, agree_of_upToDate twoEnglish ⟨openedAgain, by decide⟩ (by decide)⟩

/-! ## Devices whose languages stay -/

/-- What a message says of a language is the case. -/
def Message.Current (language : Side → String) : Message → Prop
  | put side value => value = language side
  | friends side friend => friend.language = language side.other
  | _ => True

/-- Everything that anyone holds of a device's language is that language. -/
structure Settled (E : Ends) (s : State) : Prop where
  account : ∀ side, (s.account side).language = s.language side
  friends : ∀ side language, FriendEntity.getFriendLanguage (s.friends side)
    (E.conversation side).accountBId.toInt = some language → language = s.language side.other
  messages : ∀ m ∈ s.messages, m.Current s.language
  chats : ∀ c ∈ s.chats, c.friendLanguage = s.language c.side.other
  calls : ∀ c ∈ s.calls, c.screen.screen.language = s.language c.caller ∧
    c.screen.screen.friendLaguage = s.language c.caller.other
  menu : ∀ side, (s.menu side).isVideo ≠ "" →
    (s.menu side).currentFriendLanguage = s.language side.other

theorem equallyMisled_of_settled (h : Settled E s) (e : Event) : EquallyMisled s e := by
  cases e with
  | answer call =>
    intro c hc menu caller answering hvideo
    obtain ⟨hlanguage, hheld⟩ := h.calls c (List.mem_of_getElem? hc)
    have hmenu : menu.currentFriendLanguage = caller.language := by
      rw [hlanguage, h.menu c.caller.other hvideo, Side.other_other]
    rw [hmenu]
    exact iff_of_false (hheld ▸ not_misled _ _) (not_misled _ _)
  | _ => trivial

/-- A refresh leaves the languages that were stored, and that of the response. -/
theorem refresh_language {store store' : List Friend} {friend : FriendModel} {n : Nat} {id : Int}
    {language : String}
    (h : FriendDataManager.updateLanguageFriends store
      ⟨some 200, some (.array [FriendSync.object friend])⟩ = some (store', n))
    (hlanguage : FriendEntity.getFriendLanguage store' id = some language) :
    language = friend.language ∨ FriendEntity.getFriendLanguage store id = some language := by
  obtain ⟨stored, hstored, h⟩ := Option.bind_eq_some_iff.mp h
  obtain ⟨rfl, -⟩ := Prod.mk.inj (Option.some.inj h)
  obtain ⟨stored', hitem, hstored⟩ := Option.bind_eq_some_iff.mp hstored
  obtain rfl := Option.some.inj hstored
  -- the item has its language, and the id it is looked up by
  obtain ⟨id', -, hitem⟩ := Option.bind_eq_some_iff.mp hitem
  exact getFriendLanguage_updateFriend hitem hlanguage

theorem settled_arrive {m : Message} (h : Settled E s) (hm : m.Current s.language)
    (hs' : s.arrive m = some s') : Settled E s' := by
  cases m with
  | put side language =>
    obtain rfl := Option.some.inj hs'
    refine ⟨fun side' => ?_, h.friends, ?_, h.chats, h.calls, h.menu⟩
    · by_cases hside : side' = side
      · subst hside
        have hlanguage : language = s.language side' := hm
        simpa using hlanguage
      · simpa [hside] using h.account side'
    · exact List.forall_mem_append.mpr ⟨h.messages, by simp [Message.Current]⟩
  | updated side =>
    obtain rfl := Option.some.inj hs'
    exact ⟨h.account, h.friends, List.forall_mem_append.mpr ⟨h.messages, by simp [Message.Current]⟩,
      h.chats, h.calls, h.menu⟩
  | get side =>
    obtain rfl := Option.some.inj hs'
    refine ⟨h.account, h.friends, List.forall_mem_append.mpr ⟨h.messages, ?_⟩, h.chats, h.calls,
      h.menu⟩
    simpa [Message.Current] using h.account side.other
  | friends side friend =>
    obtain ⟨⟨friends, n⟩, hfriends, hs'⟩ := Option.bind_eq_some_iff.mp hs'
    obtain rfl := Option.some.inj hs'
    refine ⟨h.account, fun side' language hlanguage => ?_, h.messages, h.chats, h.calls, h.menu⟩
    by_cases hside : side' = side
    · subst hside
      simp only [Function.update_self] at hlanguage
      rcases refresh_language hfriends hlanguage with hnew | hold
      · exact hnew.trans hm
      · exact h.friends side' language hold
    · simp only [Function.update_of_ne hside] at hlanguage
      exact h.friends side' language hlanguage

/-- One Menu changes, and holds the right language if it holds a video call. -/
theorem settled_menu (h : Settled E s) {side : Side} {menu : MenuViewController}
    (hmenu : menu.isVideo ≠ "" → menu.currentFriendLanguage = s.language side.other) (side' : Side)
    (hvideo : (Function.update s.menu side menu side').isVideo ≠ "") :
    (Function.update s.menu side menu side').currentFriendLanguage = s.language side'.other := by
  by_cases hside : side' = side
  · subst hside
    rw [Function.update_self] at hvideo ⊢
    exact hmenu hvideo
  · rw [Function.update_of_ne hside] at hvideo ⊢
    exact h.menu side' hvideo

/-- Without a change of a language, what is held of the languages stays right. -/
theorem settled_step (h : Settled E s) (he : ∀ side language, e ≠ .changeLanguage side language)
    (hs' : step E s e = some s') : Settled E s' := by
  have hless : ∀ message, ∀ m ∈ s.messages.eraseIdx message, m.Current s.language :=
    fun message m hm => h.messages m (List.mem_of_mem_eraseIdx hm)
  have hput : ∀ side, ∀ m ∈ s.messages ++ [.put side (s.language side)], m.Current s.language :=
    fun side => List.forall_mem_append.mpr ⟨h.messages, by simp [Message.Current]⟩
  cases e with
  | changeLanguage side language => exact absurd rfl (he side language)
  | updateLanguage side =>
    obtain rfl := Option.some.inj hs'
    exact ⟨h.account, h.friends, hput side, h.chats, h.calls, h.menu⟩
  | didSelectRow side =>
    obtain ⟨⟨name, language⟩, hchat, hs'⟩ := Option.bind_eq_some_iff.mp hs'
    obtain rfl := Option.some.inj hs'
    refine ⟨h.account, h.friends, hput side, List.forall_mem_append.mpr ⟨h.chats, ?_⟩, h.calls, h.menu⟩
    obtain ⟨_, -, hchat⟩ := Option.bind_eq_some_iff.mp hchat
    obtain ⟨language', hlanguage, hchat⟩ := Option.bind_eq_some_iff.mp hchat
    obtain ⟨-, rfl⟩ := Prod.mk.inj (Option.some.inj hchat)
    exact List.forall_mem_singleton.mpr (h.friends side _ hlanguage)
  | deliver message =>
    obtain ⟨m, hm, hs'⟩ := Option.bind_eq_some_iff.mp hs'
    have hrest : Settled E { s with messages := s.messages.eraseIdx message } :=
      ⟨h.account, h.friends, hless message, h.chats, h.calls, h.menu⟩
    exact settled_arrive hrest (h.messages m (List.mem_of_getElem? hm)) hs'
  | refuse message =>
    obtain ⟨m, hm, hs'⟩ := Option.bind_eq_some_iff.mp hs'
    cases m <;> cases hs'
    exact ⟨h.account, h.friends,
      List.forall_mem_append.mpr ⟨hless message, by simp [Message.Current]⟩, h.chats, h.calls, h.menu⟩
  | lose message =>
    obtain rfl := Option.some.inj hs'
    exact ⟨h.account, h.friends, hless message, h.chats, h.calls, h.menu⟩
  | videoCall chat =>
    obtain ⟨c, hc, hs'⟩ := Option.bind_eq_some_iff.mp hs'
    obtain rfl := Option.some.inj hs'
    refine ⟨h.account, h.friends, h.messages, h.chats, List.forall_mem_append.mpr ⟨h.calls, ?_⟩, h.menu⟩
    simpa using h.chats c (List.mem_of_getElem? hc)
  | ring call =>
    obtain ⟨c, hc, hs'⟩ := Option.bind_eq_some_iff.mp hs'
    obtain ⟨menu, hmenu, hs'⟩ := Option.bind_eq_some_iff.mp hs'
    obtain rfl := Option.some.inj hs'
    refine ⟨h.account, h.friends, h.messages, h.chats, h.calls, settled_menu h fun _ => ?_⟩
    obtain ⟨name, -, hmenu⟩ := Option.bind_eq_some_iff.mp hmenu
    obtain ⟨language, hlanguage, hmenu⟩ := Option.bind_eq_some_iff.mp hmenu
    obtain rfl := Option.some.inj hmenu
    exact h.friends _ language hlanguage
  | answer call =>
    obtain ⟨c, hc, hs'⟩ := Option.bind_eq_some_iff.mp hs'
    let menu := (s.menu c.caller.other).answerCall (E.user c.caller.other).id
    have hmenu : menu.1.isVideo ≠ "" →
        menu.1.currentFriendLanguage = s.language c.caller.other.other := by
      intro hvideo
      rcases answerCall_flag (E.user c.caller.other).id (s.menu c.caller.other) with hflag | hsame
      · exact absurd hflag hvideo
      · simp only [menu, hsame] at hvideo ⊢
        exact h.menu _ hvideo
    dsimp only at hs'
    split at hs' <;> obtain rfl := Option.some.inj hs' <;>
      exact ⟨h.account, h.friends, h.messages, h.chats, h.calls, settled_menu h hmenu⟩

/-- Where everything is right at the start and no device changes its language, the ends of every
    call agree. -/
theorem settled_agree (h : Settled E (State.init E)) {events : List Event}
    (hkept : ∀ e ∈ events, ∀ side language, e ≠ .changeLanguage side language) :
    Runs.Throughout (step E) Agree (State.init E) events := by
  have hinit : Inv (State.init E) ∧ Settled E (State.init E) ∧ Agree (State.init E) :=
    ⟨init_inv, h, by simp [Agree, State.init]⟩
  refine Runs.throughout_ok (I := fun s => Inv s ∧ Settled E s ∧ Agree s) ?_ (fun s h => h.2.2)
    hinit (Runs.along_of_forall hkept _)
  rintro s e ⟨hinv, hsettled, hagree⟩ he s' hs'
  obtain ⟨hinv', hiff⟩ := step_agree hinv hs'
  exact ⟨hinv', settled_step hsettled he hs', (hiff hagree).mpr (equallyMisled_of_settled hsettled e)⟩

end Shiftgram.LiveAudio
