import Shiftgram.MenuCalls

/- The fields of one Menu, whatever is written to the notification nodes and whoever writes it. The
   closures, the answer handler and `prepare(for:sender:)` share them: a closure fills them in, an
   answer hands them to a screen and clears them, a decline leaves them.

   `pending_run`: at all times a mark is set exactly while a name is, and the name is that of one of
   the conversations; so an answer opens a screen of a conversation, removes the notification node of
   that conversation and no other, and leaves nothing marked, or it does nothing.

   Assumed: `performSegue` calls `prepare(for:sender:)` before it returns, and the handlers run one
   after the other. -/
namespace Shiftgram

namespace MenuViewController

/-- The names that `initConversations` and `initAudioConversation` compute for their closures. -/
def observed (userId : Int32) (conversations : List Conversation) :
    Option (List (Conversation × String)) :=
  conversations.mapM fun conversation =>
    (conversationName userId conversation.accountBId).map (conversation, ·)

/-- What the closure of the kind sets in its own way. -/
def mark (conversation : Conversation) : CallKind → MenuViewController → Option MenuViewController
  | .video, menu => some { menu with isVideo := "video" }
  | .audio, menu =>
    conversation.name.map fun name => { menu with currentName := name, isAudio := "audio" }

/-- The closure of the kind on a record; `friends` are those stored when it runs. -/
def report (userId : Int32) (friends : List Friend) (kind : CallKind) (conversation : Conversation)
    (conversationName : String) (menu : MenuViewController) (data : Swift.Dictionary) :
    Option (MenuViewController × Option String) :=
  if incoming userId kind data then do
    let friendLanguage ← FriendEntity.getFriendLanguage friends conversation.accountBId.toInt
    let menu ← mark conversation kind { menu with
      currentConversationName := conversationName
      currentFriendLanguage := friendLanguage }
    let name ← data.value "name"
    some (menu, some name)
  else some (menu, none)

/-- For the store of an account these are the two closures of the Menu. -/
theorem report_video (a : Account) (c : Conversation) :
    report a.userId a.friends .video c = initConversations a c := rfl

theorem report_audio (a : Account) (c : Conversation) :
    report a.userId a.friends .audio c = initAudioConversation a c := rfl

end MenuViewController

namespace PendingCall

/-- A Menu that has been loaded, which it only is where all names can be computed. -/
structure Loaded where
  userId : Int32
  conversations : List Conversation
  observed : List (Conversation × String)
  loads : MenuViewController.observed userId conversations = some observed

inductive Event
  /-- A child of the notification node of a conversation reaches a closure. -/
  | childAdded (kind : CallKind) (conversation : Conversation) (conversationName : String)
      (friends : List Friend) (data : Swift.Dictionary)
  | answer
  | decline
  deriving DecidableEq

variable (m : Loaded)

def step (menu : MenuViewController) : Event → Option MenuViewController
  | .childAdded kind conversation conversationName friends data =>
    (menu.report m.userId friends kind conversation conversationName data).map Prod.fst
  | .answer => some (menu.answerCall m.userId).1
  | .decline => some menu

/-- The closures are those of the conversations. -/
def Enabled (_ : MenuViewController) : Event → Prop
  | .childAdded _ conversation conversationName _ _ => (conversation, conversationName) ∈ m.observed
  | .answer | .decline => True

instance (menu : MenuViewController) (e : Event) : Decidable (Enabled m menu e) := by
  cases e <;> unfold Enabled <;> infer_instance

/-- The name is that of one of the conversations. -/
def Loaded.Names (name : String) : Prop :=
  ∃ c ∈ m.conversations, MenuViewController.conversationName m.userId c.accountBId = some name

/-- A mark is set exactly while a name is, and the name is that of a conversation. -/
structure Consistent (menu : MenuViewController) : Prop where
  marked : menu.isVideo ≠ "" ∨ menu.isAudio ≠ "" ↔ menu.currentConversationName ≠ ""
  named : menu.currentConversationName ≠ "" → m.Names menu.currentConversationName

/-- No call is pending. -/
structure Clear (menu : MenuViewController) : Prop where
  isVideo : menu.isVideo = ""
  isAudio : menu.isAudio = ""
  currentConversationName : menu.currentConversationName = ""

/-- An answer opens the screen of a conversation with a name that parses, removes its notification
    node and no other node, and clears the fields. -/
structure Opens (menu' : MenuViewController) (screen : CallScreen) (writes : List Write) : Prop where
  named : m.Names screen.conversationName
  parses : ∃ n, Swift.int screen.conversationName = some n
  removes : ∀ removed, Write.removeValue removed ∈ writes ↔
    removed = node screen.conversationName .notification
  clear : Clear menu'

/-- What an answer does: nothing where nothing is pending, and else it opens a screen. -/
structure Answers (menu : MenuViewController) : Prop where
  idle : menu.currentConversationName = "" → menu.answerCall m.userId = (menu, none, [])
  opens : menu.currentConversationName ≠ "" → ∃ menu' screen writes,
    menu.answerCall m.userId = (menu', some screen, writes) ∧
      screen.conversationName = menu.currentConversationName ∧ Opens m menu' screen writes

variable {m}

theorem names_of_observed {c : Conversation} {name : String} (h : (c, name) ∈ m.observed) :
    m.Names name := by
  have hall : ∀ {conversations : List Conversation} {observed : List (Conversation × String)},
      MenuViewController.observed m.userId conversations = some observed → (c, name) ∈ observed →
        c ∈ conversations ∧ MenuViewController.conversationName m.userId c.accountBId = some name := by
    intro conversations
    induction conversations with
    | nil =>
      intro observed hload hmem
      obtain rfl := Option.some.inj hload
      exact absurd hmem List.not_mem_nil
    | cons conversation conversations ih =>
      intro observed hload hmem
      simp only [MenuViewController.observed, List.mapM_cons, Option.pure_def, Option.bind_eq_bind,
        Option.bind_eq_some_iff, Option.map_eq_some_iff, Option.some.injEq] at hload
      obtain ⟨_, ⟨name', hname', rfl⟩, rest, hrest, rfl⟩ := hload
      rcases List.mem_cons.mp hmem with hfirst | hmem
      · obtain ⟨rfl, rfl⟩ := Prod.mk.inj hfirst
        exact ⟨List.mem_cons_self, hname'⟩
      · obtain ⟨hc, hname⟩ := ih hrest hmem
        exact ⟨List.mem_cons_of_mem _ hc, hname⟩
  exact ⟨c, hall m.loads h⟩

/-- A name is the decimal product of two ids. -/
theorem string_of_names {name : String} (h : m.Names name) :
    ∃ product : Int32, name = Swift.string product := by
  obtain ⟨c, -, hname⟩ := h
  obtain ⟨product, -, rfl⟩ := Option.map_eq_some_iff.mp hname
  exact ⟨product, rfl⟩

theorem ne_empty_of_names {name : String} (h : m.Names name) : name ≠ "" := by
  obtain ⟨product, rfl⟩ := string_of_names h
  exact Swift.string_ne_empty product

theorem parses_of_names {name : String} (h : m.Names name) : ∃ n, Swift.int name = some n := by
  obtain ⟨product, rfl⟩ := string_of_names h
  exact ⟨product.toInt, Swift.int_string product⟩

theorem consistent_of_clear {menu : MenuViewController} (h : Clear menu) : Consistent m menu where
  marked := by simp [h.isVideo, h.isAudio, h.currentConversationName]
  named := fun hne => absurd h.currentConversationName hne

/-- A closure leaves the fields, or fills in its conversation and sets a mark. -/
theorem report_spec {menu menu' : MenuViewController} {friends : List Friend} {kind : CallKind}
    {c : Conversation} {name : String} {data : Swift.Dictionary} {handle : Option String}
    (h : menu.report m.userId friends kind c name data = some (menu', handle)) :
    menu' = menu ∨
      (menu'.currentConversationName = name ∧ (menu'.isVideo ≠ "" ∨ menu'.isAudio ≠ "")) := by
  unfold MenuViewController.report at h
  split at h
  · obtain ⟨language, -, h⟩ := Option.bind_eq_some_iff.mp h
    obtain ⟨marked, hmark, h⟩ := Option.bind_eq_some_iff.mp h
    obtain ⟨title, -, h⟩ := Option.bind_eq_some_iff.mp h
    obtain ⟨rfl, -⟩ := Prod.mk.inj (Option.some.inj h)
    right
    cases kind with
    | video =>
      obtain rfl := Option.some.inj hmark
      exact ⟨rfl, .inl (by simp)⟩
    | audio =>
      obtain ⟨friend, -, rfl⟩ := Option.map_eq_some_iff.mp hmark
      exact ⟨rfl, .inr (by simp)⟩
  · exact .inl (Prod.mk.inj (Option.some.inj h)).1.symm

/-- The two ways to say that a mark is set. -/
theorem marked_iff {menu : MenuViewController} :
    (menu.isVideo.isEmpty = false ∨ menu.isAudio.isEmpty = false) ↔
      (menu.isVideo ≠ "" ∨ menu.isAudio ≠ "") := by
  simp

theorem answers_of_consistent {menu : MenuViewController} (h : Consistent m menu) : Answers m menu where
  idle := by
    intro hempty
    refine Calls.answerCall_idle m.userId fun hmarked => ?_
    exact h.marked.mp (marked_iff.mp hmarked) hempty
  opens := by
    intro hne
    obtain ⟨menu', screen, writes, hanswer, ⟨hvideo, haudio, hcleared⟩, hremoves, hname, -⟩ :=
      Calls.answerCall_opens m.userId (marked_iff.mpr (h.marked.mpr hne))
    have hnamed := h.named hne
    rw [← hname] at hnamed hremoves
    exact ⟨menu', screen, writes, hanswer, hname, hnamed, parses_of_names hnamed, hremoves,
      hvideo, haudio, hcleared⟩

theorem consistent_step {menu menu' : MenuViewController} {e : Event} (h : Consistent m menu)
    (he : Enabled m menu e) (hstep : step m menu e = some menu') : Consistent m menu' := by
  cases e with
  | childAdded kind c name friends data =>
    obtain ⟨⟨menu', handle⟩, hreport, rfl⟩ := Option.map_eq_some_iff.mp hstep
    have hnames := names_of_observed he
    rcases report_spec hreport with rfl | ⟨hname, hmarked⟩
    · exact h
    · refine ⟨iff_of_true hmarked ?_, fun _ => hname ▸ hnames⟩
      rw [hname]
      exact ne_empty_of_names hnames
  | answer =>
    obtain rfl := Option.some.inj hstep
    by_cases hempty : menu.currentConversationName = ""
    · rw [(answers_of_consistent h).idle hempty]
      exact h
    · obtain ⟨menu', screen, writes, hanswer, -, hopens⟩ := (answers_of_consistent h).opens hempty
      rw [hanswer]
      exact consistent_of_clear hopens.clear
  | decline =>
    obtain rfl := Option.some.inj hstep
    exact h

/-- In every run of the closures, answers and declines of a Menu, on any records of any senders: the
    fields are consistent at all times, and so every answer does as it should. -/
theorem pending_run (m : Loaded)
    (run : Runs.Schedule (step m) (Enabled m) MenuViewController.init) :
    Runs.Throughout (step m) (fun menu => Consistent m menu ∧ Answers m menu)
      MenuViewController.init run.events :=
  Runs.throughout_ok (I := Consistent m) (fun _ _ h he _ hs' => consistent_step h he hs')
    (fun _ h => ⟨h, answers_of_consistent h⟩) (consistent_of_clear ⟨rfl, rfl, rfl⟩) run.enabled

/-- The Menu of user 2 with conversations with users 3 and 5. -/
def twoConversations : Loaded where
  userId := 2
  conversations := [⟨3, some "bo"⟩, ⟨5, some "cy"⟩]
  observed := [(⟨3, some "bo"⟩, "6"), (⟨5, some "cy"⟩, "10")]
  loads := by decide

/-- A video call is pending when an audio call of the other conversation comes, which is answered;
    then there is nothing to answer. -/
def overtaken : List Event :=
  let friends : List Friend := [⟨3, none, none, none, some "en"⟩, ⟨5, none, none, none, some "fr"⟩]
  [.childAdded .video ⟨3, some "bo"⟩ "6" friends
      [("sender_id", "3"), ("name", "bo"), ("videoCall", "true")], .decline,
   .childAdded .audio ⟨5, some "cy"⟩ "10" friends
      [("sender_id", "5"), ("name", "cy"), ("audioCall", "true")], .answer, .answer]

theorem pending_overtaken :
    (Runs.exec (step twoConversations) MenuViewController.init (overtaken.take 3)).map
        (fun menu => (menu.currentConversationName, menu.isVideo, menu.isAudio)) =
      some ("10", "video", "audio") ∧
    Runs.Throughout (step twoConversations)
      (fun menu => Consistent twoConversations menu ∧ Answers twoConversations menu)
      MenuViewController.init overtaken :=
  ⟨by decide, pending_run twoConversations ⟨overtaken, by decide⟩⟩

end PendingCall

end Shiftgram
