import Shiftgram.LocalStore

/- The app from its first launch on: registration, the Menu with its tabs, and the stores they share.

   Registering uploads a picture; the upload's completion sends the account to the server and, without
   waiting for the answer, opens the Menu. The answer inserts the User record whenever it comes.
   Controllers copy the user's id when they are constructed (`Screen`), and the Menu also the
   conversations it registers observers for; the Menu's tabs are constructed with it.

   A trap ends the process (`ended`); what was saved stays. The state also records what the tabs, the
   requests and the divisions found, and how many accounts were stored when something was constructed.

   Assumed: saves and fetches succeed, callbacks are atomic and come at most once. The contents of
   the forms, alerts and the settings tab's picture do not enter. -/
namespace Shiftgram

/-- `tableView(_:didSelectRowAt:)` of the conversation tab: the name and the language for the chat. -/
def ConversationViewController.didSelectRow (users : List User) (friends : List Friend)
    (conversation : Conversation) : Option (String × String) := do
  let conversationName ← ConversationViewController.conversationName (UserEntity.getUserId users)
    conversation.accountBId
  let friendLanguage ← FriendEntity.getFriendLanguage friends conversation.accountBId.toInt
  some (conversationName, friendLanguage)

namespace App

/-- What every controller copies. -/
structure Screen where
  /-- `UserEntity().getUserId()`, also of the controller's `FriendDataManager`s. -/
  userId : Int32
  /-- How many accounts had been stored by then. -/
  since : Nat
  deriving DecidableEq, Repr

/-- An observer of the notification node of a conversation. -/
structure Observer where
  kind : CallKind
  conversation : Conversation
  conversationName : String
  deriving DecidableEq, Repr

/-- A Menu, which shares its user with its tabs. -/
structure Menu extends Screen where
  observers : List Observer
  deriving DecidableEq, Repr

/-- The loop over the Menu's conversations, for calls of the kind. -/
def observe (userId : Int32) (conversations : List Conversation) (kind : CallKind) :
    Option (List Observer) :=
  conversations.mapM fun conversation =>
    (MenuViewController.conversationName userId conversation.accountBId).map fun conversationName =>
      ⟨kind, conversation, conversationName⟩

/-- A Menu constructed and loaded. -/
def Menu.init (screen : Screen) (conversations : List Conversation) : Option Menu := do
  let video ← observe screen.userId conversations .video
  let audio ← observe screen.userId conversations .audio
  some ⟨screen, video ++ audio⟩

/-- A request for the friends of an account. -/
structure Request where
  /-- The id in its URL. -/
  userId : Int32
  /-- The id of the User record when it was sent. -/
  stored : Option Int32
  deriving DecidableEq, Repr

structure State where
  running : Bool
  users : List User
  store : LocalStore.State
  /-- The phone numbers of the accounts whose picture is being uploaded. -/
  uploads : List String
  /-- The phone numbers of the accounts sent to the server. -/
  posts : List String
  menus : List Menu
  /-- The chats and call screens of the process. -/
  screens : List Screen
  /-- The contact lists that wait for a sync. -/
  syncs : List Nat
  /-- How many accounts have been stored. -/
  accounts : Nat
  /-- The conversations created since a Menu was last constructed. -/
  created : List Conversation
  /-- How many User records each handler of a tab found. -/
  handled : List Nat
  /-- The updates of a User record that did not find one. -/
  missing : Nat
  /-- The user ids that friend ids were computed with. -/
  divisors : List Int32
  requests : List Request

def State.init : State := ⟨false, [], .init, [], [], [], [], [], 0, [], [], 0, [], []⟩

/-- The process ends; requests and controllers are gone. -/
def State.ended (s : State) : State :=
  { s with
    running := false
    store := { s.store with lists := [] }
    uploads := []
    posts := []
    menus := []
    screens := []
    syncs := []
    created := [] }

/-- A controller constructed now. -/
def State.screen (s : State) : Screen := ⟨UserEntity.getUserId s.users, s.accounts⟩

/-- A new Menu; it traps where a conversation's name overflows. -/
def State.openMenu (s : State) : State :=
  match Menu.init s.screen s.store.conversations with
  | some menu => { s with menus := s.menus ++ [menu], created := [] }
  | none => s.ended

/-- A request of `fetchFriends` or `updateLanguageFriends`. -/
def State.send (s : State) (screen : Screen) : State :=
  { s with requests := s.requests ++ [⟨screen.userId, s.users.head?.map (·.id)⟩] }

inductive Tab
  | contacts | conversations | settings
  deriving DecidableEq, Repr

/-- The handlers of the Menu's tabs. -/
inductive Handler
  | viewDidLoad (tab : Tab)
  /-- The contact tab of a Menu, with its list. -/
  | btnSyncPressed (menu list : Nat)
  | didSelectContact (list row : Nat)
  /-- The conversation tab reloads its rows. -/
  | btnsyncPressed
  | didSelectConversation (conversation : Conversation)
  | btnLanguagePressed
  deriving DecidableEq, Repr

def State.handle (s : State) : Handler → Option State
  | .viewDidLoad .contacts =>
    (LocalStore.step s.store .contacts).map fun store => { s with store }
  | .viewDidLoad .conversations | .viewDidLoad .settings => some s
  | .btnSyncPressed menu list =>
    s.menus[menu]?.map fun m =>
      match UserEntity.updateUser s.users fun user => { user with isSync := true } with
      | some users => State.send { s with users, syncs := s.syncs ++ [list] } m.toScreen
      | none => { s.ended with missing := s.missing + 1 }
  | .didSelectContact list row =>
    (LocalStore.step s.store (.selected list row)).map fun store =>
      { s with
        store
        created := s.created ++ store.conversations.drop s.store.conversations.length }
  | .btnsyncPressed => some s
  | .didSelectConversation conversation =>
    match ConversationViewController.didSelectRow s.users s.store.friends conversation with
    | some _ => some { s with screens := s.screens ++ [s.screen] }
    | none => some s.ended
  | .btnLanguagePressed => some s

/-- The response to a sync of a contact list. -/
def State.synced (s : State) (k : Nat) (response : DataResponse) : Option State := do
  let list ← s.syncs[k]?
  let store ← LocalStore.synced s.store list response
  let merged : State := { s with store, syncs := s.syncs.eraseIdx k }
  if (FriendDataManager.fetchFriends s.store.friends response).isNone then some merged.ended
  else some merged

/-- The response to a refresh of the languages. -/
def State.refreshed (s : State) (response : DataResponse) : State :=
  match FriendDataManager.updateLanguageFriends s.store.friends response with
  | some (friends, _) => { s with store := { s.store with friends } }
  | none =>
    let items := (response.value.bind Json.asArray).getD []
    let friends := Runs.reached FriendDataManager.updateItem s.store.friends items
    State.ended { s with store := { s.store with friends } }

/-- The answer of the server to a new account. -/
def State.accountCreated (s : State) (k : Nat) (languageCode : String) (response : DataResponse) :
    Option State :=
  s.posts[k]?.map fun phone =>
    match UserDataManager.addAccount s.users languageCode phone response with
    | some (users, _) =>
      { s with posts := s.posts.eraseIdx k, users, accounts := s.accounts + 1 }
    | none => s.ended

inductive Event
  | launch
  | terminate
  | registerBtnPressed (phone : String)
  | uploaded (k : Nat)
  | accountCreated (k : Nat) (languageCode : String) (response : DataResponse)
  /-- A call is finished. -/
  | navigateToVideo
  | tab (handler : Handler)
  | synced (k : Nat) (response : DataResponse)
  /-- The account's language is updated, so a Menu, one of its tabs or a chat asks for the
      friends' languages. -/
  | menuLanguageUpdated (menu : Nat)
  | chatLanguageUpdated (screen : Nat)
  | refreshed (response : DataResponse)
  /-- A call screen is opened, from a chat or by an answer. -/
  | call
  /-- A chat or call screen computes the friend's id. -/
  | friendId (screen : Nat) (conversationName : String)

def step (s : State) : Event → Option State
  | .launch =>
    let started : State := { s with running := true }
    some (if UserEntity.isAuth s.users then started.openMenu else started)
  | .terminate => some s.ended
  | .registerBtnPressed phone => some { s with uploads := s.uploads ++ [phone] }
  | .uploaded k =>
    s.uploads[k]?.map fun phone =>
      State.openMenu { s with uploads := s.uploads.eraseIdx k, posts := s.posts ++ [phone] }
  | .accountCreated k languageCode response => s.accountCreated k languageCode response
  | .navigateToVideo => some s.openMenu
  | .tab handler => State.handle { s with handled := s.handled ++ [s.users.length] } handler
  | .synced k response => s.synced k response
  | .menuLanguageUpdated menu => s.menus[menu]?.map fun m => s.send m.toScreen
  | .chatLanguageUpdated screen => s.screens[screen]?.map s.send
  | .refreshed response => some (s.refreshed response)
  | .call => some { s with screens := s.screens ++ [s.screen] }
  | .friendId screen conversationName =>
    s.screens[screen]?.map fun c =>
      let divided : State := { s with divisors := s.divisors ++ [c.userId] }
      if (frId conversationName c.userId.toInt).isNone then divided.ended else divided

/-- The registration screen is covered by the first Menu; handlers run in a Menu of the process, and
    callbacks answer what is under way. -/
def Enabled (s : State) : Event → Prop
  | .launch => s.running = false
  | .terminate => s.running = true
  | .registerBtnPressed _ => s.running = true ∧ s.menus = []
  | .uploaded k => k < s.uploads.length
  | .accountCreated k _ _ => k < s.posts.length
  | .navigateToVideo | .refreshed _ | .call => s.menus ≠ []
  | .tab (.btnSyncPressed menu _) => menu < s.menus.length
  | .tab (.didSelectContact list row) =>
    s.menus ≠ [] ∧ LocalStore.Enabled s.store (.selected list row)
  | .tab (.didSelectConversation conversation) =>
    s.menus ≠ [] ∧ conversation ∈ s.store.conversations
  | .tab _ => s.menus ≠ []
  | .synced k _ => k < s.syncs.length
  | .menuLanguageUpdated menu => menu < s.menus.length
  | .chatLanguageUpdated screen | .friendId screen _ => screen < s.screens.length

instance (s : State) (e : Event) : Decidable (Enabled s e) :=
  match e with
  | .launch => inferInstanceAs (Decidable (s.running = false))
  | .terminate => inferInstanceAs (Decidable (s.running = true))
  | .registerBtnPressed _ => inferInstanceAs (Decidable (s.running = true ∧ s.menus = []))
  | .uploaded k => inferInstanceAs (Decidable (k < s.uploads.length))
  | .accountCreated k _ _ => inferInstanceAs (Decidable (k < s.posts.length))
  | .navigateToVideo | .refreshed _ | .call | .tab (.viewDidLoad _) | .tab .btnsyncPressed
  | .tab .btnLanguagePressed => inferInstanceAs (Decidable (s.menus ≠ []))
  | .tab (.btnSyncPressed menu _) | .menuLanguageUpdated menu =>
    inferInstanceAs (Decidable (menu < s.menus.length))
  | .tab (.didSelectContact list row) =>
    inferInstanceAs (Decidable (s.menus ≠ [] ∧ LocalStore.Enabled s.store (.selected list row)))
  | .tab (.didSelectConversation conversation) =>
    inferInstanceAs (Decidable (s.menus ≠ [] ∧ conversation ∈ s.store.conversations))
  | .synced k _ => inferInstanceAs (Decidable (k < s.syncs.length))
  | .chatLanguageUpdated screen | .friendId screen _ =>
    inferInstanceAs (Decidable (screen < s.screens.length))

/-! ## What a step records -/

/-- How many accounts the event stores. -/
def stored : Event → Nat
  | .accountCreated _ _ response => if (response.value.bind Json.asInt).isSome then 1 else 0
  | _ => 0

/-- What a tab's handler finds. -/
def found (s : State) : Event → List Nat
  | .tab _ => [s.users.length]
  | _ => []

/-- How many updates the event makes of a record that is not there. -/
def lost (s : State) : Event → Nat
  | .tab (.btnSyncPressed _ _) => if s.users = [] then 1 else 0
  | _ => 0

/-- The user id a friend id is computed with. -/
def divided (s : State) : Event → Option Int32
  | .friendId screen _ => s.screens[screen]?.map (·.userId)
  | _ => none

/-- The controller that asks for an account's friends. -/
def sender (s : State) : Event → Option Screen
  | .tab (.btnSyncPressed menu _) => if s.users = [] then none else s.menus[menu]?.map (·.toScreen)
  | .menuLanguageUpdated menu => s.menus[menu]?.map (·.toScreen)
  | .chatLanguageUpdated screen => s.screens[screen]?
  | _ => none

/-- What the event adds to the users and to the records. -/
structure Effect (s : State) (e : Event) (s' : State) : Prop where
  users : s'.users.length = s.users.length + stored e
  handled : s'.handled = s.handled ++ found s e
  missing : s'.missing = s.missing + lost s e
  divisors : s'.divisors = s.divisors ++ (divided s e).toList
  requests : s'.requests = s.requests ++
    (sender s e).toList.map fun c => ⟨c.userId, s.users.head?.map (·.id)⟩

/-- `s'` has the users and the records of `s`. -/
structure Same (s s' : State) : Prop where
  users : s'.users = s.users
  handled : s'.handled = s.handled
  missing : s'.missing = s.missing
  divisors : s'.divisors = s.divisors
  requests : s'.requests = s.requests

theorem same_ended (s : State) : Same s s.ended := ⟨rfl, rfl, rfl, rfl, rfl⟩

/-- A Menu with the observers of both kinds is added, or the app ends. -/
theorem openMenu_cases (s : State) :
    (∃ video audio, observe s.screen.userId s.store.conversations .video = some video ∧
      observe s.screen.userId s.store.conversations .audio = some audio ∧
      s.openMenu = { s with menus := s.menus ++ [⟨s.screen, video ++ audio⟩], created := [] }) ∨
    s.openMenu = s.ended := by
  unfold State.openMenu
  split
  · next menu hmenu =>
    simp only [Menu.init, Option.bind_eq_bind, Option.bind_eq_some_iff, Option.some.injEq] at hmenu
    obtain ⟨video, hvideo, audio, haudio, rfl⟩ := hmenu
    exact .inl ⟨video, audio, hvideo, haudio, rfl⟩
  · exact .inr rfl

theorem same_openMenu (s : State) : Same s s.openMenu := by
  rcases openMenu_cases s with ⟨video, audio, -, -, hopened⟩ | hended
  · rw [hopened]
    exact ⟨rfl, rfl, rfl, rfl, rfl⟩
  · rw [hended]
    exact same_ended s

theorem Same.trans {s s' s'' : State} (h : Same s s') (h' : Same s' s'') : Same s s'' where
  users := h'.users.trans h.users
  handled := h'.handled.trans h.handled
  missing := h'.missing.trans h.missing
  divisors := h'.divisors.trans h.divisors
  requests := h'.requests.trans h.requests

/-- A step that only changes other fields. -/
theorem Same.effect {s s' : State} (h : Same s s') {e : Event} (hstored : stored e = 0)
    (hfound : found s e = []) (hlost : lost s e = 0) (hdivided : divided s e = none)
    (hsender : sender s e = none) : Effect s e s' where
  users := by rw [h.users, hstored, Nat.add_zero]
  handled := by rw [h.handled, hfound, List.append_nil]
  missing := by rw [h.missing, hlost, Nat.add_zero]
  divisors := by rw [h.divisors, hdivided, Option.toList_none, List.append_nil]
  requests := by rw [h.requests, hsender, Option.toList_none, List.map_nil, List.append_nil]

/-! ## The invariant -/

/-- The controller copied the id that the first account has, or nothing before it. -/
structure Saw (users : List User) (accounts : Nat) (c : Screen) : Prop where
  since : c.since ≤ accounts
  userId : c.userId = if c.since = 0 then 0 else UserEntity.getUserId users

/-- All accounts are records, controllers saw them as they were, and friends are those of a user. -/
structure Inv (s : State) : Prop where
  count : s.users.length = s.accounts
  menus : ∀ m ∈ s.menus, Saw s.users s.accounts m.toScreen
  screens : ∀ c ∈ s.screens, Saw s.users s.accounts c
  store : LocalStore.Inv s.store
  signed : s.store.friends ≠ [] ∨ s.syncs ≠ [] → 0 < s.accounts

theorem init_inv : Inv State.init :=
  ⟨rfl, by simp [State.init], by simp [State.init], LocalStore.init_inv, by
    simp [State.init, LocalStore.State.init]⟩

theorem saw_screen {s : State} (h : s.users.length = s.accounts) :
    Saw s.users s.accounts s.screen := by
  refine ⟨le_refl _, ?_⟩
  cases husers : s.users with
  | nil =>
    have hzero : s.accounts = 0 := by rw [← h, husers, List.length_nil]
    simp [State.screen, UserEntity.getUserId, husers, hzero]
  | cons user users =>
    have hpos : s.accounts ≠ 0 := by rw [← h, husers]; simp
    simp [State.screen, UserEntity.getUserId, husers, hpos]

theorem inv_ended {s : State} (h : Inv s) : Inv s.ended where
  count := h.count
  menus := by simp [State.ended]
  screens := by simp [State.ended]
  store := ⟨h.store.complete, by simp [State.ended], h.store.single, h.store.befriended⟩
  signed := by
    rintro (hfriends | hsyncs)
    · exact h.signed (Or.inl hfriends)
    · exact absurd rfl hsyncs

theorem inv_openMenu {s : State} (h : Inv s) : Inv s.openMenu := by
  rcases openMenu_cases s with ⟨video, audio, -, -, hopened⟩ | hended
  · rw [hopened]
    refine ⟨h.count, ?_, h.screens, h.store, h.signed⟩
    rw [List.forall_mem_append, List.forall_mem_singleton]
    exact ⟨h.menus, saw_screen h.count⟩
  · rw [hended]
    exact inv_ended h

/-- A change of the local store that keeps its invariant, and adds friends only for a user. -/
theorem Inv.withStore {s : State} (h : Inv s) {store : LocalStore.State} (hstore : LocalStore.Inv store)
    (hfriends : store.friends ≠ [] → 0 < s.accounts) (created : List Conversation) :
    Inv { s with store, created } where
  count := h.count
  menus := h.menus
  screens := h.screens
  store := hstore
  signed := fun hor => hor.elim hfriends fun hsyncs => h.signed (Or.inr hsyncs)

/-- Another record after the first leaves what controllers saw. -/
theorem Inv.withUsers {s : State} (h : Inv s) (users : List User) {accounts : Nat}
    (hcount : users.length = accounts) (hmore : s.accounts ≤ accounts)
    (hid : s.users ≠ [] → UserEntity.getUserId users = UserEntity.getUserId s.users) :
    Inv { s with users, accounts } := by
  have hsaw : ∀ c, Saw s.users s.accounts c → Saw users accounts c := by
    intro c hc
    refine ⟨hc.since.trans hmore, hc.userId.trans ?_⟩
    split
    · rfl
    · next hpos =>
      have hne : s.users ≠ [] := by
        intro hnil
        have := hc.since
        rw [← h.count, hnil, List.length_nil] at this
        omega
      exact (hid hne).symm
  exact ⟨hcount, fun m hm => hsaw _ (h.menus m hm), fun c hc => hsaw c (h.screens c hc), h.store,
    fun hor => Nat.lt_of_lt_of_le (h.signed hor) hmore⟩

/-- A refresh leaves the ids of the friends, wherever it ends. -/
theorem refreshed_ids (store : List Friend) (items : List Json) :
    (Runs.reached FriendDataManager.updateItem store items).map (·.id.toInt) =
      store.map (·.id.toInt) :=
  Runs.reached_ok (I := fun store' => store'.map (·.id.toInt) = store.map (·.id.toInt))
    (fun _ _ _ hids hstep => (FriendDataManager.updateItem_ids hstep).trans hids) rfl items

theorem inv_refreshed {s : State} (h : Inv s) (response : DataResponse) :
    Inv (s.refreshed response) ∧ Same s (s.refreshed response) := by
  -- a refresh that ends, or ends the process, has changed languages only
  have hstore : ∀ items, Inv { s with store := { s.store with
      friends := Runs.reached FriendDataManager.updateItem s.store.friends items } } := by
    intro items
    have hkeeps := LocalStore.keeps_reached FriendDataManager.updateItem LocalStore.keeps_updateItem
      h.store.complete items
    refine h.withStore (h.store.grow hkeeps (h.store.lists_grow hkeeps)) (fun hne => ?_) s.created
    refine h.signed (Or.inl fun hnil => hne ?_)
    rw [← List.map_eq_nil_iff, refreshed_ids, hnil, List.map_nil]
  unfold State.refreshed
  split
  · next friends calls hupdate =>
    obtain ⟨items, rfl⟩ := LocalStore.updateLanguageFriends_reached hupdate
    exact ⟨hstore items, rfl, rfl, rfl, rfl, rfl⟩
  · exact ⟨inv_ended (hstore _), rfl, rfl, rfl, rfl, rfl⟩

theorem inv_synced {s : State} (h : Inv s) {k : Nat} (hk : k < s.syncs.length)
    (response : DataResponse) :
    ∃ s', s.synced k response = some s' ∧ Inv s' ∧ Same s s' := by
  obtain ⟨store, hstore, hinv⟩ := LocalStore.inv_synced h.store s.syncs[k] response
  have hsigned : 0 < s.accounts := h.signed (Or.inr (List.ne_nil_of_length_pos (by omega)))
  have hmerged : Inv { s with store, syncs := s.syncs.eraseIdx k } :=
    ⟨h.count, h.menus, h.screens, hinv, fun _ => hsigned⟩
  simp only [State.synced, List.getElem?_eq_getElem hk, hstore, Option.bind_eq_bind, Option.bind_some]
  split
  · exact ⟨_, rfl, inv_ended hmerged, rfl, rfl, rfl, rfl, rfl⟩
  · exact ⟨_, rfl, hmerged, rfl, rfl, rfl, rfl, rfl⟩

theorem inv_accountCreated {s : State} (h : Inv s) {k : Nat} (hk : k < s.posts.length)
    (languageCode : String) (response : DataResponse) :
    ∃ s', s.accountCreated k languageCode response = some s' ∧ Inv s' ∧
      Effect s (.accountCreated k languageCode response) s' := by
  simp only [State.accountCreated, List.getElem?_eq_getElem hk, Option.map_some]
  cases hid : response.value.bind Json.asInt with
  | none =>
    have hadd : UserDataManager.addAccount s.users languageCode s.posts[k] response = none := by
      simp only [UserDataManager.addAccount, Option.bind_eq_bind, ← Option.bind_assoc, hid,
        Option.bind_none]
    rw [hadd]
    refine ⟨_, rfl, inv_ended h, (same_ended s).effect ?_ rfl rfl rfl rfl⟩
    simp [stored, hid]
  | some id =>
    have hadd : UserDataManager.addAccount s.users languageCode s.posts[k] response =
        some (UserEntity.addUser s.users languageCode id s.posts[k], 1) := by
      simp only [UserDataManager.addAccount, Option.bind_eq_bind, ← Option.bind_assoc, hid,
        Option.bind_some]
    have hlength : (UserEntity.addUser s.users languageCode id s.posts[k]).length =
        s.users.length + 1 := by simp [UserEntity.addUser]
    have hinv := h.withUsers _ (hlength.trans (congrArg (· + 1) h.count)) (Nat.le_succ _)
      fun hne => getUserId_addUser hne languageCode id s.posts[k]
    rw [hadd]
    refine ⟨_, rfl, ⟨hinv.count, hinv.menus, hinv.screens, hinv.store, hinv.signed⟩,
      ?_, ?_, ?_, ?_, ?_⟩
    · simpa [stored, hid] using hlength
    · exact (List.append_nil _).symm
    · rfl
    · exact (List.append_nil _).symm
    · exact (List.append_nil _).symm

/-- A request leaves everything but the list of requests. -/
theorem inv_send {s : State} (h : Inv s) (c : Screen) : Inv (s.send c) :=
  ⟨h.count, h.menus, h.screens, h.store, h.signed⟩

theorem inv_open {s : State} (h : Inv s) : Inv { s with screens := s.screens ++ [s.screen] } := by
  refine ⟨h.count, h.menus, ?_, h.store, h.signed⟩
  rw [List.forall_mem_append, List.forall_mem_singleton]
  exact ⟨h.screens, saw_screen h.count⟩

/-- The sync marks the user, then asks for the friends of the id its contact tab copied. -/
theorem inv_btnSyncPressed {s : State} (h : Inv s) {menu : Nat} (hmenu : menu < s.menus.length)
    (list : Nat) :
    ∃ s', s.handle (.btnSyncPressed menu list) = some s' ∧ Inv s' ∧
      s'.users.length = s.users.length ∧ s'.handled = s.handled ∧
      s'.missing = s.missing + lost s (.tab (.btnSyncPressed menu list)) ∧
      s'.divisors = s.divisors ∧
      s'.requests = s.requests ++ (sender s (.tab (.btnSyncPressed menu list))).toList.map fun c =>
        ⟨c.userId, s.users.head?.map (·.id)⟩ := by
  have hget : s.menus[menu]? = some s.menus[menu] := List.getElem?_eq_getElem hmenu
  cases husers : s.users with
  | nil =>
    have hended := inv_ended h
    refine ⟨{ s.ended with missing := s.missing + 1 }, ?_,
      ⟨hended.count, hended.menus, hended.screens, hended.store, hended.signed⟩, ?_, rfl, ?_, rfl, ?_⟩
    · simp only [State.handle, hget, husers, UserEntity.updateUser, Option.map_some]
    · exact congrArg List.length husers
    · simp [lost, husers]
    · simp [sender, husers, State.ended]
  | cons user users =>
    let marked : List User := { user with isSync := true } :: users
    have hpos : 0 < s.accounts := by rw [← h.count, husers]; exact Nat.succ_pos _
    have hinv := h.withUsers marked (by rw [← h.count, husers]; rfl) (le_refl _)
      fun _ => by rw [husers]; rfl
    have hmarked : Inv { s with users := marked, syncs := s.syncs ++ [list] } :=
      ⟨hinv.count, hinv.menus, hinv.screens, hinv.store, fun _ => hpos⟩
    refine ⟨State.send { s with users := marked, syncs := s.syncs ++ [list] } s.menus[menu].toScreen,
      ?_, inv_send hmarked _, ?_, rfl, ?_, rfl, ?_⟩
    · simp only [State.handle, hget, husers, UserEntity.updateUser, Option.map_some, marked]
    · simp [State.send, marked]
    · simp [lost, husers, State.send]
    · simp [sender, husers, hget, State.send, marked]

/-- A handler of a tab. -/
theorem inv_handle {s : State} (h : Inv s) {handler : Handler} (he : Enabled s (.tab handler)) :
    ∃ s', step s (.tab handler) = some s' ∧ Inv s' ∧ Effect s (.tab handler) s' := by
  -- the state in which the handler runs, once it has been recorded
  let t : State := { s with handled := s.handled ++ [s.users.length] }
  have ht : Inv t := ⟨h.count, h.menus, h.screens, h.store, h.signed⟩
  have hquiet : ∀ {s'}, Same t s' → lost s (.tab handler) = 0 → sender s (.tab handler) = none →
      Effect s (.tab handler) s' := fun hsame hlost hsender =>
    ⟨by rw [hsame.users]; rfl, hsame.handled, by rw [hsame.missing, hlost]; rfl,
      by rw [hsame.divisors]; exact (List.append_nil _).symm,
      by rw [hsame.requests, hsender]; exact (List.append_nil _).symm⟩
  have hsame : Same t t := ⟨rfl, rfl, rfl, rfl, rfl⟩
  cases handler with
  | viewDidLoad tab =>
    cases tab with
    | contacts =>
      obtain ⟨store, hstore, hinv⟩ := LocalStore.step_inv s.store .contacts h.store trivial
      obtain ⟨hfriends, -⟩ := LocalStore.contacts_frame hstore
      refine ⟨{ t with store }, ?_, ht.withStore hinv (fun hne => h.signed (Or.inl ?_)) s.created,
        hquiet ⟨rfl, rfl, rfl, rfl, rfl⟩ rfl rfl⟩
      · simp only [step, State.handle, hstore, Option.map_some, t]
      · exact hfriends ▸ hne
    | conversations => exact ⟨t, rfl, ht, hquiet hsame rfl rfl⟩
    | settings => exact ⟨t, rfl, ht, hquiet hsame rfl rfl⟩
  | btnSyncPressed menu list =>
    obtain ⟨s', hs', hinv, husers, hhandled, hmissing, hdivisors, hrequests⟩ :=
      inv_btnSyncPressed ht he list
    exact ⟨s', hs', hinv, husers, hhandled, hmissing, hdivisors.trans (List.append_nil _).symm,
      hrequests⟩
  | didSelectContact list row =>
    obtain ⟨store, hstore, hinv⟩ := LocalStore.step_inv s.store (.selected list row) h.store he.2
    have hfriends : store.friends = s.store.friends := by
      obtain ⟨-, -, -, -, rfl⟩ := LocalStore.selected_frame hstore
      rfl
    let created := s.created ++ store.conversations.drop s.store.conversations.length
    refine ⟨{ t with store, created }, ?_,
      ht.withStore hinv (fun hne => h.signed (Or.inl ?_)) created,
      hquiet ⟨rfl, rfl, rfl, rfl, rfl⟩ rfl rfl⟩
    · simp only [step, State.handle, hstore, Option.map_some, t, created]
    · exact hfriends ▸ hne
  | btnsyncPressed => exact ⟨t, rfl, ht, hquiet hsame rfl rfl⟩
  | didSelectConversation conversation =>
    cases hrow : ConversationViewController.didSelectRow s.users s.store.friends conversation with
    | none =>
      refine ⟨t.ended, ?_, inv_ended ht, hquiet (same_ended t) rfl rfl⟩
      simp only [step, State.handle, hrow, t]
    | some chat =>
      refine ⟨{ t with screens := t.screens ++ [t.screen] }, ?_, inv_open ht,
        hquiet ⟨rfl, rfl, rfl, rfl, rfl⟩ rfl rfl⟩
      simp only [step, State.handle, hrow, t]
  | btnLanguagePressed => exact ⟨t, rfl, ht, hquiet hsame rfl rfl⟩

theorem step_spec (s : State) (e : Event) (h : Inv s) (he : Enabled s e) :
    ∃ s', step s e = some s' ∧ Inv s' ∧ Effect s e s' := by
  cases e with
  | launch =>
    let started : State := { s with running := true }
    have hsame : Same s started := ⟨rfl, rfl, rfl, rfl, rfl⟩
    have hstarted : Inv started := ⟨h.count, h.menus, h.screens, h.store, h.signed⟩
    cases hauth : UserEntity.isAuth s.users with
    | true =>
      refine ⟨started.openMenu, by simp only [step, hauth, if_true, started], inv_openMenu hstarted,
        (hsame.trans (same_openMenu started)).effect rfl rfl rfl rfl rfl⟩
    | false =>
      refine ⟨started, ?_, hstarted, hsame.effect rfl rfl rfl rfl rfl⟩
      simp only [step, hauth, Bool.false_eq_true, if_false, started]
  | terminate => exact ⟨_, rfl, inv_ended h, (same_ended s).effect rfl rfl rfl rfl rfl⟩
  | registerBtnPressed phone =>
    have hsame : Same s { s with uploads := s.uploads ++ [phone] } := ⟨rfl, rfl, rfl, rfl, rfl⟩
    exact ⟨_, rfl, ⟨h.count, h.menus, h.screens, h.store, h.signed⟩,
      hsame.effect rfl rfl rfl rfl rfl⟩
  | uploaded k =>
    let sent : State := { s with
      uploads := s.uploads.eraseIdx k
      posts := s.posts ++ [s.uploads[k]] }
    have hsame : Same s sent := ⟨rfl, rfl, rfl, rfl, rfl⟩
    have hsent : Inv sent := ⟨h.count, h.menus, h.screens, h.store, h.signed⟩
    refine ⟨sent.openMenu, ?_, inv_openMenu hsent,
      (hsame.trans (same_openMenu sent)).effect rfl rfl rfl rfl rfl⟩
    simp only [step, List.getElem?_eq_getElem he, Option.map_some, sent]
  | accountCreated k languageCode response => exact inv_accountCreated h he languageCode response
  | navigateToVideo => exact ⟨_, rfl, inv_openMenu h, (same_openMenu s).effect rfl rfl rfl rfl rfl⟩
  | tab handler => exact inv_handle h he
  | synced k response =>
    obtain ⟨s', hs', hinv, hsame⟩ := inv_synced h he response
    exact ⟨s', hs', hinv, hsame.effect rfl rfl rfl rfl rfl⟩
  | menuLanguageUpdated menu =>
    have hget : s.menus[menu]? = some s.menus[menu] := List.getElem?_eq_getElem he
    refine ⟨s.send s.menus[menu].toScreen, by simp only [step, hget, Option.map_some],
      inv_send h _, rfl, (List.append_nil _).symm, rfl, (List.append_nil _).symm, ?_⟩
    simp only [sender, hget, Option.map_some]
    rfl
  | chatLanguageUpdated screen =>
    have hget : s.screens[screen]? = some s.screens[screen] := List.getElem?_eq_getElem he
    refine ⟨s.send s.screens[screen], by simp only [step, hget, Option.map_some],
      inv_send h _, rfl, (List.append_nil _).symm, rfl, (List.append_nil _).symm, ?_⟩
    simp only [sender, hget]
    rfl
  | refreshed response =>
    obtain ⟨hinv, hsame⟩ := inv_refreshed h response
    exact ⟨_, rfl, hinv, hsame.effect rfl rfl rfl rfl rfl⟩
  | call =>
    have hsame : Same s { s with screens := s.screens ++ [s.screen] } := ⟨rfl, rfl, rfl, rfl, rfl⟩
    exact ⟨_, rfl, inv_open h, hsame.effect rfl rfl rfl rfl rfl⟩
  | friendId screen conversationName =>
    have hget : s.screens[screen]? = some s.screens[screen] := List.getElem?_eq_getElem he
    have hinv : Inv { s with divisors := s.divisors ++ [s.screens[screen].userId] } :=
      ⟨h.count, h.menus, h.screens, h.store, h.signed⟩
    have hdivided : s.divisors ++ [s.screens[screen].userId] =
        s.divisors ++ (divided s (.friendId screen conversationName)).toList := by
      simp only [divided, hget, Option.map_some, Option.toList_some]
    simp only [step, hget, Option.map_some]
    split
    · exact ⟨_, rfl, inv_ended hinv, rfl, (List.append_nil _).symm, rfl, hdivided,
        (List.append_nil _).symm⟩
    · exact ⟨_, rfl, hinv, rfl, (List.append_nil _).symm, rfl, hdivided, (List.append_nil _).symm⟩

end App

end Shiftgram
