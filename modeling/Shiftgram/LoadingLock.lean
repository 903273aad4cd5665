import Shiftgram.ContactSync

/- The interaction lock. `startLoading` makes the application ignore the user, `stopLoading` lets it
   listen again, and the application counts both. The phone screen starts when it is loaded and stops
   at the answer to a request that it sends whenever it appears; the contact and settings screens start
   with a request and stop at the end of a chain of one or two further ones.

   A chain ends without a stop where a handler does not call on: `silent` says on which answers. So
   the starts, and a stop for each appearance of a phone screen, are paid for by the stops so far, the
   chains under way, those that failed, and one start for each loading of a phone screen
   (`Accounts`). `balanced_iff`: the lock is balanced throughout a run exactly if appearances, loadings
   and failures are; `balanced_of_quiet` is the case in which there are none of them.

   Assumed: saves and fetches succeed, and the locale has a language. -/
namespace Shiftgram

namespace LoadingLock

/-- A request under way. The refresh of the languages holds the lock where a button started it. -/
inductive Request
  | phones
  | contact (r : SyncRequest)
  | settings
  | language (locked : Bool)
  | friends (locked : Bool)
  deriving DecidableEq, Repr

/-- A download under way, with its path. -/
inductive Download
  | photo (path : String)
  | cell (path : String)
  deriving DecidableEq, Repr

structure State where
  /-- Calls of `beginIgnoringInteractionEvents` so far. -/
  starts : Nat
  /-- Calls of `endIgnoringInteractionEvents` so far. -/
  stops : Nat
  requests : List Request
  downloads : List Download
  stores : Stores
  deriving DecidableEq, Repr

namespace State

def startLoading (s : State) : State := { s with starts := s.starts + 1 }

def stopLoading (s : State) : State := { s with stops := s.stops + 1 }

def send (s : State) (r : Request) : State := { s with requests := s.requests ++ [r] }

def download (s : State) (d : Download) : State := { s with downloads := s.downloads ++ [d] }

end State

def PhoneVerifyViewController.viewDidLoad (s : State) : State := s.startLoading

def PhoneVerifyViewController.viewDidAppear (s : State) : State := s.send .phones

def SettingsViewController.viewDidLoad (s : State) : State := s.startLoading.send .settings

def SettingsViewController.btnLanguagePressed (s : State) : State :=
  s.startLoading.send (.language true)

def ContactViewController.viewDidLoad (s : State) : Option State :=
  (FriendEntity.getFriends s.stores.friends).map fun _ => s.send (.language false)

/-- `userId` is the id that the data manager of the screen copied, `book` the address book. -/
def ContactViewController.btnSyncPressed (s : State) (userId : Int32)
    (book : Option (List CNContact)) : Option State := do
  let users ← UserEntity.updateUser s.stores.users fun user => { user with isSync := true }
  let sent := ContactViewModel.syncContacts users userId book
  let locked := { s.startLoading with stores := { s.stores with users := users } }
  some (sent.foldl (fun s r => s.send (.contact r)) locked)

/-- The handler of a request, and the completions that it calls. -/
def answered (s : State) (response : DataResponse) : Request → Option State
  | .phones => (PhoneDataManager.getPhones response).map fun calls =>
      calls.foldl (fun s _ => s.stopLoading) s
  | .contact (.post _ _) => some s
  | .contact (.get _) => do
    let (friends, calls) ← FriendDataManager.fetchFriends s.stores.friends response
    let values ← (List.replicate calls friends).mapM FriendEntity.getFriends
    some (values.foldl (fun s _ => s.stopLoading)
      { s with stores := { s.stores with friends := friends } })
  | .settings => (UserDataManager.getById response).map fun calls =>
      calls.foldl (fun s settings => s.download (.photo settings.photo)) s
  | .language locked =>
    let calls := UserDataManager.updateAccountLanguage response
    some (calls.foldl (fun s _ => s.send (.friends locked)) s)
  | .friends locked =>
    (FriendDataManager.updateLanguageFriends s.stores.friends response).map fun (friends, calls) =>
      (List.replicate calls ()).foldl (fun s _ => if locked then s.stopLoading else s)
        { s with stores := { s.stores with friends := friends } }

/-- The continuation of a download, which calls on with the data if there is any. -/
def downloaded (s : State) (data : Bool) : Download → State
  | .photo _ => if data then s.stopLoading else s
  | .cell _ => s

inductive Event
  | phoneLoaded
  | phoneAppeared
  | contactLoaded
  | btnSyncPressed (userId : Int32) (book : Option (List CNContact))
  /-- A row of the contact list is shown. -/
  | cellForRow (photo : String)
  | settingsLoaded
  | btnLanguagePressed
  | answered (r : Request) (response : DataResponse)
  | downloaded (d : Download) (data : Bool)

def step (s : State) : Event → Option State
  | .phoneLoaded => some (PhoneVerifyViewController.viewDidLoad s)
  | .phoneAppeared => some (PhoneVerifyViewController.viewDidAppear s)
  | .contactLoaded => ContactViewController.viewDidLoad s
  | .btnSyncPressed userId book => ContactViewController.btnSyncPressed s userId book
  | .cellForRow photo => some (s.download (.cell photo))
  | .settingsLoaded => some (SettingsViewController.viewDidLoad s)
  | .btnLanguagePressed => some (SettingsViewController.btnLanguagePressed s)
  | .answered r response =>
    LoadingLock.answered { s with requests := s.requests.erase r } response r
  | .downloaded d data =>
    some (LoadingLock.downloaded { s with downloads := s.downloads.erase d } data d)

/-! ## What the run owes -/

/-- The chain of the request ends in a stop. -/
def Request.unlocks : Request → Bool
  | phones | settings => true
  | contact r => !r.isPost
  | language locked | friends locked => locked

def Download.unlocks : Download → Bool
  | photo _ => true
  | cell _ => false

/-- The handler does not call on. -/
def Request.silent (response : DataResponse) : Request → Bool
  | contact _ => response.statusCode.isNone || (response.statusCode = some 200 && response.value.isNone)
  | language _ => response.statusCode ≠ some 200 && response.statusCode ≠ some 400
  | phones | settings | friends _ => false

/-- What has happened besides the starts and stops. -/
structure History where
  /-- Loadings of a phone screen. -/
  loads : Nat
  /-- Appearances of a phone screen. -/
  appears : Nat
  /-- Chains that ended without their stop. -/
  failed : Nat
  deriving DecidableEq, Repr

def History.after (h : History) : Event → History
  | .phoneLoaded => { h with loads := h.loads + 1 }
  | .phoneAppeared => { h with appears := h.appears + 1 }
  | .answered r response =>
    if r.unlocks && r.silent response then { h with failed := h.failed + 1 } else h
  | .downloaded d data => if d.unlocks && !data then { h with failed := h.failed + 1 } else h
  | .contactLoaded | .btnSyncPressed _ _ | .cellForRow _ | .settingsLoaded | .btnLanguagePressed => h

structure Tracked where
  code : State
  history : History
  deriving DecidableEq, Repr

def Tracked.init (stores : Stores) : Tracked := ⟨⟨0, 0, [], [], stores⟩, ⟨0, 0, 0⟩⟩

def Tracked.step (t : Tracked) (e : Event) : Option Tracked :=
  (LoadingLock.step t.code e).map fun s => ⟨s, t.history.after e⟩

/-- What is under way is answered. -/
def Enabled (t : Tracked) : Event → Prop
  | .answered r _ => r ∈ t.code.requests
  | .downloaded d _ => d ∈ t.code.downloads
  | .phoneLoaded | .phoneAppeared | .contactLoaded | .btnSyncPressed _ _ | .cellForRow _
  | .settingsLoaded | .btnLanguagePressed => True

instance (t : Tracked) (e : Event) : Decidable (Enabled t e) :=
  match e with
  | .answered r _ => inferInstanceAs (Decidable (r ∈ t.code.requests))
  | .downloaded d _ => inferInstanceAs (Decidable (d ∈ t.code.downloads))
  | .phoneLoaded | .phoneAppeared | .contactLoaded | .btnSyncPressed _ _ | .cellForRow _
  | .settingsLoaded | .btnLanguagePressed => isTrue trivial

/-- Nothing is outstanding. -/
def State.Idle (s : State) : Prop := s.requests = [] ∧ s.downloads = []

/-- The stops that are still to come. -/
def State.owing (s : State) : Nat :=
  s.requests.countP Request.unlocks + s.downloads.countP Download.unlocks

/-- As many starts as stops once nothing is outstanding, and never more stops. -/
def Balanced (t : Tracked) : Prop :=
  (t.code.Idle → t.code.starts = t.code.stops) ∧ t.code.stops ≤ t.code.starts

/-- The phone screens have appeared as often as they were loaded and chains have failed, once nothing
    is outstanding, and never more often than that and what is under way. -/
def Even (t : Tracked) : Prop :=
  (t.code.Idle → t.history.appears = t.history.loads + t.history.failed) ∧
    t.history.appears ≤ t.history.loads + t.history.failed + t.code.owing

/-- Starts and appearances are accounted for. -/
def Accounts (t : Tracked) : Prop :=
  t.code.starts + t.history.appears =
    t.code.stops + t.code.owing + t.history.failed + t.history.loads

theorem balanced_iff_even {t : Tracked} (h : Accounts t) : Balanced t ↔ Even t := by
  unfold Accounts at h
  have howing : t.code.Idle → t.code.owing = 0 := by
    rintro ⟨hrequests, hdownloads⟩
    rw [State.owing, hrequests, hdownloads]
    rfl
  refine and_congr (forall_congr' fun hidle => ?_) ?_
  · have := howing hidle
    omega
  · omega

/-! ## What the steps pay -/

theorem foldl_stopLoading {α : Type} (calls : List α) (s : State) :
    calls.foldl (fun s _ => s.stopLoading) s = { s with stops := s.stops + calls.length } := by
  induction calls generalizing s with
  | nil => rfl
  | cons call calls ih =>
    rw [List.foldl_cons, ih, State.stopLoading, List.length_cons, Nat.add_assoc, Nat.add_comm 1]

theorem foldl_send {α : Type} (f : α → Request) (calls : List α) (s : State) :
    calls.foldl (fun s call => s.send (f call)) s =
      { s with requests := s.requests ++ calls.map f } := by
  induction calls generalizing s with
  | nil => rw [List.foldl_nil, List.map_nil, List.append_nil]
  | cons call calls ih =>
    rw [List.foldl_cons, ih, State.send, List.map_cons, List.append_assoc]
    rfl

/-- Of the requests of a sync only the GET unlocks. -/
theorem countP_syncContacts (users : List User) (userId : Int32) (book : Option (List CNContact)) :
    ((ContactViewModel.syncContacts users userId book).map Request.contact).countP Request.unlocks =
      1 := by
  have hposts : (ContactViewModel.addContacts users book).countP
      (Request.unlocks ∘ Request.contact) = 0 := by
    rw [List.countP_eq_zero]
    intro r hr
    obtain ⟨contact, -, rfl⟩ := List.mem_map.mp hr
    exact Bool.false_ne_true
  rw [List.countP_map, ContactViewModel.syncContacts, List.countP_append, hposts]
  rfl

theorem countP_of_mem {α : Type} [DecidableEq α] {l : List α} {a : α} (h : a ∈ l) (p : α → Bool) :
    l.countP p = (l.erase a).countP p + (p a).toNat := by
  rw [(List.perm_cons_erase h).countP_eq p, List.countP_cons]
  cases p a <;> rfl

/-- From `s` to `s'` the chain of a request goes on or ends: no start, and a stop or a chain under way
    for `unlocks`, unless the handler is silent. -/
structure Pays (s s' : State) (unlocks silent : Bool) : Prop where
  starts : s'.starts = s.starts
  sum : s'.stops + s'.owing + (unlocks && silent).toNat = s.stops + s.owing + unlocks.toNat

/-- The chain ends in its stop. -/
theorem pays_stop {s s' : State} (hstarts : s'.starts = s.starts) (hstops : s'.stops = s.stops + 1)
    (howing : s'.owing = s.owing) : Pays s s' true false := by
  refine ⟨hstarts, ?_⟩
  rw [hstops, howing, Bool.and_false, Bool.toNat_false, Bool.toNat_true]
  omega

/-- The chain goes on with another request or download. -/
theorem pays_next {s s' : State} {unlocks : Bool} (hstarts : s'.starts = s.starts)
    (hstops : s'.stops = s.stops) (howing : s'.owing = s.owing + unlocks.toNat) :
    Pays s s' unlocks false := by
  refine ⟨hstarts, ?_⟩
  rw [hstops, howing, Bool.and_false, Bool.toNat_false]
  omega

/-- The chain ends silently, or has nothing to do with the lock. -/
theorem pays_nothing {s s' : State} {unlocks silent : Bool} (hstarts : s'.starts = s.starts)
    (hstops : s'.stops = s.stops) (howing : s'.owing = s.owing)
    (h : unlocks = true → silent = true) : Pays s s' unlocks silent := by
  refine ⟨hstarts, ?_⟩
  rw [hstops, howing]
  cases unlocks with
  | false => rfl
  | true => rw [h rfl, Bool.and_self]

theorem getById_singleton {response : DataResponse} {calls : List AccountSettings}
    (h : UserDataManager.getById response = some calls) : ∃ settings, calls = [settings] := by
  obtain ⟨value, -, h⟩ := Option.bind_eq_some_iff.mp h
  obtain ⟨result, -, h⟩ := Option.bind_eq_some_iff.mp h
  obtain ⟨settings, -, h⟩ := Option.bind_eq_some_iff.mp h
  exact ⟨settings, (Option.some.inj h).symm⟩

theorem updateAccountLanguage_length (response : DataResponse) (locked : Bool) :
    (UserDataManager.updateAccountLanguage response).length =
      (!(Request.language locked).silent response).toNat := by
  obtain ⟨statusCode, value⟩ := response
  cases statusCode with
  | none => rfl
  | some code =>
    by_cases h200 : code = 200
    · simp [UserDataManager.updateAccountLanguage, UserDataManager.updated, Request.silent, h200]
    · by_cases h400 : code = 400
      · simp [UserDataManager.updateAccountLanguage, UserDataManager.updated, Request.silent, h400]
      · simp [UserDataManager.updateAccountLanguage, UserDataManager.updated, Request.silent, h200,
          h400]

theorem fetchFriends_calls {store store' : List Friend} {response : DataResponse} {calls : Nat}
    (h : FriendDataManager.fetchFriends store response = some (store', calls)) (r : SyncRequest) :
    calls = (!(Request.contact r).silent response).toNat := by
  obtain ⟨statusCode, value⟩ := response
  cases statusCode with
  | none =>
    obtain ⟨-, rfl⟩ := Prod.mk.inj (Option.some.inj h)
    rfl
  | some code =>
    by_cases hcode : code = 200
    · subst hcode
      cases value with
      | none =>
        obtain ⟨-, rfl⟩ := Prod.mk.inj (Option.some.inj h)
        rfl
      | some value =>
        obtain ⟨items, -, h⟩ := Option.bind_eq_some_iff.mp h
        obtain ⟨merged, -, h⟩ := Option.bind_eq_some_iff.mp h
        obtain ⟨-, rfl⟩ := Prod.mk.inj (Option.some.inj h)
        rfl
    · simp only [FriendDataManager.fetchFriends, if_neg hcode] at h
      obtain ⟨-, rfl⟩ := Prod.mk.inj (Option.some.inj h)
      simp [Request.silent, hcode]

theorem updateLanguageFriends_calls {store store' : List Friend} {response : DataResponse}
    {calls : Nat}
    (h : FriendDataManager.updateLanguageFriends store response = some (store', calls)) :
    calls = 1 := by
  unfold FriendDataManager.updateLanguageFriends at h
  split at h
  · obtain ⟨items, -, h⟩ := Option.bind_eq_some_iff.mp h
    obtain ⟨merged, -, h⟩ := Option.bind_eq_some_iff.mp h
    exact (Prod.mk.inj (Option.some.inj h)).2.symm
  · exact (Prod.mk.inj (Option.some.inj h)).2.symm

theorem length_mapM {α β : Type} {f : α → Option β} {l : List α} {l' : List β}
    (h : l.mapM f = some l') : l'.length = l.length := by
  induction l generalizing l' with
  | nil => exact Option.some.inj h ▸ rfl
  | cons a l ih =>
    simp only [List.mapM_cons, Option.pure_def, Option.bind_eq_bind, Option.bind_eq_some_iff,
      Option.some.injEq] at h
    obtain ⟨b, -, rest, hrest, rfl⟩ := h
    rw [List.length_cons, List.length_cons, ih hrest]

theorem synced_pays {s s' : State} {response : DataResponse} {userId : Int32}
    (h : answered s response (.contact (.get userId)) = some s') :
    Pays s s' true ((Request.contact (.get userId)).silent response) := by
  obtain ⟨⟨friends, calls⟩, hfetch, h⟩ := Option.bind_eq_some_iff.mp h
  obtain ⟨values, hvalues, h⟩ := Option.bind_eq_some_iff.mp h
  obtain rfl := Option.some.inj h
  have hlength : values.length = (!(Request.contact (.get userId)).silent response).toNat := by
    rw [length_mapM hvalues, List.length_replicate]
    exact fetchFriends_calls hfetch _
  rw [foldl_stopLoading]
  cases hsilent : (Request.contact (.get userId)).silent response with
  | true =>
    rw [hsilent] at hlength
    exact pays_nothing rfl (congrArg (s.stops + ·) hlength) rfl fun _ => rfl
  | false =>
    rw [hsilent] at hlength
    exact pays_stop rfl (congrArg (s.stops + ·) hlength) rfl

theorem owing_send (s : State) (r : Request) : (s.send r).owing = s.owing + r.unlocks.toNat := by
  rw [State.owing, State.send, List.countP_append, State.owing, List.countP_singleton]
  cases r.unlocks
  · rfl
  · exact Nat.add_right_comm _ 1 _

theorem language_pays (s : State) (response : DataResponse) (locked : Bool) :
    Pays s ((UserDataManager.updateAccountLanguage response).foldl
      (fun s _ => s.send (.friends locked)) s) locked ((Request.language locked).silent response) := by
  have hlength := updateAccountLanguage_length response locked
  cases hsilent : (Request.language locked).silent response with
  | true =>
    rw [hsilent, Bool.not_true, Bool.toNat_false, List.length_eq_zero_iff] at hlength
    rw [hlength]
    exact pays_nothing rfl rfl rfl fun _ => rfl
  | false =>
    rw [hsilent, Bool.not_false, Bool.toNat_true, List.length_eq_one_iff] at hlength
    obtain ⟨call, hcall⟩ := hlength
    rw [hcall]
    exact pays_next rfl rfl (owing_send s _)

theorem settings_pays {s s' : State} {response : DataResponse}
    (h : answered s response .settings = some s') : Pays s s' true false := by
  obtain ⟨calls, hcalls, rfl⟩ := Option.map_eq_some_iff.mp h
  obtain ⟨settings, rfl⟩ := getById_singleton hcalls
  refine pays_next rfl rfl ?_
  show s.requests.countP Request.unlocks +
    (s.downloads ++ [Download.photo settings.photo]).countP Download.unlocks = s.owing + 1
  rw [List.countP_append, State.owing, Nat.add_assoc]
  rfl

theorem friends_pays {s s' : State} {response : DataResponse} {locked : Bool}
    (h : answered s response (.friends locked) = some s') : Pays s s' locked false := by
  obtain ⟨⟨friends, calls⟩, hcalls, rfl⟩ := Option.map_eq_some_iff.mp h
  obtain rfl := updateLanguageFriends_calls hcalls
  cases locked with
  | true => exact pays_stop rfl rfl rfl
  | false => exact pays_nothing rfl rfl rfl Bool.noConfusion

/-- What a handler does to the lock. -/
theorem answered_pays {s s' : State} {response : DataResponse} {r : Request}
    (h : answered s response r = some s') : Pays s s' r.unlocks (r.silent response) := by
  cases r with
  | phones =>
    obtain ⟨calls, hcalls, rfl⟩ := Option.map_eq_some_iff.mp h
    obtain ⟨phones, rfl⟩ := PhoneDataManager.getPhones_once hcalls
    exact pays_stop rfl rfl rfl
  | contact r =>
    cases r with
    | post accountAId phone =>
      obtain rfl := Option.some.inj h
      exact pays_nothing rfl rfl rfl Bool.noConfusion
    | get userId => exact synced_pays h
  | settings => exact settings_pays h
  | language locked =>
    obtain rfl := Option.some.inj h
    exact language_pays s response locked
  | friends locked => exact friends_pays h

theorem downloaded_pays (s : State) (data : Bool) (d : Download) :
    Pays s (downloaded s data d) d.unlocks (!data) := by
  cases d with
  | photo path =>
    cases data with
    | true => exact pays_stop rfl rfl rfl
    | false => exact pays_nothing rfl rfl rfl fun _ => rfl
  | cell path => exact pays_nothing rfl rfl rfl Bool.noConfusion

/-! ## Runs -/

/-- Starts with as many chains. -/
theorem accounts_start {t : Tracked} (h : Accounts t) {s : State} {n : Nat}
    (hstarts : s.starts = t.code.starts + n) (hstops : s.stops = t.code.stops)
    (howing : s.owing = t.code.owing + n) : Accounts ⟨s, t.history⟩ := by
  unfold Accounts at h ⊢
  show s.starts + t.history.appears = s.stops + s.owing + t.history.failed + t.history.loads
  omega

/-- A chain that is taken up and goes on or ends. -/
theorem accounts_pays {t : Tracked} (h : Accounts t) {s s' : State} {unlocks silent : Bool}
    (hpays : Pays s s' unlocks silent) (hstarts : s.starts = t.code.starts)
    (hstops : s.stops = t.code.stops) (howing : t.code.owing = s.owing + unlocks.toNat) :
    Accounts ⟨s', if unlocks && silent then { t.history with failed := t.history.failed + 1 }
      else t.history⟩ := by
  obtain ⟨hstarts', hsum⟩ := hpays
  unfold Accounts at h ⊢
  cases hfailed : unlocks && silent with
  | true =>
    rw [hfailed, Bool.toNat_true] at hsum
    show s'.starts + t.history.appears =
      s'.stops + s'.owing + (t.history.failed + 1) + t.history.loads
    omega
  | false =>
    rw [hfailed, Bool.toNat_false] at hsum
    show s'.starts + t.history.appears = s'.stops + s'.owing + t.history.failed + t.history.loads
    omega

theorem accounts_btnSyncPressed {t : Tracked} (h : Accounts t) {s : State} {userId : Int32}
    {book : Option (List CNContact)}
    (hs : ContactViewController.btnSyncPressed t.code userId book = some s) :
    Accounts ⟨s, t.history⟩ := by
  obtain ⟨users, -, hs⟩ := Option.bind_eq_some_iff.mp hs
  obtain rfl := Option.some.inj hs
  rw [foldl_send Request.contact]
  refine accounts_start (n := 1) h rfl rfl ?_
  show (t.code.requests ++ (ContactViewModel.syncContacts users userId book).map
    Request.contact).countP Request.unlocks + t.code.downloads.countP Download.unlocks = _
  rw [List.countP_append, countP_syncContacts, State.owing]
  omega

/-- Every step keeps the account. -/
theorem accounts_step {t t' : Tracked} {e : Event} (h : Accounts t) (he : Enabled t e)
    (ht' : t.step e = some t') : Accounts t' := by
  obtain ⟨s, hs, rfl⟩ := Option.map_eq_some_iff.mp ht'
  cases e with
  | phoneLoaded =>
    obtain rfl := Option.some.inj hs
    unfold Accounts at h ⊢
    show t.code.starts + 1 + t.history.appears =
      t.code.stops + t.code.owing + t.history.failed + (t.history.loads + 1)
    omega
  | phoneAppeared =>
    obtain rfl := Option.some.inj hs
    have howing : (t.code.send .phones).owing = t.code.owing + 1 := owing_send t.code .phones
    unfold Accounts at h ⊢
    show t.code.starts + (t.history.appears + 1) =
      t.code.stops + (t.code.send .phones).owing + t.history.failed + t.history.loads
    omega
  | contactLoaded =>
    obtain ⟨friends, -, rfl⟩ := Option.map_eq_some_iff.mp hs
    exact accounts_start (n := 0) h rfl rfl (owing_send t.code (.language false))
  | btnSyncPressed userId book => exact accounts_btnSyncPressed h hs
  | cellForRow photo =>
    obtain rfl := Option.some.inj hs
    refine accounts_start (n := 0) h rfl rfl ?_
    show t.code.requests.countP _ + (t.code.downloads ++ [Download.cell photo]).countP _ = _
    rw [List.countP_append]
    rfl
  | settingsLoaded =>
    obtain rfl := Option.some.inj hs
    exact accounts_start (n := 1) h rfl rfl (owing_send t.code.startLoading .settings)
  | btnLanguagePressed =>
    obtain rfl := Option.some.inj hs
    exact accounts_start (n := 1) h rfl rfl (owing_send t.code.startLoading (.language true))
  | answered r response =>
    refine accounts_pays h (answered_pays hs) rfl rfl ?_
    rw [State.owing, countP_of_mem he Request.unlocks, State.owing]
    exact Nat.add_right_comm _ _ _
  | downloaded d data =>
    obtain rfl := Option.some.inj hs
    refine accounts_pays h (downloaded_pays _ data d) rfl rfl ?_
    rw [State.owing, countP_of_mem he Download.unlocks, State.owing, Nat.add_assoc]

/-- No phone screen comes in, and no chain ends without its stop. -/
def Quiet : Event → Prop
  | .phoneLoaded | .phoneAppeared => False
  | .answered r response => ¬ (r.unlocks ∧ r.silent response)
  | .downloaded d data => d.unlocks → data
  | .contactLoaded | .btnSyncPressed _ _ | .cellForRow _ | .settingsLoaded
  | .btnLanguagePressed => True

theorem history_quiet {e : Event} (h : Quiet e) (history : History) : history.after e = history := by
  cases e with
  | phoneLoaded => exact h.elim
  | phoneAppeared => exact h.elim
  | answered r response =>
    apply if_neg
    rw [Bool.and_eq_true]
    exact h
  | downloaded d data =>
    apply if_neg
    rw [Bool.and_eq_true]
    intro hfails
    have hdata : data = true := h hfails.1
    rw [hdata] at hfails
    exact Bool.noConfusion hfails.2
  | _ => rfl

/-- In a run of the contact and settings screens whose chains all end in their stops the lock is
    balanced at all times. -/
theorem balanced_of_quiet {stores : Stores} {events : List Event}
    (henabled : Runs.Along Tracked.step (fun t e => Enabled t e ∧ Quiet e) (Tracked.init stores) events) :
    Runs.Throughout Tracked.step Balanced (Tracked.init stores) events := by
  refine Runs.throughout_ok (I := fun t => Accounts t ∧ t.history = ⟨0, 0, 0⟩) ?_ ?_ ⟨rfl, rfl⟩
    henabled
  · intro t e h he t' ht'
    obtain ⟨s, -, rfl⟩ := Option.map_eq_some_iff.mp ht'
    exact ⟨accounts_step h.1 he.1 ht', (history_quiet he.2 t.history).trans h.2⟩
  · intro t h
    rw [balanced_iff_even h.1, Even, h.2]
    exact ⟨fun _ => rfl, Nat.zero_le _⟩

/-- However the screens are loaded, appear and are pressed, and whatever their requests and downloads
    come to: the lock is balanced at all times exactly if the appearances of the phone screens are
    even with their loadings and the failures at all times. -/
theorem balanced_iff (stores : Stores)
    (run : Runs.Schedule Tracked.step Enabled (Tracked.init stores)) :
    Runs.Throughout Tracked.step Balanced (Tracked.init stores) run.events ↔
      Runs.Throughout Tracked.step Even (Tracked.init stores) run.events :=
  Runs.throughout_iff_throughout (fun _ _ _ h he hs' => accounts_step h he hs')
    (fun _ h => balanced_iff_even h) rfl run.enabled

/-- The settings are answered, and their photo cannot be downloaded. -/
def noPhoto : List Event :=
  [.settingsLoaded,
   .answered .settings ⟨some 200, some (.dictionary [("FirstName", .string "Ann"),
     ("LastName", .string "Bo"), ("Phone", .string "+1"), ("Username", .string "ann"),
     ("PhotoUrl", .string "1.jpg")])⟩,
   .downloaded (.photo "1.jpg") false]

/-- Nothing is outstanding, and the application ignores the user for good. -/
theorem noPhoto_locks :
    (Runs.exec Tracked.step (Tracked.init ⟨[], []⟩) noPhoto).map
        (fun t => (t.code.starts, t.code.stops, t.code.requests, t.code.downloads)) =
      some (1, 0, [], []) ∧
    Runs.Along Tracked.step Enabled (Tracked.init ⟨[], []⟩) noPhoto ∧
      ¬ Runs.Throughout Tracked.step Balanced (Tracked.init ⟨[], []⟩) noPhoto := by
  have hlast : (Runs.exec Tracked.step (Tracked.init ⟨[], []⟩) noPhoto).map
      (fun t => (t.code.starts, t.code.stops, t.code.requests, t.code.downloads)) =
        some (1, 0, [], []) := by decide
  refine ⟨hlast, by decide, fun h => ?_⟩
  obtain ⟨t, ht, hfields⟩ := Option.map_eq_some_iff.mp hlast
  simp only [Prod.mk.injEq] at hfields
  obtain ⟨hstarts, hstops, hrequests, hdownloads⟩ := hfields
  have hbalanced := (Runs.throughout_last h ht).1 ⟨hrequests, hdownloads⟩
  omega

end LoadingLock

end Shiftgram
