import Shiftgram.DataManagers

/- The contact sync as the user starts it. `syncContacts` sends a POST for every contact of the
   address book and, without waiting for any of them, the GET whose answer is merged into the local
   store and shown.

   The accounts that were linked are shown exactly if each of them was stored already or is in the
   list that the server has when it handles the GET (`shown_iff`): nothing orders the GET after the
   POSTs, and nothing asks again.

   Assumed of the server, which is not in the repository: a POST that it reports as successful adds
   the account with the phone number to the friends of the account that the POST names, one that
   fails adds none, and a successful GET answers with a well-formed list of the friends. -/
namespace Shiftgram

/-- What the fetch request reads of a record of the address book. -/
structure CNContact where
  givenName : String
  phoneNumbers : List String
  deriving DecidableEq, Repr

structure Contact where
  firstName : String
  phone : String
  deriving DecidableEq, Repr

/-- `getContacts`, where `book` is what the enumeration yields, `none` where it throws. -/
def ContactDataManager.getContacts (users : List User) (book : Option (List CNContact)) :
    List Contact :=
  match book with
  | some values =>
    let contacts := values.filterMap fun value =>
      value.phoneNumbers.head?.map fun phone => ⟨value.givenName, phone⟩
    contacts.filter fun value => value.phone ≠ UserEntity.getUserPhone users
  | none => []

/-- The requests a sync sends. -/
inductive SyncRequest
  | post (accountAId : Int32) (accountBPhone : String)
  | get (userId : Int32)
  deriving DecidableEq, Repr

def SyncRequest.isPost : SyncRequest → Bool
  | post _ _ => true
  | get _ => false

namespace ContactViewModel

def addContacts (users : List User) (book : Option (List CNContact)) : List SyncRequest :=
  (ContactDataManager.getContacts users book).map fun contact =>
    .post (UserEntity.getUserId users) contact.phone

/-- The requests of `syncContacts`, in the order they are sent; `userId` is the id that the data
    manager copied when it was constructed. -/
def syncContacts (users : List User) (userId : Int32) (book : Option (List CNContact)) :
    List SyncRequest :=
  addContacts users book ++ [.get userId]

/-- The lists that `syncContacts` passes to its completion for the outcome of the GET. -/
def synced (store : List Friend) (response : DataResponse) : Option (List (List FriendModel)) := do
  let (store, completions) ← FriendDataManager.fetchFriends store response
  (List.replicate completions store).mapM FriendEntity.getFriends

end ContactViewModel

/-! ## The server -/

/-- The friend API: `post` gives the id of the account it links, if it succeeds. -/
structure Server where
  State : Type
  post : State → Int32 → String → State × Option Int
  friends : State → Int32 → List FriendModel
  fits : ∀ s id, ∀ m ∈ friends s id, m.Fits
  linked : ∀ s id phone x, x ∈ (friends (post s id phone).1 id).map (·.id) ↔
    x ∈ (friends s id).map (·.id) ∨ (post s id phone).2 = some x

/-- The server after some requests, and the accounts that they linked. -/
def Server.handle (server : Server) (s : server.State) : List SyncRequest → server.State × List Int
  | [] => (s, [])
  | .get _ :: requests => server.handle s requests
  | .post id phone :: requests =>
    let linked := server.post s id phone
    let rest := server.handle linked.1 requests
    (rest.1, linked.2.toList ++ rest.2)

/-- The requests of one account only add to its friends what they link. -/
theorem Server.mem_friends_handle (server : Server) {id : Int32} {requests : List SyncRequest}
    (h : ∀ r ∈ requests, ∃ phone, r = .post id phone) (s : server.State) (x : Int) :
    x ∈ (server.friends (server.handle s requests).1 id).map (·.id) ↔
      x ∈ (server.friends s id).map (·.id) ∨ x ∈ (server.handle s requests).2 := by
  induction requests generalizing s with
  | nil => simp [Server.handle]
  | cons r requests ih =>
    rw [List.forall_mem_cons] at h
    obtain ⟨⟨phone, rfl⟩, hrest⟩ := h
    simp only [Server.handle, List.mem_append, Option.mem_toList]
    rw [ih hrest, server.linked, or_assoc]

/-! ## One call -/

/-- A call of `syncContacts` and what becomes of its requests. -/
structure SyncCall where
  server : Server
  state : server.State
  users : List User
  userId : Int32
  book : Option (List CNContact)
  /-- The requests in the order in which the server handles them. -/
  order : List SyncRequest
  perm : order.Perm (ContactViewModel.syncContacts users userId book)
  /-- The status code of the answer to the GET, if there is one. -/
  statusCode : Option Int
  /-- The Friend records when the answer is handled. -/
  stored : List Friend
  complete : ∀ friend ∈ stored, friend.Complete

namespace SyncCall

/-- The requests that the server handles before the GET. -/
def before (c : SyncCall) : List SyncRequest := c.order.takeWhile SyncRequest.isPost

/-- The server when it handles the GET. -/
def asked (c : SyncCall) : c.server.State := (c.server.handle c.state c.before).1

/-- The accounts for which an `addFriend` request succeeds. -/
def succeeded (c : SyncCall) : List Int := (c.server.handle c.state c.order).2

/-- Those whose request is handled before the GET. -/
def early (c : SyncCall) : List Int := (c.server.handle c.state c.before).2

/-- The outcome of the GET: without the code 200 there is no list. -/
def response (c : SyncCall) : DataResponse :=
  if c.statusCode = some 200 then
    (FriendSync.sends (c.server.friends c.asked c.userId) (c.server.fits c.asked c.userId)).response
  else ⟨c.statusCode, none⟩

/-- Every list passed to the completion has every account that was linked. -/
def Shown (c : SyncCall) : Prop :=
  ∃ lists, ContactViewModel.synced c.stored c.response = some lists ∧
    ∀ friends ∈ lists, ∀ x ∈ c.succeeded, x ∈ friends.map (·.id)

/-- The server lists the account when it handles the GET. For the user's own id it was a friend
    before the call, or was linked before the GET; a data manager that was constructed under another
    id gets the friends of that one. -/
def Listed (c : SyncCall) (x : Int) : Prop :=
  if c.userId = UserEntity.getUserId c.users then
    x ∈ (c.server.friends c.state c.userId).map (·.id) ∨ x ∈ c.early
  else x ∈ (c.server.friends c.asked c.userId).map (·.id)

variable (c : SyncCall)

theorem before_posts : ∀ r ∈ c.before, ∃ phone, r = .post (UserEntity.getUserId c.users) phone := by
  intro r hr
  have hpost : r.isPost = true := List.mem_takeWhile_imp hr
  have hmem : r ∈ ContactViewModel.syncContacts c.users c.userId c.book :=
    c.perm.mem_iff.mp ((List.takeWhile_sublist _).subset hr)
  rcases List.mem_append.mp hmem with h | h
  · obtain ⟨contact, -, rfl⟩ := List.mem_map.mp h
    exact ⟨contact.phone, rfl⟩
  · obtain rfl := List.mem_singleton.mp h
    cases hpost

theorem listed_iff (x : Int) :
    c.Listed x ↔ x ∈ (c.server.friends c.asked c.userId).map (·.id) := by
  unfold Listed
  split
  · next hid =>
    have hposts := c.before_posts
    rw [← hid] at hposts
    exact (c.server.mem_friends_handle hposts c.state x).symm
  · rfl

/-- The completion gets the stored friends and, with the code 200, those of the answer. -/
theorem synced_eq :
    ∃ lists, ContactViewModel.synced c.stored c.response = some lists ∧
      (lists = [] ↔ c.statusCode = none) ∧
      ∀ friends ∈ lists, ∀ x, x ∈ friends.map (·.id) ↔
        x ∈ c.stored.map (·.id.toInt) ∨ (c.statusCode = some 200 ∧ c.Listed x) := by
  obtain ⟨ms, hms, hstored⟩ := (complete_iff_records c.stored).mp c.complete
  rw [hstored, FriendSync.record_ids hms]
  simp only [listed_iff]
  unfold ContactViewModel.synced response
  split
  · next hcode =>
    obtain ⟨hfetch, hfits⟩ := fetchFriends_eq (FriendSync.sends _ (c.server.fits c.asked c.userId)) hms
    refine ⟨[_], by simp [hfetch, getFriends_records hfits]; rfl, by simp [hcode], ?_⟩
    intro friends hfriends x
    rw [List.mem_singleton.mp hfriends, foldl_syncModel_ids, mem_foldl_syncId,
      and_iff_right hcode]
    rfl
  · next hcode =>
    -- without the list the completion gets the store as it is, if there is an answer at all
    cases hstatus : c.statusCode with
    | none => exact ⟨[], by simp [FriendDataManager.fetchFriends], by simp, by simp⟩
    | some code =>
      have h200 : code ≠ 200 := fun h => hcode (by rw [hstatus, h])
      refine ⟨[ms], ?_, by simp, ?_⟩
      · simp [FriendDataManager.fetchFriends, h200, getFriends_records hms]
      · simp [h200]

/-- The friends shown have every account the call linked exactly if the GET is not answered, or each
    of these accounts is stored already or is listed in a successful answer. -/
theorem shown_iff : c.Shown ↔ c.statusCode = none ∨ ∀ x ∈ c.succeeded,
    x ∈ c.stored.map (·.id.toInt) ∨ (c.statusCode = some 200 ∧ c.Listed x) := by
  obtain ⟨lists, hlists, hnone, hmem⟩ := c.synced_eq
  have hshown : c.Shown ↔ ∀ friends ∈ lists, ∀ x ∈ c.succeeded, x ∈ friends.map (·.id) := by
    unfold Shown
    rw [hlists]
    exact ⟨fun ⟨_, h, hall⟩ => Option.some.inj h ▸ hall, fun hall => ⟨lists, rfl, hall⟩⟩
  rw [hshown, ← hnone]
  cases lists with
  | nil => simp
  | cons friends rest =>
    rw [or_iff_right (List.cons_ne_nil _ _)]
    refine ⟨fun h x hx => (hmem friends List.mem_cons_self x).mp (h friends List.mem_cons_self x hx),
      fun h friends' hfriends' x hx => (hmem friends' hfriends' x).mpr (h x hx)⟩

/-! ## A GET that overtakes -/

/-- A server on which the accounts are registered: its state is the pairs that are linked. -/
def registered (accounts : List FriendModel) (h : ∀ m ∈ accounts, m.Fits) : Server where
  State := List (Int32 × Int)
  post links id phone :=
    match accounts.find? fun m => m.phone == phone with
    | some m => ((id, m.id) :: links, some m.id)
    | none => (links, none)
  friends links id := accounts.filter fun m => (id, m.id) ∈ links
  fits _ _ m hm := h m (List.mem_filter.mp hm).1
  linked links id phone x := by
    split
    · next m hm =>
      have hmem := List.mem_of_find?_eq_some hm
      simp only [List.mem_map, List.mem_filter, List.mem_cons, decide_eq_true_eq, Option.some.injEq]
      grind
    · simp

/-- The user with the id 7 syncs an address book with one contact, and the server handles the GET
    first. -/
def overtaken : SyncCall where
  server := registered [⟨3, "3.jpg", "cyd", "+3", "en"⟩] (by simp only [FriendModel.Fits]; decide)
  state := []
  users := [⟨7, "+7", "en", true, true, true⟩]
  userId := 7
  book := some [⟨"Cyd", ["+3"]⟩]
  order := [.get 7, .post 7 "+3"]
  perm := by decide
  statusCode := some 200
  stored := []
  complete := by simp

/-- Its request succeeds, and the friends shown are none. -/
theorem overtaken_hides : overtaken.succeeded = [3] ∧ overtaken.early = [] ∧
    ContactViewModel.synced overtaken.stored overtaken.response = some [[]] ∧ ¬ overtaken.Shown := by
  have hlists : ContactViewModel.synced overtaken.stored overtaken.response = some [[]] := by decide
  refine ⟨by decide, by decide, hlists, ?_⟩
  rintro ⟨lists, h, hall⟩
  rw [hlists, Option.some.injEq] at h
  subst h
  exact absurd (hall [] (by simp) 3 (by decide)) (by simp)

end SyncCall

end Shiftgram
