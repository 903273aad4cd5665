import Shiftgram.DataManagers
import Shiftgram.MenuCalls
import Shiftgram.Requests

/- Integrity of the local store. Friends and conversations are two entities without constraints: a
   conversation names its friend by the id only, and a row of the contact list is checked against the
   stored conversations when it is selected. Lists stay on screen across later syncs, and a sync that
   traps leaves what it had saved.

   In every run no two conversations have one friend, and every conversation has a stored friend with
   a language (`intact_run`), because no operation removes a friend or changes an id, and every list
   holds stored friends only.

   Assumed: saves and fetches succeed. -/
namespace Shiftgram

namespace ConversationEntity

def addConversation (store : List Conversation) (friendModel : FriendModel) : List Conversation :=
  store ++ [⟨Int32.ofInt friendModel.id, some friendModel.username⟩]

def isExistConversation (store : List Conversation) (accountBId : Int) : Bool :=
  store.any fun conversation => conversation.accountBId.toInt == accountBId

end ConversationEntity

/-- `tableView(_:didSelectRowAt:)` on a row that shows the friend. -/
def ContactViewController.didSelectRow (store : List Conversation) (friend : FriendModel) :
    List Conversation :=
  if !ConversationEntity.isExistConversation store friend.id then
    ConversationEntity.addConversation store friend
  else store

namespace LocalStore

structure State where
  friends : List Friend
  conversations : List Conversation
  /-- The field `friends` of every contact list of the process. -/
  lists : List (List FriendModel)
  deriving DecidableEq

def State.init : State := ⟨[], [], []⟩

/-- The response to the `syncContacts` of a list. -/
def synced (s : State) (list : Nat) (response : DataResponse) : Option State :=
  match FriendDataManager.fetchFriends s.friends response with
  | some (store, 0) => some { s with friends := store }
  | some (store, _ + 1) =>
    (FriendEntity.getFriends store).map fun values =>
      { s with friends := store, lists := s.lists.set list values }
  | none =>
    -- The process ends in the loop; an item that traps adds nothing (`addUnlessSame_trap`).
    let items := (response.value.bind Json.asArray).getD []
    some { s with friends := Runs.reached FriendDataManager.fetchItem s.friends items, lists := [] }

inductive Event
  | restart
  /-- `viewDidLoad` of a new contact list. -/
  | contacts
  | synced (list : Nat) (response : DataResponse)
  | refreshed (response : DataResponse)
  | selected (list row : Nat)
  /-- A screen asks for the language of a conversation's friend. -/
  | language (conversation : Conversation)

def step (s : State) : Event → Option State
  | .restart => some { s with lists := [] }
  | .contacts =>
    (FriendEntity.getFriends s.friends).map fun friends => { s with lists := s.lists ++ [friends] }
  | .synced list response => LocalStore.synced s list response
  | .refreshed response =>
    (FriendDataManager.updateLanguageFriends s.friends response).map fun r =>
      { s with friends := r.1 }
  | .selected list row => do
    let friends ← s.lists[list]?
    let friend ← friends[row]?
    some { s with conversations := ContactViewController.didSelectRow s.conversations friend }
  | .language conversation =>
    (FriendEntity.getFriendLanguage s.friends conversation.accountBId.toInt).map fun _ => s

/-- Refreshes do not trap, rows are those of a list, and screens ask about stored conversations. -/
def Enabled (s : State) : Event → Prop
  | .restart | .contacts => True
  | .synced list _ => list < s.lists.length
  | .refreshed response => FriendDataManager.updateLanguageFriends s.friends response ≠ none
  | .selected list row => ∃ friends, s.lists[list]? = some friends ∧ row < friends.length
  | .language conversation => conversation ∈ s.conversations

instance (s : State) (e : Event) : Decidable (Enabled s e) :=
  match e with
  | .restart | .contacts => isTrue trivial
  | .synced list _ => inferInstanceAs (Decidable (list < s.lists.length))
  | .refreshed response =>
    inferInstanceAs (Decidable (FriendDataManager.updateLanguageFriends s.friends response ≠ none))
  | .selected list row =>
    match h : s.lists[list]? with
    | some friends => decidable_of_iff (row < friends.length) (by simp [Enabled, h])
    | none => isFalse (by simp [Enabled, h])
  | .language conversation => inferInstanceAs (Decidable (conversation ∈ s.conversations))

/-- Every friend has at most one conversation, and every conversation a friend with a language. -/
structure Intact (s : State) : Prop where
  single : (s.conversations.map (·.accountBId)).Nodup
  befriended : ∀ c ∈ s.conversations,
    ∃ friend ∈ s.friends, friend.id = c.accountBId ∧ friend.language ≠ none
  answered : ∀ c ∈ s.conversations,
    FriendEntity.getFriendLanguage s.friends c.accountBId.toInt ≠ none

/-! ## What the operations do to the friends -/

/-- An item on which the loop traps has added nothing before. -/
theorem addUnlessSame_trap {value : List (String × Json)} {store store' store'' : List Friend}
    {friend friend' : FriendModel} (h : FriendDataManager.addUnlessSame value store friend = none)
    (h' : FriendDataManager.addUnlessSame value store' friend' = some store'') : store'' = store' := by
  unfold FriendDataManager.addUnlessSame at h h'
  obtain ⟨id, hid, h'⟩ := Option.bind_eq_some_iff.mp h'
  rw [hid, Option.bind_eq_bind, Option.bind_some] at h
  split at h
  · -- the fields cannot be read, so the other pass did not read them either
    have hnone : friendModel value = none := by
      rw [Option.eq_none_iff_forall_not_mem]
      simpa [Option.bind_eq_none_iff] using h
    rw [hnone] at h'
    split at h'
    · cases h'
    · exact (Option.some.inj h').symm
  · cases h

/-- The friends after an operation: all are complete, and those stored before still are. -/
structure Keeps (store store' : List Friend) : Prop where
  complete : ∀ friend ∈ store', friend.Complete
  ids : store.map (·.id.toInt) ⊆ store'.map (·.id.toInt)

theorem Keeps.trans {store store' store'' : List Friend} (h : Keeps store store')
    (h' : Keeps store' store'') : Keeps store store'' :=
  ⟨h'.complete, List.Subset.trans h.ids h'.ids⟩

theorem Keeps.refl {store : List Friend} (hcomplete : ∀ friend ∈ store, friend.Complete) :
    Keeps store store :=
  ⟨hcomplete, List.Subset.refl _⟩

/-- A loop over response items keeps what its body keeps. -/
theorem keeps_reached (body : List Friend → Json → Option (List Friend))
    (hbody : ∀ {store store' item}, (∀ friend ∈ store, friend.Complete) →
      body store item = some store' → Keeps store store')
    {store : List Friend} (hcomplete : ∀ friend ∈ store, friend.Complete) (items : List Json) :
    Keeps store (Runs.reached body store items) :=
  Runs.reached_ok (fun _ _ _ hkeeps hstep => hkeeps.trans (hbody hkeeps.complete hstep))
    (Keeps.refl hcomplete) items

theorem keeps_fetchItem {store store' : List Friend} {item : Json}
    (hcomplete : ∀ friend ∈ store, friend.Complete)
    (h : FriendDataManager.fetchItem store item = some store') : Keeps store store' := by
  obtain ⟨ms, hms, rfl⟩ := (complete_iff_records store).mp hcomplete
  obtain ⟨entries, id, rfl, hread⟩ := FriendDataManager.readable_of_fetchItem hms h
  obtain ⟨ms', hms', hstep, hids⟩ := FriendDataManager.fetchItem_of_readable hms hread
  obtain rfl : ms'.map FriendModel.record = store' := Option.some.inj (hstep.symm.trans h)
  refine ⟨(complete_iff_records _).mpr ⟨ms', hms', rfl⟩, ?_⟩
  rw [FriendSync.record_ids hms, FriendSync.record_ids hms']
  exact fun x hx => (hids x).mpr (List.mem_append_left _ hx)

theorem keeps_fetchFriends {store store' : List Friend} {response : DataResponse} {calls : Nat}
    (hcomplete : ∀ friend ∈ store, friend.Complete)
    (h : FriendDataManager.fetchFriends store response = some (store', calls)) :
    Keeps store store' := by
  have hsame := Keeps.refl hcomplete
  unfold FriendDataManager.fetchFriends at h
  split at h
  · exact (Prod.mk.inj (Option.some.inj h)).1 ▸ hsame
  · split at h
    · split at h
      · simp only [Option.bind_eq_bind, Option.bind_eq_some_iff, Option.some.injEq] at h
        obtain ⟨items, -, merged, hmerged, hpair⟩ := h
        obtain ⟨rfl, -⟩ := Prod.mk.inj hpair
        rw [← Runs.reached_of_foldlM hmerged]
        exact keeps_reached FriendDataManager.fetchItem keeps_fetchItem hcomplete items
      · exact (Prod.mk.inj (Option.some.inj h)).1 ▸ hsame
    · exact (Prod.mk.inj (Option.some.inj h)).1 ▸ hsame

theorem keeps_updateItem {store store' : List Friend} {item : Json}
    (hcomplete : ∀ friend ∈ store, friend.Complete)
    (h : FriendDataManager.updateItem store item = some store') : Keeps store store' := by
  refine ⟨?_, (FriendDataManager.updateItem_ids h) ▸ List.Subset.refl _⟩
  simp only [FriendDataManager.updateItem, Option.bind_eq_bind, Option.bind_eq_some_iff] at h
  obtain ⟨-, -, language, -, id, -, hupdate⟩ := h
  obtain ⟨before, friend, after, rfl, rfl, -⟩ := updateFriend_spec hupdate
  rw [List.forall_mem_append, List.forall_mem_cons] at hcomplete ⊢
  obtain ⟨hbefore, ⟨hphoto, husername, hphone, -⟩, hafter⟩ := hcomplete
  exact ⟨hbefore, ⟨hphoto, husername, hphone, Option.some_ne_none _⟩, hafter⟩

/-- A refresh that does not trap changes the friends item by item. -/
theorem updateLanguageFriends_reached {store store' : List Friend} {response : DataResponse}
    {calls : Nat} (h : FriendDataManager.updateLanguageFriends store response = some (store', calls)) :
    ∃ items, Runs.reached FriendDataManager.updateItem store items = store' := by
  unfold FriendDataManager.updateLanguageFriends at h
  split at h
  · simp only [Option.bind_eq_bind, Option.bind_eq_some_iff, Option.some.injEq] at h
    obtain ⟨items, -, updated, hupdated, hpair⟩ := h
    obtain ⟨rfl, -⟩ := Prod.mk.inj hpair
    exact ⟨items, Runs.reached_of_foldlM hupdated⟩
  · exact ⟨[], (Prod.mk.inj (Option.some.inj h)).1⟩

/-- Complete friends are read back, with the ids of the records. -/
theorem getFriends_complete {store : List Friend} (hcomplete : ∀ friend ∈ store, friend.Complete) :
    ∃ models, FriendEntity.getFriends store = some models ∧
      ∀ m ∈ models, m.Fits ∧ m.id ∈ store.map (·.id.toInt) := by
  obtain ⟨ms, hms, rfl⟩ := (complete_iff_records store).mp hcomplete
  refine ⟨ms, getFriends_records hms, fun m hm => ⟨hms m hm, ?_⟩⟩
  rw [FriendSync.record_ids hms]
  exact List.mem_map_of_mem hm

/-! ## Runs -/

structure Inv (s : State) : Prop where
  complete : ∀ friend ∈ s.friends, friend.Complete
  lists : ∀ list ∈ s.lists, ∀ m ∈ list, m.Fits ∧ m.id ∈ s.friends.map (·.id.toInt)
  single : (s.conversations.map (·.accountBId)).Nodup
  befriended : ∀ c ∈ s.conversations, c.accountBId.toInt ∈ s.friends.map (·.id.toInt)

theorem init_inv : Inv State.init := by
  refine ⟨?_, ?_, ?_, ?_⟩ <;> simp [State.init]

theorem Inv.intact {s : State} (h : Inv s) : Intact s where
  single := h.single
  befriended := by
    intro c hc
    obtain ⟨friend, hfriend, hid⟩ := List.mem_map.mp (h.befriended c hc)
    exact ⟨friend, hfriend, Int32.toInt.inj hid, (h.complete friend hfriend).2.2.2⟩
  answered := by
    intro c hc
    obtain ⟨language, hlanguage⟩ := getFriendLanguage_stored h.complete (h.befriended c hc)
    rw [hlanguage]
    exact Option.some_ne_none _

/-- Friends that grow and lists that are dropped keep the invariant. -/
theorem Inv.grow {s : State} (h : Inv s) {store : List Friend} (hkeeps : Keeps s.friends store)
    {lists : List (List FriendModel)}
    (hlists : ∀ list ∈ lists, ∀ m ∈ list, m.Fits ∧ m.id ∈ store.map (·.id.toInt)) :
    Inv { s with friends := store, lists } where
  complete := hkeeps.complete
  lists := hlists
  single := h.single
  befriended := fun c hc => hkeeps.ids (h.befriended c hc)

theorem Inv.lists_grow {s : State} (h : Inv s) {store : List Friend} (hkeeps : Keeps s.friends store) :
    ∀ list ∈ s.lists, ∀ m ∈ list, m.Fits ∧ m.id ∈ store.map (·.id.toInt) :=
  fun list hlist m hm => (h.lists list hlist m hm).imp_right fun hid => hkeeps.ids hid

theorem inv_synced {s : State} (h : Inv s) (list : Nat) (response : DataResponse) :
    ∃ s', synced s list response = some s' ∧ Inv s' := by
  unfold synced
  split
  · next store hfetch =>
    have hkeeps := keeps_fetchFriends h.complete hfetch
    exact ⟨_, rfl, h.grow hkeeps (h.lists_grow hkeeps)⟩
  · next store calls hfetch =>
    have hkeeps := keeps_fetchFriends h.complete hfetch
    obtain ⟨values, hvalues, hstored⟩ := getFriends_complete hkeeps.complete
    exact ⟨_, by rw [hvalues, Option.map_some],
      h.grow hkeeps (Swift.forall_mem_set (h.lists_grow hkeeps) hstored _)⟩
  · have hkeeps := keeps_reached FriendDataManager.fetchItem keeps_fetchItem h.complete
    exact ⟨_, rfl, h.grow (hkeeps _) (by simp)⟩

/-- A selected row makes a conversation with a stored friend that has none. -/
theorem inv_selected {s : State} (h : Inv s) {friend : FriendModel} (hfits : friend.Fits)
    (hid : friend.id ∈ s.friends.map (·.id.toInt)) :
    Inv { s with
      conversations := ContactViewController.didSelectRow s.conversations friend } := by
  unfold ContactViewController.didSelectRow ConversationEntity.isExistConversation
  split
  · next hnew =>
    have hrecord : (Int32.ofInt friend.id).toInt = friend.id := FriendModel.toInt_record hfits
    refine ⟨h.complete, h.lists, ?_, ?_⟩
    · refine Requests.nodup_snoc h.single fun hmem => ?_
      obtain ⟨c, hc, hsame⟩ := List.mem_map.mp hmem
      have hother : c.accountBId.toInt ≠ friend.id := by
        simp only [Bool.not_eq_eq_eq_not, Bool.not_true, List.any_eq_false, beq_iff_eq] at hnew
        exact hnew c hc
      exact hother (by rw [hsame, hrecord])
    · show ∀ c ∈ s.conversations ++ [_], _
      rw [List.forall_mem_append, List.forall_mem_singleton, hrecord]
      exact ⟨h.befriended, hid⟩
  · exact h

theorem step_inv (s : State) (e : Event) (h : Inv s) (he : Enabled s e) :
    ∃ s', step s e = some s' ∧ Inv s' := by
  cases e with
  | restart => exact ⟨_, rfl, h.complete, by simp, h.single, h.befriended⟩
  | contacts =>
    obtain ⟨friends, hfriends, hstored⟩ := getFriends_complete h.complete
    refine ⟨{ s with lists := s.lists ++ [friends] }, ?_, h.complete, ?_, h.single, h.befriended⟩
    · simp only [step, hfriends, Option.map_some]
    · rw [List.forall_mem_append, List.forall_mem_singleton]
      exact ⟨h.lists, hstored⟩
  | synced list response => exact inv_synced h list response
  | refreshed response =>
    obtain ⟨⟨store, calls⟩, hupdate⟩ := Option.ne_none_iff_exists'.mp he
    obtain ⟨items, rfl⟩ := updateLanguageFriends_reached hupdate
    have hkeeps := keeps_reached FriendDataManager.updateItem keeps_updateItem h.complete items
    exact ⟨_, by simp only [step, hupdate, Option.map_some], h.grow hkeeps (h.lists_grow hkeeps)⟩
  | selected list row =>
    obtain ⟨friends, hfriends, hrow⟩ := he
    obtain ⟨hfits, hid⟩ := h.lists friends (List.mem_of_getElem? hfriends) friends[row]
      (List.getElem_mem hrow)
    refine ⟨_, ?_, inv_selected h hfits hid⟩
    simp only [step, hfriends, List.getElem?_eq_getElem hrow, Option.bind_eq_bind, Option.bind_some]
  | language conversation =>
    obtain ⟨language, hlanguage⟩ :=
      getFriendLanguage_stored h.complete (h.befriended conversation he)
    exact ⟨s, by simp only [step, hlanguage, Option.map_some], h⟩

/-- A contact list that loads changes nothing else. -/
theorem contacts_frame {s s' : State} (h : step s .contacts = some s') :
    s'.friends = s.friends ∧ s'.conversations = s.conversations := by
  obtain ⟨friends, -, rfl⟩ := Option.map_eq_some_iff.mp h
  exact ⟨rfl, rfl⟩

/-- A selected row changes the conversations only. -/
theorem selected_frame {s s' : State} {list row : Nat} (h : step s (.selected list row) = some s') :
    ∃ friends friend, s.lists[list]? = some friends ∧ friends[row]? = some friend ∧
      s' = { s with
        conversations := ContactViewController.didSelectRow s.conversations friend } := by
  simp only [step, Option.bind_eq_bind, Option.bind_eq_some_iff, Option.some.injEq] at h
  obtain ⟨friends, hfriends, friend, hfriend, rfl⟩ := h
  exact ⟨friends, friend, hfriends, hfriend, rfl⟩

/-- The response to a sync leaves the conversations. -/
theorem synced_frame {s s' : State} {list : Nat} {response : DataResponse}
    (h : synced s list response = some s') : s'.conversations = s.conversations := by
  unfold synced at h
  split at h
  · obtain rfl := Option.some.inj h
    rfl
  · obtain ⟨values, -, rfl⟩ := Option.map_eq_some_iff.mp h
    rfl
  · obtain rfl := Option.some.inj h
    rfl

/-- From the empty store, in every run, no screen traps on a language and the store is intact. -/
theorem intact_run (run : Runs.Schedule step Enabled State.init) :
    (∃ s, Runs.exec step State.init run.events = some s) ∧
      Runs.Throughout step Intact State.init run.events :=
  Runs.run_ok step_inv (fun _ => Inv.intact) init_inv run.enabled

/-- A contact list is opened, its response brings two friends, rows of it are tapped, one twice; after
    a restart a refresh brings another language. -/
def twoFriends : List Event :=
  let bo : FriendModel := ⟨3, "3.jpg", "bo", "+3", "en"⟩
  let cy : FriendModel := ⟨4, "4.jpg", "cy", "+4", "fr"⟩
  [.contacts, .synced 0 ⟨some 200, some (.array [FriendSync.object bo, FriendSync.object cy])⟩,
   .selected 0 1, .selected 0 0, .selected 0 1, .language ⟨4, some "cy"⟩, .restart,
   .refreshed ⟨some 200, some (.array [FriendSync.object { bo with language := "de" }])⟩,
   .language ⟨3, some "bo"⟩]

theorem intact_twoFriends :
    (Runs.exec step State.init twoFriends).map
        (fun s => (s.friends.map (·.language), s.conversations)) =
      some ([some "de", some "fr"], [⟨4, some "cy"⟩, ⟨3, some "bo"⟩]) ∧
    Runs.Throughout step Intact State.init twoFriends :=
  ⟨by decide, (intact_run ⟨twoFriends, by decide⟩).2⟩

end LocalStore

end Shiftgram
