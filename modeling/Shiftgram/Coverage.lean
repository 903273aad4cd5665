import Shiftgram.App

/- Which conversations can ring. The Menu registers its observers when it is loaded, for the
   conversations stored by then and under the user's id at that moment; conversations are created
   later, from one of its tabs, and the app delegate reads them anew only in the background.

   In every state with a Menu, all conversations are observed exactly if none was created since a Menu
   was last constructed; so a run keeps them observed exactly if no row of the contact list is
   selected for a friend without a conversation (`rings_iff`). -/
namespace Shiftgram

namespace App

/-- A live Menu observes the conversation, for both kinds and under the name built from the current
    user's id. -/
def Observed (s : State) (conversation : Conversation) : Prop :=
  ∃ menu ∈ s.menus, ∀ kind, ∃ o ∈ menu.observers, o.kind = kind ∧ o.conversation = conversation ∧
    MenuViewController.conversationName (UserEntity.getUserId s.users) conversation.accountBId =
      some o.conversationName

/-- Where a Menu is on screen, every stored conversation can ring. -/
def Rings (s : State) : Prop := s.menus ≠ [] → ∀ c ∈ s.store.conversations, Observed s c

/-- The event creates no conversation: a selected friend has one already. -/
def Settled (s : State) : Event → Prop
  | .tab (.didSelectContact list row) =>
    ∀ friends, s.store.lists[list]? = some friends → ∀ friend, friends[row]? = some friend →
      ConversationEntity.isExistConversation s.store.conversations friend.id = true
  | _ => True

/-- What the live Menus observe. -/
structure Watch (s : State) : Prop where
  observers : ∀ m ∈ s.menus, ∀ o ∈ m.observers,
    o.conversation ∈ s.store.conversations ∧ o.conversation ∉ s.created
  observed : s.menus ≠ [] → ∀ c ∈ s.store.conversations, c ∉ s.created → Observed s c
  created : s.created ⊆ s.store.conversations
  idle : s.menus = [] → s.created = []

variable {s s' : State} {e : Event}

theorem init_watch : Watch State.init := by
  refine ⟨?_, ?_, ?_, ?_⟩ <;> simp [State.init]

/-- All conversations are observed exactly if none was created since a Menu was constructed. -/
theorem Watch.rings_created (h : Watch s) : Rings s ↔ s.created = [] := by
  refine ⟨fun hrings => ?_, fun hnil hmenus c hc => h.observed hmenus c hc (by simp [hnil])⟩
  by_cases hmenus : s.menus = []
  · exact h.idle hmenus
  · rw [List.eq_nil_iff_forall_not_mem]
    intro c hc
    obtain ⟨menu, hmenu, hkinds⟩ := hrings hmenus c (h.created hc)
    obtain ⟨o, ho, -, rfl, -⟩ := hkinds .video
    exact (h.observers menu hmenu o ho).2 hc

/-- A step that leaves the Menus, the conversations and the user's id. -/
structure Still (s s' : State) : Prop where
  menus : s'.menus = s.menus
  conversations : s'.store.conversations = s.store.conversations
  created : s'.created = s.created
  userId : UserEntity.getUserId s'.users = UserEntity.getUserId s.users

theorem Watch.still (h : Watch s) (hs : Still s s') : Watch s' := by
  have hobserved : ∀ c, Observed s' c ↔ Observed s c := by
    intro c
    unfold Observed
    rw [hs.menus, hs.userId]
  obtain ⟨hobservers, hcovered, hcreated, hidle⟩ := h
  refine ⟨?_, ?_, ?_, ?_⟩
  · rw [hs.menus, hs.conversations, hs.created]
    exact hobservers
  · simp only [hs.menus, hs.conversations, hs.created, hobserved]
    exact hcovered
  · rw [hs.conversations, hs.created]
    exact hcreated
  · rw [hs.menus, hs.created]
    exact hidle

/-- The process ends with the observers of its Menus. -/
theorem watch_ended (s : State) : Watch s.ended := by
  refine ⟨?_, ?_, ?_, ?_⟩ <;> simp [State.ended]

/-! ## A new Menu -/

/-- The loop over the conversations observes each of them, and no other. -/
theorem mem_observe {userId : Int32} {conversations : List Conversation} {kind : CallKind}
    {observers : List Observer} (h : observe userId conversations kind = some observers) :
    (∀ o ∈ observers, o.conversation ∈ conversations) ∧
      ∀ c ∈ conversations, ∃ o ∈ observers, o.kind = kind ∧ o.conversation = c ∧
        MenuViewController.conversationName userId c.accountBId = some o.conversationName := by
  unfold observe at h
  induction conversations generalizing observers with
  | nil =>
    obtain rfl := Option.some.inj h
    simp
  | cons c conversations ih =>
    simp only [List.mapM_cons, Option.bind_eq_bind, Option.bind_eq_some_iff, Option.map_eq_some_iff,
      Option.pure_def, Option.some.injEq] at h
    obtain ⟨o, ⟨name, hname, rfl⟩, rest, hrest, rfl⟩ := h
    obtain ⟨honly, hall⟩ := ih hrest
    refine ⟨?_, ?_⟩
    · rw [List.forall_mem_cons]
      exact ⟨List.mem_cons_self, fun o ho => List.mem_cons_of_mem _ (honly o ho)⟩
    · rw [List.forall_mem_cons]
      refine ⟨⟨_, List.mem_cons_self, rfl, rfl, hname⟩, fun c' hc' => ?_⟩
      obtain ⟨o, ho, hrest⟩ := hall c' hc'
      exact ⟨o, List.mem_cons_of_mem _ ho, hrest⟩

theorem watch_openMenu (h : Watch s) : Watch s.openMenu := by
  rcases openMenu_cases s with ⟨video, audio, hvideo, haudio, hopened⟩ | hended
  · obtain ⟨hvideoOnly, hvideoAll⟩ := mem_observe hvideo
    obtain ⟨haudioOnly, haudioAll⟩ := mem_observe haudio
    rw [hopened]
    refine ⟨?_, ?_, List.nil_subset _, fun _ => rfl⟩
    · rw [List.forall_mem_append, List.forall_mem_singleton, List.forall_mem_append]
      simp only [List.not_mem_nil, not_false_eq_true, and_true]
      exact ⟨fun m hm o ho => (h.observers m hm o ho).1, hvideoOnly, haudioOnly⟩
    · -- the new Menu alone observes every conversation
      intro _ c hc _
      refine ⟨_, List.mem_append_right _ (List.mem_singleton_self _), fun kind => ?_⟩
      cases kind with
      | video =>
        obtain ⟨o, ho, hrest⟩ := hvideoAll c hc
        exact ⟨o, List.mem_append_left _ ho, hrest⟩
      | audio =>
        obtain ⟨o, ho, hrest⟩ := haudioAll c hc
        exact ⟨o, List.mem_append_right _ ho, hrest⟩
  · rw [hended]
    exact watch_ended s

/-! ## A new conversation -/

/-- A conversation added behind the Menus is one more that was created. -/
theorem Watch.add (h : Watch s) {store : LocalStore.State} {c : Conversation}
    (hmenus : s.menus ≠ []) (hstore : store.conversations = s.store.conversations ++ [c])
    (hsingle : (store.conversations.map (·.accountBId)).Nodup) :
    Watch { s with store, created := s.created ++ [c] } := by
  have hnew : ∀ c' ∈ s.store.conversations, c' ≠ c := by
    rintro c' hc' rfl
    rw [hstore, List.map_append, List.nodup_append] at hsingle
    exact hsingle.2.2 _ (List.mem_map_of_mem hc') _ (by simp) rfl
  refine ⟨?_, ?_, ?_, fun hnil => absurd hnil hmenus⟩
  · intro m hm o ho
    obtain ⟨hstored, hold⟩ := h.observers m hm o ho
    show _ ∈ store.conversations ∧ _ ∉ s.created ++ [c]
    rw [hstore, List.mem_append, List.mem_append, List.mem_singleton]
    exact ⟨Or.inl hstored, fun hor => hor.elim hold (hnew _ hstored)⟩
  · intro _ c' hc' hold
    replace hold : c' ∉ s.created ++ [c] := hold
    rw [List.mem_append, not_or, List.mem_singleton] at hold
    replace hc' : c' ∈ store.conversations := hc'
    rw [hstore, List.mem_append, List.mem_singleton, or_iff_left hold.2] at hc'
    exact h.observed hmenus c' hc' hold.1
  · show s.created ++ [c] ⊆ store.conversations
    rw [hstore]
    exact List.append_subset.mpr ⟨List.subset_append_of_subset_left _ h.created,
      List.subset_append_right _ _⟩

/-- A selected row creates a conversation exactly if the friend has none. -/
theorem watch_selected (h : Watch s) {t : State} (ht : Still s t) (hmenus : s.menus ≠ [])
    {list row : Nat} {store : LocalStore.State}
    (hstore : LocalStore.step s.store (.selected list row) = some store)
    (hsingle : (store.conversations.map (·.accountBId)).Nodup) :
    let created := t.created ++ store.conversations.drop s.store.conversations.length
    Watch { t with store, created } ∧
      (s.created = [] → (created = [] ↔ Settled s (.tab (.didSelectContact list row)))) := by
  obtain ⟨friends, friend, hfriends, hfriend, rfl⟩ := LocalStore.selected_frame hstore
  have hsettled : Settled s (.tab (.didSelectContact list row)) ↔
      ConversationEntity.isExistConversation s.store.conversations friend.id = true := by
    simp [Settled, hfriends, hfriend]
  rw [hsettled]
  cases hexist : ConversationEntity.isExistConversation s.store.conversations friend.id with
  | true =>
    have hsame : ContactViewController.didSelectRow s.store.conversations friend =
        s.store.conversations := by
      simp [ContactViewController.didSelectRow, hexist]
    simp only [hsame, List.drop_length, List.append_nil, ht.created]
    exact ⟨h.still ⟨ht.menus, rfl, rfl, ht.userId⟩, by simp⟩
  | false =>
    have hadd : ContactViewController.didSelectRow s.store.conversations friend =
        s.store.conversations ++ [⟨Int32.ofInt friend.id, some friend.username⟩] := by
      simp [ContactViewController.didSelectRow, hexist, ConversationEntity.addConversation]
    simp only [hadd, List.drop_left] at hsingle ⊢
    refine ⟨(h.still ht).add (ht.menus ▸ hmenus) ?_ hsingle, by simp⟩
    rw [ht.conversations]

/-! ## Steps and runs -/

/-- Without an account there are no conversations. -/
theorem conversations_nil (h : Inv s) (hzero : s.accounts = 0) : s.store.conversations = [] := by
  have hfriends : s.store.friends = [] := by
    by_contra hne
    exact absurd (h.signed (Or.inl hne)) (by omega)
  rw [List.eq_nil_iff_forall_not_mem]
  intro c hc
  have hmem := h.store.befriended c hc
  rw [hfriends] at hmem
  exact List.not_mem_nil hmem

theorem watch_accountCreated (h : Inv s) (hw : Watch s) {k : Nat} {languageCode : String}
    {response : DataResponse} (hs' : s.accountCreated k languageCode response = some s') :
    Watch s' ∧ (s.created = [] → s'.created = []) := by
  obtain ⟨phone, -, rfl⟩ := Option.map_eq_some_iff.mp hs'
  split
  · next users calls hadd =>
    refine ⟨?_, id⟩
    by_cases hzero : s.accounts = 0
    · -- the first account finds no conversations
      refine ⟨hw.observers, fun _ c hc => ?_, hw.created, hw.idle⟩
      exact absurd (conversations_nil h hzero ▸ hc) List.not_mem_nil
    · have hne : s.users ≠ [] := by
        intro hnil
        exact hzero (by rw [← h.count, hnil, List.length_nil])
      simp only [UserDataManager.addAccount, Option.bind_eq_bind, Option.bind_eq_some_iff,
        Option.some.injEq, Prod.mk.injEq] at hadd
      obtain ⟨-, -, id, -, rfl, -⟩ := hadd
      exact hw.still ⟨rfl, rfl, rfl, getUserId_addUser hne languageCode id phone⟩
  · exact ⟨watch_ended s, fun _ => rfl⟩

theorem watch_handle (h : Inv s) (hw : Watch s) {handler : Handler} (he : Enabled s (.tab handler))
    (hs' : step s (.tab handler) = some s') :
    Watch s' ∧ (s.created = [] → (s'.created = [] ↔ Settled s (.tab handler))) := by
  let t : State := { s with handled := s.handled ++ [s.users.length] }
  have ht : Still s t := ⟨rfl, rfl, rfl, rfl⟩
  have hstill : ∀ {s'}, Still s s' → Settled s (.tab handler) →
      Watch s' ∧ (s.created = [] → (s'.created = [] ↔ Settled s (.tab handler))) := by
    intro s' hs' hsettled
    exact ⟨hw.still hs', fun hnil => by rw [hs'.created]; exact ⟨fun _ => hsettled, fun _ => hnil⟩⟩
  cases handler with
  | viewDidLoad tab =>
    cases tab with
    | contacts =>
      obtain ⟨store, hstore, rfl⟩ := Option.map_eq_some_iff.mp hs'
      obtain ⟨-, hconversations⟩ := LocalStore.contacts_frame hstore
      exact hstill ⟨rfl, hconversations, rfl, rfl⟩ trivial
    | conversations => exact Option.some.inj hs' ▸ hstill ht trivial
    | settings => exact Option.some.inj hs' ▸ hstill ht trivial
  | btnSyncPressed menu list =>
    obtain ⟨m, -, rfl⟩ := Option.map_eq_some_iff.mp hs'
    split
    · next users hupdate =>
      have hid : UserEntity.getUserId users = UserEntity.getUserId s.users := by
        refine getUserId_updateUser ?_ hupdate
        exact fun _ => rfl
      exact hstill ⟨rfl, rfl, rfl, hid⟩ trivial
    · exact ⟨(watch_ended s).still ⟨rfl, rfl, rfl, rfl⟩, fun _ => ⟨fun _ => trivial, fun _ => rfl⟩⟩
  | didSelectContact list row =>
    obtain ⟨store, hstore, rfl⟩ := Option.map_eq_some_iff.mp hs'
    obtain ⟨store', hstore', hinv⟩ := LocalStore.step_inv s.store (.selected list row) h.store he.2
    obtain rfl : store' = store := Option.some.inj (hstore'.symm.trans hstore)
    exact watch_selected hw ht he.1 hstore hinv.single
  | btnsyncPressed => exact Option.some.inj hs' ▸ hstill ht trivial
  | didSelectConversation conversation =>
    simp only [step, State.handle] at hs'
    split at hs'
    · exact Option.some.inj hs' ▸ hstill ⟨rfl, rfl, rfl, rfl⟩ trivial
    · obtain rfl := Option.some.inj hs'
      exact ⟨watch_ended t, fun _ => ⟨fun _ => trivial, fun _ => rfl⟩⟩
  | btnLanguagePressed => exact Option.some.inj hs' ▸ hstill ht trivial

/-- One step keeps the watch, and creates a conversation exactly if it is not settled. -/
theorem watch_step (h : Inv s) (hw : Watch s) (he : Enabled s e) (hs' : step s e = some s') :
    Watch s' ∧ (s.created = [] → (s'.created = [] ↔ Settled s e)) := by
  have hquiet : ∀ {t : State}, Watch t → (s.created = [] → t.created = []) → Settled s e →
      Watch t ∧ (s.created = [] → (t.created = [] ↔ Settled s e)) :=
    fun hwatch hcreated hsettled => ⟨hwatch, fun hnil => iff_of_true (hcreated hnil) hsettled⟩
  have hended : ∀ t : State, Settled s e →
      Watch t.ended ∧ (s.created = [] → (t.ended.created = [] ↔ Settled s e)) :=
    fun t => hquiet (watch_ended t) fun _ => rfl
  have hopened : ∀ t : State, Still s t → Settled s e →
      Watch t.openMenu ∧ (s.created = [] → (t.openMenu.created = [] ↔ Settled s e)) := by
    intro t ht
    refine hquiet (watch_openMenu (hw.still ht)) fun _ => ?_
    unfold State.openMenu
    split <;> rfl
  cases e with
  | launch =>
    obtain rfl := Option.some.inj hs'
    split
    · exact hopened _ ⟨rfl, rfl, rfl, rfl⟩ trivial
    · exact hquiet (hw.still ⟨rfl, rfl, rfl, rfl⟩) id trivial
  | terminate =>
    obtain rfl := Option.some.inj hs'
    exact hended s trivial
  | registerBtnPressed phone =>
    obtain rfl := Option.some.inj hs'
    exact hquiet (hw.still ⟨rfl, rfl, rfl, rfl⟩) id trivial
  | uploaded k =>
    obtain ⟨phone, -, rfl⟩ := Option.map_eq_some_iff.mp hs'
    exact hopened _ ⟨rfl, rfl, rfl, rfl⟩ trivial
  | accountCreated k languageCode response =>
    obtain ⟨hwatch, hcreated⟩ := watch_accountCreated h hw hs'
    exact hquiet hwatch hcreated trivial
  | navigateToVideo =>
    obtain rfl := Option.some.inj hs'
    exact hopened s ⟨rfl, rfl, rfl, rfl⟩ trivial
  | tab handler => exact watch_handle h hw he hs'
  | synced k response =>
    simp only [step, State.synced, Option.bind_eq_bind, Option.bind_eq_some_iff] at hs'
    obtain ⟨list, -, store, hstore, hs'⟩ := hs'
    split at hs'
    · obtain rfl := Option.some.inj hs'
      exact hended _ trivial
    · obtain rfl := Option.some.inj hs'
      exact hquiet (hw.still ⟨rfl, LocalStore.synced_frame hstore, rfl, rfl⟩) id trivial
  | menuLanguageUpdated menu =>
    obtain ⟨m, -, rfl⟩ := Option.map_eq_some_iff.mp hs'
    exact hquiet (hw.still ⟨rfl, rfl, rfl, rfl⟩) id trivial
  | chatLanguageUpdated screen =>
    obtain ⟨c, -, rfl⟩ := Option.map_eq_some_iff.mp hs'
    exact hquiet (hw.still ⟨rfl, rfl, rfl, rfl⟩) id trivial
  | refreshed response =>
    obtain rfl := Option.some.inj hs'
    unfold State.refreshed
    split
    · exact hquiet (hw.still ⟨rfl, rfl, rfl, rfl⟩) id trivial
    · exact hended _ trivial
  | call =>
    obtain rfl := Option.some.inj hs'
    exact hquiet (hw.still ⟨rfl, rfl, rfl, rfl⟩) id trivial
  | friendId screen conversationName =>
    obtain ⟨c, -, rfl⟩ := Option.map_eq_some_iff.mp hs'
    split
    · exact hended _ trivial
    · exact hquiet (hw.still ⟨rfl, rfl, rfl, rfl⟩) id trivial

/-- In every state of a run the stored conversations can ring exactly if none was created since a
    Menu was constructed, and throughout a run exactly if none is created. -/
theorem rings_iff (run : Runs.Schedule step Enabled State.init) :
    (∃ s, Runs.exec step State.init run.events = some s) ∧
      Runs.Throughout step (fun s => Rings s ↔ s.created = []) State.init run.events ∧
      (Runs.Throughout step Rings State.init run.events ↔
        Runs.Along step Settled State.init run.events) := by
  have hstep : ∀ s e, Inv s ∧ Watch s → Enabled s e → ∃ s', step s e = some s' ∧
      (Inv s' ∧ Watch s') ∧ (Rings s → (Rings s' ↔ Settled s e)) := by
    intro s e h he
    obtain ⟨s', hs', hinv, -⟩ := step_spec s e h.1 he
    obtain ⟨hwatch, hcreated⟩ := watch_step h.1 h.2 he hs'
    refine ⟨s', hs', ⟨hinv, hwatch⟩, fun hrings => ?_⟩
    rw [hwatch.rings_created]
    exact hcreated (h.2.rings_created.mp hrings)
  have hinit : Inv State.init ∧ Watch State.init := ⟨init_inv, init_watch⟩
  obtain ⟨hexec, hiff⟩ := Runs.throughout_iff_along hstep hinit
    (init_watch.rings_created.mpr rfl) run.enabled
  obtain ⟨-, hstates⟩ := Runs.run_ok (I := fun s => Inv s ∧ Watch s)
    (fun s e h he => (hstep s e h he).imp fun _ h => ⟨h.1, h.2.1⟩)
    (fun _ h => h.2.rings_created) hinit run.enabled
  exact ⟨hexec, hstates, hiff⟩

/-- A friend is synced after the registration, and a conversation is created. -/
def firstConversation : List Event :=
  [.launch, .registerBtnPressed "+1", .uploaded 0, .accountCreated 0 "en" ⟨some 200, some (.int 7)⟩,
    .tab (.viewDidLoad .contacts), .tab (.btnSyncPressed 0 0),
    .synced 0 ⟨some 200, some (.array [FriendSync.object ⟨3, "3.jpg", "ann", "+3", "en"⟩])⟩,
    .tab (.didSelectContact 0 0)]

/-- The Menu on screen does not observe it. -/
theorem firstConversation_silent : Runs.Along step Enabled State.init firstConversation ∧
    (Runs.exec step State.init firstConversation).map (fun s =>
      (s.store.conversations, s.menus.map (·.observers))) = some ([⟨3, some "ann"⟩], [[]]) ∧
      ¬ Runs.Throughout step Rings State.init firstConversation := by
  have hrun : (Runs.exec step State.init firstConversation).map (fun s =>
      (s.store.conversations, s.menus.map (·.observers))) = some ([⟨3, some "ann"⟩], [[]]) := by
    decide
  refine ⟨by decide, hrun, fun h => ?_⟩
  obtain ⟨s, hs, hlast⟩ := Option.map_eq_some_iff.mp hrun
  obtain ⟨hconversations, hmenus⟩ := Prod.mk.inj hlast
  obtain ⟨menu, hmenu⟩ := List.map_eq_singleton_iff.mp hmenus
  obtain ⟨m, hm, hkinds⟩ := Runs.throughout_last h hs (by rw [hmenu.1]; exact List.cons_ne_nil _ _)
    ⟨3, some "ann"⟩ (by rw [hconversations]; exact List.mem_singleton_self _)
  obtain ⟨o, ho, -⟩ := hkinds .video
  rw [hmenu.1, List.mem_singleton] at hm
  rw [hm, hmenu.2] at ho
  exact List.not_mem_nil ho

end App

end Shiftgram
