import Shiftgram.LocalStore

/- Saves that fail. The three entities share one context; each of their mutators changes it, saves it,
   and prints `Failed` where the save throws. The change is then still in the context, where the next
   fetch finds it and the next save writes it.

   `unnoticed_iff`: a failed call goes unnoticed, whatever is called afterwards, exactly if it is an
   update to what the record says already.

   Assumed of Core Data: a failed save leaves the changed objects pending in the context, fetches
   include what is pending, and a save that succeeds writes all of it. Fetches succeed. -/
namespace Shiftgram

namespace FailedSave

@[ext]
structure Tables where
  users : List User
  friends : List Friend
  conversations : List Conversation
  deriving DecidableEq, Repr

/-- What a fetch finds, and what is on disk. -/
structure Store where
  context : Tables
  persisted : Tables
  deriving DecidableEq, Repr

/-- The calls that save; `set` is `setValue(value, forKey: key)`. -/
inductive Mutator
  | addUser (languageCode : String) (id : Int) (phone : String)
  | updateUser (set : User → User)
  | addFriend (friendModel : FriendModel)
  | updateFriend (set : Friend → Friend) (id : Int)
  | addConversation (friendModel : FriendModel)

/-- The change in the context. -/
def Mutator.change (t : Tables) : Mutator → Option Tables
  | addUser languageCode id phone =>
    some { t with users := UserEntity.addUser t.users languageCode id phone }
  | updateUser set => (UserEntity.updateUser t.users set).map fun users => { t with users := users }
  | addFriend friendModel =>
    some { t with friends := FriendEntity.addFriend t.friends friendModel }
  | updateFriend set id =>
    (FriendEntity.updateFriend t.friends set id).map fun friends => { t with friends := friends }
  | addConversation friendModel =>
    some { t with
      conversations := ConversationEntity.addConversation t.conversations friendModel }

/-- A call, and whether `context.save()` returns in it. -/
structure Call where
  mutator : Mutator
  saves : Bool

def perform (s : Store) (c : Call) : Option Store :=
  (c.mutator.change s.context).map fun context =>
    if c.saves then ⟨context, context⟩
    else { s with context := context }

/-- What the readers return. -/
structure Views where
  getUserId : Int32
  isAuth : Bool
  getFriends : Option (List FriendModel)
  getFriendLanguage : Int → Option String
  getConversations : List Conversation
  isExistConversation : Int → Bool

def Store.views (s : Store) : Views where
  getUserId := UserEntity.getUserId s.context.users
  isAuth := UserEntity.isAuth s.context.users
  getFriends := FriendEntity.getFriends s.context.friends
  getFriendLanguage := FriendEntity.getFriendLanguage s.context.friends
  getConversations := s.context.conversations
  isExistConversation := ConversationEntity.isExistConversation s.context.conversations

/-- Whatever is called after the failed call, the readers return, and the disk holds, what they would
    without it. -/
def Unnoticed (s : Store) (m : Mutator) : Prop :=
  ∀ failed, perform s ⟨m, false⟩ = some failed → ∀ later : List Call,
    (Runs.exec perform failed later).map (fun s => (s.views, s.persisted)) =
      (Runs.exec perform s later).map (fun s => (s.views, s.persisted))

/-- The call updates a record to what it says already, or finds none. -/
def Idle (t : Tables) : Mutator → Prop
  | .updateUser set => ∀ user ∈ t.users.head?, set user = user
  | .updateFriend set id =>
    ∀ friend ∈ t.friends.find? fun friend => friend.id.toInt = id, set friend = friend
  | .addUser _ _ _ | .addFriend _ | .addConversation _ => False

/-! ## What a call changes -/

theorem updateUser_same (store : List User) (set : User → User) :
    (∀ store', UserEntity.updateUser store set = some store' → store' = store) ↔
      ∀ user ∈ store.head?, set user = user := by
  cases store with
  | nil => simp [UserEntity.updateUser]
  | cons user users => simp [UserEntity.updateUser]

theorem updateFriend_same (store : List Friend) (set : Friend → Friend) (id : Int) :
    (∀ store', FriendEntity.updateFriend store set id = some store' → store' = store) ↔
      ∀ friend ∈ store.find? (fun friend => friend.id.toInt = id), set friend = friend := by
  induction store with
  | nil => simp [FriendEntity.updateFriend]
  | cons friend store ih =>
    unfold FriendEntity.updateFriend
    by_cases hid : friend.id.toInt = id
    · simp [hid]
    · rw [if_neg hid, List.find?_cons_of_neg (by simpa using hid), ← ih]
      simp only [Option.map_eq_some_iff, forall_exists_index, and_imp, forall_apply_eq_imp_iff₂,
        List.cons.injEq, true_and]

/-- A call leaves the context as it is exactly if it is idle. -/
theorem change_same_iff (t : Tables) (m : Mutator) :
    (∀ t', m.change t = some t' → t' = t) ↔ Idle t m := by
  cases m with
  | addUser languageCode id phone =>
    refine iff_of_false (fun h => ?_) not_false
    simpa [UserEntity.addUser] using congrArg Tables.users (h _ rfl)
  | updateUser set =>
    rw [Idle, ← updateUser_same]
    refine ⟨fun h users husers => ?_, fun h t' ht' => ?_⟩
    · exact congrArg Tables.users (h { t with users := users } (by rw [Mutator.change, husers]; rfl))
    · obtain ⟨users, husers, rfl⟩ := Option.map_eq_some_iff.mp ht'
      rw [h users husers]
  | addFriend friendModel =>
    refine iff_of_false (fun h => ?_) not_false
    simpa [FriendEntity.addFriend] using congrArg Tables.friends (h _ rfl)
  | updateFriend set id =>
    rw [Idle, ← updateFriend_same]
    refine ⟨fun h friends hfriends => ?_, fun h t' ht' => ?_⟩
    · exact congrArg Tables.friends
        (h { t with friends := friends } (by rw [Mutator.change, hfriends]; rfl))
    · obtain ⟨friends, hfriends, rfl⟩ := Option.map_eq_some_iff.mp ht'
      rw [h friends hfriends]
  | addConversation friendModel =>
    refine iff_of_false (fun h => ?_) not_false
    simpa [ConversationEntity.addConversation] using congrArg Tables.conversations (h _ rfl)

/-- A later save of a new friend writes the rest of the context with it. -/
theorem context_of_persisted (s failed : Store) (m : FriendModel)
    (h : (perform failed ⟨.addFriend m, true⟩).map Store.persisted =
      (perform s ⟨.addFriend m, true⟩).map Store.persisted) : failed.context = s.context := by
  have htables : ({ failed.context with friends := failed.context.friends ++ [m.record] } : Tables) =
      { s.context with friends := s.context.friends ++ [m.record] } := Option.some.inj h
  obtain ⟨husers, hfriends, hconversations⟩ := Tables.mk.inj htables
  exact Tables.ext husers (List.append_cancel_right hfriends) hconversations

/-- A failed call goes unnoticed exactly if it is idle. -/
theorem unnoticed_iff (s : Store) (m : Mutator) : Unnoticed s m ↔ Idle s.context m := by
  rw [← change_same_iff]
  refine ⟨fun h t' ht' => ?_, fun h failed hfailed later => ?_⟩
  · have hfailed : perform s ⟨m, false⟩ = some { s with context := t' } := by
      rw [perform, ht']
      rfl
    have hlater := h _ hfailed [⟨.addFriend ⟨0, "", "", "", ""⟩, true⟩]
    simp only [Runs.exec_cons, Runs.exec_nil, Option.bind_fun_some] at hlater
    refine context_of_persisted s { s with context := t' } ⟨0, "", "", "", ""⟩ ?_
    have hpersisted := congrArg (Option.map Prod.snd) hlater
    rwa [Option.map_map, Option.map_map] at hpersisted
  · -- nothing has changed
    obtain ⟨t', ht', rfl⟩ := Option.map_eq_some_iff.mp hfailed
    obtain rfl := h t' ht'
    rfl

/-- A friend that could not be saved. -/
def ann : FriendModel := ⟨7, "7.jpg", "ann", "+7", "en"⟩

/-- Nobody is stored; adding `ann` fails, and adding another friend succeeds. Then `ann` is read back,
    and on disk. -/
theorem failed_add_persists :
    let empty : Store := ⟨⟨[], [], []⟩, ⟨[], [], []⟩⟩
    let bo : FriendModel := ⟨8, "8.jpg", "bo", "+8", "de"⟩
    (Runs.exec perform empty [⟨.addFriend ann, false⟩, ⟨.addFriend bo, true⟩]).map
        (fun s => (s.persisted.friends, s.views.getFriends)) =
      some ([ann.record, bo.record], some [ann, bo]) ∧ ¬ Unnoticed empty (.addFriend ann) := by
  intro empty bo
  refine ⟨by decide, fun h => ?_⟩
  have hnow := h ⟨⟨[], [ann.record], []⟩, ⟨[], [], []⟩⟩ rfl []
  have hfriends := congrArg (Option.map fun x => x.1.getFriends) hnow
  exact absurd hfriends (by decide)

end FailedSave

end Shiftgram
