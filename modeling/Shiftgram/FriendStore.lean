import Shiftgram.Swift

/- The Friend records of the local store. The attributes of the Core Data entity are optional, so
   reading them back as a `FriendModel` unwraps each of them. A fetch without sort descriptors has no
   order of its own; the model keeps the order of insertion. -/
namespace Shiftgram

structure FriendModel where
  id : Int
  photo : String
  username : String
  phone : String
  language : String
  deriving DecidableEq, Repr

/-- A record of the entity `Friend`. -/
structure Friend where
  id : Int32
  photo : Option String
  username : Option String
  phone : Option String
  language : Option String
  deriving DecidableEq, Repr

/-- `Array.toFriendModel`, for one record. -/
def Friend.toFriendModel (friend : Friend) : Option FriendModel := do
  let photo ← friend.photo
  let username ← friend.username
  let phone ← friend.phone
  let language ← friend.language
  some ⟨friend.id.toInt, photo, username, phone, language⟩

/-- The record `addFriend` fills in; the attribute `id` is a 32-bit integer. -/
def FriendModel.record (model : FriendModel) : Friend :=
  ⟨Int32.ofInt model.id, some model.photo, some model.username, some model.phone, some model.language⟩

namespace FriendEntity

/-- `addFriend`, when the save succeeds. -/
def addFriend (store : List Friend) (friendModel : FriendModel) : List Friend :=
  store ++ [friendModel.record]

/-- `getFriends`, when the fetch succeeds. -/
def getFriends (store : List Friend) : Option (List FriendModel) :=
  store.mapM Friend.toFriendModel

/-- `getFriendLanguage`: the first record with the id, unwrapped. -/
def getFriendLanguage (store : List Friend) (id : Int) : Option String := do
  let friend ← store.find? fun friend => friend.id.toInt == id
  friend.language

/-- `updateFriend`, where `set` is `setValue(value, forKey: key)`: the first record with the id is
    changed, and it traps without one. -/
def updateFriend (store : List Friend) (set : Friend → Friend) (id : Int) : Option (List Friend) :=
  match store with
  | [] => none
  | friend :: friends =>
    if friend.id.toInt = id then some (set friend :: friends)
    else (updateFriend friends set id).map (friend :: ·)

end FriendEntity

/-- The models whose id the store can hold. -/
def FriendModel.Fits (model : FriendModel) : Prop := Swift.fits32 model.id = true

theorem FriendModel.toInt_record {m : FriendModel} (h : m.Fits) : m.record.id.toInt = m.id := by
  obtain ⟨hlow, hhigh⟩ := Swift.fits32_iff.mp h
  exact Int32.toInt_ofInt_of_le (by omega) (by omega)

/-- A stored model is read back as it was written. -/
theorem toFriendModel_record {m : FriendModel} (h : m.Fits) : m.record.toFriendModel = some m := by
  show some (⟨m.record.id.toInt, m.photo, m.username, m.phone, m.language⟩ : FriendModel) = some m
  rw [FriendModel.toInt_record h]

theorem getFriends_records {ms : List FriendModel} (h : ∀ m ∈ ms, m.Fits) :
    FriendEntity.getFriends (ms.map FriendModel.record) = some ms := by
  unfold FriendEntity.getFriends
  induction ms with
  | nil => rfl
  | cons m ms ih =>
    rw [List.forall_mem_cons] at h
    simp [toFriendModel_record h.1, ih h.2]

/-- Every attribute of the record has a value. -/
def Friend.Complete (friend : Friend) : Prop :=
  friend.photo ≠ none ∧ friend.username ≠ none ∧ friend.phone ≠ none ∧ friend.language ≠ none

theorem Friend.complete_of_model {friend : Friend} {model : FriendModel}
    (h : friend.toFriendModel = some model) : friend.Complete := by
  simp only [Friend.toFriendModel, Option.bind_eq_bind, Option.bind_eq_some_iff] at h
  obtain ⟨photo, hphoto, username, husername, phone, hphone, language, hlanguage, -⟩ := h
  simp [Friend.Complete, hphoto, husername, hphone, hlanguage]

theorem FriendModel.record_complete (m : FriendModel) : m.record.Complete := by
  simp [Friend.Complete, FriendModel.record]

/-- Complete records answer for every id they have. -/
theorem getFriendLanguage_stored {store : List Friend} (hcomplete : ∀ friend ∈ store, friend.Complete)
    {id : Int} (h : id ∈ store.map (·.id.toInt)) :
    ∃ language, FriendEntity.getFriendLanguage store id = some language := by
  obtain ⟨friend, hfriend⟩ : ∃ friend, store.find? (fun friend => friend.id.toInt == id) = some friend := by
    rw [← Option.isSome_iff_exists, List.find?_isSome]
    simpa using h
  obtain ⟨-, -, -, hlanguage⟩ := hcomplete friend (List.mem_of_find?_eq_some hfriend)
  obtain ⟨language, hlanguage⟩ := Option.ne_none_iff_exists'.mp hlanguage
  exact ⟨language, by simp [FriendEntity.getFriendLanguage, hfriend, hlanguage]⟩

/-- Complete records are those that models fill in. -/
theorem complete_iff_records (store : List Friend) :
    (∀ friend ∈ store, friend.Complete) ↔
      ∃ ms : List FriendModel, (∀ m ∈ ms, m.Fits) ∧ store = ms.map FriendModel.record := by
  refine ⟨fun h => ?_, ?_⟩
  · induction store with
    | nil => exact ⟨[], by simp, rfl⟩
    | cons friend store ih =>
      rw [List.forall_mem_cons] at h
      obtain ⟨ms, hfits, hstore⟩ := ih h.2
      obtain ⟨id, photo, username, phone, language⟩ := friend
      obtain ⟨⟨hphoto, husername, hphone, hlanguage⟩, -⟩ := h
      obtain ⟨photo, rfl⟩ := Option.ne_none_iff_exists'.mp hphoto
      obtain ⟨username, rfl⟩ := Option.ne_none_iff_exists'.mp husername
      obtain ⟨phone, rfl⟩ := Option.ne_none_iff_exists'.mp hphone
      obtain ⟨language, rfl⟩ := Option.ne_none_iff_exists'.mp hlanguage
      refine ⟨⟨id.toInt, photo, username, phone, language⟩ :: ms,
        List.forall_mem_cons.mpr ⟨Swift.fits32_toInt id, hfits⟩, ?_⟩
      rw [hstore, List.map_cons, FriendModel.record, Int32.ofInt_toInt]
  · rintro ⟨ms, -, rfl⟩
    simp only [List.mem_map, forall_exists_index, and_imp, forall_apply_eq_imp_iff₂]
    exact fun m _ => m.record_complete

/-- An update needs a record with the id. -/
theorem updateFriend_iff (store : List Friend) (set : Friend → Friend) (id : Int) :
    (∃ store', FriendEntity.updateFriend store set id = some store') ↔
      id ∈ store.map (·.id.toInt) := by
  induction store with
  | nil => simp [FriendEntity.updateFriend]
  | cons friend store ih =>
    unfold FriendEntity.updateFriend
    by_cases hid : friend.id.toInt = id
    · simp [hid]
    · rw [if_neg hid, List.map_cons, List.mem_cons, or_iff_right (Ne.symm hid), ← ih]
      simp only [Option.map_eq_some_iff, exists_comm (α := List Friend), exists_and_left,
        exists_eq', and_true]

/-- An update changes the first record with the id, in its place. -/
theorem updateFriend_spec {store store' : List Friend} {set : Friend → Friend} {id : Int}
    (h : FriendEntity.updateFriend store set id = some store') :
    ∃ before friend after, store = before ++ friend :: after ∧
      store' = before ++ set friend :: after ∧ friend.id.toInt = id := by
  induction store generalizing store' with
  | nil => cases h
  | cons friend store ih =>
    unfold FriendEntity.updateFriend at h
    split at h
    · next hid =>
      obtain rfl := Option.some.inj h
      exact ⟨[], friend, store, rfl, rfl, hid⟩
    · obtain ⟨rest, hrest, rfl⟩ := Option.map_eq_some_iff.mp h
      obtain ⟨before, friend', after, rfl, rfl, hid⟩ := ih hrest
      exact ⟨friend :: before, friend', after, rfl, rfl, hid⟩

/-- After an update of a language an id has the new one or the one it had. -/
theorem getFriendLanguage_updateFriend {store store' : List Friend} {language language' : String}
    {id id' : Int}
    (h : FriendEntity.updateFriend store (fun friend => { friend with language := some language }) id =
      some store')
    (hlanguage : FriendEntity.getFriendLanguage store' id' = some language') :
    language' = language ∨ FriendEntity.getFriendLanguage store id' = some language' := by
  obtain ⟨before, friend, after, rfl, rfl, -⟩ := updateFriend_spec h
  unfold FriendEntity.getFriendLanguage at hlanguage ⊢
  rw [List.find?_append] at hlanguage ⊢
  cases hbefore : before.find? (fun friend => friend.id.toInt == id') with
  | some found =>
    rw [hbefore] at hlanguage
    exact .inr hlanguage
  | none =>
    rw [hbefore, Option.none_or, List.find?_cons] at hlanguage
    rw [Option.none_or, List.find?_cons]
    by_cases hid : friend.id.toInt == id'
    · simp only [hid, Option.bind_eq_bind, Option.bind_some, Option.some.injEq] at hlanguage
      exact .inl hlanguage.symm
    · simp only [hid] at hlanguage ⊢
      exact .inr hlanguage

end Shiftgram
