import Shiftgram.Swift

/- The User records of the local store. `addUser` inserts a record whatever is there already; every
   reader takes the first record of an unfiltered fetch, which is the oldest one here. -/
namespace Shiftgram

/-- A record of the entity `User`. -/
structure User where
  id : Int32
  phone : String
  language : String
  isAuth : Bool
  isRegister : Bool
  isSync : Bool
  deriving DecidableEq, Repr

namespace UserEntity

/-- `addUser`, when the save succeeds; `languageCode` is that of the current locale. -/
def addUser (store : List User) (languageCode : String) (id : Int) (phone : String) : List User :=
  store ++ [⟨Int32.ofInt id, phone, languageCode, true, true, false⟩]

/-- `updateUser`, where `set` is `setValue(value, forKey: key)`: it traps without a record. -/
def updateUser (store : List User) (set : User → User) : Option (List User) :=
  match store with
  | [] => none
  | user :: users => some (set user :: users)

/-- `getUserId` -/
def getUserId (store : List User) : Int32 :=
  match store with
  | [] => 0
  | user :: _ => user.id

/-- `getUserPhone` -/
def getUserPhone (store : List User) : String :=
  match store with
  | [] => ""
  | user :: _ => user.phone

/-- `isAuth`, which the app delegate reads the same way. -/
def isAuth (store : List User) : Bool :=
  match store with
  | [] => false
  | user :: _ => user.isAuth

end UserEntity

theorem updateUser_isSome (store : List User) (set : User → User) :
    (∃ store', UserEntity.updateUser store set = some store') ↔ store ≠ [] := by
  cases store with
  | nil => simp [UserEntity.updateUser]
  | cons user users => simp [UserEntity.updateUser]

/-- An update of another attribute leaves the id that readers find. -/
theorem getUserId_updateUser {store store' : List User} {set : User → User}
    (hset : ∀ user, (set user).id = user.id) (h : UserEntity.updateUser store set = some store') :
    UserEntity.getUserId store' = UserEntity.getUserId store := by
  cases store with
  | nil => cases h
  | cons user users =>
    obtain rfl := Option.some.inj h
    exact hset user

/-- A second record changes nothing for the readers. -/
theorem getUserId_addUser {store : List User} (h : store ≠ []) (languageCode : String) (id : Int)
    (phone : String) :
    UserEntity.getUserId (UserEntity.addUser store languageCode id phone) =
      UserEntity.getUserId store := by
  cases store with
  | nil => exact absurd rfl h
  | cons user users => rfl

end Shiftgram
