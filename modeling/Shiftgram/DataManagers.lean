import Shiftgram.FriendSync
import Shiftgram.UserStore

/- The operations of the three data managers that take a completion, as functions of the outcome of
   their request. A trap is `none`; otherwise an operation returns the arguments of the calls of its
   completion, in order. The operations split on the outcome in different ways: on a status code, on
   a value, on both, and several cast the value by force.

   `answered_iff` gives, for each operation, the exact outcomes in which it calls its completion once
   and does not trap.

   Assumed: saves and fetches succeed, and the locale has a language code. -/
namespace Shiftgram

/-- `self.OK_CODE` -/
def okCode : Int := 200

namespace FriendDataManager

def addFriend (response : DataResponse) : List Bool :=
  match response.statusCode with
  | some code => if code = okCode then [true] else [false]
  | none => []

/-- The body of the loop of `updateLanguageFriends`. -/
def updateItem (store : List Friend) (item : Json) : Option (List Friend) := do
  let value ← item.asDictionary
  let language ← stringAt value "Language"
  let id ← intAt value "Id"
  FriendEntity.updateFriend store (fun friend => { friend with language := some language }) id

def updateLanguageFriends (store : List Friend) (response : DataResponse) :
    Option (List Friend × Nat) :=
  match response.value with
  | some result => do
    let items ← result.asArray
    let store ← items.foldlM updateItem store
    some (store, 1)
  | none => some (store, 1)

end FriendDataManager

structure AccountSettings where
  initials : String
  phone : String
  username : String
  photo : String
  deriving DecidableEq, Repr

/-- `AccountSettings(item:)` -/
def AccountSettings.init (item : List (String × Json)) : Option AccountSettings := do
  let firstName ← stringAt item "FirstName"
  let lastName ← stringAt item "LastName"
  let phone ← stringAt item "Phone"
  let username ← stringAt item "Username"
  let photo ← stringAt item "PhotoUrl"
  some ⟨firstName ++ " " ++ lastName, phone, username, photo⟩

namespace UserDataManager

/-- `addAccount` for an account with the phone number. -/
def addAccount (store : List User) (languageCode phone : String) (response : DataResponse) :
    Option (List User × Nat) := do
  let value ← response.value
  let id ← value.asInt
  some (UserEntity.addUser store languageCode id phone, 1)

def getFriendLanguage (response : DataResponse) : Option (List String) := do
  let value ← response.value
  let result ← value.asDictionary
  let lang ← stringAt result "Language"
  some [lang]

def getById (response : DataResponse) : Option (List AccountSettings) := do
  let value ← response.value
  let result ← value.asDictionary
  let accountSettings ← AccountSettings.init result
  some [accountSettings]

def isExistAccount (response : DataResponse) : List Bool :=
  match response.statusCode with
  | some code => if code = okCode then [true] else [false]
  | none => []

/-- `updateAccountPhone` to the phone number. -/
def updateAccountPhone (store : List User) (phone : String) (response : DataResponse) :
    Option (List User × List Bool) :=
  match response.statusCode with
  | some code =>
    if code = 200 then do
      let store ← UserEntity.updateUser store fun user => { user with phone := phone }
      some (store, [true])
    else if code = 400 then some (store, [false])
    else some (store, [])
  | none => some (store, [])

/-- The handler the other updates of an account share. -/
def updated (response : DataResponse) : List Bool :=
  match response.statusCode with
  | some code => if code = 200 then [true] else if code = 400 then [false] else []
  | none => []

def updateAccountInitials (response : DataResponse) : List Bool := updated response

def updateAccountBio (response : DataResponse) : List Bool := updated response

def updateAccountUsername (response : DataResponse) : List Bool := updated response

def updateAccountPhoto (response : DataResponse) : List Bool := updated response

def updateAccountGender (response : DataResponse) : List Bool := updated response

def updateAccountLanguage (response : DataResponse) : List Bool := updated response

end UserDataManager

structure Phone where
  id : Int
  country : String
  code : String
  deriving DecidableEq, Repr

/-- `Phone(item:)` -/
def Phone.init (item : List (String × Json)) : Option Phone := do
  let id ← intAt item "Id"
  let country ← stringAt item "Country"
  let code ← stringAt item "Code"
  some ⟨id, country, code⟩

structure PhoneVerify where
  id : Int
  number : String
  code : String
  deriving DecidableEq, Repr

namespace PhoneDataManager

def getPhones (response : DataResponse) : Option (List (List Phone)) :=
  match response.value with
  | some result => do
    let items ← result.asArray
    let phones ← items.mapM fun item => item.asDictionary.bind Phone.init
    some [phones]
  | none => some [[]]

/-- A list that is not read traps, so the completion is called once. -/
theorem getPhones_once {response : DataResponse} {calls : List (List Phone)}
    (h : getPhones response = some calls) : ∃ phones, calls = [phones] := by
  unfold getPhones at h
  split at h
  · obtain ⟨items, -, h⟩ := Option.bind_eq_some_iff.mp h
    obtain ⟨phones, -, h⟩ := Option.bind_eq_some_iff.mp h
    exact ⟨phones, (Option.some.inj h).symm⟩
  · exact ⟨[], (Option.some.inj h).symm⟩

/-- The number `sendSMS` asks for: `code.remove(at: code.startIndex)` traps on an empty code. -/
def dialled (phoneVerify : PhoneVerify) : Option String :=
  match phoneVerify.code.toList with
  | [] => none
  | _ :: code => some (String.ofList code ++ phoneVerify.number)

/-- `sendSMS`: the handler does not look at the outcome. -/
def sendSMS (phoneVerify : PhoneVerify) : Option Nat :=
  (dialled phoneVerify).map fun _ => 1

def isAuth (response : DataResponse) : List Bool := UserDataManager.updated response

end PhoneDataManager

/-- The operations with a completion, with what their handlers read of the arguments. -/
inductive Operation
  | addFriend
  | fetchFriends
  | updateLanguageFriends
  | addAccount (languageCode phone : String)
  | getFriendLanguage
  | getById
  | isExistAccount
  | updateAccountPhone (phone : String)
  | updateAccountInitials
  | updateAccountBio
  | updateAccountUsername
  | updateAccountPhoto
  | updateAccountGender
  | updateAccountLanguage
  | getPhones
  | sendSMS (phoneVerify : PhoneVerify)
  | isAuth
  deriving DecidableEq, Repr

/-- The records the operations read and write. -/
structure Stores where
  users : List User
  friends : List Friend
  deriving DecidableEq, Repr

namespace Operation

/-- The stores after the operation, and how often its completion is called. -/
def perform (s : Stores) (response : DataResponse) : Operation → Option (Stores × Nat)
  | addFriend => some (s, (FriendDataManager.addFriend response).length)
  | fetchFriends =>
    (FriendDataManager.fetchFriends s.friends response).map fun r => ({ s with friends := r.1 }, r.2)
  | updateLanguageFriends =>
    (FriendDataManager.updateLanguageFriends s.friends response).map fun r =>
      ({ s with friends := r.1 }, r.2)
  | addAccount languageCode phone =>
    (UserDataManager.addAccount s.users languageCode phone response).map fun r =>
      ({ s with users := r.1 }, r.2)
  | getFriendLanguage => (UserDataManager.getFriendLanguage response).map fun r => (s, r.length)
  | getById => (UserDataManager.getById response).map fun r => (s, r.length)
  | isExistAccount => some (s, (UserDataManager.isExistAccount response).length)
  | updateAccountPhone phone =>
    (UserDataManager.updateAccountPhone s.users phone response).map fun r =>
      ({ s with users := r.1 }, r.2.length)
  | updateAccountInitials => some (s, (UserDataManager.updateAccountInitials response).length)
  | updateAccountBio => some (s, (UserDataManager.updateAccountBio response).length)
  | updateAccountUsername => some (s, (UserDataManager.updateAccountUsername response).length)
  | updateAccountPhoto => some (s, (UserDataManager.updateAccountPhoto response).length)
  | updateAccountGender => some (s, (UserDataManager.updateAccountGender response).length)
  | updateAccountLanguage => some (s, (UserDataManager.updateAccountLanguage response).length)
  | getPhones => (PhoneDataManager.getPhones response).map fun r => (s, r.length)
  | sendSMS phoneVerify => (PhoneDataManager.sendSMS phoneVerify).map fun n => (s, n)
  | isAuth => some (s, (PhoneDataManager.isAuth response).length)

/-- The operation does not trap and calls its completion exactly once. -/
def Answered (s : Stores) (response : DataResponse) (op : Operation) : Prop :=
  ∃ s', perform s response op = some (s', 1)

end Operation

/-! ## What the handlers rely on -/

/-- The value is an array of objects with the property. -/
def ArrayOf (P : List (String × Json) → Prop) (value : Json) : Prop :=
  ∃ items, value = .array items ∧ ∀ item ∈ items, ∃ entries, item = .dictionary entries ∧ P entries

/-- The object has a string under each of the keys. -/
def Strings (keys : List String) (entries : List (String × Json)) : Prop :=
  ∀ key ∈ keys, stringAt entries key ≠ none

/-- The items of a friend list that can be merged into a store with the ids: each is an object with
    an integral id, and has all other fields as well unless every id stored by then is its own. -/
def Mergeable : List Int → List Json → Prop
  | _, [] => True
  | stored, item :: items => ∃ entries id, item = .dictionary entries ∧ intAt entries "Id" = some id ∧
      ((stored ≠ [] ∧ ∀ x ∈ stored, x = id) ∨
        Strings ["PhotoUrl", "Username", "Phone", "Language"] entries) ∧
      Mergeable (stored ++ [(Int32.ofInt id).toInt]) items

/-- The outcomes the handler of the operation is written for. -/
def Operation.Expects (s : Stores) (response : DataResponse) : Operation → Prop
  | addFriend | isExistAccount => response.statusCode ≠ none
  | fetchFriends =>
    response.statusCode ≠ none ∧ (response.statusCode = some 200 →
      ∃ items, response.value = some (.array items) ∧
        (items ≠ [] → ∀ friend ∈ s.friends, friend.Complete) ∧
        Mergeable (s.friends.map (·.id.toInt)) items)
  | updateLanguageFriends =>
    ∀ value, response.value = some value → ArrayOf (fun entries => Strings ["Language"] entries ∧
      ∃ id ∈ s.friends.map (·.id.toInt), intAt entries "Id" = some id) value
  | addAccount _ _ => ∃ value, response.value = some value ∧ value.asInt ≠ none
  | getFriendLanguage =>
    ∃ entries, response.value = some (.dictionary entries) ∧ Strings ["Language"] entries
  | getById =>
    ∃ entries, response.value = some (.dictionary entries) ∧
      Strings ["FirstName", "LastName", "Phone", "Username", "PhotoUrl"] entries
  | updateAccountPhone _ =>
    (response.statusCode = some 200 ∧ s.users ≠ []) ∨ response.statusCode = some 400
  | updateAccountInitials | updateAccountBio | updateAccountUsername | updateAccountPhoto
  | updateAccountGender | updateAccountLanguage | isAuth =>
    response.statusCode = some 200 ∨ response.statusCode = some 400
  | getPhones =>
    ∀ value, response.value = some value → ArrayOf (fun entries =>
      intAt entries "Id" ≠ none ∧ Strings ["Country", "Code"] entries) value
  | sendSMS phoneVerify => phoneVerify.code ≠ ""

/-! ## Loops over response items -/

section Loops

variable {α β γ σ : Type}

theorem mapM_isSome_iff {f : α → Option β} {l : List α} :
    (∃ l', l.mapM f = some l') ↔ ∀ a ∈ l, ∃ b, f a = some b := by
  induction l with
  | nil => simp
  | cons a l ih =>
    rw [List.forall_mem_cons, ← ih]
    refine ⟨?_, ?_⟩
    · rintro ⟨l', hl'⟩
      simp only [List.mapM_cons, Option.pure_def, Option.bind_eq_bind, Option.bind_eq_some_iff] at hl'
      obtain ⟨b, hb, rest, hrest, -⟩ := hl'
      exact ⟨⟨b, hb⟩, rest, hrest⟩
    · rintro ⟨⟨b, hb⟩, rest, hrest⟩
      exact ⟨b :: rest, by simp [hb, hrest]⟩

/-- A loop whose steps succeed by a condition on something that they keep. -/
theorem foldlM_isSome_iff {f : σ → α → Option σ} {view : σ → γ} {P : γ → α → Prop}
    (hstep : ∀ s a, (∃ t, f s a = some t) ↔ P (view s) a)
    (hkeep : ∀ s a t, f s a = some t → view t = view s) (l : List α) (s : σ) :
    (∃ t, l.foldlM f s = some t) ↔ ∀ a ∈ l, P (view s) a := by
  induction l generalizing s with
  | nil => simp
  | cons a l ih =>
    rw [List.forall_mem_cons, ← hstep]
    refine ⟨?_, ?_⟩
    · rintro ⟨t, ht⟩
      obtain ⟨u, hu, ht⟩ := Option.bind_eq_some_iff.mp ht
      exact ⟨⟨u, hu⟩, hkeep s a u hu ▸ (ih u).mp ⟨t, ht⟩⟩
    · rintro ⟨⟨u, hu⟩, hrest⟩
      obtain ⟨t, ht⟩ := (ih u).mpr (hkeep s a u hu ▸ hrest)
      exact ⟨t, by rw [List.foldlM_cons, hu, Option.bind_eq_bind, Option.bind_some, ht]⟩

end Loops

theorem asArray_iff {value : Json} {items : List Json} :
    value.asArray = some items ↔ value = .array items := by
  cases value <;> simp [Json.asArray]

theorem asDictionary_iff {value : Json} {entries : List (String × Json)} :
    value.asDictionary = some entries ↔ value = .dictionary entries := by
  cases value <;> simp [Json.asDictionary]

/-- Reading an array of objects one by one. -/
theorem arrayOf_iff {P : List (String × Json) → Prop} {value : Json} :
    ArrayOf P value ↔ ∃ items, value.asArray = some items ∧
      ∀ item ∈ items, ∃ entries, item.asDictionary = some entries ∧ P entries := by
  simp only [ArrayOf, asArray_iff, asDictionary_iff]

/-- Reading the strings under the keys. -/
theorem strings_cons {key : String} {keys : List String} {entries : List (String × Json)} :
    Strings (key :: keys) entries ↔ (∃ s, stringAt entries key = some s) ∧ Strings keys entries := by
  rw [Strings, List.forall_mem_cons, Option.ne_none_iff_exists']
  rfl

theorem strings_nil (entries : List (String × Json)) : Strings [] entries := by
  simp [Strings]

theorem phone_iff {entries : List (String × Json)} :
    (∃ phone, Phone.init entries = some phone) ↔
      intAt entries "Id" ≠ none ∧ Strings ["Country", "Code"] entries := by
  simp [Phone.init, strings_cons, strings_nil, Option.ne_none_iff_exists', Option.bind_eq_some_iff]

theorem accountSettings_iff {entries : List (String × Json)} :
    (∃ settings, AccountSettings.init entries = some settings) ↔
      Strings ["FirstName", "LastName", "Phone", "Username", "PhotoUrl"] entries := by
  simp [AccountSettings.init, strings_cons, strings_nil, Option.bind_eq_some_iff]

theorem friendModel_iff {entries : List (String × Json)} {id : Int}
    (hid : intAt entries "Id" = some id) :
    (∃ model, friendModel entries = some model) ↔
      Strings ["PhotoUrl", "Username", "Phone", "Language"] entries := by
  simp [friendModel, strings_cons, strings_nil, hid, Option.bind_eq_some_iff]

/-! ## The merge of a friend list -/

/-- A model as the store reads it back. -/
def FriendModel.stored (m : FriendModel) : FriendModel := { m with id := (Int32.ofInt m.id).toInt }

theorem FriendModel.stored_fits (m : FriendModel) : m.stored.Fits := Swift.fits32_toInt _

theorem FriendModel.record_stored (m : FriendModel) : m.stored.record = m.record := by
  show (⟨Int32.ofInt (Int32.ofInt m.id).toInt, _, _, _, _⟩ : Friend) = m.record
  rw [Int32.ofInt_toInt]
  rfl

namespace FriendDataManager

/-- Every pass of the loop over the stored friends needs the id, and the other fields where the
    friend has another id. -/
theorem addUnlessSame_reads {value : List (String × Json)} {friends : List FriendModel}
    {store store' : List Friend} (h : friends.foldlM (addUnlessSame value) store = some store') :
    ∀ friend ∈ friends, ∃ id, intAt value "Id" = some id ∧
      (friend.id = id ∨ ∃ model, friendModel value = some model) := by
  induction friends generalizing store with
  | nil => simp
  | cons friend friends ih =>
    obtain ⟨next, hnext, hrest⟩ := Option.bind_eq_some_iff.mp h
    rw [List.forall_mem_cons]
    refine ⟨?_, ih hrest⟩
    obtain ⟨id, hid, hbody⟩ := Option.bind_eq_some_iff.mp hnext
    refine ⟨id, hid, ?_⟩
    by_cases hsame : friend.id = id
    · exact Or.inl hsame
    · rw [if_pos hsame] at hbody
      obtain ⟨model, hmodel, -⟩ := Option.bind_eq_some_iff.mp hbody
      exact Or.inr ⟨model, hmodel⟩

/-- Where all friends have the id of the item, nothing is added. -/
theorem addUnlessSame_same {value : List (String × Json)} {id : Int}
    (hid : intAt value "Id" = some id) {friends : List FriendModel}
    (h : ∀ friend ∈ friends, friend.id = id) (store : List Friend) :
    friends.foldlM (addUnlessSame value) store = some store := by
  induction friends with
  | nil => rfl
  | cons friend friends ih =>
    rw [List.forall_mem_cons] at h
    have hstep : addUnlessSame value store friend = some store := by
      simp [addUnlessSame, hid, h.1]
    rw [List.foldlM_cons, hstep]
    exact ih h.2

/-- What one item needs. -/
def Readable (stored : List Int) (entries : List (String × Json)) (id : Int) : Prop :=
  intAt entries "Id" = some id ∧ ((stored ≠ [] ∧ ∀ x ∈ stored, x = id) ∨
    Strings ["PhotoUrl", "Username", "Phone", "Language"] entries)

theorem readable_of_fetchItem {ms : List FriendModel} (hms : ∀ m ∈ ms, m.Fits) {item : Json}
    {store' : List Friend} (h : fetchItem (ms.map FriendModel.record) item = some store') :
    ∃ entries id, item = .dictionary entries ∧ Readable (ms.map (·.id)) entries id := by
  simp only [fetchItem, getFriends_records hms, Option.bind_eq_bind, Option.bind_some,
    Option.bind_eq_some_iff] at h
  obtain ⟨entries, hentries, h⟩ := h
  rw [asDictionary_iff] at hentries
  cases ms with
  | nil =>
    rw [List.length_nil, if_neg (lt_irrefl 0), Option.bind_eq_some_iff] at h
    obtain ⟨model, hmodel, -⟩ := h
    have hid := friendModel_id hmodel
    exact ⟨entries, model.id, hentries, hid, Or.inr ((friendModel_iff hid).mp ⟨model, hmodel⟩)⟩
  | cons m ms =>
    rw [if_pos (by simp)] at h
    have hreads := addUnlessSame_reads h
    obtain ⟨id, hid, -⟩ := hreads m List.mem_cons_self
    refine ⟨entries, id, hentries, hid, ?_⟩
    by_cases hall : ∀ m' ∈ m :: ms, m'.id = id
    · exact Or.inl ⟨by simp, by simpa using hall⟩
    · -- a stored friend with another id has the item read in full
      push Not at hall
      obtain ⟨m', hm', hother⟩ := hall
      obtain ⟨id', hid', hmodel⟩ := hreads m' hm'
      obtain rfl := Option.some.inj (hid.symm.trans hid')
      exact Or.inr ((friendModel_iff hid).mp (hmodel.resolve_left hother))

theorem fetchItem_of_readable {ms : List FriendModel} (hms : ∀ m ∈ ms, m.Fits)
    {entries : List (String × Json)} {id : Int} (h : Readable (ms.map (·.id)) entries id) :
    ∃ ms' : List FriendModel, (∀ m ∈ ms', m.Fits) ∧
      fetchItem (ms.map FriendModel.record) (.dictionary entries) = some (ms'.map FriendModel.record) ∧
      ∀ x, x ∈ ms'.map (·.id) ↔ x ∈ ms.map (·.id) ++ [(Int32.ofInt id).toInt] := by
  have hcut : ∀ y ∈ ms.map (·.id), (Int32.ofInt y).toInt = y := by
    simp only [List.mem_map, forall_exists_index, and_imp, forall_apply_eq_imp_iff₂]
    exact fun m hm => FriendModel.toInt_record (hms m hm)
  obtain ⟨hid, ⟨hne, hsame⟩ | hstrings⟩ := h
  · refine ⟨ms, hms, ?_, ?_⟩
    · have hne : ms ≠ [] := fun h => hne (by rw [h, List.map_nil])
      simp only [fetchItem, Json.asDictionary, getFriends_records hms, Option.bind_eq_bind,
        Option.bind_some, if_pos (List.length_pos_iff.mpr hne)]
      exact addUnlessSame_same hid (by simpa using hsame) _
    · -- the id is stored already
      obtain ⟨y, hy⟩ := List.exists_mem_of_ne_nil _ hne
      obtain rfl := hsame y hy
      intro x
      rw [hcut y hy, List.mem_append, List.mem_singleton]
      refine ⟨Or.inl, ?_⟩
      rintro (hx | rfl)
      · exact hx
      · exact hy
  · obtain ⟨m, hm⟩ := (friendModel_iff hid).mpr hstrings
    obtain rfl : m.id = id := Option.some.inj ((friendModel_id hm).symm.trans hid)
    refine ⟨(syncModel ms m).map FriendModel.stored, ?_, ?_, ?_⟩
    · simp only [List.mem_map, forall_exists_index, and_imp, forall_apply_eq_imp_iff₂]
      exact fun m _ => m.stored_fits
    · rw [fetchItem_eq (by exact hm) hms, List.map_map]
      exact congrArg some (List.map_congr_left fun m _ => m.record_stored.symm)
    · -- the ids of the store stay, that of the item is cut to 32 bits
      intro x
      have hids : ((syncModel ms m).map FriendModel.stored).map (·.id) =
          (syncId (ms.map (·.id)) m.id).map fun y => (Int32.ofInt y).toInt := by
        rw [← syncModel_ids, List.map_map, List.map_map]
        rfl
      rw [hids, List.mem_map, List.mem_append, List.mem_singleton]
      simp only [mem_syncId]
      refine ⟨?_, ?_⟩
      · rintro ⟨y, hy | rfl, rfl⟩
        · exact Or.inl ((hcut y hy).symm ▸ hy)
        · exact Or.inr rfl
      · rintro (hx | rfl)
        · exact ⟨x, Or.inl hx, hcut x hx⟩
        · exact ⟨m.id, Or.inr rfl, rfl⟩

theorem complete_of_fetchItem {store store' : List Friend} {item : Json}
    (h : fetchItem store item = some store') : ∀ friend ∈ store, friend.Complete := by
  simp only [fetchItem, Option.bind_eq_bind, Option.bind_eq_some_iff] at h
  obtain ⟨-, -, models, hmodels, -⟩ := h
  intro friend hfriend
  obtain ⟨model, hmodel⟩ := mapM_isSome_iff.mp ⟨models, hmodels⟩ friend hfriend
  exact Friend.complete_of_model hmodel

theorem mergeable_congr {stored stored' : List Int} (h : ∀ x, x ∈ stored ↔ x ∈ stored')
    (items : List Json) : Mergeable stored items ↔ Mergeable stored' items := by
  induction items generalizing stored stored' with
  | nil => exact Iff.rfl
  | cons item items ih =>
    have hne : stored ≠ [] ↔ stored' ≠ [] := by
      simp only [ne_eq, List.eq_nil_iff_forall_not_mem, h]
    have hnext : ∀ id, Mergeable (stored ++ [(Int32.ofInt id).toInt]) items ↔
        Mergeable (stored' ++ [(Int32.ofInt id).toInt]) items := fun id =>
      ih fun x => by rw [List.mem_append, List.mem_append, h]
    simp only [Mergeable, hne, h, hnext]

/-- The merge succeeds exactly on the items it can read one after the other. -/
theorem foldlM_fetchItem_iff {ms : List FriendModel} (hms : ∀ m ∈ ms, m.Fits) (items : List Json) :
    (∃ store', items.foldlM fetchItem (ms.map FriendModel.record) = some store') ↔
      Mergeable (ms.map (·.id)) items := by
  induction items generalizing ms with
  | nil => exact ⟨fun _ => trivial, fun _ => ⟨_, rfl⟩⟩
  | cons item items ih =>
    -- a readable item leads to models again, whose ids are those the rest is read with
    have hnext : ∀ {entries id}, Readable (ms.map (·.id)) entries id →
        ((∃ store', (.dictionary entries :: items).foldlM fetchItem (ms.map FriendModel.record) =
          some store') ↔ Mergeable (ms.map (·.id) ++ [(Int32.ofInt id).toInt]) items) := by
      intro entries id hread
      obtain ⟨ms', hms', hstep, hids⟩ := fetchItem_of_readable hms hread
      rw [List.foldlM_cons, hstep, Option.bind_eq_bind, Option.bind_some, ih hms',
        mergeable_congr hids]
    refine ⟨?_, ?_⟩
    · rintro ⟨store', hstore'⟩
      obtain ⟨next, hnext', -⟩ := Option.bind_eq_some_iff.mp hstore'
      obtain ⟨entries, id, rfl, hread⟩ := readable_of_fetchItem hms hnext'
      exact ⟨entries, id, rfl, hread.1, hread.2, (hnext hread).mp ⟨store', hstore'⟩⟩
    · rintro ⟨entries, id, rfl, hid, hfields, hrest⟩
      exact (hnext ⟨hid, hfields⟩).mpr hrest

theorem foldlM_fetchItem_complete (store : List Friend) (items : List Json) :
    (∃ store', items.foldlM fetchItem store = some store') ↔
      (items ≠ [] → ∀ friend ∈ store, friend.Complete) ∧
        Mergeable (store.map (·.id.toInt)) items := by
  cases items with
  | nil => simp [Mergeable]
  | cons item items =>
    by_cases hcomplete : ∀ friend ∈ store, friend.Complete
    · obtain ⟨ms, hms, rfl⟩ := (complete_iff_records store).mp hcomplete
      rw [foldlM_fetchItem_iff hms, FriendSync.record_ids hms, and_iff_right fun _ => hcomplete]
    · refine ⟨?_, fun h => absurd (h.1 (List.cons_ne_nil _ _)) hcomplete⟩
      rintro ⟨store', hstore'⟩
      obtain ⟨next, hnext, -⟩ := Option.bind_eq_some_iff.mp hstore'
      exact absurd (complete_of_fetchItem hnext) hcomplete

theorem fetchFriends_iff (store : List Friend) (response : DataResponse) :
    (∃ store', fetchFriends store response = some (store', 1)) ↔
      response.statusCode ≠ none ∧ (response.statusCode = some 200 →
        ∃ items, response.value = some (.array items) ∧
          (items ≠ [] → ∀ friend ∈ store, friend.Complete) ∧
          Mergeable (store.map (·.id.toInt)) items) := by
  obtain ⟨_ | code, value⟩ := response
  · simp [fetchFriends]
  · by_cases hcode : code = 200
    · cases value with
      | none => simp [fetchFriends, hcode]
      | some value =>
        simp only [← foldlM_fetchItem_complete]
        simp only [fetchFriends, hcode, if_true, Option.bind_eq_bind, Option.bind_eq_some_iff,
          asArray_iff]
        simp [exists_comm (α := List Friend)]
    · simp [fetchFriends, hcode]

/-! ## The refresh of the languages -/

/-- One item needs its language and a stored friend with its id. -/
theorem updateItem_iff (store : List Friend) (item : Json) :
    (∃ store', updateItem store item = some store') ↔
      ∃ entries, item.asDictionary = some entries ∧ Strings ["Language"] entries ∧
        ∃ id ∈ store.map (·.id.toInt), intAt entries "Id" = some id := by
  simp only [updateItem, Option.bind_eq_bind, Option.bind_eq_some_iff, strings_cons, strings_nil,
    and_true]
  refine ⟨?_, ?_⟩
  · rintro ⟨store', entries, hentries, language, hlanguage, id, hid, hupdate⟩
    exact ⟨entries, hentries, ⟨language, hlanguage⟩, id, (updateFriend_iff _ _ _).mp ⟨_, hupdate⟩, hid⟩
  · rintro ⟨entries, hentries, ⟨language, hlanguage⟩, id, hmem, hid⟩
    obtain ⟨store', hupdate⟩ := (updateFriend_iff store
      (fun friend => { friend with language := some language }) id).mpr hmem
    exact ⟨store', entries, hentries, language, hlanguage, id, hid, hupdate⟩

theorem updateItem_ids {store store' : List Friend} {item : Json}
    (h : updateItem store item = some store') :
    store'.map (·.id.toInt) = store.map (·.id.toInt) := by
  simp only [updateItem, Option.bind_eq_bind, Option.bind_eq_some_iff] at h
  obtain ⟨-, -, language, -, id, -, hupdate⟩ := h
  obtain ⟨before, friend, after, rfl, rfl, -⟩ := updateFriend_spec hupdate
  rw [List.map_append, List.map_append, List.map_cons, List.map_cons]

theorem updateLanguageFriends_iff (store : List Friend) (response : DataResponse) :
    (∃ store', updateLanguageFriends store response = some (store', 1)) ↔
      ∀ value, response.value = some value → ArrayOf (fun entries => Strings ["Language"] entries ∧
        ∃ id ∈ store.map (·.id.toInt), intAt entries "Id" = some id) value := by
  obtain ⟨code, _ | value⟩ := response
  · simp [updateLanguageFriends]
  · have hloop := foldlM_isSome_iff (f := updateItem)
      (P := fun ids item => ∃ entries, item.asDictionary = some entries ∧
        Strings ["Language"] entries ∧ ∃ id ∈ ids, intAt entries "Id" = some id)
      updateItem_iff (fun _ _ _ h => updateItem_ids h)
    simp only [Option.some.injEq, forall_eq', arrayOf_iff, ← hloop]
    simp only [updateLanguageFriends, Option.bind_eq_bind, Option.bind_eq_some_iff]
    simp [exists_comm (α := List Friend)]

end FriendDataManager

theorem updated_iff (response : DataResponse) :
    (UserDataManager.updated response).length = 1 ↔
      response.statusCode = some 200 ∨ response.statusCode = some 400 := by
  obtain ⟨_ | code, value⟩ := response
  · simp [UserDataManager.updated]
  · by_cases h200 : code = 200
    · simp [UserDataManager.updated, h200]
    · by_cases h400 : code = 400 <;> simp [UserDataManager.updated, h200, h400]

theorem updateAccountPhone_iff (store : List User) (phone : String) (response : DataResponse) :
    (∃ store' calls, UserDataManager.updateAccountPhone store phone response = some (store', calls) ∧
        calls.length = 1) ↔
      (response.statusCode = some 200 ∧ store ≠ []) ∨ response.statusCode = some 400 := by
  obtain ⟨_ | code, value⟩ := response
  · simp [UserDataManager.updateAccountPhone]
  · by_cases h200 : code = 200
    · rw [← updateUser_isSome store fun user => { user with phone := phone }]
      simp [UserDataManager.updateAccountPhone, h200, Option.bind_eq_some_iff]
    · by_cases h400 : code = 400 <;> simp [UserDataManager.updateAccountPhone, h200, h400]

theorem getPhones_iff (response : DataResponse) :
    (∃ calls, PhoneDataManager.getPhones response = some calls ∧ calls.length = 1) ↔
      ∀ value, response.value = some value → ArrayOf (fun entries =>
        intAt entries "Id" ≠ none ∧ Strings ["Country", "Code"] entries) value := by
  obtain ⟨code, _ | value⟩ := response
  · simp [PhoneDataManager.getPhones]
  · simp only [Option.some.injEq, forall_eq', arrayOf_iff, ← phone_iff]
    simp only [PhoneDataManager.getPhones, Option.bind_eq_bind, Option.bind_eq_some_iff,
      Option.some.injEq]
    refine ⟨?_, ?_⟩
    · rintro ⟨-, ⟨items, hitems, phones, hphones, -⟩, -⟩
      refine ⟨items, hitems, fun item hitem => ?_⟩
      obtain ⟨phone, hphone⟩ := mapM_isSome_iff.mp ⟨phones, hphones⟩ item hitem
      obtain ⟨entries, hentries, hphone⟩ := Option.bind_eq_some_iff.mp hphone
      exact ⟨entries, hentries, phone, hphone⟩
    · rintro ⟨items, hitems, hall⟩
      obtain ⟨phones, hphones⟩ := (mapM_isSome_iff
        (f := fun item : Json => item.asDictionary.bind Phone.init)).mpr fun item hitem => by
          obtain ⟨entries, hentries, phone, hphone⟩ := hall item hitem
          exact ⟨phone, by rw [hentries, Option.bind_some, hphone]⟩
      exact ⟨[phones], ⟨items, hitems, phones, hphones, rfl⟩, rfl⟩

theorem addFriend_iff (response : DataResponse) :
    (FriendDataManager.addFriend response).length = 1 ↔ response.statusCode ≠ none := by
  obtain ⟨_ | code, value⟩ := response
  · simp [FriendDataManager.addFriend]
  · by_cases hcode : code = okCode <;> simp [FriendDataManager.addFriend, hcode]

theorem addAccount_iff (store : List User) (languageCode phone : String) (response : DataResponse) :
    (∃ store', UserDataManager.addAccount store languageCode phone response = some (store', 1)) ↔
      ∃ value, response.value = some value ∧ value.asInt ≠ none := by
  simp only [UserDataManager.addAccount, Option.bind_eq_bind, Option.bind_eq_some_iff,
    Option.some.injEq, Option.ne_none_iff_exists']
  refine ⟨?_, ?_⟩
  · rintro ⟨-, value, hvalue, id, hid, -⟩
    exact ⟨value, hvalue, id, hid⟩
  · rintro ⟨value, hvalue, id, hid⟩
    exact ⟨_, value, hvalue, id, hid, rfl⟩

/-- A handler that casts the value to an object, reads it and passes on what it read. -/
theorem object_iff {α : Type} {read : List (String × Json) → Option α} {response : DataResponse} :
    (∃ calls, (response.value.bind fun value => value.asDictionary.bind fun result =>
        (read result).bind fun x => some [x]) = some calls ∧ calls.length = 1) ↔
      ∃ entries, response.value = some (.dictionary entries) ∧ ∃ x, read entries = some x := by
  simp only [Option.bind_eq_some_iff, asDictionary_iff, Option.some.injEq]
  refine ⟨?_, ?_⟩
  · rintro ⟨-, ⟨_, hvalue, entries, rfl, x, hx, -⟩, -⟩
    exact ⟨entries, hvalue, x, hx⟩
  · rintro ⟨entries, hvalue, x, hx⟩
    exact ⟨[x], ⟨_, hvalue, entries, rfl, x, hx, rfl⟩, rfl⟩

theorem dialled_iff (phoneVerify : PhoneVerify) :
    (∃ phone, PhoneDataManager.dialled phoneVerify = some phone) ↔ phoneVerify.code ≠ "" := by
  unfold PhoneDataManager.dialled
  rw [ne_eq, ← String.toList_eq_nil_iff]
  cases phoneVerify.code.toList <;> simp

namespace Operation

/-- An operation answers exactly the outcomes its handler is written for. -/
theorem answered_iff (s : Stores) (response : DataResponse) (op : Operation) :
    op.Answered s response ↔ op.Expects s response := by
  -- the number of calls, beside a changed store or beside the store as it was
  have hboth : ∀ {α : Type} (f : α → Stores) {r : Option (α × Nat)},
      (∃ s', (r.map fun x => (f x.1, x.2)) = some (s', 1)) ↔ ∃ x, r = some (x, 1) := by
    simp
  have hcalls : ∀ n : Nat, (∃ s', some (s, n) = some (s', 1)) ↔ n = 1 := by
    simp
  have hlist : ∀ {α : Type} {r : Option (List α)},
      (∃ s', (r.map fun x => (s, x.length)) = some (s', 1)) ↔ ∃ x, r = some x ∧ x.length = 1 := by
    simp
  cases op with
  | addFriend => exact (hcalls _).trans (addFriend_iff response)
  | isExistAccount => exact (hcalls _).trans (addFriend_iff response)
  | fetchFriends =>
    exact (hboth fun friends => { s with friends }).trans
      (FriendDataManager.fetchFriends_iff s.friends response)
  | updateLanguageFriends =>
    exact (hboth fun friends => { s with friends }).trans
      (FriendDataManager.updateLanguageFriends_iff s.friends response)
  | addAccount languageCode phone =>
    exact (hboth fun users => { s with users }).trans
      (addAccount_iff s.users languageCode phone response)
  | getFriendLanguage =>
    refine hlist.trans (object_iff.trans (exists_congr fun entries => and_congr_right fun _ => ?_))
    simp [strings_cons, strings_nil]
  | getById =>
    exact hlist.trans (object_iff.trans (exists_congr fun entries => and_congr_right fun _ =>
      accountSettings_iff))
  | updateAccountPhone phone =>
    refine Iff.trans ?_ (updateAccountPhone_iff s.users phone response)
    simp [Answered, perform]
  | updateAccountInitials => exact (hcalls _).trans (updated_iff response)
  | updateAccountBio => exact (hcalls _).trans (updated_iff response)
  | updateAccountUsername => exact (hcalls _).trans (updated_iff response)
  | updateAccountPhoto => exact (hcalls _).trans (updated_iff response)
  | updateAccountGender => exact (hcalls _).trans (updated_iff response)
  | updateAccountLanguage => exact (hcalls _).trans (updated_iff response)
  | isAuth => exact (hcalls _).trans (updated_iff response)
  | getPhones => exact hlist.trans (getPhones_iff response)
  | sendSMS phoneVerify =>
    refine Iff.trans ?_ (dialled_iff phoneVerify)
    simp [Answered, perform, PhoneDataManager.sendSMS]

/-- Without an HTTP response a friend request is never answered. -/
theorem unreachable_unanswered : ¬ ∀ (s : Stores) (response : DataResponse) (op : Operation),
    op.Answered s response := by
  intro h
  obtain ⟨s', hs'⟩ := h ⟨[], []⟩ ⟨none, none⟩ .addFriend
  cases hs'

end Operation

end Shiftgram
