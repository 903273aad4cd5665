import Shiftgram.FriendStore
import Shiftgram.Response
import Shiftgram.Runs
import Mathlib.Data.List.Induction
import Mathlib.Data.List.Nodup
import Mathlib.Data.List.Forall2

/- The contact sync. `fetchFriends` goes through the friends the server sends and, for each of them,
   through the friends already stored; it decides to insert once for every stored record that has
   another id. What the sync is for is to insert the missing ones (`insertMissing`). The two agree,
   and ids stay distinct, exactly as long as every item but the last the app ever receives has one
   and the same id (`friends_distinct_iff`). -/
namespace Shiftgram

/-- The `FriendModel` of a response item, read with forced casts. -/
def friendModel (value : List (String × Json)) : Option FriendModel := do
  let id ← intAt value "Id"
  let photo ← stringAt value "PhotoUrl"
  let username ← stringAt value "Username"
  let phone ← stringAt value "Phone"
  let language ← stringAt value "Language"
  some ⟨id, photo, username, phone, language⟩

namespace FriendDataManager

/-- The body of the loop over the stored friends. -/
def addUnlessSame (value : List (String × Json)) (store : List Friend) (friend : FriendModel) :
    Option (List Friend) := do
  let id ← intAt value "Id"
  if friend.id ≠ id then
    let model ← friendModel value
    some (FriendEntity.addFriend store model)
  else
    some store

/-- The body of the loop over the items of the response. -/
def fetchItem (store : List Friend) (item : Json) : Option (List Friend) := do
  let value ← item.asDictionary
  let stored ← FriendEntity.getFriends store
  if stored.length > 0 then
    -- The store is fetched again; the loop runs over this array while the body adds to the store.
    let friends ← FriendEntity.getFriends store
    friends.foldlM (addUnlessSame value) store
  else
    let model ← friendModel value
    some (FriendEntity.addFriend store model)

/-- `fetchFriends`: the store afterwards and how often the completion is called. -/
def fetchFriends (store : List Friend) (response : DataResponse) : Option (List Friend × Nat) :=
  match response.statusCode with
  | none => some (store, 0)
  | some code =>
    if code = 200 then
      match response.value with
      | some result => do
        let items ← result.asArray
        let store ← items.foldlM fetchItem store
        some (store, 1)
      | none => some (store, 0)
    else
      some (store, 1)

end FriendDataManager

/-- A well-formed list of friends from the server: each item is an object with all the fields, and
    with an id the store can hold. -/
structure FriendResponse where
  items : List Json
  models : List FriendModel
  parses : List.Forall₂ (fun item m => (item.asDictionary.bind friendModel) = some m) items models
  fits : ∀ m ∈ models, m.Fits

namespace FriendResponse

def response (r : FriendResponse) : DataResponse := ⟨some 200, some (.array r.items)⟩

/-- The ids of the response, in order. -/
def ids (r : FriendResponse) : List Int := r.models.map (·.id)

end FriendResponse

/-! What one item does to a store of models. -/

/-- The store after an item with model `m`: one copy for every record with another id. -/
def syncModel (ms : List FriendModel) (m : FriendModel) : List FriendModel :=
  if ms = [] then [m] else ms ++ List.replicate (ms.countP (·.id ≠ m.id)) m

theorem friendModel_id {entries : List (String × Json)} {m : FriendModel}
    (h : friendModel entries = some m) : intAt entries "Id" = some m.id := by
  simp only [friendModel, Option.bind_eq_bind, Option.bind_eq_some_iff, Option.some.injEq] at h
  obtain ⟨id, hid, _, -, _, -, _, -, _, -, rfl⟩ := h
  exact hid

theorem addUnlessSame_foldlM {value : List (String × Json)} {m : FriendModel}
    (hm : friendModel value = some m) (friends : List FriendModel) (ms : List FriendModel) :
    friends.foldlM (FriendDataManager.addUnlessSame value) (ms.map FriendModel.record) =
      some ((ms ++ List.replicate (friends.countP (·.id ≠ m.id)) m).map FriendModel.record) := by
  have hid := friendModel_id hm
  induction friends generalizing ms with
  | nil => simp
  | cons f friends ih =>
    rw [List.foldlM_cons, List.countP_cons]
    by_cases hf : f.id = m.id
    · have hstep : FriendDataManager.addUnlessSame value (ms.map FriendModel.record) f =
          some (ms.map FriendModel.record) := by
        simp [FriendDataManager.addUnlessSame, hid, hf]
      rw [hstep]
      simpa [hf] using ih ms
    · have hstep : FriendDataManager.addUnlessSame value (ms.map FriendModel.record) f =
          some ((ms ++ [m]).map FriendModel.record) := by
        simp [FriendDataManager.addUnlessSame, hid, hf, hm, FriendEntity.addFriend]
      rw [hstep]
      simpa [hf, List.replicate_succ] using ih (ms ++ [m])

theorem fetchItem_eq {item : Json} {m : FriendModel} (hm : (item.asDictionary.bind friendModel) = some m)
    {ms : List FriendModel} (hms : ∀ m ∈ ms, m.Fits) :
    FriendDataManager.fetchItem (ms.map FriendModel.record) item =
      some ((syncModel ms m).map FriendModel.record) := by
  obtain ⟨value, hvalue, hm⟩ := Option.bind_eq_some_iff.mp hm
  simp only [FriendDataManager.fetchItem, hvalue, getFriends_records hms, Option.bind_eq_bind,
    Option.bind_some]
  unfold syncModel
  cases ms with
  | nil => simp [hm, FriendEntity.addFriend]
  | cons f ms => simpa using addUnlessSame_foldlM hm (f :: ms) (f :: ms)

theorem syncModel_fits {ms : List FriendModel} {m : FriendModel} (hms : ∀ m ∈ ms, m.Fits)
    (hm : m.Fits) : ∀ m' ∈ syncModel ms m, m'.Fits := by
  unfold syncModel
  split
  · simpa using hm
  · intro m' hm'
    rcases List.mem_append.mp hm' with h | h
    · exact hms m' h
    · exact (List.eq_of_mem_replicate h) ▸ hm

/-- One run of `fetchFriends` on a well-formed response, over models. -/
theorem fetchFriends_eq (r : FriendResponse) {ms : List FriendModel} (hms : ∀ m ∈ ms, m.Fits) :
    FriendDataManager.fetchFriends (ms.map FriendModel.record) r.response =
      some ((r.models.foldl syncModel ms).map FriendModel.record, 1) ∧
    ∀ m ∈ r.models.foldl syncModel ms, m.Fits := by
  obtain ⟨items, models, parses, fits⟩ := r
  have hfold : items.foldlM FriendDataManager.fetchItem (ms.map FriendModel.record) =
      some ((models.foldl syncModel ms).map FriendModel.record) ∧
      ∀ m ∈ models.foldl syncModel ms, m.Fits := by
    induction parses generalizing ms with
    | nil => exact ⟨rfl, hms⟩
    | cons hm _ ih =>
      rw [List.forall_mem_cons] at fits
      rw [List.foldlM_cons, fetchItem_eq hm hms]
      exact ih (syncModel_fits hms fits.1) fits.2
  refine ⟨?_, hfold.2⟩
  simp [FriendDataManager.fetchFriends, FriendResponse.response, Json.asArray, hfold.1]

/-! The same over ids, and what the sync is for. -/

/-- The ids after an item with id `x`. -/
def syncId (ids : List Int) (x : Int) : List Int :=
  if ids = [] then [x] else ids ++ List.replicate (ids.countP (· ≠ x)) x

/-- The abstract sync: what is missing is added once, at the end, in the order of the response. -/
def insertMissing {α : Type} [DecidableEq α] (ids xs : List α) : List α :=
  xs.foldl (fun ids x => if x ∈ ids then ids else ids ++ [x]) ids

theorem syncModel_ids (ms : List FriendModel) (m : FriendModel) :
    (syncModel ms m).map (·.id) = syncId (ms.map (·.id)) m.id := by
  unfold syncModel syncId
  cases ms with
  | nil => simp
  | cons f ms => simp [List.countP_cons, List.countP_map, Function.comp_def]

theorem foldl_syncModel_ids (models ms : List FriendModel) :
    (models.foldl syncModel ms).map (·.id) = (models.map (·.id)).foldl syncId (ms.map (·.id)) := by
  induction models generalizing ms with
  | nil => rfl
  | cons m models ih => rw [List.foldl_cons, ih, syncModel_ids, List.map_cons, List.foldl_cons]

theorem subset_syncId (ids : List Int) (x : Int) : ids <+: syncId ids x := by
  unfold syncId
  split
  · next h => rw [h]; exact List.nil_prefix
  · exact List.prefix_append _ _

theorem prefix_foldl_syncId (xs ids : List Int) : ids <+: xs.foldl syncId ids := by
  induction xs generalizing ids with
  | nil => exact List.prefix_rfl
  | cons x xs ih => exact (subset_syncId ids x).trans (ih _)

/-- The id of an item is stored afterwards: with no other id in the store it is there already. -/
theorem mem_syncId (ids : List Int) (x y : Int) : y ∈ syncId ids x ↔ y ∈ ids ∨ y = x := by
  unfold syncId
  split
  · next h => simp [h]
  · next h =>
    rw [List.mem_append, List.mem_replicate]
    refine or_congr_right' fun hy => ?_
    refine ⟨fun h => h.2, fun hyx => ⟨?_, hyx⟩⟩
    subst hyx
    obtain ⟨z, hz⟩ := List.exists_mem_of_ne_nil ids h
    have hzy : z ≠ y := fun h => hy (h ▸ hz)
    exact (List.countP_pos_iff.mpr ⟨z, hz, by simpa using hzy⟩).ne'

theorem mem_foldl_syncId (xs ids : List Int) (y : Int) :
    y ∈ xs.foldl syncId ids ↔ y ∈ ids ∨ y ∈ xs := by
  induction xs generalizing ids with
  | nil => simp
  | cons x xs ih => rw [List.foldl_cons, ih, mem_syncId, List.mem_cons, or_assoc]

/-- With two distinct ids stored, any item makes a duplicate: a stored id gets a second record for
    every other one, a new id gets a record for each stored one. -/
theorem nodup_syncId {ids : List Int} (h : ids.Nodup) (x : Int) :
    (syncId ids x).Nodup ↔ ids.length ≤ 1 := by
  match ids, h with
  | [], _ => simp [syncId]
  | [p], _ => by_cases hp : p = x <;> simp [syncId, hp]
  | p :: q :: ids, h =>
    have hpq : p ≠ q := by
      intro hpq
      simp [hpq] at h
    simp only [List.length_cons, Nat.reduceLeDiff, iff_false]
    intro hnd
    rw [syncId, if_neg (by simp), List.nodup_append] at hnd
    obtain ⟨-, hrep, hdisj⟩ := hnd
    have hle := List.nodup_replicate.mp hrep
    by_cases hx : x ∈ p :: q :: ids
    · -- a stored id: one of the two others makes a second record of it
      have hpos : 0 < (p :: q :: ids).countP (· ≠ x) := by
        rw [List.countP_pos_iff]
        by_cases hp : p = x
        · exact ⟨q, by simp, by simpa [← hp] using hpq.symm⟩
        · exact ⟨p, by simp, by simpa using hp⟩
      exact hdisj x hx x (List.mem_replicate.mpr ⟨hpos.ne', rfl⟩) rfl
    · -- a new id: both make a record of it
      have hp : p ≠ x := fun h => hx (by simp [h])
      have hq : q ≠ x := fun h => hx (by simp [h])
      simp [hp, hq] at hle

/-- Where ids stay distinct the code's item step is the abstract one. -/
theorem syncId_of_length {ids : List Int} (h : ids.length ≤ 1) (x : Int) :
    syncId ids x = if x ∈ ids then ids else ids ++ [x] := by
  match ids, h with
  | [], _ => simp [syncId]
  | [p], _ =>
    by_cases hp : p = x
    · simp [syncId, hp]
    · have hxp : ¬ x = p := fun h => hp h.symm
      simp [syncId, hp, hxp]

theorem length_le_one_iff {ids : List Int} (h : ids.Nodup) :
    ids.length ≤ 1 ↔ ∀ x ∈ ids, ∀ y ∈ ids, x = y := by
  match ids, h with
  | [], _ => simp
  | [p], _ => simp
  | p :: q :: ids, h =>
    have hpq : p ≠ q := by
      intro hpq
      simp [hpq] at h
    simp only [List.length_cons, Nat.reduceLeDiff, false_iff]
    exact fun hall => hpq (hall p (by simp) q (by simp))

/-- Over all items ever received, from the empty store: ids stay distinct exactly as long as every
    item but the last has the same id. -/
theorem nodup_foldl_syncId_iff (xs : List Int) :
    (xs.foldl syncId []).Nodup ↔ ∀ x ∈ xs.dropLast, ∀ y ∈ xs.dropLast, x = y := by
  induction xs using List.reverseRecOn with
  | nil => simp
  | append_singleton xs x ih =>
    rw [List.foldl_append, List.foldl_cons, List.foldl_nil, List.dropLast_concat]
    have hmem : ∀ y, y ∈ xs.foldl syncId [] ↔ y ∈ xs := by simp [mem_foldl_syncId]
    refine ⟨?_, ?_⟩
    · intro h
      have hF : (xs.foldl syncId []).Nodup := h.sublist (subset_syncId _ x).sublist
      have hlen := (length_le_one_iff hF).mp ((nodup_syncId hF x).mp h)
      simpa only [hmem] using hlen
    · intro h
      have hF : (xs.foldl syncId []).Nodup := ih.mpr fun a ha b hb =>
        h a ((List.dropLast_subset xs) ha) b ((List.dropLast_subset xs) hb)
      refine (nodup_syncId hF x).mpr ((length_le_one_iff hF).mpr ?_)
      simpa only [hmem] using h

theorem foldl_syncId_eq {xs ids : List Int} (h : (xs.foldl syncId ids).Nodup) :
    xs.foldl syncId ids = insertMissing ids xs := by
  induction xs generalizing ids with
  | nil => rfl
  | cons x xs ih =>
    have hx : (syncId ids x).Nodup := h.sublist (prefix_foldl_syncId xs _).sublist
    have hids : ids.Nodup := hx.sublist (subset_syncId ids x).sublist
    rw [List.foldl_cons, ih h, syncId_of_length ((nodup_syncId hids x).mp hx)]
    rfl

/-- A second sync of the same items has nothing to add. -/
theorem insertMissing_again {α : Type} [DecidableEq α] (ids xs : List α) :
    insertMissing (insertMissing ids xs) xs = insertMissing ids xs := by
  have hstay : ∀ (xs ids : List α), (∀ x ∈ xs, x ∈ ids) → insertMissing ids xs = ids := by
    intro xs
    induction xs with
    | nil => intro _ _; rfl
    | cons x xs ih =>
      intro ids h
      rw [List.forall_mem_cons] at h
      show insertMissing (if x ∈ ids then ids else ids ++ [x]) xs = ids
      rw [if_pos h.1, ih ids h.2]
  have hgrow : ∀ (xs ids : List α), ids ⊆ insertMissing ids xs ∧ xs ⊆ insertMissing ids xs := by
    intro xs
    induction xs with
    | nil => exact fun ids => ⟨List.Subset.refl _, List.nil_subset _⟩
    | cons x xs ih =>
      intro ids
      obtain ⟨hids, hxs⟩ := ih (if x ∈ ids then ids else ids ++ [x])
      have hx : x ∈ (if x ∈ ids then ids else ids ++ [x]) := by split <;> simp [*]
      have hsub : ids ⊆ (if x ∈ ids then ids else ids ++ [x]) := by split <;> simp
      exact ⟨List.Subset.trans hsub hids, List.cons_subset.mpr ⟨hids hx, hxs⟩⟩
  exact hstay xs _ fun x hx => (hgrow xs ids).2 hx

/-! Runs of syncs. -/

namespace FriendSync

/-- One `fetchFriends` on a well-formed response. -/
def step (store : List Friend) (r : FriendResponse) : Option (List Friend) :=
  (FriendDataManager.fetchFriends store r.response).map Prod.fst

/-- No two records have the same id. -/
def Distinct (store : List Friend) : Prop := (store.map (·.id)).Nodup

/-- The run on `r` adds one record for each id of `r` that is not stored, and no other. -/
def AddsMissing (store : List Friend) (r : FriendResponse) : Prop :=
  ∀ store', step store r = some store' →
    store'.map (·.id.toInt) = insertMissing (store.map (·.id.toInt)) r.ids

/-- Every id the app receives, in the order it is handled. -/
def received (rs : List FriendResponse) : List Int := rs.flatMap FriendResponse.ids

theorem record_ids {ms : List FriendModel} (h : ∀ m ∈ ms, m.Fits) :
    (ms.map FriendModel.record).map (·.id.toInt) = ms.map (·.id) := by
  rw [List.map_map]
  exact List.map_congr_left fun m hm => FriendModel.toInt_record (h m hm)

theorem distinct_records {ms : List FriendModel} (h : ∀ m ∈ ms, m.Fits) :
    Distinct (ms.map FriendModel.record) ↔ (ms.map (·.id)).Nodup := by
  have hinj : Function.Injective Int32.toInt := fun _ _ h => Int32.toInt.inj h
  rw [Distinct, ← List.nodup_map_iff hinj, List.map_map, ← record_ids h]
  rfl

theorem step_records (r : FriendResponse) {ms : List FriendModel} (h : ∀ m ∈ ms, m.Fits) :
    ∃ ms' : List FriendModel, step (ms.map FriendModel.record) r = some (ms'.map FriendModel.record) ∧
      (∀ m ∈ ms', m.Fits) ∧ ms'.map (·.id) = r.ids.foldl syncId (ms.map (·.id)) := by
  obtain ⟨hstep, hfits⟩ := fetchFriends_eq r h
  exact ⟨_, by rw [step, hstep]; rfl, hfits, foldl_syncModel_ids _ _⟩

/-- A run keeps ids distinct exactly if its items do, and then adds exactly what is missing. -/
theorem distinct_run {ms : List FriendModel} (h : ∀ m ∈ ms, m.Fits) (rs : List FriendResponse) :
    (Runs.Throughout step Distinct (ms.map FriendModel.record) rs ↔
        ((received rs).foldl syncId (ms.map (·.id))).Nodup) ∧
      (((received rs).foldl syncId (ms.map (·.id))).Nodup →
        Runs.Along step AddsMissing (ms.map FriendModel.record) rs) := by
  induction rs generalizing ms with
  | nil => exact ⟨distinct_records h, fun _ => trivial⟩
  | cons r rs ih =>
    obtain ⟨ms', hstep, hfits, hids⟩ := step_records r h
    have hone : ∀ Q : List Friend → Prop,
        (∀ t, step (ms.map FriendModel.record) r = some t → Q t) ↔ Q (ms'.map FriendModel.record) := by
      intro Q
      rw [hstep]
      exact ⟨fun h => h _ rfl, fun h t ht => Option.some.inj ht ▸ h⟩
    have hfold : (received (r :: rs)).foldl syncId (ms.map (·.id)) =
        (received rs).foldl syncId (ms'.map (·.id)) := by
      rw [received, List.flatMap_cons, List.foldl_append, hids]
      rfl
    obtain ⟨ih₁, ih₂⟩ := ih hfits
    simp only [Runs.Throughout, Runs.Along, hone, hfold]
    -- the ids only grow, so distinct ids at the end were distinct all along
    refine ⟨?_, fun hnd => ⟨?_, ih₂ hnd⟩⟩
    · rw [ih₁, and_iff_right_iff_imp, distinct_records h]
      intro hnd
      have hpre := prefix_foldl_syncId (received (r :: rs)) (ms.map (·.id))
      rw [hfold] at hpre
      exact hnd.sublist hpre.sublist
    · rw [AddsMissing, hone, record_ids h, record_ids hfits, hids]
      apply foldl_syncId_eq
      rw [← hids]
      exact hnd.sublist (prefix_foldl_syncId _ _).sublist

/-- Over any sequence of syncs from the empty store, ids stay distinct and each sync adds exactly
    the missing friends, if and only if all items received before the last one have one id. -/
theorem friends_distinct_iff (rs : List FriendResponse) :
    (Runs.Throughout step Distinct [] rs ∧ Runs.Along step AddsMissing [] rs) ↔
      ∀ x ∈ (received rs).dropLast, ∀ y ∈ (received rs).dropLast, x = y := by
  have hnil : ∀ m ∈ ([] : List FriendModel), m.Fits := by simp
  obtain ⟨hdist, hadds⟩ := distinct_run hnil rs
  rw [← nodup_foldl_syncId_iff]
  exact ⟨fun h => hdist.mp h.1, fun h => ⟨hdist.mpr h, hadds h⟩⟩

/-- Where both add what is missing, a second sync on the same response adds nothing. -/
theorem second_sync_adds_nothing {store store' store'' : List Friend} {r : FriendResponse}
    (h : step store r = some store') (h' : step store' r = some store'')
    (hadds : AddsMissing store r) (hadds' : AddsMissing store' r) :
    store''.map (·.id.toInt) = store'.map (·.id.toInt) := by
  rw [hadds' store'' h', hadds store' h, insertMissing_again]

/-! The object a server sends for a friend. -/

def object (m : FriendModel) : Json :=
  .dictionary [("Id", .int m.id), ("PhotoUrl", .string m.photo), ("Username", .string m.username),
    ("Phone", .string m.phone), ("Language", .string m.language)]

theorem parse_object {m : FriendModel} (h : m.Fits) :
    (object m).asDictionary.bind friendModel = some m := by
  have h64 : Swift.fits64 m.id = true := by
    rw [← FriendModel.toInt_record h]
    exact Swift.fits64_toInt _
  simp [object, Json.asDictionary, friendModel, intAt, stringAt, Json.asInt, Json.asString,
    List.lookup_cons, h64]

def sends (ms : List FriendModel) (h : ∀ m ∈ ms, m.Fits) : FriendResponse where
  items := ms.map object
  models := ms
  parses := List.forall₂_map_left_iff.mpr (List.forall₂_same.mpr fun m hm => parse_object (h m hm))
  fits := h

/-- Two friends. -/
def pair : FriendResponse :=
  sends [⟨1, "1.jpg", "ann", "+1", "en"⟩, ⟨2, "2.jpg", "bo", "+2", "de"⟩]
    (by simp only [FriendModel.Fits]; decide)

/-- Syncing two friends twice stores the first twice and the second three times. -/
theorem second_sync_duplicates :
    (Runs.exec step [] [pair, pair]).map (fun store => store.map (·.id)) = some [1, 2, 1, 2, 2] ∧
      ¬ (Runs.Throughout step Distinct [] [pair, pair] ∧
        Runs.Along step AddsMissing [] [pair, pair]) := by
  have hrun : (Runs.exec step [] [pair, pair]).map (fun store => store.map (·.id)) =
      some [1, 2, 1, 2, 2] := by decide
  refine ⟨hrun, fun h => ?_⟩
  obtain ⟨store, hstore, hids⟩ := Option.map_eq_some_iff.mp hrun
  have hnd : Distinct store := Runs.throughout_last h.1 hstore
  rw [Distinct, hids] at hnd
  exact absurd hnd (by decide)

end FriendSync

end Shiftgram
