import Shiftgram.DataManagers

/- What the two requests for the friends leave in the local store.

   A sync keeps every record as it is and adds copies of the items it received, at least one where an
   item's id was not stored (`sync_spec`); how many is the subject of `FriendSync`. A refresh gives
   each stored friend the language that was sent last for it and changes nothing else, exactly if
   every friend that was sent is stored (`refresh_iff`): the records that a list is merged into are
   those of an earlier sync, so the list may have more.

   Assumed: saves and fetches succeed. -/
namespace Shiftgram

/-! ## What a sync adds -/

/-- The record has the five fields of the item. -/
def CopyOf (item : Json) (friend : Friend) : Prop :=
  ∃ value, item.asDictionary = some value ∧ intAt value "Id" = some friend.id.toInt ∧
    stringAt value "PhotoUrl" = friend.photo ∧ stringAt value "Username" = friend.username ∧
    stringAt value "Phone" = friend.phone ∧ stringAt value "Language" = friend.language

/-- Every record of `store` is there as it was, every id of the response has a record, and what is
    new are copies of items. -/
structure Synced (store : List Friend) (r : FriendResponse) (store' : List Friend) : Prop where
  kept : store <+: store'
  covers : ∀ id ∈ r.ids, id ∈ store'.map (·.id.toInt)
  added : ∀ friend ∈ store'.drop store.length, friend.Complete ∧ ∃ item ∈ r.items, CopyOf item friend

namespace FriendRecords

theorem copyOf_record {item : Json} {m : FriendModel}
    (hm : (item.asDictionary.bind friendModel) = some m) (hfits : m.Fits) :
    CopyOf item m.record := by
  obtain ⟨value, hvalue, hm⟩ := Option.bind_eq_some_iff.mp hm
  simp only [friendModel, Option.bind_eq_bind, Option.bind_eq_some_iff, Option.some.injEq] at hm
  obtain ⟨id, hid, photo, hphoto, username, husername, phone, hphone, language, hlanguage, rfl⟩ := hm
  refine ⟨value, hvalue, ?_, hphoto, husername, hphone, hlanguage⟩
  rw [hid, FriendModel.toInt_record hfits]

/-- Every model of a response comes from one of its items. -/
theorem item_of_model {items : List Json} {models : List FriendModel}
    (h : List.Forall₂ (fun item m => (item.asDictionary.bind friendModel) = some m) items models) :
    ∀ m ∈ models, ∃ item ∈ items, (item.asDictionary.bind friendModel) = some m := by
  induction h with
  | nil => exact fun m hm => absurd hm List.not_mem_nil
  | cons hm _ ih =>
    intro m' hm'
    rcases List.mem_cons.mp hm' with rfl | hm'
    · exact ⟨_, List.mem_cons_self, hm⟩
    · obtain ⟨item, hitem, hparse⟩ := ih m' hm'
      exact ⟨item, List.mem_cons_of_mem _ hitem, hparse⟩

/-- An item only adds copies of its model. -/
theorem syncModel_append (ms : List FriendModel) (m : FriendModel) :
    ∃ copies, syncModel ms m = ms ++ copies ∧ ∀ m' ∈ copies, m' = m := by
  unfold syncModel
  split
  · next hnil => exact ⟨[m], by rw [hnil, List.nil_append], by simp⟩
  · exact ⟨_, rfl, fun m' hm' => List.eq_of_mem_replicate hm'⟩

theorem foldl_syncModel_append (models ms : List FriendModel) :
    ∃ copies, models.foldl syncModel ms = ms ++ copies ∧ ∀ m ∈ copies, m ∈ models := by
  induction models generalizing ms with
  | nil => exact ⟨[], (List.append_nil ms).symm, by simp⟩
  | cons m models ih =>
    obtain ⟨copies, hcopies, hm⟩ := syncModel_append ms m
    obtain ⟨rest, hrest, hmem⟩ := ih (syncModel ms m)
    refine ⟨copies ++ rest, ?_, ?_⟩
    · rw [List.foldl_cons, hrest, hcopies, List.append_assoc]
    · rw [List.forall_mem_append]
      refine ⟨fun m' hm' => ?_, fun m' hm' => List.mem_cons_of_mem _ (hmem m' hm')⟩
      rw [hm m' hm']
      exact List.mem_cons_self

theorem synced_records (r : FriendResponse) {ms : List FriendModel} (hms : ∀ m ∈ ms, m.Fits) :
    Synced (ms.map FriendModel.record) r ((r.models.foldl syncModel ms).map FriendModel.record) := by
  have hfits := (fetchFriends_eq r hms).2
  obtain ⟨copies, hcopies, hmem⟩ := foldl_syncModel_append r.models ms
  refine ⟨?_, fun id hid => ?_, ?_⟩
  · rw [hcopies, List.map_append]
    exact List.prefix_append _ _
  · rw [FriendSync.record_ids hfits, foldl_syncModel_ids, mem_foldl_syncId]
    exact .inr hid
  · rw [hcopies, List.map_append, List.length_map, ← List.length_map (f := FriendModel.record),
      List.drop_left, List.forall_mem_map]
    intro m hm
    obtain ⟨item, hitem, hparse⟩ := item_of_model r.parses m (hmem m hm)
    exact ⟨m.record_complete, item, hitem, copyOf_record hparse (r.fits m (hmem m hm))⟩

/-- A sync of complete records ends; with an item and an incomplete record it traps. -/
theorem fetchFriends_ends (store : List Friend) (r : FriendResponse) :
    (∃ store', FriendDataManager.fetchFriends store r.response = some (store', 1)) ↔
      r.items = [] ∨ ∀ friend ∈ store, friend.Complete := by
  refine ⟨fun hends => ?_, ?_⟩
  · obtain ⟨-, hitems⟩ := (FriendDataManager.fetchFriends_iff store r.response).mp hends
    obtain ⟨items, hvalue, hcomplete, -⟩ := hitems rfl
    obtain rfl : r.items = items := Json.array.inj (Option.some.inj hvalue)
    exact or_iff_not_imp_left.mpr hcomplete
  · rintro (hnil | hcomplete)
    · refine ⟨store, ?_⟩
      simp [FriendDataManager.fetchFriends, FriendResponse.response, Json.asArray, hnil]
    · obtain ⟨ms, hms, rfl⟩ := (complete_iff_records store).mp hcomplete
      exact ⟨_, (fetchFriends_eq r hms).1⟩

/-- Nothing is lost and nothing invented by a sync. It ends, unless it has an item to compare with a
    record that lacks an attribute, which the app never writes. -/
theorem sync_spec (store : List Friend) (r : FriendResponse) :
    (∀ store' calls, FriendDataManager.fetchFriends store r.response = some (store', calls) →
      Synced store r store') ∧
    ((∃ store', FriendDataManager.fetchFriends store r.response = some (store', 1)) ↔
      r.items = [] ∨ ∀ friend ∈ store, friend.Complete) := by
  refine ⟨fun store' calls h => ?_, fetchFriends_ends store r⟩
  obtain ⟨merged, hmerged, hpair⟩ := Option.bind_eq_some_iff.mp h
  obtain ⟨rfl, rfl⟩ := Prod.mk.inj (Option.some.inj hpair)
  rcases (fetchFriends_ends store r).mp ⟨merged, h⟩ with hnil | hcomplete
  · -- there is nothing to add, and no id to cover
    rw [hnil] at hmerged
    obtain rfl := Option.some.inj hmerged
    have hmodels : r.models = [] := by
      have hparses := r.parses
      rw [hnil] at hparses
      exact List.forall₂_nil_left_iff.mp hparses
    refine ⟨List.prefix_rfl, ?_, ?_⟩
    · simp [FriendResponse.ids, hmodels]
    · simp
  · obtain ⟨ms, hms, rfl⟩ := (complete_iff_records store).mp hcomplete
    obtain ⟨rfl, -⟩ := Prod.mk.inj (Option.some.inj (h.symm.trans (fetchFriends_eq r hms).1))
    exact synced_records r hms

end FriendRecords

/-! ## What a refresh changes -/

namespace FriendResponse

/-- The language of the last item with the id. -/
def lastLanguage (models : List FriendModel) (id : Int) : Option String :=
  (models.filter (·.id = id)).getLast?.map (·.language)

/-- The friend with the language that was sent last for it, or as it is. -/
def refresh (models : List FriendModel) (friend : Friend) : Friend :=
  match lastLanguage models friend.id.toInt with
  | some language => { friend with language := some language }
  | none => friend

end FriendResponse

namespace FriendRecords

open FriendResponse (lastLanguage refresh)

theorem lastLanguage_cons (m : FriendModel) (models : List FriendModel) (id : Int) :
    lastLanguage (m :: models) id =
      (lastLanguage models id).or (if m.id = id then some m.language else none) := by
  unfold lastLanguage
  by_cases hid : m.id = id
  · simp only [List.filter_cons, hid, decide_true, if_true, List.getLast?_cons]
    cases (models.filter (·.id = id)).getLast? <;> rfl
  · simp [hid]

/-- The first item, then the others. -/
theorem refresh_cons (m : FriendModel) (models : List FriendModel) (friend : Friend) :
    refresh models (if friend.id.toInt = m.id then { friend with language := some m.language }
      else friend) = refresh (m :: models) friend := by
  unfold refresh
  rw [lastLanguage_cons]
  by_cases hid : friend.id.toInt = m.id
  · simp only [if_pos hid, if_pos hid.symm]
    cases lastLanguage models friend.id.toInt <;> rfl
  · simp only [if_neg hid, if_neg (Ne.symm hid), Option.or_none]

/-- With distinct ids the first record with an id is the one with it. -/
theorem updateFriend_distinct {store : List Friend} (h : (store.map (·.id.toInt)).Nodup)
    (set : Friend → Friend) {id : Int} (hid : id ∈ store.map (·.id.toInt)) :
    FriendEntity.updateFriend store set id =
      some (store.map fun friend => if friend.id.toInt = id then set friend else friend) := by
  induction store with
  | nil => exact absurd hid List.not_mem_nil
  | cons friend store ih =>
    rw [List.map_cons, List.nodup_cons] at h
    unfold FriendEntity.updateFriend
    by_cases hfirst : friend.id.toInt = id
    · have hrest : ∀ friend' ∈ store, ¬ friend'.id.toInt = id := by
        intro friend' hmem hsame
        exact h.1 (List.mem_map.mpr ⟨friend', hmem, hsame.trans hfirst.symm⟩)
      rw [if_pos hfirst, List.map_cons, if_pos hfirst,
        List.map_congr_left fun friend' hmem => if_neg (hrest friend' hmem), List.map_id']
    · have hid' : id ∈ store.map (·.id.toInt) :=
        (List.mem_cons.mp hid).resolve_left (Ne.symm hfirst)
      rw [if_neg hfirst, ih h.2 hid', List.map_cons, if_neg hfirst, Option.map_some]

theorem updateItem_eq {item : Json} {m : FriendModel}
    (hm : (item.asDictionary.bind friendModel) = some m) (store : List Friend) :
    FriendDataManager.updateItem store item =
      FriendEntity.updateFriend store (fun friend => { friend with language := some m.language })
        m.id := by
  obtain ⟨value, hvalue, hm⟩ := Option.bind_eq_some_iff.mp hm
  simp only [friendModel, Option.bind_eq_bind, Option.bind_eq_some_iff, Option.some.injEq] at hm
  obtain ⟨id, hid, photo, -, username, -, phone, -, language, hlanguage, rfl⟩ := hm
  simp only [FriendDataManager.updateItem, hvalue, hlanguage, hid, Option.bind_eq_bind,
    Option.bind_some]

/-- The loop over items whose friends are all stored. -/
theorem foldlM_updateItem {items : List Json} {models : List FriendModel}
    (h : List.Forall₂ (fun item m => (item.asDictionary.bind friendModel) = some m) items models)
    {store : List Friend} (hdistinct : (store.map (·.id.toInt)).Nodup)
    (hstored : ∀ m ∈ models, m.id ∈ store.map (·.id.toInt)) :
    items.foldlM FriendDataManager.updateItem store = some (store.map (refresh models)) := by
  induction h generalizing store with
  | nil => exact congrArg some (List.map_id'' (fun _ => rfl) store).symm
  | @cons item m items models hm _ ih =>
    rw [List.forall_mem_cons] at hstored
    let set (friend : Friend) : Friend :=
      if friend.id.toInt = m.id then { friend with language := some m.language } else friend
    have hids : (store.map set).map (·.id.toInt) = store.map (·.id.toInt) := by
      rw [List.map_map]
      refine List.map_congr_left fun friend _ => ?_
      simp only [set, Function.comp_apply]
      split <;> rfl
    have hone : FriendDataManager.updateItem store item = some (store.map set) := by
      rw [updateItem_eq hm]
      exact updateFriend_distinct hdistinct _ hstored.1
    rw [List.foldlM_cons, hone]
    show items.foldlM FriendDataManager.updateItem (store.map set) = _
    rw [ih (by rw [hids]; exact hdistinct) (by rw [hids]; exact hstored.2), List.map_map]
    exact congrArg some (List.map_congr_left fun friend _ => refresh_cons m models friend)

theorem updateLanguageFriends_some (store : List Friend) (r : FriendResponse) :
    FriendDataManager.updateLanguageFriends store r.response =
      (r.items.foldlM FriendDataManager.updateItem store).map fun store' => (store', 1) := by
  show ((r.items.foldlM FriendDataManager.updateItem store).bind fun store' => some (store', 1)) = _
  cases r.items.foldlM FriendDataManager.updateItem store <;> rfl

/-- A loop that ends has found each friend in the store. -/
theorem stored_of_foldlM {items : List Json} {models : List FriendModel}
    (h : List.Forall₂ (fun item m => (item.asDictionary.bind friendModel) = some m) items models)
    {store store' : List Friend}
    (hends : items.foldlM FriendDataManager.updateItem store = some store') :
    ∀ m ∈ models, m.id ∈ store.map (·.id.toInt) := by
  induction h generalizing store with
  | nil => simp
  | cons hm _ ih =>
    obtain ⟨next, hnext, hrest⟩ := Option.bind_eq_some_iff.mp hends
    have hids := FriendDataManager.updateItem_ids hnext
    rw [List.forall_mem_cons]
    refine ⟨?_, ?_⟩
    · rw [updateItem_eq hm] at hnext
      exact (updateFriend_iff _ _ _).mp ⟨next, hnext⟩
    · rw [← hids]
      exact ih hrest

/-- On a store with distinct ids a refresh ends, calls its completion and gives each friend the
    language that was sent last for it, if and only if every friend that was sent is stored. -/
theorem refresh_iff {store : List Friend} (h : FriendSync.Distinct store) (r : FriendResponse) :
    FriendDataManager.updateLanguageFriends store r.response =
        some (store.map (refresh r.models), 1) ↔
      ∀ id ∈ r.ids, id ∈ store.map (·.id.toInt) := by
  have hinj : Function.Injective Int32.toInt := fun _ _ h => Int32.toInt.inj h
  have hdistinct : (store.map (·.id.toInt)).Nodup := by
    have hmap := (List.nodup_map_iff hinj).mpr h
    rwa [List.map_map] at hmap
  rw [updateLanguageFriends_some, FriendResponse.ids, List.forall_mem_map]
  refine ⟨fun hends => ?_, fun hstored => ?_⟩
  · obtain ⟨store', hloop, -⟩ := Option.map_eq_some_iff.mp hends
    exact stored_of_foldlM r.parses hloop
  · rw [foldlM_updateItem r.parses hdistinct hstored, Option.map_some]

/-- The friend `1` alone, as a sync stores it. -/
def one : List Friend := [FriendModel.record ⟨1, "1.jpg", "ann", "+1", "de"⟩]

/-- Of the two friends sent the second is not stored, and the forced cast of no record traps. -/
theorem refresh_traps :
    FriendSync.Distinct one ∧
      FriendDataManager.updateLanguageFriends one FriendSync.pair.response = none ∧
      FriendDataManager.updateLanguageFriends one FriendSync.pair.response ≠
        some (one.map (refresh FriendSync.pair.models), 1) := by
  have htraps : FriendDataManager.updateLanguageFriends one FriendSync.pair.response = none := by
    decide
  refine ⟨by simp only [FriendSync.Distinct]; decide, htraps, ?_⟩
  rw [htraps]
  exact (Option.some_ne_none _).symm

/-- Three friends, as a sync stores them. -/
def three : List Friend :=
  [⟨1, "1.jpg", "ann", "+1", "de"⟩, ⟨2, "2.jpg", "bo", "+2", "fr"⟩, ⟨3, "3.jpg", "cy", "+3", "en"⟩].map
    FriendModel.record

/-- A response about two of them, which speaks twice of one. -/
def twice : FriendResponse :=
  FriendSync.sends [⟨2, "2.jpg", "bo", "+2", "es"⟩, ⟨1, "1.jpg", "ann", "+1", "en"⟩,
    ⟨2, "2.jpg", "bo", "+2", "it"⟩] (by simp only [FriendModel.Fits]; decide)

/-- The last language counts, and the third friend keeps its own. -/
theorem refresh_twice :
    FriendDataManager.updateLanguageFriends three twice.response =
      some (three.map (refresh twice.models), 1) ∧
    (three.map (refresh twice.models)).map (·.language) = [some "en", some "it", some "en"] :=
  ⟨(refresh_iff (by simp only [FriendSync.Distinct]; decide) twice).mpr (by decide), by decide⟩

end FriendRecords

end Shiftgram
