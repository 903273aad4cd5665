import Shiftgram.ContactSync

/- The phone numbers that a sync posts. Of every contact it takes the first number as the address book
   has it, leaves out those that are equal to the own number, and posts the others. The extension of
   `String` that brings a number of the Contacts framework into the form of the server's numbers,
   `parseCNPhone`, is called from nowhere.

   `canonical_iff`: what is posted is in that form, and never the own number, exactly if every first
   number is so already, or is the own number character by character; `canonical_iff_plain`: for an own
   number of digits and `+`, exactly if every first number is made of these.

   A `Character` is one scalar here: digits do not carry combining marks. -/
namespace Shiftgram

/-- The characters that `parseCNPhone` keeps. -/
def isPhoneCharacter (ch : Char) : Bool := ('0' ≤ ch && ch ≤ '9') || ch == '+'

/-- `String.parseCNPhone` -/
def parseCNPhone (phone : String) : String := String.ofList (phone.toList.filter isPhoneCharacter)

namespace ContactNumbers

/-- A number of digits and `+`. -/
def Plain (phone : String) : Prop := ∀ ch ∈ phone.toList, isPhoneCharacter ch = true

instance (phone : String) : Decidable (Plain phone) :=
  inferInstanceAs (Decidable (∀ ch ∈ phone.toList, _))

/-- Every number posted is its own normal form, and not that of the own number. -/
def Canonical (users : List User) (book : Option (List CNContact)) : Prop :=
  ∀ accountAId accountBPhone,
    .post accountAId accountBPhone ∈ ContactViewModel.addContacts users book →
      parseCNPhone accountBPhone = accountBPhone ∧
        parseCNPhone accountBPhone ≠ parseCNPhone (UserEntity.getUserPhone users)

/-- The first numbers of the contacts that have one. -/
def firstNumbers (book : Option (List CNContact)) : List String :=
  (book.getD []).filterMap (·.phoneNumbers.head?)

theorem parseCNPhone_eq_self_iff (phone : String) : parseCNPhone phone = phone ↔ Plain phone := by
  rw [parseCNPhone, ← String.toList_inj, String.toList_ofList, List.filter_eq_self]
  rfl

/-- The first numbers are posted, without the own one. -/
theorem addContacts_eq (users : List User) (book : Option (List CNContact)) :
    ContactViewModel.addContacts users book =
      ((firstNumbers book).filter (· ≠ UserEntity.getUserPhone users)).map
        (.post (UserEntity.getUserId users)) := by
  cases book with
  | none => rfl
  | some values =>
    let contacts : List Contact := values.filterMap fun value =>
      value.phoneNumbers.head?.map fun phone => ⟨value.givenName, phone⟩
    have hphones : contacts.map (·.phone) = firstNumbers (some values) := by
      show (values.filterMap _).map _ = values.filterMap _
      rw [List.map_filterMap]
      simp only [Option.map_map, Function.comp_def, Option.map_id']
    -- the filter of the contacts looks at their numbers only
    rw [← hphones, List.filter_map, List.map_map]
    rfl

/-- Canonical means: every first number is, that is not the own one as it is stored. -/
theorem canonical_first (users : List User) (book : Option (List CNContact)) :
    Canonical users book ↔ ∀ phone ∈ firstNumbers book, phone ≠ UserEntity.getUserPhone users →
      parseCNPhone phone = phone ∧
        parseCNPhone phone ≠ parseCNPhone (UserEntity.getUserPhone users) := by
  unfold Canonical
  rw [addContacts_eq]
  refine ⟨?_, ?_⟩
  · intro h phone hphone hother
    apply h (UserEntity.getUserId users) phone
    exact List.mem_map_of_mem (List.mem_filter.mpr ⟨hphone, decide_eq_true hother⟩)
  · intro h accountAId accountBPhone hposted
    obtain ⟨phone, hphone, hpost⟩ := List.mem_map.mp hposted
    obtain ⟨rfl, rfl⟩ := SyncRequest.post.inj hpost
    obtain ⟨hfirst, hother⟩ := List.mem_filter.mp hphone
    exact h phone hfirst (of_decide_eq_true hother)

/-- For a number that is its own normal form, the other half compares the number itself. -/
theorem canonical_number_iff {own phone : String} :
    (parseCNPhone phone = phone ∧ parseCNPhone phone ≠ parseCNPhone own) ↔
      Plain phone ∧ phone ≠ parseCNPhone own := by
  rw [parseCNPhone_eq_self_iff]
  refine and_congr_right fun hplain => ?_
  rw [(parseCNPhone_eq_self_iff phone).mpr hplain]

/-- For every address book and every own number: the numbers posted are canonical exactly if each
    first number is the own one as it is stored, or is made of digits and `+` and is not the normal
    form of the own one. -/
theorem canonical_iff (users : List User) (book : Option (List CNContact)) :
    Canonical users book ↔ ∀ phone ∈ firstNumbers book,
      phone = UserEntity.getUserPhone users ∨
        (Plain phone ∧ phone ≠ parseCNPhone (UserEntity.getUserPhone users)) := by
  rw [canonical_first]
  refine forall₂_congr fun phone _ => ?_
  rw [canonical_number_iff, ne_eq, or_iff_not_imp_left]

/-- The filter leaves out an own number of digits and `+`, so the others are canonical exactly if they
    are made of these. -/
theorem canonical_iff_plain {users : List User} (h : Plain (UserEntity.getUserPhone users))
    (book : Option (List CNContact)) :
    Canonical users book ↔ ∀ phone ∈ firstNumbers book, Plain phone := by
  rw [canonical_first]
  refine forall₂_congr fun phone _ => ?_
  rw [canonical_number_iff, (parseCNPhone_eq_self_iff _).mpr h]
  refine ⟨?_, ?_⟩
  · intro hother
    by_cases hown : phone = UserEntity.getUserPhone users
    · exact hown ▸ h
    · exact (hother hown).1
  · intro hplain hother
    exact ⟨hplain, hother⟩

/-- The own number is in the address book as well, with blanks. -/
def spaced : Option (List CNContact) := some [⟨"Ann", ["+380 (50) 111-22-33"]⟩]

def ann : List User := [⟨7, "+380501112233", "en", true, true, true⟩]

/-- It is posted, and is the own number up to its format. -/
theorem spaced_posts : ContactViewModel.addContacts ann spaced = [.post 7 "+380 (50) 111-22-33"] ∧
    parseCNPhone "+380 (50) 111-22-33" = parseCNPhone (UserEntity.getUserPhone ann) ∧
    ¬ Canonical ann spaced := by
  have hposts : ContactViewModel.addContacts ann spaced = [.post 7 "+380 (50) 111-22-33"] := by decide
  have hsame : parseCNPhone "+380 (50) 111-22-33" = parseCNPhone (UserEntity.getUserPhone ann) := by
    decide
  refine ⟨hposts, hsame, fun h => ?_⟩
  exact (h 7 "+380 (50) 111-22-33" (by rw [hposts]; exact List.mem_singleton_self _)).2 hsame

end ContactNumbers

end Shiftgram
