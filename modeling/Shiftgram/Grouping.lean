import Mathlib.Data.List.Sort
import Mathlib.Data.List.Perm.Basic

/- Pairs that are grouped by their first part. `add` puts a value into the group of its key, and `sorted`
   reads the groups out by sorted keys, the values of each sorted too. What is read out are the pairs
   that were put in (`sorted_perm`), in the order of pairs (`sorted_pairwise`), so that it is the same
   for two dictionaries exactly if they hold the same pairs (`sorted_eq_iff`). -/
namespace Grouping

variable {κ β : Type}

def add [DecidableEq κ] : List (κ × List β) → κ → β → List (κ × List β)
  | [], key, value => [(key, [value])]
  | group :: groups, key, value =>
    if group.1 = key then (key, group.2 ++ [value]) :: groups else group :: add groups key value

def keys (groups : List (κ × List β)) : List κ := groups.map Prod.fst

/-- The pairs of all groups. -/
def pairs (groups : List (κ × List β)) : List (κ × β) :=
  groups.flatMap fun group => group.2.map fun value => (group.1, value)

section Add

variable [DecidableEq κ]

theorem pairs_add (groups : List (κ × List β)) (key : κ) (value : β) :
    (pairs (add groups key value)).Perm (pairs groups ++ [(key, value)]) := by
  induction groups with
  | nil => exact List.Perm.refl _
  | cons group groups ih =>
    unfold add
    split
    · next heq =>
      subst heq
      simp only [pairs, List.flatMap_cons, List.map_append, List.map_singleton, List.append_assoc]
      exact List.perm_append_comm.append_left _
    · simp only [pairs, List.flatMap_cons, List.append_assoc] at ih ⊢
      exact ih.append_left _

theorem mem_keys_add {groups : List (κ × List β)} {key key' : κ} {value : β} :
    key' ∈ keys (add groups key value) ↔ key' ∈ keys groups ∨ key' = key := by
  induction groups with
  | nil => simp [add, keys]
  | cons group groups ih =>
    unfold add
    split
    · next heq =>
      subst heq
      simp only [keys, List.map_cons, List.mem_cons]
      exact ⟨Or.inl, fun h => h.elim id Or.inl⟩
    · simp only [keys, List.map_cons, List.mem_cons] at ih ⊢
      rw [ih, or_assoc]

/-- Every key has one group. -/
theorem nodup_keys_add {groups : List (κ × List β)} (h : (keys groups).Nodup) (key : κ) (value : β) :
    (keys (add groups key value)).Nodup := by
  induction groups with
  | nil => exact List.nodup_singleton key
  | cons group groups ih =>
    obtain ⟨hnot, hrest⟩ := List.nodup_cons.1 h
    unfold add
    split
    · next heq =>
      subst heq
      exact h
    · next hne =>
      refine List.nodup_cons.2 ⟨fun hmem => ?_, ih hrest⟩
      obtain hmem | heq := mem_keys_add.1 hmem
      · exact hnot hmem
      · exact hne heq

end Add

/-! ## Reading out -/

section Sorted

variable [LinearOrder κ] [LinearOrder β]

/-- The values of a key. -/
def values (groups : List (κ × List β)) (key : κ) : List β := (groups.lookup key).getD []

def sorted (groups : List (κ × List β)) : List (κ × β) :=
  ((keys groups).insertionSort (· ≤ ·)).flatMap fun key =>
    ((values groups key).insertionSort (· ≤ ·)).map fun value => (key, value)

/-- The order of pairs. -/
def Before (x y : κ × β) : Prop := x.1 < y.1 ∨ x.1 = y.1 ∧ x.2 ≤ y.2

theorem before_antisymm {x y : κ × β} (h : Before x y) (h' : Before y x) : x = y := by
  obtain hlt | ⟨heq, hle⟩ := h
  · obtain hlt' | ⟨heq', -⟩ := h'
    · exact absurd hlt (lt_asymm hlt')
    · exact absurd heq'.symm hlt.ne
  · obtain hlt' | ⟨-, hle'⟩ := h'
    · exact absurd heq.symm hlt'.ne
    · exact Prod.ext heq (le_antisymm hle hle')

omit [LinearOrder β] in
theorem flatMap_values {groups : List (κ × List β)} (h : (keys groups).Nodup) :
    (keys groups).flatMap (fun key => (values groups key).map fun value => (key, value)) = pairs groups := by
  induction groups with
  | nil => rfl
  | cons group groups ih =>
    obtain ⟨first, vs⟩ := group
    obtain ⟨hnot, hrest⟩ := List.nodup_cons.1 h
    have hfirst : values ((first, vs) :: groups) first = vs := by
      rw [values, List.lookup_cons_self]
      rfl
    have hothers : ∀ key ∈ keys groups, values ((first, vs) :: groups) key = values groups key := by
      intro key hkey
      have hne : (key == first) = false := beq_eq_false_iff_ne.2 fun heq => hnot (heq ▸ hkey)
      rw [values, List.lookup_cons, hne]
      rfl
    have htail : (keys groups).flatMap
        (fun key => (values ((first, vs) :: groups) key).map fun value => (key, value)) = pairs groups := by
      rw [← ih hrest]
      exact List.flatMap_congr fun key hkey => by rw [hothers key hkey]
    simp only [keys, pairs, List.map_cons, List.flatMap_cons, hfirst] at htail ⊢
    rw [htail]

theorem sorted_perm {groups : List (κ × List β)} (h : (keys groups).Nodup) :
    (sorted groups).Perm (pairs groups) := by
  have hkeys := List.perm_insertionSort (· ≤ ·) (keys groups)
  have hvalues : ∀ key ∈ keys groups,
      (((values groups key).insertionSort (· ≤ ·)).map fun value => (key, value)).Perm
        ((values groups key).map fun value => (key, value)) := fun key _ =>
    (List.perm_insertionSort (· ≤ ·) (values groups key)).map _
  rw [← flatMap_values h]
  exact (hkeys.flatMap_right _).trans (List.Perm.flatMap_left _ hvalues)

theorem sorted_pairwise {groups : List (κ × List β)} (h : (keys groups).Nodup) :
    (sorted groups).Pairwise Before := by
  refine List.pairwise_flatMap.2 ⟨fun key _ => ?_, ?_⟩
  · rw [List.pairwise_map]
    exact (List.pairwise_insertionSort (· ≤ ·) (values groups key)).imp fun hle => Or.inr ⟨rfl, hle⟩
  · have hnodup := (List.perm_insertionSort (· ≤ ·) (keys groups)).nodup_iff.2 h
    refine ((List.pairwise_insertionSort (· ≤ ·) (keys groups)).and hnodup).imp ?_
    rintro key key' ⟨hle, hne⟩ x hx y hy
    obtain ⟨_, -, rfl⟩ := List.mem_map.1 hx
    obtain ⟨_, -, rfl⟩ := List.mem_map.1 hy
    exact Or.inl (lt_of_le_of_ne hle hne)

theorem sorted_eq_iff {groups groups' : List (κ × List β)} (h : (keys groups).Nodup)
    (h' : (keys groups').Nodup) : sorted groups = sorted groups' ↔ (pairs groups).Perm (pairs groups') := by
  refine ⟨fun heq => ?_, fun hperm => ?_⟩
  · have hperm := sorted_perm h
    rw [heq] at hperm
    exact hperm.symm.trans (sorted_perm h')
  · exact List.Perm.eq_of_pairwise (fun _ _ _ _ => before_antisymm) (sorted_pairwise h) (sorted_pairwise h')
      ((sorted_perm h).trans (hperm.trans (sorted_perm h').symm))

end Sorted

end Grouping
