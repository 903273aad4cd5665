import Mathlib.Data.List.Nodup

/- Requests under way, kept in a list and known by a key. An answer finds the request with its key
   and takes it out; while the keys are distinct, taking out one request leaves all the others.
   Requests `α` and keys `κ` are arbitrary. -/
namespace Requests

variable {α κ : Type} [DecidableEq κ]

/-- The request with the key. -/
def find (key : α → κ) (l : List α) (k : κ) : Option α := l.find? (key · = k)

/-- The requests with other keys. -/
def drop (key : α → κ) (l : List α) (k : κ) : List α := l.filter (key · ≠ k)

variable {key : α → κ} {l : List α} {k : κ} {a b : α}

theorem find_mem (h : k ∈ l.map key) : ∃ a ∈ l, key a = k ∧ find key l k = some a := by
  obtain ⟨a, ha⟩ : ∃ a, find key l k = some a := by
    rw [← Option.isSome_iff_exists, find, List.find?_isSome]
    simpa using h
  exact ⟨a, List.mem_of_find?_eq_some ha, by simpa using List.find?_some ha, ha⟩

theorem mem_drop : a ∈ drop key l k ↔ a ∈ l ∧ key a ≠ k := by
  simp [drop]

theorem drop_sublist (key : α → κ) (l : List α) (k : κ) : (drop key l k).Sublist l :=
  List.filter_sublist

omit [DecidableEq κ] in
theorem eq_of_key (h : (l.map key).Nodup) (ha : a ∈ l) (hb : b ∈ l) (hk : key a = key b) : a = b :=
  List.inj_on_of_nodup_map h ha hb hk

omit [DecidableEq κ] in
theorem nodup_snoc (h : (l.map key).Nodup) (ha : key a ∉ l.map key) :
    ((l ++ [a]).map key).Nodup := by
  rw [List.map_append, List.map_singleton, List.nodup_append_comm, List.singleton_append,
    List.nodup_cons]
  exact ⟨ha, h⟩

theorem nodup_drop (h : (l.map key).Nodup) (k : κ) : ((drop key l k).map key).Nodup :=
  h.sublist ((drop_sublist key l k).map key)

/-- Taking out a request leaves all others. -/
theorem perm_drop (h : (l.map key).Nodup) (ha : a ∈ l) : l.Perm (a :: drop key l (key a)) := by
  have hrest : (a :: drop key l (key a)).Nodup := by
    rw [List.nodup_cons]
    exact ⟨by simp [mem_drop], h.of_map.sublist (drop_sublist key l _)⟩
  rw [List.perm_ext_iff_of_nodup h.of_map hrest]
  intro b
  rw [List.mem_cons, mem_drop]
  refine ⟨?_, ?_⟩
  · intro hb
    by_cases hk : key b = key a
    · exact Or.inl (eq_of_key h hb ha hk)
    · exact Or.inr ⟨hb, hk⟩
  · intro hb
    rcases hb with rfl | ⟨hb, -⟩
    · exact ha
    · exact hb

omit [DecidableEq κ] in
/-- Only one request has the key. -/
theorem forall_key (h : (l.map key).Nodup) (ha : a ∈ l) {P : α → Prop} :
    (∀ b ∈ l, key b = key a → P b) ↔ P a :=
  ⟨fun hall => hall a ha rfl, fun hP _ hb hk => eq_of_key h hb ha hk ▸ hP⟩

end Requests
