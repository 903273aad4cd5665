import Mathlib.Data.List.Basic

/- A database of nodes with child observers. A child pushed to a node is delivered to every observer
   of the node; an observer that joins a node first receives the last `limit` children already
   there, then every later one, until it is dropped. Nothing here says what nodes, observers and
   children are: `ν`, `ο` and `ι` are arbitrary. -/
namespace Feed

variable {ν ο ι : Type} [DecidableEq ν]

structure State (ν ο ι : Type) where
  /-- Every child present, oldest first, with its node. -/
  children : List (ν × ι)
  /-- Every observer, oldest first, with its node. -/
  observers : List (ν × ο)

def State.empty : State ν ο ι := ⟨[], []⟩

/-- The children of a node. -/
def State.at (s : State ν ο ι) (n : ν) : List ι := (s.children.filter (·.1 = n)).map Prod.snd

/-- The observers of a node. -/
def State.audience (s : State ν ο ι) (n : ν) : List ο := (s.observers.filter (·.1 = n)).map Prod.snd

/-- The last `limit` children of a node. -/
def State.latest (s : State ν ο ι) (limit : Nat) (n : ν) : List ι :=
  (s.at n).drop ((s.at n).length - limit)

/-- A new child, and its deliveries. -/
def push (s : State ν ο ι) (n : ν) (x : ι) : State ν ο ι × List (ο × ι) :=
  ({ s with children := s.children ++ [(n, x)] }, (s.audience n).map fun o => (o, x))

/-- A new observer, and its deliveries. -/
def observe (limit : Nat) (s : State ν ο ι) (n : ν) (o : ο) : State ν ο ι × List (ο × ι) :=
  ({ s with observers := s.observers ++ [(n, o)] }, (s.latest limit n).map fun x => (o, x))

/-- A node removed with all its children; its observers stay. -/
def remove (s : State ν ο ι) (n : ν) : State ν ο ι :=
  { s with children := s.children.filter (·.1 ≠ n) }

/-- All observers dropped; the children stay. -/
def disconnect (s : State ν ο ι) : State ν ο ι := { s with observers := [] }

theorem mem_audience {s : State ν ο ι} {n : ν} {o : ο} : o ∈ s.audience n ↔ (n, o) ∈ s.observers := by
  simp [State.audience]

theorem mem_at {s : State ν ο ι} {n : ν} {x : ι} : x ∈ s.at n ↔ (n, x) ∈ s.children := by
  simp [State.at]

/-- A new child is the last of its node, and of no other. -/
theorem at_push (s : State ν ο ι) (n m : ν) (x : ι) :
    (push s n x).1.at m = if m = n then s.at m ++ [x] else s.at m := by
  unfold push State.at
  rw [List.filter_append, List.map_append]
  by_cases hm : m = n
  · simp [hm]
  · simp [hm, Ne.symm hm]

/-- A removed node has no children, and the others keep theirs. -/
theorem at_remove (s : State ν ο ι) (n m : ν) :
    (remove s n).at m = if m = n then [] else s.at m := by
  unfold remove State.at
  rw [List.filter_filter]
  by_cases hm : m = n
  · simp [hm]
  · rw [if_neg hm]
    congr 1
    apply List.filter_congr
    intro child _
    by_cases hchild : child.1 = m
    · simp [hchild, hm]
    · simp [hchild]

/-- Counting the observers of a node that have a property. -/
theorem length_audience (s : State ν ο ι) (n : ν) (q : ο → Bool) :
    ((s.audience n).filter q).length = s.observers.countP fun p => decide (p.1 = n) && q p.2 := by
  simp [State.audience, List.filter_map, List.countP_eq_length_filter, List.filter_filter,
    Function.comp_def, Bool.and_comm]

theorem nodup_at {key : ι → Nat} {s : State ν ο ι} (h : (s.children.map fun p => key p.2).Nodup)
    (n : ν) : ((s.at n).map key).Nodup := by
  rw [State.at, List.map_map]
  exact h.sublist ((List.filter_sublist).map _)

/-- Nothing is latest only where there is nothing. -/
theorem latest_eq_nil {s : State ν ο ι} {limit : Nat} (hlimit : 0 < limit) {n : ν} :
    s.latest limit n = [] ↔ s.at n = [] := by
  rw [State.latest, List.drop_eq_nil_iff, ← List.length_eq_zero_iff]
  omega

theorem latest_congr {s s' : State ν ο ι} (h : s'.children = s.children) (limit : Nat) (n : ν) :
    s'.latest limit n = s.latest limit n := by
  unfold State.latest State.at
  rw [h]

theorem mem_of_latest {s : State ν ο ι} {limit : Nat} {n : ν} {x : ι} (h : x ∈ s.latest limit n) :
    (n, x) ∈ s.children :=
  mem_at.mp (List.mem_of_mem_drop h)

/-! Receivers: observers that are known by their positions in a list react to deliveries. -/

variable {ρ : Type}

/-- Each delivery in its turn. -/
def deliver (react : ρ → ι → ρ) (receivers : List ρ) (deliveries : List (Nat × ι)) : List ρ :=
  deliveries.foldl (fun receivers d => receivers.modify d.1 fun r => react r d.2) receivers

@[simp] theorem length_deliver (react : ρ → ι → ρ) (receivers : List ρ)
    (deliveries : List (Nat × ι)) :
    (deliver react receivers deliveries).length = receivers.length := by
  induction deliveries generalizing receivers with
  | nil => rfl
  | cons d deliveries ih =>
    rw [deliver, List.foldl_cons]
    exact (ih _).trans (List.length_modify _ _ _)

/-- A receiver reacts to what is delivered to it, and to nothing else. -/
theorem getElem?_deliver (react : ρ → ι → ρ) (receivers : List ρ) (deliveries : List (Nat × ι))
    (i : Nat) : (deliver react receivers deliveries)[i]? = receivers[i]?.map fun r =>
      ((deliveries.filter (·.1 = i)).map Prod.snd).foldl react r := by
  induction deliveries generalizing receivers with
  | nil => simp [deliver]
  | cons d deliveries ih =>
    rw [deliver, List.foldl_cons]
    refine (ih _).trans ?_
    rw [List.getElem?_modify]
    by_cases hd : d.1 = i
    · simp [hd, Function.comp_def]
    · simp [hd]

theorem mem_deliver {react : ρ → ι → ρ} {receivers : List ρ} {deliveries : List (Nat × ι)} {r' : ρ} :
    r' ∈ deliver react receivers deliveries ↔ ∃ i r, receivers[i]? = some r ∧
      ((deliveries.filter (·.1 = i)).map Prod.snd).foldl react r = r' := by
  rw [List.mem_iff_getElem?]
  simp only [getElem?_deliver, Option.map_eq_some_iff]

/-- What a receiver that just joined gets, it alone gets. -/
theorem deliver_last (react : ρ → ι → ρ) (receivers : List ρ) (r : ρ) (xs : List ι) :
    deliver react (receivers ++ [r]) (xs.map fun x => (receivers.length, x)) =
      receivers ++ [xs.foldl react r] := by
  apply List.ext_getElem?
  intro i
  rw [getElem?_deliver, List.filter_map, List.map_map]
  rcases Nat.lt_trichotomy i receivers.length with hi | rfl | hi
  · rw [List.getElem?_append_left hi, List.getElem?_append_left hi]
    have hne : receivers.length ≠ i := Nat.ne_of_gt hi
    simp [Function.comp_def, hne]
  · simp [Function.comp_def]
  · have hlength : ∀ r' : ρ, (receivers ++ [r']).length ≤ i := fun r' => by
      simpa using Nat.succ_le_of_lt hi
    rw [List.getElem?_eq_none (hlength _), List.getElem?_eq_none (hlength _)]
    rfl

/-! Routing: deliveries stay between observers and children of one node. -/

/-- Every child belongs where it is and every observer listens where it belongs. -/
structure Routed (child : ι → ν → Prop) (observer : ο → ν → Prop) (s : State ν ο ι) : Prop where
  children : ∀ p ∈ s.children, child p.2 p.1
  observers : ∀ p ∈ s.observers, observer p.2 p.1

variable {child : ι → ν → Prop} {observer : ο → ν → Prop} {s : State ν ο ι} {n : ν}

omit [DecidableEq ν] in
theorem routed_empty : Routed child observer (State.empty : State ν ο ι) :=
  ⟨by simp [State.empty], by simp [State.empty]⟩

theorem Routed.push (h : Routed child observer s) {x : ι} (hx : child x n) :
    Routed child observer (push s n x).1 ∧
      ∀ d ∈ (Feed.push s n x).2, ∃ m, observer d.1 m ∧ child d.2 m := by
  refine ⟨⟨?_, h.observers⟩, ?_⟩
  · intro p hp
    rcases List.mem_append.mp hp with hp | hp
    · exact h.children p hp
    · rw [List.mem_singleton.mp hp]; exact hx
  · intro d hd
    obtain ⟨o, ho, rfl⟩ := List.mem_map.mp hd
    exact ⟨n, h.observers _ (mem_audience.mp ho), hx⟩

theorem Routed.observe (h : Routed child observer s) (limit : Nat) {o : ο} (ho : observer o n) :
    Routed child observer (observe limit s n o).1 ∧
      ∀ d ∈ (Feed.observe limit s n o).2, ∃ m, observer d.1 m ∧ child d.2 m := by
  refine ⟨⟨h.children, ?_⟩, ?_⟩
  · intro p hp
    rcases List.mem_append.mp hp with hp | hp
    · exact h.observers p hp
    · rw [List.mem_singleton.mp hp]; exact ho
  · intro d hd
    obtain ⟨x, hx, rfl⟩ := List.mem_map.mp hd
    exact ⟨n, ho, h.children _ (mem_of_latest hx)⟩

end Feed
