import Mathlib.Data.List.Perm.Basic

/- Items that enter a waiting room and are finished one by one. `R x y` says that `x` may be finished
   before `y`. The order of finishing respects `R` exactly if no item is finished before one that
   has to come first: a list of finished items is in turn with those still waiting, and each
   operation keeps this and can only lose it for good. Items `α` and the relation `R` are
   arbitrary. -/
namespace Overtaking

variable {α : Type} {R : α → α → Prop} {waiting waiting' done : List α} {x : α}

/-- The finished items are in order, and none of those waiting had to come before them. -/
structure InTurn (R : α → α → Prop) (waiting done : List α) : Prop where
  sorted : done.Pairwise R
  before : ∀ y ∈ done, ∀ z ∈ waiting, R y z

theorem inTurn_perm (h : waiting.Perm waiting') : InTurn R waiting done ↔ InTurn R waiting' done :=
  ⟨fun ⟨hd, hw⟩ => ⟨hd, fun y hy z hz => hw y hy z (h.mem_iff.mpr hz)⟩,
    fun ⟨hd, hw⟩ => ⟨hd, fun y hy z hz => hw y hy z (h.mem_iff.mp hz)⟩⟩

/-- An item may enter after everything that is finished. -/
theorem inTurn_enter (hx : ∀ y ∈ done, R y x) :
    InTurn R (x :: waiting) done ↔ InTurn R waiting done := by
  refine ⟨?_, ?_⟩
  · intro ⟨hd, hw⟩
    exact ⟨hd, fun y hy z hz => hw y hy z (List.mem_cons_of_mem x hz)⟩
  · intro ⟨hd, hw⟩
    refine ⟨hd, fun y hy z hz => ?_⟩
    rcases List.mem_cons.mp hz with rfl | hz
    · exact hx y hy
    · exact hw y hy z hz

/-- Finishing an item keeps the turn exactly if nobody waiting has to come first. -/
theorem inTurn_finish : InTurn R waiting (done ++ [x]) ↔
    InTurn R (x :: waiting) done ∧ ∀ z ∈ waiting, R x z := by
  refine ⟨?_, ?_⟩
  · intro ⟨hd, hw⟩
    obtain ⟨hdone, -, hlast⟩ := List.pairwise_append.mp hd
    refine ⟨⟨hdone, fun y hy z hz => ?_⟩, hw x (List.mem_append_right _ (List.mem_singleton_self x))⟩
    rcases List.mem_cons.mp hz with rfl | hz
    · exact hlast y hy z (List.mem_singleton_self z)
    · exact hw y (List.mem_append_left _ hy) z hz
  · intro ⟨⟨hd, hw⟩, hx⟩
    refine ⟨List.pairwise_append.mpr ⟨hd, List.pairwise_singleton R x, fun y hy z hz => ?_⟩,
      fun y hy z hz => ?_⟩
    · rw [List.mem_singleton.mp hz]
      exact hw y hy x List.mem_cons_self
    · rcases List.mem_append.mp hy with hy | hy
      · exact hw y hy z (List.mem_cons_of_mem x hz)
      · exact List.mem_singleton.mp hy ▸ hx z hz

/-- Once nobody waits, to be in turn is to be in order. -/
theorem inTurn_nil : InTurn R [] done ↔ done.Pairwise R :=
  ⟨InTurn.sorted, fun h => ⟨h, fun _ _ _ hz => absurd hz List.not_mem_nil⟩⟩

end Overtaking
