import Mathlib.Logic.Function.Basic
import Shiftgram.ConversationName
import Shiftgram.Feed

/- The nodes under the database root. All conversations and all five kinds of records share one level
   of names there, and a name is the product of a conversation followed by the suffix of the kind, of
   which one is a prefix of another.

   No two of the names are equal (`node_inj`), so the database behaves as a table of lists by product
   and kind (`view_run`): a write reaches the list it is meant for and no other. In particular no
   sequence of writes and removals takes a record from a node that is not itself removed
   (`channels_apart`). -/
namespace Shiftgram

namespace Nodes

/-- The product of a conversation and a kind of records. -/
abbrev Place := Int32 × Channel

/-- `databaseRoot.child(String(product) + suffix)` -/
def nodeOf (p : Place) : String := node (Swift.string p.1) p.2

inductive Op (ι : Type)
  | childByAutoId (p : Place) (value : ι)
  | removeValue (p : Place)

variable {ο ι : Type}

def apply (s : Feed.State String ο ι) : Op ι → Feed.State String ο ι
  | .childByAutoId p value => (Feed.push s (nodeOf p) value).1
  | .removeValue p => Feed.remove s (nodeOf p)

/-- What the nodes are for: a list of records for each product and kind. -/
abbrev Table (ι : Type) := Place → List ι

def Table.apply (t : Table ι) : Op ι → Table ι
  | .childByAutoId p value => Function.update t p (t p ++ [value])
  | .removeValue p => Function.update t p []

/-- The database as a table. -/
def view (s : Feed.State String ο ι) : Table ι := fun p => s.at (nodeOf p)

theorem nodeOf_inj {p q : Place} : nodeOf p = nodeOf q ↔ p = q :=
  node_inj.trans Prod.ext_iff.symm

/-- One write changes one list. -/
theorem view_apply (s : Feed.State String ο ι) (op : Op ι) :
    view (apply s op) = (view s).apply op := by
  funext q
  cases op with
  | childByAutoId p value =>
    show (Feed.push s (nodeOf p) value).1.at (nodeOf q) = Function.update (view s) p _ q
    rw [Feed.at_push, Function.update_apply]
    by_cases hq : q = p
    · -- only here do the names of the two nodes agree
      rw [if_pos (nodeOf_inj.mpr hq), if_pos hq, hq]
      rfl
    · rw [if_neg fun h => hq (nodeOf_inj.mp h), if_neg hq]
      rfl
  | removeValue p =>
    show (Feed.remove s (nodeOf p)).at (nodeOf q) = Function.update (view s) p _ q
    rw [Feed.at_remove, Function.update_apply]
    by_cases hq : q = p
    · rw [if_pos (nodeOf_inj.mpr hq), if_pos hq]
    · rw [if_neg fun h => hq (nodeOf_inj.mp h), if_neg hq]
      rfl

/-- So do any number of them. -/
theorem view_run (s : Feed.State String ο ι) (ops : List (Op ι)) :
    view (ops.foldl apply s) = ops.foldl Table.apply (view s) := by
  induction ops generalizing s with
  | nil => rfl
  | cons op ops ih =>
    rw [List.foldl_cons, List.foldl_cons, ← view_apply]
    exact ih (apply s op)

/-- A list is only emptied by its own removal. -/
theorem prefix_apply {t : Table ι} {p : Place} {op : Op ι} (h : op ≠ .removeValue p) :
    t p <+: t.apply op p := by
  cases op with
  | childByAutoId q value =>
    show t p <+: Function.update t q _ p
    rw [Function.update_apply]
    split
    · next hq =>
      rw [hq]
      exact List.prefix_append _ _
    · exact List.prefix_refl _
  | removeValue q =>
    have hq : p ≠ q := by
      rintro rfl
      exact h rfl
    have hsame : t.apply (.removeValue q) p = t p := Function.update_of_ne hq _ _
    exact hsame ▸ List.prefix_refl _

theorem prefix_run {t : Table ι} {p : Place} {ops : List (Op ι)}
    (h : ∀ op ∈ ops, op ≠ .removeValue p) : t p <+: ops.foldl Table.apply t p := by
  induction ops generalizing t with
  | nil => exact List.prefix_refl _
  | cons op ops ih =>
    rw [List.forall_mem_cons] at h
    exact (prefix_apply h.1).trans (ih h.2)

/-- For all products and kinds: the names of two nodes are equal only if products and kinds are, and
    whatever is written and removed in any order, the records of a node that is not itself removed
    stay, in their order. -/
theorem channels_apart :
    (∀ (m n : Int32) (c d : Channel),
      node (Swift.string m) c = node (Swift.string n) d → m = n ∧ c = d) ∧
    ∀ (ο ι : Type) (s : Feed.State String ο ι) (ops : List (Op ι)) (n : Int32) (d : Channel),
      (∀ op ∈ ops, op ≠ .removeValue (n, d)) →
        s.at (node (Swift.string n) d) <+: (ops.foldl apply s).at (node (Swift.string n) d) := by
  refine ⟨fun m n c d h => node_inj.mp h, ?_⟩
  intro ο ι s ops n d h
  have hprefix : view s (n, d) <+: ops.foldl Table.apply (view s) (n, d) := prefix_run h
  rw [← view_run] at hprefix
  exact hprefix

end Nodes

end Shiftgram
