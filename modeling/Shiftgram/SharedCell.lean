import Mathlib.Data.Set.Insert

/- One mutable cell and readers that come back to it. A reader relies on the value the cell holds at
   some moment and reads the cell later; in between anyone may write. Readers find what they relied
   on in every run in which no write changes the value under a pending reader (`sound_run`).
   Readers `κ` and values `α` are arbitrary. -/
namespace SharedCell

variable {κ α : Type}

structure Cell (κ α : Type) where
  value : α
  /-- Readers that have not read yet, with the value each relies on. -/
  pending : Set (κ × α)
  /-- Reads that happened: the reader, what it relied on and what it found. -/
  reads : Set (κ × α × α)

inductive Op (κ α : Type)
  | write (v : α)
  | rely (k : κ) (v : α)
  | read (k : κ) (v : α)
  | drop (k : κ)

def Cell.step (c : Cell κ α) : Op κ α → Cell κ α
  | .write v => { c with value := v }
  | .rely k v => { c with pending := insert (k, v) c.pending }
  | .read k v =>
    { c with
      pending := {p ∈ c.pending | p.1 ≠ k}
      reads := insert (k, v, c.value) c.reads }
  | .drop k => { c with pending := {p ∈ c.pending | p.1 ≠ k} }

def Cell.run (c : Cell κ α) (ops : List (Op κ α)) : Cell κ α := ops.foldl Cell.step c

@[simp] theorem run_nil (c : Cell κ α) : c.run [] = c := rfl

@[simp] theorem run_cons (c : Cell κ α) (op : Op κ α) (ops : List (Op κ α)) :
    c.run (op :: ops) = (c.step op).run ops := rfl

/-- A write leaves the value under the pending readers as it is, a reader relies on what is there,
    and one that reads is pending. -/
def Undisturbed (c : Cell κ α) : Op κ α → Prop
  | .write v => ∀ p ∈ c.pending, p.2 = v
  | .rely _ v => v = c.value
  | .read k v => (k, v) ∈ c.pending
  | .drop _ => True

/-- So does every one of the operations. -/
def Calm : Cell κ α → List (Op κ α) → Prop
  | _, [] => True
  | c, op :: ops => Undisturbed c op ∧ Calm (c.step op) ops

/-- Pending readers rely on the value that is there, and every read found what it relied on. -/
structure Sound (c : Cell κ α) : Prop where
  pending : ∀ p ∈ c.pending, p.2 = c.value
  reads : ∀ r ∈ c.reads, r.2.1 = r.2.2

theorem sound_step {c : Cell κ α} (h : Sound c) {op : Op κ α} (hop : Undisturbed c op) :
    Sound (c.step op) := by
  cases op with
  | write v => exact ⟨hop, h.reads⟩
  | rely k v =>
    refine ⟨?_, h.reads⟩
    rintro p (rfl | hp)
    · exact hop
    · exact h.pending p hp
  | read k v =>
    refine ⟨fun p hp => h.pending p hp.1, ?_⟩
    rintro r (rfl | hr)
    · exact h.pending _ hop
    · exact h.reads r hr
  | drop k => exact ⟨fun p hp => h.pending p hp.1, h.reads⟩

theorem sound_run {c : Cell κ α} (h : Sound c) {ops : List (Op κ α)} (hops : Calm c ops) :
    Sound (c.run ops) := by
  induction ops generalizing c with
  | nil => exact h
  | cons op ops ih => exact ih (sound_step h hops.1) hops.2

end SharedCell
