import Mathlib.Data.List.Basic
import Mathlib.Data.List.Range

/- A list cut into parts of one size, of which only the last may be shorter. The parts are numbered
   from 0, and each is read off the list by its number alone, so they can be read one at a time. One
   after the other they are the list again (`flatten_parts`), and only the last may be
   short (`length_part_of_lt`). Elements and sizes are arbitrary. -/
namespace Parts

variable {α : Type} {size : Nat} {l : List α}

/-- How many parts there are: the length over the size, rounded up. -/
def count (size length : Nat) : Nat := (length + size - 1) / size

/-- The part with the number `i`. -/
def part (size : Nat) (l : List α) (i : Nat) : List α := (l.drop (i * size)).take size

theorem length_part (size : Nat) (l : List α) (i : Nat) :
    (part size l i).length = min size (l.length - i * size) := by
  rw [part, List.length_take, List.length_drop]

/-- Numbers below the count are those at which the list has not ended yet. -/
theorem lt_count (hsize : 0 < size) {i length : Nat} : i < count size length ↔ i * size < length := by
  unfold count
  rw [Nat.lt_iff_add_one_le, Nat.le_div_iff_mul_le hsize, Nat.add_one_mul]
  omega

theorem le_count_mul (hsize : 0 < size) (length : Nat) : length ≤ count size length * size := by
  have h : ¬ count size length < count size length := Nat.lt_irrefl _
  rw [lt_count hsize] at h
  omega

/-- All parts but the last are of full size. -/
theorem length_part_of_lt (hsize : 0 < size) {i : Nat} (h : i + 1 < count size l.length) :
    (part size l i).length = size := by
  have hlt : (i + 1) * size < l.length := (lt_count hsize).mp h
  rw [Nat.add_one_mul] at hlt
  rw [length_part]
  omega

/-- The last part is what is left. -/
theorem length_part_last (hsize : 0 < size) {i : Nat} (h : i + 1 = count size l.length) :
    (part size l i).length = l.length - i * size := by
  have hle := le_count_mul hsize l.length
  rw [← h, Nat.add_one_mul] at hle
  rw [length_part]
  omega

/-- The first parts are the beginning of the list. -/
theorem flatten_take (size : Nat) (l : List α) (k : Nat) :
    ((List.range k).map (part size l)).flatten = l.take (k * size) := by
  induction k with
  | zero => simp
  | succ k ih =>
    rw [List.range_succ, List.map_append, List.flatten_append, ih, List.map_singleton,
      List.flatten_singleton, Nat.add_one_mul, List.take_add, part]

/-- All parts are the list. -/
theorem flatten_parts (hsize : 0 < size) (l : List α) :
    ((List.range (count size l.length)).map (part size l)).flatten = l := by
  rw [flatten_take]
  exact List.take_of_length_le (le_count_mul hsize l.length)

/-- The bytes before a part and those of the part are the bytes before the next one. -/
theorem length_take_succ (size : Nat) (l : List α) (i : Nat) :
    (l.take (i * size)).length + (part size l i).length = (l.take ((i + 1) * size)).length := by
  rw [Nat.add_one_mul, List.take_add, List.length_append, part]

end Parts
