import Mathlib.Data.List.TakeWhile
import Mathlib.Data.Option.Basic
import Std.Data.String.ToInt

/- Decimal numerals. What the writing and the reading of integers as decimal strings guarantee:
   distinct integers have distinct numerals, a numeral followed by a word can be cut back into the
   two parts, and reading a numeral gives its integer. Strings are compared by their characters;
   no machine width appears here. -/
namespace Numeral

/-- The characters that occur in a decimal numeral. -/
def isNumeral (c : Char) : Bool := c.isDigit || c == '-'

/-- A word that does not go on with a numeral: it is empty or starts with another character. -/
def Stops (w : String) : Prop := w.toList.head?.any isNumeral = false

instance (w : String) : Decidable (Stops w) :=
  inferInstanceAs (Decidable (_ = false))

theorem natRepr_chars (n : Nat) : ∀ c ∈ n.repr.toList, c.isDigit = true := by
  intro c hc
  rw [Nat.toList_repr] at hc
  exact Nat.isDigit_of_mem_toDigits (by decide) (by decide) hc

theorem repr_chars (n : Int) : ∀ c ∈ n.repr.toList, isNumeral c = true := by
  intro c hc
  rw [Int.repr_eq_if] at hc
  split at hc
  · simp [isNumeral, natRepr_chars _ c hc]
  · rw [String.toList_append, List.mem_append] at hc
    rcases hc with hc | hc
    · have : c = '-' := by simpa using hc
      simp [isNumeral, this]
    · simp [isNumeral, natRepr_chars _ c hc]

/-- Cutting a numeral followed by a word where the numeral ends. -/
theorem takeWhile_repr_append (n : Int) {w : String} (hw : Stops w) :
    (n.repr ++ w).toList.takeWhile isNumeral = n.repr.toList := by
  rw [String.toList_append, List.takeWhile_append_of_pos (repr_chars n)]
  cases hl : w.toList with
  | nil => simp
  | cons c cs =>
    have hc : isNumeral c = false := by simpa [Stops, hl] using hw
    rw [List.takeWhile_cons, hc]
    simp

theorem repr_append_inj {m n : Int} {v w : String} (hv : Stops v) (hw : Stops w) :
    m.repr ++ v = n.repr ++ w ↔ m = n ∧ v = w := by
  refine ⟨fun h => ?_, fun ⟨hm, hv⟩ => by rw [hm, hv]⟩
  have hrepr : m.repr.toList = n.repr.toList := by
    rw [← takeWhile_repr_append m hv, h, takeWhile_repr_append n hw]
  have hm : m = n := Int.repr_injective (String.toList_inj.mp hrepr)
  subst hm
  have htail : m.repr.toList ++ v.toList = m.repr.toList ++ w.toList := by
    rw [← String.toList_append, ← String.toList_append, h]
  exact ⟨rfl, String.toList_inj.mp (List.append_cancel_left htail)⟩

/-! Reading a numeral. -/

def readNat (cs : List Char) : Option Nat :=
  if cs ≠ [] ∧ cs.all Char.isDigit then some (Nat.ofDigitChars 10 cs 0) else none

/-- An optional sign and then at least one digit, nothing else. -/
def read : List Char → Option Int
  | '-' :: cs => (readNat cs).map fun n : Nat => -(n : Int)
  | '+' :: cs => (readNat cs).map fun n : Nat => (n : Int)
  | cs => (readNat cs).map fun n : Nat => (n : Int)

theorem readNat_repr (n : Nat) : readNat n.repr.toList = some n := by
  have hne : n.repr.toList ≠ [] := by
    rw [Nat.toList_repr]
    exact Nat.toDigits_ne_nil
  have hall : n.repr.toList.all Char.isDigit = true := List.all_eq_true.mpr (natRepr_chars n)
  unfold readNat
  rw [if_pos ⟨hne, hall⟩, Nat.toList_repr, Nat.ofDigitChars_ten_toDigits]

theorem read_natRepr (n : Nat) : read n.repr.toList = some (n : Int) := by
  have h := readNat_repr n
  have hd := natRepr_chars n
  unfold read
  split
  · next cs hcs => exact absurd (hd '-' (by simp [hcs])) (by decide)
  · next cs hcs => exact absurd (hd '+' (by simp [hcs])) (by decide)
  · rw [h]; rfl

theorem read_repr (n : Int) : read n.repr.toList = some n := by
  rw [Int.repr_eq_if]
  split
  · next h => rw [read_natRepr, Int.toNat_of_nonneg h]
  · next h =>
    have hcs : ("-" ++ (-n).toNat.repr).toList = '-' :: (-n).toNat.repr.toList := by simp
    have hn : -(((-n).toNat : Nat) : Int) = n := by omega
    simp only [hcs, read, readNat_repr, Option.map_some, hn]

end Numeral
