import Shiftgram.Numeral

/- The pieces of Swift's standard library that the sources compute with. An operation that traps at
   run time (arithmetic overflow, division by zero, unwrapping nil) is `none` here, so a handler
   that runs in `Option` returns `none` exactly when the app would crash. -/
namespace Swift

/-- `[String: String]`. -/
abbrev Dictionary := List (String × String)

/-- `data[key]`. -/
def Dictionary.value (data : Dictionary) (key : String) : Option String := data.lookup key

/-- The values an `Int32` can hold. -/
def fits32 (n : Int) : Bool := -2147483648 ≤ n && n < 2147483648

/-- The values an `Int` can hold. -/
def fits64 (n : Int) : Bool := -9223372036854775808 ≤ n && n < 9223372036854775808

/-- `a * b` on `Int32`, which traps on overflow. -/
def mul (a b : Int32) : Option Int32 :=
  if fits32 (a.toInt * b.toInt) then some (Int32.ofInt (a.toInt * b.toInt)) else none

/-- `a / b` on `Int`: it truncates, and traps on a zero divisor and on overflow. -/
def div (a b : Int) : Option Int :=
  if b = 0 ∨ !fits64 (a.tdiv b) then none else some (a.tdiv b)

/-- `String(n)`. -/
def string (n : Int32) : String := n.toInt.repr

/-- `Int(s)`. -/
def int (s : String) : Option Int := (Numeral.read s.toList).filter fits64

theorem mul_comm (a b : Int32) : mul a b = mul b a := by
  unfold mul
  rw [Int.mul_comm]

theorem fits32_iff {n : Int} : fits32 n = true ↔ -2147483648 ≤ n ∧ n < 2147483648 := by
  simp [fits32]

theorem toInt_of_mul {a b c : Int32} (h : mul a b = some c) : c.toInt = a.toInt * b.toInt := by
  unfold mul at h
  split at h
  · next hfit =>
    obtain ⟨hlow, hhigh⟩ := fits32_iff.mp hfit
    rw [← Option.some.inj h]
    exact Int32.toInt_ofInt_of_le (by omega) (by omega)
  · cases h

theorem fits32_toInt (n : Int32) : fits32 n.toInt = true :=
  fits32_iff.mpr ⟨n.le_toInt, n.toInt_lt⟩

theorem fits64_toInt (n : Int32) : fits64 n.toInt = true := by
  have := n.le_toInt
  have := n.toInt_lt
  simp only [fits64, Bool.and_eq_true, decide_eq_true_eq]
  omega

theorem string_inj {m n : Int32} : string m = string n ↔ m = n :=
  ⟨fun h => Int32.toInt.inj (Int.repr_injective h), fun h => by rw [h]⟩

/-- Reading back what `String` wrote. -/
theorem int_string (n : Int32) : int (string n) = some n.toInt := by
  unfold int string
  rw [Numeral.read_repr, Option.filter_some, if_pos (fits64_toInt n)]

theorem string_ne_empty (n : Int32) : string n ≠ "" := by
  intro hempty
  have hread := int_string n
  rw [hempty] at hread
  simp [int, Numeral.read, Numeral.readNat] at hread

/-- Dividing a product by one of its factors. -/
theorem div_of_mul {a b c : Int32} (ha : a ≠ 0) (h : mul a b = some c) :
    div c.toInt a.toInt = some b.toInt := by
  have ha' : a.toInt ≠ 0 := fun h0 => ha (Int32.toInt.inj h0)
  have hq : c.toInt.tdiv a.toInt = b.toInt := by
    rw [toInt_of_mul h, Int.mul_tdiv_cancel_left _ ha']
  unfold div
  rw [hq, if_neg]
  simp [ha', fits64_toInt]

/-! Assigning an element of an array. -/

variable {α β : Type} {l : List α}

theorem forall_mem_set {p : α → Prop} (hl : ∀ x ∈ l, p x) {a : α} (ha : p a) (i : Nat) :
    ∀ x ∈ l.set i a, p x := by
  intro x hx
  rcases List.mem_or_eq_of_mem_set hx with hold | rfl
  · exact hl x hold
  · exact ha

/-- A new last element leaves every other position as it is. -/
theorem getElem?_concat_of_ne {a : α} {i : Nat} (h : i ≠ l.length) : (l ++ [a])[i]? = l[i]? := by
  rcases Nat.lt_or_gt_of_ne h with hlt | hgt
  · exact List.getElem?_append_left hlt
  · have hlength : (l ++ [a]).length ≤ i := by
      rw [List.length_append, List.length_singleton]
      omega
    rw [List.getElem?_eq_none hlength, List.getElem?_eq_none (Nat.le_of_lt hgt)]

/-- An element after a change at one position. -/
theorem getElem?_modify_eq_some {f : α → α} {i j : Nat} {b : α} :
    (l.modify i f)[j]? = some b ↔ ∃ a, l[j]? = some a ∧ b = if j = i then f a else a := by
  rw [List.getElem?_modify]
  refine Option.map_eq_some_iff.trans (exists_congr fun a => and_congr_right fun _ => ?_)
  by_cases hij : i = j
  · rw [if_pos hij, if_pos hij.symm]
    exact eq_comm
  · rw [if_neg hij, if_neg (Ne.symm hij)]
    exact eq_comm

/-- What the new element shares with the old one stays. -/
theorem map_set_of_same {f : α → β} {a b : α} {i : Nat} (hget : l[i]? = some a) (h : f b = f a) :
    (l.set i b).map f = l.map f := by
  have hmap : (l.map f)[i]? = some (f a) := by rw [List.getElem?_map, hget, Option.map_some]
  obtain ⟨_, hmap⟩ := List.getElem?_eq_some_iff.mp hmap
  rw [List.map_set, h, ← hmap, List.set_getElem_self]

end Swift
