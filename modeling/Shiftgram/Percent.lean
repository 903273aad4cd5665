import Mathlib.Data.List.TakeWhile
import Mathlib.Tactic.Common

/- Percent-encoding of bytes and the reading of a query.

   `encode` writes the bytes that are allowed as they are and every other one as `%` and two digits.
   `items` reads a query the way forms are read: items are parted by `&`, a name is parted from its
   value by the first `=`, a `+` stands for a blank, and only then are the escapes taken back. The
   query of an address stands between the first `?` and the first `#` after it.

   1. Where `%` is not allowed, a form takes back what `encode` wrote, but for the `+` that are
      allowed (`formDecode_encode`).
   2. A separator that is not allowed does not occur in what is written (`not_mem_encode`); one that is
      allowed parts what is written exactly where it parts the bytes (`splitOn_encode`).
   3. Items written one after the other are read as these items (`items_append`, `items_single`), and
      what was encoded within an item is read as its parts (`items_encode`). -/
namespace Percent

abbrev Bytes := List UInt8

/-- `#`, `%`, `&`, `+`, `=`, `?` and the blank. -/
def fragment : UInt8 := 35
def percent : UInt8 := 37
def ampersand : UInt8 := 38
def plus : UInt8 := 43
def equal : UInt8 := 61
def question : UInt8 := 63
def blank : UInt8 := 32

def hexDigit (n : Nat) : UInt8 := UInt8.ofNat (if n < 10 then 48 + n else 55 + n)

def hexValue (b : UInt8) : Option Nat :=
  if 48 ≤ b ∧ b ≤ 57 then some (b.toNat - 48)
  else if 65 ≤ b ∧ b ≤ 70 then some (b.toNat - 55)
  else if 97 ≤ b ∧ b ≤ 102 then some (b.toNat - 87)
  else none

/-- The bytes of an escape. -/
def Escape (b : UInt8) : Prop := b = percent ∨ hexValue b ≠ none

instance (b : UInt8) : Decidable (Escape b) := inferInstanceAs (Decidable (_ ∨ _))

theorem hexValue_hexDigit : ∀ n, n < 16 → hexValue (hexDigit n) = some n := by decide

theorem hexDigit_escape (n : Nat) (h : n < 16) : Escape (hexDigit n) := by
  simp [Escape, hexValue_hexDigit n h]

theorem plus_not_escape : ¬Escape plus := by decide

theorem equal_not_escape : ¬Escape equal := by decide

theorem ampersand_not_escape : ¬Escape ampersand := by decide

/-! ## Encoding -/

variable (allowed : UInt8 → Bool)

def encodeByte (b : UInt8) : Bytes :=
  if allowed b then [b] else [percent, hexDigit (b.toNat / 16), hexDigit (b.toNat % 16)]

def encode (bs : Bytes) : Bytes := bs.flatMap (encodeByte allowed)

@[simp] theorem encode_nil : encode allowed [] = [] := rfl

@[simp] theorem encode_cons (b : UInt8) (bs : Bytes) :
    encode allowed (b :: bs) = encodeByte allowed b ++ encode allowed bs := rfl

/-- What is written for a byte is the byte, where it is allowed, or the bytes of an escape. -/
theorem mem_encodeByte {b c : UInt8} (h : c ∈ encodeByte allowed b) :
    (c = b ∧ allowed b = true) ∨ Escape c := by
  have hhigh : b.toNat / 16 < 16 := by
    have := b.toNat_lt
    omega
  have hlow : b.toNat % 16 < 16 := Nat.mod_lt _ (by omega)
  unfold encodeByte at h
  split at h
  next hb => exact .inl ⟨List.mem_singleton.1 h, hb⟩
  next =>
    simp only [List.mem_cons, List.not_mem_nil, or_false] at h
    obtain rfl | rfl | rfl := h
    · exact .inr (.inl rfl)
    · exact .inr (hexDigit_escape _ hhigh)
    · exact .inr (hexDigit_escape _ hlow)

theorem not_mem_encodeByte {b c : UInt8} (hc : ¬Escape c) (h : c ≠ b ∨ allowed c = false) :
    c ∉ encodeByte allowed b := by
  intro hmem
  obtain ⟨rfl, hb⟩ | hesc := mem_encodeByte allowed hmem
  · simp [hb] at h
  · exact hc hesc

/-- A byte that is not allowed does not occur in what is written. -/
theorem not_mem_encode {c : UInt8} (hc : ¬Escape c) (hallowed : allowed c = false) (bs : Bytes) :
    c ∉ encode allowed bs := by
  intro hmem
  obtain ⟨b, -, hb⟩ := List.mem_flatMap.1 hmem
  exact not_mem_encodeByte allowed hc (.inr hallowed) hb

/-- No other byte is split at an allowed separator. -/
theorem splitOn_append_of_not_mem {c : UInt8} {as : Bytes} (h : c ∉ as) (bs : Bytes) :
    (as ++ bs).splitOn c = (bs.splitOn c).modifyHead (as ++ ·) := by
  induction as with
  | nil =>
    rw [List.nil_append]
    cases bs.splitOn c <;> rfl
  | cons a as ih =>
    have ha : (a == c) = false := by
      simp only [List.mem_cons, not_or] at h
      simpa using Ne.symm h.1
    have has : c ∉ as := fun hmem => h (List.mem_cons_of_mem _ hmem)
    rw [List.cons_append, List.splitOn_cons_eq_if_modifyHead, if_neg (by simp [ha]), ih has,
      List.modifyHead_modifyHead]
    rfl

/-- What is written is parted at an allowed separator where the bytes are. -/
theorem splitOn_encode {c : UInt8} (hc : ¬Escape c) (hallowed : allowed c = true) (bs : Bytes) :
    (encode allowed bs).splitOn c = (bs.splitOn c).map (encode allowed) := by
  induction bs with
  | nil => rfl
  | cons b bs ih =>
    rw [encode_cons, List.splitOn_cons_eq_if_modifyHead]
    by_cases hb : b = c
    · subst hb
      have hself : encodeByte allowed b = [b] := if_pos hallowed
      rw [hself, List.singleton_append, List.splitOn_cons_eq_if_modifyHead, if_pos (by simp),
        if_pos (by simp), ih]
      rfl
    · have hmem : c ∉ encodeByte allowed b :=
        not_mem_encodeByte allowed hc (.inl (Ne.symm hb))
      rw [splitOn_append_of_not_mem hmem, if_neg (by simpa using hb), ih]
      cases bs.splitOn c <;> rfl

/-! ## Decoding -/

def decode : Bytes → Bytes
  | [] => []
  | [b] => [b]
  | [b, c] => [b, c]
  | b :: c :: d :: rest =>
    if b = percent then
      match hexValue c, hexValue d with
      | some high, some low => UInt8.ofNat (16 * high + low) :: decode rest
      | _, _ => b :: decode (c :: d :: rest)
    else b :: decode (c :: d :: rest)

theorem decode_cons {b : UInt8} (h : b ≠ percent) (bs : Bytes) : decode (b :: bs) = b :: decode bs := by
  match bs with
  | [] => rfl
  | [_] => rfl
  | c :: d :: rest => rw [decode, if_neg h]

theorem decode_escape (b : UInt8) (bs : Bytes) :
    decode (percent :: hexDigit (b.toNat / 16) :: hexDigit (b.toNat % 16) :: bs) = b :: decode bs := by
  have hhigh : b.toNat / 16 < 16 := by
    have := b.toNat_lt
    omega
  have hlow : b.toNat % 16 < 16 := Nat.mod_lt _ (by omega)
  have hbyte : UInt8.ofNat (16 * (b.toNat / 16) + b.toNat % 16) = b := by
    rw [Nat.div_add_mod]
    exact UInt8.ofNat_toNat
  rw [decode, if_pos rfl, hexValue_hexDigit _ hhigh, hexValue_hexDigit _ hlow]
  simp only [hbyte]

/-- How a form reads a byte that is not escaped. -/
def plusToBlank (b : UInt8) : UInt8 := if b = plus then blank else b

def formDecode (bs : Bytes) : Bytes := decode (bs.map plusToBlank)

theorem plusToBlank_of_ne {b : UInt8} (h : b ≠ plus) : plusToBlank b = b := if_neg h

theorem plusToBlank_ne_percent {b : UInt8} (h : b ≠ percent) : plusToBlank b ≠ percent := by
  unfold plusToBlank
  split
  · decide
  · exact h

theorem plusToBlank_escape {b : UInt8} (h : Escape b) : plusToBlank b = b :=
  plusToBlank_of_ne fun hb => plus_not_escape (hb ▸ h)

/-- A form takes back what was written, but reads every `+` that is allowed as a blank. -/
theorem formDecode_encode (hpercent : allowed percent = false) (bs : Bytes) :
    formDecode (encode allowed bs) = bs.map fun b => if allowed b then plusToBlank b else b := by
  induction bs with
  | nil => rfl
  | cons b bs ih =>
    simp only [formDecode] at ih
    have hhigh : b.toNat / 16 < 16 := by
      have := b.toNat_lt
      omega
    have hlow : b.toNat % 16 < 16 := Nat.mod_lt _ (by omega)
    simp only [formDecode, encode_cons, List.map_append, List.map_cons]
    by_cases hb : allowed b = true
    · have hne : b ≠ percent := fun heq => by simp [heq, hpercent] at hb
      simp only [encodeByte, hb, if_true, List.map_cons, List.map_nil, List.singleton_append]
      rw [decode_cons (plusToBlank_ne_percent hne), ih]
    · simp only [encodeByte, if_neg hb, List.map_cons, List.map_nil, List.cons_append,
        List.nil_append, plusToBlank_escape (.inl rfl : Escape percent),
        plusToBlank_escape (hexDigit_escape _ hhigh), plusToBlank_escape (hexDigit_escape _ hlow)]
      rw [decode_escape, ih]

/-- Where `+` is allowed, each one is read as a blank and nothing else is changed. -/
theorem formDecode_encode_plus (hpercent : allowed percent = false) (hplus : allowed plus = true)
    (bs : Bytes) : formDecode (encode allowed bs) = bs.map plusToBlank := by
  rw [formDecode_encode allowed hpercent]
  refine List.map_congr_left fun b _ => ?_
  split
  next => rfl
  next hb => exact (plusToBlank_of_ne fun heq => hb (by rw [heq, hplus])).symm

/-! ## Reading a query -/

def item (bs : Bytes) : Bytes × Bytes :=
  (formDecode (bs.takeWhile (· ≠ equal)), formDecode ((bs.dropWhile (· ≠ equal)).drop 1))

def items (query : Bytes) : List (Bytes × Bytes) :=
  ((query.splitOn ampersand).filter (· ≠ [])).map item

def query (address : Bytes) : Bytes :=
  ((address.dropWhile (· ≠ question)).drop 1).takeWhile (· ≠ fragment)

/-- Bytes that stand for themselves in a query. -/
structure Plain (bs : Bytes) : Prop where
  percent : percent ∉ bs
  ampersand : ampersand ∉ bs
  plus : plus ∉ bs
  equal : equal ∉ bs
  fragment : fragment ∉ bs

theorem plain_iff (bs : Bytes) : Plain bs ↔
    percent ∉ bs ∧ ampersand ∉ bs ∧ plus ∉ bs ∧ equal ∉ bs ∧ fragment ∉ bs :=
  ⟨fun ⟨h₁, h₂, h₃, h₄, h₅⟩ => ⟨h₁, h₂, h₃, h₄, h₅⟩, fun ⟨h₁, h₂, h₃, h₄, h₅⟩ => ⟨h₁, h₂, h₃, h₄, h₅⟩⟩

instance (bs : Bytes) : Decidable (Plain bs) := decidable_of_iff _ (plain_iff bs).symm

theorem decode_of_not_mem {bs : Bytes} (h : percent ∉ bs) : decode bs = bs := by
  induction bs with
  | nil => rfl
  | cons b bs ih =>
    simp only [List.mem_cons, not_or] at h
    rw [decode_cons (Ne.symm h.1), ih h.2]

theorem map_plusToBlank {bs : Bytes} (h : plus ∉ bs) : bs.map plusToBlank = bs := by
  have hself : ∀ b ∈ bs, plusToBlank b = b := fun b hb =>
    plusToBlank_of_ne fun heq => h (heq ▸ hb)
  simpa using List.map_congr_left hself

theorem plus_not_mem_map (bs : Bytes) : plus ∉ bs.map plusToBlank := by
  intro hmem
  obtain ⟨b, -, hb⟩ := List.mem_map.1 hmem
  unfold plusToBlank at hb
  split at hb
  next => exact absurd hb (by decide)
  next hne => exact hne hb

theorem Plain.formDecode {bs : Bytes} (h : Plain bs) : formDecode bs = bs := by
  rw [Percent.formDecode, map_plusToBlank h.plus, decode_of_not_mem h.percent]

/-- A name ends at the first `=`. -/
theorem item_name {name : Bytes} (h : Plain name) (value : Bytes) :
    item (name ++ equal :: value) = (name, formDecode value) := by
  have hall : ∀ b ∈ name, (decide (b ≠ equal)) = true := by
    intro b hb
    simpa using fun heq : b = equal => h.equal (heq ▸ hb)
  have htake : (name ++ equal :: value).takeWhile (· ≠ equal) = name := by
    rw [List.takeWhile_append_of_pos hall]
    simp
  have hdrop : (name ++ equal :: value).dropWhile (· ≠ equal) = equal :: value := by
    rw [List.dropWhile_append_of_pos hall]
    simp
  rw [item, htake, hdrop, h.formDecode]
  rfl

/-- Queries are read one after the other. -/
theorem items_append (query query' : Bytes) :
    items (query ++ ampersand :: query') = items query ++ items query' := by
  rw [items, List.splitOn_append_cons_self, List.filter_append, List.map_append]
  rfl

/-- A query of one item. -/
theorem items_single {name value : Bytes} (hname : Plain name) (hvalue : ampersand ∉ value) :
    items (name ++ equal :: value) = [(name, formDecode value)] := by
  have hmem : ampersand ∉ name ++ equal :: value := by
    simp only [List.mem_append, List.mem_cons, not_or]
    exact ⟨hname.ampersand, by decide, hvalue⟩
  rw [items, List.splitOn_eq_singleton hmem]
  simp [item_name hname]

theorem encode_eq_nil {bs : Bytes} : encode allowed bs = [] ↔ bs = [] := by
  cases bs with
  | nil => simp
  | cons b bs =>
    simp only [encode_cons, encodeByte, reduceCtorEq, iff_false]
    split <;> simp

/-- The part before an allowed `=` is what is written for the part before it, and so is the rest. -/
theorem span_encode (hequal : allowed equal = true) (bs : Bytes) :
    (encode allowed bs).takeWhile (· ≠ equal) = encode allowed (bs.takeWhile (· ≠ equal)) ∧
      (encode allowed bs).dropWhile (· ≠ equal) = encode allowed (bs.dropWhile (· ≠ equal)) := by
  induction bs with
  | nil => exact ⟨rfl, rfl⟩
  | cons b bs ih =>
    by_cases hb : b = equal
    · have hself : encodeByte allowed equal = [equal] := if_pos hequal
      subst hb
      simp [hself]
    · have hmem : equal ∉ encodeByte allowed b :=
        not_mem_encodeByte allowed equal_not_escape (.inl (Ne.symm hb))
      have hall : ∀ c ∈ encodeByte allowed b, decide (c ≠ equal) = true := by
        intro c hc
        simpa using fun heq : c = equal => hmem (heq ▸ hc)
      rw [encode_cons, List.takeWhile_append_of_pos hall, List.dropWhile_append_of_pos hall, ih.1, ih.2]
      simp [hb]

/-- The item that stands in a text, its `+` read as blanks. -/
def textItem (bs : Bytes) : Bytes × Bytes :=
  ((bs.takeWhile (· ≠ equal)).map plusToBlank, ((bs.dropWhile (· ≠ equal)).drop 1).map plusToBlank)

theorem item_encode (hpercent : allowed percent = false) (hplus : allowed plus = true)
    (hequal : allowed equal = true) (bs : Bytes) : item (encode allowed bs) = textItem bs := by
  obtain ⟨htake, hdrop⟩ := span_encode allowed hequal bs
  have hrest : (encode allowed (bs.dropWhile (· ≠ equal))).drop 1 =
      encode allowed ((bs.dropWhile (· ≠ equal)).drop 1) := by
    cases hbs : bs.dropWhile (· ≠ equal) with
    | nil => rfl
    | cons b rest =>
      have hb : b = equal := by
        have hhead := List.head?_dropWhile_not (· ≠ equal) bs
        rw [hbs] at hhead
        simpa using hhead
      subst hb
      rw [encode_cons, encodeByte, if_pos hequal]
      rfl
  rw [item, htake, hdrop, hrest, formDecode_encode_plus allowed hpercent hplus,
    formDecode_encode_plus allowed hpercent hplus, textItem]

/-- What is encoded after a name is read up to the first `&` as its value, and every other part of
    it as an item of its own. -/
theorem items_encode (hpercent : allowed percent = false) (hampersand : allowed ampersand = true)
    (hplus : allowed plus = true) (hequal : allowed equal = true) {name : Bytes} (hname : Plain name)
    {bs first : Bytes} {rest : List Bytes} (hbs : bs.splitOn ampersand = first :: rest) :
    items (name ++ equal :: encode allowed bs) =
      (name, first.map plusToBlank) :: (rest.filter (· ≠ [])).map textItem := by
  have hmem : ampersand ∉ name ++ [equal] := by
    simp only [List.mem_append, List.mem_singleton, not_or]
    exact ⟨hname.ampersand, by decide⟩
  have hsplit : (name ++ equal :: encode allowed bs).splitOn ampersand =
      (name ++ equal :: encode allowed first) :: rest.map (encode allowed) := by
    rw [List.append_cons, splitOn_append_of_not_mem hmem,
      splitOn_encode allowed ampersand_not_escape hampersand, hbs]
    simp
  have hfirst : name ++ equal :: encode allowed first ≠ [] := by simp
  have hrest : (rest.map (encode allowed)).filter (· ≠ []) =
      (rest.filter (· ≠ [])).map (encode allowed) := by
    simp [List.filter_map, Function.comp_def, encode_eq_nil]
  rw [items, hsplit, List.filter_cons_of_pos (by simp), List.map_cons, hrest, item_name hname,
    formDecode_encode_plus allowed hpercent hplus, List.map_map]
  congr 1
  exact List.map_congr_left fun s _ => item_encode allowed hpercent hplus hequal s

/-- Bytes that are their own first part, read as blanks, have no `&` and no `+`. -/
theorem not_mem_of_blanks {bs first : Bytes} {rest : List Bytes}
    (hbs : bs.splitOn ampersand = first :: rest) (h : first.map plusToBlank = bs) :
    ampersand ∉ bs ∧ plus ∉ bs := by
  refine ⟨fun hmem => ?_, h ▸ plus_not_mem_map first⟩
  obtain ⟨as, cs, rfl, has⟩ := List.eq_append_cons_of_mem hmem
  rw [List.splitOn_append_cons_self_of_not_mem has] at hbs
  obtain ⟨rfl, -⟩ := List.cons.inj hbs
  have hlength := congrArg List.length h
  simp at hlength

/-- The query of an address whose path has no `?`. -/
theorem query_append {path bs : Bytes} (hpath : question ∉ path) (hbs : fragment ∉ bs) :
    query (path ++ question :: bs) = bs := by
  have hall : ∀ b ∈ path, decide (b ≠ question) = true := by
    intro b hb
    simpa using fun heq : b = question => hpath (heq ▸ hb)
  have htake : bs.takeWhile (· ≠ fragment) = bs := by
    rw [List.takeWhile_eq_self_iff]
    intro b hb
    simpa using fun heq : b = fragment => hbs (heq ▸ hb)
  rw [query, List.dropWhile_append_of_pos hall]
  simpa using htake

end Percent
