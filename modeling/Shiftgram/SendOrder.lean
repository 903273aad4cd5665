import Shiftgram.Composer
import Shiftgram.Overtaking

/- The order of the messages that are sent from one end of a chat. A press of Send first waits for
   the language response, in which its record gets a key, and then until its record is written, in
   that response or in the translator's callback. Keys and records come in the order of the presses
   exactly if no press is overtaken in either (`send_order_iff`). -/
namespace Shiftgram.Composer

variable (c : Chat) (side : Side)

/-- One end and a press of it. -/
abbrev Item := Side × Nat

/-- Of two presses of the end `side`, the first one. -/
def Before (x y : Item) : Prop := x.1 = side → y.1 = side → x.2 < y.2

def Asked.item (a : Asked) : Item := (a.side, a.press)
def Answer.item (a : Answer) : Item := (a.side, a.press)
def Translating.item (t : Translating) : Item := (t.side, t.press)
def Record.item (r : Record) : Item := (r.side, r.press)

/-- Presses that have no key yet. -/
def State.unkeyed (s : State) : List Item := s.asked.map Asked.item

/-- Presses that have no record yet. -/
def State.unwritten (s : State) : List Item := s.asked.map Asked.item ++ s.translating.map Translating.item

/-- The records of the end are in the order of its presses, by key and by arrival. -/
structure InOrder (s : State) : Prop where
  keys : ∀ r ∈ s.node, ∀ r' ∈ s.node, r.side = side → r'.side = side → r.press < r'.press → r.ref < r'.ref
  arrival : s.node.Pairwise fun r r' => r.side = side → r'.side = side → r.press < r'.press

/-- A language response comes to the end's first press that has no key, and a record is written
    for its first press that has no record. -/
def FirstInLine (s : State) : Event → Prop
  | .didPressSend _ _ => True
  | .language press value => ∀ a ∈ s.asked, a.press = press → a.side = side →
      (∀ b ∈ s.asked, b.side = side → press ≤ b.press) ∧
        (c.language side = value → ∀ t ∈ s.translating, t.side = side → press < t.press)
  | .translator press => ∀ t ∈ s.translating, t.press = press → t.side = side →
      (∀ a ∈ s.asked, a.side = side → press < a.press) ∧
        ∀ u ∈ s.translating, u.side = side → press ≤ u.press

/-- The presses that wait are in turn with those that have a key and with those that are written. -/
def Good (s : State) : Prop :=
  Overtaking.InTurn (Before side) s.unkeyed (s.answers.map Answer.item) ∧
    Overtaking.InTurn (Before side) s.unwritten (s.node.map Record.item)

/-- The key of a press is the number of its language response. -/
structure Keyed (s : State) : Prop where
  refs : s.refs = s.answers.length
  translating : ∀ t ∈ s.translating, (s.answers[t.ref]?).map Answer.item = some t.item
  node : ∀ r ∈ s.node, (s.answers[r.ref]?).map Answer.item = some r.item

variable {c side}

/-- Being before all of a list, for the end's own presses. -/
theorem before_map {α : Type} {l : List α} {item : α → Item} {x : Item} :
    (∀ z ∈ l.map item, Before side x z) ↔
      (x.1 = side → ∀ b ∈ l, (item b).1 = side → x.2 < (item b).2) := by
  simp only [List.mem_map, forall_exists_index, and_imp, forall_apply_eq_imp_iff₂, Before]
  exact ⟨fun h hx b hb hside => h b hb hx hside, fun h b hb hx hside => h hx b hb hside⟩

theorem lt_drop_iff {α : Type} {press : α → Nat} {l : List α} {P : α → Prop} {n : Nat} :
    (∀ b ∈ Requests.drop press l n, P b → n < press b) ↔ ∀ b ∈ l, P b → n ≤ press b := by
  refine ⟨?_, ?_⟩
  · intro h b hb hP
    by_cases hn : press b = n
    · omega
    · exact Nat.le_of_lt (h b (Requests.mem_drop.mpr ⟨hb, hn⟩) hP)
  · intro h b hb hP
    obtain ⟨hb, hn⟩ := Requests.mem_drop.mp hb
    have := h b hb hP
    omega

/-! ## The steps -/

theorem asked_nodup {s : State} (h : Inv c s) : (s.asked.map (·.press)).Nodup :=
  (List.nodup_append.mp h.tokens).1

theorem translating_nodup {s : State} (h : Inv c s) : (s.translating.map (·.press)).Nodup :=
  (List.nodup_append.mp (List.nodup_append.mp h.tokens).2.1).1

/-- A new press is after all that have a key or a record. -/
theorem press_last {s : State} (h : Inv c s) (side side' : Side) :
    (∀ y ∈ s.answers.map Answer.item, Before side y (side', s.presses.length)) ∧
      ∀ y ∈ s.node.map Record.item, Before side y (side', s.presses.length) := by
  have hissued : ∀ n ∈ s.translating.map (·.press) ++ s.node.map (·.press), n < s.presses.length :=
    fun n hn => h.issued n (List.mem_append_right _ hn)
  refine ⟨?_, ?_⟩
  · intro y hy _ _
    obtain ⟨answer, hanswer, rfl⟩ := List.mem_map.mp hy
    exact hissued _ (h.answered.mem_iff.mp (List.mem_map_of_mem hanswer))
  · intro y hy _ _
    obtain ⟨r, hr, rfl⟩ := List.mem_map.mp hy
    exact hissued _ (List.mem_append_right _ (List.mem_map_of_mem hr))

theorem good_didPressSend {s s' : State} (h : Inv c s) {side' : Side} {text : Option String}
    (hs' : didPressSend c s side' text = some s') : Good side s' ↔ Good side s := by
  cases text with
  | none =>
    obtain rfl := Option.some.inj hs'
    rfl
  | some text =>
    by_cases hempty : text = ""
    · obtain rfl := Option.some.inj ((if_pos hempty).symm.trans hs')
      rfl
    · obtain rfl := Option.some.inj ((didPressSend_eq s side' hempty).symm.trans hs')
      obtain ⟨hanswers, hnode⟩ := press_last h side side'
      have hkeys : (s.asked.map Asked.item ++ [(side', s.presses.length)]).Perm
          ((side', s.presses.length) :: s.unkeyed) := List.perm_append_singleton _ _
      have hwrites : (s.asked.map Asked.item ++ [(side', s.presses.length)] ++
          s.translating.map Translating.item).Perm ((side', s.presses.length) :: s.unwritten) :=
        hkeys.append_right _
      rw [Good, State.unkeyed, State.unwritten, List.map_append]
      apply and_congr
      · exact (Overtaking.inTurn_perm hkeys).trans (Overtaking.inTurn_enter hanswers)
      · exact (Overtaking.inTurn_perm hwrites).trans (Overtaking.inTurn_enter hnode)

theorem firstInLine_language {s : State} (h : Inv c s) {a : Asked} (ha : a ∈ s.asked) (value : String) :
    FirstInLine c side s (.language a.press value) ↔ (a.side = side →
      (∀ b ∈ s.asked, b.side = side → a.press ≤ b.press) ∧
        (c.language side = value → ∀ t ∈ s.translating, t.side = side → a.press < t.press)) :=
  Requests.forall_key (asked_nodup h) ha

/-- The keys stay in turn exactly if the answered press is the first without one. -/
theorem good_answered {s s' : State} (h : Inv c s) {a : Asked} (ha : a ∈ s.asked) {value : String}
    (hs' : Answered c a value s s') : Good side s' ↔
      (Overtaking.InTurn (Before side) s.unkeyed (s.answers.map Answer.item) ∧
        (a.side = side → ∀ b ∈ s.asked, b.side = side → a.press ≤ b.press)) ∧
      Overtaking.InTurn (Before side) s'.unwritten (s'.node.map Record.item) := by
  have hdrop := (Requests.perm_drop (asked_nodup h) ha).map Asked.item
  have hanswers : s'.answers.map Answer.item = s.answers.map Answer.item ++ [a.item] := by
    rw [hs'.answers, List.map_append]
    rfl
  rw [Good, hanswers, State.unkeyed, hs'.asked, Overtaking.inTurn_finish, before_map, State.unkeyed,
    Overtaking.inTurn_perm hdrop]
  exact and_congr_left fun _ => and_congr_right fun _ => imp_congr_right fun _ => lt_drop_iff

/-- The record is written now: it must be the first of all that have none. -/
theorem good_answered_same {s : State} (h : Inv c s) {a : Asked} (ha : a ∈ s.asked) {value : String}
    (hsame : c.language a.side = value) : Good side (languageAnswered c s a value) ↔
      Good side s ∧ FirstInLine c side s (.language a.press value) := by
  have hdrop := (Requests.perm_drop (asked_nodup h) ha).map Asked.item
  have hperm : (a.item :: ((Requests.drop (·.press) s.asked a.press).map Asked.item ++
      s.translating.map Translating.item)).Perm s.unwritten := (hdrop.append_right _).symm
  have hunwritten : (languageAnswered c s a value).unwritten =
      (Requests.drop (·.press) s.asked a.press).map Asked.item ++ s.translating.map Translating.item := by
    rw [languageAnswered_same hsame]
    rfl
  have hnode : (languageAnswered c s a value).node.map Record.item =
      s.node.map Record.item ++ [a.item] := by
    rw [languageAnswered_same hsame, List.map_append]
    rfl
  have harrival : Overtaking.InTurn (Before side) (languageAnswered c s a value).unwritten
      ((languageAnswered c s a value).node.map Record.item) ↔
        Overtaking.InTurn (Before side) s.unwritten (s.node.map Record.item) ∧
          (a.side = side → ∀ b ∈ s.asked, b.side = side → a.press ≤ b.press) ∧
          (a.side = side → ∀ t ∈ s.translating, t.side = side → a.press < t.press) := by
    rw [hunwritten, hnode, Overtaking.inTurn_finish, Overtaking.inTurn_perm hperm,
      List.forall_mem_append, before_map, before_map]
    exact and_congr_right fun _ => and_congr_left fun _ => imp_congr_right fun _ => lt_drop_iff
  have hlanguage : a.side = side → c.language side = value := fun hside => hside ▸ hsame
  rw [good_answered h ha (answered_languageAnswered c s a value), harrival, firstInLine_language h ha,
    Good]
  refine ⟨?_, ?_⟩
  · intro ⟨⟨hk, hfirst⟩, hw, _, hnone⟩
    exact ⟨⟨hk, hw⟩, fun hside => ⟨hfirst hside, fun _ => hnone hside⟩⟩
  · intro ⟨⟨hk, hw⟩, hboth⟩
    exact ⟨⟨hk, fun hside => (hboth hside).1⟩, hw, fun hside => (hboth hside).1,
      fun hside => (hboth hside).2 (hlanguage hside)⟩

/-- The press gets its key, and still waits for its record. -/
theorem good_answered_other {s : State} (h : Inv c s) {a : Asked} (ha : a ∈ s.asked) {value : String}
    (hother : c.language a.side ≠ value) : Good side (languageAnswered c s a value) ↔
      Good side s ∧ FirstInLine c side s (.language a.press value) := by
  have hdrop := (Requests.perm_drop (asked_nodup h) ha).map Asked.item
  have hperm : (languageAnswered c s a value).unwritten.Perm s.unwritten := by
    rw [languageAnswered_other hother, State.unwritten, List.map_append, ← List.append_assoc]
    exact (List.perm_append_singleton _ _).trans (hdrop.append_right _).symm
  have hnode : (languageAnswered c s a value).node = s.node := by rw [languageAnswered_other hother]
  have hlanguage : a.side = side → c.language side ≠ value := fun hside => hside ▸ hother
  rw [good_answered h ha (answered_languageAnswered c s a value), Overtaking.inTurn_perm hperm, hnode,
    firstInLine_language h ha, Good]
  refine ⟨?_, ?_⟩
  · intro ⟨⟨hk, hfirst⟩, hw⟩
    exact ⟨⟨hk, hw⟩, fun hside => ⟨hfirst hside, fun hwrites => absurd hwrites (hlanguage hside)⟩⟩
  · intro ⟨⟨hk, hw⟩, hboth⟩
    exact ⟨⟨hk, fun hside => (hboth hside).1⟩, hw⟩

theorem good_languageAnswered {s : State} (h : Inv c s) {a : Asked} (ha : a ∈ s.asked) (value : String) :
    Good side (languageAnswered c s a value) ↔
      Good side s ∧ FirstInLine c side s (.language a.press value) := by
  by_cases hsame : c.language a.side = value
  · exact good_answered_same h ha hsame
  · exact good_answered_other h ha hsame

theorem good_translated {s : State} (h : Inv c s) {t : Translating} (ht : t ∈ s.translating) :
    Good side (translated c s t) ↔ Good side s ∧ FirstInLine c side s (.translator t.press) := by
  have hdrop := (Requests.perm_drop (translating_nodup h) ht).map Translating.item
  have hfirst : FirstInLine c side s (.translator t.press) ↔ (t.side = side →
      (∀ a ∈ s.asked, a.side = side → t.press < a.press) ∧
        ∀ u ∈ s.translating, u.side = side → t.press ≤ u.press) :=
    Requests.forall_key (translating_nodup h) ht
  have hperm : (t.item :: (s.asked.map Asked.item ++
      (Requests.drop (·.press) s.translating t.press).map Translating.item)).Perm s.unwritten :=
    List.perm_middle.symm.trans (hdrop.symm.append_left _)
  have hgood : Good side (translated c s t) ↔
      Overtaking.InTurn (Before side) s.unkeyed (s.answers.map Answer.item) ∧
        Overtaking.InTurn (Before side) (s.asked.map Asked.item ++
          (Requests.drop (·.press) s.translating t.press).map Translating.item)
          (s.node.map Record.item ++ [t.item]) := by
    rw [Good, State.unwritten, translated, List.map_append]
    rfl
  have hlast : (∀ z ∈ (Requests.drop (·.press) s.translating t.press).map Translating.item,
      Before side t.item z) ↔ (t.side = side → ∀ u ∈ s.translating, u.side = side → t.press ≤ u.press) := by
    rw [before_map]
    exact imp_congr_right fun _ => lt_drop_iff
  rw [hgood, hfirst, Overtaking.inTurn_finish, Overtaking.inTurn_perm hperm, List.forall_mem_append,
    hlast, before_map, Good]
  refine ⟨?_, ?_⟩
  · intro ⟨hk, hw, hasked, htranslating⟩
    exact ⟨⟨hk, hw⟩, fun hside => ⟨hasked hside, htranslating hside⟩⟩
  · intro ⟨⟨hk, hw⟩, hboth⟩
    exact ⟨hk, hw, fun hside => (hboth hside).1, fun hside => (hboth hside).2⟩

/-! ## Keys -/

theorem keyed_init : Keyed State.init := ⟨rfl, by simp [State.init], by simp [State.init]⟩

theorem keyed_didPressSend {s s' : State} (h : Keyed s) {side' : Side} {text : Option String}
    (hs' : didPressSend c s side' text = some s') : Keyed s' := by
  cases text with
  | none => exact Option.some.inj hs' ▸ ⟨h.refs, h.translating, h.node⟩
  | some text =>
    by_cases hempty : text = ""
    · exact Option.some.inj ((if_pos hempty).symm.trans hs') ▸ ⟨h.refs, h.translating, h.node⟩
    · obtain rfl := Option.some.inj ((didPressSend_eq s side' hempty).symm.trans hs')
      exact ⟨h.refs, h.translating, h.node⟩

theorem answer_snoc {answers : List Answer} {n : Nat} {x : Item}
    (h : (answers[n]?).map Answer.item = some x) (answer : Answer) :
    ((answers ++ [answer])[n]?).map Answer.item = some x := by
  obtain ⟨answer', hanswer', rfl⟩ := Option.map_eq_some_iff.mp h
  obtain ⟨hn, -⟩ := List.getElem?_eq_some_iff.mp hanswer'
  rw [List.getElem?_append_left hn, hanswer', Option.map_some]

theorem keyed_languageAnswered {s : State} (h : Keyed s) (a : Asked) (value : String) :
    Keyed (languageAnswered c s a value) := by
  have hlast : ((s.answers ++ [⟨a.press, a.side, a.friend, value⟩])[s.refs]?).map Answer.item =
      some a.item := by
    rw [h.refs, List.getElem?_concat_length]
    rfl
  by_cases hsame : c.language a.side = value
  · rw [languageAnswered_same hsame]
    refine ⟨?_, fun t ht => answer_snoc (h.translating t ht) _, fun r hr => ?_⟩
    · rw [List.length_append, h.refs]
      rfl
    · rcases List.mem_append.mp hr with hr | hr
      · exact answer_snoc (h.node r hr) _
      · rw [List.mem_singleton.mp hr]
        exact hlast
  · rw [languageAnswered_other hsame]
    refine ⟨?_, fun t ht => ?_, fun r hr => answer_snoc (h.node r hr) _⟩
    · rw [List.length_append, h.refs]
      rfl
    · rcases List.mem_append.mp ht with ht | ht
      · exact answer_snoc (h.translating t ht) _
      · rw [List.mem_singleton.mp ht]
        exact hlast

theorem keyed_translated {s : State} (h : Keyed s) {t : Translating} (ht : t ∈ s.translating) :
    Keyed (translated c s t) := by
  refine ⟨h.refs, fun u hu => h.translating u (Requests.mem_drop.mp hu).1, fun r hr => ?_⟩
  rcases List.mem_append.mp hr with hr | hr
  · exact h.node r hr
  · rw [List.mem_singleton.mp hr]
    exact h.translating t ht

/-- All callbacks have come. -/
def Settled (s : State) : Prop := s.asked = [] ∧ s.translating = []

/-- In a settled state every answered press has the record of its number. -/
theorem record_of_answer {s : State} (h : Inv c s) (hk : Keyed s) (hs : Settled s) {i : Nat}
    {answer : Answer} (hi : s.answers[i]? = some answer) :
    ∃ r ∈ s.node, r.ref = i ∧ r.item = answer.item := by
  have hperm : (s.answers.map (·.press)).Perm (s.node.map (·.press)) := by
    have := h.answered
    rwa [hs.2, List.map_nil, List.nil_append] at this
  obtain ⟨r, hr, hpress⟩ := List.mem_map.mp
    (hperm.mem_iff.mp (List.mem_map_of_mem (List.mem_of_getElem? hi)))
  obtain ⟨answer', hanswer', hitem⟩ := Option.map_eq_some_iff.mp (hk.node r hr)
  have hsame : answer' = answer := by
    apply Requests.eq_of_key (hperm.nodup_iff.mpr (delivered_of_inv h).once)
      (List.mem_of_getElem? hanswer') (List.mem_of_getElem? hi)
    exact (congrArg Prod.snd hitem).trans hpress
  subst hsame
  refine ⟨r, hr, ?_, hitem.symm⟩
  obtain ⟨hlt, hget⟩ := List.getElem?_eq_some_iff.mp hanswer'
  obtain ⟨hlt', hget'⟩ := List.getElem?_eq_some_iff.mp hi
  have hnodup : s.answers.Nodup := (hperm.nodup_iff.mpr (delivered_of_inv h).once).of_map
  exact (hnodup.getElem_inj_iff).mp (hget.trans hget'.symm)

/-- Language responses in the order of the presses give keys in that order. -/
theorem keys_iff {s : State} (h : Inv c s) (hk : Keyed s) (hs : Settled s) :
    (s.answers.map Answer.item).Pairwise (Before side) ↔
      ∀ r ∈ s.node, ∀ r' ∈ s.node, r.side = side → r'.side = side → r.press < r'.press → r.ref < r'.ref := by
  rw [List.pairwise_map, List.pairwise_iff_getElem]
  refine ⟨?_, ?_⟩
  · intro hpairwise r hr r' hr' hside hside' hlt
    obtain ⟨answer, hanswer, hitem⟩ := Option.map_eq_some_iff.mp (hk.node r hr)
    obtain ⟨answer', hanswer', hitem'⟩ := Option.map_eq_some_iff.mp (hk.node r' hr')
    obtain ⟨hn, hget⟩ := List.getElem?_eq_some_iff.mp hanswer
    obtain ⟨hn', hget'⟩ := List.getElem?_eq_some_iff.mp hanswer'
    -- keys are numbered in the order of the answers
    by_contra hnot
    rcases Nat.lt_or_eq_of_le (Nat.not_lt.mp hnot) with hback | hsame
    · have hbefore := hpairwise r'.ref r.ref hn' hn hback
      rw [hget, hget', hitem, hitem'] at hbefore
      have : r'.press < r.press := hbefore hside' hside
      omega
    · rw [hsame, hanswer] at hanswer'
      rw [← Option.some.inj hanswer', hitem] at hitem'
      have : r.press = r'.press := congrArg Prod.snd hitem'
      omega
  · intro hkeys i j hi hj hij hside hside'
    obtain ⟨r, hr, hri, hitem⟩ := record_of_answer h hk hs (List.getElem?_eq_getElem hi)
    obtain ⟨r', hr', hrj, hitem'⟩ := record_of_answer h hk hs (List.getElem?_eq_getElem hj)
    rw [← hitem] at hside
    rw [← hitem'] at hside'
    show (s.answers[i]).item.2 < (s.answers[j]).item.2
    rw [← hitem, ← hitem']
    by_contra hnot
    rcases Nat.lt_or_eq_of_le (Nat.not_lt.mp hnot) with hback | hsame
    · have := hkeys r' hr' r hr hside' hside hback
      omega
    · have : r' = r := Requests.eq_of_key (delivered_of_inv h).once hr' hr hsame
      rw [this] at hrj
      omega

theorem inOrder_iff {s : State} (h : Inv c s) (hk : Keyed s) (hs : Settled s) :
    InOrder side s ↔ Good side s := by
  rw [Good, State.unkeyed, State.unwritten, hs.1, hs.2, List.map_nil, List.map_nil, List.append_nil,
    Overtaking.inTurn_nil, Overtaking.inTurn_nil, keys_iff h hk hs, List.pairwise_map]
  exact ⟨fun ho => ⟨ho.keys, ho.arrival⟩, fun ⟨hkeys, harrival⟩ => ⟨hkeys, harrival⟩⟩

theorem step_good (c : Chat) (side : Side) (s : State) (e : Event) (h : Inv c s ∧ Keyed s) (he : Enabled s e) :
    ∃ s', step c s e = some s' ∧ (Inv c s' ∧ Keyed s') ∧
      (Good side s' ↔ Good side s ∧ FirstInLine c side s e) := by
  obtain ⟨hinv, hk⟩ := h
  cases e with
  | didPressSend side' text =>
    obtain ⟨s', hs', hinv'⟩ := inv_didPressSend hinv side' text
    refine ⟨s', hs', ⟨hinv', keyed_didPressSend hk hs'⟩, ?_⟩
    rw [good_didPressSend hinv hs', FirstInLine, and_true]
  | language press value =>
    obtain ⟨a, ha, rfl, hfind⟩ := Requests.find_mem he
    refine ⟨_, congrArg (Option.map _) hfind, ⟨?_, keyed_languageAnswered hk a value⟩, ?_⟩
    · exact inv_answered hinv ha (answered_languageAnswered c s a value)
    · exact good_languageAnswered hinv ha value
  | translator press =>
    obtain ⟨t, ht, rfl, hfind⟩ := Requests.find_mem he
    refine ⟨_, congrArg (Option.map _) hfind, ⟨inv_translated hinv ht, keyed_translated hk ht⟩, ?_⟩
    exact good_translated hinv ht

theorem good_init : Good side State.init :=
  ⟨Overtaking.inTurn_nil.mpr List.Pairwise.nil, Overtaking.inTurn_nil.mpr List.Pairwise.nil⟩

/-- In every run after which all callbacks have come, the messages of an end are in the order in
    which it sent them, by key and by arrival, exactly if each language response came to the first
    press in line and each record was written for the first press in line. -/
theorem send_order_iff (c : Chat) (side : Side) (run : Runs.Schedule (step c) Enabled State.init) :
    ∃ s, Runs.exec (step c) State.init run.events = some s ∧
      (Settled s → (InOrder side s ↔ Runs.Along (step c) (FirstInLine c side) State.init run.events)) := by
  obtain ⟨s, hs, ⟨hinv, hk⟩, hgood⟩ := Runs.exec_iff_along (G := Good side)
    (step_good c side) ⟨inv_init c, keyed_init⟩ run.enabled
  refine ⟨s, hs, fun hsettled => ?_⟩
  rw [inOrder_iff hinv hk hsettled, hgood]
  exact and_iff_right good_init

/-- User 2 writes in English to user 3, who reads German. -/
def letters : Chat where
  peers := .twoThree
  language side := if side = .own then "en" else "de"
  translate params := params.target ++ ": " ++ params.text

/-- Two texts; the language response of the second comes first. -/
def overtaken : List Event :=
  [.didPressSend .own (some "one"), .didPressSend .own (some "two"), .language 1 "de", .language 0 "de",
    .translator 1, .translator 0]

theorem overtaken_swaps :
    Runs.Along (step letters) Enabled State.init overtaken ∧
      (Runs.exec (step letters) State.init overtaken).map
          (fun s => (s.asked, s.translating, s.node.map fun r => (r.ref, r.value.value "ownText"))) =
        some ([], [], [(0, some "two"), (1, some "one")]) ∧
      ∀ s, Runs.exec (step letters) State.init overtaken = some s → ¬ InOrder .own s := by
  have hlast : (Runs.exec (step letters) State.init overtaken).map
      (fun s => s.node.map Record.item) = some [(.own, 1), (.own, 0)] := by decide
  refine ⟨by decide, by decide, fun s hs h => ?_⟩
  rw [hs, Option.map_some, Option.some.injEq] at hlast
  have harrival : (s.node.map Record.item).Pairwise (Before .own) := List.pairwise_map.mpr h.arrival
  rw [hlast, List.pairwise_cons] at harrival
  have : 1 < 0 := harrival.1 (.own, 0) (List.mem_singleton_self _) rfl rfl
  omega

end Shiftgram.Composer
