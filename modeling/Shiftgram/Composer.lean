import Shiftgram.ConversationName
import Shiftgram.ChatScreen

/- Typed messages, from the press of Send to the bubble. `didPressSend` asks the server for the
   friend's language; its completion reserves a key and either writes the record at once or asks
   the translator, whose callback writes it. Both ends of a chat do so on one node of the database.

   In every run (`typed_messages`): a record comes from one press, with the text of that press and
   its translation for the language that was answered for that press, and both screens read it as
   that one message.

   Assumed: callbacks are atomic and each comes at most once, the language response is well formed.
   `self.senderId` and the display name are the decimal user id, as `initChat` sets them. -/
namespace Shiftgram.Composer

/-- The ends of a chat. -/
inductive Side
  | own | friend
  deriving DecidableEq, Repr

def Side.other : Side → Side
  | own => friend
  | friend => own

@[simp] theorem Side.other_other (side : Side) : side.other.other = side := by
  cases side <;> rfl

theorem Side.other_ne (side : Side) : side.other ≠ side := by
  cases side <;> exact nofun

/-- Of two different ends each is the other. -/
theorem Side.eq_other {side side' : Side} (h : side' ≠ side) : side' = side.other := by
  cases side <;> cases side' <;> first | rfl | exact absurd rfl h

structure Chat where
  peers : Peers
  language : Side → String
  translate : ROGoogleTranslateParams → String

def Chat.device (c : Chat) (side : Side) : Device where
  peers := match side with
    | .own => c.peers
    | .friend => c.peers.swap
  language := c.language side
  translate := c.translate

/-- A call of `didPressSend`; presses are numbered. -/
structure Press where
  side : Side
  text : Option String
  deriving DecidableEq

/-- A language request under way. -/
structure Asked where
  press : Nat
  side : Side
  text : String
  friend : Int
  deriving DecidableEq

/-- What the server returned for the account `friend`. -/
structure Answer where
  press : Nat
  side : Side
  friend : Int
  language : String
  deriving DecidableEq

/-- A translation under way, with the key reserved for the record. -/
structure Translating where
  press : Nat
  side : Side
  ref : Nat
  text : String
  params : ROGoogleTranslateParams
  deriving DecidableEq

/-- A record of the conversation. Keys are numbered in the order `childByAutoId` gives them. -/
structure Record where
  press : Nat
  side : Side
  ref : Nat
  value : Swift.Dictionary
  deriving DecidableEq

structure State where
  presses : List Press
  answers : List Answer
  refs : Nat
  asked : List Asked
  translating : List Translating
  /-- The children of the conversation, in the order in which they arrive. -/
  node : List Record
  deriving DecidableEq

def State.init : State := ⟨[], [], 0, [], [], []⟩

/-- The record of the text `own` with the translation `trans`. -/
def message (sender own trans : String) : Swift.Dictionary :=
  [("sender_id", sender), ("name", sender), ("text", trans), ("ownText", own), ("transText", trans)]

variable (c : Chat)

def didPressSend (s : State) (side : Side) (text : Option String) : Option State :=
  let pressed : State := { s with presses := s.presses ++ [⟨side, text⟩] }
  match text with
  | none => some pressed
  | some text =>
    if text = "" then some pressed
    else
      let peers := (c.device side).peers
      (frId peers.conversationName peers.own.toInt).map fun friend =>
        { pressed with asked := s.asked ++ [⟨s.presses.length, side, text, friend⟩] }

/-- The completion of `getFriendLanguage`. -/
def languageAnswered (s : State) (a : Asked) (value : String) : State :=
  let answered : State := { s with
    asked := Requests.drop (·.press) s.asked a.press
    answers := s.answers ++ [⟨a.press, a.side, a.friend, value⟩]
    refs := s.refs + 1 }
  if c.language a.side = value then
    { answered with
      node := s.node ++ [⟨a.press, a.side, s.refs, message (c.device a.side).user a.text a.text⟩] }
  else
    { answered with
      translating := s.translating ++
        [⟨a.press, a.side, s.refs, a.text, ⟨c.language a.side, value, a.text⟩⟩] }

/-- The callback of `translate`. -/
def translated (s : State) (t : Translating) : State :=
  { s with
    translating := Requests.drop (·.press) s.translating t.press
    node := s.node ++
      [⟨t.press, t.side, t.ref, message (c.device t.side).user t.text (c.translate t.params)⟩] }

inductive Event
  | didPressSend (side : Side) (text : Option String)
  | language (press : Nat) (value : String)
  | translator (press : Nat)
  deriving DecidableEq

def step (s : State) : Event → Option State
  | .didPressSend side text => didPressSend c s side text
  | .language press value =>
    (Requests.find (·.press) s.asked press).map fun a => languageAnswered c s a value
  | .translator press => (Requests.find (·.press) s.translating press).map (translated c s)

/-- Requests that are under way are answered. -/
def Enabled (s : State) : Event → Prop
  | .didPressSend _ _ => True
  | .language press _ => press ∈ s.asked.map (·.press)
  | .translator press => press ∈ s.translating.map (·.press)

instance (s : State) (e : Event) : Decidable (Enabled s e) :=
  match e with
  | .didPressSend _ _ => isTrue trivial
  | .language press _ => inferInstanceAs (Decidable (press ∈ s.asked.map (·.press)))
  | .translator press => inferInstanceAs (Decidable (press ∈ s.translating.map (·.press)))

/-! ## What a record says -/

/-- The text as the friend is to read it, once the friend's language is known. -/
def Chat.translation (side : Side) (text language : String) : String :=
  if c.language side = language then text else c.translate ⟨c.language side, language, text⟩

/-- The screen of the user shows one more bubble, or none for the empty text. -/
def Shows (user : Int32) (r : Record) (sender text : String) : Prop :=
  ∀ screen : ChatScreen, screen.userId = user →
    screen.childAdded r.ref r.value = some
      (if text = "" then screen
       else { screen with messages := screen.messages ++ [(r.ref, ⟨sender, sender, .text text⟩)] })

/-- The record is that of the press: its text, the translation for the language answered for it,
    and one bubble on either screen. -/
def Faithful (presses : List Press) (answers : List Answer) (r : Record) : Prop :=
  ∃ text answer, presses[r.press]? = some ⟨r.side, some text⟩ ∧ text ≠ "" ∧
    answer ∈ answers ∧ answer.press = r.press ∧
    answer.friend = (c.device r.side).peers.friend.toInt ∧
    r.value.value "ownText" = some text ∧
    r.value.value "transText" = some (c.translation r.side text answer.language) ∧
    Shows (c.device r.side).peers.own r (c.device r.side).user text ∧
    Shows (c.device r.side).peers.friend r (c.device r.side).user
      (c.translation r.side text answer.language)

structure Delivered (s : State) : Prop where
  once : (s.node.map (·.press)).Nodup
  answers : (s.answers.map (·.press)).Nodup
  faithful : ∀ r ∈ s.node, Faithful c s.presses s.answers r

/-! ## Reading a record -/

theorem childAdded_message (userId : Int32) (sender own trans : String) :
    ChatViewController.childAdded userId (message sender own trans) =
      ChatViewController.appendText (some sender) (some sender)
        (some (if sender = Swift.string userId then own else trans)) := by
  have hdata : ChatViewController.childAdded userId (message sender own trans) =
      ChatViewController.appendText (some sender) (some sender)
        (if some sender == some (Swift.string userId) then some own else some trans) := rfl
  rw [hdata]
  by_cases h : sender = Swift.string userId <;> simp [h]

theorem shows_message {user : Int32} {r : Record} {sender own trans text : String}
    (hr : r.value = message sender own trans)
    (htext : text = if sender = Swift.string user then own else trans) :
    Shows user r sender text := by
  intro screen huser
  rw [ChatScreen.childAdded, huser, hr, childAdded_message, ← htext]
  by_cases hempty : text = ""
  · rw [if_pos hempty, hempty]
    rfl
  · rw [if_neg hempty]
    simp [ChatViewController.appendText, hempty, ChatScreen.react, huser]

variable {c}

theorem faithful_message {presses : List Press} {answers : List Answer} {press : Nat} {side : Side}
    {text : String} {answer : Answer} (hpress : presses[press]? = some ⟨side, some text⟩)
    (hne : text ≠ "") (hanswer : answer ∈ answers) (hof : answer.press = press)
    (hfriend : answer.friend = (c.device side).peers.friend.toInt) (ref : Nat) :
    Faithful c presses answers ⟨press, side, ref, message (c.device side).user text
      (c.translation side text answer.language)⟩ := by
  refine ⟨text, answer, hpress, hne, hanswer, hof, hfriend, rfl, rfl, ?_, ?_⟩
  · apply shows_message rfl
    rw [if_pos (by rfl)]
  · apply shows_message rfl
    rw [if_neg]
    intro hsame
    exact (c.device side).peers.distinct (Swift.string_inj.mp hsame)

/-- Recorded presses stay where they are. -/
theorem press_snoc {presses : List Press} {n : Nat} {press : Press} (h : presses[n]? = some press)
    (press' : Press) : (presses ++ [press'])[n]? = some press := by
  obtain ⟨hn, -⟩ := List.getElem?_eq_some_iff.mp h
  rw [List.getElem?_append_left hn, h]

/-! ## Every press has at most one request or record -/

def State.tokens (s : State) : List Nat :=
  s.asked.map (·.press) ++ (s.translating.map (·.press) ++ s.node.map (·.press))

structure Inv (c : Chat) (s : State) : Prop where
  asked : ∀ a ∈ s.asked, s.presses[a.press]? = some ⟨a.side, some a.text⟩ ∧ a.text ≠ "" ∧
    a.friend = (c.device a.side).peers.friend.toInt
  translating : ∀ t ∈ s.translating, s.presses[t.press]? = some ⟨t.side, some t.text⟩ ∧ t.text ≠ "" ∧
    ∃ answer ∈ s.answers, answer.press = t.press ∧
      answer.friend = (c.device t.side).peers.friend.toInt ∧ c.language t.side ≠ answer.language ∧
      t.params = ⟨c.language t.side, answer.language, t.text⟩
  node : ∀ r ∈ s.node, Faithful c s.presses s.answers r
  tokens : s.tokens.Nodup
  issued : ∀ n ∈ s.tokens, n < s.presses.length
  answered : (s.answers.map (·.press)).Perm (s.translating.map (·.press) ++ s.node.map (·.press))

theorem delivered_of_inv {s : State} (h : Inv c s) : Delivered c s := by
  obtain ⟨-, hrest, -⟩ := List.nodup_append.mp h.tokens
  exact ⟨(List.nodup_append.mp hrest).2.1, h.answered.nodup_iff.mpr hrest, h.node⟩

/-- The list of presses grows. -/
theorem inv_pressed {s : State} (h : Inv c s) (press : Press) :
    Inv c { s with presses := s.presses ++ [press] } where
  asked := fun a ha => ⟨press_snoc (h.asked a ha).1 _, (h.asked a ha).2⟩
  translating := fun t ht => ⟨press_snoc (h.translating t ht).1 _, (h.translating t ht).2⟩
  node := by
    intro r hr
    obtain ⟨text, answer, hpress, hfaithful⟩ := h.node r hr
    exact ⟨text, answer, press_snoc hpress _, hfaithful⟩
  tokens := h.tokens
  issued := by
    intro n hn
    have := h.issued n hn
    rw [List.length_append]
    omega
  answered := h.answered

theorem tokens_asked (s : State) (a : Asked) :
    State.tokens { s with asked := s.asked ++ [a] } = s.asked.map (·.press) ++
      (a.press :: (s.translating.map (·.press) ++ s.node.map (·.press))) := by
  simp [State.tokens]

theorem didPressSend_eq (s : State) (side : Side) {text : String} (h : text ≠ "") :
    didPressSend c s side (some text) = some { s with
      presses := s.presses ++ [⟨side, some text⟩]
      asked := s.asked ++
        [⟨s.presses.length, side, text, (c.device side).peers.friend.toInt⟩] } :=
  (if_neg h).trans (by rw [frId_conversationName, Option.map_some])

theorem inv_didPressSend {s : State} (h : Inv c s) (side : Side) (text : Option String) :
    ∃ s', didPressSend c s side text = some s' ∧ Inv c s' := by
  have hpressed := inv_pressed h ⟨side, text⟩
  cases text with
  | none => exact ⟨_, rfl, hpressed⟩
  | some text =>
    by_cases hempty : text = ""
    · exact ⟨_, if_pos hempty, hpressed⟩
    · refine ⟨_, didPressSend_eq s side hempty, ?_⟩
      -- the new request has the number of the press, which no other has
      have hnew : s.presses.length ∉ s.tokens := fun hmem => Nat.lt_irrefl _ (h.issued _ hmem)
      have htokens : (s.asked.map (·.press) ++ (s.presses.length ::
          (s.translating.map (·.press) ++ s.node.map (·.press)))).Perm (s.presses.length :: s.tokens) :=
        List.perm_middle
      refine ⟨?_, hpressed.translating, hpressed.node, ?_, ?_, h.answered⟩
      · intro a ha
        rcases List.mem_append.mp ha with ha | ha
        · exact hpressed.asked a ha
        · rw [List.mem_singleton.mp ha]
          exact ⟨by simp, hempty, rfl⟩
      · show (State.tokens { s with asked := s.asked ++ [_] }).Nodup
        rw [tokens_asked, htokens.nodup_iff, List.nodup_cons]
        exact ⟨hnew, h.tokens⟩
      · intro n hn
        change n ∈ State.tokens { s with asked := s.asked ++ [_] } at hn
        rw [tokens_asked, htokens.mem_iff, List.mem_cons] at hn
        rcases hn with rfl | hn
        · simp
        · exact hpressed.issued n hn

theorem faithful_answered {presses : List Press} {answers : List Answer} {r : Record}
    (h : Faithful c presses answers r) (answer : Answer) :
    Faithful c presses (answers ++ [answer]) r := by
  obtain ⟨text, answer', hpress, hne, hanswer, hfaithful⟩ := h
  exact ⟨text, answer', hpress, hne, List.mem_append_left _ hanswer, hfaithful⟩

/-- A request that is answered goes on as a translation or as a record. -/
structure Answered (c : Chat) (a : Asked) (value : String) (s s' : State) : Prop where
  presses : s'.presses = s.presses
  asked : s'.asked = Requests.drop (·.press) s.asked a.press
  answers : s'.answers = s.answers ++ [⟨a.press, a.side, a.friend, value⟩]
  moved : (s'.translating.map (·.press) ++ s'.node.map (·.press)).Perm
    (a.press :: (s.translating.map (·.press) ++ s.node.map (·.press)))
  translating : ∀ t ∈ s'.translating, t ∈ s.translating ∨ (c.language a.side ≠ value ∧
    ∃ ref, t = ⟨a.press, a.side, ref, a.text, ⟨c.language a.side, value, a.text⟩⟩)
  node : ∀ r ∈ s'.node, r ∈ s.node ∨ ∃ ref, r = ⟨a.press, a.side, ref,
    message (c.device a.side).user a.text (c.translation a.side a.text value)⟩

theorem languageAnswered_same {s : State} {a : Asked} {value : String}
    (h : c.language a.side = value) : languageAnswered c s a value = { s with
      asked := Requests.drop (·.press) s.asked a.press
      answers := s.answers ++ [⟨a.press, a.side, a.friend, value⟩]
      refs := s.refs + 1
      node := s.node ++ [⟨a.press, a.side, s.refs, message (c.device a.side).user a.text a.text⟩] } :=
  if_pos h

theorem languageAnswered_other {s : State} {a : Asked} {value : String}
    (h : c.language a.side ≠ value) : languageAnswered c s a value = { s with
      asked := Requests.drop (·.press) s.asked a.press
      answers := s.answers ++ [⟨a.press, a.side, a.friend, value⟩]
      refs := s.refs + 1
      translating := s.translating ++
        [⟨a.press, a.side, s.refs, a.text, ⟨c.language a.side, value, a.text⟩⟩] } :=
  if_neg h

theorem answered_languageAnswered (c : Chat) (s : State) (a : Asked) (value : String) :
    Answered c a value s (languageAnswered c s a value) := by
  by_cases hsame : c.language a.side = value
  · rw [languageAnswered_same hsame]
    refine ⟨rfl, rfl, rfl, ?_, fun t ht => Or.inl ht, fun r hr => ?_⟩
    · rw [List.map_append, ← List.append_assoc]
      exact List.perm_append_singleton _ _
    · rcases List.mem_append.mp hr with hr | hr
      · exact Or.inl hr
      · rw [List.mem_singleton.mp hr, Chat.translation, if_pos hsame]
        exact Or.inr ⟨s.refs, rfl⟩
  · rw [languageAnswered_other hsame]
    refine ⟨rfl, rfl, rfl, ?_, fun t ht => ?_, fun r hr => Or.inl hr⟩
    · rw [List.map_append, List.append_assoc]
      exact List.perm_middle
    · rcases List.mem_append.mp ht with ht | ht
      · exact Or.inl ht
      · exact Or.inr ⟨hsame, s.refs, List.mem_singleton.mp ht⟩

theorem tokens_answered {s s' : State} (h : Inv c s) {a : Asked} (ha : a ∈ s.asked) {value : String}
    (hs' : Answered c a value s s') : s'.tokens.Perm s.tokens := by
  rw [State.tokens, hs'.asked]
  refine (hs'.moved.append_left _).trans (List.perm_middle.trans ?_)
  exact (((Requests.perm_drop (List.nodup_append.mp h.tokens).1 ha).map _).append_right _).symm

theorem inv_answered {s s' : State} (h : Inv c s) {a : Asked} (ha : a ∈ s.asked) {value : String}
    (hs' : Answered c a value s s') : Inv c s' := by
  obtain ⟨hpress, hne, hfriend⟩ := h.asked a ha
  have hlast : (⟨a.press, a.side, a.friend, value⟩ : Answer) ∈ s'.answers := by
    rw [hs'.answers]
    exact List.mem_append_right _ (List.mem_singleton_self _)
  have htokens := tokens_answered h ha hs'
  refine ⟨?_, ?_, ?_, htokens.nodup_iff.mpr h.tokens, ?_, ?_⟩
  · intro b hb
    rw [hs'.asked] at hb
    rw [hs'.presses]
    exact h.asked b (Requests.mem_drop.mp hb).1
  · intro t ht
    rw [hs'.presses]
    rcases hs'.translating t ht with ht | ⟨hother, ref, rfl⟩
    · obtain ⟨htpress, htne, answer, hanswer, hparams⟩ := h.translating t ht
      rw [hs'.answers]
      exact ⟨htpress, htne, answer, List.mem_append_left _ hanswer, hparams⟩
    · exact ⟨hpress, hne, _, hlast, rfl, hfriend, hother, rfl⟩
  · intro r hr
    rw [hs'.presses]
    rcases hs'.node r hr with hr | ⟨ref, rfl⟩
    · rw [hs'.answers]
      exact faithful_answered (h.node r hr) _
    · exact faithful_message hpress hne hlast rfl hfriend ref
  · intro n hn
    rw [hs'.presses]
    exact h.issued n (htokens.mem_iff.mp hn)
  · rw [hs'.answers, List.map_append]
    exact (List.perm_append_singleton _ _).trans ((h.answered.cons _).trans hs'.moved.symm)

theorem inv_translated {s : State} (h : Inv c s) {t : Translating} (ht : t ∈ s.translating) :
    Inv c (translated c s t) := by
  obtain ⟨hpress, hne, answer, hanswer, hof, hfriend, hother, hparams⟩ := h.translating t ht
  obtain ⟨-, hrest, -⟩ := List.nodup_append.mp h.tokens
  have hdrop := (Requests.perm_drop (List.nodup_append.mp hrest).1 ht).map (·.press)
  let r : Record := ⟨t.press, t.side, t.ref,
    message (c.device t.side).user t.text (c.translate t.params)⟩
  -- the translation becomes a record
  have hmoved : ((Requests.drop (·.press) s.translating t.press).map (·.press) ++
      (s.node ++ [r]).map (·.press)).Perm (s.translating.map (·.press) ++ s.node.map (·.press)) := by
    rw [List.map_append, ← List.append_assoc]
    exact (List.perm_append_singleton _ _).trans (hdrop.append_right _).symm
  have htokens : (translated c s t).tokens.Perm s.tokens := hmoved.append_left _
  refine ⟨h.asked, fun u hu => h.translating u (Requests.mem_drop.mp hu).1, ?_,
    htokens.nodup_iff.mpr h.tokens, fun n hn => h.issued n (htokens.mem_iff.mp hn),
    h.answered.trans hmoved.symm⟩
  intro r' hr'
  rcases List.mem_append.mp hr' with hr' | hr'
  · exact h.node r' hr'
  · have htrans : c.translate t.params = c.translation t.side t.text answer.language := by
      rw [Chat.translation, if_neg hother, hparams]
    rw [List.mem_singleton.mp hr', htrans]
    exact faithful_message hpress hne hanswer hof hfriend t.ref

theorem inv_step {s : State} {e : Event} (h : Inv c s) (he : Enabled s e) :
    ∃ s', step c s e = some s' ∧ Inv c s' := by
  cases e with
  | didPressSend side text => exact inv_didPressSend h side text
  | language press value =>
    obtain ⟨a, ha, -, hfind⟩ := Requests.find_mem he
    refine ⟨_, congrArg (Option.map _) hfind, ?_⟩
    exact inv_answered h ha (answered_languageAnswered c s a value)
  | translator press =>
    obtain ⟨t, ht, -, hfind⟩ := Requests.find_mem he
    exact ⟨_, congrArg (Option.map _) hfind, inv_translated h ht⟩

theorem inv_init (c : Chat) : Inv c State.init where
  asked := by simp [State.init]
  translating := by simp [State.init]
  node := by simp [State.init]
  tokens := List.nodup_nil
  issued := by simp [State.init, State.tokens]
  answered := List.Perm.refl _

/-- In every run of a chat, with any sends of both ends and any order of the callbacks, nothing
    traps, and at all times the records are those of their presses. -/
theorem typed_messages (c : Chat) (run : Runs.Schedule (step c) Enabled State.init) :
    (∃ s, Runs.exec (step c) State.init run.events = some s) ∧
      Runs.Throughout (step c) (Delivered c) State.init run.events := by
  exact Runs.run_ok (fun s e hI he => inv_step (c := c) hI he) (fun s hI => delivered_of_inv hI)
    (inv_init c) run.enabled

/-- Users 2 and 3, whose devices are set to English and German; the translator marks its texts. -/
def twoLanguages : Chat where
  peers := .twoThree
  language
    | .own => "en"
    | .friend => "de"
  translate params := params.source ++ "-" ++ params.target ++ ": " ++ params.text

/-- Both ends send before anything is answered, the second end twice; the answers come in another
    order. -/
def crossed : List Event :=
  [.didPressSend .own (some "hi"), .didPressSend .friend (some "ja"), .didPressSend .friend (some "ok"),
   .language 2 "de", .language 1 "en", .language 0 "de", .translator 0, .translator 1]

theorem typed_crossed :
    (Runs.exec (step twoLanguages) State.init crossed).map
        (·.node.map fun r => (r.press, r.value.value "ownText", r.value.value "transText")) =
      some [(2, some "ok", some "ok"), (0, some "hi", some "en-de: hi"),
        (1, some "ja", some "de-en: ja")] ∧
    Runs.Throughout (step twoLanguages) (Delivered twoLanguages) State.init crossed :=
  ⟨by decide, (typed_messages twoLanguages ⟨crossed, by decide⟩).2⟩

end Shiftgram.Composer
