import Shiftgram.ConversationName
import Shiftgram.Feed
import Shiftgram.Runs
import Mathlib.Data.Set.Basic

/- Who receives what under the database root. The users of a community open their screens and write
   to the channels they compute for their friends, in any order. A record is private when only
   observers of its writer and of the friend it was written for receive it. Conversations are named
   by products, so records stay private exactly as long as no two disjoint pairs of the community
   have the same product (`isolated_iff`); the suffixes never mix two kinds of channel. -/
namespace Shiftgram.Isolation

/-- The observers the app registers, by the class that owns them. -/
inductive Screen
  | chat | menuVideo | menuAudio | appDelegate | videoCall | audioCall | audioCalling
  deriving DecidableEq, Repr

/-- The channel an observer is registered on. -/
def Screen.channel : Screen → Channel
  | chat => .messages
  | menuVideo | menuAudio | appDelegate => .notification
  | videoCall => .video
  | audioCall => .audio
  | audioCalling => .audioCalling

/-- The name the observer's class computes; the call screens are given the chat's. -/
def Screen.conversationName : Screen → Int32 → Int32 → Option String
  | chat | videoCall | audioCall | audioCalling => ConversationViewController.conversationName
  | menuVideo | menuAudio => MenuViewController.conversationName
  | appDelegate => AppDelegate.conversationName

/-- The name a record is written under: the answers to audio calls are written by the Menu,
    everything else by screens that were opened from the conversation list. -/
def writerName : Channel → Int32 → Int32 → Option String
  | .audioCalling => MenuViewController.conversationName
  | _ => ConversationViewController.conversationName

structure Observer where
  owner : Int32
  friend : Int32
  screen : Screen
  deriving DecidableEq, Repr

/-- A record and, beside what the database holds, who wrote it for whom. -/
structure Letter where
  writer : Int32
  friend : Int32
  channel : Channel
  value : Swift.Dictionary
  deriving DecidableEq, Repr

inductive Event
  | opens (screen : Screen) (user friend : Int32)
  | writes (channel : Channel) (user friend : Int32) (value : Swift.Dictionary)
  deriving DecidableEq, Repr

structure State where
  feed : Feed.State String Observer Letter
  delivered : List (Observer × Letter)

def State.init : State := ⟨.empty, []⟩

/-- Every query of the app is `queryLimited(toLast: 10)`. -/
def step (s : State) : Event → Option State
  | .opens screen user friend => do
    let name ← screen.conversationName user friend
    let out := Feed.observe 10 s.feed (node name screen.channel) ⟨user, friend, screen⟩
    some ⟨out.1, s.delivered ++ out.2⟩
  | .writes channel user friend value => do
    let name ← writerName channel user friend
    let out := Feed.push s.feed (node name channel) ⟨user, friend, channel, value⟩
    some ⟨out.1, s.delivered ++ out.2⟩

/-- A set of users whose conversations can all be named. -/
structure Community where
  ids : Set Int32
  pos : ∀ a ∈ ids, 0 < a.toInt
  fits : ∀ a ∈ ids, ∀ b ∈ ids, a ≠ b → Swift.fits32 (a.toInt * b.toInt) = true

/-- What the users of a community can do: each with another one of them. -/
def Within (U : Community) : Event → Prop
  | .opens _ user friend | .writes _ user friend _ => user ∈ U.ids ∧ friend ∈ U.ids ∧ user ≠ friend

/-- In every run of the community every record is private to its two users. -/
def Isolated (U : Community) : Prop :=
  ∀ run : Runs.Schedule step (fun _ e => Within U e) State.init, ∀ s,
    Runs.exec step State.init run.events = some s →
      ∀ d ∈ s.delivered, d.1.owner = d.2.writer ∨ d.1.owner = d.2.friend

/-- The computed names tell the pairs of the community apart. -/
def NamesSeparate (U : Community) : Prop :=
  ∀ a ∈ U.ids, ∀ b ∈ U.ids, ∀ c ∈ U.ids, ∀ d ∈ U.ids, a ≠ b → c ≠ d →
    ConversationViewController.conversationName a b = ConversationViewController.conversationName c d →
      (a = c ∧ b = d) ∨ (a = d ∧ b = c)

/-- Four different users of whom two have the same product as the other two. -/
def SharedProduct (U : Community) : Prop :=
  ∃ a ∈ U.ids, ∃ b ∈ U.ids, ∃ c ∈ U.ids, ∃ d ∈ U.ids,
    [a, b, c, d].Nodup ∧ a.toInt * b.toInt = c.toInt * d.toInt

/-! The pairs of a community and their names. -/

variable {U : Community} {a b c d : Int32}

/-- Two users of a community as a pair with a name. -/
def Community.peers (U : Community) (ha : a ∈ U.ids) (hb : b ∈ U.ids) (h : a ≠ b) : Peers where
  own := a
  friend := b
  own_ne := fun h0 => by simpa [h0] using U.pos a ha
  friend_ne := fun h0 => by simpa [h0] using U.pos b hb
  distinct := h
  fits := U.fits a ha b hb h

/-- `n` is the node of `channel` for the users `a` and `b`. -/
def NodeOf (U : Community) (a b : Int32) (channel : Channel) (n : String) : Prop :=
  ∃ (ha : a ∈ U.ids) (hb : b ∈ U.ids) (h : a ≠ b),
    n = node (U.peers ha hb h).conversationName channel

theorem screen_name (ha : a ∈ U.ids) (hb : b ∈ U.ids) (h : a ≠ b) (screen : Screen) :
    screen.conversationName a b = some (U.peers ha hb h).conversationName := by
  cases screen
  case menuVideo | menuAudio => exact menuConversationName_eq (U.peers ha hb h)
  case appDelegate => exact menuConversationName_eq (U.peers ha hb h)
  all_goals exact conversationName_eq (U.peers ha hb h)

theorem writer_name (ha : a ∈ U.ids) (hb : b ∈ U.ids) (h : a ≠ b) (channel : Channel) :
    writerName channel a b = some (U.peers ha hb h).conversationName := by
  cases channel
  case audioCalling => exact menuConversationName_eq (U.peers ha hb h)
  all_goals exact conversationName_eq (U.peers ha hb h)

/-- The effect of opening a screen, with the name filled in. -/
def opened (s : State) (name : String) (o : Observer) : State :=
  let out := Feed.observe 10 s.feed (node name o.screen.channel) o
  ⟨out.1, s.delivered ++ out.2⟩

/-- The effect of a write, with the name filled in. -/
def written (s : State) (name : String) (x : Letter) : State :=
  let out := Feed.push s.feed (node name x.channel) x
  ⟨out.1, s.delivered ++ out.2⟩

theorem step_opens (ha : a ∈ U.ids) (hb : b ∈ U.ids) (h : a ≠ b) (s : State) (screen : Screen) :
    step s (.opens screen a b) =
      some (opened s (U.peers ha hb h).conversationName ⟨a, b, screen⟩) := by
  simp only [step, screen_name ha hb h screen]
  rfl

theorem step_writes (ha : a ∈ U.ids) (hb : b ∈ U.ids) (h : a ≠ b) (s : State) (channel : Channel)
    (value : Swift.Dictionary) : step s (.writes channel a b value) =
      some (written s (U.peers ha hb h).conversationName ⟨a, b, channel, value⟩) := by
  simp only [step, writer_name ha hb h channel]
  rfl

/-- Two pairs meet in a node only with equal products and the same kind of channel. -/
theorem nodeOf_product {ch ch' : Channel} {n : String} (h : NodeOf U a b ch n)
    (h' : NodeOf U c d ch' n) : a.toInt * b.toInt = c.toInt * d.toInt ∧ ch = ch' := by
  obtain ⟨ha, hb, hab, rfl⟩ := h
  obtain ⟨hc, hd, hcd, hn⟩ := h'
  obtain ⟨hp, hch⟩ := node_inj.mp hn
  refine ⟨?_, hch⟩
  calc a.toInt * b.toInt = (U.peers ha hb hab).product.toInt := (U.peers ha hb hab).toInt_product.symm
    _ = (U.peers hc hd hcd).product.toInt := by rw [hp]
    _ = c.toInt * d.toInt := (U.peers hc hd hcd).toInt_product

/-- Without a shared product, equal products belong to one pair: positive factors cancel. -/
theorem pair_of_product (hU : ¬ SharedProduct U) (ha : a ∈ U.ids) (hb : b ∈ U.ids) (hc : c ∈ U.ids)
    (hd : d ∈ U.ids) (hab : a ≠ b) (hcd : c ≠ d) (h : a.toInt * b.toInt = c.toInt * d.toInt) :
    (a = c ∧ b = d) ∨ (a = d ∧ b = c) := by
  have hne : ∀ x ∈ U.ids, x.toInt ≠ 0 := fun x hx => (U.pos x hx).ne'
  -- where one user of the pairs is the same, so is the other
  have hcancel : ∀ {x y z : Int32}, x ∈ U.ids → x.toInt * y.toInt = x.toInt * z.toInt → y = z :=
    fun hx h => Int32.toInt.inj (Int.eq_of_mul_eq_mul_left (hne _ hx) h)
  by_cases hac : a = c
  · exact Or.inl ⟨hac, hcancel ha (by rw [h, hac])⟩
  by_cases had : a = d
  · exact Or.inr ⟨had, hcancel ha (by rw [h, had, Int.mul_comm])⟩
  by_cases hbc : b = c
  · exact absurd (hcancel hb (by rw [Int.mul_comm, h, hbc])) had
  by_cases hbd : b = d
  · exact absurd (hcancel hb (by rw [Int.mul_comm, h, hbd, Int.mul_comm])) hac
  exact absurd ⟨a, ha, b, hb, c, hc, d, hd, by simp [*], h⟩ hU

/-! Runs: observers and records stay where their pairs belong. -/

def observes (U : Community) (o : Observer) (n : String) : Prop :=
  NodeOf U o.owner o.friend o.screen.channel n

def belongs (U : Community) (x : Letter) (n : String) : Prop := NodeOf U x.writer x.friend x.channel n

/-- Every delivery so far went through a node of the observer and of the record. -/
structure Inv (U : Community) (s : State) : Prop where
  routed : Feed.Routed (belongs U) (observes U) s.feed
  delivered : ∀ d ∈ s.delivered, ∃ n, observes U d.1 n ∧ belongs U d.2 n

theorem inv_step {s : State} {e : Event} (hI : Inv U s) (he : Within U e) :
    ∃ s', step s e = some s' ∧ Inv U s' := by
  cases e with
  | opens screen user friend =>
    obtain ⟨hu, hf, hne⟩ := he
    obtain ⟨hr, hd⟩ := hI.routed.observe 10 (o := ⟨user, friend, screen⟩)
      (n := node (U.peers hu hf hne).conversationName screen.channel) ⟨hu, hf, hne, rfl⟩
    exact ⟨_, step_opens hu hf hne s screen, hr, List.forall_mem_append.mpr ⟨hI.delivered, hd⟩⟩
  | writes channel user friend value =>
    obtain ⟨hu, hf, hne⟩ := he
    obtain ⟨hr, hd⟩ := hI.routed.push (x := ⟨user, friend, channel, value⟩)
      (n := node (U.peers hu hf hne).conversationName channel) ⟨hu, hf, hne, rfl⟩
    exact ⟨_, step_writes hu hf hne s channel value, hr,
      List.forall_mem_append.mpr ⟨hI.delivered, hd⟩⟩

theorem isolated_of_not_shared (hU : ¬ SharedProduct U) : Isolated U := by
  intro run s hs d hd
  obtain ⟨t, ht, hI⟩ := Runs.exec_ok (I := Inv U) (fun s e hI he => inv_step hI he)
    ⟨Feed.routed_empty, by simp [State.init]⟩ run.enabled
  rw [hs] at ht
  cases ht
  obtain ⟨n, hobs, hrec⟩ := hI.delivered d hd
  obtain ⟨hprod, -⟩ := nodeOf_product hobs hrec
  obtain ⟨ho, hf, hne, -⟩ := hobs
  obtain ⟨hw, hwf, hwne, -⟩ := hrec
  rcases pair_of_product hU ho hf hw hwf hne hwne hprod with h | h
  · exact Or.inl h.1
  · exact Or.inr h.1

/-- The chat of `c` with `d` opens, then `a` writes to `b`. -/
def crossing (a b c d : Int32) : List Event := [.opens .chat c d, .writes .messages a b []]

/-- Pairs with equal products share the node, so `c` receives what `a` wrote for `b`. -/
theorem crossing_delivers (ha : a ∈ U.ids) (hb : b ∈ U.ids) (hc : c ∈ U.ids) (hd : d ∈ U.ids)
    (hab : a ≠ b) (hcd : c ≠ d) (h : a.toInt * b.toInt = c.toInt * d.toInt) :
    ∃ s, Runs.exec step State.init (crossing a b c d) = some s ∧
      s.delivered = [(⟨c, d, .chat⟩, ⟨a, b, .messages, []⟩)] := by
  have hname : (U.peers ha hb hab).conversationName = (U.peers hc hd hcd).conversationName := by
    unfold Peers.conversationName Peers.product
    exact congrArg (fun n => Swift.string (Int32.ofInt n)) h
  refine ⟨written (opened State.init (U.peers hc hd hcd).conversationName ⟨c, d, .chat⟩)
    (U.peers ha hb hab).conversationName ⟨a, b, .messages, []⟩, ?_, ?_⟩
  · simp only [crossing, Runs.exec_cons, step_opens hc hd hcd, step_writes ha hb hab, Option.bind_some,
      Runs.exec_nil]
  · rw [hname]
    simp [written, opened, Feed.observe, Feed.push, Feed.State.latest, Feed.State.at,
      Feed.State.audience, State.init, Feed.State.empty, Screen.channel]

theorem not_isolated_of_shared (hU : SharedProduct U) : ¬ Isolated U := by
  obtain ⟨a, ha, b, hb, c, hc, d, hd, hnodup, h⟩ := hU
  simp only [List.nodup_cons, List.mem_cons, List.not_mem_nil, or_false, not_or] at hnodup
  obtain ⟨⟨hab, hac, had⟩, ⟨hbc, hbd⟩, hcd, -⟩ := hnodup
  obtain ⟨s, hs, hdel⟩ := crossing_delivers ha hb hc hd hab hcd h
  intro hiso
  have hen : Runs.Along step (fun _ e => Within U e) State.init (crossing a b c d) :=
    ⟨⟨hc, hd, hcd⟩, fun _ _ => ⟨⟨ha, hb, hab⟩, fun _ _ => trivial⟩⟩
  rcases hiso ⟨_, hen⟩ s hs _ (by rw [hdel]; exact List.mem_singleton_self _) with h | h
  · exact hac h.symm
  · exact hbc h.symm

/-- Records are private, and names tell pairs apart, exactly where no two disjoint pairs of the
    community have the same product. -/
theorem isolated_iff (U : Community) :
    (Isolated U ↔ ¬ SharedProduct U) ∧ (NamesSeparate U ↔ ¬ SharedProduct U) := by
  refine ⟨⟨fun h hU => not_isolated_of_shared hU h, isolated_of_not_shared⟩, fun h hU => ?_, ?_⟩
  · obtain ⟨a, ha, b, hb, c, hc, d, hd, hnodup, hprod⟩ := hU
    simp only [List.nodup_cons, List.mem_cons, List.not_mem_nil, or_false, not_or] at hnodup
    obtain ⟨⟨hab, hac, had⟩, ⟨hbc, hbd⟩, hcd, -⟩ := hnodup
    have hname : ConversationViewController.conversationName a b =
        ConversationViewController.conversationName c d := by
      unfold ConversationViewController.conversationName Swift.mul
      rw [Int.mul_comm b.toInt, Int.mul_comm d.toInt, hprod]
    rcases h a ha b hb c hc d hd hab hcd hname with h | h
    · exact hac h.1
    · exact had h.1
  · intro hU a ha b hb c hc d hd hab hcd hname
    have hleft : ConversationViewController.conversationName a b = _ := screen_name ha hb hab .chat
    have hright : ConversationViewController.conversationName c d = _ := screen_name hc hd hcd .chat
    rw [hleft, hright] at hname
    have hp : (U.peers ha hb hab).product = (U.peers hc hd hcd).product :=
      Swift.string_inj.mp (Option.some.inj hname)
    refine pair_of_product hU ha hb hc hd hab hcd ?_
    calc a.toInt * b.toInt = (U.peers ha hb hab).product.toInt := (U.peers ha hb hab).toInt_product.symm
      _ = (U.peers hc hd hcd).product.toInt := by rw [hp]
      _ = c.toInt * d.toInt := (U.peers hc hd hcd).toInt_product

/-- Users 1, 2, 3 and 6: the chats of 1 with 6 and of 2 with 3 are both the node `6`. -/
def smallCommunity : Community where
  ids := {a | a ∈ [1, 2, 3, 6]}
  pos := by
    have hall : ([1, 2, 3, 6] : List Int32).all (fun a => decide (0 < a.toInt)) = true := by decide
    exact fun a ha => of_decide_eq_true (List.all_eq_true.mp hall a ha)
  fits := by
    have hall : ([1, 2, 3, 6] : List Int32).all (fun a => ([1, 2, 3, 6] : List Int32).all fun b =>
      Swift.fits32 (a.toInt * b.toInt)) = true := by decide
    exact fun a ha b hb _ => List.all_eq_true.mp (List.all_eq_true.mp hall a ha) b hb

/-- User 2, chatting with 3, receives what user 1 writes to 6. -/
theorem smallCommunity_crosses :
    (Runs.exec step State.init (crossing 1 6 2 3)).map (·.delivered) =
        some [(⟨2, 3, .chat⟩, ⟨1, 6, .messages, []⟩)] ∧
      ¬ Isolated smallCommunity := by
  refine ⟨by decide, not_isolated_of_shared ⟨1, ?_, 6, ?_, 2, ?_, 3, ?_, by decide, by decide⟩⟩
  all_goals show _ ∈ ([1, 2, 3, 6] : List Int32); decide

end Shiftgram.Isolation
