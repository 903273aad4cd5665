import Shiftgram.App

/- Where a conversation's name overflows. The name is the decimal product of two account ids, and the
   product is taken in `Int32` before it is written: when a chat is opened, in two loops of a Menu that
   is loaded and in one of the app delegate when the app goes to the background. Each of the loops goes
   through all conversations, so one conversation whose product does not fit ends them all.

   `computes_iff`: all names can be computed exactly if every product fits. The screens that divide the
   name again, and the models of the requests, hold ids as `Int`. -/
namespace Shiftgram

/-- The id that `initConversations` of the app delegate fetches. -/
def AppDelegate.userId (users : List User) : Int32 :=
  match users.head? with
  | some user => user.id
  | none => 0

/-- The names that `initConversations` computes for its observers. -/
def AppDelegate.observed (users : List User) (conversations : List Conversation) :
    Option (List String) :=
  conversations.mapM fun conversation =>
    AppDelegate.conversationName (AppDelegate.userId users) conversation.accountBId

namespace NameOverflow

/-- No multiplication overflows: every chat has its name, a Menu can be loaded, and so can the app go
    to the background. -/
structure Computes (users : List User) (conversations : List Conversation) : Prop where
  chat : ∀ c ∈ conversations, ∃ name,
    ConversationViewController.conversationName (UserEntity.getUserId users) c.accountBId = some name
  menu : ∀ since, ∃ menu, App.Menu.init ⟨UserEntity.getUserId users, since⟩ conversations = some menu
  background : ∃ names, AppDelegate.observed users conversations = some names

/-- The product of the ids is one that an `Int32` can hold. -/
def Small (own friend : Int32) : Prop :=
  -2147483648 ≤ own.toInt * friend.toInt ∧ own.toInt * friend.toInt ≤ 2147483647

/-- `a * b` does not trap. -/
theorem mul_iff (a b : Int32) : (∃ c, Swift.mul a b = some c) ↔ Small a b := by
  unfold Swift.mul Small
  split
  · next hfits =>
    obtain ⟨hlow, hhigh⟩ := Swift.fits32_iff.mp hfits
    exact iff_of_true ⟨_, rfl⟩ ⟨hlow, by omega⟩
  · next hfits =>
    refine iff_of_false nofun fun hsmall => hfits (Swift.fits32_iff.mpr ⟨hsmall.1, ?_⟩)
    have := hsmall.2
    omega

theorem map_iff {α β : Type} {f : α → β} {o : Option α} :
    (∃ b, o.map f = some b) ↔ ∃ a, o = some a := by
  cases o <;> simp

/-- The three places that name a conversation need the same product. -/
theorem menuName_iff (own friend : Int32) :
    (∃ name, MenuViewController.conversationName own friend = some name) ↔ Small own friend := by
  rw [← mul_iff, MenuViewController.conversationName]
  exact map_iff

theorem chatName_iff (own friend : Int32) :
    (∃ name, ConversationViewController.conversationName own friend = some name) ↔
      Small own friend := by
  rw [← menuName_iff, ConversationViewController.conversationName, Swift.mul_comm]
  rfl

theorem appName_iff (own friend : Int32) :
    (∃ name, AppDelegate.conversationName own friend = some name) ↔ Small own friend :=
  menuName_iff own friend

theorem userId_eq (users : List User) : AppDelegate.userId users = UserEntity.getUserId users := by
  cases users <;> rfl

/-- A loop of the Menu goes through exactly if all products fit. -/
theorem observe_iff (userId : Int32) (conversations : List Conversation) (kind : CallKind) :
    (∃ observers, App.observe userId conversations kind = some observers) ↔
      ∀ c ∈ conversations, Small userId c.accountBId := by
  unfold App.observe
  rw [mapM_isSome_iff]
  refine forall₂_congr fun c _ => ?_
  rw [← menuName_iff]
  exact map_iff

/-- So does the Menu with both. -/
theorem menu_iff (screen : App.Screen) (conversations : List Conversation) :
    (∃ menu, App.Menu.init screen conversations = some menu) ↔
      ∀ c ∈ conversations, Small screen.userId c.accountBId := by
  rw [← observe_iff screen.userId conversations .video]
  refine ⟨?_, ?_⟩
  · intro h
    obtain ⟨menu, hmenu⟩ := h
    obtain ⟨video, hvideo, -⟩ := Option.bind_eq_some_iff.mp hmenu
    exact ⟨video, hvideo⟩
  · intro h
    -- the second loop takes the same products as the first
    obtain ⟨audio, haudio⟩ := (observe_iff screen.userId conversations .audio).mpr
      ((observe_iff screen.userId conversations .video).mp h)
    obtain ⟨video, hvideo⟩ := h
    exact ⟨⟨screen, video ++ audio⟩, by rw [App.Menu.init, hvideo, haudio]; rfl⟩

/-- For every stored user and all stored conversations: no chat, Menu or move to the background
    overflows exactly if no product of the user's id and that of a friend does. -/
theorem computes_iff (users : List User) (conversations : List Conversation) :
    Computes users conversations ↔
      ∀ c ∈ conversations, Small (UserEntity.getUserId users) c.accountBId := by
  refine ⟨?_, ?_⟩
  · intro h c hc
    exact (chatName_iff _ _).mp (h.chat c hc)
  · intro h
    refine ⟨fun c hc => (chatName_iff _ _).mpr (h c hc), fun since => (menu_iff _ _).mpr h, ?_⟩
    unfold AppDelegate.observed
    rw [userId_eq, mapM_isSome_iff]
    exact fun c hc => (appName_iff _ _).mpr (h c hc)

/-- The user with the id 65536 has a conversation with the account 32768. -/
def largeIds : List User × List Conversation :=
  ([⟨65536, "+1", "en", true, true, true⟩], [⟨32768, some "ann"⟩])

/-- The product is 2147483648, and traps in all four places. -/
theorem largeIds_trap :
    ConversationViewController.conversationName 65536 32768 = none ∧
      (∀ kind, App.observe 65536 largeIds.2 kind = none) ∧
      AppDelegate.observed largeIds.1 largeIds.2 = none ∧ ¬ Computes largeIds.1 largeIds.2 := by
  have hchat : ConversationViewController.conversationName 65536 32768 = none := by decide
  refine ⟨hchat, fun kind => by cases kind <;> decide, by decide, fun h => ?_⟩
  obtain ⟨name, hname⟩ := h.chat _ (List.mem_singleton_self _)
  exact absurd (hchat.symm.trans hname) nofun

end NameOverflow

end Shiftgram
