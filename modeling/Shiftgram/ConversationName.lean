import Shiftgram.Swift

/- The name of a conversation. Every device computes it on its own from two account ids, as the
   decimal product `String(a * b)`, and the screens find the peer again by dividing the name by the
   own id. Under the database root a conversation owns five nodes: the name itself for the chat
   messages, and the name with a suffix for call notifications, for the utterances of video and of
   audio calls and for the answers to audio calls. -/
namespace Shiftgram

/-- `String(conversation.accountBId * userId)`, in `didSelectRowAt`. -/
def ConversationViewController.conversationName (userId accountBId : Int32) : Option String :=
  (Swift.mul accountBId userId).map Swift.string

/-- `String(userId * conversation.accountBId)`, in `initConversations` and `initAudioConversation`. -/
def MenuViewController.conversationName (userId accountBId : Int32) : Option String :=
  (Swift.mul userId accountBId).map Swift.string

/-- `String(userId * conversation.accountBId)`, in `initConversations`. -/
def AppDelegate.conversationName (userId accountBId : Int32) : Option String :=
  (Swift.mul userId accountBId).map Swift.string

/-- `Int(self.conversationName)! / Int(self.userId)`. -/
def frId (conversationName : String) (userId : Int) : Option Int := do
  let name ← Swift.int conversationName
  Swift.div name userId

/-- `Int(self.conversationName)! / Int(self.userId)!`, where `userId` is a string. -/
def AudioViewController.frId (conversationName userId : String) : Option Int := do
  let name ← Swift.int conversationName
  let user ← Swift.int userId
  Swift.div name user

def VideoViewController.frId (conversationName userId : String) : Option Int := do
  let name ← Swift.int conversationName
  let user ← Swift.int userId
  Swift.div name user

/-- The nodes a conversation has under the database root. -/
inductive Channel
  | messages | notification | video | audio | audioCalling
  deriving DecidableEq, Repr

def Channel.suffix : Channel → String
  | messages => ""
  | notification => "notification"
  | video => "video"
  | audio => "audio"
  | audioCalling => "audioCalling"

/-- `databaseRoot.child(self.conversationName + suffix)`. -/
def node (conversationName : String) (channel : Channel) : String :=
  conversationName ++ channel.suffix

/-- Two accounts whose product an `Int32` can hold, seen from the device of `own`. -/
structure Peers where
  own : Int32
  friend : Int32
  own_ne : own ≠ 0
  friend_ne : friend ≠ 0
  distinct : own ≠ friend
  fits : Swift.fits32 (own.toInt * friend.toInt) = true

namespace Peers

def swap (p : Peers) : Peers :=
  ⟨p.friend, p.own, p.friend_ne, p.own_ne, p.distinct.symm, by rw [Int.mul_comm]; exact p.fits⟩

def product (p : Peers) : Int32 := Int32.ofInt (p.own.toInt * p.friend.toInt)

def conversationName (p : Peers) : String := Swift.string p.product

theorem mul_eq (p : Peers) : Swift.mul p.own p.friend = some p.product := if_pos p.fits

theorem toInt_product (p : Peers) : p.product.toInt = p.own.toInt * p.friend.toInt :=
  Swift.toInt_of_mul p.mul_eq

end Peers

/-- The accounts 2 and 3, for runs on fixed inputs. -/
def Peers.twoThree : Peers := ⟨2, 3, by decide, by decide, by decide, by decide⟩

structure ROGoogleTranslateParams where
  source : String
  target : String
  text : String
  deriving DecidableEq, Repr

/-- What a screen holds fixed: its user and the friend, `language`, and the translator it calls. -/
structure Device where
  peers : Peers
  language : String
  translate : ROGoogleTranslateParams → String

/-- `String(self.userId)` -/
def Device.user (d : Device) : String := Swift.string d.peers.own

/-! What the screens rely on: both ends compute one name, and the name gives the peer back. -/

theorem conversationName_eq (p : Peers) :
    ConversationViewController.conversationName p.own p.friend = some p.conversationName := by
  unfold ConversationViewController.conversationName
  rw [Swift.mul_comm, p.mul_eq]
  rfl

theorem menuConversationName_eq (p : Peers) :
    MenuViewController.conversationName p.own p.friend = some p.conversationName := by
  unfold MenuViewController.conversationName
  rw [p.mul_eq]
  rfl

theorem swap_conversationName (p : Peers) : p.swap.conversationName = p.conversationName := by
  unfold Peers.conversationName Peers.product
  rw [Int.mul_comm]
  rfl

theorem frId_conversationName (p : Peers) :
    frId p.conversationName p.own.toInt = some p.friend.toInt := by
  unfold frId Peers.conversationName
  rw [Swift.int_string]
  exact Swift.div_of_mul p.own_ne p.mul_eq

/-- Reading the own id back from a string makes no difference. -/
theorem AudioViewController.frId_string (conversationName : String) (own : Int32) :
    AudioViewController.frId conversationName (Swift.string own) =
      Shiftgram.frId conversationName own.toInt := by
  rw [AudioViewController.frId, Swift.int_string]
  rfl

theorem VideoViewController.frId_string (conversationName : String) (own : Int32) :
    VideoViewController.frId conversationName (Swift.string own) =
      Shiftgram.frId conversationName own.toInt := by
  rw [VideoViewController.frId, Swift.int_string]
  rfl

/-- All places that compute a name on the device of `own` for `friend` compute this one. -/
structure NamedFor (name : String) (own friend : Int32) : Prop where
  conversations : ConversationViewController.conversationName own friend = some name
  menu : MenuViewController.conversationName own friend = some name
  app : AppDelegate.conversationName own friend = some name

/-- On the device of `own` the three screens divide the name to `friend`. -/
structure LeadsTo (name : String) (own friend : Int32) : Prop where
  chat : frId name own.toInt = some friend.toInt
  audio : AudioViewController.frId name (Swift.string own) = some friend.toInt
  video : VideoViewController.frId name (Swift.string own) = some friend.toInt

theorem namedFor_string {own friend product : Int32} (h : Swift.mul own friend = some product) :
    NamedFor (Swift.string product) own friend where
  conversations := by
    rw [ConversationViewController.conversationName, Swift.mul_comm, h, Option.map_some]
  menu := by rw [MenuViewController.conversationName, h, Option.map_some]
  app := by rw [AppDelegate.conversationName, h, Option.map_some]

theorem leadsTo_string {own friend product : Int32} (hown : own ≠ 0)
    (h : Swift.mul own friend = some product) : LeadsTo (Swift.string product) own friend := by
  have hchat : frId (Swift.string product) own.toInt = some friend.toInt := by
    rw [frId, Swift.int_string]
    exact Swift.div_of_mul hown h
  refine ⟨hchat, ?_, ?_⟩
  · rw [AudioViewController.frId_string, hchat]
  · rw [VideoViewController.frId_string, hchat]

/-- Two accounts whose product an `Int32` can hold compute one name, which parses, and by which the
    screens of each find the other. -/
theorem peer_recovered {a b : Int32} (ha : a ≠ 0) (hb : b ≠ 0)
    (hfits : Swift.fits32 (a.toInt * b.toInt) = true) :
    ∃ name n, NamedFor name a b ∧ NamedFor name b a ∧ Swift.int name = some n ∧
      LeadsTo name a b ∧ LeadsTo name b a := by
  have hmul : Swift.mul a b = some (Int32.ofInt (a.toInt * b.toInt)) := if_pos hfits
  have hmul' : Swift.mul b a = some (Int32.ofInt (a.toInt * b.toInt)) := by
    rw [Swift.mul_comm, hmul]
  exact ⟨_, _, namedFor_string hmul, namedFor_string hmul', Swift.int_string _,
    leadsTo_string ha hmul, leadsTo_string hb hmul'⟩

/-- Ids of both signs. -/
theorem peer_recovered_signs : ∃ name n, NamedFor name 2 (-3) ∧ NamedFor name (-3) 2 ∧
    Swift.int name = some n ∧ LeadsTo name 2 (-3) ∧ LeadsTo name (-3) 2 :=
  peer_recovered (by decide) (by decide) (by decide)

/-! The nodes of different conversations, and of different kinds, are different. -/

theorem Channel.suffix_stops (c : Channel) : Numeral.Stops c.suffix := by
  cases c <;> decide

theorem Channel.suffix_inj {c d : Channel} : c.suffix = d.suffix ↔ c = d := by
  cases c <;> cases d <;> decide

theorem node_inj {m n : Int32} {c d : Channel} :
    node (Swift.string m) c = node (Swift.string n) d ↔ m = n ∧ c = d := by
  unfold node Swift.string
  rw [Numeral.repr_append_inj c.suffix_stops d.suffix_stops, Channel.suffix_inj]
  exact and_congr_left fun _ => ⟨fun h => Int32.toInt.inj h, fun h => by rw [h]⟩

end Shiftgram
