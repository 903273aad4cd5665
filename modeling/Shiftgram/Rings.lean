import Shiftgram.Feed
import Shiftgram.MenuCalls
import Shiftgram.Requests

/- How often a call rings on the callee's device. The app delegate registers observers of video calls
   on every move to the background, every Menu registers observers of both kinds, and a finished call
   opens a new Menu; observers stay until the process ends, notification records until their node is
   removed by an answer.

   The records of a run ring at most once each in exactly those runs in which a notification finds at
   most one observer of its kind, and observers are registered only where no record of their kind
   among the last ten has been reported (`rings_once_iff`). A process that is launched once, stays in
   the foreground and finishes no call is one of them (`plain_rings_once`).

   Assumed: an observer gets the last ten children and every later one. The store does not change
   during the run. -/
namespace Shiftgram

/-- The closure of `initConversations` of the app delegate, with the name a reported call shows. -/
def AppDelegate.initConversations (userId : Int32) (data : Swift.Dictionary) :
    Option (Option String) :=
  if incoming userId .video data then (data.value "name").map some else some none

namespace Rings

/-- Who reports a call: the app delegate, or one of the Menus so far. -/
inductive Reporter
  | appDelegate
  | menu (index : Nat)
  deriving DecidableEq, Repr

def Reporter.conversationName : Reporter → Int32 → Int32 → Option String
  | appDelegate => AppDelegate.conversationName
  | menu _ => MenuViewController.conversationName

/-- A registered closure, with what it captures. -/
structure Observer where
  reporter : Reporter
  kind : CallKind
  conversation : Conversation
  conversationName : String
  deriving DecidableEq, Repr

/-- A notification record. The key numbers the records of the run. -/
structure Notice where
  key : Nat
  value : Swift.Dictionary
  deriving DecidableEq, Repr

/-- A call reported to CallKit, with the key of its record. -/
structure Report where
  key : Nat
  reporter : Reporter
  remoteHandle : String
  deriving DecidableEq, Repr

structure State where
  running : Bool
  feed : Feed.State String Observer Notice
  written : Nat
  menus : List MenuViewController
  /-- Every report of the run; a call is known by its position. -/
  reports : List Report
  pending : List Nat

def State.init : State := ⟨false, .empty, 0, [], [], []⟩

def State.incomingCall (s : State) (key : Nat) (reporter : Reporter) : Option String → State
  | none => s
  | some senderName =>
    { s with
      reports := s.reports ++ [⟨key, reporter, senderName⟩]
      pending := s.pending ++ [s.reports.length] }

def menuClosure : CallKind → Account → Conversation → String → MenuViewController →
    Swift.Dictionary → Option (MenuViewController × Option String)
  | .video => MenuViewController.initConversations
  | .audio => MenuViewController.initAudioConversation

variable (a : Account)

/-- A closure runs on a child. -/
def deliver (s : State) (o : Observer) (x : Notice) : Option State :=
  match o.reporter with
  | .appDelegate =>
    (AppDelegate.initConversations a.userId x.value).map fun name => s.incomingCall x.key o.reporter name
  | .menu i => do
    let menu ← s.menus[i]?
    let (menu, name) ← menuClosure o.kind a o.conversation o.conversationName menu x.value
    let noted : State := { s with menus := s.menus.set i menu }
    some (noted.incomingCall x.key o.reporter name)

def deliverAll (s : State) (deliveries : List (Observer × Notice)) : Option State :=
  deliveries.foldlM (fun s d => deliver a s d.1 d.2) s

/-- `query.observe(.childAdded)` on the last ten children. -/
def observe (s : State) (o : Observer) : Option State :=
  let out := Feed.observe 10 s.feed (node o.conversationName .notification) o
  deliverAll a { s with feed := out.1 } out.2

/-- The loop over the conversations that all three functions share. -/
def register (reporter : Reporter) (kind : CallKind) (s : State) : Option State :=
  a.conversations.foldlM (fun s conversation => do
    let name ← reporter.conversationName a.userId conversation.accountBId
    observe a s ⟨reporter, kind, conversation, name⟩) s

/-- `viewDidLoad` of a new Menu. -/
def viewDidLoad (s : State) : Option State := do
  let menu := Reporter.menu s.menus.length
  let s ← register a menu .video { s with menus := s.menus ++ [.init] }
  register a menu .audio s

/-- The record goes to the node that the friend's chat computes. -/
def notified (s : State) (n : Calls.Notification) : Option State := do
  let name ← ConversationViewController.conversationName n.conversation.accountBId a.userId
  let out := Feed.push s.feed (node name .notification) (⟨s.written, n.record⟩ : Notice)
  deliverAll a { s with feed := out.1, written := s.written + 1 } out.2

/-- The writes of a Menu to the notification nodes. -/
def written (feed : Feed.State String Observer Notice) : Write → Feed.State String Observer Notice
  | .removeValue node => Feed.remove feed node
  | .childByAutoId _ _ => feed

/-- The app delegate only fulfills the action. -/
def answered (s : State) (call : Nat) : Option State := do
  let report ← s.reports[call]?
  let ended : State := { s with pending := s.pending.filter (· ≠ call) }
  match report.reporter with
  | .appDelegate => some ended
  | .menu i => do
    let menu ← s.menus[i]?
    let (menu, _, writes) := menu.answerCall a.userId
    some { ended with menus := s.menus.set i menu, feed := writes.foldl written s.feed }

inductive Event
  | launch
  | terminate
  | enterBackground
  | navigateToVideo
  | notification (n : Calls.Notification)
  | answer (call : Nat)
  | decline (call : Nat)
  deriving DecidableEq

def step (s : State) : Event → Option State
  | .launch => viewDidLoad a { s with running := true }
  | .terminate =>
    some { s with running := false, feed := Feed.disconnect s.feed, pending := [] }
  | .enterBackground => register a .appDelegate .video s
  | .navigateToVideo => viewDidLoad a s
  | .notification n => notified a s n
  | .answer call => answered a s call
  | .decline call => some { s with pending := s.pending.filter (· ≠ call) }

/-- A process runs from its launch to its end; calls are answered or declined while they ring. -/
def Enabled (s : State) : Event → Prop
  | .launch => s.running = false
  | .terminate | .enterBackground | .navigateToVideo => s.running = true
  | .notification n => n.conversation ∈ a.conversations
  | .answer call | .decline call => call ∈ s.pending

instance (s : State) (e : Event) : Decidable (Enabled a s e) :=
  match e with
  | .launch => inferInstanceAs (Decidable (s.running = false))
  | .terminate | .enterBackground | .navigateToVideo =>
    inferInstanceAs (Decidable (s.running = true))
  | .notification n => inferInstanceAs (Decidable (n.conversation ∈ a.conversations))
  | .answer call | .decline call => inferInstanceAs (Decidable (call ∈ s.pending))

def State.rung (s : State) : List Nat := s.reports.map (·.key)

/-- No record has been reported twice. -/
def Once (s : State) : Prop := s.rung.Nodup

/-- The notification node of a conversation. -/
def place (a : Account) (c : Conversation) : String := node (Calls.nameOf a c) .notification

/-- No call of the kind among the last ten records of a conversation has been reported. -/
def Unheard (s : State) (kind : CallKind) : Prop :=
  ∀ c ∈ a.conversations, ∀ x ∈ s.feed.latest 10 (place a c),
    incoming a.userId kind x.value = true → x.key ∉ s.rung

/-- A notification finds at most one observer of its kind, and an observer no record of its kind
    that has been reported. -/
def Single (s : State) : Event → Prop
  | .launch | .navigateToVideo => ∀ kind, Unheard a s kind
  | .enterBackground => Unheard a s .video
  | .notification n =>
    ((s.feed.audience (place a n.conversation)).filter (·.kind = n.kind)).length ≤ 1
  | _ => True

variable {a} {s s' : State} {c : Conversation} {o : Observer} {x : Notice} {kind : CallKind}

theorem reporter_name (hc : c ∈ a.conversations) (reporter : Reporter) :
    reporter.conversationName a.userId c.accountBId = some (Calls.nameOf a c) := by
  cases reporter <;> exact Calls.conversationName_of hc

/-- Different friends have different nodes. -/
theorem place_inj {c' : Conversation} (hc : c ∈ a.conversations) (hc' : c' ∈ a.conversations)
    (h : place a c = place a c') : c.accountBId = c'.accountBId :=
  Calls.nameOf_inj hc hc' (congrArg Swift.string (node_inj.mp h).1)

theorem nodup_places (a : Account) : (a.conversations.map (place a)).Nodup := by
  rw [List.nodup_iff_pairwise_ne, List.pairwise_map]
  exact (List.pairwise_map.mp a.single).imp_of_mem fun hc hc' hne h => hne (place_inj hc hc' h)

/-! ## Deliveries -/

def Known (menus : Nat) : Reporter → Prop
  | .appDelegate => True
  | .menu i => i < menus

/-- The observer is one that `register` makes. -/
structure Listens (a : Account) (menus : Nat) (o : Observer) : Prop where
  conversation : o.conversation ∈ a.conversations
  reporter : Known menus o.reporter
  kind : o.reporter = .appDelegate → o.kind = .video

/-- The record is one that a friend writes. -/
def Sent (a : Account) (x : Notice) : Prop :=
  ∃ n : Calls.Notification, n.conversation ∈ a.conversations ∧ x.value = n.record

structure Inv (a : Account) (s : State) : Prop where
  children : ∀ p ∈ s.feed.children, Sent a p.2 ∧ p.2.key < s.written
  keys : (s.feed.children.map (·.2.key)).Nodup
  observers : ∀ p ∈ s.feed.observers, Listens a s.menus.length p.2
  reports : ∀ r ∈ s.reports, r.key < s.written ∧ Known s.menus.length r.reporter
  pending : ∀ k ∈ s.pending, k < s.reports.length

/-- `s'` comes after `s` with more observers and more reports. -/
structure After (s s' : State) (joined : List (String × Observer)) (rung : List Nat) : Prop where
  running : s'.running = s.running
  children : s'.feed.children = s.feed.children
  observers : s'.feed.observers = s.feed.observers ++ joined
  written : s'.written = s.written
  menus : s'.menus.length = s.menus.length
  rung : s'.rung = s.rung ++ rung

theorem After.refl (s : State) : After s s [] [] :=
  ⟨rfl, rfl, (List.append_nil _).symm, rfl, rfl, (List.append_nil _).symm⟩

theorem After.trans {s'' : State} {os os' : List (String × Observer)} {ks ks' : List Nat}
    (h : After s s' os ks) (h' : After s' s'' os' ks') : After s s'' (os ++ os') (ks ++ ks') where
  running := h'.running.trans h.running
  children := h'.children.trans h.children
  observers := by rw [h'.observers, h.observers, List.append_assoc]
  written := h'.written.trans h.written
  menus := h'.menus.trans h.menus
  rung := by rw [h'.rung, h.rung, List.append_assoc]

theorem incomingCall_ok (h : Inv a s) {key : Nat} (hkey : key < s.written) (reporter : Reporter)
    (hreporter : Known s.menus.length reporter) (name : Option String) :
    Inv a (s.incomingCall key reporter name) ∧
      After s (s.incomingCall key reporter name) [] (if name.isSome then [key] else []) := by
  cases name with
  | none => exact ⟨h, After.refl s⟩
  | some name =>
    refine ⟨⟨h.children, h.keys, h.observers, ?_, ?_⟩, rfl, rfl, (List.append_nil _).symm, rfl, rfl, ?_⟩
    · show ∀ r ∈ s.reports ++ [_], _
      rw [List.forall_mem_append, List.forall_mem_singleton]
      exact ⟨h.reports, hkey, hreporter⟩
    · show ∀ k ∈ s.pending ++ [s.reports.length], k < (s.reports ++ [(⟨key, reporter, name⟩ : Report)]).length
      rw [List.forall_mem_append, List.forall_mem_singleton, List.length_append]
      exact ⟨fun k hk => Nat.lt_add_right 1 (h.pending k hk), Nat.lt_succ_self _⟩
    · simp [State.incomingCall, State.rung]

theorem menuClosure_eq (hc : c ∈ a.conversations) (kind : CallKind) :
    ∃ mark, (∀ menu, mark menu ≠ none) ∧
      menuClosure kind a c = MenuViewController.childAdded kind mark a c := by
  cases kind with
  | video =>
    refine ⟨fun menu => some { menu with isVideo := "video" }, ?_, rfl⟩
    exact fun menu => Option.some_ne_none _
  | audio =>
    refine ⟨fun menu => c.name.map fun name => { menu with currentName := name, isAudio := "audio" },
      ?_, rfl⟩
    exact fun menu hnone => a.named c hc (Option.map_eq_none_iff.mp hnone)

/-- A Menu's closure reports a friend's record of its kind. -/
theorem menuClosure_record (hc : c ∈ a.conversations) (kind : CallKind) (n : Calls.Notification)
    (name : String) (menu : MenuViewController) :
    ∃ menu' title, menuClosure kind a c name menu n.record = some (menu', title) ∧
      title.isSome = incoming a.userId kind n.record := by
  obtain ⟨mark, hmark, hclosure⟩ := menuClosure_eq hc kind
  obtain ⟨language, hlanguage⟩ := Option.ne_none_iff_exists'.mp (a.stored c hc)
  obtain ⟨menu', hmenu'⟩ := Option.ne_none_iff_exists'.mp (hmark { menu with
    currentConversationName := name, currentFriendLanguage := language })
  rw [hclosure]
  cases hin : incoming a.userId kind n.record with
  | false =>
    exact ⟨menu, none, Calls.childAdded_other (Bool.not_eq_true _ ▸ hin) name menu, rfl⟩
  | true =>
    exact ⟨menu', some n.titleConversation, Calls.childAdded_incoming hin hlanguage hmenu' rfl, rfl⟩

/-- The app delegate's closure reports a friend's video call. -/
theorem appDelegate_record (userId : Int32) (n : Calls.Notification) :
    ∃ title, AppDelegate.initConversations userId n.record = some title ∧
      title.isSome = incoming userId .video n.record := by
  have htitle : n.record.value "name" = some n.titleConversation := rfl
  unfold AppDelegate.initConversations
  cases incoming userId .video n.record with
  | false => exact ⟨none, rfl, rfl⟩
  | true => exact ⟨some n.titleConversation, by rw [htitle]; rfl, rfl⟩

/-- What a Menu has marked for a call does not matter. -/
theorem Inv.setMenu (h : Inv a s) (i : Nat) (menu : MenuViewController) :
    Inv a { s with menus := s.menus.set i menu } := by
  have hlength : (s.menus.set i menu).length = s.menus.length := List.length_set
  refine ⟨h.children, h.keys, ?_, ?_, h.pending⟩
  · show ∀ p ∈ s.feed.observers, Listens a (s.menus.set i menu).length p.2
    rw [hlength]
    exact h.observers
  · show ∀ r ∈ s.reports, _ ∧ Known (s.menus.set i menu).length r.reporter
    rw [hlength]
    exact h.reports

theorem deliver_ok (h : Inv a s) (ho : Listens a s.menus.length o) (hx : Sent a x)
    (hkey : x.key < s.written) :
    ∃ s', deliver a s o x = some s' ∧ Inv a s' ∧
      After s s' [] (if incoming a.userId o.kind x.value then [x.key] else []) := by
  obtain ⟨n, -, hvalue⟩ := hx
  obtain ⟨reporter, kind, c, conversationName⟩ := o
  rw [hvalue]
  cases reporter with
  | appDelegate =>
    obtain rfl : kind = .video := ho.kind rfl
    obtain ⟨title, hclosure, hsome⟩ := appDelegate_record a.userId n
    refine ⟨s.incomingCall x.key .appDelegate title, ?_, ?_⟩
    · simp only [deliver, hvalue, hclosure, Option.map_some]
    · rw [← hsome]
      exact incomingCall_ok h hkey .appDelegate ho.reporter title
  | menu i =>
    have hi : i < s.menus.length := ho.reporter
    obtain ⟨menu, title, hclosure, hsome⟩ :=
      menuClosure_record ho.conversation kind n conversationName s.menus[i]
    have hlength : (s.menus.set i menu).length = s.menus.length := List.length_set
    obtain ⟨hinv, hafter⟩ :=
      incomingCall_ok (h.setMenu i menu) hkey (.menu i) (hlength.symm ▸ hi) title
    refine ⟨_, ?_, hinv, ?_⟩
    · simp only [deliver, hvalue, List.getElem?_eq_getElem hi, hclosure, Option.bind_eq_bind,
        Option.bind_some]
    · rw [← hsome]
      exact ⟨hafter.running, hafter.children, hafter.observers, hafter.written,
        hafter.menus.trans hlength, hafter.rung⟩

theorem deliverAll_ok (h : Inv a s) (ds : List (Observer × Notice))
    (hds : ∀ d ∈ ds, Listens a s.menus.length d.1 ∧ Sent a d.2 ∧ d.2.key < s.written) :
    ∃ s', deliverAll a s ds = some s' ∧ Inv a s' ∧
      After s s' [] ((ds.filter fun d => incoming a.userId d.1.kind d.2.value).map (·.2.key)) := by
  induction ds generalizing s with
  | nil => exact ⟨s, rfl, h, After.refl s⟩
  | cons d ds ih =>
    rw [List.forall_mem_cons] at hds
    obtain ⟨ho, hx, hkey⟩ := hds.1
    obtain ⟨s₁, hs₁, h₁, hafter₁⟩ := deliver_ok h ho hx hkey
    obtain ⟨s₂, hs₂, h₂, hafter₂⟩ := ih h₁ (by rw [hafter₁.menus, hafter₁.written]; exact hds.2)
    refine ⟨s₂, ?_, h₂, ?_⟩
    · show (deliver a s d.1 d.2).bind (deliverAll a · ds) = some s₂
      rw [hs₁, Option.bind_some, hs₂]
    · have hafter := hafter₁.trans hafter₂
      rw [List.filter_cons]
      cases hin : incoming a.userId d.1.kind d.2.value <;> simpa [hin] using hafter

/-! ## Registrations -/

/-- The records a new observer reports. -/
def heard (a : Account) (s : State) (kind : CallKind) (c : Conversation) : List Nat :=
  ((s.feed.latest 10 (place a c)).filter fun x => incoming a.userId kind x.value).map (·.key)

/-- What registering adds to the observers. -/
def joined (a : Account) (reporter : Reporter) (kind : CallKind) : List (String × Observer) :=
  a.conversations.map fun c => (place a c, ⟨reporter, kind, c, Calls.nameOf a c⟩)

theorem observe_ok (h : Inv a s) {reporter : Reporter}
    (ho : Listens a s.menus.length ⟨reporter, kind, c, Calls.nameOf a c⟩) :
    ∃ s', observe a s ⟨reporter, kind, c, Calls.nameOf a c⟩ = some s' ∧ Inv a s' ∧
      After s s' [(place a c, ⟨reporter, kind, c, Calls.nameOf a c⟩)] (heard a s kind c) := by
  have hjoined : Inv a { s with feed := { s.feed with
      observers := s.feed.observers ++ [(place a c, ⟨reporter, kind, c, Calls.nameOf a c⟩)] } } := by
    refine ⟨h.children, h.keys, ?_, h.reports, h.pending⟩
    rw [List.forall_mem_append, List.forall_mem_singleton]
    exact ⟨h.observers, ho⟩
  obtain ⟨s', hs', hinv, hafter⟩ := deliverAll_ok hjoined
    ((s.feed.latest 10 (place a c)).map fun x => (⟨reporter, kind, c, Calls.nameOf a c⟩, x)) (by
      intro d hd
      obtain ⟨x, hx, rfl⟩ := List.mem_map.mp hd
      exact ⟨ho, h.children _ (Feed.mem_of_latest hx)⟩)
  refine ⟨s', hs', hinv, hafter.running, hafter.children, ?_, hafter.written, hafter.menus, ?_⟩
  · rw [hafter.observers, List.append_nil]
  · rw [hafter.rung, List.filter_map, List.map_map]
    rfl

theorem register_ok (h : Inv a s) (reporter : Reporter) (kind : CallKind)
    (hreporter : Known s.menus.length reporter) (hkind : reporter = .appDelegate → kind = .video) :
    ∃ s', register a reporter kind s = some s' ∧ Inv a s' ∧
      After s s' (joined a reporter kind) (a.conversations.flatMap (heard a s kind)) := by
  suffices H : ∀ cs : List Conversation, (∀ c ∈ cs, c ∈ a.conversations) → ∀ s : State, Inv a s →
      Known s.menus.length reporter → ∃ s', cs.foldlM (fun s conversation => do
        let name ← reporter.conversationName a.userId conversation.accountBId
        observe a s ⟨reporter, kind, conversation, name⟩) s = some s' ∧ Inv a s' ∧
      After s s' (cs.map fun c => (place a c, ⟨reporter, kind, c, Calls.nameOf a c⟩))
        (cs.flatMap (heard a s kind)) from H a.conversations (fun _ hc => hc) s h hreporter
  intro cs
  induction cs with
  | nil => exact fun _ s h _ => ⟨s, rfl, h, After.refl s⟩
  | cons c cs ih =>
    intro hcs s h hreporter
    rw [List.forall_mem_cons] at hcs
    obtain ⟨s₁, hs₁, h₁, hafter₁⟩ := observe_ok h ⟨hcs.1, hreporter, hkind⟩
    obtain ⟨s₂, hs₂, h₂, hafter₂⟩ := ih hcs.2 s₁ h₁ (hafter₁.menus.symm ▸ hreporter)
    -- registering leaves the records alone, so the other nodes are read as they were
    have hheard : heard a s₁ kind = heard a s kind := by
      funext c'
      unfold heard
      rw [Feed.latest_congr hafter₁.children]
    refine ⟨s₂, ?_, h₂, ?_⟩
    · rw [List.foldlM_cons, reporter_name hcs.1]
      show (observe a s _).bind _ = _
      rw [hs₁]
      exact hs₂
    · rw [hheard] at hafter₂
      exact hafter₁.trans hafter₂

theorem mem_heard {k : Nat} : k ∈ heard a s kind c ↔
    ∃ x ∈ s.feed.latest 10 (place a c), incoming a.userId kind x.value = true ∧ x.key = k := by
  simp [heard, and_assoc]

theorem unheard_iff :
    Unheard a s kind ↔ ∀ k ∈ a.conversations.flatMap (heard a s kind), k ∉ s.rung := by
  simp only [List.mem_flatMap, mem_heard]
  refine ⟨?_, ?_⟩
  · rintro h k ⟨c, hc, x, hx, hin, rfl⟩
    exact h c hc x hx hin
  · intro h c hc x hx hin
    exact h x.key ⟨c, hc, x, hx, hin, rfl⟩

/-- A key is on one node, in one record. -/
theorem eq_of_key (h : Inv a s) {m n : String} {y : Notice} (hx : x ∈ s.feed.latest 10 m)
    (hy : y ∈ s.feed.latest 10 n) (hkey : x.key = y.key) : m = n ∧ x = y :=
  Prod.mk.inj (Requests.eq_of_key h.keys (Feed.mem_of_latest hx) (Feed.mem_of_latest hy) hkey)

theorem nodup_heard (h : Inv a s) : (a.conversations.flatMap (heard a s kind)).Nodup := by
  rw [List.nodup_flatMap]
  refine ⟨?_, ?_⟩
  · intro c _
    have hat := Feed.nodup_at h.keys (place a c)
    exact hat.sublist ((List.filter_sublist.trans (List.drop_sublist _ _)).map _)
  · refine (List.pairwise_map.mp (nodup_places a)).imp ?_
    intro c c' hne k hk hk'
    obtain ⟨x, hx, -, rfl⟩ := mem_heard.mp hk
    obtain ⟨y, hy, -, hkey⟩ := mem_heard.mp hk'
    exact hne (eq_of_key h hx hy hkey.symm).1

/-- Registering observers rings no record again exactly if none of theirs has rung. -/
theorem once_register (h : Inv a s) {os : List (String × Observer)}
    (hafter : After s s' os (a.conversations.flatMap (heard a s kind))) (hs : Once s) :
    Once s' ↔ Unheard a s kind := by
  rw [Once, hafter.rung, List.nodup_append, unheard_iff]
  refine ⟨?_, ?_⟩
  · rintro ⟨-, -, hdisjoint⟩ k hk hrung
    exact hdisjoint k hrung k hk rfl
  · refine fun hunheard => ⟨hs, nodup_heard h, fun k hrung k' hk' hsame => ?_⟩
    exact hunheard k' hk' (hsame ▸ hrung)

/-- The video observers of a Menu report no audio calls. -/
theorem unheard_audio (h : Inv a s) {os : List (String × Observer)}
    (hafter : After s s' os (a.conversations.flatMap (heard a s .video))) :
    Unheard a s' .audio ↔ Unheard a s .audio := by
  unfold Unheard
  simp only [Feed.latest_congr hafter.children, hafter.rung, List.mem_append, not_or]
  refine ⟨?_, ?_⟩
  · exact fun hall c hc x hx hin => (hall c hc x hx hin).1
  · refine fun hall c hc x hx hin => ⟨hall c hc x hx hin, fun hmem => ?_⟩
    obtain ⟨c', -, hk⟩ := List.mem_flatMap.mp hmem
    obtain ⟨y, hy, hvideo, hkey⟩ := mem_heard.mp hk
    obtain ⟨-, rfl⟩ := eq_of_key h hy hx hkey
    -- a record that both kinds of observers report would be of both kinds
    obtain ⟨n, hn, hvalue⟩ := (h.children _ (Feed.mem_of_latest hx)).1
    rw [hvalue, Calls.incoming_record hn] at hin hvideo
    exact absurd (hin.trans hvideo.symm) (by decide)

theorem viewDidLoad_ok (h : Inv a s) :
    ∃ s', viewDidLoad a s = some s' ∧ Inv a s' ∧
      (Once s → (Once s' ↔ ∀ kind, Unheard a s kind)) ∧ s'.running = s.running ∧
      s'.feed.observers = s.feed.observers ++
        (joined a (.menu s.menus.length) .video ++ joined a (.menu s.menus.length) .audio) := by
  have hlength : (s.menus ++ [MenuViewController.init]).length = s.menus.length + 1 := by simp
  have hknown : ∀ r : Reporter, Known s.menus.length r →
      Known (s.menus ++ [MenuViewController.init]).length r := by
    intro r hr
    rw [hlength]
    cases r with
    | appDelegate => trivial
    | menu i => exact Nat.lt_succ_of_lt hr
  have hmenu : Inv a { s with menus := s.menus ++ [.init] } :=
    ⟨h.children, h.keys,
      fun p hp => ⟨(h.observers p hp).conversation, hknown _ (h.observers p hp).reporter,
        (h.observers p hp).kind⟩,
      fun r hr => ⟨(h.reports r hr).1, hknown _ (h.reports r hr).2⟩, h.pending⟩
  have hnew : Known (s.menus ++ [MenuViewController.init]).length (.menu s.menus.length) := by
    rw [hlength]
    exact Nat.lt_succ_self _
  obtain ⟨s₁, hs₁, h₁, hafter₁⟩ := register_ok hmenu (.menu s.menus.length) .video hnew nofun
  obtain ⟨s₂, hs₂, h₂, hafter₂⟩ :=
    register_ok h₁ (.menu s.menus.length) .audio (hafter₁.menus.symm ▸ hnew) nofun
  have hafter := hafter₁.trans hafter₂
  refine ⟨s₂, ?_, h₂, fun hs => ?_, hafter.running, hafter.observers⟩
  · show (register a _ .video _).bind _ = some s₂
    rw [hs₁]
    exact hs₂
  · have hvideo := once_register hmenu hafter₁ hs
    have haudio := unheard_audio hmenu hafter₁
    have hfirst : Once s₂ → Once s₁ := by
      intro h₂
      rw [Once, hafter₂.rung] at h₂
      exact (List.nodup_append.mp h₂).1
    refine ⟨?_, ?_⟩
    · intro hlast kind
      cases kind with
      | video => exact hvideo.mp (hfirst hlast)
      | audio => exact haudio.mp ((once_register h₁ hafter₂ (hfirst hlast)).mp hlast)
    · intro hall
      exact (once_register h₁ hafter₂ (hvideo.mpr (hall .video))).mpr (haudio.mpr (hall .audio))

/-! ## The other events -/

/-- A new record rings once for each observer of its kind. -/
theorem notified_ok (h : Inv a s) {n : Calls.Notification} (hn : n.conversation ∈ a.conversations) :
    ∃ s', notified a s n = some s' ∧ Inv a s' ∧
      s'.rung = s.rung ++ List.replicate
        ((s.feed.audience (place a n.conversation)).filter (·.kind = n.kind)).length s.written ∧
      s'.running = s.running ∧ s'.feed.observers = s.feed.observers := by
  have hpushed : Inv a { s with
      feed := { s.feed with
        children := s.feed.children ++ [(place a n.conversation, ⟨s.written, n.record⟩)] }
      written := s.written + 1 } := by
    refine ⟨?_, ?_, h.observers, fun r hr => ⟨Nat.lt_succ_of_lt (h.reports r hr).1, (h.reports r hr).2⟩,
      h.pending⟩
    · rw [List.forall_mem_append, List.forall_mem_singleton]
      exact ⟨fun p hp => ⟨(h.children p hp).1, Nat.lt_succ_of_lt (h.children p hp).2⟩,
        ⟨n, hn, rfl⟩, Nat.lt_succ_self _⟩
    · refine Requests.nodup_snoc h.keys fun hmem => ?_
      obtain ⟨p, hp, hkey⟩ := List.mem_map.mp hmem
      exact Nat.ne_of_lt (h.children p hp).2 hkey
  obtain ⟨s', hs', hinv, hafter⟩ := deliverAll_ok hpushed
    ((s.feed.audience (place a n.conversation)).map fun o => (o, ⟨s.written, n.record⟩)) (by
      intro d hd
      obtain ⟨o, ho, rfl⟩ := List.mem_map.mp hd
      exact ⟨h.observers _ (Feed.mem_audience.mp ho), ⟨n, hn, rfl⟩, Nat.lt_succ_self _⟩)
  refine ⟨s', ?_, hinv, ?_, hafter.running, hafter.observers.trans (List.append_nil _)⟩
  · have hname : ConversationViewController.conversationName n.conversation.accountBId a.userId =
        some (Calls.nameOf a n.conversation) := Calls.conversationName_of hn
    show (ConversationViewController.conversationName _ _).bind _ = some s'
    rw [hname]
    exact hs'
  · -- an observer of the node reports the record if it is of its kind
    have hkind : (fun d : Observer × Notice => incoming a.userId d.1.kind d.2.value) ∘
        (fun o => (o, ⟨s.written, n.record⟩)) = fun o => decide (o.kind = n.kind) := by
      funext o
      exact Bool.eq_iff_iff.mpr ((Calls.incoming_record hn o.kind).trans decide_eq_true_iff.symm)
    rw [hafter.rung, List.filter_map, List.map_map, hkind]
    exact congrArg _ (List.map_const' ..)

/-- A Menu's writes only take records away. -/
theorem written_ok (writes : List Write) (feed : Feed.State String Observer Notice) :
    (writes.foldl written feed).observers = feed.observers ∧
      (writes.foldl written feed).children.Sublist feed.children := by
  induction writes generalizing feed with
  | nil => exact ⟨rfl, List.Sublist.refl _⟩
  | cons w ws ih =>
    obtain ⟨hobservers, hchildren⟩ := ih (written feed w)
    cases w with
    | removeValue node => exact ⟨hobservers, hchildren.trans List.filter_sublist⟩
    | childByAutoId node value => exact ⟨hobservers, hchildren⟩

theorem inv_ended (h : Inv a s) (call : Nat) :
    Inv a { s with pending := s.pending.filter (· ≠ call) } :=
  ⟨h.children, h.keys, h.observers, h.reports, fun k hk => h.pending k (List.mem_of_mem_filter hk)⟩

/-- An answer reports nothing. -/
theorem answered_ok (h : Inv a s) {call : Nat} (hcall : call ∈ s.pending) :
    ∃ s', answered a s call = some s' ∧ Inv a s' ∧ s'.reports = s.reports ∧
      s'.running = s.running ∧ s'.feed.observers = s.feed.observers := by
  obtain ⟨report, hreport⟩ : ∃ report, s.reports[call]? = some report :=
    ⟨_, List.getElem?_eq_getElem (h.pending call hcall)⟩
  have hknown := (h.reports report (List.mem_of_getElem? hreport)).2
  have hended := inv_ended h call
  obtain ⟨key, reporter, remoteHandle⟩ := report
  cases reporter with
  | appDelegate => exact ⟨_, by rw [answered, hreport]; rfl, hended, rfl, rfl, rfl⟩
  | menu i =>
    have hmenu : s.menus[i]? = some s.menus[i] := List.getElem?_eq_getElem hknown
    rcases hanswer : s.menus[i].answerCall a.userId with ⟨menu, screen, writes⟩
    obtain ⟨hobservers, hchildren⟩ := written_ok writes s.feed
    have hset := hended.setMenu i menu
    refine ⟨{ s with
        pending := s.pending.filter (· ≠ call)
        menus := s.menus.set i menu
        feed := writes.foldl written s.feed }, ?_, ?_, rfl, rfl, hobservers⟩
    · simp only [answered, hreport, hmenu, hanswer, Option.bind_eq_bind, Option.bind_some]
    · refine ⟨fun p hp => h.children p (hchildren.subset hp), h.keys.sublist (hchildren.map _), ?_,
        hset.reports, hset.pending⟩
      show ∀ p ∈ (writes.foldl written s.feed).observers, Listens a (s.menus.set i menu).length p.2
      rw [hobservers]
      exact hset.observers

/-! ## Runs -/

theorem init_inv : Inv a State.init where
  children := by simp [State.init, Feed.State.empty]
  keys := List.nodup_nil
  observers := by simp [State.init, Feed.State.empty]
  reports := by simp [State.init]
  pending := by simp [State.init]

/-- One step lets no record ring again exactly if it meets `Single`. -/
theorem step_once (a : Account) (s : State) (e : Event) (h : Inv a s) (he : Enabled a s e) :
    ∃ s', step a s e = some s' ∧ Inv a s' ∧ (Once s → (Once s' ↔ Single a s e)) := by
  have hsilent : ∀ t : State, t.reports = s.reports → (Once s → (Once t ↔ True)) := by
    intro t ht hs
    unfold Once State.rung
    rw [ht]
    exact iff_of_true hs trivial
  cases e with
  | launch =>
    have hstarted : Inv a { s with running := true } :=
      ⟨h.children, h.keys, h.observers, h.reports, h.pending⟩
    obtain ⟨s', hs', hinv, honce, -⟩ := viewDidLoad_ok hstarted
    exact ⟨s', hs', hinv, honce⟩
  | terminate =>
    exact ⟨_, rfl, ⟨h.children, h.keys, by simp [Feed.disconnect], h.reports, by simp⟩, hsilent _ rfl⟩
  | enterBackground =>
    obtain ⟨s', hs', hinv, hafter⟩ := register_ok h .appDelegate .video trivial (fun _ => rfl)
    exact ⟨s', hs', hinv, once_register h hafter⟩
  | navigateToVideo =>
    obtain ⟨s', hs', hinv, honce, -⟩ := viewDidLoad_ok h
    exact ⟨s', hs', hinv, honce⟩
  | notification n =>
    obtain ⟨s', hs', hinv, hrung, -⟩ := notified_ok h he
    refine ⟨s', hs', hinv, fun hs => ?_⟩
    have hnew : s.written ∉ s.rung := by
      intro hmem
      obtain ⟨r, hr, hkey⟩ := List.mem_map.mp hmem
      exact Nat.ne_of_lt (h.reports r hr).1 hkey
    rw [Once, hrung, List.nodup_append, List.nodup_replicate]
    refine ⟨fun hall => hall.2.1, fun hone => ⟨hs, hone, fun k hk k' hk' hsame => ?_⟩⟩
    rw [List.eq_of_mem_replicate hk'] at hsame
    exact hnew (hsame ▸ hk)
  | answer call =>
    obtain ⟨s', hs', hinv, hreports, -⟩ := answered_ok h he
    exact ⟨s', hs', hinv, hsilent s' hreports⟩
  | decline call => exact ⟨_, rfl, inv_ended h call, hsilent _ rfl⟩

/-- Every record of a run rings at most once exactly if every step meets `Single`. -/
theorem rings_once_iff (a : Account) (run : Runs.Schedule (step a) (Enabled a) State.init) :
    (∃ s, Runs.exec (step a) State.init run.events = some s) ∧
      (Runs.Throughout (step a) Once State.init run.events ↔
        Runs.Along (step a) (Single a) State.init run.events) := by
  exact Runs.throughout_iff_along (step_once a) init_inv List.nodup_nil run.enabled

/-- A video call comes in, and the app moves to the background while it rings. -/
def ringingInBackground : List Event :=
  [.launch, .notification ⟨⟨3, some "Ann"⟩, .video, "Me"⟩, .enterBackground]

/-- The app delegate reports the record a second time. -/
theorem ringingInBackground_repeats :
    Runs.Along (step Calls.twoFriends) (Enabled Calls.twoFriends) State.init ringingInBackground ∧
      (Runs.exec (step Calls.twoFriends) State.init ringingInBackground).map (·.reports) =
        some [⟨0, .menu 0, "Me"⟩, ⟨0, .appDelegate, "Me"⟩] ∧
      ¬ Runs.Throughout (step Calls.twoFriends) Once State.init ringingInBackground := by
  have hlast : (Runs.exec (step Calls.twoFriends) State.init ringingInBackground).map (·.reports) =
      some [⟨0, .menu 0, "Me"⟩, ⟨0, .appDelegate, "Me"⟩] := by decide
  refine ⟨by decide, hlast, fun h => ?_⟩
  obtain ⟨s, hs, hreports⟩ := Option.map_eq_some_iff.mp hlast
  have honce := Runs.throughout_last h hs
  rw [Once, State.rung, hreports] at honce
  exact absurd honce (by decide)

/-! ## One launch -/

theorem countP_joined (a : Account) (reporter : Reporter) (kind kind' : CallKind) (n : String) :
    (joined a reporter kind).countP (fun p => decide (p.1 = n) && decide (p.2.kind = kind')) ≤
      if kind = kind' then 1 else 0 := by
  rw [joined, List.countP_map]
  by_cases hkind : kind = kind'
  · have hcount : a.conversations.countP ((fun p : String × Observer =>
        decide (p.1 = n) && decide (p.2.kind = kind')) ∘
          fun c => (place a c, ⟨reporter, kind, c, Calls.nameOf a c⟩)) =
        (a.conversations.map (place a)).count n := by
      rw [List.count_eq_countP, List.countP_map]
      simp [Function.comp_def, hkind, beq_eq_decide]
    rw [hcount, if_pos hkind]
    exact List.nodup_iff_count_le_one.mp (nodup_places a) n
  · simp [hkind, Function.comp_def]

/-- Before the launch there are no observers, after it a node has one of each kind at most. -/
structure Sole (s : State) : Prop where
  before : s.running = false → s.feed.observers = [] ∧ s.reports = []
  after : s.running = true → ∀ n kind, ((s.feed.audience n).filter (·.kind = kind)).length ≤ 1

/-- The process is launched once and stays in the foreground with its first Menu. -/
def Plain : Event → Prop
  | .terminate | .enterBackground | .navigateToVideo => False
  | _ => True

theorem sole_congr (h : Sole s) (hrunning : s'.running = s.running)
    (hobservers : s'.feed.observers = s.feed.observers)
    (hreports : s.running = false → s'.reports = s.reports) : Sole s' := by
  refine ⟨fun hstopped => ?_, fun hstarted n kind => ?_⟩
  · rw [hrunning] at hstopped
    rw [hobservers, hreports hstopped]
    exact h.before hstopped
  · have hsame : s'.feed.audience n = s.feed.audience n := by
      unfold Feed.State.audience
      rw [hobservers]
    rw [hsame]
    exact h.after (hrunning.symm.trans hstarted) n kind

theorem sole_launched (h : Sole s) (hstopped : s.running = false) {reporter : Reporter}
    (hrunning : s'.running = true)
    (hobservers : s'.feed.observers =
      s.feed.observers ++ (joined a reporter .video ++ joined a reporter .audio)) : Sole s' := by
  refine ⟨fun hstopped' => absurd (hstopped'.symm.trans hrunning) (by decide), fun _ n kind => ?_⟩
  have hvideo := countP_joined a reporter .video kind n
  have haudio := countP_joined a reporter .audio kind n
  rw [Feed.length_audience, hobservers, (h.before hstopped).1, List.nil_append, List.countP_append]
  cases kind with
  | video =>
    rw [if_pos rfl] at hvideo
    rw [if_neg (by decide)] at haudio
    omega
  | audio =>
    rw [if_neg (by decide)] at hvideo
    rw [if_pos rfl] at haudio
    omega

theorem single_of_sole {e : Event} (h : Sole s) (he : Enabled a s e) (hplain : Plain e) : Single a s e := by
  cases e with
  | launch =>
    intro kind c hc x hx hin
    simp [State.rung, (h.before he).2]
  | notification n =>
    cases hrunning : s.running with
    | false => simp [Single, Feed.State.audience, (h.before hrunning).1]
    | true => exact h.after hrunning _ _
  | answer _ | decline _ => trivial
  | terminate | enterBackground | navigateToVideo => exact hplain.elim

theorem sole_step {e : Event} (h : Inv a s) (hsole : Sole s) (he : Enabled a s e) (hplain : Plain e)
    (hs' : step a s e = some s') : Sole s' := by
  cases e with
  | launch =>
    have hstarted : Inv a { s with running := true } :=
      ⟨h.children, h.keys, h.observers, h.reports, h.pending⟩
    obtain ⟨t, ht, -, -, hrunning, hobservers⟩ := viewDidLoad_ok hstarted
    obtain rfl := Option.some.inj (ht.symm.trans hs')
    exact sole_launched hsole he hrunning hobservers
  | notification n =>
    obtain ⟨t, ht, -, hrung, hrunning, hobservers⟩ := notified_ok h he
    obtain rfl := Option.some.inj (ht.symm.trans hs')
    refine sole_congr hsole hrunning hobservers fun hstopped => ?_
    obtain ⟨hnone, hreports⟩ := hsole.before hstopped
    have hrung : t.rung = [] := by
      rw [hrung]
      simp [State.rung, hreports, Feed.State.audience, hnone]
    rw [hreports, List.map_eq_nil_iff.mp hrung]
  | answer call =>
    obtain ⟨t, ht, -, hreports, hrunning, hobservers⟩ := answered_ok h he
    obtain rfl := Option.some.inj (ht.symm.trans hs')
    exact sole_congr hsole hrunning hobservers fun _ => hreports
  | decline call =>
    obtain rfl := Option.some.inj hs'
    exact sole_congr hsole rfl rfl fun _ => rfl
  | terminate | enterBackground | navigateToVideo => exact hplain.elim

/-- In a process that stays in the foreground and finishes no call, every record rings at most
    once. -/
theorem plain_rings_once (a : Account)
    (run : Runs.Schedule (step a) (fun s e => Enabled a s e ∧ Plain e) State.init) :
    Runs.Throughout (step a) Once State.init run.events := by
  refine Runs.throughout_ok (I := fun s => Inv a s ∧ Sole s ∧ Once s) (fun s e hI he s' hs' => ?_)
    (fun s hI => hI.2.2) ⟨init_inv, ⟨fun _ => ⟨rfl, rfl⟩, nofun⟩, List.nodup_nil⟩ run.enabled
  obtain ⟨hinv, hsole, honce⟩ := hI
  obtain ⟨t, ht, hinv', hiff⟩ := step_once a s e hinv he.1
  obtain rfl := Option.some.inj (ht.symm.trans hs')
  exact ⟨hinv', sole_step hinv hsole he.1 he.2 hs',
    (hiff honce).mpr (single_of_sole hsole he.1 he.2)⟩

end Rings

end Shiftgram
