import Shiftgram.App

/- The user of the app. The Menu opens before the server has answered the registration, and every
   answer inserts a record.

   A run has at most one User record, one whenever a tab's handler runs, and no update or division
   without one, exactly if one account is stored before any handler of a tab runs, no second one is
   stored, and friend ids are computed on screens opened after it and with an id other than zero
   (`oneUser_iff`). The requests for friends carry the record's id exactly if their controllers were
   constructed after the account was stored (`carries_iff`). -/
namespace Shiftgram

namespace App

/-- The conditions the readers of the User record rely on. -/
structure OneUser (s : State) : Prop where
  single : s.users.length ≤ 1
  handled : ∀ n ∈ s.handled, n = 1
  missing : s.missing = 0
  divisors : ∀ d ∈ s.divisors, d ≠ 0

/-- The first account is stored before a tab's handler runs or a screen opens that computes friend
    ids, its id is not zero, and there is no second one. -/
def InTurn (s : State) : Event → Prop
  | .accountCreated _ _ response => response.value.bind Json.asInt ≠ none → s.accounts = 0
  | .tab _ => 0 < s.accounts
  | .friendId screen _ =>
    ∀ c, s.screens[screen]? = some c → 0 < c.since ∧ UserEntity.getUserId s.users ≠ 0
  | _ => True

/-- Every request for friends names the account that the User record held. -/
def Carries (s : State) : Prop := ∀ r ∈ s.requests, ∀ id, r.stored = some id → r.userId = id

/-- The controller that sends a request was constructed after the account was stored, or none is
    stored yet, or its id is zero. -/
def Informed (s : State) (e : Event) : Prop :=
  ∀ c, sender s e = some c → s.accounts = 0 ∨ 0 < c.since ∨ UserEntity.getUserId s.users = 0

variable {s s' : State} {e : Event}

/-- The copied id is that of the record exactly if there was a record, or the id is zero. -/
theorem Saw.userId_iff {c : Screen} (h : Saw s.users s.accounts c) :
    c.userId = UserEntity.getUserId s.users ↔ 0 < c.since ∨ UserEntity.getUserId s.users = 0 := by
  rw [h.userId, Nat.pos_iff_ne_zero]
  by_cases hsince : c.since = 0
  · rw [if_pos hsince, eq_comm]
    simp [hsince]
  · simp [hsince]

theorem sender_saw (h : Inv s) {c : Screen} (hc : sender s e = some c) :
    Saw s.users s.accounts c := by
  have hmenu : ∀ {menu : Nat}, s.menus[menu]?.map (·.toScreen) = some c →
      Saw s.users s.accounts c := by
    intro menu hmenu
    obtain ⟨m, hm, rfl⟩ := Option.map_eq_some_iff.mp hmenu
    exact h.menus m (List.mem_of_getElem? hm)
  cases e with
  | tab handler =>
    cases handler with
    | btnSyncPressed menu list =>
      simp only [sender] at hc
      split at hc
      · cases hc
      · exact hmenu hc
    | _ => cases hc
  | menuLanguageUpdated menu => exact hmenu hc
  | chatLanguageUpdated screen => exact h.screens c (List.mem_of_getElem? hc)
  | _ => cases hc

/-! ## One user -/

/-- What a step adds decides whether there is one user afterwards. -/
theorem oneUser_effect (h : Effect s e s') (hs : OneUser s) :
    OneUser s' ↔ s.users.length + stored e ≤ 1 ∧ (∀ n ∈ found s e, n = 1) ∧ lost s e = 0 ∧
      ∀ d ∈ divided s e, d ≠ 0 := by
  have hhandled : (∀ n ∈ s'.handled, n = 1) ↔ ∀ n ∈ found s e, n = 1 := by
    rw [h.handled, List.forall_mem_append, and_iff_right hs.handled]
  have hdivisors : (∀ d ∈ s'.divisors, d ≠ 0) ↔ ∀ d ∈ divided s e, d ≠ 0 := by
    rw [h.divisors, List.forall_mem_append, and_iff_right hs.divisors]
    simp
  have hmissing : s'.missing = 0 ↔ lost s e = 0 := by
    rw [h.missing, hs.missing, Nat.zero_add]
  rw [← hhandled, ← hdivisors, ← hmissing, ← h.users]
  exact ⟨fun h => ⟨h.single, h.handled, h.missing, h.divisors⟩,
    fun ⟨hsingle, hh, hm, hd⟩ => ⟨hsingle, hh, hm, hd⟩⟩

theorem oneUser_step (h : Inv s) (hs : OneUser s) (heffect : Effect s e s') :
    OneUser s' ↔ InTurn s e := by
  have hcount := h.count
  have hsingle := hs.single
  rw [oneUser_effect heffect hs]
  cases e with
  | accountCreated k languageCode response =>
    cases hid : response.value.bind Json.asInt with
    | none => simp [stored, found, lost, divided, InTurn, hid, hsingle]
    | some id =>
      have hone : s.users.length + 1 ≤ 1 ↔ s.accounts = 0 := by omega
      show s.users.length + (if (response.value.bind Json.asInt).isSome then 1 else 0) ≤ 1 ∧ _ ↔
        (response.value.bind Json.asInt ≠ none → s.accounts = 0)
      simp only [hid, Option.isSome_some, if_true, hone]
      simp [found, lost, divided]
  | tab handler =>
    have hone : (∀ n ∈ [s.users.length], n = 1) ↔ 0 < s.accounts := by
      rw [List.forall_mem_singleton]
      omega
    have hlost : 0 < s.accounts → lost s (.tab handler) = 0 := by
      intro hpos
      have hne : s.users ≠ [] := by
        rintro hnil
        rw [hnil, List.length_nil] at hcount
        omega
      cases handler <;> simp [lost, hne]
    show s.users.length + 0 ≤ 1 ∧ (∀ n ∈ [s.users.length], n = 1) ∧ lost s (.tab handler) = 0 ∧ _ ↔
      0 < s.accounts
    rw [hone]
    exact ⟨fun h => h.2.1, fun hpos => ⟨hsingle, hpos, hlost hpos, by simp [divided]⟩⟩
  | friendId screen conversationName =>
    cases hget : s.screens[screen]? with
    | none => simp [stored, found, lost, divided, InTurn, hget, hsingle]
    | some c =>
      -- the id divided by is the one the screen copied
      have hsaw := (h.screens c (List.mem_of_getElem? hget)).userId
      by_cases hsince : c.since = 0
      · rw [if_pos hsince] at hsaw
        simp [divided, InTurn, hget, hsaw, hsince]
      · rw [if_neg hsince] at hsaw
        simp [stored, found, lost, divided, InTurn, hget, hsaw, hsingle, Nat.pos_iff_ne_zero, hsince]
  | _ => simp [stored, found, lost, divided, InTurn, hsingle]

/-- There is one user throughout a run exactly if everything comes in turn. -/
theorem oneUser_iff (run : Runs.Schedule step Enabled State.init) :
    (∃ s, Runs.exec step State.init run.events = some s) ∧
      (Runs.Throughout step OneUser State.init run.events ↔
        Runs.Along step InTurn State.init run.events) := by
  have hstep : ∀ s e, Inv s → Enabled s e →
      ∃ s', step s e = some s' ∧ Inv s' ∧ (OneUser s → (OneUser s' ↔ InTurn s e)) := by
    intro s e h he
    obtain ⟨s', hs', hinv, heffect⟩ := step_spec s e h he
    exact ⟨s', hs', hinv, fun hs => oneUser_step h hs heffect⟩
  have hinit : OneUser State.init :=
    ⟨Nat.zero_le 1, by simp [State.init], rfl, by simp [State.init]⟩
  exact Runs.throughout_iff_along hstep init_inv hinit run.enabled

/-- The contacts are synced before the server has answered the registration. -/
def earlySync : List Event :=
  [.launch, .registerBtnPressed "+1", .uploaded 0, .tab (.viewDidLoad .contacts),
    .tab (.btnSyncPressed 0 0)]

/-- The sync looks for a record that is not there, and the app ends. -/
theorem earlySync_ends : Runs.Along step Enabled State.init earlySync ∧
    (Runs.exec step State.init earlySync).map (fun s => (s.missing, s.running)) = some (1, false) ∧
      ¬ Runs.Throughout step OneUser State.init earlySync := by
  have hrun : (Runs.exec step State.init earlySync).map (fun s => (s.missing, s.running)) =
      some (1, false) := by decide
  refine ⟨by decide, hrun, fun h => ?_⟩
  obtain ⟨s, hs, hlast⟩ := Option.map_eq_some_iff.mp hrun
  have hmissing := (Runs.throughout_last h hs).missing
  rw [(Prod.mk.inj hlast).1] at hmissing
  exact absurd hmissing (by decide)

/-! ## Requests for friends -/

theorem carries_step (h : Inv s) (hs : Carries s) (heffect : Effect s e s') :
    Carries s' ↔ Informed s e := by
  have hrequests : Carries s' ↔ ∀ r ∈ (sender s e).toList.map fun c =>
      (⟨c.userId, s.users.head?.map (·.id)⟩ : Request), ∀ id, r.stored = some id → r.userId = id := by
    unfold Carries at hs ⊢
    rw [heffect.requests, List.forall_mem_append, and_iff_right hs]
  rw [hrequests]
  unfold Informed
  simp only [List.mem_map, Option.mem_toList, forall_exists_index, and_imp,
    forall_apply_eq_imp_iff₂]
  refine forall_congr' fun c => forall_congr' fun hc => ?_
  have hcount := h.count
  cases husers : s.users with
  | nil =>
    have hzero : s.accounts = 0 := by rw [← hcount, husers, List.length_nil]
    simp [hzero]
  | cons user users =>
    have hpos : s.accounts ≠ 0 := by rw [← hcount, husers]; simp
    have hsaw := (sender_saw h hc).userId_iff
    rw [husers] at hsaw
    rw [or_iff_right hpos, ← hsaw]
    simp [UserEntity.getUserId]

/-- The requests carry the user's id throughout a run exactly if controllers that send one were
    constructed after the account was stored. -/
theorem carries_iff (run : Runs.Schedule step Enabled State.init) :
    (∃ s, Runs.exec step State.init run.events = some s) ∧
      (Runs.Throughout step Carries State.init run.events ↔
        Runs.Along step Informed State.init run.events) := by
  have hstep : ∀ s e, Inv s → Enabled s e →
      ∃ s', step s e = some s' ∧ Inv s' ∧ (Carries s → (Carries s' ↔ Informed s e)) := by
    intro s e h he
    obtain ⟨s', hs', hinv, heffect⟩ := step_spec s e h he
    exact ⟨s', hs', hinv, fun hs => carries_step h hs heffect⟩
  exact Runs.throughout_iff_along hstep init_inv (by simp [Carries, State.init]) run.enabled

/-- The account is stored after its Menu was constructed. -/
def lateAccount : List Event :=
  [.launch, .registerBtnPressed "+1", .uploaded 0, .accountCreated 0 "en" ⟨some 200, some (.int 7)⟩,
    .menuLanguageUpdated 0]

/-- The Menu asks for the friends of account 0. -/
theorem lateAccount_asks : Runs.Along step Enabled State.init lateAccount ∧
    (Runs.exec step State.init lateAccount).map (·.requests) = some [⟨0, some 7⟩] ∧
      ¬ Runs.Throughout step Carries State.init lateAccount := by
  have hrun : (Runs.exec step State.init lateAccount).map (·.requests) = some [⟨0, some 7⟩] := by
    decide
  refine ⟨by decide, hrun, fun h => ?_⟩
  obtain ⟨s, hs, hlast⟩ := Option.map_eq_some_iff.mp hrun
  have hcarries := Runs.throughout_last h hs ⟨0, some 7⟩ (by rw [hlast]; simp) 7 rfl
  exact absurd hcarries (by decide)

end App

end Shiftgram
