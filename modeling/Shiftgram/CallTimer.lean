import Shiftgram.AudioCalls

/- The clock of an audio screen. Every answer record sets the label to 00:00 and starts one more timer
   with a counter of its own; the block of a timer writes its counter to the label, as minutes and
   seconds once it is greater than 60.

   `clock_iff`: the label shows the seconds since the first answer, and never steps back, exactly if
   every further answer comes in the first second and no timer ticks for the sixtieth time, at which
   the label shows 00:60.

   Assumed: timers tick on time, and what is due at one time in the order in which the timers were
   started. So between two ticks of the first timer every other one ticks once, and the ticks of the
   first timer are the whole seconds since the first answer. -/
namespace Shiftgram

namespace CallTimer

/-- An audio screen. -/
structure State where
  view : AudioViewController
  /-- For each timer, the seconds that had passed when it was started. -/
  starts : List Nat
  deriving DecidableEq, Repr

def State.init (name conversationName friendLanguage : String) : State :=
  ⟨.init name conversationName friendLanguage, []⟩

/-- How often a timer has ticked. -/
def State.count (s : State) (timer : Nat) : Nat := s.view.timers.getD timer 0

/-- The whole seconds since the first answer. -/
def State.elapsed (s : State) : Nat := s.count 0

inductive Event
  /-- A child of the node `audioCalling`. -/
  | childAdded (data : Swift.Dictionary)
  | tick (timer : Nat)
  deriving DecidableEq, Repr

def step (s : State) : Event → Option State
  | .childAdded data => some {
      view := s.view.childAdded data
      starts := if AudioViewController.signals data then s.starts ++ [s.elapsed] else s.starts }
  | .tick timer => some { s with view := s.view.tick timer }

/-- The first timer ticks when every other one has ticked for each second since it was started, and
    these tick after the second has passed. -/
def Enabled (s : State) : Event → Prop
  | .childAdded _ => True
  | .tick timer => timer < s.view.timers.length ∧
      if timer = 0 then
        ∀ other < s.view.timers.length, other ≠ 0 → s.count other + s.starts.getD other 0 = s.elapsed
      else s.count timer + s.starts.getD timer 0 < s.elapsed

instance (s : State) (e : Event) : Decidable (Enabled s e) :=
  match e with
  | .childAdded _ => isTrue trivial
  | .tick _ => inferInstanceAs (Decidable (_ ∧ _))

/-- From the first answer on the label shows the seconds since it. -/
def Right (s : State) : Prop :=
  s.view.timers ≠ [] → s.view.label = .clock (s.elapsed / 60) (s.elapsed % 60)

/-- The time on a label. -/
def seconds : Label → Nat
  | .contacting => 0
  | .clock minute seconds => minute * 60 + seconds

/-- From the first answer on the label does not step back. -/
def Forward (s : State) (e : Event) : Prop :=
  s.view.timers ≠ [] → ∀ s', step s e = some s' → seconds s.view.label ≤ seconds s'.view.label

/-- An answer comes in the first second, and the first timer does not tick for the sixtieth time. -/
def Prompt (s : State) : Event → Prop
  | .childAdded data => AudioViewController.signals data = true → s.elapsed = 0
  | .tick timer => timer = 0 → s.elapsed ≠ 59

/-! ## The handlers -/

/-- What a block writes for its counter is the time, but for the sixtieth second. -/
theorem clock_eq_iff (n : Nat) :
    (if n > 60 then Label.clock (n / 60) (n % 60) else .clock 0 n) = .clock (n / 60) (n % 60) ↔
      n ≠ 60 := by
  split
  · next h => exact iff_of_true rfl (by omega)
  · next h =>
    rw [Label.clock.injEq]
    omega

variable {s s' : State}

/-- A child without a sender changes nothing. -/
theorem childAdded_quiet {data : Swift.Dictionary} (h : AudioViewController.signals data = false) :
    step s (.childAdded data) = some s := by
  simp [step, AudioViewController.childAdded, h]

/-- A timer that has just been started has not ticked. -/
theorem getD_snoc_zero (l : List Nat) (i : Nat) : (l ++ [0]).getD i 0 = l.getD i 0 := by
  rw [List.getD_eq_getElem?_getD, List.getD_eq_getElem?_getD]
  by_cases hi : i = l.length
  · rw [hi, List.getElem?_concat_length, List.getElem?_eq_none (Nat.le_refl _)]
    rfl
  · rw [Swift.getElem?_concat_of_ne hi]

/-- An answer shows the start of the clock and starts a timer. -/
theorem answer_spec {data : Swift.Dictionary} (h : AudioViewController.signals data = true)
    (hs' : step s (.childAdded data) = some s') :
    s'.view.label = .clock 0 0 ∧ s'.view.timers = s.view.timers ++ [0] ∧
      s'.starts = s.starts ++ [s.elapsed] ∧ ∀ timer, s'.count timer = s.count timer := by
  obtain rfl := Option.some.inj hs'
  have hview : s.view.childAdded data =
      { s.view with label := .clock 0 0, timers := s.view.timers ++ [0] } := if_pos h
  dsimp only [State.count]
  rw [hview, if_pos h]
  exact ⟨rfl, rfl, rfl, getD_snoc_zero s.view.timers⟩

/-- A tick counts one timer on and shows its counter. -/
theorem tick_spec {timer : Nat} (h : timer < s.view.timers.length)
    (hs' : step s (.tick timer) = some s') :
    s'.view.label = (if s.count timer + 1 > 60 then
        .clock ((s.count timer + 1) / 60) ((s.count timer + 1) % 60)
      else .clock 0 (s.count timer + 1)) ∧
    s'.view.timers.length = s.view.timers.length ∧ s'.starts = s.starts ∧
      ∀ other, s'.count other = if other = timer then s.count timer + 1 else s.count other := by
  obtain rfl := Option.some.inj hs'
  have hget : s.view.timers[timer]? = some (s.count timer) := by
    rw [State.count, List.getD_eq_getElem?_getD, List.getElem?_eq_getElem h, Option.getD_some]
  rw [AudioViewController.tick, hget]
  refine ⟨rfl, List.length_set, rfl, fun other => ?_⟩
  show (s.view.timers.set timer (s.count timer + 1)).getD other 0 = _
  rw [List.getD_eq_getElem?_getD, List.getElem?_set]
  by_cases hother : timer = other
  · rw [if_pos hother, if_pos hother.symm, if_pos h, Option.getD_some]
  · rw [if_neg hother, if_neg (Ne.symm hother), State.count, List.getD_eq_getElem?_getD]

/-! ## Runs -/

/-- All timers started in the first second and tick together, and the label shows their time. -/
structure Inv (s : State) : Prop where
  right : Right s
  starts : ∀ timer, s.starts.getD timer 0 = 0
  counts : ∀ timer < s.view.timers.length, s.count timer = s.elapsed ∨ s.count timer + 1 = s.elapsed
  short : s.elapsed < 60

theorem init_inv (name conversationName friendLanguage : String) :
    Inv (State.init name conversationName friendLanguage) where
  right h := absurd rfl h
  starts _ := rfl
  counts timer h := absurd h (Nat.not_lt_zero timer)
  short := Nat.zero_lt_succ 59

/-- An answer shows the right time exactly in the first second. -/
theorem right_answer {data : Swift.Dictionary} (h : AudioViewController.signals data = true)
    (hs' : step s (.childAdded data) = some s') : Right s' ↔ s.elapsed = 0 := by
  obtain ⟨hlabel, htimers, -, hcount⟩ := answer_spec h hs'
  have helapsed : s'.elapsed = s.elapsed := hcount 0
  unfold Right
  rw [hlabel, htimers, helapsed, Label.clock.injEq]
  refine ⟨fun hright => ?_, fun hzero _ => ?_⟩
  · have := hright (by simp)
    omega
  · omega

theorem inv_answer (h : Inv s) {data : Swift.Dictionary}
    (hsignals : AudioViewController.signals data = true) (hzero : s.elapsed = 0)
    (hs' : step s (.childAdded data) = some s') : Inv s' := by
  obtain ⟨-, htimers, hstarts, hcount⟩ := answer_spec hsignals hs'
  have helapsed : s'.elapsed = s.elapsed := hcount 0
  refine ⟨(right_answer hsignals hs').mpr hzero, fun timer => ?_, fun timer htimer => ?_, ?_⟩
  · rw [hstarts, hzero, getD_snoc_zero]
    exact h.starts timer
  · rw [hcount, helapsed]
    rw [htimers, List.length_append, List.length_singleton] at htimer
    rcases Nat.lt_succ_iff_lt_or_eq.mp htimer with hold | rfl
    · exact h.counts timer hold
    · -- the timer that has just been started
      left
      rw [hzero, State.count, List.getD_eq_getElem?_getD, List.getElem?_eq_none (Nat.le_refl _),
        Option.getD_none]
  · rw [helapsed]
    exact h.short

/-- The first timer shows the right time but for its sixtieth tick. -/
theorem right_first (hs' : step s (.tick 0) = some s') (he : Enabled s (.tick 0)) :
    Right s' ↔ s.elapsed ≠ 59 := by
  obtain ⟨hlabel, hlength, -, hcount⟩ := tick_spec he.1 hs'
  have helapsed : s'.elapsed = s.elapsed + 1 := (hcount 0).trans (if_pos rfl)
  have hne : s'.view.timers ≠ [] := by
    rw [← List.length_pos_iff, hlength]
    exact he.1
  unfold Right
  rw [hlabel, helapsed, forall_prop_of_true hne]
  -- its block compares with `>`, so 60 seconds are not yet a minute
  refine (clock_eq_iff (s.elapsed + 1)).trans ?_
  omega

theorem inv_first (h : Inv s) (hs' : step s (.tick 0) = some s') (he : Enabled s (.tick 0))
    (hshort : s.elapsed ≠ 59) : Inv s' := by
  obtain ⟨-, hlength, hstarts, hcount⟩ := tick_spec he.1 hs'
  have helapsed : s'.elapsed = s.elapsed + 1 := (hcount 0).trans (if_pos rfl)
  have htogether := he.2
  rw [if_pos rfl] at htogether
  refine ⟨(right_first hs' he).mpr hshort, fun timer => ?_, fun timer htimer => ?_, ?_⟩
  · rw [hstarts]
    exact h.starts timer
  · rw [hcount, helapsed]
    by_cases hfirst : timer = 0
    · exact .inl (if_pos hfirst)
    · -- the others have ticked for each second that has passed
      have hother := htogether timer (hlength ▸ htimer) hfirst
      rw [h.starts, Nat.add_zero] at hother
      rw [if_neg hfirst, hother]
      exact .inr rfl
  · have := h.short
    omega

/-- Another timer shows the time that the first one has shown. -/
theorem inv_other (h : Inv s) {timer : Nat} (hother : timer ≠ 0)
    (hs' : step s (.tick timer) = some s') (he : Enabled s (.tick timer)) : Inv s' := by
  obtain ⟨hlabel, hlength, hstarts, hcount⟩ := tick_spec he.1 hs'
  have helapsed : s'.elapsed = s.elapsed := (hcount 0).trans (if_neg (Ne.symm hother))
  have hbehind := he.2
  rw [if_neg hother, h.starts, Nat.add_zero] at hbehind
  have hnext : s.count timer + 1 = s.elapsed :=
    (h.counts timer he.1).resolve_left (Nat.ne_of_lt hbehind)
  refine ⟨fun _ => ?_, fun timer' => ?_, fun timer' htimer' => ?_, ?_⟩
  · rw [hlabel, hnext, helapsed]
    exact (clock_eq_iff s.elapsed).mpr (Nat.ne_of_lt h.short)
  · rw [hstarts]
    exact h.starts timer'
  · rw [hcount, helapsed]
    by_cases hsame : timer' = timer
    · rw [if_pos hsame]
      exact .inl hnext
    · rw [if_neg hsame]
      exact h.counts timer' (hlength ▸ htimer')
  · rw [helapsed]
    exact h.short

/-- From a state in which all is right a step shows the right time exactly if it is prompt, and then
    all stays right. -/
theorem step_right {e : Event} (h : Inv s) (he : Enabled s e) (hs' : step s e = some s') :
    (Right s' ↔ Prompt s e) ∧ (Prompt s e → Inv s') := by
  cases e with
  | childAdded data =>
    cases hsignals : AudioViewController.signals data with
    | false =>
      obtain rfl := Option.some.inj ((childAdded_quiet hsignals).symm.trans hs')
      have hprompt : Prompt s (.childAdded data) := fun htrue => nomatch hsignals.symm.trans htrue
      exact ⟨iff_of_true h.right hprompt, fun _ => h⟩
    | true =>
      refine ⟨(right_answer hsignals hs').trans ?_, fun hprompt => ?_⟩
      · exact ⟨fun hzero _ => hzero, fun hprompt => hprompt hsignals⟩
      · exact inv_answer h hsignals (hprompt hsignals) hs'
  | tick timer =>
    by_cases hfirst : timer = 0
    · subst hfirst
      refine ⟨(right_first hs' he).trans ?_, fun hprompt => inv_first h hs' he (hprompt rfl)⟩
      exact ⟨fun hshort _ => hshort, fun hprompt => hprompt rfl⟩
    · have hinv := inv_other h hfirst hs' he
      exact ⟨iff_of_true hinv.right fun hzero => absurd hzero hfirst, fun _ => hinv⟩

/-- The first timer does not go back, and no timer is dropped. -/
theorem step_grows {e : Event} (he : Enabled s e) (hs' : step s e = some s') :
    s.elapsed ≤ s'.elapsed ∧ s.view.timers.length ≤ s'.view.timers.length := by
  cases e with
  | childAdded data =>
    cases hsignals : AudioViewController.signals data with
    | false =>
      obtain rfl := Option.some.inj ((childAdded_quiet hsignals).symm.trans hs')
      exact ⟨Nat.le_refl _, Nat.le_refl _⟩
    | true =>
      obtain ⟨-, htimers, -, hcount⟩ := answer_spec hsignals hs'
      rw [htimers, List.length_append]
      exact ⟨Nat.le_of_eq (hcount 0).symm, Nat.le_add_right _ _⟩
  | tick timer =>
    obtain ⟨-, hlength, -, hcount⟩ := tick_spec he.1 hs'
    have helapsed : s'.elapsed = if 0 = timer then s.count timer + 1 else s.elapsed := hcount 0
    refine ⟨?_, Nat.le_of_eq hlength.symm⟩
    rw [helapsed]
    split
    · next hfirst =>
      rw [← hfirst]
      exact Nat.le_succ _
    · exact Nat.le_refl _

/-- The time on a right label is the seconds that have passed. -/
theorem seconds_right (h : Right s) (htimers : s.view.timers ≠ []) :
    seconds s.view.label = s.elapsed := by
  rw [h htimers, seconds]
  omega

/-- A label that is right before and after a step does not step back. -/
theorem forward_of_right {e : Event} (he : Enabled s e) (h : Right s)
    (h' : ∀ s', step s e = some s' → Right s') : Forward s e := by
  intro htimers s' hs'
  obtain ⟨helapsed, hlength⟩ := step_grows he hs'
  have htimers' : s'.view.timers ≠ [] := by
    rw [← List.length_pos_iff] at htimers ⊢
    omega
  rw [seconds_right h htimers, seconds_right (h' s' hs') htimers']
  exact helapsed

theorem step_total (s : State) (e : Event) : ∃ s', step s e = some s' := by
  cases e <;> exact ⟨_, rfl⟩

theorem inv_prompt {e : Event} (h : Inv s) (he : Enabled s e) (hprompt : Prompt s e)
    (hs' : step s e = some s') : Inv s' := (step_right h he hs').2 hprompt

/-- A run has the right label at all times exactly if all its events are prompt. -/
theorem right_iff_prompt {name conversationName friendLanguage : String} {events : List Event}
    (he : Runs.Along step Enabled (State.init name conversationName friendLanguage) events) :
    Runs.Throughout step Right (State.init name conversationName friendLanguage) events ↔
      Runs.Along step Prompt (State.init name conversationName friendLanguage) events := by
  obtain ⟨t, ht, -⟩ := Runs.exec_ok (I := fun _ => True)
    (fun s e _ _ => (step_total s e).imp fun _ hs' => ⟨hs', trivial⟩) trivial he
  have hsafe := Runs.safe_iff_along (P := Right) (C := Prompt) (fun s e h he => ?_)
    (fun _ _ _ => inv_prompt) (fun _ h => h.right) (init_inv name conversationName friendLanguage) he
  · exact ⟨fun h => hsafe.mp ⟨⟨t, ht⟩, h⟩, fun h => (hsafe.mpr h).2⟩
  · obtain ⟨s', hs'⟩ := step_total s e
    rw [← (step_right h he hs').1]
    refine ⟨?_, fun hright => ⟨s', hs', hright⟩⟩
    intro hright
    obtain ⟨t, ht, hright⟩ := hright
    obtain rfl : s' = t := Option.some.inj (hs'.symm.trans ht)
    exact hright

/-- Whatever answers arrive and however the timers tick: the label shows the seconds since the first
    answer at all times and never steps back, exactly if every further answer comes in the first
    second and the first timer does not tick for the sixtieth time. -/
theorem clock_iff (name conversationName friendLanguage : String)
    (run : Runs.Schedule step Enabled (State.init name conversationName friendLanguage)) :
    (Runs.Throughout step Right (State.init name conversationName friendLanguage) run.events ∧
      Runs.Along step Forward (State.init name conversationName friendLanguage) run.events) ↔
      Runs.Along step Prompt (State.init name conversationName friendLanguage) run.events := by
  have hiff := right_iff_prompt run.enabled
  refine ⟨fun h => hiff.mp h.1, fun h => ⟨hiff.mpr h, ?_⟩⟩
  apply Runs.along_imp ?_ (fun _ _ _ => inv_prompt) (init_inv name conversationName friendLanguage)
    run.enabled h
  intro s e hinv he hprompt
  apply forward_of_right he hinv.right
  intro s' hs'
  exact (inv_prompt hinv he hprompt hs').right

def answer : Event := .childAdded [("sender_id", "3")]

/-- One answer and a minute of its timer. -/
def oneMinute : List Event := answer :: List.replicate 60 (.tick 0)

/-- A second answer after a second. -/
def secondAnswer : List Event := [answer, .tick 0, answer]

/-- A label that is not the time of the first timer. -/
theorem not_right {events : List Event} {s t : State} {label : Label} {timers : List Nat}
    (hlast : Runs.exec step s events = some t) (hend : (t.view.label, t.view.timers) = (label, timers))
    (hne : timers ≠ []) (hwrong : label ≠ .clock (timers.getD 0 0 / 60) (timers.getD 0 0 % 60)) :
    ¬ Runs.Throughout step Right s events := by
  intro h
  obtain ⟨rfl, rfl⟩ := Prod.mk.inj hend
  exact hwrong (Runs.throughout_last h hlast hne)

set_option maxRecDepth 4000 in
/-- After a minute the label shows 00:60, and a second answer sets it back to 00:00. -/
theorem oneMinute_overflows :
    Runs.Along step Enabled (State.init "ann" "6" "en") oneMinute ∧
      (∃ s, Runs.exec step (State.init "ann" "6" "en") oneMinute = some s ∧
        (s.view.label, s.view.timers) = (.clock 0 60, [60])) ∧
      ¬ Runs.Throughout step Right (State.init "ann" "6" "en") oneMinute ∧
    Runs.Along step Enabled (State.init "ann" "6" "en") secondAnswer ∧
      (∃ s, Runs.exec step (State.init "ann" "6" "en") secondAnswer = some s ∧
        (s.view.label, s.view.timers) = (.clock 0 0, [1, 0])) ∧
      ¬ Runs.Throughout step Right (State.init "ann" "6" "en") secondAnswer := by
  have hminute : ∃ s, Runs.exec step (State.init "ann" "6" "en") oneMinute = some s ∧
      (s.view.label, s.view.timers) = (.clock 0 60, [60]) := ⟨_, rfl, by decide⟩
  have hsecond : ∃ s, Runs.exec step (State.init "ann" "6" "en") secondAnswer = some s ∧
      (s.view.label, s.view.timers) = (.clock 0 0, [1, 0]) := ⟨_, rfl, by decide⟩
  refine ⟨by decide, hminute, ?_, by decide, hsecond, ?_⟩
  · obtain ⟨s, hs, hend⟩ := hminute
    exact not_right hs hend (by decide) (by decide)
  · obtain ⟨s, hs, hend⟩ := hsecond
    exact not_right hs hend (by decide) (by decide)

end CallTimer

end Shiftgram
