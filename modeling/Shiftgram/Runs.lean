import Mathlib.Data.List.Basic
import Mathlib.Data.Set.Basic

/- Runs of a step function. A program is a function `step : σ → ε → Option σ` from a state and an
   event to the next state, `none` where the code traps. Nothing here names a program. `exec` is the
   state after a list of events, `Along` says that every event of a run meets a condition in the
   state it happens in, and `Throughout` that every state of a run has a property.

   These rules carry the developments that instantiate this module:
     * `reached_ok`: what steps keep holds where a run ends, also by a trap;
     * `exec_ok`: steps that keep an invariant and do not trap give runs that do;
     * `exec_traced`: the same for an invariant about the events so far and the state;
     * `throughout_ok`, `run_ok`: all states on the way have what the invariant implies;
     * `throughout_iff_along`, `throughout_iff_along_trap`: where a single step keeps a property
       exactly under a condition, a run keeps it throughout exactly when all its steps meet the
       condition;
     * `exec_iff_along`, `exec_iff_along_trap`: the same for the last state, where a step cannot make
       up for a bad one;
     * `safe_iff_along`: the same where to trap is bad as well;
     * `along_imp`, `along_iff_along`, `throughout_imp`, `throughout_iff_throughout`: conditions on
       steps, or on states, that imply each other or are the same where an invariant holds;
     * `exec_append`, `along_append`, `exists_of_not_throughout`: a run that is stopped and goes on
       otherwise;
     * `Leads.head`, `Leads.trans`: a run that leads somewhere, put together from its pieces;
     * `total_ok`: what the steps of a run come to, where each adds to a measure of the state;
     * `collected_ok`: the same for what the steps of a run give to a list;
     * `throughout_observe`, `along_observe`: an observer takes notes of a run, which he does not
       change, and a condition can speak of the notes. -/
namespace Runs

variable {σ ε : Type}

/-- The state after the events, `none` once a step traps. -/
def exec (step : σ → ε → Option σ) : σ → List ε → Option σ
  | s, [] => some s
  | s, e :: es => (step s e).bind fun s' => exec step s' es

/-- Every event of the run from `s` meets `C` in the state it happens in. -/
def Along (step : σ → ε → Option σ) (C : σ → ε → Prop) : σ → List ε → Prop
  | _, [] => True
  | s, e :: es => C s e ∧ ∀ s', step s e = some s' → Along step C s' es

/-- Every state of the run from `s` has `P`. -/
def Throughout (step : σ → ε → Option σ) (P : σ → Prop) : σ → List ε → Prop
  | s, [] => P s
  | s, e :: es => P s ∧ ∀ s', step s e = some s' → Throughout step P s' es

instance decidableAlong {step : σ → ε → Option σ} {C : σ → ε → Prop} [∀ s e, Decidable (C s e)] :
    ∀ (s : σ) (es : List ε), Decidable (Along step C s es)
  | _, [] => isTrue trivial
  | s, e :: es =>
    match h : step s e with
    | none => decidable_of_iff (C s e) ⟨fun hC => ⟨hC, fun _ hs' => nomatch h ▸ hs'⟩, And.left⟩
    | some t =>
      have : Decidable (Along step C t es) := decidableAlong t es
      decidable_of_iff (C s e ∧ Along step C t es) (and_congr_right fun _ =>
        ⟨fun ht _ hs' => Option.some.inj (h.symm.trans hs') ▸ ht, fun hall => hall t h⟩)

/-- A list of events each of which can happen in the state it happens in. -/
structure Schedule (step : σ → ε → Option σ) (enabled : σ → ε → Prop) (s : σ) where
  events : List ε
  enabled : Along step enabled s events

/-- The last state of the run from `s`, which a step may end by a trap. -/
def reached (step : σ → ε → Option σ) : σ → List ε → σ
  | s, [] => s
  | s, e :: es =>
    match step s e with
    | some s' => reached step s' es
    | none => s

/-- Some run whose steps all meet `C` goes from one state to the other. -/
def Leads (step : σ → ε → Option σ) (C : σ → ε → Prop) (s t : σ) : Prop :=
  ∃ es, Along step C s es ∧ exec step s es = some t

/-- What the steps of the run from `s` cost together. -/
def total (step : σ → ε → Option σ) (cost : σ → ε → Nat) : σ → List ε → Nat
  | _, [] => 0
  | s, e :: es => cost s e + ((step s e).map fun s' => total step cost s' es).getD 0

/-- What the steps of the run from `s` give, one after the other. -/
def collected {α : Type} (step : σ → ε → Option σ) (gives : σ → ε → List α) : σ → List ε → List α
  | _, [] => []
  | s, e :: es => gives s e ++ ((step s e).map fun s' => collected step gives s' es).getD []

/-- The steps with an observer, who takes notes of them. -/
def observe {τ : Type} (step : σ → ε → Option σ) (note : σ → τ → ε → τ) (p : σ × τ) (e : ε) :
    Option (σ × τ) :=
  (step p.1 e).map fun s' => (s', note p.1 p.2 e)

variable {step : σ → ε → Option σ}

@[simp] theorem exec_nil (s : σ) : exec step s [] = some s := rfl

@[simp] theorem exec_cons (s : σ) (e : ε) (es : List ε) :
    exec step s (e :: es) = (step s e).bind fun s' => exec step s' es := rfl

/-- A condition on the events alone. -/
theorem along_of_forall {C : ε → Prop} {es : List ε} (h : ∀ e ∈ es, C e) (s : σ) :
    Along step (fun _ e => C e) s es := by
  induction es generalizing s with
  | nil => trivial
  | cons e es ih =>
    rw [List.forall_mem_cons] at h
    exact ⟨h.1, fun s' _ => ih h.2 s'⟩

/-- What steps keep, the last state has. -/
theorem reached_ok {I : σ → Prop} (hstep : ∀ s e s', I s → step s e = some s' → I s') {s : σ}
    (hs : I s) (es : List ε) : I (reached step s es) := by
  induction es generalizing s with
  | nil => exact hs
  | cons e es ih =>
    unfold reached
    split
    · next s' hs' => exact ih (hstep s e s' hs hs')
    · exact hs

/-- A loop that does not trap ends where it is then. -/
theorem reached_of_foldlM {s t : σ} {es : List ε} (h : es.foldlM step s = some t) :
    reached step s es = t := by
  induction es generalizing s with
  | nil => exact Option.some.inj h
  | cons e es ih =>
    obtain ⟨s', hs', hrest⟩ := Option.bind_eq_some_iff.mp h
    rw [reached, hs']
    exact ih hrest

/-- Steps that keep `I` and do not trap give runs that keep it and do not trap. -/
theorem exec_ok {I : σ → Prop} {C : σ → ε → Prop}
    (hstep : ∀ s e, I s → C s e → ∃ s', step s e = some s' ∧ I s')
    {s : σ} {es : List ε} (hs : I s) (hC : Along step C s es) :
    ∃ t, exec step s es = some t ∧ I t := by
  induction es generalizing s with
  | nil => exact ⟨s, rfl, hs⟩
  | cons e es ih =>
    obtain ⟨s', hs', hI⟩ := hstep s e hs hC.1
    obtain ⟨t, ht, hIt⟩ := ih hI (hC.2 s' hs')
    exact ⟨t, by rw [exec_cons, hs', Option.bind_some, ht], hIt⟩

/-- The same for an invariant that speaks of the events so far as well. -/
theorem exec_traced {I : List ε → σ → Prop} {C : σ → ε → Prop}
    (hstep : ∀ es s e, I es s → C s e → ∃ s', step s e = some s' ∧ I (es ++ [e]) s')
    {s : σ} {es : List ε} (hs : I [] s) (hC : Along step C s es) :
    ∃ t, exec step s es = some t ∧ I es t := by
  have hfrom : ∀ (past : List ε) (s : σ), I past s → Along step C s es →
      ∃ t, exec step s es = some t ∧ I (past ++ es) t := by
    clear hs hC
    induction es with
    | nil => exact fun past s hs _ => ⟨s, rfl, past.append_nil.symm ▸ hs⟩
    | cons e es ih =>
      intro past s hs hC
      obtain ⟨s', hs', hI⟩ := hstep past s e hs hC.1
      obtain ⟨t, ht, hIt⟩ := ih (past ++ [e]) s' hI (hC.2 s' hs')
      refine ⟨t, by rw [exec_cons, hs', Option.bind_some, ht], ?_⟩
      rwa [List.append_assoc] at hIt
  exact hfrom [] s hs hC

/-- What an invariant implies holds in all states of a run whose steps keep the invariant. -/
theorem throughout_ok {I P : σ → Prop} {C : σ → ε → Prop}
    (hstep : ∀ s e, I s → C s e → ∀ s', step s e = some s' → I s') (hP : ∀ s, I s → P s)
    {s : σ} {es : List ε} (hs : I s) (hC : Along step C s es) : Throughout step P s es := by
  induction es generalizing s with
  | nil => exact hP s hs
  | cons e es ih => exact ⟨hP s hs, fun s' hs' => ih (hstep s e hs hC.1 s' hs') (hC.2 s' hs')⟩

/-- Both, for steps that keep an invariant and do not trap. -/
theorem run_ok {I P : σ → Prop} {C : σ → ε → Prop}
    (hstep : ∀ s e, I s → C s e → ∃ s', step s e = some s' ∧ I s') (hP : ∀ s, I s → P s)
    {s : σ} {es : List ε} (hs : I s) (hC : Along step C s es) :
    (∃ t, exec step s es = some t) ∧ Throughout step P s es := by
  obtain ⟨t, ht, -⟩ := exec_ok hstep hs hC
  refine ⟨⟨t, ht⟩, throughout_ok (fun s e hI hC s' hs' => ?_) hP hs hC⟩
  obtain ⟨u, hu, hIu⟩ := hstep s e hI hC
  exact Option.some.inj (hu.symm.trans hs') ▸ hIu

/-- Where, under the bookkeeping invariant `I`, a step from a good state leads to a good state
    exactly if it meets `C`, and a step that traps meets `C`, all states of a run are good exactly if
    all its steps meet `C`. -/
theorem throughout_iff_along_trap {I P : σ → Prop} {C D : σ → ε → Prop}
    (hstep : ∀ s e s', I s → D s e → step s e = some s' → I s' ∧ (P s → (P s' ↔ C s e)))
    (htrap : ∀ s e, I s → D s e → step s e = none → C s e)
    {s : σ} {es : List ε} (hs : I s) (hP : P s) (hD : Along step D s es) :
    Throughout step P s es ↔ Along step C s es := by
  induction es generalizing s with
  | nil => exact ⟨fun _ => trivial, fun _ => hP⟩
  | cons e es ih =>
    rw [Throughout, Along, and_iff_right hP]
    cases he : step s e with
    | none =>
      have hC := htrap s e hs hD.1 he
      exact ⟨fun _ => ⟨hC, fun _ h => nomatch h⟩, fun _ _ h => nomatch h⟩
    | some s' =>
      obtain ⟨hI', hiff⟩ := hstep s e s' hs hD.1 he
      simp only [Option.some.injEq, forall_eq']
      by_cases hP' : P s'
      · rw [ih hI' hP' (hD.2 s' he), ← hiff hP, and_iff_right hP']
      · -- the step leads to a bad state, in which the rest of the run starts
        refine ⟨fun h => absurd ?_ hP', fun h => absurd ((hiff hP).mpr h.1) hP'⟩
        cases es with
        | nil => exact h
        | cons f fs => exact h.1

/-- The same where no step traps. -/
theorem throughout_iff_along {I P : σ → Prop} {C D : σ → ε → Prop}
    (hstep : ∀ s e, I s → D s e → ∃ s', step s e = some s' ∧ I s' ∧ (P s → (P s' ↔ C s e)))
    {s : σ} {es : List ε} (hs : I s) (hP : P s) (hD : Along step D s es) :
    (∃ t, exec step s es = some t) ∧ (Throughout step P s es ↔ Along step C s es) := by
  obtain ⟨t, ht, -⟩ := exec_ok (fun s e hI hD => (hstep s e hI hD).imp fun _ h => ⟨h.1, h.2.1⟩) hs hD
  refine ⟨⟨t, ht⟩, throughout_iff_along_trap (fun s e s' hI hD hs' => ?_) (fun s e hI hD hnone => ?_)
    hs hP hD⟩
  · obtain ⟨u, hu, hrest⟩ := hstep s e hI hD
    exact Option.some.inj (hu.symm.trans hs') ▸ hrest
  · obtain ⟨u, hu, -⟩ := hstep s e hI hD
    rw [hu] at hnone
    cases hnone

/-- Where a step leads to a good state exactly if it starts in one and meets `C`, a run ends in a
    good state exactly if it starts in one and all its steps meet `C`. -/
theorem exec_iff_along {I G : σ → Prop} {C D : σ → ε → Prop}
    (hstep : ∀ s e, I s → D s e → ∃ s', step s e = some s' ∧ I s' ∧ (G s' ↔ G s ∧ C s e))
    {s : σ} {es : List ε} (hs : I s) (hD : Along step D s es) :
    ∃ t, exec step s es = some t ∧ I t ∧ (G t ↔ G s ∧ Along step C s es) := by
  induction es generalizing s with
  | nil => exact ⟨s, rfl, hs, (and_iff_left trivial).symm⟩
  | cons e es ih =>
    obtain ⟨s', hs', hI', hiff⟩ := hstep s e hs hD.1
    obtain ⟨t, ht, hIt, hrest⟩ := ih hI' (hD.2 s' hs')
    have hone : (∀ u, step s e = some u → Along step C u es) ↔ Along step C s' es :=
      ⟨fun h => h s' hs', fun h u hu => Option.some.inj (hs'.symm.trans hu) ▸ h⟩
    refine ⟨t, by rw [exec_cons, hs', Option.bind_some, ht], hIt, ?_⟩
    rw [hrest, hiff, Along, hone, and_assoc]

/-- The same for a run that may trap, where it does not. -/
theorem exec_iff_along_trap {I G : σ → Prop} {C D : σ → ε → Prop}
    (hstep : ∀ s e s', I s → D s e → step s e = some s' → I s' ∧ (G s' ↔ G s ∧ C s e))
    {s t : σ} {es : List ε} (hs : I s) (hD : Along step D s es) (ht : exec step s es = some t) :
    I t ∧ (G t ↔ G s ∧ Along step C s es) := by
  induction es generalizing s with
  | nil =>
    obtain rfl := Option.some.inj ht
    exact ⟨hs, (and_iff_left trivial).symm⟩
  | cons e es ih =>
    obtain ⟨s', hs', ht'⟩ := Option.bind_eq_some_iff.mp ht
    obtain ⟨hI', hiff⟩ := hstep s e s' hs hD.1 hs'
    obtain ⟨hIt, hrest⟩ := ih hI' (hD.2 s' hs') ht'
    have hone : (∀ u, step s e = some u → Along step C u es) ↔ Along step C s' es :=
      ⟨fun h => h s' hs', fun h u hu => Option.some.inj (hs'.symm.trans hu) ▸ h⟩
    refine ⟨hIt, ?_⟩
    rw [hrest, hiff, Along, hone, and_assoc]

/-- Where a step from a state with `I` ends in a good state exactly if it meets `C`, and keeps `I`
    then, a run ends and all its states are good exactly if all its steps meet `C`. -/
theorem safe_iff_along {I P : σ → Prop} {C D : σ → ε → Prop}
    (hstep : ∀ s e, I s → D s e → ((∃ s', step s e = some s' ∧ P s') ↔ C s e))
    (hkeep : ∀ s e s', I s → D s e → C s e → step s e = some s' → I s') (hP : ∀ s, I s → P s)
    {s : σ} {es : List ε} (hs : I s) (hD : Along step D s es) :
    ((∃ t, exec step s es = some t) ∧ Throughout step P s es) ↔ Along step C s es := by
  refine ⟨?_, fun hC => ?_⟩
  · rintro ⟨⟨t, ht⟩, hall⟩
    induction es generalizing s with
    | nil => trivial
    | cons e es ih =>
      obtain ⟨s', hs', hrest⟩ := Option.bind_eq_some_iff.mp ht
      have hgood : P s' := by
        cases es with
        | nil => exact hall.2 s' hs'
        | cons f fs => exact (hall.2 s' hs').1
      have hC : C s e := (hstep s e hs hD.1).mp ⟨s', hs', hgood⟩
      refine ⟨hC, fun u hu => ?_⟩
      obtain rfl : s' = u := Option.some.inj (hs'.symm.trans hu)
      exact ih (hkeep s e s' hs hD.1 hC hs') (hD.2 s' hs') (hall.2 s' hs') hrest
  · induction es generalizing s with
    | nil => exact ⟨⟨s, rfl⟩, hP s hs⟩
    | cons e es ih =>
      obtain ⟨s', hs', -⟩ := (hstep s e hs hD.1).mpr hC.1
      obtain ⟨⟨t, ht⟩, hall⟩ := ih (hkeep s e s' hs hD.1 hC.1 hs') (hD.2 s' hs') (hC.2 s' hs')
      refine ⟨⟨t, ?_⟩, hP s hs, fun u hu => ?_⟩
      · rw [exec_cons, hs', Option.bind_some, ht]
      · obtain rfl : s' = u := Option.some.inj (hs'.symm.trans hu)
        exact hall

/-- Two conditions that are the same in states with `I`, which steps that meet the first keep. -/
theorem along_iff_along {I : σ → Prop} {C C' D : σ → ε → Prop}
    (hiff : ∀ s e, I s → D s e → (C s e ↔ C' s e))
    (hkeep : ∀ s e s', I s → D s e → C s e → step s e = some s' → I s')
    {s : σ} {es : List ε} (hs : I s) (hD : Along step D s es) :
    Along step C s es ↔ Along step C' s es := by
  induction es generalizing s with
  | nil => exact Iff.rfl
  | cons e es ih =>
    rw [Along, Along, ← hiff s e hs hD.1]
    refine and_congr_right fun hC => forall_congr' fun s' => imp_congr_right fun hs' => ?_
    exact ih (hkeep s e s' hs hD.1 hC hs') (hD.2 s' hs')

/-- A property that implies another in states with `I`, which steps keep. -/
theorem throughout_imp {I P Q : σ → Prop} {D : σ → ε → Prop}
    (hkeep : ∀ s e s', I s → D s e → step s e = some s' → I s') (himp : ∀ s, I s → P s → Q s)
    {s : σ} {es : List ε} (hs : I s) (hD : Along step D s es) (h : Throughout step P s es) :
    Throughout step Q s es := by
  induction es generalizing s with
  | nil => exact himp s hs h
  | cons e es ih =>
    refine ⟨himp s hs h.1, fun s' hs' => ?_⟩
    exact ih (hkeep s e s' hs hD.1 hs') (hD.2 s' hs') (h.2 s' hs')

/-- Two properties that are the same in states with `I`, which steps keep. -/
theorem throughout_iff_throughout {I P Q : σ → Prop} {D : σ → ε → Prop}
    (hkeep : ∀ s e s', I s → D s e → step s e = some s' → I s') (hiff : ∀ s, I s → (P s ↔ Q s))
    {s : σ} {es : List ε} (hs : I s) (hD : Along step D s es) :
    Throughout step P s es ↔ Throughout step Q s es :=
  ⟨throughout_imp hkeep (fun s hI => (hiff s hI).mp) hs hD,
    throughout_imp hkeep (fun s hI => (hiff s hI).mpr) hs hD⟩

/-- A condition that implies another in states with `I`, which steps that meet it keep. -/
theorem along_imp {I : σ → Prop} {C F D : σ → ε → Prop}
    (himp : ∀ s e, I s → D s e → C s e → F s e)
    (hkeep : ∀ s e s', I s → D s e → C s e → step s e = some s' → I s')
    {s : σ} {es : List ε} (hs : I s) (hD : Along step D s es) (hC : Along step C s es) :
    Along step F s es := by
  induction es generalizing s with
  | nil => trivial
  | cons e es ih =>
    refine ⟨himp s e hs hD.1 hC.1, fun s' hs' => ?_⟩
    exact ih (hkeep s e s' hs hD.1 hC.1 hs') (hD.2 s' hs') (hC.2 s' hs')

/-! Runs one after the other. -/

theorem exec_append (s : σ) (es fs : List ε) :
    exec step s (es ++ fs) = (exec step s es).bind fun t => exec step t fs := by
  induction es generalizing s with
  | nil => rfl
  | cons e es ih =>
    rw [List.cons_append, exec_cons, exec_cons, Option.bind_assoc]
    simp only [ih]

theorem along_append {C : σ → ε → Prop} {s : σ} {es fs : List ε} (h : Along step C s es)
    (hfs : ∀ t, exec step s es = some t → Along step C t fs) : Along step C s (es ++ fs) := by
  induction es generalizing s with
  | nil => exact hfs s rfl
  | cons e es ih =>
    refine ⟨h.1, fun s' hs' => ih (h.2 s' hs') fun t ht => hfs t ?_⟩
    rw [exec_cons, hs', Option.bind_some, ht]

theorem along_take {C : σ → ε → Prop} {s : σ} {es : List ε} (h : Along step C s es) (n : Nat) :
    Along step C s (es.take n) := by
  induction es generalizing s n with
  | nil => rwa [List.take_nil]
  | cons e es ih =>
    cases n with
    | zero => trivial
    | succ n => exact ⟨h.1, fun s' hs' => ih (h.2 s' hs') n⟩

theorem Leads.refl {C : σ → ε → Prop} (s : σ) : Leads step C s s := ⟨[], trivial, rfl⟩

theorem Leads.head {C : σ → ε → Prop} {s s' t : σ} {e : ε} (hC : C s e) (hs' : step s e = some s')
    (h : Leads step C s' t) : Leads step C s t := by
  obtain ⟨es, hes, ht⟩ := h
  refine ⟨e :: es, ⟨hC, fun u hu => ?_⟩, ?_⟩
  · obtain rfl : s' = u := Option.some.inj (hs'.symm.trans hu)
    exact hes
  · rw [exec_cons, hs', Option.bind_some, ht]

theorem Leads.trans {C : σ → ε → Prop} {s t u : σ} (h : Leads step C s t) (h' : Leads step C t u) :
    Leads step C s u := by
  obtain ⟨es, hes, ht⟩ := h
  obtain ⟨fs, hfs, hu⟩ := h'
  refine ⟨es ++ fs, along_append hes fun v hv => ?_, ?_⟩
  · obtain rfl : t = v := Option.some.inj (ht.symm.trans hv)
    exact hfs
  · rw [exec_append, ht, Option.bind_some, hu]

/-- Steps that keep `I` and add what they cost to `μ` give runs that do. -/
theorem total_ok {I : σ → Prop} {C : σ → ε → Prop} {μ : σ → Nat} {cost : σ → ε → Nat}
    (hstep : ∀ s e, I s → C s e → ∃ s', step s e = some s' ∧ I s' ∧ μ s' = μ s + cost s e)
    {s : σ} {es : List ε} (hs : I s) (hC : Along step C s es) :
    ∃ t, exec step s es = some t ∧ I t ∧ μ t = μ s + total step cost s es := by
  induction es generalizing s with
  | nil => exact ⟨s, rfl, hs, rfl⟩
  | cons e es ih =>
    obtain ⟨s', hs', hI, hone⟩ := hstep s e hs hC.1
    obtain ⟨t, ht, hIt, hrest⟩ := ih hI (hC.2 s' hs')
    refine ⟨t, by rw [exec_cons, hs', Option.bind_some, ht], hIt, ?_⟩
    rw [hrest, hone, total, hs', Option.map_some, Option.getD_some, Nat.add_assoc]

/-- Steps that keep what `I` says of the state and of what was given so far give runs that do. -/
theorem collected_ok {α : Type} {I : σ → List α → Prop} {C : σ → ε → Prop} {gives : σ → ε → List α}
    (hstep : ∀ s given e, I s given → C s e → ∃ s', step s e = some s' ∧ I s' (given ++ gives s e))
    {s : σ} {given : List α} {es : List ε} (hs : I s given) (hC : Along step C s es) :
    ∃ t, exec step s es = some t ∧ I t (given ++ collected step gives s es) := by
  induction es generalizing s given with
  | nil => exact ⟨s, rfl, given.append_nil.symm ▸ hs⟩
  | cons e es ih =>
    obtain ⟨s', hs', hI⟩ := hstep s given e hs hC.1
    obtain ⟨t, ht, hIt⟩ := ih hI (hC.2 s' hs')
    refine ⟨t, by rw [exec_cons, hs', Option.bind_some, ht], ?_⟩
    rw [collected, hs', Option.map_some, Option.getD_some, ← List.append_assoc]
    exact hIt

/-- A run that does not have `P` throughout comes to a state without it. -/
theorem exists_of_not_throughout {P : σ → Prop} {s : σ} {es : List ε}
    (h : ¬ Throughout step P s es) : ∃ n t, exec step s (es.take n) = some t ∧ ¬ P t := by
  by_cases hs : P s
  · induction es generalizing s with
    | nil => exact absurd hs h
    | cons e es ih =>
      rw [Throughout, and_iff_right hs] at h
      push Not at h
      obtain ⟨s', hs', hrest⟩ := h
      by_cases hP : P s'
      · obtain ⟨n, t, ht, hnot⟩ := ih hrest hP
        refine ⟨n + 1, t, ?_, hnot⟩
        rw [List.take_succ_cons, exec_cons, hs', Option.bind_some, ht]
      · exact ⟨1, s', by rw [List.take_succ_cons, List.take_zero, exec_cons, hs']; rfl, hP⟩
  · exact ⟨0, s, rfl, hs⟩

/-- A run all of whose states have `P` ends in one. -/
theorem throughout_last {P : σ → Prop} {s t : σ} {es : List ε}
    (h : Throughout step P s es) (ht : exec step s es = some t) : P t := by
  induction es generalizing s with
  | nil => exact (Option.some.inj ht) ▸ h
  | cons e es ih =>
    obtain ⟨s', hs', ht'⟩ := Option.bind_eq_some_iff.mp ht
    exact ih (h.2 s' hs') ht'

/-- The states of an observed run are those of the run. -/
theorem throughout_observe {τ : Type} {note : σ → τ → ε → τ} {P : σ → Prop} {s : σ} {notes : τ}
    {es : List ε} :
    Throughout (observe step note) (fun p => P p.1) (s, notes) es ↔ Throughout step P s es := by
  induction es generalizing s notes with
  | nil => exact Iff.rfl
  | cons e es ih =>
    refine and_congr_right fun _ => ?_
    cases he : step s e with
    | none => simp [observe, he]
    | some s' =>
      simp only [observe, he, Option.map_some, Option.some.injEq, forall_eq']
      exact ih

/-- A condition on the notes that comes to one on the states, where the notes are right. -/
theorem along_observe {τ : Type} {note : σ → τ → ε → τ} {I : σ → τ → Prop} {C : σ → ε → Prop}
    {F : σ × τ → ε → Prop} (hiff : ∀ s n e, I s n → (F (s, n) e ↔ C s e))
    (hkeep : ∀ s n e s', I s n → step s e = some s' → I s' (note s n e)) {s : σ} {n : τ}
    {es : List ε} (h : I s n) : Along (observe step note) F (s, n) es ↔ Along step C s es := by
  induction es generalizing s n with
  | nil => exact Iff.rfl
  | cons e es ih =>
    refine and_congr (hiff s n e h) ?_
    cases he : step s e with
    | none => simp [observe, he]
    | some s' =>
      simp only [observe, he, Option.map_some, Option.some.injEq, forall_eq']
      exact ih (hkeep s n e s' h he)

end Runs
