import Mathlib.Data.List.Perm.Basic
import Mathlib.Logic.Hydra
import Shiftgram.Tasks

/- What the tasks of chains are completed with, in every order of calls.

   Each task that was made has a meaning, the chain it is the end of. The invariant (`Inv`) says of
   a completed one that its outcome is what its meaning comes to, and of any other that exactly one
   callback is to complete it, and that this callback waits for a task whose meaning is the one that
   comes before. When nothing is left to be called, every callback waits for a task that is not
   completed, so by induction on the meaning none of them has come to anything (`Chain.tight`).

   A call may add blocks, but only those of a chain that its own block holds (`Below`). That order
   is well-founded on blocks, and so is the one on bags of them in which one is replaced by finitely
   many below it; every call takes a step down in it (`works_call`). -/
namespace Shiftgram.AWSTask

variable {ρ ε : Type}

/-! ## Tasks -/

@[simp] theorem outcome_eq_none (t : AWSTask ρ ε) : t.outcome = none ↔ t.completed = false := by
  cases h : t.completed <;> simp [outcome, h]

theorem outcome_init : (init : AWSTask ρ ε).outcome = none := rfl

theorem completed_of_outcome {t : AWSTask ρ ε} {o : Outcome ρ ε} (h : t.outcome = some o) :
    t.completed = true := by
  cases hc : t.completed with
  | true => rfl
  | false =>
    rw [(outcome_eq_none t).mpr hc] at h
    cases h

theorem outcome_of_completed {t : AWSTask ρ ε} (h : t.completed = true) :
    ∃ o, t.outcome = some o := by
  apply Option.ne_none_iff_exists'.mp
  simp [h]

/-- A task has the outcome it is completed with. -/
theorem outcome_complete {t : AWSTask ρ ε} (h : t.completed = false) (o : Outcome ρ ε) :
    (t.complete o).outcome = some o := by
  obtain ⟨hcancelled, -, -, herror⟩ := t.pending h
  cases o <;> simp [complete, outcome, hcancelled, herror]

/-! ## Meanings -/

mutual

/-- More outcomes of requests do not change what a chain has come to. -/
theorem Chain.eval_mono {σ τ : Nat → Option (Outcome ρ ε)}
    (h : ∀ n o, σ n = some o → τ n = some o) :
    ∀ {c : Chain ρ ε} {o : Outcome ρ ε}, c.eval σ = some o → c.eval τ = some o
  | .request n, o, hc => h n o hc
  | .completed _, _, hc => hc
  | .continueWith task block, o, hc => by
    obtain ⟨p, hp, hreply⟩ := Option.bind_eq_some_iff.mp hc
    exact Option.bind_eq_some_iff.mpr
      ⟨p, Chain.eval_mono h hp, Reply.eval_mono h (r := block p) hreply⟩

theorem Reply.eval_mono {σ τ : Nat → Option (Outcome ρ ε)}
    (h : ∀ n o, σ n = some o → τ n = some o) {p : Outcome ρ ε} :
    ∀ {r : Reply ρ ε} {o : Outcome ρ ε}, r.eval σ p = some o → r.eval τ p = some o
  | .value _, _, hr => hr
  | .antecedent, _, hr => hr
  | .task c, _, hr => Chain.eval_mono h (c := c) hr

end

theorem getElem?_more {chains : List (Chain ρ ε)} {k : Nat} {c : Chain ρ ε}
    (h : chains[k]? = some c) (more : List (Chain ρ ε)) : (chains ++ more)[k]? = some c := by
  have hk : k < chains.length := (List.getElem?_eq_some_iff.mp h).1
  rw [List.getElem?_append_left hk, h]

theorem meaning_append {chains : List (Chain ρ ε)} {ref : Ref} {c : Chain ρ ε}
    (h : meaning chains ref = some c) (more : List (Chain ρ ε)) :
    meaning (chains ++ more) ref = some c := by
  cases ref with
  | request n => exact h
  | made k => exact getElem?_more h more

/-! ## The invariant -/

/-- The callbacks that were not called. -/
def State.pending (s : State ρ ε) : List (Job ρ ε) := s.jobs ++ s.callbacks

/-- The block that is to complete the task was called, once, with what `p` comes to. -/
def Called (s : State ρ ε) (k : Nat) (p : Chain ρ ε) (o : Outcome ρ ε) : Prop :=
  p.eval s.known = some o ∧ s.called k = [o]

/-- The callback completes its task as the task's chain says. -/
def Right (s : State ρ ε) (chains : List (Chain ρ ε)) (job : Job ρ ε) : Prop :=
  ∃ c, meaning chains job.task = some c ∧
    match job.work with
    | .block block => chains[job.tcs]? = some (.continueWith c block) ∧ s.called job.tcs = []
    | .setup =>
      ∃ p block o, chains[job.tcs]? = some (.continueWith p block) ∧ Called s job.tcs p o ∧
        block o = .task c

/-- The outcome of a task is what its chain comes to. -/
def Ended (s : State ρ ε) (chains : List (Chain ρ ε)) (k : Nat) (o : Outcome ρ ε) : Prop :=
  ∃ c, chains[k]? = some c ∧ c.eval s.known = some o ∧
    ∀ p block, c = .continueWith p block → ∃ o, Called s k p o

/-- `held` are the tasks whose block, or inner task, is being dealt with. -/
structure Inv (s : State ρ ε) (chains : List (Chain ρ ε)) (held : List Nat) : Prop where
  length : chains.length = s.made.length
  jobs : ∀ job ∈ s.jobs, (s.task job.task).completed = true
  callbacks : ∀ job ∈ s.callbacks, (s.task job.task).completed = false
  /-- Each task that is not completed is to be completed by one callback. -/
  nodup : (held ++ s.pending.map (·.tcs)).Nodup
  owed : ∀ k, k ∈ held ++ s.pending.map (·.tcs) ↔
    k < s.made.length ∧ (s.task (.made k)).completed = false
  right : ∀ job ∈ s.pending, Right s chains job
  ended : ∀ k < s.made.length, ∀ o, (s.task (.made k)).outcome = some o → Ended s chains k o
  calls : ∀ call ∈ s.calls, call.1 < s.made.length
  started : ∀ chain ∈ s.started, meaning chains chain.2 = some chain.1

theorem inv_init : Inv (State.init : State ρ ε) [] [] where
  length := rfl
  jobs := nofun
  callbacks := nofun
  nodup := List.nodup_nil
  owed := by simp [State.pending, State.init]
  right := nofun
  ended := by simp [State.init]
  calls := nofun
  started := nofun

/-- `s'` knows what `s` knows of the requests, and of the calls for `k`. -/
structure Knows (s s' : State ρ ε) (k : Nat) : Prop where
  known : ∀ n o, s.known n = some o → s'.known n = some o
  called : s'.called k = s.called k

theorem Called.mono {s s' : State ρ ε} {k : Nat} {p : Chain ρ ε} {o : Outcome ρ ε}
    (h : Called s k p o) (hs : Knows s s' k) : Called s' k p o :=
  ⟨Chain.eval_mono hs.known h.1, hs.called.trans h.2⟩

theorem Right.mono {s s' : State ρ ε} {chains : List (Chain ρ ε)} {job : Job ρ ε}
    (h : Right s chains job) (hs : Knows s s' job.tcs) (more : List (Chain ρ ε)) :
    Right s' (chains ++ more) job := by
  obtain ⟨c, hc, hwork⟩ := h
  refine ⟨c, meaning_append hc more, ?_⟩
  split at hwork
  · exact ⟨getElem?_more hwork.1 more, hs.called.trans hwork.2⟩
  · obtain ⟨p, block, o, hp, hcalled, hreply⟩ := hwork
    exact ⟨p, block, o, getElem?_more hp more, hcalled.mono hs, hreply⟩

theorem Ended.mono {s s' : State ρ ε} {chains : List (Chain ρ ε)} {k : Nat} {o : Outcome ρ ε}
    (h : Ended s chains k o) (hs : Knows s s' k) (more : List (Chain ρ ε)) :
    Ended s' (chains ++ more) k o := by
  obtain ⟨c, hc, hval, hcalled⟩ := h
  refine ⟨c, getElem?_more hc more, Chain.eval_mono hs.known hval, ?_⟩
  intro p block hcont
  obtain ⟨o', ho'⟩ := hcalled p block hcont
  exact ⟨o', ho'.mono hs⟩

/-- The outcome of any task is what its chain comes to. -/
theorem Inv.eval {s : State ρ ε} {chains : List (Chain ρ ε)} {held : List Nat}
    (h : Inv s chains held) {ref : Ref} {c : Chain ρ ε} (hc : meaning chains ref = some c)
    {o : Outcome ρ ε} (ho : (s.task ref).outcome = some o) : c.eval s.known = some o := by
  cases ref with
  | request n =>
    cases hc
    exact ho
  | made k =>
    have hk : k < s.made.length := h.length ▸ (List.getElem?_eq_some_iff.mp hc).1
    obtain ⟨c', hc', hval, -⟩ := h.ended k hk o ho
    cases hc.symm.trans hc'
    exact hval

/-! ## Completing a task -/

/-- The task is completed with `o`, and its callbacks are given to their executors. -/
structure Settled (s : State ρ ε) (ref : Ref) (o : Outcome ρ ε) (s' : State ρ ε) : Prop where
  pending : s'.pending.Perm s.pending
  jobs : ∀ job ∈ s'.jobs, job ∈ s.jobs ∨ job.task = ref
  callbacks : ∀ job ∈ s'.callbacks, job ∈ s.callbacks ∧ job.task ≠ ref
  outcome : (s'.task ref).outcome = some o
  other : ∀ r, r ≠ ref → s'.task r = s.task r
  length : s'.made.length = s.made.length
  calls : s'.calls = s.calls
  started : s'.started = s.started

/-- The tasks of chains that the reference names. -/
def Ref.owner : Ref → List Nat
  | .request _ => []
  | .made k => [k]

theorem task_setTask {s : State ρ ε} {ref : Ref} (hrange : ∀ k ∈ ref.owner, k < s.made.length)
    (t : AWSTask ρ ε) (r : Ref) : (s.setTask t ref).task r = if r = ref then t else s.task r := by
  cases ref with
  | request n => cases r <;> simp [State.setTask, State.task]
  | made k =>
    have hk : k < s.made.length := hrange k (List.mem_singleton_self k)
    cases r with
    | request n => rfl
    | made j =>
      by_cases hj : j = k
      · simp [State.setTask, State.task, hj, hk]
      · simp [State.setTask, State.task, hj, Ne.symm hj]

theorem pending_settle {s s' : State ρ ε} {ref : Ref} {o : Outcome ρ ε}
    (h : s.settle ref o = some s') : s'.pending.Perm s.pending := by
  unfold State.settle at h
  split at h
  · cases h
  · cases h
    simp only [State.pending, List.append_assoc, decide_not]
    exact (List.filter_append_perm _ _).append_left s.jobs

theorem settle_spec {s : State ρ ε} (ref : Ref) (hrange : ∀ k ∈ ref.owner, k < s.made.length)
    (h : (s.task ref).completed = false) (o : Outcome ρ ε) :
    ∃ s', s.settle ref o = some s' ∧ Settled s ref o s' := by
  have hsettle : s.settle ref o = some _ := if_neg (by simp [h])
  refine ⟨_, hsettle, ?_⟩
  have htask : ∀ r, State.task { s.setTask ((s.task ref).complete o) ref with
      callbacks := s.callbacks.filter fun job => job.task ≠ ref
      jobs := s.jobs ++ s.callbacks.filter fun job => job.task = ref } r =
      if r = ref then (s.task ref).complete o else s.task r := task_setTask hrange _
  constructor
  case pending => exact pending_settle hsettle
  case jobs =>
    intro job hjob
    rcases List.mem_append.mp hjob with hjob | hjob
    · exact .inl hjob
    · exact .inr (by simpa using (List.mem_filter.mp hjob).2)
  case callbacks =>
    intro job hjob
    simpa using List.mem_filter.mp hjob
  case outcome =>
    rw [htask, if_pos rfl]
    exact outcome_complete h o
  case other =>
    intro r hr
    rw [htask, if_neg hr]
  case length => cases ref <;> simp [State.setTask]
  case calls => cases ref <;> rfl
  case started => cases ref <;> rfl

/-- A completion that fits the task's chain keeps the invariant. -/
theorem Inv.settled {s s' : State ρ ε} {chains : List (Chain ρ ε)} {held : List Nat} {ref : Ref}
    {o : Outcome ρ ε} (h : Inv s chains (ref.owner ++ held)) (hs : Settled s ref o s')
    (hfree : (s.task ref).completed = false) {c : Chain ρ ε} (hc : meaning chains ref = some c)
    (hval : c.eval s'.known = some o)
    (hcalled : ∀ k ∈ ref.owner, ∀ p block, c = .continueWith p block → ∃ o, Called s k p o) :
    Inv s' chains held := by
  have hknows : ∀ k, Knows s s' k := by
    intro k
    refine ⟨?_, by rw [State.called, State.called, hs.calls]⟩
    intro n o' ho'
    by_cases hn : Ref.request n = ref
    · subst hn
      have hnone : s.known n = none := (outcome_eq_none _).mpr hfree
      rw [hnone] at ho'
      cases ho'
    · exact (congrArg AWSTask.outcome (hs.other _ hn)).trans ho'
  have hperm : (s'.pending.map (·.tcs)).Perm (s.pending.map (·.tcs)) := hs.pending.map _
  have hnodup := h.nodup
  rw [List.append_assoc] at hnodup
  have hchains : chains ++ [] = chains := List.append_nil _
  constructor
  case length => exact h.length.trans hs.length.symm
  case jobs =>
    intro job hjob
    -- one of its callbacks, or one that had a completed task before
    by_cases href : job.task = ref
    · rw [href]
      exact completed_of_outcome hs.outcome
    · rw [hs.other _ href]
      exact h.jobs job ((hs.jobs job hjob).resolve_right href)
  case callbacks =>
    intro job hjob
    obtain ⟨hin, href⟩ := hs.callbacks job hjob
    rw [hs.other _ href]
    exact h.callbacks job hin
  case nodup =>
    exact ((hperm.append_left held).nodup_iff).mpr (List.nodup_append.mp hnodup).2.1
  case owed =>
    intro k
    rw [(hperm.append_left held).mem_iff, hs.length]
    by_cases hk : Ref.made k = ref
    -- the task itself is completed now, and by `nodup` no callback completes it again
    · subst hk
      have hout : k ∉ held ++ s.pending.map (·.tcs) := fun hin =>
        (List.nodup_append.mp hnodup).2.2 k (List.mem_singleton_self k) k hin rfl
      simp [hout, completed_of_outcome hs.outcome]
    · have hone : k ∉ ref.owner := by
        cases ref with
        | request n => simp [Ref.owner]
        | made j => simpa [Ref.owner] using fun hj => hk (congrArg Ref.made hj)
      rw [hs.other _ hk, ← h.owed k, List.append_assoc, List.mem_append (s := ref.owner)]
      simp [hone]
  case right =>
    intro job hjob
    have hright := (h.right job (hs.pending.mem_iff.mp hjob)).mono (hknows job.tcs) []
    rwa [hchains] at hright
  case ended =>
    intro k hk o' ho'
    by_cases href : Ref.made k = ref
    · subst href
      rw [hs.outcome] at ho'
      cases ho'
      refine ⟨c, hc, hval, ?_⟩
      intro p block hcont
      obtain ⟨q, hq⟩ := hcalled k (List.mem_singleton_self k) p block hcont
      exact ⟨q, hq.mono (hknows k)⟩
    · rw [hs.other _ href] at ho'
      have hended := (h.ended k (hs.length ▸ hk) o' ho').mono (hknows k) []
      rwa [hchains] at hended
  case calls =>
    rw [hs.calls, hs.length]
    exact h.calls
  case started =>
    rw [hs.started]
    exact h.started

/-! ## Adding a callback -/

@[simp] theorem made_add (s : State ρ ε) (job : Job ρ ε) : (s.add job).made = s.made := by
  unfold State.add
  split <;> rfl

@[simp] theorem requests_add (s : State ρ ε) (job : Job ρ ε) :
    (s.add job).requests = s.requests := by
  unfold State.add
  split <;> rfl

@[simp] theorem calls_add (s : State ρ ε) (job : Job ρ ε) : (s.add job).calls = s.calls := by
  unfold State.add
  split <;> rfl

@[simp] theorem started_add (s : State ρ ε) (job : Job ρ ε) :
    (s.add job).started = s.started := by
  unfold State.add
  split <;> rfl

@[simp] theorem task_add (s : State ρ ε) (job : Job ρ ε) (r : Ref) :
    (s.add job).task r = s.task r := by
  cases r <;> simp [State.task]

theorem pending_add (s : State ρ ε) (job : Job ρ ε) :
    (s.add job).pending.Perm (job :: s.pending) := by
  unfold State.add
  split
  · simp [State.pending]
  · simp only [State.pending, ← List.append_assoc]
    exact List.perm_append_singleton job (s.jobs ++ s.callbacks)

/-- A callback that is right takes a task over. -/
theorem Inv.add {s : State ρ ε} {chains : List (Chain ρ ε)} {held : List Nat} {job : Job ρ ε}
    (h : Inv s chains (job.tcs :: held)) (hright : Right s chains job) :
    Inv (s.add job) chains held := by
  have hknows : ∀ k, Knows s (s.add job) k := fun k =>
    ⟨fun n o ho => by simpa [State.known] using ho, by simp [State.called]⟩
  have hperm : (held ++ (s.add job).pending.map (·.tcs)).Perm
      (job.tcs :: held ++ s.pending.map (·.tcs)) :=
    (((pending_add s job).map (·.tcs)).append_left held).trans List.perm_middle
  have hkeep : ∀ job', Right s chains job' → Right (s.add job) chains job' := by
    intro job' h'
    simpa using h'.mono (hknows job'.tcs) []
  constructor
  case length => simpa using h.length
  case jobs =>
    intro job' hjob
    rw [task_add]
    unfold State.add at hjob
    split at hjob
    · next hcompleted =>
      rcases List.mem_append.mp hjob with hjob | hjob
      · exact h.jobs job' hjob
      · rw [List.mem_singleton.mp hjob]
        exact hcompleted
    · exact h.jobs job' hjob
  case callbacks =>
    intro job' hjob
    rw [task_add]
    unfold State.add at hjob
    split at hjob
    · exact h.callbacks job' hjob
    · next hfree =>
      rcases List.mem_append.mp hjob with hjob | hjob
      · exact h.callbacks job' hjob
      · rw [List.mem_singleton.mp hjob]
        simpa using hfree
  case nodup => exact hperm.nodup_iff.mpr h.nodup
  case owed =>
    intro k
    rw [hperm.mem_iff, task_add, made_add]
    exact h.owed k
  case right =>
    intro job' hjob
    rcases List.mem_cons.mp ((pending_add s job).mem_iff.mp hjob) with rfl | hjob
    · exact hkeep _ hright
    · exact hkeep job' (h.right job' hjob)
  case ended =>
    intro k hk o ho
    rw [made_add] at hk
    rw [task_add] at ho
    simpa using (h.ended k hk o ho).mono (hknows k) []
  case calls => simpa using h.calls
  case started => simpa using h.started

/-! ## Putting a chain together -/

/-- What stays when a chain is put together. -/
structure Built (s s' : State ρ ε) : Prop where
  requests : s'.requests = s.requests
  calls : s'.calls = s.calls
  started : s'.started = s.started

/-- A new task, which is not completed or has what its chain comes to. -/
theorem Inv.push {s : State ρ ε} {chains : List (Chain ρ ε)} {held : List Nat}
    (h : Inv s chains held) (t : AWSTask ρ ε) (c : Chain ρ ε)
    (hnew : ∀ o, t.outcome = some o → c = .completed o) :
    Inv { s with made := s.made ++ [t] } (chains ++ [c])
      (if t.completed then held else s.made.length :: held) := by
  set s' : State ρ ε := { s with made := s.made ++ [t] } with hs'
  have hlength : s'.made.length = s.made.length + 1 := by simp [hs']
  have hknows : ∀ k, Knows s s' k := fun k => ⟨fun n o ho => ho, rfl⟩
  have hlt : ∀ k ∈ held ++ s.pending.map (·.tcs), k < s.made.length := fun k hk =>
    ((h.owed k).mp hk).1
  have hold : ∀ k < s.made.length, s'.task (.made k) = s.task (.made k) := by
    intro k hk
    simp [hs', State.task, List.getElem?_append_left hk]
  have hlast : s'.task (.made s.made.length) = t := by simp [hs', State.task]
  -- a callback waits for a task that was there before
  have hstill : ∀ job ∈ s.pending, s'.task job.task = s.task job.task := by
    intro job hjob
    obtain ⟨c', hc', -⟩ := h.right job hjob
    cases href : job.task with
    | request n => rfl
    | made k =>
      rw [href] at hc'
      exact hold k (h.length ▸ (List.getElem?_eq_some_iff.mp hc').1)
  constructor
  case length => simp [hs', h.length]
  case jobs =>
    intro job hjob
    rw [hstill job (List.mem_append_left _ hjob)]
    exact h.jobs job hjob
  case callbacks =>
    intro job hjob
    rw [hstill job (List.mem_append_right _ hjob)]
    exact h.callbacks job hjob
  case nodup =>
    split
    · exact h.nodup
    · exact List.nodup_cons.mpr ⟨fun hin => Nat.lt_irrefl _ (hlt _ hin), h.nodup⟩
  case owed =>
    intro k
    have hpending : s'.pending = s.pending := rfl
    have hmem : k ∈ (if t.completed then held else s.made.length :: held) ++
        s.pending.map (·.tcs) ↔ k ∈ held ++ s.pending.map (·.tcs) ∨
          k = s.made.length ∧ t.completed = false := by
      cases t.completed <;> simp [or_comm]
    rw [hpending, hmem, h.owed, hlength]
    rcases Nat.lt_trichotomy k s.made.length with hk | rfl | hk
    · rw [hold k hk]
      have hne : k ≠ s.made.length := Nat.ne_of_lt hk
      have hk' : k < s.made.length + 1 := Nat.lt_succ_of_lt hk
      simp [hk, hk', hne]
    · simp [hlast]
    · have hne : k ≠ s.made.length := Nat.ne_of_gt hk
      have hlt' : ¬k < s.made.length := Nat.lt_asymm hk
      have hk' : ¬k < s.made.length + 1 := by omega
      simp [hlt', hk', hne]
  case right =>
    intro job hjob
    exact (h.right job hjob).mono (hknows _) [c]
  case ended =>
    intro k hk o ho
    by_cases hlast' : k = s.made.length
    · subst hlast'
      rw [hlast] at ho
      have hc := hnew o ho
      refine ⟨c, by simp [← h.length], by simp [hc, Chain.eval], ?_⟩
      intro p block hcont
      rw [hc] at hcont
      cases hcont
    · have hk' : k < s.made.length := by omega
      rw [hold k hk'] at ho
      exact (h.ended k hk' o ho).mono (hknows k) [c]
  case calls =>
    intro call hcall
    have := h.calls call hcall
    omega
  case started =>
    intro chain hchain
    exact meaning_append (h.started chain hchain) [c]

/-- A block that is added to a task whose chain is `c`. -/
theorem continueWith_ok {s : State ρ ε} {chains : List (Chain ρ ε)} {held : List Nat}
    (h : Inv s chains held) {ref : Ref} {c : Chain ρ ε} (hc : meaning chains ref = some c)
    (block : Outcome ρ ε → Reply ρ ε) :
    Inv (s.continueWith ref block).2 (chains ++ [.continueWith c block]) held ∧
      meaning (chains ++ [.continueWith c block]) (s.continueWith ref block).1 =
        some (.continueWith c block) ∧
      Built s (s.continueWith ref block).2 := by
  have hlast : (chains ++ [Chain.continueWith c block])[s.made.length]? =
      some (.continueWith c block) := by simp [← h.length]
  have hpush : Inv { s with made := s.made ++ [AWSTask.init] } (chains ++ [.continueWith c block])
      (s.made.length :: held) :=
    h.push AWSTask.init _ fun o ho => nomatch outcome_init.symm.trans ho
  -- no block completes the new task yet, since every call was for a task that was there
  have hcalled : s.called s.made.length = [] := by
    have hnone : ∀ call ∈ s.calls, ¬call.1 = s.made.length := fun call hcall =>
      Nat.ne_of_lt (h.calls call hcall)
    simpa [State.called] using hnone
  refine ⟨hpush.add ⟨c, meaning_append hc _, hlast, hcalled⟩, hlast, ?_⟩
  exact ⟨requests_add _ _, calls_add _ _, started_add _ _⟩

theorem build_ok :
    ∀ (c : Chain ρ ε) {s : State ρ ε} {chains : List (Chain ρ ε)} {held : List Nat},
      Inv s chains held → Inv (s.build c).2 (chains ++ c.tasks) held ∧
        meaning (chains ++ c.tasks) (s.build c).1 = some c ∧ Built s (s.build c).2
  | .request n, s, chains, held, h => by
    refine ⟨?_, rfl, rfl, rfl, rfl⟩
    rw [Chain.tasks, List.append_nil]
    exact h
  | .completed o, s, chains, held, h => by
    have hout := outcome_complete (t := (AWSTask.init : AWSTask ρ ε)) rfl o
    have hpush := h.push (AWSTask.init.complete o) (.completed o) fun o' ho' => by
      rw [hout] at ho'
      cases ho'
      rfl
    rw [if_pos (completed_of_outcome hout)] at hpush
    exact ⟨hpush, by simp [State.build, meaning, Chain.tasks, ← h.length], rfl, rfl, rfl⟩
  | .continueWith task block, s, chains, held, h => by
    obtain ⟨hs, hmeaning, hbuilt⟩ := build_ok task h
    obtain ⟨hs', hmeaning', hbuilt'⟩ := continueWith_ok hs hmeaning block
    rw [List.append_assoc] at hs' hmeaning'
    exact ⟨hs', hmeaning', hbuilt'.requests.trans hbuilt.requests,
      hbuilt'.calls.trans hbuilt.calls, hbuilt'.started.trans hbuilt.started⟩

/-! ## Calls -/

/-- A task is held whose chain comes to `o`. -/
structure Holds (s : State ρ ε) (chains : List (Chain ρ ε)) (k : Nat) (c : Chain ρ ε) : Prop where
  meaning : chains[k]? = some c
  called : ∀ p block, c = .continueWith p block → ∃ o, Called s k p o

/-- A held task is completed with what its chain comes to. -/
theorem settle_ok {s : State ρ ε} {chains : List (Chain ρ ε)} {held : List Nat} {k : Nat}
    {c : Chain ρ ε} {o : Outcome ρ ε} (h : Inv s chains (k :: held)) (hk : Holds s chains k c)
    (hval : c.eval s.known = some o) :
    ∃ s', s.settle (.made k) o = some s' ∧ Inv s' chains held := by
  obtain ⟨hlt, hfree⟩ := (h.owed k).mp (by simp)
  have hrange : ∀ j ∈ (Ref.made k).owner, j < s.made.length := by
    intro j hj
    rw [List.mem_singleton.mp hj]
    exact hlt
  obtain ⟨s', hs', hsettled⟩ := settle_spec (.made k) hrange hfree o
  have hsame : s'.known = s.known := by
    funext n
    exact congrArg AWSTask.outcome (hsettled.other (.request n) (by simp))
  refine ⟨s', hs', h.settled hsettled hfree hk.meaning (by rw [hsame]; exact hval) ?_⟩
  intro j hj
  rw [List.mem_singleton.mp hj]
  exact hk.called

/-- A task that a block returned completes the block's task, or has to be waited for. -/
theorem returned_ok {s : State ρ ε} {chains : List (Chain ρ ε)} {held : List Nat} {k : Nat}
    {p q : Chain ρ ε} {block : Outcome ρ ε → Reply ρ ε} {o : Outcome ρ ε} {ref : Ref}
    (h : Inv s chains (k :: held)) (hk : chains[k]? = some (.continueWith p block))
    (hcalled : Called s k p o) (hq : meaning chains ref = some q)
    (hreply : (block o).eval s.known o = q.eval s.known)
    (hwait : (s.task ref).completed = false → block o = .task q) :
    ∃ s', s.returned k ref = some s' ∧ Inv s' chains held := by
  unfold State.returned
  split
  · next o' ho' =>
    refine settle_ok h ⟨hk, ?_⟩ ?_
    · rintro p' block' ⟨⟩
      exact ⟨o, hcalled⟩
    · rw [Chain.eval, hcalled.1, Option.bind_some, hreply]
      exact h.eval hq ho'
  · next hnone =>
    refine ⟨_, rfl, h.add ⟨q, hq, ?_⟩⟩
    exact ⟨p, block, o, hk, hcalled, hwait ((outcome_eq_none _).mp hnone)⟩

/-- The call of a block is recorded for the task that it is to complete. -/
theorem Inv.call {s : State ρ ε} {chains : List (Chain ρ ε)} {held : List Nat} {k : Nat}
    (h : Inv s chains (k :: held)) (o : Outcome ρ ε) :
    Inv { s with calls := s.calls ++ [(k, o)] } chains (k :: held) := by
  obtain ⟨hlt, hfree⟩ := (h.owed k).mp (by simp)
  have hknows : ∀ j ≠ k, Knows s { s with calls := s.calls ++ [(k, o)] } j := fun j hj =>
    ⟨fun n o ho => ho, by simp [State.called, hj.symm]⟩
  have hother : ∀ job ∈ s.pending, job.tcs ≠ k := by
    intro job hjob htcs
    have hnodup := h.nodup
    rw [List.cons_append, List.nodup_cons] at hnodup
    exact hnodup.1 (List.mem_append_right _ (List.mem_map.mpr ⟨job, hjob, htcs⟩))
  refine ⟨h.length, h.jobs, h.callbacks, h.nodup, h.owed, ?_, ?_, ?_, h.started⟩
  · intro job hjob
    simpa using (h.right job hjob).mono (hknows _ (hother job hjob)) []
  · intro j hj o' ho'
    have hne : j ≠ k := by
      rintro rfl
      have hnone : (s.task (.made j)).outcome = none := (outcome_eq_none _).mpr hfree
      cases hnone.symm.trans ho'
    simpa using (h.ended j hj o' ho').mono (hknows j hne) []
  · intro call hcall
    rcases List.mem_append.mp hcall with hcall | hcall
    · exact h.calls call hcall
    · rw [List.mem_singleton.mp hcall]
      exact hlt

/-- A callback whose task is completed is called, and nothing traps. -/
theorem perform_ok {s : State ρ ε} {chains : List (Chain ρ ε)} {held : List Nat} {job : Job ρ ε}
    (h : Inv s chains (job.tcs :: held)) (hright : Right s chains job)
    (hcompleted : (s.task job.task).completed = true) :
    ∃ s', s.perform job = some s' ∧
      Inv s' (chains ++ job.work.tasks (s.task job.task).outcome) held := by
  obtain ⟨o, ho⟩ := outcome_of_completed hcompleted
  obtain ⟨task, work, tcs⟩ := job
  obtain ⟨c, hc, hwork⟩ := hright
  have hval : c.eval s.known = some o := h.eval hc ho
  cases work with
  | setup =>
    obtain ⟨p, block, q, hp, hcalled, hreply⟩ := hwork
    obtain ⟨s', hs', hinv⟩ := settle_ok (o := o) h ⟨hp, by rintro _ _ ⟨⟩; exact ⟨q, hcalled⟩⟩
      (by simp [Chain.eval, hcalled.1, hreply, Reply.eval, hval])
    refine ⟨s', ?_, by simpa [Work.tasks] using hinv⟩
    simpa [State.perform, ho] using hs'
  | block block =>
    obtain ⟨hchain, hnone⟩ := hwork
    set called : State ρ ε := { s with calls := s.calls ++ [(tcs, o)] } with hset
    have hinv : Inv called chains (tcs :: held) := h.call o
    have hcalled : Called called tcs c o := ⟨hval, by
      have : called.called tcs = s.called tcs ++ [o] := by simp [hset, State.called]
      rw [this, hnone, List.nil_append]⟩
    cases hreply : block o with
    | value r =>
      obtain ⟨s', hs', hs⟩ := settle_ok (o := .result r) hinv
        ⟨hchain, by rintro _ _ ⟨⟩; exact ⟨o, hcalled⟩⟩
        (by simp [Chain.eval, hcalled.1, hreply, Reply.eval])
      exact ⟨s', by simpa [State.perform, ho, hreply] using hs',
        by simpa [Work.tasks, ho, hreply, Reply.tasks] using hs⟩
    | antecedent =>
      obtain ⟨s', hs', hs⟩ := returned_ok hinv hchain hcalled hc
        (by rw [hreply, Reply.eval]; exact hcalled.1.symm)
        (fun hfree => absurd (hcompleted.symm.trans hfree) (by simp))
      exact ⟨s', by simpa [State.perform, ho, hreply] using hs',
        by simpa [Work.tasks, ho, hreply, Reply.tasks] using hs⟩
    | task q =>
      obtain ⟨hbuild, hq, hbuilt⟩ := build_ok q hinv
      have hknown : (called.build q).2.known = called.known := by
        funext n
        simp [State.known, hbuilt.requests]
      have hcalled' : Called (called.build q).2 tcs c o := by
        refine ⟨by rw [hknown]; exact hcalled.1, ?_⟩
        rw [State.called, hbuilt.calls]
        exact hcalled.2
      obtain ⟨s', hs', hs⟩ := returned_ok hbuild (getElem?_more hchain q.tasks)
        hcalled' hq (by rw [hreply, Reply.eval]) fun _ => hreply
      exact ⟨s', by simpa [State.perform, ho, hreply] using hs',
        by simpa [Work.tasks, ho, hreply, Reply.tasks] using hs⟩

/-! ## Runs -/

theorem inv_step {s : State ρ ε} {chains : List (Chain ρ ε)} (h : Inv s chains [])
    {e : Event ρ ε} (he : Enabled s e) :
    ∃ s', step s e = some s' ∧ Inv s' (chains ++ s.makes e) [] := by
  cases e with
  | start c =>
    obtain ⟨hs, hc, hbuilt⟩ := build_ok c h
    refine ⟨_, rfl, { hs with started := ?_ }⟩
    intro chain hchain
    rcases List.mem_append.mp hchain with hchain | hchain
    · exact hs.started chain hchain
    · rw [List.mem_singleton.mp hchain]
      exact hc
  | continueWith i block =>
    have hchain : s.started[i]? = some s.started[i] := List.getElem?_eq_getElem he
    have hmakes : s.makes (.continueWith i block) = [.continueWith s.started[i].1 block] := by
      simp [State.makes, hchain]
    obtain ⟨hs, hc, hbuilt⟩ :=
      continueWith_ok h (h.started s.started[i] (List.getElem_mem he)) block
    rw [← hmakes] at hs hc
    refine ⟨{ (s.continueWith s.started[i].2 block).2 with started :=
        (s.continueWith s.started[i].2 block).2.started ++
          [(.continueWith s.started[i].1 block, (s.continueWith s.started[i].2 block).1)] },
      by rw [step, hchain, Option.map_some], { hs with started := ?_ }⟩
    intro chain hchain
    rcases List.mem_append.mp hchain with hchain | hchain
    · exact hs.started chain hchain
    · rw [List.mem_singleton.mp hchain]
      exact hc
  | ended n o =>
    obtain ⟨s', hs', hsettled⟩ := settle_spec (.request n) nofun he o
    refine ⟨s', hs', ?_⟩
    rw [State.makes, List.append_nil]
    exact h.settled hsettled he rfl hsettled.outcome nofun
  | call k =>
    have hjob : s.jobs[k]? = some s.jobs[k] := List.getElem?_eq_getElem he
    have hperm : s.pending.Perm (s.jobs[k] :: ({ s with jobs := s.jobs.eraseIdx k }).pending) :=
      ((List.getElem_cons_eraseIdx_perm he).symm.append_right s.callbacks)
    have hin : s.jobs[k] ∈ s.pending := List.mem_append_left _ (List.getElem_mem he)
    have hknows : ∀ j, Knows s { s with jobs := s.jobs.eraseIdx k } j := fun _ =>
      ⟨fun n o ho => ho, rfl⟩
    have hheld : Inv { s with jobs := s.jobs.eraseIdx k } chains [s.jobs[k].tcs] := by
      have htcs := hperm.map (·.tcs)
      refine ⟨h.length, ?_, h.callbacks, ?_, ?_, ?_, h.ended, h.calls, h.started⟩
      · exact fun job hjob => h.jobs job (List.mem_of_mem_eraseIdx hjob)
      · exact htcs.nodup_iff.mp h.nodup
      · intro j
        exact (htcs.mem_iff (a := j)).symm.trans (h.owed j)
      · intro job hjob
        simpa using (h.right job (hperm.mem_iff.mpr (List.mem_cons_of_mem _ hjob))).mono
          (hknows job.tcs) []
    have hright : Right { s with jobs := s.jobs.eraseIdx k } chains s.jobs[k] := by
      simpa using (h.right _ hin).mono (hknows s.jobs[k].tcs) []
    have hmakes : s.makes (.call k) = s.jobs[k].work.tasks (s.task s.jobs[k].task).outcome := by
      simp [State.makes, hjob]
    obtain ⟨s', hs', hs⟩ := perform_ok hheld hright (h.jobs _ (List.getElem_mem he))
    exact ⟨s', by rw [step, hjob, Option.bind_some, hs'], hmakes ▸ hs⟩

/-! ## Nothing left to be called -/

/-- What is not completed then waits for a task that is not. -/
theorem Inv.waits {s : State ρ ε} {chains : List (Chain ρ ε)} (h : Inv s chains [])
    {k : Nat} {c : Chain ρ ε} (hc : chains[k]? = some c)
    (hfree : (s.task (.made k)).completed = false) :
    ∃ job ∈ s.pending, job.tcs = k ∧ Right s chains job := by
  have hk : k < s.made.length := h.length ▸ (List.getElem?_eq_some_iff.mp hc).1
  obtain ⟨job, hjob, htcs⟩ := List.mem_map.mp ((h.owed k).mpr ⟨hk, hfree⟩)
  exact ⟨job, hjob, htcs, h.right job hjob⟩

/-- Only the task that a continuation gave back can be not completed. -/
theorem Inv.continued {s : State ρ ε} {chains : List (Chain ρ ε)} (h : Inv s chains [])
    {k : Nat} {c : Chain ρ ε} (hc : chains[k]? = some c)
    (hfree : (s.task (.made k)).completed = false) : ∃ p block, c = .continueWith p block := by
  obtain ⟨⟨task, work, tcs⟩, -, rfl, c', -, hwork⟩ := h.waits hc hfree
  cases work with
  | block block => exact ⟨c', block, Option.some.inj (hc.symm.trans hwork.1)⟩
  | setup =>
    obtain ⟨p, block, -, hp, -⟩ := hwork
    exact ⟨p, block, Option.some.inj (hc.symm.trans hp)⟩

/-- Every task of the chain has the outcome that the chain comes to, or neither has one. -/
def Tight (s : State ρ ε) (chains : List (Chain ρ ε)) (c : Chain ρ ε) : Prop :=
  ∀ ref, meaning chains ref = some c → (s.task ref).outcome = c.eval s.known

/-- It is enough to look at the tasks that are not completed. -/
theorem Inv.tight {s : State ρ ε} {chains : List (Chain ρ ε)} (h : Inv s chains [])
    {c : Chain ρ ε} (hfree : ∀ k, chains[k]? = some c → (s.task (.made k)).completed = false →
      c.eval s.known = none) : Tight s chains c := by
  intro ref hc
  cases ho : (s.task ref).outcome with
  | some o => exact (h.eval hc ho).symm
  | none =>
    cases ref with
    | request n =>
      cases hc
      exact ho.symm
    | made k => exact (hfree k hc ((outcome_eq_none _).mp ho)).symm

mutual

theorem Chain.tight {s : State ρ ε} {chains : List (Chain ρ ε)} (h : Inv s chains [])
    (hquiet : s.jobs = []) : ∀ c : Chain ρ ε, Tight s chains c
  | .request n => by
    apply h.tight
    intro k hc hfree
    obtain ⟨p, block, ⟨⟩⟩ := h.continued hc hfree
  | .completed o => by
    apply h.tight
    intro k hc hfree
    obtain ⟨p, block, ⟨⟩⟩ := h.continued hc hfree
  | .continueWith p block => by
    apply h.tight
    intro k hc hfree
    obtain ⟨job, hjob, rfl, c', hc', hwork⟩ := h.waits hc hfree
    -- the callback waits, so what it waits for has come to nothing yet
    have hwaits : (s.task job.task).outcome = none := by
      rw [State.pending, hquiet, List.nil_append] at hjob
      exact (outcome_eq_none _).mpr (h.callbacks job hjob)
    obtain ⟨task, work, tcs⟩ := job
    cases work with
    | block block' =>
      cases hc.symm.trans hwork.1
      rw [Chain.eval, ← Chain.tight h hquiet p task hc', hwaits]
      rfl
    | setup =>
      obtain ⟨p', block', o, hp, hcalled, hreply⟩ := hwork
      cases hc.symm.trans hp
      have hinner := Reply.tight h hquiet (block o) c' hreply task hc'
      rw [Chain.eval, hcalled.1, Option.bind_some, hreply, Reply.eval, ← hinner, hwaits]

theorem Reply.tight {s : State ρ ε} {chains : List (Chain ρ ε)} (h : Inv s chains [])
    (hquiet : s.jobs = []) : ∀ (r : Reply ρ ε) (c : Chain ρ ε), r = .task c → Tight s chains c
  | .value _, _, hr => nomatch hr
  | .antecedent, _, hr => nomatch hr
  | .task c, _, hr => by
    cases hr
    exact Chain.tight h hquiet c

end

/-- The block after `p` was called once, with what `p` comes to, or was not called. -/
theorem Inv.called {s : State ρ ε} {chains : List (Chain ρ ε)} (h : Inv s chains [])
    {ref : Ref} {p : Chain ρ ε} {block : Outcome ρ ε → Reply ρ ε}
    (hc : meaning chains ref = some (.continueWith p block)) :
    ∃ k, ref = .made k ∧ (s.called k = [] ∨ s.called k = (p.eval s.known).toList) ∧
      (s.jobs = [] → s.called k = (p.eval s.known).toList) := by
  cases ref with
  | request n => cases hc
  | made k =>
    refine ⟨k, rfl, ?_⟩
    have hall : ∀ {o}, Called s k p o → s.called k = (p.eval s.known).toList := fun ho => by
      rw [ho.2, ho.1]
      rfl
    cases hcompleted : (s.task (.made k)).completed with
    | true =>
      obtain ⟨o, ho⟩ := outcome_of_completed hcompleted
      have hk : k < s.made.length := h.length ▸ (List.getElem?_eq_some_iff.mp hc).1
      obtain ⟨c, hc', -, hcalled⟩ := h.ended k hk o ho
      cases hc.symm.trans hc'
      obtain ⟨q, hq⟩ := hcalled p block rfl
      exact ⟨.inr (hall hq), fun _ => hall hq⟩
    | false =>
      obtain ⟨job, hjob, rfl, c', hc', hwork⟩ := h.waits hc hcompleted
      obtain ⟨task, work, tcs⟩ := job
      cases work with
      | block block' =>
        cases hc.symm.trans hwork.1
        refine ⟨.inl hwork.2, fun hquiet => ?_⟩
        rw [State.pending, hquiet, List.nil_append] at hjob
        have hwaits : (s.task task).outcome = none :=
          (outcome_eq_none _).mpr (h.callbacks _ hjob)
        rw [hwork.2, ← Chain.tight h hquiet p task hc', hwaits]
        rfl
      | setup =>
        -- its block was called and returned a task
        obtain ⟨p', block', o, hp, hcalled, -⟩ := hwork
        cases hc.symm.trans hp
        exact ⟨.inr (hall hcalled), fun _ => hall hcalled⟩

/-- The chains of the tasks that the run from the first state makes. -/
def made (events : List (Event ρ ε)) : List (Chain ρ ε) :=
  Runs.collected step State.makes State.init events

theorem inv_run (run : Runs.Schedule step Enabled (State.init : State ρ ε)) :
    ∃ t, Runs.exec step State.init run.events = some t ∧ Inv t (made run.events) [] :=
  Runs.collected_ok (I := fun s chains => Inv s chains []) (fun _ _ _ h he => inv_step h he)
    inv_init run.enabled

theorem Inv.fits {s : State ρ ε} {chains : List (Chain ρ ε)} (h : Inv s chains []) {ref : Ref}
    {c : Chain ρ ε} (hc : meaning chains ref = some c) : Fits s ref c where
  outcome := fun _ ho => h.eval hc ho
  quiet := fun hquiet => Chain.tight h hquiet c ref hc
  called := by
    intro p block hcont
    rw [hcont] at hc
    exact h.called hc

/-- Nothing traps. Every task is completed with what its chain comes to, a block is called at most
    once and with what comes before it, and once nothing is left to be called, all that has happened
    that the outcomes of the requests allow. -/
theorem settled_run (run : Runs.Schedule step Enabled (State.init : State ρ ε)) :
    ∃ t, Runs.exec step State.init run.events = some t ∧
      (made run.events).length = t.made.length ∧
      (∀ chain ∈ t.started, meaning (made run.events) chain.2 = some chain.1) ∧
      ∀ ref c, meaning (made run.events) ref = some c → Fits t ref c := by
  obtain ⟨t, ht, h⟩ := inv_run run
  exact ⟨t, ht, h.length, h.started, fun ref c hc => h.fits hc⟩

/-- The block of the first request returns a chain of its own, whose block is called as well, after
    the second request; a block that is added later is called with what that comes to. -/
def nested : List (Event Nat Nat) :=
  [.start (.continueWith (.request 0) fun _ =>
      .task (.continueWithSuccess (.request 1) fun r => .value (r.map (· + 1)))),
   .ended 0 (.error 7), .call 0, .continueWith 0 fun _ => .antecedent, .ended 1 (.result (some 2)),
   .call 0, .call 0, .call 0]

/-- All three tasks are completed then, that of the inner chain included. -/
theorem settled_nested :
    (Runs.exec step State.init nested).map (fun t => (t.jobs.length, (List.range 3).map fun k =>
        (t.called k, (t.task (.made k)).outcome))) =
      some (0, [([.error 7], some (.result (some 3))),
        ([.result (some 2)], some (.result (some 3))),
        ([.result (some 3)], some (.result (some 3)))]) ∧
    ∃ t, Runs.exec step State.init nested = some t ∧ (made nested).length = t.made.length ∧
      ∀ ref c, meaning (made nested) ref = some c → Fits t ref c := by
  obtain ⟨t, ht, hlength, -, hfits⟩ := settled_run ⟨nested, by decide⟩
  exact ⟨by decide, t, ht, hlength, hfits⟩

/-- A block after a request that fails: it is passed over, the one after it is called with the
    error, once, and the request of the first is not waited for. -/
example :
    let chain : Chain Nat Nat := .continueWith
      (Chain.continueWithSuccess (.request 0) fun _ => .task (.request 1)) fun _ => .value none
    (Runs.exec step State.init
      [.start chain, .ended 0 (.error 7), .call 0, .call 0]).map
        (fun t => (t.called 0, t.called 1, t.jobs.length, (t.task (.made 1)).outcome)) =
      some ([.error 7], [.error 7], 0, some (.result none)) := by
  rfl

/-! ## The end of all calls -/

/-- The blocks that are added when the chain is put together. -/
def Chain.blocks : Chain ρ ε → List (Outcome ρ ε → Reply ρ ε)
  | .request _ => []
  | .completed _ => []
  | .continueWith task block => block :: task.blocks

/-- What the call of the second may leave to be called in its place. -/
def Below : Work ρ ε → Work ρ ε → Prop
  | .setup, .block _ => True
  | .block inner, .block block => ∃ o c, block o = .task c ∧ inner ∈ c.blocks
  | _, .setup => False

theorem acc_setup : Acc Below (Work.setup : Work ρ ε) := by
  constructor
  intro work hwork
  cases work <;> exact hwork.elim

mutual

theorem Chain.acc : ∀ (c : Chain ρ ε), ∀ block ∈ c.blocks, Acc Below (Work.block block)
  | .request _, _, hblock => nomatch hblock
  | .completed _, _, hblock => nomatch hblock
  | .continueWith task first, block, hblock => by
    rcases List.mem_cons.mp hblock with hfirst | hblock
    · rw [hfirst]
      constructor
      intro work hwork
      cases work with
      | setup => exact acc_setup
      | block inner =>
        obtain ⟨o, c, hreply, hin⟩ := hwork
        exact Reply.acc (first o) c hreply inner hin
    · exact Chain.acc task block hblock

theorem Reply.acc : ∀ (r : Reply ρ ε) (c : Chain ρ ε), r = .task c →
    ∀ block ∈ c.blocks, Acc Below (Work.block block)
  | .value _, _, hr => nomatch hr
  | .antecedent, _, hr => nomatch hr
  | .task c, _, hr => by
    cases hr
    exact Chain.acc c

end

theorem below_wf : WellFounded (Below : Work ρ ε → Work ρ ε → Prop) := by
  constructor
  intro work
  cases work with
  | setup => exact acc_setup
  | block block =>
    -- a chain of this one block
    exact Chain.acc (.continueWith (.request 0) block) block (List.mem_cons_self ..)

/-- What is still to be called. -/
def State.works (s : State ρ ε) : Multiset (Work ρ ε) := ↑(s.pending.map (·.work))

theorem works_settle {s s' : State ρ ε} {ref : Ref} {o : Outcome ρ ε}
    (h : s.settle ref o = some s') : s'.works = s.works := by
  apply Multiset.coe_eq_coe.mpr
  exact (pending_settle h).map (·.work)

theorem works_add (s : State ρ ε) (job : Job ρ ε) : (s.add job).works = s.works + {job.work} := by
  rw [add_comm, Multiset.singleton_add]
  exact Multiset.coe_eq_coe.mpr ((pending_add s job).map (·.work))

theorem works_build : ∀ (c : Chain ρ ε) (s : State ρ ε),
    (s.build c).2.works = s.works + ↑(c.blocks.map Work.block)
  | .request _, s => (add_zero s.works).symm
  | .completed _, s => (add_zero s.works).symm
  | .continueWith task block, s => by
    have hadd : (s.build (.continueWith task block)).2.works =
        (s.build task).2.works + {Work.block block} := works_add _ _
    rw [hadd, works_build task s, add_assoc]
    congr 1
    rw [add_comm, Multiset.singleton_add]
    rfl

/-- A returned task leaves at most `setupWithTask` to be called. -/
theorem works_returned {s s' : State ρ ε} {k : Nat} {ref : Ref} (h : s.returned k ref = some s') :
    ∃ more : Multiset (Work ρ ε), (∀ work ∈ more, work = .setup) ∧ s'.works = s.works + more := by
  unfold State.returned at h
  split at h
  · exact ⟨0, by simp, by rw [works_settle h, add_zero]⟩
  · cases h
    exact ⟨{Work.setup}, by simp, works_add _ _⟩

theorem works_perform {s s' : State ρ ε} {job : Job ρ ε} (h : s.perform job = some s') :
    ∃ more : Multiset (Work ρ ε), (∀ work ∈ more, Below work job.work) ∧
      s'.works = s.works + more := by
  obtain ⟨task, work, tcs⟩ := job
  obtain ⟨o, ho, h⟩ := Option.bind_eq_some_iff.mp h
  cases work with
  | setup => exact ⟨0, by simp, by rw [works_settle h, add_zero]⟩
  | block block =>
    set called : State ρ ε := { s with calls := s.calls ++ [(tcs, o)] } with hset
    have hworks : called.works = s.works := rfl
    cases hreply : block o with
    | value r =>
      simp only [hreply] at h
      exact ⟨0, by simp, by rw [works_settle h, add_zero]; rfl⟩
    | antecedent =>
      simp only [hreply] at h
      obtain ⟨more, hmore, hs'⟩ := works_returned h
      refine ⟨more, fun work hwork => ?_, hs'⟩
      rw [hmore work hwork]
      trivial
    | task c =>
      simp only [hreply] at h
      obtain ⟨more, hmore, hs'⟩ := works_returned h
      refine ⟨↑(c.blocks.map Work.block) + more, fun work hwork => ?_, ?_⟩
      · rcases Multiset.mem_add.mp hwork with hwork | hwork
        · obtain ⟨inner, hinner, rfl⟩ := List.mem_map.mp (Multiset.mem_coe.mp hwork)
          exact ⟨o, c, hreply, hinner⟩
        · rw [hmore work hwork]
          trivial
      · rw [hs', works_build, add_assoc]
        rfl

open Relation in
/-- A call leaves less to be called. -/
theorem works_call {s s' : State ρ ε} {k : Nat} (h : step s (.call k) = some s') :
    CutExpand Below s'.works s.works := by
  obtain ⟨job, hjob, hperform⟩ := Option.bind_eq_some_iff.mp h
  obtain ⟨more, hmore, hs'⟩ := works_perform hperform
  obtain ⟨hk, rfl⟩ := List.getElem?_eq_some_iff.mp hjob
  have hperm : s.works = ({ s with jobs := s.jobs.eraseIdx k } : State ρ ε).works +
      {s.jobs[k].work} := by
    rw [add_comm, Multiset.singleton_add]
    apply Multiset.coe_eq_coe.mpr
    exact ((List.getElem_cons_eraseIdx_perm hk).symm.append_right s.callbacks).map (·.work)
  refine ⟨more, s.jobs[k].work, hmore, ?_⟩
  rw [hs', hperm]
  exact add_right_comm _ _ _

/-- What calls leave alone. -/
structure Untouched (s s' : State ρ ε) : Prop where
  requests : s'.requests = s.requests
  started : s'.started = s.started

theorem Untouched.trans {s t u : State ρ ε} (h : Untouched s t) (h' : Untouched t u) :
    Untouched s u :=
  ⟨h'.requests.trans h.requests, h'.started.trans h.started⟩

theorem untouched_settle {s s' : State ρ ε} {k : Nat} {o : Outcome ρ ε}
    (h : s.settle (.made k) o = some s') : Untouched s s' := by
  unfold State.settle at h
  split at h
  · cases h
  · cases h
    exact ⟨rfl, rfl⟩

theorem untouched_build : ∀ (c : Chain ρ ε) (s : State ρ ε), Untouched s (s.build c).2
  | .request _, _ => ⟨rfl, rfl⟩
  | .completed _, _ => ⟨rfl, rfl⟩
  | .continueWith task _, s =>
    (untouched_build task s).trans ⟨requests_add _ _, started_add _ _⟩

theorem untouched_returned {s s' : State ρ ε} {k : Nat} {ref : Ref}
    (h : s.returned k ref = some s') : Untouched s s' := by
  unfold State.returned at h
  split at h
  · exact untouched_settle h
  · cases h
    exact ⟨requests_add _ _, started_add _ _⟩

theorem untouched_call {s s' : State ρ ε} {k : Nat} (h : step s (.call k) = some s') :
    Untouched s s' := by
  obtain ⟨⟨task, work, tcs⟩, -, hperform⟩ := Option.bind_eq_some_iff.mp h
  obtain ⟨o, ho, h⟩ := Option.bind_eq_some_iff.mp hperform
  cases work with
  | setup =>
    have hsettle := untouched_settle h
    exact ⟨hsettle.requests, hsettle.started⟩
  | block block =>
    cases hreply : block o with
    | value r =>
      simp only [hreply] at h
      have hsettle := untouched_settle h
      exact ⟨hsettle.requests, hsettle.started⟩
    | antecedent =>
      simp only [hreply] at h
      have hreturned := untouched_returned h
      exact ⟨hreturned.requests, hreturned.started⟩
    | task c =>
      simp only [hreply] at h
      have hreturned := (untouched_build c _).trans (untouched_returned h)
      exact ⟨hreturned.requests, hreturned.started⟩

/-- The executors call what is left in some order, for as long as something is left. -/
structure Drain (s : State ρ ε) where
  state : Nat → State ρ ε
  call : Nat → Nat
  first : state 0 = s
  next : ∀ i, step (state i) (.call (call i)) = some (state (i + 1)) ∨
    (state i).jobs = [] ∧ state (i + 1) = state i

/-- The chains of the tasks that the first `n` calls make. -/
def Drain.makes {s : State ρ ε} (d : Drain s) (n : Nat) : List (Chain ρ ε) :=
  (List.range n).flatMap fun i => (d.state i).makes (.call (d.call i))

theorem Drain.makes_succ {s : State ρ ε} (d : Drain s) (n : Nat) :
    d.makes (n + 1) = d.makes n ++ (d.state n).makes (.call (d.call n)) := by
  simp [makes, List.range_succ]

theorem Drain.inv {s : State ρ ε} {chains : List (Chain ρ ε)} (h : Inv s chains [])
    (d : Drain s) (n : Nat) : Untouched s (d.state n) ∧ Inv (d.state n) (chains ++ d.makes n) [] := by
  induction n with
  | zero =>
    rw [d.first]
    exact ⟨⟨rfl, rfl⟩, chains.append_nil.symm ▸ h⟩
  | succ n ih =>
    obtain ⟨huntouched, h'⟩ := ih
    rw [d.makes_succ, ← List.append_assoc]
    rcases d.next n with hcall | ⟨hquiet, hsame⟩
    · have hlt : d.call n < (d.state n).jobs.length := by
        obtain ⟨job, hjob, -⟩ := Option.bind_eq_some_iff.mp hcall
        exact (List.getElem?_eq_some_iff.mp hjob).1
      obtain ⟨s', hs', hinv⟩ := inv_step h' (e := .call (d.call n)) hlt
      cases hcall.symm.trans hs'
      exact ⟨huntouched.trans (untouched_call hcall), hinv⟩
    · have hnone : (d.state n).makes (.call (d.call n)) = [] := by simp [State.makes, hquiet]
      rw [hsame, hnone, List.append_nil]
      exact ⟨huntouched, h'⟩

/-- There is a last call: `CutExpand` is well-founded where `Below` is. -/
theorem Drain.ends {s : State ρ ε} (d : Drain s) : ∃ n, (d.state n).jobs = [] := by
  have hacc : ∀ works : Multiset (Work ρ ε), ∀ i, (d.state i).works = works →
      ∃ n, (d.state n).jobs = [] := by
    intro works
    induction works using below_wf.cutExpand.induction with
    | _ works ih =>
      intro i hi
      rcases d.next i with hcall | ⟨hdone, -⟩
      · exact ih _ (hi ▸ works_call hcall) (i + 1) rfl
      · exact ⟨i, hdone⟩
  exact hacc _ 0 rfl

end Shiftgram.AWSTask
