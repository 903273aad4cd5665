import Shiftgram.Runs

/- Tasks and what is continued with them (`AWSTask`). A task is completed once, with a result, an
   error or as cancelled; a block that is added to it is called when it is completed, on whatever
   thread its executor takes, and its return value completes the task that `continueWithBlock:` gave
   back. Where a block returns a task, that task is continued with first. The uploads and downloads
   of the app, and the requests under them, are such chains of blocks.

   What is proved, for any number of chains over tasks that others complete at any time, and for any
   order in which the executors call the blocks:
     1. `settled_run`: nothing traps (`setResult:` and its siblings raise an exception on a
        completed task). Every task that was made, those of the links of a chain and of the chains
        that blocks return included, is completed with what its chain comes to when it is read from
        left to right (`Chain.eval`), and not before that is known; every block is called at most
        once, with what comes before it; once no block waits to be called, all this has happened.
     2. `run_out`: however the executors choose, they come to an end.

   Assumed: `@synchronized` makes completing a task, and adding a block to it, one step each. An
   executor calls each block once, some time after it was given it; that the default executor calls
   it at once is one of these orders. A chain is put together in one step; blocks can be added to its
   task later (`Event.continueWith`). No cancellation tokens. The task that the inner
   `continueWithBlock:setupWithTask` gives back is dropped, as in the source. -/
namespace Shiftgram

/-- How a task ends. A result may be nil. -/
inductive AWSTask.Outcome (ρ ε : Type)
  | result (r : Option ρ)
  | error (e : ε)
  | cancelled
  deriving DecidableEq, Repr

/-- A task less its callbacks. -/
structure AWSTask (ρ ε : Type) where
  completed : Bool
  cancelled : Bool
  faulted : Bool
  result : Option ρ
  error : Option ε
  /-- A task that is not completed has nothing yet. -/
  pending : completed = false → cancelled = false ∧ faulted = false ∧ result = none ∧ error = none

namespace AWSTask

variable {ρ ε : Type}

def init : AWSTask ρ ε := ⟨false, false, false, none, none, fun _ => ⟨rfl, rfl, rfl, rfl⟩⟩

/-- The fields after `trySetResult:`, `trySetError:` or `trySetCancelled` of a task that is not
    completed. -/
def complete (t : AWSTask ρ ε) : Outcome ρ ε → AWSTask ρ ε
  | .result r => { t with completed := true, result := r, pending := nofun }
  | .error e => { t with completed := true, faulted := true, error := some e, pending := nofun }
  | .cancelled => { t with completed := true, cancelled := true, pending := nofun }

/-- How `setupWithTask` reads a task, `none` while it is not completed. -/
def outcome (t : AWSTask ρ ε) : Option (Outcome ρ ε) :=
  if t.completed then
    some <|
      if t.cancelled then .cancelled
      else
        match t.error with
        | some e => .error e
        | none => .result t.result
  else none

mutual

/-- How a task comes about. -/
inductive Chain (ρ ε : Type)
  /-- The task of a request, which others complete. -/
  | request (n : Nat)
  /-- `taskWithResult:`, `taskWithError:` and `cancelledTask` -/
  | completed (o : Outcome ρ ε)
  /-- `continueWithBlock:` -/
  | continueWith (task : Chain ρ ε) (block : Outcome ρ ε → Reply ρ ε)

/-- What a block returns. -/
inductive Reply (ρ ε : Type)
  /-- What is not a task. -/
  | value (r : Option ρ)
  /-- The task it is called with. -/
  | antecedent
  | task (c : Chain ρ ε)

end

/-- `continueWithSuccessBlock:` -/
def Chain.continueWithSuccess (task : Chain ρ ε) (block : Option ρ → Reply ρ ε) : Chain ρ ε :=
  .continueWith task fun
    | .result r => block r
    | .error _ | .cancelled => .antecedent

/-- A task that exists: that of a request, or one that a chain made. -/
inductive Ref
  | request (n : Nat)
  | made (k : Nat)
  deriving DecidableEq, Repr

/-- What an executor is given: a block, or `setupWithTask` for a task that a block returned. -/
inductive Work (ρ ε : Type)
  | block (block : Outcome ρ ε → Reply ρ ε)
  | setup

/-- A callback of the task, which completes `tcs`. -/
structure Job (ρ ε : Type) where
  task : Ref
  work : Work ρ ε
  tcs : Nat

structure State (ρ ε : Type) where
  requests : Nat → AWSTask ρ ε
  made : List (AWSTask ρ ε)
  /-- The callbacks of all tasks, in the order in which they were added. -/
  callbacks : List (Job ρ ε)
  /-- What the executors were given and have not called. -/
  jobs : List (Job ρ ε)
  /-- The calls of blocks: the task each is to complete, and what it is called with. -/
  calls : List (Nat × Outcome ρ ε)
  /-- The chains that were put together, with their tasks. -/
  started : List (Chain ρ ε × Ref)

def State.init : State ρ ε := ⟨fun _ => AWSTask.init, [], [], [], [], []⟩

def State.task (s : State ρ ε) : Ref → AWSTask ρ ε
  | .request n => s.requests n
  | .made k => s.made.getD k AWSTask.init

def State.setTask (s : State ρ ε) (t : AWSTask ρ ε) : Ref → State ρ ε
  | .request n => { s with requests := fun m => if m = n then t else s.requests m }
  | .made k => { s with made := s.made.set k t }

/-- `setResult:`, `setError:` or `cancel` of a task completion source, which raises an exception
    where the task is completed; its callbacks go to their executors. -/
def State.settle (s : State ρ ε) (ref : Ref) (o : Outcome ρ ε) : Option (State ρ ε) :=
  if (s.task ref).completed then none
  else
    some
      { s.setTask ((s.task ref).complete o) ref with
        callbacks := s.callbacks.filter fun job => job.task ≠ ref
        jobs := s.jobs ++ s.callbacks.filter fun job => job.task = ref }

/-- The end of `continueWithExecutor:block:cancellationToken:`, which adds the callback, or gives it
    to its executor where the task is completed. -/
def State.add (s : State ρ ε) (job : Job ρ ε) : State ρ ε :=
  if (s.task job.task).completed then { s with jobs := s.jobs ++ [job] }
  else { s with callbacks := s.callbacks ++ [job] }

/-- `continueWithBlock:` of the task, with the task that it gives back. -/
def State.continueWith (s : State ρ ε) (ref : Ref) (block : Outcome ρ ε → Reply ρ ε) :
    Ref × State ρ ε :=
  let tcs := s.made.length
  (.made tcs, { s with made := s.made ++ [AWSTask.init] }.add ⟨ref, .block block, tcs⟩)

/-- The chain's task, and the state once it is put together. -/
def State.build (s : State ρ ε) : Chain ρ ε → Ref × State ρ ε
  | .request n => (.request n, s)
  | .completed o => (.made s.made.length, { s with made := s.made ++ [AWSTask.init.complete o] })
  | .continueWith task block => (s.build task).2.continueWith (s.build task).1 block

/-- What is done with a task that a block returned. -/
def State.returned (s : State ρ ε) (tcs : Nat) (ref : Ref) : Option (State ρ ε) :=
  match (s.task ref).outcome with
  -- `resultTask.completed`: `setupWithTask` is called here
  | some o => s.settle (.made tcs) o
  | none => some (s.add ⟨ref, .setup, tcs⟩)

/-- The call of a block, or of `setupWithTask`. -/
def State.perform (s : State ρ ε) (job : Job ρ ε) : Option (State ρ ε) := do
  let o ← (s.task job.task).outcome
  match job.work with
  | .setup => s.settle (.made job.tcs) o
  | .block block =>
    let s := { s with calls := s.calls ++ [(job.tcs, o)] }
    match block o with
    | .value r => s.settle (.made job.tcs) (.result r)
    | .antecedent => s.returned job.tcs job.task
    | .task c => (s.build c).2.returned job.tcs (s.build c).1

inductive Event (ρ ε : Type)
  /-- A chain is put together. -/
  | start (c : Chain ρ ε)
  /-- A block is added to the task of a chain. -/
  | continueWith (i : Nat) (block : Outcome ρ ε → Reply ρ ε)
  /-- A request ends. -/
  | ended (n : Nat) (o : Outcome ρ ε)
  /-- An executor calls what it was given. -/
  | call (k : Nat)

def step (s : State ρ ε) : Event ρ ε → Option (State ρ ε)
  | .start c =>
    let (ref, s) := s.build c
    some { s with started := s.started ++ [(c, ref)] }
  | .continueWith i block =>
    s.started[i]?.map fun chain =>
      let (ref, s) := s.continueWith chain.2 block
      { s with started := s.started ++ [(.continueWith chain.1 block, ref)] }
  | .ended n o => s.settle (.request n) o
  | .call k => s.jobs[k]?.bind fun job => State.perform { s with jobs := s.jobs.eraseIdx k } job

/-- A request ends once. -/
def Enabled (s : State ρ ε) : Event ρ ε → Prop
  | .start _ => True
  | .continueWith i _ => i < s.started.length
  | .ended n _ => (s.requests n).completed = false
  | .call k => k < s.jobs.length

instance (s : State ρ ε) (e : Event ρ ε) : Decidable (Enabled s e) := by
  cases e <;> unfold Enabled <;> infer_instance

/-! ## The tasks that are made -/

/-- The chains of the tasks that are made when the chain is put together, in that order. -/
def Chain.tasks : Chain ρ ε → List (Chain ρ ε)
  | .request _ => []
  | .completed o => [.completed o]
  | .continueWith task block => task.tasks ++ [.continueWith task block]

def Reply.tasks : Reply ρ ε → List (Chain ρ ε)
  | .task c => c.tasks
  | .value _ | .antecedent => []

/-- Those that a callback makes when it is called with the outcome. -/
def Work.tasks : Work ρ ε → Option (Outcome ρ ε) → List (Chain ρ ε)
  | .block reply, some o => (reply o).tasks
  | _, _ => []

/-- Those that an event makes. -/
def State.makes (s : State ρ ε) : Event ρ ε → List (Chain ρ ε)
  | .start c => c.tasks
  | .continueWith i block => s.started[i]?.toList.map fun chain => .continueWith chain.1 block
  | .ended _ _ => []
  | .call k => (s.jobs[k]?.map fun job => job.work.tasks (s.task job.task).outcome).getD []

/-- The chain that the task is the end of, where these are those of the tasks that were made. -/
def meaning (chains : List (Chain ρ ε)) : Ref → Option (Chain ρ ε)
  | .request n => some (.request n)
  | .made k => chains[k]?

/-! ## What a chain comes to -/

mutual

/-- A chain read from left to right, where the requests have these outcomes so far. -/
def Chain.eval (σ : Nat → Option (Outcome ρ ε)) : Chain ρ ε → Option (Outcome ρ ε)
  | .request n => σ n
  | .completed o => some o
  | .continueWith task block => (task.eval σ).bind fun o => (block o).eval σ o

/-- What the answer to a block's task, called with `o`, comes to. -/
def Reply.eval (σ : Nat → Option (Outcome ρ ε)) (o : Outcome ρ ε) :
    Reply ρ ε → Option (Outcome ρ ε)
  | .value r => some (.result r)
  | .antecedent => some o
  | .task c => c.eval σ

end

/-- The outcomes of the requests so far. -/
def State.known (s : State ρ ε) (n : Nat) : Option (Outcome ρ ε) := (s.requests n).outcome

/-- What the block that completes the task was called with. -/
def State.called (s : State ρ ε) (k : Nat) : List (Outcome ρ ε) :=
  (s.calls.filter fun call => call.1 = k).map (·.2)

/-- The task fits the chain that it is the end of, and so do the calls of the block that is to
    complete it, if there is one. -/
structure Fits (s : State ρ ε) (ref : Ref) (c : Chain ρ ε) : Prop where
  outcome : ∀ o, (s.task ref).outcome = some o → c.eval s.known = some o
  quiet : s.jobs = [] → (s.task ref).outcome = c.eval s.known
  called : ∀ p block, c = .continueWith p block → ∃ k, ref = .made k ∧
    (s.called k = [] ∨ s.called k = (p.eval s.known).toList) ∧
    (s.jobs = [] → s.called k = (p.eval s.known).toList)

end AWSTask

end Shiftgram
