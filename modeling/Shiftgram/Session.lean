import Shiftgram.Response
import Shiftgram.Runs
import Mathlib.Data.List.TakeWhile

/- Alamofire's session, as the data managers use it: `request(...)` makes a task, `responseJSON` puts an
   operation on the queue of the request, which is suspended until the task has ended, and the callbacks
   of the tasks come through the delegate of the session, which knows a request as long as its task has
   not ended. An operation serializes the response and leaves the handler to the main queue.

   In every run of any number of requests (`answered_run`): the handlers of a request are called in the
   order in which they were added, each at most once, none before the request has ended, and all of them
   with the status and the bytes of their own request; when nothing is left to run each handler of each
   request that has ended has been called.

   Assumed of URLSession: a task that has ended gets no response any more. Callbacks may come late,
   and more than once, otherwise. `jsonObject` is arbitrary. The app sets no adapter, no retrier and no
   validation. -/
namespace Shiftgram.Alamofire

abbrev Data := List UInt8

/-- Why a response has no value. -/
inductive ResponseError
  /-- An error of the request or of its task, by its code. -/
  | underlying (code : Int)
  | inputDataNilOrZeroLength
  | jsonSerializationFailed
  deriving DecidableEq

inductive Result
  | success (value : Json)
  | failure (error : ResponseError)

def Result.value : Result → Option Json
  | success value => some value
  | failure _ => none

def emptyDataStatusCodes : List Int := [204, 205]

variable {κ : Type} (jsonObject : Data → Option Json)

def serializeResponseJSON (statusCode : Option Int) (data : Option Data) (error : Option Int) : Result :=
  match error with
  | some error => .failure (.underlying error)
  | none =>
    if statusCode.any (· ∈ emptyDataStatusCodes) then .success .null
    else
      match data with
      | some (b :: bs) =>
        match jsonObject (b :: bs) with
        | some json => .success json
        | none => .failure .jsonSerializationFailed
      | _ => .failure .inputDataNilOrZeroLength

/-- A call of a completion handler. -/
structure Call (κ : Type) where
  request : Nat
  handler : κ
  statusCode : Option Int
  result : Result

/-- What the handlers of the data managers read. -/
def Call.response (c : Call κ) : DataResponse := ⟨c.statusCode, c.result.value⟩

structure DataRequest (κ : Type) where
  /-- `task?.response?.statusCode` -/
  statusCode : Option Int
  /-- The session delegate holds the request under its task. -/
  registered : Bool
  mutableData : Data
  error : Option Int
  isSuspended : Bool
  /-- The handlers whose operations have not run. -/
  queue : List κ

/-- `request(...)`, and `request(_:failedWith:)` with an error, which resumes without a task. -/
def DataRequest.init (error : Option Int) : DataRequest κ where
  statusCode := none
  registered := error.isNone
  mutableData := []
  error := error
  isSuspended := error.isNone
  queue := []

/-- What happens to one request. -/
inductive Callback (κ : Type)
  | responseJSON (handler : κ)
  | didReceiveResponse (statusCode : Int)
  | didReceiveData (data : Data)
  | didCompleteWithError (error : Option Int)
  /-- The queue runs its next operation. -/
  | operation

namespace DataRequest

def call (n : Nat) (r : DataRequest κ) (handler : κ) : Call κ :=
  ⟨n, handler, r.statusCode, serializeResponseJSON jsonObject r.statusCode (some r.mutableData) r.error⟩

def receive (r : DataRequest κ) (data : Data) : DataRequest κ :=
  if r.registered then { r with mutableData := r.mutableData ++ data } else r

def complete (r : DataRequest κ) (error : Option Int) : DataRequest κ :=
  if r.registered then
    { r with error := r.error.or error, isSuspended := false, registered := false }
  else r

/-- The request after a callback, and what it leaves to the main queue. -/
def handle (n : Nat) (r : DataRequest κ) : Callback κ → Option (DataRequest κ × List (Call κ))
  | .responseJSON handler => some ({ r with queue := r.queue ++ [handler] }, [])
  | .didReceiveResponse statusCode => some ({ r with statusCode := some statusCode }, [])
  | .didReceiveData data => some (r.receive data, [])
  | .didCompleteWithError error => some (r.complete error, [])
  | .operation =>
    match r.isSuspended, r.queue with
    | false, handler :: rest => some ({ r with queue := rest }, [r.call jsonObject n handler])
    | _, _ => none

/-- Callbacks that can come. -/
def Accepts (r : DataRequest κ) : Callback κ → Prop
  | .didReceiveResponse _ => r.registered = true
  | .operation => r.isSuspended = false ∧ r.queue ≠ []
  | .responseJSON _ | .didReceiveData _ | .didCompleteWithError _ => True

end DataRequest

structure State (κ : Type) where
  requests : List (DataRequest κ)
  /-- The blocks on the main queue. -/
  main : List (Call κ)
  called : List (Call κ)

def State.init : State κ := ⟨[], [], []⟩

inductive Event (κ : Type)
  /-- `Alamofire.request(...)`, where there is an error without a task. -/
  | request (error : Option Int)
  | callback (request : Nat) (callback : Callback κ)
  /-- The main queue runs its next block. -/
  | main

def step (s : State κ) : Event κ → Option (State κ)
  | .request error => some { s with requests := s.requests ++ [DataRequest.init error] }
  | .callback n callback => do
    let r ← s.requests[n]?
    let (r', calls) ← r.handle jsonObject n callback
    some { s with requests := s.requests.set n r', main := s.main ++ calls }
  | .main =>
    match s.main with
    | c :: rest => some { s with main := rest, called := s.called ++ [c] }
    | [] => none

def Enabled (s : State κ) : Event κ → Prop
  | .request _ => True
  | .callback n callback => ∃ r, s.requests[n]? = some r ∧ r.Accepts callback
  | .main => s.main ≠ []

instance (s : State κ) (e : Event κ) : Decidable (Enabled s e) :=
  match e with
  | .request _ => isTrue trivial
  | .callback n callback =>
    match h : s.requests[n]? with
    | none => isFalse (by simp [Enabled, h])
    | some r =>
      match callback with
      | .didReceiveResponse _ => decidable_of_iff (r.registered = true) (by simp [Enabled, h, DataRequest.Accepts])
      | .operation => decidable_of_iff (r.isSuspended = false ∧ r.queue.isEmpty = false)
          (by simp [Enabled, h, DataRequest.Accepts])
      | .responseJSON _ | .didReceiveData _ | .didCompleteWithError _ =>
        isTrue ⟨r, h, trivial⟩
  | .main => decidable_of_iff (s.main.isEmpty = false) (by simp [Enabled])

/-! ## What a run has done to a request -/

/-- The requests made, with their errors. -/
def made (es : List (Event κ)) : List (Option Int) :=
  es.filterMap fun
    | .request error => some error
    | _ => none

/-- What happened to the request. -/
def history (es : List (Event κ)) (n : Nat) : List (Callback κ) :=
  es.filterMap fun
    | .callback m callback => if m = n then some callback else none
    | _ => none

def Callback.handler? : Callback κ → Option κ
  | responseJSON handler => some handler
  | _ => none

def Callback.statusCode? : Callback κ → Option Int
  | didReceiveResponse statusCode => some statusCode
  | _ => none

def Callback.data : Callback κ → Data
  | didReceiveData data => data
  | _ => []

def Callback.end? : Callback κ → Option (Option Int)
  | didCompleteWithError error => some error
  | _ => none

/-- The handlers added, in order. -/
def handlers (h : List (Callback κ)) : List κ := h.filterMap Callback.handler?

/-- The last response. -/
def statusCode (h : List (Callback κ)) : Option Int := (h.filterMap Callback.statusCode?).getLast?

/-- The bytes that came before the task had ended, of a request with a task. -/
def received (error : Option Int) (h : List (Callback κ)) : Data :=
  if error.isSome then [] else (h.takeWhile fun c => c.end?.isNone).flatMap Callback.data

/-- How the task has ended first. -/
def ending (h : List (Callback κ)) : Option (Option Int) := h.findSome? Callback.end?

/-- The request has failed to start, or its task has ended. -/
def Finished (error : Option Int) (h : List (Callback κ)) : Prop := error ≠ none ∨ ending h ≠ none

/-- What the handlers are to be called with. -/
def answer (n : Nat) (error : Option Int) (h : List (Callback κ)) (handler : κ) : Call κ :=
  ⟨n, handler, statusCode h,
    serializeResponseJSON jsonObject (statusCode h) (some (received error h))
      (error.or (ending h).join)⟩

/-! One more callback. -/

theorem handlers_concat (h : List (Callback κ)) (c : Callback κ) :
    handlers (h ++ [c]) = handlers h ++ c.handler?.toList := by
  cases hc : c.handler? <;> simp [handlers, hc]

theorem statusCode_concat (h : List (Callback κ)) (c : Callback κ) :
    statusCode (h ++ [c]) = c.statusCode?.or (statusCode h) := by
  cases hc : c.statusCode? <;> simp [statusCode, hc]

theorem ending_concat (h : List (Callback κ)) (c : Callback κ) :
    ending (h ++ [c]) = (ending h).or c.end? := by
  cases hc : c.end? <;> simp [ending, List.findSome?_append, hc]

theorem ending_eq_none {h : List (Callback κ)} : ending h = none ↔ ∀ c ∈ h, c.end? = none := by
  simp [ending]

/-- Bytes that come after the end are not received. -/
theorem received_concat (error : Option Int) (h : List (Callback κ)) (c : Callback κ) :
    received error (h ++ [c]) =
      received error h ++ if error.isNone && (ending h).isNone then c.data else [] := by
  cases error with
  | some code => rfl
  | none =>
    cases hend : ending h with
    | none =>
      have hall : ∀ d ∈ h, d.end?.isNone = true := by simpa using ending_eq_none.1 hend
      simp only [received, Option.isSome_none, List.takeWhile_append_of_pos hall,
        List.takeWhile_eq_self_iff.2 hall, List.flatMap_append]
      cases c <;> simp [Callback.end?, Callback.data]
    | some error =>
      have hshort : (h.takeWhile fun d => d.end?.isNone).length ≠ h.length := by
        intro heq
        have hself := List.takeWhile_eq_self_iff.1
          ((List.takeWhile_prefix (l := h) fun d => d.end?.isNone).eq_of_length heq)
        have hnone : ending h = none := ending_eq_none.2 (by simpa using hself)
        simp [hend] at hnone
      simp [received, List.takeWhile_append, hshort]

/-- Callbacks that bring neither a response nor bytes nor the end change no answer. -/
theorem answer_concat (n : Nat) (error : Option Int) (h : List (Callback κ)) {c : Callback κ}
    (hcode : c.statusCode? = none) (hdata : c.data = []) (hend : c.end? = none) :
    answer jsonObject n error (h ++ [c]) = answer jsonObject n error h := by
  funext handler
  simp [answer, statusCode_concat, received_concat, ending_concat, hcode, hdata, hend]

/-! ## One request -/

/-- What holds of a request that was made with the error, after its history, with the calls that its
    operations have left to the main queue. -/
structure RequestOk (n : Nat) (error : Option Int) (h : List (Callback κ)) (calls : List (Call κ))
    (r : DataRequest κ) : Prop where
  statusCode_eq : r.statusCode = statusCode h
  registered_eq : r.registered = (error.isNone && (ending h).isNone)
  data_eq : r.mutableData = received error h
  error_eq : r.error = error.or (ending h).join
  suspended_eq : r.isSuspended = r.registered
  calls_eq : ∃ ran, handlers h = ran ++ r.queue ∧ calls = ran.map (answer jsonObject n error h) ∧
    (r.isSuspended = true → ran = [])

theorem requestOk_init (n : Nat) (error : Option Int) :
    RequestOk jsonObject n error [] [] (DataRequest.init (κ := κ) error) where
  statusCode_eq := rfl
  registered_eq := by simp [DataRequest.init, ending]
  data_eq := by cases error <;> rfl
  error_eq := by simp [DataRequest.init, ending]
  suspended_eq := rfl
  calls_eq := ⟨[], rfl, rfl, fun _ => rfl⟩

section Callbacks

variable {jsonObject} {n : Nat} {error : Option Int} {h : List (Callback κ)} {calls : List (Call κ)}
  {r : DataRequest κ} (hr : RequestOk jsonObject n error h calls r)
include hr

/-- An operation of a request that is not suspended gives its handler the answer. -/
theorem RequestOk.call_eq (handler : κ) :
    r.call jsonObject n handler = answer jsonObject n error h handler := by
  rw [DataRequest.call, answer, hr.statusCode_eq, hr.data_eq, hr.error_eq]

/-- No operation of a request whose task has not ended has run. -/
theorem RequestOk.waiting (hreg : r.registered = true) : handlers h = r.queue ∧ calls = [] := by
  obtain ⟨ran, hran, hcalls, hnone⟩ := hr.calls_eq
  obtain rfl := hnone (hr.suspended_eq.trans hreg)
  exact ⟨hran, hcalls⟩

theorem RequestOk.responseJSON (handler : κ) :
    RequestOk jsonObject n error (h ++ [.responseJSON handler]) calls
      { r with queue := r.queue ++ [handler] } where
  statusCode_eq := by simpa [statusCode_concat, Callback.statusCode?] using hr.statusCode_eq
  registered_eq := by simpa [ending_concat, Callback.end?] using hr.registered_eq
  data_eq := by simpa [received_concat, Callback.data] using hr.data_eq
  error_eq := by simpa [ending_concat, Callback.end?] using hr.error_eq
  suspended_eq := hr.suspended_eq
  calls_eq := by
    obtain ⟨ran, hran, hcalls, hnone⟩ := hr.calls_eq
    refine ⟨ran, by simp [handlers_concat, Callback.handler?, hran], ?_, hnone⟩
    rw [answer_concat jsonObject n error h rfl rfl rfl, hcalls]

theorem RequestOk.didReceiveResponse (hreg : r.registered = true) (code : Int) :
    RequestOk jsonObject n error (h ++ [.didReceiveResponse code]) calls
      { r with statusCode := some code } where
  statusCode_eq := by simp [statusCode_concat, Callback.statusCode?]
  registered_eq := by simpa [ending_concat, Callback.end?] using hr.registered_eq
  data_eq := by simpa [received_concat, Callback.data] using hr.data_eq
  error_eq := by simpa [ending_concat, Callback.end?] using hr.error_eq
  suspended_eq := hr.suspended_eq
  calls_eq := by
    obtain ⟨hqueue, hcalls⟩ := hr.waiting hreg
    exact ⟨[], by simp [handlers_concat, Callback.handler?, hqueue], hcalls, fun _ => rfl⟩

theorem RequestOk.didReceiveData (data : Data) :
    RequestOk jsonObject n error (h ++ [.didReceiveData data]) calls (r.receive data) := by
  have hreg := hr.registered_eq
  have hdata : received error (h ++ [.didReceiveData data]) =
      received error h ++ if r.registered then data else [] := by
    rw [received_concat, hreg]
    rfl
  have hhandlers : handlers (h ++ [.didReceiveData data]) = handlers h := by
    simp [handlers_concat, Callback.handler?]
  unfold DataRequest.receive
  split
  next hyes =>
    obtain ⟨hqueue, hcalls⟩ := hr.waiting hyes
    exact {
      statusCode_eq := by simpa [statusCode_concat, Callback.statusCode?] using hr.statusCode_eq
      registered_eq := by simpa [ending_concat, Callback.end?] using hreg
      data_eq := by rw [hdata, if_pos hyes, hr.data_eq]
      error_eq := by simpa [ending_concat, Callback.end?] using hr.error_eq
      suspended_eq := hr.suspended_eq
      calls_eq := ⟨[], by simp [hhandlers, hqueue], hcalls, fun _ => rfl⟩ }
  next hno =>
    have hsame : received error (h ++ [.didReceiveData data]) = received error h := by
      rw [hdata, if_neg hno, List.append_nil]
    have hanswer : answer jsonObject n error (h ++ [.didReceiveData data]) = answer jsonObject n error h := by
      funext handler
      simp [answer, statusCode_concat, ending_concat, hsame, Callback.statusCode?, Callback.end?]
    exact {
      statusCode_eq := by simpa [statusCode_concat, Callback.statusCode?] using hr.statusCode_eq
      registered_eq := by simpa [ending_concat, Callback.end?] using hreg
      data_eq := by rw [hsame, hr.data_eq]
      error_eq := by simpa [ending_concat, Callback.end?] using hr.error_eq
      suspended_eq := hr.suspended_eq
      calls_eq := by rw [hhandlers, hanswer]; exact hr.calls_eq }

theorem RequestOk.didCompleteWithError (taskError : Option Int) :
    RequestOk jsonObject n error (h ++ [.didCompleteWithError taskError]) calls (r.complete taskError) := by
  have hreg := hr.registered_eq
  have hstatus : statusCode (h ++ [.didCompleteWithError taskError]) = statusCode h := by
    simp [statusCode_concat, Callback.statusCode?]
  have hreceived : received error (h ++ [.didCompleteWithError taskError]) = received error h := by
    simp [received_concat, Callback.data]
  have hhandlers : handlers (h ++ [.didCompleteWithError taskError]) = handlers h := by
    simp [handlers_concat, Callback.handler?]
  have hending : ending (h ++ [.didCompleteWithError taskError]) = (ending h).or (some taskError) :=
    ending_concat h _
  unfold DataRequest.complete
  split
  next hyes =>
    obtain ⟨hqueue, hcalls⟩ := hr.waiting hyes
    have hnone : error = none ∧ ending h = none := by simpa [hyes] using hreg.symm
    exact {
      statusCode_eq := hstatus ▸ hr.statusCode_eq
      registered_eq := by simp [hending]
      data_eq := hreceived ▸ hr.data_eq
      error_eq := by simp [hending, hr.error_eq, hnone]
      suspended_eq := rfl
      calls_eq := ⟨[], by simp [hhandlers, hqueue], hcalls, fun _ => rfl⟩ }
  next hno =>
    have hended : error.isNone = false ∨ (ending h).isNone = false := by
      rw [Bool.eq_false_of_not_eq_true hno] at hreg
      exact Bool.and_eq_false_iff.1 hreg.symm
    have herror : error.or (ending (h ++ [.didCompleteWithError taskError])).join =
        error.or (ending h).join := by
      rw [hending]
      cases error with
      | some code => rfl
      | none => cases hend : ending h <;> simp_all
    have hanswer : answer jsonObject n error (h ++ [.didCompleteWithError taskError]) =
        answer jsonObject n error h := by
      funext handler
      rw [answer, answer, hstatus, hreceived, herror]
    exact {
      statusCode_eq := hstatus ▸ hr.statusCode_eq
      registered_eq := by
        rw [hreg, hending]
        obtain hend | hend := hended <;> simp [hend]
      data_eq := hreceived ▸ hr.data_eq
      error_eq := herror ▸ hr.error_eq
      suspended_eq := hr.suspended_eq
      calls_eq := by rw [hhandlers, hanswer]; exact hr.calls_eq }

theorem RequestOk.operation (hsus : r.isSuspended = false) {handler : κ} {rest : List κ}
    (hqueue : r.queue = handler :: rest) :
    RequestOk jsonObject n error (h ++ [.operation]) (calls ++ [r.call jsonObject n handler])
      { r with queue := rest } where
  statusCode_eq := by simpa [statusCode_concat, Callback.statusCode?] using hr.statusCode_eq
  registered_eq := by simpa [ending_concat, Callback.end?] using hr.registered_eq
  data_eq := by simpa [received_concat, Callback.data] using hr.data_eq
  error_eq := by simpa [ending_concat, Callback.end?] using hr.error_eq
  suspended_eq := hr.suspended_eq
  calls_eq := by
    obtain ⟨ran, hran, hcalls, -⟩ := hr.calls_eq
    refine ⟨ran ++ [handler], ?_, ?_, fun hyes => nomatch hsus.symm.trans hyes⟩
    · simp [handlers_concat, Callback.handler?, hran, hqueue]
    · rw [answer_concat jsonObject n error h rfl rfl rfl, hcalls, hr.call_eq, List.map_append]
      rfl

/-- One callback. -/
theorem RequestOk.handle {c : Callback κ} (hc : r.Accepts c) :
    ∃ r' new, r.handle jsonObject n c = some (r', new) ∧
      RequestOk jsonObject n error (h ++ [c]) (calls ++ new) r' := by
  cases c with
  | responseJSON handler =>
    exact ⟨_, [], rfl, calls.append_nil.symm ▸ hr.responseJSON handler⟩
  | didReceiveResponse code =>
    exact ⟨_, [], rfl, calls.append_nil.symm ▸ hr.didReceiveResponse hc code⟩
  | didReceiveData data =>
    exact ⟨_, [], rfl, calls.append_nil.symm ▸ hr.didReceiveData data⟩
  | didCompleteWithError taskError =>
    exact ⟨_, [], rfl, calls.append_nil.symm ▸ hr.didCompleteWithError taskError⟩
  | operation =>
    obtain ⟨hsus, hne⟩ := hc
    obtain ⟨handler, rest, hqueue⟩ := List.exists_cons_of_ne_nil hne
    refine ⟨_, _, ?_, hr.operation hsus hqueue⟩
    simp only [DataRequest.handle, hsus, hqueue]

end Callbacks

theorem handle_request {n : Nat} {r r' : DataRequest κ} {c : Callback κ} {new : List (Call κ)}
    (h : r.handle jsonObject n c = some (r', new)) : ∀ call ∈ new, call.request = n := by
  cases c with
  | operation =>
    simp only [DataRequest.handle] at h
    split at h
    next => obtain ⟨-, rfl⟩ := Prod.mk.inj (Option.some.inj h); simp [DataRequest.call]
    next => cases h
  | _ => obtain ⟨-, rfl⟩ := Prod.mk.inj (Option.some.inj h); simp

/-! ## The session -/

/-- The calls of the handlers of a request. -/
def callsOf (n : Nat) (calls : List (Call κ)) : List (Call κ) := calls.filter (·.request = n)

/-- What holds after a run. -/
structure Ok (es : List (Event κ)) (s : State κ) : Prop where
  length : s.requests.length = (made es).length
  request : ∀ n r error, s.requests[n]? = some r → (made es)[n]? = some error →
    RequestOk jsonObject n error (history es n) (callsOf n (s.called ++ s.main)) r
  /-- Nothing happens to a request before it is made. -/
  later : ∀ n, s.requests.length ≤ n →
    history es n = [] ∧ callsOf n (s.called ++ s.main) = []

theorem ok_init : Ok jsonObject [] (State.init (κ := κ)) where
  length := rfl
  request := by simp [State.init]
  later := fun _ _ => ⟨rfl, rfl⟩

theorem history_concat (es : List (Event κ)) (n m : Nat) (c : Callback κ) :
    history (es ++ [.callback m c]) n = history es n ++ if m = n then [c] else [] := by
  by_cases hm : m = n <;> simp [history, hm]

theorem callsOf_append (n : Nat) (calls calls' : List (Call κ)) :
    callsOf n (calls ++ calls') = callsOf n calls ++ callsOf n calls' := List.filter_append ..

/-- What one request leaves to the main queue is its own. -/
theorem callsOf_new {n m : Nat} {new : List (Call κ)} (h : ∀ call ∈ new, call.request = m) :
    callsOf n new = if m = n then new else [] := by
  split
  next hm =>
    rw [callsOf, List.filter_eq_self]
    simpa [hm] using h
  next hm =>
    rw [callsOf, List.filter_eq_nil_iff]
    intro call hcall
    simpa [h call hcall] using hm

section Steps

variable {jsonObject} {es : List (Event κ)} {s : State κ} (hs : Ok jsonObject es s)
include hs

theorem Ok.request_made (error : Option Int) :
    Ok jsonObject (es ++ [.request error]) { s with requests := s.requests ++ [DataRequest.init error] } := by
  have hmade : made (es ++ [.request error]) = made es ++ [error] := by simp [made]
  have hhistory : ∀ n, history (es ++ [.request error]) n = history es n := by simp [history]
  refine ⟨by simp [hmade, hs.length], fun n r error' hr herror => ?_, fun n hn => ?_⟩
  · rw [hhistory]
    rw [hmade] at herror
    obtain hlt | rfl | hgt := Nat.lt_trichotomy n s.requests.length
    · rw [List.getElem?_append_left hlt] at hr
      rw [List.getElem?_append_left (hs.length ▸ hlt)] at herror
      exact hs.request n r error' hr herror
    · obtain ⟨hempty, hcalls⟩ := hs.later _ le_rfl
      obtain rfl : DataRequest.init error = r := by simpa using hr
      obtain rfl : error = error' := by simpa [hs.length] using herror
      rw [hempty, hcalls]
      exact requestOk_init jsonObject _ error
    · have hlen := (List.getElem?_eq_some_iff.1 hr).1
      simp at hlen
      omega
  · rw [hhistory]
    simp only [List.length_append, List.length_singleton] at hn
    exact hs.later n (by omega)

theorem Ok.callback {m : Nat} {r : DataRequest κ} (hr : s.requests[m]? = some r) {c : Callback κ}
    (hc : r.Accepts c) : ∃ r' new, r.handle jsonObject m c = some (r', new) ∧
      Ok jsonObject (es ++ [.callback m c])
        { s with requests := s.requests.set m r', main := s.main ++ new } := by
  have hm : m < s.requests.length := (List.getElem?_eq_some_iff.1 hr).1
  obtain ⟨error, herror⟩ : ∃ error, (made es)[m]? = some error :=
    ⟨_, List.getElem?_eq_getElem (hs.length ▸ hm)⟩
  obtain ⟨r', new, hhandle, hr'⟩ := (hs.request m r error hr herror).handle hc
  refine ⟨r', new, hhandle, ?_⟩
  have hmade : made (es ++ [.callback m c]) = made es := by simp [made]
  have hcalls : ∀ n, callsOf n (s.called ++ (s.main ++ new)) =
      callsOf n (s.called ++ s.main) ++ if m = n then new else [] := by
    intro n
    rw [← List.append_assoc, callsOf_append, callsOf_new (handle_request jsonObject hhandle)]
  refine ⟨by simpa [hmade] using hs.length, fun n q error' hq herror' => ?_, fun n hn => ?_⟩
  · rw [hmade] at herror'
    rw [history_concat, hcalls]
    by_cases hmn : m = n
    · subst hmn
      obtain rfl : error = error' := Option.some.inj (herror.symm.trans herror')
      obtain rfl : r' = q := by simpa [hm] using hq
      simpa using hr'
    · rw [List.getElem?_set_ne hmn] at hq
      simpa [hmn] using hs.request n q error' hq herror'
  · rw [List.length_set] at hn
    have hmn : m ≠ n := by omega
    rw [history_concat, hcalls]
    simpa [hmn] using hs.later n hn

theorem Ok.main {c : Call κ} {rest : List (Call κ)} (hmain : s.main = c :: rest) :
    Ok jsonObject (es ++ [.main]) { s with main := rest, called := s.called ++ [c] } := by
  have hmade : made (es ++ [.main]) = made es := by simp [made]
  have hhistory : ∀ n, history (es ++ [.main]) n = history es n := by simp [history]
  have hcalls : (s.called ++ [c]) ++ rest = s.called ++ s.main := by simp [hmain]
  refine ⟨hmade ▸ hs.length, fun n r error hr herror => ?_, fun n hn => ?_⟩
  · rw [hmade] at herror
    rw [hhistory, hcalls]
    exact hs.request n r error hr herror
  · rw [hhistory, hcalls]
    exact hs.later n hn

theorem Ok.step {e : Event κ} (he : Enabled s e) :
    ∃ s', step jsonObject s e = some s' ∧ Ok jsonObject (es ++ [e]) s' := by
  cases e with
  | request error => exact ⟨_, rfl, hs.request_made error⟩
  | callback m c =>
    obtain ⟨r, hr, hc⟩ := he
    obtain ⟨r', new, hhandle, hok⟩ := hs.callback hr hc
    exact ⟨_, by simp [Alamofire.step, hr, hhandle], hok⟩
  | main =>
    obtain ⟨c, rest, hmain⟩ := List.exists_cons_of_ne_nil he
    exact ⟨_, by simp only [Alamofire.step, hmain], hs.main hmain⟩

end Steps

/-! ## Whole runs -/

/-- Nothing is left to run. -/
def Quiet (s : State κ) : Prop :=
  s.main = [] ∧ ∀ r ∈ s.requests, r.isSuspended = false → r.queue = []

/-- The calls that are due to the handlers of a request. -/
def due (es : List (Event κ)) (n : Nat) (error : Option Int) : List (Call κ) :=
  (handlers (history es n)).map (answer jsonObject n error (history es n))

/-- Every handler is called in turn, at most once and after its request has finished, with what its own
    request got; where nothing is left to run, every handler of a finished request has been called. -/
theorem answered_run (es : Runs.Schedule (step (κ := κ) jsonObject) Enabled State.init) :
    ∃ s, Runs.exec (step jsonObject) State.init es.events = some s ∧
      ∀ n error, (made es.events)[n]? = some error →
        callsOf n s.called <+: due jsonObject es.events n error ∧
        (callsOf n s.called ≠ [] → Finished error (history es.events n)) ∧
        (Quiet s → Finished error (history es.events n) →
          callsOf n s.called = due jsonObject es.events n error) := by
  obtain ⟨s, hexec, hs⟩ := Runs.exec_traced (fun _ _ _ h he => h.step he) (ok_init jsonObject) es.enabled
  refine ⟨s, hexec, fun n error herror => ?_⟩
  obtain ⟨r, hr⟩ : ∃ r, s.requests[n]? = some r :=
    ⟨_, List.getElem?_eq_getElem (hs.length ▸ (List.getElem?_eq_some_iff.1 herror).1)⟩
  have hok := hs.request n r error hr herror
  obtain ⟨ran, hran, hcalls, hnone⟩ := hok.calls_eq
  rw [callsOf_append] at hcalls
  have hfinished : r.isSuspended = false ↔ Finished error (history es.events n) := by
    rw [hok.suspended_eq, hok.registered_eq, Bool.and_eq_false_iff]
    simp [Finished, Option.isSome_iff_ne_none]
  have hdue : due jsonObject es.events n error = callsOf n s.called ++ callsOf n s.main ++
      r.queue.map (answer jsonObject n error (history es.events n)) := by
    rw [due, hran, List.map_append, hcalls]
  refine ⟨?_, fun hne => ?_, fun hquiet hfin => ?_⟩
  · rw [hdue, List.append_assoc]
    exact List.prefix_append ..
  · rw [← hfinished]
    by_contra hsus
    obtain rfl := hnone (Bool.eq_true_of_not_eq_false hsus)
    exact hne (List.append_eq_nil_iff.1 hcalls).1
  · obtain ⟨hmain, hqueues⟩ := hquiet
    rw [hdue, hmain, hqueues r (List.mem_of_getElem? hr) (hfinished.2 hfin)]
    simp [callsOf]

/-- The bytes are read as their number. -/
def count (data : Data) : Option Json := some (.int data.length)

/-- A request whose task goes on after another one has failed to start, and a chunk that comes late. -/
def twoRequests : List (Event Nat) :=
  [.request none, .request (some 5), .callback 0 (.responseJSON 7), .callback 0 (.didReceiveResponse 200),
   .callback 0 (.didReceiveData [1, 2]), .callback 1 (.responseJSON 8), .callback 1 .operation,
   .callback 0 (.responseJSON 9), .callback 0 (.didCompleteWithError none),
   .callback 0 (.didReceiveData [3]), .callback 0 .operation, .main, .main, .callback 0 .operation, .main]

theorem answered_twoRequests :
    (Runs.exec (step count) State.init twoRequests).map (·.called.map fun c =>
        (c.request, c.handler, c.statusCode, c.response.value.bind Json.asInt)) =
      some [(1, 8, none, none), (0, 7, some 200, some 2), (0, 9, some 200, some 2)] ∧
    ∃ s, Runs.exec (step count) State.init twoRequests = some s ∧
      ∀ n error, (made twoRequests)[n]? = some error →
        callsOf n s.called <+: due count twoRequests n error := by
  obtain ⟨s, hs, hcalls⟩ := answered_run count ⟨twoRequests, by decide⟩
  exact ⟨by decide, s, hs, fun n error herror => (hcalls n error herror).1⟩

end Shiftgram.Alamofire
