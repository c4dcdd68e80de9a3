import Mathlib.Algebra.Order.Ring.Rat
import QuantumService.Service.Transpiler

/-! The client's job handle (`remote_aer_backend.py`). A request is an error when
`requests` raises one of its own exceptions; decoding the results is a parameter.
Printing is left out. -/
namespace QuantumService.Client
open Interaction Program
open Service (Response)

/-- The calls of `_poll_for_result`. A URL is given by its path. -/
inductive Call where
  | time
  | get (path : List String)
  | sleep (seconds : ℚ)
  deriving DecidableEq

abbrev Call.Answer : Call → Type
  | .time => ℚ
  | .get _ => Except String Response
  | .sleep _ => Unit

/-- What the client raises, other than the exceptions it retries. -/
inductive Raised where
  | timeout (message : String)
  | failed (error : Json)
  | keyError (key : String)
  | decoding (message : String)
  deriving DecidableEq

abbrev Polling := Program Call Call.Answer

/-- The values of qiskit's `JobStatus` that `status` returns. -/
inductive JobStatus where
  | queued
  | running
  | done
  | error
  deriving DecidableEq

/-- `state_map`. -/
def stateMap : List (Json × JobStatus) :=
  [(.str "pending", .queued), (.str "in progress", .running), (.str "completed", .done),
    (.str "failed", .error)]

/-- The text of a bound method, which Python gives it by its qualified name and the
`repr` of its object. -/
def boundMethod (name repr : String) : String := s!"<bound method {name} of {repr}>"

/-- `RemoteAerJob`, as far as polling reads it. -/
structure RemoteAerJob where
  jobId : String
  timeout : Int
  deriving DecidableEq

namespace RemoteAerJob
variable {Value : Type}

def statusPath (job : RemoteAerJob) : List String := ["job", job.jobId, "status"]
def resultPath (job : RemoteAerJob) : List String := ["job", job.jobId, "result"]

/-- The second request of a round, for the results of a completed job. -/
def fetchResult (job : RemoteAerJob) (decode : Json → Except String Value) :
    Polling (Option (Except Raised Value)) := do
  match ← query (Call.get job.resultPath) with
  | .error _ => return none
  | .ok resultResp =>
      match resultResp.body.lookup "result" with
      | none => return some (.error (.keyError "result"))
      | some resultB64 =>
          match decode resultB64 with
          | .ok result => return some (.ok result)
          | .error err => return some (.error (.decoding err))

/-- The `try` statement. It has no result if the round is to be followed by a
sleep, with which both of its branches end. -/
def pollOnce (job : RemoteAerJob) (decode : Json → Except String Value) :
    Polling (Option (Except Raised Value)) := do
  match ← query (Call.get job.statusPath) with
  | .error _ => return none
  | .ok response =>
      if response.code = 200 then
        let state := response.body.getD "jobStatus" (.str "")
        if state = .str "completed" then
          job.fetchResult decode
        else if state = .str "failed" then
          return some (.error (.failed (response.body.getD "errorMessage" (.str "Unknown error"))))
        else return none
      else return none

def timeoutError (job : RemoteAerJob) : Raised :=
  .timeout s!"Job {job.jobId} did not complete within {job.timeout}s"

/-- The `while` loop, for at most `fuel` tests of its condition. -/
def pollLoop (job : RemoteAerJob) (decode : Json → Except String Value) (interval start : ℚ) :
    Nat → Polling (Option (Except Raised Value))
  | 0 => return none
  | fuel + 1 => do
      let now ← query Call.time
      if now - start < job.timeout then
        match ← job.pollOnce decode with
        | some outcome => return some outcome
        | none =>
            query (Call.sleep interval)
            job.pollLoop decode interval start fuel
      else return some (.error job.timeoutError)

/-- `_poll_for_result`. Without a result the fuel has run out. -/
def pollForResult (job : RemoteAerJob) (decode : Json → Except String Value) (interval : ℚ)
    (fuel : Nat) : Polling (Option (Except Raised Value)) := do
  let start ← query Call.time
  job.pollLoop decode interval start fuel

/-- The path of the URL in `status`, in which stands the method `self.job_id` itself:
it is not called. `name` and `repr` are what Python prints it by. -/
def methodPath (name repr : String) : List String := ["job", boundMethod name repr, "status"]

/-- `status`. Its `except` clause passes. -/
def status (name repr : String) : Polling JobStatus := do
  match ← query (Call.get (methodPath name repr)) with
  | .error _ => return .queued
  | .ok response =>
      if response.code = 200 then
        let state := response.body.getD "state" (.str "")
        return (stateMap.lookup state).getD .queued
      else return .queued

end RemoteAerJob
end QuantumService.Client
