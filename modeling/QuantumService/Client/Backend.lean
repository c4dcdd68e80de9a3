import QuantumService.Client.RemoteAerJob

/-! The client's backend (`remote_aer_backend.py`), which submits circuits and hands out
a job for them, and the results of that job with their cache. Printing is left out. -/
namespace QuantumService.Client
open Interaction Program
open Service (Response)

/-- The calls of `run`. A URL is given by its path. -/
inductive RunCall where
  | uuid4
  | post (path : List String) (json : Object)
  deriving DecidableEq

/-- `uuid4` answers with the `hex` of the identifier. -/
abbrev RunCall.Answer : RunCall → Type
  | .uuid4 => String
  | .post _ _ => Except String Response

/-- What `run` raises: the exception of `qpy.dump` as it is, one of its own with the
response or with the text of an exception of `requests`, or a `KeyError`. -/
inductive RunRaised where
  | dump (message : String)
  | simulatorError (response : Response)
  | unreachable (message : String)
  | keyError (key : String)
  deriving DecidableEq

/-- `RemoteAerBackend`, as far as `run` reads it. Its jobs read the same `JOB_TIMEOUT`. -/
structure RemoteAerBackend where
  name : String
  timeout : Int
  deriving DecidableEq

/-- Circuits are given alone or as a list. -/
def asList {Circuit : Type} : Circuit ⊕ List Circuit → List Circuit
  | .inl circuit => [circuit]
  | .inr circuits => circuits

namespace RemoteAerBackend

/-- The body of the request. -/
def json (backend : RemoteAerBackend) (circuitsB64 : String) (shots : Json) (jobId : String) :
    Object :=
  [("circuits_qpy", .str circuitsB64), ("shots", shots), ("backend_name", .str backend.name),
    ("job_id", .str jobId)]

/-- `uuid.uuid4().hex[:16]`. -/
def jobIdOf (hex : String) : String := String.ofList (hex.toList.take 16)

/-- `run`; `dump` is `qpy.dump`, then `base64.b64encode`. -/
def run {Circuit : Type} (backend : RemoteAerBackend)
    (dump : List Circuit → Except String String) (circuits : Circuit ⊕ List Circuit)
    (options : Object) : Program RunCall RunCall.Answer (Except RunRaised RemoteAerJob) := do
  let shots := options.getD "shots" (.int 1024)
  match dump (asList circuits) with
  | .error err => return .error (.dump err)
  | .ok circuitsB64 =>
      let hex ← query RunCall.uuid4
      match ← query (RunCall.post ["transpile"] (backend.json circuitsB64 shots (jobIdOf hex))) with
      | .error err => return .error (.unreachable err)
      | .ok response =>
          if response.code = 202 then
            match response.body.lookup "job_id" with
            | none => return .error (.keyError "job_id")
            | some jobId => return .ok ⟨jobId.text, backend.timeout⟩
          else return .error (.simulatorError response)

/-- Where the job of `run` comes from: a request with the circuits was accepted. -/
def Accepted {Circuit : Type} (backend : RemoteAerBackend)
    (dump : List Circuit → Except String String) (circuits : Circuit ⊕ List Circuit)
    (options : Object) (history : List (Event RunCall.Answer)) (job : RemoteAerJob) : Prop :=
  ∃ circuitsB64 hex response, dump (asList circuits) = .ok circuitsB64 ∧
    ⟨.post ["transpile"]
      (backend.json circuitsB64 (options.getD "shots" (.int 1024)) (jobIdOf hex)), .ok response⟩ ∈
        history ∧
    response.code = 202 ∧ job.jobId = (response.body.get "job_id").text

variable {Circuit : Type} {backend : RemoteAerBackend}
  {dump : List Circuit → Except String String} {circuits : Circuit ⊕ List Circuit}
  {options : Object}

/-- A job is handed out only for a request that was accepted. -/
theorem run_follows : (backend.run dump circuits options).Follows (fun _ _ => True)
    (fun history outcome => ∀ job, outcome = .ok job →
      Accepted backend dump circuits options history job) [] := by
  unfold run
  dsimp only
  split
  · rintro job ⟨⟩
  · rename_i circuitsB64 hDump
    refine .query trivial fun hex => .query trivial fun answer => ?_
    cases answer with
    | error err => rintro job ⟨⟩
    | ok response =>
        dsimp only
        split
        · rename_i hCode
          split
          · rintro job ⟨⟩
          · rename_i jobId hJobId
            rintro job ⟨⟩
            refine ⟨circuitsB64, hex, response, hDump, last_mem _, hCode, ?_⟩
            rw [Object.get, Object.getD, hJobId, Option.getD_some]
        · rintro job ⟨⟩

end RemoteAerBackend

namespace RemoteAerJob
variable {Value : Type} {job : RemoteAerJob} {decode : Json → Except String (Option Value)}

/-- `result`, given what `_result_cache` holds. A value of `None` is not cached, and the
job is polled again. -/
def result (job : RemoteAerJob) (decode : Json → Except String (Option Value)) (fuel : Nat) :
    Option Value → Polling (Option (Except Raised (Option Value)))
  | some value => return some (.ok (some value))
  | none => job.pollForResult decode 5 fuel

/-- What a poll ends with is what an answer to it said. -/
inductive Heard (job : RemoteAerJob) (decode : Json → Except String (Option Value))
    (history : List (Event Call.Answer)) : Except Raised (Option Value) → Prop where
  | value {response : Response} {resultB64 : Json} {value : Option Value}
      (answered : ⟨.get job.resultPath, .ok response⟩ ∈ history)
      (found : response.body.lookup "result" = some resultB64)
      (decoded : decode resultB64 = .ok value) : Heard job decode history (.ok value)
  | failed {response : Response}
      (answered : ⟨.get job.statusPath, .ok response⟩ ∈ history) (code : response.code = 200)
      (state : response.body.get "jobStatus" = .str "failed") :
      Heard job decode history
        (.error (.failed (response.body.getD "errorMessage" (.str "Unknown error"))))
  | timeout : Heard job decode history (.error job.timeoutError)
  | keyError {key : String} : Heard job decode history (.error (.keyError key))
  | decoding {message : String} : Heard job decode history (.error (.decoding message))

/-- A value other than the default is there. -/
theorem get_of_getD {object : Object} {key : String} {default value : Json}
    (h : object.getD key default = value) (other : default ≠ value) : object.get key = value := by
  rw [Object.getD] at h
  rw [Object.get, Object.getD]
  cases hLookup : object.lookup key with
  | none =>
      rw [hLookup] at h
      exact absurd h other
  | some found =>
      rw [hLookup] at h
      exact h

section Polling
variable {history : List (Event Call.Answer)}

/-- Whatever outcome there is was heard. -/
def Hears (job : RemoteAerJob) (decode : Json → Except String (Option Value))
    (history : List (Event Call.Answer)) (result : Option (Except Raised (Option Value))) : Prop :=
  ∀ outcome, result = some outcome → Heard job decode history outcome

theorem fetchResult_follows :
    (job.fetchResult decode).Follows (fun _ _ => True) (Hears job decode) history := by
  unfold fetchResult
  refine .query trivial fun answer => ?_
  cases answer with
  | error err => rintro outcome ⟨⟩
  | ok resultResp =>
      dsimp only
      split
      · rintro outcome ⟨⟩
        exact .keyError
      · rename_i resultB64 hFound
        split
        · rename_i value hDecoded
          rintro outcome ⟨⟩
          exact .value (last_mem _) hFound hDecoded
        · rintro outcome ⟨⟩
          exact .decoding

theorem pollOnce_follows :
    (job.pollOnce decode).Follows (fun _ _ => True) (Hears job decode) history := by
  unfold pollOnce
  refine .query trivial fun answer => ?_
  cases answer with
  | error err => rintro outcome ⟨⟩
  | ok response =>
      dsimp only
      split
      · rename_i hCode
        split
        · exact fetchResult_follows
        split
        · rename_i hFailed
          rintro outcome ⟨⟩
          refine .failed (last_mem _) hCode ?_
          exact get_of_getD hFailed (by decide)
        · rintro outcome ⟨⟩
      · rintro outcome ⟨⟩

theorem pollLoop_follows (interval start : ℚ) (fuel : Nat) :
    (job.pollLoop decode interval start fuel).Follows (fun _ _ => True) (Hears job decode)
      history := by
  induction fuel generalizing history with
  | zero => rintro outcome ⟨⟩
  | succ fuel ih =>
      unfold pollLoop
      refine .query trivial fun now => ?_
      split
      · refine pollOnce_follows.bind fun later result hHeard => ?_
        cases result with
        | some outcome => exact hHeard
        | none => exact .query trivial fun _ => ih
      · rintro outcome ⟨⟩
        exact .timeout

/-- What a call of `result` ends with is what it heard of the job. -/
theorem result_follows (fuel : Nat) :
    (job.result decode fuel none).Follows (fun _ _ => True) (Hears job decode) [] := by
  unfold result pollForResult
  exact .query trivial fun start => pollLoop_follows 5 start fuel

end Polling
end RemoteAerJob
end QuantumService.Client
