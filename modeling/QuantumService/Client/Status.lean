import QuantumService.Api.Names
import QuantumService.Client.RemoteAerJob
import QuantumService.Deployment.Completed

/-! The client's two views of a job. `_poll_for_result` and `status` each read the
answer of the status endpoint, by a URL, a key and a table of their own. -/
namespace QuantumService.Client
open Interaction Program
open Service (Response)

namespace RemoteAerJob
variable {Value : Type} {job : RemoteAerJob} {decode : Json → Except String Value}

section Rounds
variable {interval start : ℚ} {history : List (Event Call.Answer)}

/-- What a round does with the answer to its first request. -/
def pollAnswer (job : RemoteAerJob) (decode : Json → Except String Value) :
    Except String Response → Polling (Option (Except Raised Value))
  | .error _ => return none
  | .ok response =>
      if response.code = 200 then
        if response.body.getD "jobStatus" (.str "") = .str "completed" then job.fetchResult decode
        else if response.body.getD "jobStatus" (.str "") = .str "failed" then
          return some (.error (.failed (response.body.getD "errorMessage" (.str "Unknown error"))))
        else return none
      else return none

/-- How the loop goes on from a round. -/
def proceed (interval : ℚ) (rest : Polling (Option (Except Raised Value))) :
    Option (Except Raised Value) → Polling (Option (Except Raised Value))
  | some outcome => return some outcome
  | none => do
      query (Call.sleep interval)
      rest

theorem pollOnce_eq : job.pollOnce decode =
    .ask (.get job.statusPath) (job.pollAnswer decode) := by
  rw [pollOnce, query_bind]
  congr 1
  funext answer
  cases answer <;> rfl

theorem pollLoop_succ (fuel : Nat) : job.pollLoop decode interval start (fuel + 1) =
    .ask .time fun now =>
      if now - start < job.timeout then
        job.pollOnce decode >>= proceed interval (job.pollLoop decode interval start fuel)
      else .done (some (.error job.timeoutError)) := rfl

theorem statusPath_ne_resultPath (job : RemoteAerJob) : job.statusPath ≠ job.resultPath := by
  simp [statusPath, resultPath]

/-- After its first request a round requests at most the results. -/
theorem pollAnswer_follows (answer : Except String Response) :
    (job.pollAnswer decode answer).Follows (fun _ call => call = .get job.resultPath)
      (fun _ _ => True) history := by
  cases answer with
  | error err => exact trivial
  | ok response =>
      rw [pollAnswer, fetchResult]
      split
      · split
        · refine .query rfl fun answer => ?_
          cases answer with
          | error err => exact trivial
          | ok resultResp =>
              dsimp only
              split
              · exact trivial
              · split <;> exact trivial
        · split <;> exact trivial
      · exact trivial

/-- Each request for the status begins a round. -/
theorem pollLoop_round {fuel : Nat} {next : Except String Response → Polling _}
    (path : Path (job.pollLoop decode interval start fuel) history
      (.ask (.get job.statusPath) next)) :
    ∃ rest, next = fun answer => job.pollAnswer decode answer >>= proceed interval rest := by
  induction fuel generalizing history with
  | zero => cases path
  | succ fuel ih =>
      rw [pollLoop_succ] at path
      cases path with
      | @cons _ _ now later _ path =>
          dsimp only at path
          split at path
          · rcases path.bind_inv with ⟨first, hFirst, rfl⟩ | ⟨before, after, result, -, -, hAfter⟩
            · rw [pollOnce_eq] at hFirst
              cases hFirst with
              | nil => exact ⟨_, rfl⟩
              | @cons _ _ answer _ _ hLater =>
                  have hCall := (pollAnswer_follows answer).call hLater
                  exact absurd (Call.get.inj hCall) job.statusPath_ne_resultPath
            · cases result with
              | some outcome => cases hAfter
              | none =>
                  cases hAfter with
                  | cons path => exact ih path
          · cases path

end Rounds

/-- `_poll_for_result` waits for the status. -/
structure Round (job : RemoteAerJob) (decode : Json → Except String Value) where
  interval : ℚ
  fuel : Nat
  history : List (Event Call.Answer)
  next : Except String Response → Polling (Option (Except Raised Value))
  path : Path (job.pollForResult decode interval fuel) history (.ask (.get job.statusPath) next)

namespace Round
variable (round : Round job decode) {response : Response}

/-- It goes on to fetch the result. -/
def Fetches (response : Response) : Prop :=
  ∃ rest, round.next (.ok response) = .ask (.get job.resultPath) rest

/-- It raises the exception of a failed job. -/
def Fails (response : Response) : Prop :=
  ∃ error, round.next (.ok response) = .done (some (.error (.failed error)))

theorem next_eq : ∃ rest, round.next =
    fun answer => job.pollAnswer decode answer >>= proceed round.interval rest := by
  obtain ⟨interval, fuel, history, next, path⟩ := round
  unfold pollForResult at path
  cases path with
  | cons path => exact pollLoop_round path

/-- It fetches the result, raises, or sleeps. -/
theorem next_cases (response : Response) :
    (response.code = 200 ∧ response.body.getD "jobStatus" (.str "") = .str "completed" ∧
      round.Fetches response) ∨
    (response.code = 200 ∧ response.body.getD "jobStatus" (.str "") = .str "failed" ∧
      round.Fails response) ∨
    ((response.code = 200 → response.body.getD "jobStatus" (.str "") ≠ .str "completed" ∧
        response.body.getD "jobStatus" (.str "") ≠ .str "failed") ∧
      ∃ rest, round.next (.ok response) = .ask (.sleep round.interval) rest) := by
  obtain ⟨rest, hNext⟩ := round.next_eq
  rw [Fetches, Fails, hNext]
  simp only [pollAnswer]
  split
  · rename_i hCode
    split
    · rename_i hCompleted
      exact .inl ⟨hCode, hCompleted, _, rfl⟩
    · rename_i hCompleted
      split
      · rename_i hFailed
        exact .inr (.inl ⟨hCode, hFailed, _, rfl⟩)
      · rename_i hFailed
        exact .inr (.inr ⟨fun _ => ⟨hCompleted, hFailed⟩, _, rfl⟩)
  · rename_i hCode
    exact .inr (.inr ⟨fun h => absurd h hCode, _, rfl⟩)

theorem fetches_iff : round.Fetches response ↔
    response.code = 200 ∧ response.body.getD "jobStatus" (.str "") = .str "completed" := by
  rcases round.next_cases response with ⟨hCode, hState, hFetches⟩ | ⟨-, hState, error, hNext⟩ |
    ⟨hState, rest, hNext⟩
  · exact iff_of_true hFetches ⟨hCode, hState⟩
  · rw [Fetches, hNext, hState]
    simp
  · rw [Fetches, hNext]
    simp only [Program.ask.injEq, reduceCtorEq, false_and, exists_false, false_iff]
    exact fun h => (hState h.1).1 h.2

theorem fails_iff : round.Fails response ↔
    response.code = 200 ∧ response.body.getD "jobStatus" (.str "") = .str "failed" := by
  rcases round.next_cases response with ⟨-, hState, rest, hNext⟩ | ⟨hCode, hState, hFails⟩ |
    ⟨hState, rest, hNext⟩
  · rw [Fails, hNext, hState]
    simp
  · exact iff_of_true hFails ⟨hCode, hState⟩
  · rw [Fails, hNext]
    simp only [reduceCtorEq, exists_false, false_iff]
    exact fun h => (hState h.1).2 h.2

/-- The first request, if the clock is not past the time out. -/
def first (job : RemoteAerJob) (decode : Json → Except String Value) : Round job decode where
  interval := 5
  fuel := 1
  history := [⟨.time, 0⟩, ⟨.time, job.timeout - 1⟩]
  next := fun answer => job.pollAnswer decode answer >>= proceed 5 (.done none)
  path := by
    have hTime : (job.timeout : ℚ) - 1 - 0 < job.timeout := by
      rw [sub_zero]
      exact sub_one_lt _
    have hLoop : Path (job.pollLoop decode 5 0 1) [⟨.time, (job.timeout : ℚ) - 1⟩]
        (.ask (.get job.statusPath) fun answer =>
          job.pollAnswer decode answer >>= proceed 5 (.done none)) := by
      rw [pollLoop_succ]
      refine .cons ?_
      rw [if_pos hTime, pollOnce_eq]
      exact .nil _
    exact .cons hLoop

end Round

section Answers
variable (q : Service.Qiskit) (cfg : Service.Config) (job : RemoteAerJob)
  (status : QuantumAerJobStatus)

/-- The answer of the status endpoint for the job. Reading its status meets no fault. -/
def Served (response : Response) : Prop :=
  Path (Service.getJobStatusEndpoint q cfg job.jobId)
    [⟨.getCustomObject ⟨cfg.k8sNamespace, Service.jobName (.str job.jobId)⟩,
      .ok (some (statusObject status))⟩] (.done response)

variable {q cfg job status} {response : Response}

/-- A status is handed on unless it is empty. -/
theorem served_iff : Served q cfg job status response ↔
    response = if (statusObject status).isEmpty then
      ⟨404, [("error", .str s!"Job {job.jobId} is not Found"), ("details", .str "")]⟩
    else ⟨200, statusObject status⟩ := by
  rw [Served, Service.getJobStatusEndpoint, Service.getQuantumJobStatus, Service.call]
  simp only [query_bind, ask_bind, path_single_iff, pure_eq, done_bind, Option.getD_some]
  split
  · rw [Program.done.injEq, eq_comm]
  · rw [Program.done.injEq, eq_comm]

theorem getD_statusObject (status : QuantumAerJobStatus) :
    (statusObject status).getD "jobStatus" (.str "") = .str status.jobStatus := by
  rw [Object.getD, lookup_statusObject_jobStatus]
  split
  · rfl
  · rename_i hEmpty
    rw [not_not.mp hEmpty]
    rfl

/-- The client reads the stored state from the answer, unless that is empty. -/
theorem Served.reads (served : Served q cfg job status response) {state : JobState}
    (given : state ≠ "") :
    response.code = 200 ∧ response.body.getD "jobStatus" (.str "") = .str state ↔
      status.jobStatus = state := by
  rw [served_iff] at served
  split at served
  · rename_i hEmpty
    have hState := getD_statusObject status
    rw [List.isEmpty_iff.mp hEmpty] at hState
    have hUnset : "" = status.jobStatus := Json.str.inj hState
    rw [served, ← hUnset]
    exact iff_of_false (fun h => absurd h.1 (by simp)) given.symm
  · rw [served, getD_statusObject]
    simp

/-- What `status` returns when its request is answered like this. -/
def Shows (name repr : String) (response : Response) (state : JobStatus) : Prop :=
  Path (RemoteAerJob.status name repr) [⟨.get (methodPath name repr), .ok response⟩] (.done state)

/-- A status has no field `state`: whatever is stored, `status` returns the default. -/
theorem Served.shows_iff (served : Served q cfg job status response) {name repr : String}
    {state : JobStatus} : Shows name repr response state ↔ state = .queued := by
  have hState : response.body.getD "state" (.str "") = .str "" := by
    rw [served_iff] at served
    split at served
    · rw [served]
      rfl
    · rw [served, Object.getD, lookup_statusObject_state, Option.getD_none]
  have hDefault : (stateMap.lookup (.str "")).getD .queued = .queued := rfl
  rw [Shows, RemoteAerJob.status, query_bind, path_single_iff]
  simp only [hState, hDefault, pure_eq, ite_self, Program.done.injEq]
  exact eq_comm

end Answers

/-- `status` and `_poll_for_result` make the same of one answer. -/
structure SameVerdict (round : Round job decode) (status : QuantumAerJobStatus)
    (response : Response) (state : JobStatus) : Prop where
  done : state = .done ↔ round.Fetches response
  error : state = .error ↔ round.Fails response
  running : state = .running ↔ status.jobStatus = .progress
  queued : state = .queued ↔ ¬ round.Fetches response ∧ ¬ round.Fails response ∧
    status.jobStatus ≠ .progress

/-- `status` asks about the job that `_poll_for_result` asks about, and makes the same
of each answer. -/
structure ViewsAgree (q : Service.Qiskit) (cfg : Service.Config) (job : RemoteAerJob)
    (name repr : String) (decode : Json → Except String Value) (status : QuantumAerJobStatus) :
    Prop where
  asked : ∀ path next, RemoteAerJob.status name repr = .ask (.get path) next →
    path = job.statusPath
  verdict : ∀ response state (round : Round job decode), Served q cfg job status response →
    Shows name repr response state → SameVerdict round status response state

section Agreement
variable {q : Service.Qiskit} {cfg : Service.Config} {status : QuantumAerJobStatus}
  {response : Response} {name repr : String}

theorem Round.fetches_served (round : Round job decode)
    (served : Served q cfg job status response) :
    round.Fetches response ↔ status.jobStatus = .completed := by
  rw [round.fetches_iff]
  exact served.reads JobState.completed_ne_new

theorem Round.fails_served (round : Round job decode)
    (served : Served q cfg job status response) :
    round.Fails response ↔ status.jobStatus = .failed := by
  rw [round.fails_iff]
  exact served.reads JobState.failed_ne_new

/-- A default is right for the states that have no other name in the table. -/
theorem sameVerdict_queued_iff (round : Round job decode)
    (served : Served q cfg job status response) :
    SameVerdict round status response .queued ↔ status.jobStatus ≠ .completed ∧
      status.jobStatus ≠ .failed ∧ status.jobStatus ≠ .progress := by
  have hFetches := round.fetches_served served
  have hFails := round.fails_served served
  constructor
  · intro same
    obtain ⟨hNone, hNoError, hIdle⟩ := same.queued.mp rfl
    exact ⟨mt hFetches.mpr hNone, mt hFails.mpr hNoError, hIdle⟩
  · rintro ⟨hCompleted, hFailed, hIdle⟩
    exact {
      done := iff_of_false (by simp) (mt hFetches.mp hCompleted)
      error := iff_of_false (by simp) (mt hFails.mp hFailed)
      running := iff_of_false (by simp) hIdle
      queued := iff_of_true rfl ⟨mt hFetches.mp hCompleted, mt hFails.mp hFailed, hIdle⟩ }

theorem asked_iff : (∀ path next, RemoteAerJob.status name repr = .ask (.get path) next →
    path = job.statusPath) ↔ job.jobId = boundMethod name repr := by
  constructor
  · intro asked
    have hPath := asked (methodPath name repr) _ rfl
    simp only [methodPath, statusPath, List.cons.injEq, and_true, true_and] at hPath
    exact hPath.symm
  · intro hId path next hAsks
    cases hAsks
    rw [methodPath, statusPath, hId]

/-- Kubernetes admits no job of that name. -/
theorem jobName_boundMethod (name repr : String) :
    isDNS1123Subdomain (Service.jobName (.str (boundMethod name repr))) = false := by
  have hMem : '<' ∈ (Service.jobName (.str (boundMethod name repr))).toList := by
    have hText : Service.jobName (.str (boundMethod name repr)) =
        "qjob-" ++ ("<bound method " ++ name ++ " of " ++ repr ++ ">") := rfl
    rw [hText]
    simp
  rw [Bool.eq_false_iff]
  intro hValid
  exact absurd (alphabet_of_isDNS1123Subdomain hValid hMem) (by decide)

/-- The two views of a job agree exactly if its identifier is the text of the method, which
no job's is, and its state is one that `_poll_for_result` waits in and that is not in
progress. -/
theorem views_agree_iff (q : Service.Qiskit) (cfg : Service.Config) (job : RemoteAerJob)
    (name repr : String) (decode : Json → Except String Value) (status : QuantumAerJobStatus) :
    (ViewsAgree q cfg job name repr decode status ↔
      job.jobId = boundMethod name repr ∧ status.jobStatus ≠ .completed ∧
        status.jobStatus ≠ .failed ∧ status.jobStatus ≠ .progress) ∧
    isDNS1123Subdomain (Service.jobName (.str (boundMethod name repr))) = false := by
  refine ⟨?_, jobName_boundMethod name repr⟩
  constructor
  · intro agree
    have hServed : Served q cfg job status _ := served_iff.mpr rfl
    have hSame := agree.verdict _ _ (Round.first job decode) hServed (hServed.shows_iff.mpr rfl)
    exact ⟨asked_iff.mp agree.asked, (sameVerdict_queued_iff _ hServed).mp hSame⟩
  · rintro ⟨hId, hOther⟩
    refine ⟨asked_iff.mpr hId, ?_⟩
    intro response state round hServed hShows
    obtain rfl := hServed.shows_iff.mp hShows
    exact (sameVerdict_queued_iff round hServed).mpr hOther

end Agreement

section Sample

def sampleJob : RemoteAerJob := ⟨"1", 600⟩

def sampleRepr : String := "<remote_aer_backend.RemoteAerJob object at 0x7f3a5c1e2d90>"

def completedStatus : QuantumAerJobStatus where
  jobStatus := .completed
  errorMessage := ""
  retries := 0
  podName := "qjob-1-sim-0"
  startTime := some 0
  completionTime := some (10 * second)

/-- Job `1` is completed. `status` asks about another job, and on the answer for job
`1`, with which `_poll_for_result` fetches the results, it returns `QUEUED`. -/
theorem views_disagree :
    ¬ ViewsAgree Service.sampleQiskit Service.sampleConfig sampleJob "JobV1.job_id" sampleRepr
        Except.ok completedStatus ∧
      ∃ response, ∃ round : Round sampleJob Except.ok,
        Served Service.sampleQiskit Service.sampleConfig sampleJob completedStatus response ∧
          Shows "JobV1.job_id" sampleRepr response .queued ∧ round.Fetches response := by
  have hServed : Served Service.sampleQiskit Service.sampleConfig sampleJob completedStatus _ :=
    served_iff.mpr rfl
  constructor
  · intro agree
    have hPath := agree.asked (methodPath "JobV1.job_id" sampleRepr) _ rfl
    exact absurd hPath (by decide)
  · refine ⟨_, Round.first sampleJob Except.ok, hServed, hServed.shows_iff.mpr rfl, ?_⟩
    exact (Round.fetches_served _ hServed).mpr rfl

end Sample

end RemoteAerJob
end QuantumService.Client
