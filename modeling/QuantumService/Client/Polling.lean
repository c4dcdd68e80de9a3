import Mathlib.Data.Rat.Floor
import Mathlib.Tactic.Linarith
import QuantumService.Client.RemoteAerJob
import QuantumService.Interaction.Run

/-! Polling for the results of a completed job, against the endpoints of the
transpiler service. Faults may hit any request, in any sequence. -/
namespace QuantumService.Client
open Interaction Program
open Service (Response)

/-- What can go wrong on the way to an answer. -/
inductive Fault where
  | connection (err : String)
  | kubernetes (err : String)
  | redis (err : String)
  deriving DecidableEq

/-- The fault that hits a request, if any, and the job's status at that time. -/
structure Request where
  fault : Option Fault
  status : Object
  deriving DecidableEq

namespace Request

def connected (request : Request) : Bool :=
  match request.fault with
  | some (.connection _) => false
  | _ => true

/-- Whether the service can tell the job's status. -/
def readsStatus (request : Request) : Bool :=
  match request.fault with
  | none | some (.redis _) => true
  | some (.connection _) | some (.kubernetes _) => false

end Request

/-- The two requests of one round. -/
structure Poll where
  status : Request
  result : Request
  deriving DecidableEq

namespace Poll

/-- The client gets an HTTP answer to the request for the results. -/
def Answered (poll : Poll) : Prop :=
  poll.status.readsStatus = true ∧ poll.result.connected = true

/-- Neither request is hit by a fault. -/
def Clean (poll : Poll) : Prop := poll.status.fault = none ∧ poll.result.fault = none

instance (poll : Poll) : Decidable poll.Answered := inferInstanceAs (Decidable (_ ∧ _))

theorem Clean.answered {poll : Poll} (clean : poll.Clean) : poll.Answered := by
  obtain ⟨hStatus, hResult⟩ := clean
  exact ⟨by rw [Request.readsStatus, hStatus], by rw [Request.connected, hResult]⟩

end Poll

/-- One call of `_poll_for_result` for a job that stays completed with its record
in place. `clock n` is the `n`th reading of the clock; a sleep lies between any
two readings after the first. -/
structure Environment (Value : Type) where
  q : Service.Qiskit
  cfg : Service.Config
  job : RemoteAerJob
  decode : Json → Except String Value
  interval : ℚ
  clock : Nat → ℚ
  polls : Nat → Poll
  record : JobData
  results : String
  value : Value
  positive : 0 < interval
  started : clock 0 ≤ clock 1
  sleeps : ∀ n, clock (n + 1) + interval ≤ clock (n + 2)
  completed : ∀ n, (polls n).status.status.get "jobStatus" = .str "completed" ∧
    (polls n).result.status.get "jobStatus" = .str "completed"
  stored : record.results = some results
  decodes : decode (.str results) = .ok value

/-- What the calls of the client leave behind: the readings of the clock, the
sleeps and the requested paths. -/
structure State where
  reads : Nat
  rounds : Nat
  paths : List (List String)
  deriving DecidableEq

namespace Environment
variable {Value : Type} (env : Environment Value)

/-- Redis and the API server while `request` is served. The endpoints make no
other calls. -/
def backend (request : Request) : (call : Service.Call) → call.Answer env.q
  | .getCustomObject key =>
      match request.fault with
      | some (.kubernetes err) => .error err
      | _ =>
          if key = ⟨env.cfg.k8sNamespace, Service.jobName (.str env.job.jobId)⟩ then
            .ok (some request.status)
          else .error "Not Found"
  | .get key =>
      match request.fault with
      | some (.redis err) => .error err
      | _ => .ok (if key = jobKey env.job.jobId then some env.record else none)
  | .backend _ => .error ""
  | .uuid4 => ""
  | .strftime => ""
  | .setex _ _ _ => .error ""
  | .createCustomObject _ => .error ""

/-- The routes of the service that the client requests. -/
def route : List String → Service.Handler env.q Response
  | ["job", jobId, "status"] => Service.getJobStatusEndpoint env.q env.cfg jobId
  | ["job", jobId, "result"] => Service.getJobResultEndpoint env.q env.cfg jobId
  | _ => return ⟨404, []⟩

/-- What the service computes while `request` is served. -/
def serve {Result : Type} (request : Request) (p : Service.Handler env.q Result) : Result :=
  (exec (fun (_ : Unit) call => (env.backend request call, ())) () p).1

def respond (request : Request) (path : List String) : Except String Response :=
  match request.fault with
  | some (.connection err) => .error err
  | _ => .ok (env.serve request (env.route path))

def handle (s : State) : (call : Call) → call.Answer × State
  | .time => (env.clock s.reads, { s with reads := s.reads + 1 })
  | .get path =>
      let poll := env.polls s.rounds
      let request := if path = env.job.resultPath then poll.result else poll.status
      (env.respond request path, { s with paths := s.paths ++ [path] })
  | .sleep _ => ((), { s with rounds := s.rounds + 1 })

/-- A call of `_poll_for_result` that may test its loop's condition `fuel` times. -/
def run (fuel : Nat) : Option (Except Raised Value) × State :=
  exec env.handle ⟨0, 0, []⟩ (env.job.pollForResult env.decode env.interval fuel)

/-- Each iteration of the loop requests the status once. -/
def iterations (s : State) : Nat := s.paths.count env.job.statusPath

section Serve
variable {Result Result' : Type} (request : Request)

@[simp] theorem serve_done (result : Result) : env.serve request (.done result) = result := rfl

@[simp] theorem serve_bind (p : Service.Handler env.q Result)
    (f : Result → Service.Handler env.q Result') :
    env.serve request (p >>= f) = env.serve request (f (env.serve request p)) := by
  simp [serve]

@[simp] theorem serve_call (call : Service.Call) :
    env.serve request (Service.call env.q call) = env.backend request call := rfl

/-- `get_quantum_job_status` answers a failed read like a job without a status. -/
theorem serve_getQuantumJobStatus :
    env.serve request (Service.getQuantumJobStatus env.q env.cfg env.job.jobId) =
      match request.fault with
      | some (.kubernetes _) => []
      | _ => request.status := by
  have hAnswer : env.backend request
      (.getCustomObject ⟨env.cfg.k8sNamespace, Service.jobName (.str env.job.jobId)⟩) =
        match request.fault with
        | some (.kubernetes err) => .error err
        | _ => .ok (some request.status) := by
    rw [backend, if_pos rfl]
  rw [Service.getQuantumJobStatus, serve_bind, serve_call, hAnswer]
  rcases request.fault with _ | ⟨err⟩ | ⟨err⟩ | ⟨err⟩ <;> rfl

theorem serve_getJobData :
    env.serve request (Service.getJobData env.q env.job.jobId) =
      match request.fault with
      | some (.redis err) => .error err
      | _ => .ok (some env.record) := by
  change env.backend request (.get (jobKey env.job.jobId)) = _
  rw [backend, if_pos rfl]

end Serve

section Answers
variable {env} {request : Request}
  (completed : request.status.get "jobStatus" = .str "completed")
include completed

/-- A status that is read is handed on; otherwise the answer is not a success. -/
theorem respond_status : env.respond request env.job.statusPath =
    match request.fault with
    | some (.connection err) => .error err
    | some (.kubernetes _) => .ok
        ⟨404, [("error", .str s!"Job {env.job.jobId} is not Found"), ("details", .str "")]⟩
    | _ => .ok ⟨200, request.status⟩ := by
  have hNonempty : request.status.isEmpty = false := by
    cases hStatus : request.status with
    | nil => rw [hStatus] at completed; cases completed
    | cons _ _ => rfl
  rw [respond, RemoteAerJob.statusPath, route, Service.getJobStatusEndpoint, serve_bind,
    serve_getQuantumJobStatus]
  rcases request.fault with _ | ⟨err⟩ | ⟨err⟩ | ⟨err⟩
  · simp [hNonempty]
  · rfl
  · rfl
  · simp [hNonempty]

theorem respond_result : env.respond request env.job.resultPath =
    match request.fault with
    | none => .ok ⟨200, [("status", .str "success"), ("result", .str env.results)]⟩
    | some (.connection err) => .error err
    | some (.kubernetes _) => .ok
        ⟨400, [("error", .str "Job not completed"), ("status", .str "unknown")]⟩
    | some (.redis err) => .ok ⟨404, [("error", .str err)]⟩ := by
  rw [respond, RemoteAerJob.resultPath, route, Service.getJobResultEndpoint, serve_bind,
    serve_getQuantumJobStatus]
  have hRecord := env.serve_getJobData request
  rcases hFault : request.fault with _ | ⟨err⟩ | ⟨err⟩ | ⟨err⟩
  · rw [hFault] at hRecord
    simp only [completed, not_true, ne_eq, if_false, serve_bind, hRecord, env.stored]
    rfl
  · rfl
  · rfl
  · rw [hFault] at hRecord
    simp only [completed, not_true, ne_eq, if_false, serve_bind, hRecord]
    rfl

end Answers

/-- What a round makes of its two answers. -/
def verdict (n : Nat) : Option (Except Raised Value) :=
  if (env.polls n).Answered then
    if (env.polls n).result.fault = none then some (.ok env.value)
    else some (.error (.keyError "result"))
  else none

theorem verdict_eq_none_iff (n : Nat) : env.verdict n = none ↔ ¬ (env.polls n).Answered := by
  rw [verdict]
  split
  · split <;> simp [*]
  · simp [*]

def requested (n : Nat) : List (List String) :=
  if (env.polls n).status.readsStatus then [env.job.statusPath, env.job.resultPath]
  else [env.job.statusPath]

theorem handle_status (s : State) : env.handle s (.get env.job.statusPath) =
    (env.respond (env.polls s.rounds).status env.job.statusPath,
      { s with paths := s.paths ++ [env.job.statusPath] }) := by
  have hPath : env.job.statusPath ≠ env.job.resultPath := by
    simp [RemoteAerJob.statusPath, RemoteAerJob.resultPath]
  rw [handle, if_neg hPath]

theorem handle_result (s : State) : env.handle s (.get env.job.resultPath) =
    (env.respond (env.polls s.rounds).result env.job.resultPath,
      { s with paths := s.paths ++ [env.job.resultPath] }) := by
  rw [handle, if_pos rfl]

/-- The request for the results, in a round whose status was read. -/
theorem exec_fetchResult (s : State)
    (read : (env.polls s.rounds).status.readsStatus = true) :
    exec env.handle s (env.job.fetchResult env.decode) =
      (env.verdict s.rounds, { s with paths := s.paths ++ [env.job.resultPath] }) := by
  obtain ⟨-, hCompleted⟩ := env.completed s.rounds
  have hResult := env.respond_result hCompleted
  rw [RemoteAerJob.fetchResult, exec_bind, exec_query, handle_result, hResult]
  rcases hFault : (env.polls s.rounds).result.fault with _ | ⟨err⟩ | ⟨err⟩ | ⟨err⟩
  · have hLookup : List.lookup "result"
        [("status", Json.str "success"), ("result", .str env.results)] =
          some (.str env.results) := rfl
    simp [verdict, Poll.Answered, Request.connected, read, hFault, hLookup, env.decodes]
  · simp [verdict, Poll.Answered, Request.connected, hFault]
  · have hLookup : List.lookup "result"
        [("error", Json.str "Job not completed"), ("status", .str "unknown")] = none := rfl
    simp [verdict, Poll.Answered, Request.connected, read, hFault, hLookup]
  · have hLookup : List.lookup "result" [("error", Json.str err)] = none := rfl
    simp [verdict, Poll.Answered, Request.connected, read, hFault, hLookup]

theorem exec_pollOnce (s : State) :
    exec env.handle s (env.job.pollOnce env.decode) =
      (env.verdict s.rounds, { s with paths := s.paths ++ env.requested s.rounds }) := by
  obtain ⟨hCompleted, -⟩ := env.completed s.rounds
  have hState := Object.getD_of_get hCompleted Json.noConfusion (.str "")
  have hStatus := env.respond_status hCompleted
  have hFetch (read : (env.polls s.rounds).status.readsStatus = true) :
      exec env.handle { s with paths := s.paths ++ [env.job.statusPath] }
        (env.job.fetchResult env.decode) =
          (env.verdict s.rounds, { s with paths := s.paths ++ env.requested s.rounds }) := by
    have hRun := env.exec_fetchResult { s with paths := s.paths ++ [env.job.statusPath] } read
    rw [hRun, requested, if_pos read, List.append_assoc]
    rfl
  rw [RemoteAerJob.pollOnce, exec_bind, exec_query, handle_status, hStatus]
  rcases hFault : (env.polls s.rounds).status.fault with _ | ⟨err⟩ | ⟨err⟩ | ⟨err⟩
  · simp only [hState, if_true]
    exact hFetch (by rw [Request.readsStatus, hFault])
  · simp [verdict, requested, Poll.Answered, Request.readsStatus, hFault]
  · simp [verdict, requested, Poll.Answered, Request.readsStatus, hFault]
  · simp only [hState, if_true]
    exact hFetch (by rw [Request.readsStatus, hFault])

/-- The loop's condition holds at the start of round `n`, if that round is reached. -/
def Before (n : Nat) : Prop := env.clock (n + 1) - env.clock 0 < env.job.timeout

instance (n : Nat) : Decidable (env.Before n) := inferInstanceAs (Decidable (_ < _))

/-- The bound on the number of rounds. -/
def rounds : Nat := ⌈(env.job.timeout : ℚ) / env.interval⌉₊

theorem elapsed (n : Nat) : n * env.interval ≤ env.clock (n + 1) - env.clock 0 := by
  induction n with
  | zero =>
      have hStarted := env.started
      simpa using hStarted
  | succ n ih =>
      have hSlept := env.sleeps n
      have hCast : ((n + 1 : Nat) : ℚ) * env.interval = n * env.interval + env.interval := by
        push_cast
        ring
      linarith

theorem lt_rounds_of_before {n : Nat} (before : env.Before n) : n < env.rounds := by
  have hElapsed : n * env.interval < env.job.timeout := lt_of_le_of_lt (env.elapsed n) before
  rw [rounds, Nat.lt_ceil]
  exact (lt_div_iff₀ env.positive).mpr hElapsed

theorem before_mono {m n : Nat} (le : m ≤ n) (before : env.Before n) : env.Before m := by
  induction n, le using Nat.le_induction with
  | base => exact before
  | succ n le ih =>
      apply ih
      have hSlept := env.sleeps n
      have hPositive := env.positive
      rw [Before] at before ⊢
      linarith

/-- How a call ends, and the number of its iterations. -/
inductive Ended : Except Raised Value → Nat → Prop where
  | answered {k : Nat} {outcome : Except Raised Value} (before : env.Before k)
      (unanswered : ∀ m < k, ¬ (env.polls m).Answered) (verdict : env.verdict k = some outcome) :
      Ended outcome (k + 1)
  | timedOut {k : Nat} (bounded : k ≤ env.rounds) (late : ¬ env.Before k)
      (unanswered : ∀ m < k, ¬ (env.polls m).Answered) :
      Ended (.error env.job.timeoutError) k

/-- One iteration of the loop, from its `n`th test of the condition. -/
theorem exec_pollLoop (n fuel : Nat) (paths : List (List String)) :
    exec env.handle ⟨n + 1, n, paths⟩
        (env.job.pollLoop env.decode env.interval (env.clock 0) (fuel + 1)) =
      if env.Before n then
        match env.verdict n with
        | some outcome => (some outcome, ⟨n + 2, n, paths ++ env.requested n⟩)
        | none => exec env.handle ⟨n + 2, n + 1, paths ++ env.requested n⟩
            (env.job.pollLoop env.decode env.interval (env.clock 0) fuel)
      else (some (.error env.job.timeoutError), ⟨n + 2, n, paths⟩) := by
  have hTest : exec env.handle ⟨n + 1, n, paths⟩ (query Call.time) =
      (env.clock (n + 1), ⟨n + 2, n, paths⟩) := rfl
  rw [RemoteAerJob.pollLoop, exec_bind, hTest]
  by_cases hBefore : env.Before n
  · have hTrue : env.clock (n + 1) - env.clock 0 < env.job.timeout := hBefore
    rw [if_pos hBefore, if_pos hTrue, exec_bind, exec_pollOnce]
    cases env.verdict n <;> rfl
  · have hFalse : ¬ env.clock (n + 1) - env.clock 0 < env.job.timeout := hBefore
    rw [if_neg hBefore, if_neg hFalse]
    rfl

theorem count_requested (n : Nat) (paths : List (List String)) :
    (paths ++ env.requested n).count env.job.statusPath =
      paths.count env.job.statusPath + 1 := by
  have hPath : env.job.resultPath ≠ env.job.statusPath := by
    simp [RemoteAerJob.statusPath, RemoteAerJob.resultPath]
  rw [requested, List.count_append]
  split <;> simp [hPath]

/-- Enough fuel brings the loop to an end. -/
theorem pollLoop_ended {n fuel : Nat} {paths : List (List String)}
    (counted : paths.count env.job.statusPath = n) (bounded : n ≤ env.rounds)
    (unanswered : ∀ m < n, ¬ (env.polls m).Answered) (enough : env.rounds < n + fuel) :
    ∃ outcome t, exec env.handle ⟨n + 1, n, paths⟩
        (env.job.pollLoop env.decode env.interval (env.clock 0) fuel) = (some outcome, t) ∧
      env.Ended outcome (env.iterations t) := by
  induction fuel generalizing n paths with
  | zero => omega
  | succ fuel ih =>
      rw [exec_pollLoop]
      have hCount := env.count_requested n paths
      rw [counted] at hCount
      by_cases hBefore : env.Before n
      · rw [if_pos hBefore]
        cases hVerdict : env.verdict n with
        | some outcome =>
            refine ⟨outcome, _, rfl, ?_⟩
            rw [iterations, hCount]
            exact .answered hBefore unanswered hVerdict
        | none =>
            apply ih hCount (env.lt_rounds_of_before hBefore)
            · intro m hLess
              cases Nat.lt_succ_iff_lt_or_eq.mp hLess with
              | inl hEarlier => exact unanswered m hEarlier
              | inr hLast =>
                  rw [hLast]
                  exact (env.verdict_eq_none_iff n).mp hVerdict
            · omega
      · rw [if_neg hBefore]
        refine ⟨_, _, rfl, ?_⟩
        rw [iterations, counted]
        exact .timedOut bounded hBefore unanswered

/-- What the caller of `_poll_for_result` is promised: the results or a
`TimeoutError`, and the results if one of the rounds met no fault. -/
def Survives (outcome : Except Raised Value) (iterations : Nat) : Prop :=
  (outcome = .ok env.value ∨ outcome = .error env.job.timeoutError) ∧
    ((∃ n < iterations, (env.polls n).Clean) → outcome = .ok env.value)

/-- In the first round before the timeout whose request for the results gets an
HTTP answer, no fault hits that request. -/
def FirstAnswerClean : Prop :=
  ∀ n, env.Before n → (env.polls n).Answered → (∀ m < n, ¬ (env.polls m).Answered) →
    (env.polls n).result.fault = none

variable {env}

theorem Ended.iterations_le {outcome : Except Raised Value} {iterations : Nat}
    (ended : env.Ended outcome iterations) : iterations ≤ env.rounds := by
  cases ended with
  | answered before _ _ => exact env.lt_rounds_of_before before
  | timedOut bounded _ _ => exact bounded

theorem Ended.survives_iff {outcome : Except Raised Value} {iterations : Nat}
    (ended : env.Ended outcome iterations) :
    env.Survives outcome iterations ↔ env.FirstAnswerClean := by
  cases ended with
  | @answered k _ before unanswered verdict =>
      have hAnswered : (env.polls k).Answered := by
        by_contra hNone
        rw [(env.verdict_eq_none_iff k).mpr hNone] at verdict
        cases verdict
      rw [Environment.verdict, if_pos hAnswered] at verdict
      constructor
      · intro hSurvives n hBefore hFirst hEarlier
        have hRound : n = k := by
          apply Nat.le_antisymm
          · exact Nat.le_of_not_lt fun hLess => hEarlier k hLess hAnswered
          · exact Nat.le_of_not_lt fun hLess => unanswered n hLess hFirst
        rw [hRound]
        by_contra hFault
        rw [if_neg hFault] at verdict
        cases verdict
        cases hSurvives.1 with
        | inl hResult => cases hResult
        | inr hTimeout => cases hTimeout
      · intro hClean
        rw [if_pos (hClean k before hAnswered unanswered)] at verdict
        cases verdict
        exact ⟨.inl rfl, fun _ => rfl⟩
  | timedOut _ late unanswered =>
      constructor
      · intro _ n hBefore hAnswered _
        by_contra
        apply unanswered n _ hAnswered
        by_contra hLater
        exact late (env.before_mono (Nat.le_of_not_lt hLater) hBefore)
      · intro _
        refine ⟨.inr rfl, ?_⟩
        rintro ⟨n, hMade, hClean⟩
        exact absurd hClean.answered (unanswered n hMade)

/-- Polling ends after a bounded number of iterations. It survives every sequence of faults
but one that hits the first answered request for the results. -/
theorem polling {fuel : Nat} (enough : env.rounds < fuel) : ∃ outcome t,
    env.run fuel = (some outcome, t) ∧ env.iterations t ≤ env.rounds ∧
      (env.Survives outcome (env.iterations t) ↔ env.FirstAnswerClean) := by
  have hStart : env.run fuel = exec env.handle ⟨1, 0, []⟩
      (env.job.pollLoop env.decode env.interval (env.clock 0) fuel) := rfl
  obtain ⟨outcome, t, hRun, hEnded⟩ := env.pollLoop_ended (n := 0) List.count_nil
    (Nat.zero_le _) (by simp) (by simpa using enough)
  rw [hStart, hRun]
  exact ⟨outcome, t, rfl, hEnded.iterations_le, hEnded.survives_iff⟩

/-- Two rounds for job `1`, five seconds apart; the results decode to themselves. -/
def sample (polls : Nat → Poll) (completed : ∀ n,
    (polls n).status.status.get "jobStatus" = .str "completed" ∧
      (polls n).result.status.get "jobStatus" = .str "completed") : Environment String where
  q := Service.sampleQiskit
  cfg := Service.sampleConfig
  job := ⟨"1", 10⟩
  decode := fun result => .ok result.text
  interval := 5
  clock := fun n => 5 * (n - 1 : Nat)
  polls := polls
  record := ⟨some "UUlTS0lU", some "e30=", "2026-01-09T06:39:00Z", "2026-01-09T06:40:00Z"⟩
  results := "e30="
  value := "e30="
  positive := by norm_num
  started := by simp
  sleeps := by
    intro n
    simp
    linarith
  completed := completed
  stored := rfl
  decodes := rfl

theorem sample_rounds {polls : Nat → Poll} (completed : ∀ n,
    (polls n).status.status.get "jobStatus" = .str "completed" ∧
      (polls n).result.status.get "jobStatus" = .str "completed") :
    (sample polls completed).rounds = 2 := by
  have hQuotient : ((10 : Int) : ℚ) / 5 = (2 : Nat) := by norm_num
  rw [rounds, sample, hQuotient, Nat.ceil_natCast]

def sampleStatus : Object := [("jobStatus", .str "completed"), ("podName", .str "qjob-1-sim-0")]

/-- Redis cannot be read when the first round asks for the results. -/
def redisFault : Environment String :=
  sample (fun n => ⟨⟨none, sampleStatus⟩,
    ⟨if n = 0 then some (.redis "Connection refused") else none, sampleStatus⟩⟩)
    (fun _ => ⟨rfl, rfl⟩)

/-- One failed read on the server ends the call with a `KeyError`. -/
theorem polling_raises : redisFault.rounds < 3 ∧
    redisFault.run 3 = (some (.error (.keyError "result")),
      ⟨2, 0, [["job", "1", "status"], ["job", "1", "result"]]⟩) ∧
    ¬ redisFault.Survives (.error (.keyError "result")) 1 := by
  have hStart : redisFault.run 3 = exec redisFault.handle ⟨1, 0, []⟩
      (redisFault.job.pollLoop redisFault.decode redisFault.interval (redisFault.clock 0) 3) := rfl
  have hBefore : redisFault.Before 0 := by simp [Before, redisFault, sample]
  refine ⟨by rw [redisFault, sample_rounds]; decide, ?_, ?_⟩
  · rw [hStart, exec_pollLoop, if_pos hBefore]
    rfl
  rintro ⟨hResult | hTimeout, -⟩
  · cases hResult
  · cases hTimeout

/-- The connection is refused in the first round. -/
def connectionFault : Environment String :=
  sample (fun n => ⟨⟨if n = 0 then some (.connection "Connection refused") else none,
    sampleStatus⟩, ⟨none, sampleStatus⟩⟩) (fun _ => ⟨rfl, rfl⟩)

theorem polling_retried : ∃ outcome t, connectionFault.run 3 = (some outcome, t) ∧
    connectionFault.Survives outcome (connectionFault.iterations t) := by
  have hEnough : connectionFault.rounds < 3 := by
    rw [connectionFault, sample_rounds]
    decide
  obtain ⟨outcome, t, hRun, -, hSurvives⟩ := polling hEnough
  exact ⟨outcome, t, hRun, hSurvives.mpr fun _ _ _ _ => rfl⟩

end Environment
end QuantumService.Client
