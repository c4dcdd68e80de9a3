import QuantumService.Deployment.Records

/-! What a completed job tells. Its message is empty, its record has the results of
its circuit while it is there, and the result endpoint answers with nothing else. -/
namespace QuantumService
open Interaction Cluster Controller World

theorem lookup_statusObject_jobStatus (status : QuantumAerJobStatus) :
    (statusObject status).lookup "jobStatus" =
      if status.jobStatus ≠ "" then some (.str status.jobStatus) else none := by
  unfold statusObject
  cases status.startTime <;> cases status.completionTime <;>
    simp [List.lookup_append, apply_ite (List.lookup _), List.lookup_cons]

theorem lookup_statusObject_state (status : QuantumAerJobStatus) :
    (statusObject status).lookup "state" = none := by
  unfold statusObject
  cases status.startTime <;> cases status.completionTime <;>
    simp [List.lookup_append, apply_ite (List.lookup _), List.lookup_cons]

theorem jobStatus_of_statusObject {status : QuantumAerJobStatus} {state : JobState}
    (h : (statusObject status).get "jobStatus" = .str state) : status.jobStatus = state := by
  rw [Object.get, Object.getD, lookup_statusObject_jobStatus] at h
  split at h
  · exact Json.str.inj h
  · cases h

namespace Deployment
variable {setup : Setup} {d d' : Deployment setup} {key : NamespacedName} {job : QuantumAerJob}
  {jobID : String} {data : JobData}

/-- A simulator of a job that has exited with zero has written the results. -/
theorem finished_of_exit (run : Reaches step Sourced Fresh d)
    (stored : (d.world.jobs key).current = some job) {uid : Nat} {process : Process setup}
    (owned : d.processes uid = some process) (serves : process.Serves key)
    (exit : process.exitCode = some 0) :
    key = jobNamed setup job.spec.jobID ∧ d.Finished job.spec.jobID := by
  obtain ⟨vars, ttl, data, hEnv, hMem⟩ := (Process.succeeded exit).written
  obtain ⟨id, hServes, -, hId⟩ := (hosted_of_run run).environment owned hEnv
  have hMem' : some job ∈ (d.world.view key).job.visible :=
    stored ▸ Register.current_mem_visible _
  have hKey : key = jobNamed setup job.spec.jobID := (traced_of_run run key).jobs hMem'
  have hNamed := Process.serves_unique hServes serves
  obtain rfl := jobNamed_injective (hNamed.trans hKey)
  have hEnvironment : process.Env vars job.spec.jobID := ⟨hEnv, hId⟩
  rw [hEnvironment.recordKey] at hMem
  exact ⟨hKey, uid, process, vars, ttl, data, owned, hEnvironment, hMem⟩

/-- A completed job has an empty message, and a simulator that has written its results. -/
theorem finished_of_completed (run : Reaches step Sure Fresh d)
    (stored : (d.world.jobs key).current = some job)
    (completed : job.status.jobStatus = .completed) :
    job.status.errorMessage = "" ∧ key = jobNamed setup job.spec.jobID ∧
      d.Finished job.spec.jobID := by
  obtain ⟨hMessage, uid, process, hProcess, hServes, hExit⟩ :=
    (accounted_of_run run key).completed stored completed
  exact ⟨hMessage, finished_of_exit (sourced_of_run run) stored hProcess hServes hExit⟩

/-- The record of a job that is done holds its results. -/
theorem Finished.holds (finished : d.Finished jobID) (run : Reaches step Sourced Fresh d)
    {entry : Entry} (record : d.records (jobKey jobID) = some entry) :
    d.Holds jobID entry.data := by
  obtain ⟨uid, process, vars, ttl, data, hProcess, hEnv, hMem⟩ := finished
  have hStored := stored_of_process run hProcess hEnv
  have hKept := kept_of_run run hStored
  have hSome := hKept.finished ⟨uid, process, vars, ttl, data, hProcess, hEnv, hMem⟩ record
  exact ⟨hStored, hKept.circuit record, hKept.result record hSome⟩

/-- What a request for the results of a job has learnt. -/
structure Polled (d : Deployment setup) (jobID : String) (history : Service.History setup.q) :
    Prop where
  statuses : ∀ {key status}, ⟨.getCustomObject key, .ok (some status)⟩ ∈ history →
    ∃ stored, status = statusObject stored
  completed : Service.Completed setup.cfg jobID history → d.Finished jobID
  fetched : ∀ {data}, ⟨.get (jobKey jobID), .ok (some data)⟩ ∈ history → d.Holds jobID data

section Polled
variable {history : Service.History setup.q}

theorem Polled.start (d : Deployment setup) (jobID : String) : d.Polled jobID [] where
  statuses := by
    intro key status hMem
    cases hMem
  completed := by
    rintro ⟨status, hMem, -⟩
    cases hMem
  fetched := by
    intro data hMem
    cases hMem

theorem Polled.grows (polled : d.Polled jobID history) (grows : d.Grows d') :
    d'.Polled jobID history where
  statuses := polled.statuses
  completed := fun hCompleted => (polled.completed hCompleted).grows grows
  fetched := fun hMem => (polled.fetched hMem).grows grows

/-- What a request reads is what is there. -/
theorem ServiceEffect.read {reply : Reply setup.q.Target} {key : String}
    (effect : ServiceEffect d reply (.get key) (.ok (some data)) d') :
    ∃ entry, d.records key = some entry ∧ entry.data = data := by
  generalize hAnswer : (Except.ok (some data) : Except String (Option JobData)) = answer at effect
  cases effect with
  | fetched =>
      have hFound := Except.ok.inj hAnswer
      exact Option.map_eq_some_iff.mp hFound.symm
  | unfetched => cases hAnswer

theorem ServiceEffect.status {reply : Reply setup.q.Target} {status : Object}
    (effect : ServiceEffect d reply (.getCustomObject key) (.ok (some status)) d') :
    ∃ job, (d.world.jobs key).current = some job ∧ status = statusObject job.status := by
  generalize hAnswer : (Except.ok (some status) : Except String (Option Object)) = answer at effect
  cases effect with
  | @found _ job stored => exact ⟨job, stored, Option.some.inj (Except.ok.inj hAnswer)⟩
  | unfound => cases hAnswer

/-- A request learns of a completed job and of results only what is so. -/
theorem Polled.snoc (polled : d.Polled jobID history) (run : Reaches step Sure Fresh d)
    {call : Service.Call} {reply : Reply setup.q.Target} {answer : call.Answer setup.q}
    (site : Service.PollSite setup.cfg jobID history call)
    (effect : ServiceEffect d reply call answer d') :
    d.Polled jobID (history ++ [⟨call, answer⟩]) where
  statuses := by
    intro key status hMem
    rcases List.mem_append.mp hMem with hBefore | hNow
    · exact polled.statuses hBefore
    · cases List.mem_singleton.mp hNow
      obtain ⟨job, -, hStatus⟩ := effect.status
      exact ⟨job.status, hStatus⟩
  completed := by
    rintro ⟨status, hMem, hState⟩
    rcases List.mem_append.mp hMem with hBefore | hNow
    · exact polled.completed ⟨status, hBefore, hState⟩
    · cases List.mem_singleton.mp hNow
      obtain ⟨job, hStored, rfl⟩ := effect.status
      obtain ⟨-, hKey, hFinished⟩ :=
        finished_of_completed run hStored (jobStatus_of_statusObject hState)
      rw [jobNamed_injective hKey]
      exact hFinished
  fetched := by
    intro data hMem
    rcases List.mem_append.mp hMem with hBefore | hNow
    · exact polled.fetched hBefore
    · cases List.mem_singleton.mp hNow
      obtain ⟨entry, hEntry, rfl⟩ := effect.read
      cases site with
      | get completed => exact (polled.completed completed).holds (sourced_of_run run) hEntry

end Polled

theorem polled_of_run (run : Reaches step Sure Fresh d) {i : Nat} {request : Request setup}
    (busy : d.requests i = some request) (endpoint : request.endpoint = .result jobID) :
    d.Polled jobID request.history := by
  have hAll : ∀ i request jobID, d.requests i = some request → request.endpoint = .result jobID →
      d.Polled jobID request.history := by
    apply run.invariant
    · intro s fresh i request jobID hRequest
      rw [fresh.initial.unserved] at hRequest
      cases hRequest
    · intro s a t reached polled sure stepped i request jobID hRequest hEndpoint
      have hMoves := moves_of_step stepped
      have hGrows := hMoves.grows (claimed_of_run (sourced_of_run reached))
      clear stepped
      cases hMoves with
      | cluster | launched | stopped | expired =>
          exact (polled i request jobID hRequest hEndpoint).grows hGrows
      | simulated busy effect =>
          rw [setProcess_requests, effect.requests] at hRequest
          exact (polled i request jobID hRequest hEndpoint).grows hGrows
      | receive fresh =>
          rcases update_cases hRequest with ⟨rfl, rfl⟩ | hOld
          · exact .start _ jobID
          · exact (polled i request jobID hOld hEndpoint).grows hGrows
      | @served j endpoint history call reply answer next path middle busy effect =>
          rcases update_cases hRequest with ⟨rfl, rfl⟩ | hOld
          · have hSite := site_of_request path
            have hResult : endpoint = .result jobID := hEndpoint
            subst hResult
            cases hSite with
            | result site =>
                exact ((polled i _ jobID busy rfl).snoc reached site effect).grows hGrows
          · rw [effect.requests] at hOld
            exact (polled i request jobID hOld hEndpoint).grows hGrows
  exact hAll i request jobID busy endpoint

/-- An answer of the result endpoint that says success has the results. -/
theorem Polled.answer {history : Service.History setup.q} {response : Service.Response}
    (polled : d.Polled jobID history) (answers : Service.Answers jobID history response)
    (success : response.body.get "status" = .str "success") :
    ∃ data text, ⟨.get (jobKey jobID), .ok (some data)⟩ ∈ history ∧ data.results = some text ∧
      response.body.get "result" = .str text ∧ d.Holds jobID data := by
  cases answers with
  | @success data fetched result =>
      have hHolds := polled.fetched fetched
      obtain ⟨circuit, text, -, hText, -⟩ := hHolds.result
      rw [hText] at result
      exact ⟨data, text, fetched, hText, result, hHolds⟩
  | failure none =>
      rw [none] at success
      cases success
  | @incomplete status origin state =>
      have hState : status.lookup "state" = none := by
        rcases origin with rfl | ⟨key, hMem⟩
        · rfl
        · obtain ⟨stored, rfl⟩ := polled.statuses hMem
          exact lookup_statusObject_state stored
      rw [state, Object.getD, hState, Option.getD_none] at success
      exact absurd (Json.str.inj success) (by decide)

/-- Completed means the result is there, in every run in which no reconcile guesses. The
same holds of an answer that says success. -/
theorem completed_has_result (run : Reaches step Sure Fresh d) :
    (∀ key job, (d.world.jobs key).current = some job → job.status.jobStatus = .completed →
      job.status.errorMessage = "" ∧ ∀ entry,
        d.records (jobKey job.spec.jobID) = some entry → d.Holds job.spec.jobID entry.data) ∧
    ∀ i request jobID response, d.requests i = some request →
      request.endpoint = .result jobID → request.rest = .done response →
      response.body.get "status" = .str "success" →
      ∃ data text, ⟨.get (jobKey jobID), .ok (some data)⟩ ∈ request.history ∧
        data.results = some text ∧ response.body.get "result" = .str text ∧
        d.Holds jobID data := by
  constructor
  · intro key job hStored hCompleted
    obtain ⟨hMessage, -, hFinished⟩ := finished_of_completed run hStored hCompleted
    exact ⟨hMessage, fun entry hRecord => hFinished.holds (sourced_of_run run) hRecord⟩
  · intro i request jobID response hRequest hEndpoint hDone hSuccess
    have hPolled := polled_of_run run hRequest hEndpoint
    obtain ⟨endpoint, history, rest, path⟩ := request
    have hResult : endpoint = .result jobID := hEndpoint
    subst hResult
    have hRest : rest = .done response := hDone
    subst hRest
    exact hPolled.answer
      ((Service.getJobResultEndpoint_follows setup.cfg jobID).result path) hSuccess

/-- `Managed`, as it can be checked along a run. -/
def managed (d : Deployment setup) (a : Action setup) : Bool :=
  (d.submits a).all (· ∉ d.submitted) &&
    match a with
    | .cluster (.createJob _ _) => false
    | .cluster (.createPod _) => false
    | .cluster (.removePod key) => (d.world.pods key).current.all (·.deletionRequested)
    | _ => true

theorem managed_of_check {a : Action setup} (h : d.managed a = true) : Managed d a := by
  obtain ⟨hOnce, hCluster⟩ := Bool.and_eq_true_iff.mp h
  constructor
  · intro id hId
    simpa [hId] using hOnce
  · rintro key spec rfl
    cases hCluster
  · rintro pod rfl
    cases hCluster
  · rintro key r rfl pod hPod
    have hDeleted :
        (d.world.pods (simulatorPodKey key r)).current.all (·.deletionRequested) = true :=
      hCluster
    rw [Option.mem_def] at hPod
    rw [hPod] at hDeleted
    exact hDeleted

/-- Job `1` completes, and its results are requested. -/
def resultRun : List (Action sampleSetup) :=
  submitRun ++ startRun.tail.map .cluster ++ .launch sampleKey 0 :: simulateRun 2 "e30=" ++
    [.simulate 2 .ok, .simulate 2 (.text Service.sampleNow), .simulate 2 .ok,
      .cluster (.setPhase (simulatorPodKey sampleKey 0) .succeeded)] ++
    clusterPass sampleKey [.read 0, .ok, .read 0, .ok, .ok] ++
    [.receive 1 (.result "1"), .serve 1 .ok, .serve 1 .ok]

theorem completed_has_result_requested : ∃ d,
    runActions step (.empty sampleSetup) resultRun = some d ∧
    (∃ job entry, (d.world.jobs sampleKey).current = some job ∧
      job.status.jobStatus = .completed ∧ job.status.errorMessage = "" ∧
      d.records (jobKey job.spec.jobID) = some entry ∧ d.Holds job.spec.jobID entry.data) ∧
    ∃ (response : Service.Response) (data : JobData),
      response.body.get "result" = .str "e30=" ∧ d.Holds "1" data ∧
      response.body.get "result" = (data.results.map Json.str).getD .null := by
  have hRun : (runActions step (.empty sampleSetup) resultRun).isSome := by decide
  obtain ⟨d, hd⟩ := Option.isSome_iff_exists.mp hRun
  have hReached : Reaches step (fun d a => d.managed a = true ∧ d.guesses a = false) Fresh d :=
    (Reaches.start (.empty sampleSetup)).runActions (by decide) hd
  have hSure : Reaches step Sure Fresh d :=
    hReached.mono (fun _ h => h) fun _ _ h => ⟨managed_of_check h.1, h.2⟩
  obtain ⟨hJobs, hAnswers⟩ := completed_has_result hSure
  have hSeen : (runActions step (.empty sampleSetup) resultRun).map (fun d =>
      ((d.world.jobs sampleKey).current.map fun job =>
        (job.status.jobStatus, (d.records (jobKey job.spec.jobID)).isSome),
      (d.requests 1).map fun request =>
        match request with
        | ⟨.result jobID, _, .done response, _⟩ => some (jobID, response)
        | _ => none)) =
      some (some (.completed, true),
        some (some ("1", ⟨200, [("status", .str "success"), ("result", .str "e30=")]⟩))) := by
    decide
  rw [hd, Option.map_some, Option.some.injEq, Prod.mk.injEq, Option.map_eq_some_iff,
    Option.map_eq_some_iff] at hSeen
  obtain ⟨⟨job, hJob, hStatus⟩, request, hRequest, hBody⟩ := hSeen
  obtain ⟨hCompleted, hRecord⟩ := Prod.mk.inj hStatus
  obtain ⟨entry, hEntry⟩ := Option.isSome_iff_exists.mp hRecord
  obtain ⟨hMessage, hHolds⟩ := hJobs sampleKey job hJob hCompleted
  refine ⟨d, hd, ⟨job, entry, hJob, hCompleted, hMessage, hEntry, hHolds entry hEntry⟩, ?_⟩
  split at hBody
  · rename_i jobID history response path
    obtain ⟨rfl, hResponse⟩ := Prod.mk.inj (Option.some.inj hBody)
    obtain ⟨data, text, -, hText, hResult, hData⟩ :=
      hAnswers 1 _ "1" response hRequest rfl rfl (by rw [hResponse]; rfl)
    exact ⟨response, data, by rw [hResponse]; rfl, hData, by rw [hResult, hText]; rfl⟩
  · cases hBody

/-- Pod 9 of job `1` runs on when the job's next pod, 14, completes it. The lookup
of pod 2 that failed made the job in progress before its cache was up to date, so
that the failure of pod 2 was handled again and pod 9 deleted for it. -/
def overtakenRun : List (Action sampleSetup) :=
  submitRun ++ clusterPass sampleKey [.read 0, .ok, .ok] ++
    clusterPass sampleKey [.read 0, .ok, .ok, .ok, .ok] ++ .launch sampleKey 0 ::
    clusterPass sampleKey [.read 0, .ok, .fail "timeout", .ok] ++
    clusterPass sampleKey [.read 0, .ok, .read 1, .ok] ++
    [.stop 2, .cluster (.setPhase (simulatorPodKey sampleKey 0) .failed)] ++
    clusterPass sampleKey [.read 1, .ok, .read 0, .ok, .ok] ++
    .cluster (.removePod (simulatorPodKey sampleKey 0)) ::
    clusterPass sampleKey [.read 0, .ok, .ok, .ok, .ok] ++ .launch sampleKey 0 ::
    clusterPass sampleKey [.read 0, .ok, .read 2, .ok] ++
    clusterPass sampleKey [.read 0, .ok, .read 2, .ok, .ok] ++
    clusterPass sampleKey [.read 0, .ok, .ok, .ok, .ok] ++ .launch sampleKey 1 ::
    clusterPass sampleKey [.read 0, .ok, .read 0, .ok] ++ simulateRun 14 "e30=" ++
    [.simulate 14 .ok, .simulate 14 (.text Service.sampleNow), .simulate 14 .ok,
      .cluster (.setPhase (simulatorPodKey sampleKey 1) .succeeded)] ++
    clusterPass sampleKey [.read 0, .ok, .read 0, .ok, .ok] ++
    [.simulate 9 .ok, .simulate 9 .ok, .simulate 9 .ok, .simulate 9 (.fail "no memory"),
      .simulate 9 .ok]

theorem completed_with_message : ¬ ∀ (d : Deployment sampleSetup) key job,
    Reaches step Managed Fresh d → (d.world.jobs key).current = some job →
      job.status.jobStatus = .completed → job.status.errorMessage = "" := by
  intro claim
  have hRun : (runActions step (.empty sampleSetup) overtakenRun).isSome := by decide +kernel
  obtain ⟨d, hd⟩ := Option.isSome_iff_exists.mp hRun
  have hReached : Reaches step (fun d a => d.managed a = true) Fresh d :=
    (Reaches.start (.empty sampleSetup)).runActions (by decide +kernel) hd
  have hStored : (runActions step (.empty sampleSetup) overtakenRun).map (fun d =>
      (d.world.jobs sampleKey).current.map fun job =>
        (job.status.jobStatus, job.status.errorMessage)) =
      some (some (.completed, "no memory")) := by decide +kernel
  rw [hd, Option.map_some, Option.some.injEq, Option.map_eq_some_iff] at hStored
  obtain ⟨job, hJob, hStatus⟩ := hStored
  obtain ⟨hCompleted, hMessage⟩ := Prod.mk.inj hStatus
  have hManaged := hReached.mono (fun _ h => h) fun _ _ h => managed_of_check h
  have hClaim := claim d sampleKey job hManaged hJob hCompleted
  rw [hMessage] at hClaim
  exact absurd hClaim (by decide)

end Deployment
end QuantumService
