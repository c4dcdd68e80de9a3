import QuantumService.Deployment.Agreement
import QuantumService.Service.Requests

/-! Whose results a job has. A job, its pods and its simulators all carry the spec that
one submission was admitted with, and its record holds the circuit that the same
submission stored, so the results are those of what was submitted. -/
namespace QuantumService
open Interaction Cluster Controller World
variable {setup : Setup}

namespace Deployment
variable {d d' : Deployment setup} {id : String} {key : NamespacedName}

/-- A submission has created the job with this spec. -/
def Issued (d : Deployment setup) (key : NamespacedName) (spec : QuantumAerJobSpec) : Prop :=
  ∃ i request body answer, d.requests i = some request ∧
    ⟨.createCustomObject body, answer⟩ ∈ request.history ∧ body.key = key ∧
    setup.admission.admitted body = some spec

/-- The circuit of the job's record is the one a submission stored. -/
def Placed (d : Deployment setup) (id : String) : Prop :=
  ∃ i request ttl data, d.requests i = some request ∧
    ⟨.setex (jobKey id) ttl data, .ok ()⟩ ∈ request.history ∧
    d.circuits (jobKey id) = data.circuit

theorem Moves.continues {a : Action setup} (h : Moves d a d') : d.Continues d' := by
  cases h with
  | cluster | launched | stopped | expired => exact .of_eq rfl
  | receive fresh => exact continues_of_receive fresh
  | served busy effect => exact continues_of_serve busy effect
  | simulated busy effect => exact .of_eq effect.requests

theorem Issued.continues {spec : QuantumAerJobSpec} (issued : d.Issued key spec)
    (continues : d.Continues d') : d'.Issued key spec := by
  obtain ⟨i, request, body, answer, hRequest, hMem, hKey, hAdmitted⟩ := issued
  obtain ⟨request', hRequest', -, later, hLater⟩ := continues i request hRequest
  exact ⟨i, request', body, answer, hRequest', hLater ▸ List.mem_append_left _ hMem, hKey,
    hAdmitted⟩

theorem placed_of_run (run : Reaches step Sourced Fresh d) (stored : d.Stored id) :
    d.Placed id := by
  have hAll : ∀ id, d.Stored id → d.Placed id := by
    apply run.invariant
    · rintro s fresh id ⟨i, request, ttl, data, hRequest, -⟩
      rw [fresh.initial.unserved] at hRequest
      cases hRequest
    · intro s a t reached placed _ stepped id hStored
      have hMoves := moves_of_step stepped
      by_cases hBefore : s.Stored id
      · obtain ⟨i, request, ttl, data, hRequest, hMem, hCircuit⟩ := placed id hBefore
        obtain ⟨request', hRequest', -, later, hLater⟩ := hMoves.continues i request hRequest
        refine ⟨i, request', ttl, data, hRequest', hLater ▸ List.mem_append_left _ hMem, ?_⟩
        rw [(hMoves.grows (claimed_of_run reached)).circuits hBefore, hCircuit]
      · obtain ⟨i, request, ttl, data, hRequest, hMem⟩ := hStored
        clear stepped
        cases hMoves with
        | served busy effect =>
            rcases update_cases hRequest with ⟨rfl, rfl⟩ | hOld
            · rcases List.mem_append.mp hMem with hOld | hNow
              · exact absurd ⟨i, _, ttl, data, busy, hOld⟩ hBefore
              · cases List.mem_singleton.mp hNow
                obtain rfl := effect.wrote
                exact ⟨i, _, ttl, data, hRequest, hMem, Function.update_self ..⟩
            · rw [effect.requests] at hOld
              exact absurd ⟨i, request, ttl, data, hOld, hMem⟩ hBefore
        | receive fresh =>
            rcases update_cases hRequest with ⟨rfl, rfl⟩ | hOld
            · cases hMem
            · exact absurd ⟨i, request, ttl, data, hOld, hMem⟩ hBefore
        | simulated busy effect =>
            rw [setProcess_requests, effect.requests] at hRequest
            exact absurd ⟨i, request, ttl, data, hRequest, hMem⟩ hBefore
        | cluster | launched | stopped | expired =>
            exact absurd ⟨i, request, ttl, data, hRequest, hMem⟩ hBefore
  exact hAll id stored

/-- Jobs and pods carry the spec of a submission, and so do the processes. -/
structure Specified (d : Deployment setup) : Prop where
  traced : ∀ key, (d.world.view key).Traced (d.Issued key)
  built : ∀ {uid process}, d.processes uid = some process →
    ∃ key, process.Serves key ∧ JobView.Built key (d.Issued key) process.pod

end Deployment

namespace Cluster.JobView
variable {key : NamespacedName} {v : JobView key} {origin origin' : QuantumAerJobSpec → Prop}

theorem Built.mono {pod : Pod} (built : Built key origin pod)
    (weaker : ∀ spec, origin spec → origin' spec) : Built key origin' pod := by
  obtain ⟨job, hKey, hOrigin, hContainers⟩ := built
  exact ⟨job, hKey, weaker _ hOrigin, hContainers⟩

theorem Traced.mono (traced : Traced origin v) (weaker : ∀ spec, origin spec → origin' spec) :
    Traced origin' v where
  jobs := fun hMem => weaker _ (traced.jobs hMem)
  pods := fun hMem => (traced.pods hMem).mono weaker

end Cluster.JobView

namespace Deployment
variable {d d' : Deployment setup} {id : String} {key : NamespacedName}

/-- A step of the cluster, whose jobs are created by submissions that are told so. -/
theorem traced_of_step (sound : ∀ key, (d.world.view key).Sound) (specified : Specified d)
    (continues : d.Continues d') {wa : World.Action} (stepped : d.world.step wa = some d'.world)
    (made : ∀ key spec, wa = .createJob key spec → d'.Issued key spec)
    (alone : ∀ key, World.Alone key d.world wa) (key : NamespacedName) :
    (d'.world.view key).Traced (d'.Issued key) := by
  apply ((specified.traced key).mono fun _ hIssued => hIssued.continues continues).step (sound key)
    (made key) _ (World.view_moves sound stepped key)
  rintro pod rfl r
  exact alone key pod rfl r

/-- Processes go on in the pods they were started in. -/
theorem built_of_resume (specified : Specified d) (continues : d.Continues d') {uid : Nat}
    {process : Process setup} (process' : Process setup) (busy : d.processes uid = some process)
    (same : process'.pod = process.pod)
    (processes : d'.processes = Function.update d.processes uid (some process')) {u : Nat}
    {other : Process setup} (owned : d'.processes u = some other) :
    ∃ key, other.Serves key ∧ JobView.Built key (d'.Issued key) other.pod := by
  rw [processes] at owned
  rcases update_cases owned with ⟨rfl, rfl⟩ | hOld
  · obtain ⟨key, ⟨r, hr⟩, hBuilt⟩ := specified.built busy
    rw [← same] at hr hBuilt
    exact ⟨key, ⟨r, hr⟩, hBuilt.mono fun _ hIssued => hIssued.continues continues⟩
  · obtain ⟨key, hServes, hBuilt⟩ := specified.built hOld
    exact ⟨key, hServes, hBuilt.mono fun _ hIssued => hIssued.continues continues⟩

theorem specified_of_run (run : Reaches step Sourced Fresh d) : Specified d := by
  apply run.invariant
  · intro s fresh
    constructor
    · intro key
      have hJob : (s.world.view key).job = .synced none := fresh.initial.world.jobs key
      constructor
      · simp [hJob]
      · intro r pod hMem
        exact absurd hMem (fresh.unused key r pod)
    · intro uid process hProcess
      rw [fresh.initial.idle] at hProcess
      cases hProcess
  · intro s a t reached specified sourced stepped
    have hSound := sound_of_run reached
    have hMoves := moves_of_step stepped
    have hContinues := hMoves.continues
    have hMono : ∀ key spec, s.Issued key spec → t.Issued key spec :=
      fun _ _ hIssued => hIssued.continues hContinues
    have hBuilt : ∀ {uid process}, s.processes uid = some process →
        ∃ key, process.Serves key ∧ JobView.Built key (t.Issued key) process.pod := by
      intro uid process hProcess
      obtain ⟨key, hServes, hBuilt⟩ := specified.built hProcess
      exact ⟨key, hServes, hBuilt.mono (hMono key)⟩
    clear stepped
    cases hMoves with
    | @cluster wa w clusterStep own reported =>
        have hCauses : Causes s (.cluster wa) wa := .cluster own
        refine ⟨traced_of_step hSound specified hContinues clusterStep ?_
          fun key => (sourced.issues hCauses key).alone, hBuilt⟩
        rintro key spec rfl
        exact absurd rfl (sourced.sole key spec)
    | receive fresh => exact ⟨fun key => (specified.traced key).mono (hMono key), hBuilt⟩
    | @served i endpoint history call reply answer next path middle busy effect =>
        rw [← effect.processes] at hBuilt
        cases effect with
        | @created body spec w answer admitted createStep =>
            have hCauses : Causes s (.serve i reply) _ := .created busy admitted
            refine ⟨traced_of_step hSound specified hContinues createStep ?_
              fun key => (sourced.issues hCauses key).alone, hBuilt⟩
            rintro key spec' ⟨⟩
            exact ⟨i, _, body, answer, Function.update_self .., last_mem _, rfl, admitted⟩
        | backend | uuid4 | strftime | stored | unstored | fetched | unfetched | uncreated | found
        | unfound => exact ⟨fun key => (specified.traced key).mono (hMono key), hBuilt⟩
    | @launched key retries pod present fresh live =>
        refine ⟨fun key => (specified.traced key).mono (hMono key), ?_⟩
        intro uid process hProcess
        rcases update_cases hProcess with ⟨rfl, rfl⟩ | hOld
        · have hMem : some pod ∈ ((s.world.view key).pods retries).visible :=
            present ▸ Register.current_mem_visible _
          exact ⟨key, ⟨retries, (hSound key).podKeyed hMem⟩,
            ((specified.traced key).pods hMem).mono (hMono key)⟩
        · exact hBuilt hOld
    | @simulated uid pod history call reply answer next path middle busy effect =>
        have hResumed := fun u other => @built_of_resume setup s _ specified hContinues uid _
          ⟨pod, _, _, path.snoc answer, false⟩ busy rfl
          (by rw [setProcess_processes, effect.processes]) u other
        cases effect with
        | @patched key message w answer applied patchStep =>
            refine ⟨traced_of_step hSound specified hContinues patchStep ?_ ?_, hResumed _ _⟩
            · rintro key spec ⟨⟩
            · intro key
              exact (sourced.issues (Causes.patched busy applied) key).alone
        | loadIncluster | ping | fetched | unfetched | runSimulation | unpatched | strftime | stored
        | unstored => exact ⟨fun key => (specified.traced key).mono (hMono key), hResumed _ _⟩
    | @stopped uid process busy running =>
        exact ⟨fun key => (specified.traced key).mono (hMono key),
          built_of_resume specified hContinues { process with stopped := true } busy rfl rfl⟩
    | expired => exact ⟨fun key => (specified.traced key).mono (hMono key), hBuilt⟩

/-- The text is what a simulator of the job serialized of a run of the circuits in `data`.
They are transpiled for the requested backend, and run with the spec the job was
admitted with. -/
def Yields (d : Deployment setup) (id : String) (data : Object)
    (history : Service.History setup.q) (text : String) : Prop :=
  ∃ circuit isaCircuits results spec uid process,
    Service.Transpiled setup.cfg data history circuit ∧
    setup.aer.load circuit = .ok isaCircuits ∧
    setup.admission.admitted (Service.requestedBody setup.cfg data (.str id)) = some spec ∧
    d.processes uid = some process ∧ process.Serves (jobNamed setup id) ∧
    ⟨.runSimulation isaCircuits spec.shots.toInt spec.backendName, .ok results⟩ ∈
      process.history ∧
    setup.aer.serialize results = .ok text

/-- An answered call of a request was asked after the calls before it. -/
theorem asked_of_mem (request : Request setup) {e : Event (Service.Call.Answer setup.q)}
    (mem : e ∈ request.history) : ∃ before later next, request.history = before ++ e :: later ∧
      Program.Path (request.endpoint.program setup) before (.ask e.1 next) := by
  obtain ⟨before, later, hHistory⟩ := List.append_of_mem mem
  have hPath := request.path
  rw [hHistory] at hPath
  obtain ⟨next, hBefore, -⟩ := hPath.split
  exact ⟨before, later, next, hHistory, hBefore⟩

/-- The record a submission wrote has its circuits, transpiled. -/
theorem transpiled_of_stored {request : Request setup} {key : String} {ttl : Nat}
    {record : JobData} {answer : Except String Unit}
    (mem : ⟨.setex key ttl record, answer⟩ ∈ request.history) :
    ∃ data circuit, request.endpoint = .transpile (.ok data) ∧ record.circuit = some circuit ∧
      Service.Transpiled setup.cfg data request.history circuit := by
  obtain ⟨before, later, next, hHistory, hPath⟩ := asked_of_mem request mem
  obtain ⟨body, id, circuit, createdAt, updatedAt, hEndpoint, -⟩ :=
    (site_of_request hPath).setex_inv
  rw [hEndpoint] at hPath
  cases (Service.transpile_writes setup.cfg setup.trace body).call hPath with
  | setex decoded transpiled =>
      rw [decoded] at hEndpoint
      exact ⟨_, _, hEndpoint, rfl, hHistory ▸ transpiled.append _⟩

/-- The job a submission created is its own, and has the body that was requested. -/
theorem requested_of_created {i : Nat} {request : Request setup} {body : Service.JobBody}
    {spec : QuantumAerJobSpec} {answer : Except String Unit}
    (asked : d.requests i = some request)
    (mem : ⟨.createCustomObject body, answer⟩ ∈ request.history)
    (admitted : setup.admission.admitted body = some spec) :
    d.Takes i spec.jobID ∧ ∃ data, request.endpoint = .transpile (.ok data) ∧
      body = Service.requestedBody setup.cfg data (.str spec.jobID) := by
  obtain ⟨before, later, next, hHistory, hPath⟩ := asked_of_mem request mem
  obtain ⟨endpoint, history, rest, path⟩ := request
  dsimp only at hHistory hPath
  have hSite := site_of_request hPath
  cases hSite with
  | @transpile posted site =>
      have hWrites := (Service.transpile_writes setup.cfg setup.trace posted).call hPath
      cases site with
      | createCustomObject identified named jobID stored =>
          rw [setup.admission.jobID admitted] at jobID
          have hId := Service.identifier_append identified (⟨.createCustomObject body, answer⟩ ::
            later)
          rw [← hHistory, ← jobID] at hId
          generalize hCall : Service.Call.createCustomObject body = call at hWrites
          cases hWrites with
          | @createCustomObject data jobID' decoded =>
              cases hCall
              subst decoded
              obtain rfl : jobID' = .str spec.jobID := setup.admission.jobID admitted
              exact ⟨⟨_, _, asked, rfl, hId⟩, data, rfl, rfl⟩
          | backend | uuid4 | strftime | setex => cases hCall
  | status site => cases site
  | result site => cases site

/-- The data a job holds when it is done are the results of what was submitted. -/
theorem Holds.yields {record : JobData} (holds : d.Holds id record)
    (run : Reaches step Sourced Fresh d) : ∃ text i request data, record.results = some text ∧
      d.requests i = some request ∧ request.endpoint = .transpile (.ok data) ∧ d.Takes i id ∧
      d.Yields id data request.history text := by
  have hClaimed := claimed_of_run run
  obtain ⟨circuit, text, hCircuit, hText, uid, process, vars, hProcess, hEnv, isaCircuits, results,
    hLoad, hRan, hSerialized⟩ := holds.result
  -- the circuit is that of the submission that stored it
  obtain ⟨i, request, ttl, stored, hRequest, hStored, hPlaced⟩ := placed_of_run run holds.stored
  obtain ⟨data, circuit', hEndpoint, hCircuit', hTranspiled⟩ := transpiled_of_stored hStored
  have hRecord : record.circuit = some circuit' :=
    holds.circuit.trans (hPlaced.trans hCircuit')
  obtain rfl : circuit' = circuit := Option.some.inj (hRecord.symm.trans hCircuit)
  have hTakes := hClaimed.wrote hRequest hStored
  -- the spec is that of the submission that created the job, which is the same one
  obtain ⟨key, hServes, job, hKey, ⟨j, request', body, answer, hRequest', hCreated, hNamed,
    hAdmitted⟩, hContainers⟩ := (specified_of_run run).built hProcess
  obtain ⟨hJob, hShots, hBackend⟩ := Simulator.spec_of_simulatorPod hContainers hEnv.env
  obtain rfl : job.spec.jobID = id := Option.some.inj (hJob.symm.trans hEnv.jobId)
  obtain ⟨hTakes', data', hEndpoint', rfl⟩ := requested_of_created hRequest' hCreated hAdmitted
  obtain rfl := hClaimed.unique hTakes hTakes'
  obtain rfl := Option.some.inj (hRequest.symm.trans hRequest')
  have hBody := hEndpoint.symm.trans hEndpoint'
  cases hBody
  rw [hShots, hBackend] at hRan
  rw [← hNamed] at hServes
  exact ⟨text, i, request, data, hText, hRequest, hEndpoint, hTakes, circuit', isaCircuits, results,
    job.spec, uid, process, hTranspiled, hLoad, hAdmitted, hProcess, hServes, hRan, hSerialized⟩

/-- Results that were delivered are those of the job's one submission. -/
theorem Delivered.submitted {text : String} (delivered : d.Delivered id text)
    (run : Reaches step Sure Fresh d) : ∃ j submission data, d.requests j = some submission ∧
      submission.endpoint = .transpile (.ok data) ∧ d.Takes j id ∧
      d.Yields id data submission.history text := by
  obtain ⟨record, -, hText, hHolds⟩ := delivered.fetched run
  obtain ⟨text', j, submission, data, hText', hSubmission, hBody, hTakes, hYields⟩ :=
    hHolds.yields (sourced_of_run run)
  obtain rfl := Option.some.inj (hText.symm.trans hText')
  exact ⟨j, submission, data, hSubmission, hBody, hTakes, hYields⟩

/-- Everyone gets the results of what was submitted, in every run in which no reconcile
guesses: an answer that says success has the text that a simulator made of a run of the
circuits, shots and backend that the job's one submission asked for. -/
theorem results_submitted (run : Reaches step Sure Fresh d) {i : Nat} {request : Request setup}
    {jobID : String} {response : Service.Response} (asked : d.requests i = some request)
    (endpoint : request.endpoint = .result jobID) (answered : request.rest = .done response)
    (success : response.body.get "status" = .str "success") :
    ∃ text j submission data, response.body.get "result" = .str text ∧
      d.requests j = some submission ∧ submission.endpoint = .transpile (.ok data) ∧
      d.Takes j jobID ∧ (∀ k, d.Takes k jobID → k = j) ∧
      d.Yields jobID data submission.history text := by
  obtain ⟨-, text, -, -, hResult, -⟩ := answer_of_run run asked endpoint answered success
  have hDelivered : d.Delivered jobID text :=
    ⟨i, request, response, asked, endpoint, answered, success, hResult⟩
  obtain ⟨j, submission, data, hSubmission, hBody, hTakes, hYields⟩ := hDelivered.submitted run
  exact ⟨text, j, submission, data, hResult, hSubmission, hBody, hTakes,
    fun k hOther => (claimed_of_run (sourced_of_run run)).unique hOther hTakes, hYields⟩

/-- What a submission asked for. -/
def submissionOf (request : Request setup) : Option Object :=
  match request.endpoint with
  | .transpile (.ok data) => some data
  | _ => none

theorem submissionOf_inv {request : Request setup} {data : Object}
    (h : submissionOf request = some data) : request.endpoint = .transpile (.ok data) := by
  unfold submissionOf at h
  split at h
  · cases h
    assumption
  · cases h

theorem results_submitted_requested : ∃ d request submission,
    runActions step (.empty sampleSetup) resultRun = some d ∧ d.requests 1 = some request ∧
    resultOf request =
      some ("1", ⟨200, [("status", .str "success"), ("result", .str "e30=")]⟩) ∧
    d.requests 0 = some submission ∧
    submission.endpoint = .transpile (.ok Service.sampleRequest) ∧
    d.Yields "1" Service.sampleRequest submission.history "e30=" := by
  have hRun : (runActions step (.empty sampleSetup) resultRun).isSome := by decide
  obtain ⟨d, hd⟩ := Option.isSome_iff_exists.mp hRun
  have hReached : Reaches step (fun d a => d.managed a = true ∧ d.guesses a = false) Fresh d :=
    (Reaches.start (.empty sampleSetup)).runActions (by decide) hd
  have hSure : Reaches step Sure Fresh d :=
    hReached.mono (fun _ h => h) fun _ _ h => ⟨managed_of_check h.1, h.2⟩
  have hSeen : (runActions step (.empty sampleSetup) resultRun).map (fun d =>
      ((d.requests 1).bind resultOf, (d.requests 0).bind submissionOf)) =
      some (some ("1", ⟨200, [("status", .str "success"), ("result", .str "e30=")]⟩),
        some Service.sampleRequest) := by
    decide
  rw [hd, Option.map_some, Option.some.injEq, Prod.mk.injEq, Option.bind_eq_some_iff,
    Option.bind_eq_some_iff] at hSeen
  obtain ⟨⟨request, hRequest, hAnswer⟩, submission, hSubmission, hData⟩ := hSeen
  have hPosted := submissionOf_inv hData
  refine ⟨d, request, submission, hd, hRequest, hAnswer, hSubmission, hPosted, ?_⟩
  obtain ⟨hEndpoint, hDone⟩ := resultOf_inv hAnswer
  obtain ⟨text, j, other, data, hText, hOther, hBody, -, hUnique, hYields⟩ :=
    results_submitted hSure hRequest hEndpoint hDone rfl
  have hTakes : d.Takes 0 "1" := ⟨submission, _, hSubmission, hPosted, rfl⟩
  obtain rfl := hUnique 0 hTakes
  obtain rfl := Option.some.inj (hSubmission.symm.trans hOther)
  rw [hPosted] at hBody
  cases hBody
  cases hText
  exact hYields

end Deployment
end QuantumService
