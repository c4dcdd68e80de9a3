import QuantumService.Deployment.Completed

/-! One result for each job. Once a job is completed none of its simulators runs any
more and none can be started, so its record stays as it is until it expires, and
everyone who asks for its results is told the same. -/
namespace QuantumService
open Interaction Cluster Controller World
variable {setup : Setup} {key : NamespacedName}

namespace Cluster.JobView
variable {v v' : JobView key} {processes : Nat → Option (Process setup)}

/-- The job was completed, and may be deleted since. Its simulators have ended, and
no pod of it is left to start another. -/
structure Concluded (v : JobView key) (processes : Nat → Option (Process setup)) : Prop where
  created : v.created
  completed : ∀ {job}, v.job.current = some job → job.status.jobStatus = .completed
  ended : ∀ {uid process}, processes uid = some process → process.Serves key →
    process.running = false
  launched : ∀ {r pod}, (v.pods r).current = some pod → pod.deletionRequested = false →
    ∃ process, processes pod.uid = some process

theorem concluded_of_completed (sound : Sound v) (accounted : Accounted v processes)
    (single : SingleAttempt v) {job : QuantumAerJob} (stored : v.job.current = some job)
    (completed : job.status.jobStatus = .completed) : Concluded v processes where
  created := sound.versions.created_of_stored (stored ▸ v.job.current_mem_visible)
  completed := by
    intro other hOther
    obtain rfl := Option.some.inj (stored.symm.trans hOther)
    exact completed
  ended := by
    intro uid process hProcess hServes
    by_contra hRuns
    obtain ⟨pod, hPod, -, rfl⟩ := accounted.running hProcess hServes (by simpa using hRuns) stored
      (completed ▸ JobState.completed_ne_failed)
    obtain ⟨other, hOther, hEnded⟩ :=
      accounted.halted stored completed (hPod ▸ Register.current_mem_visible _)
    rw [hProcess] at hOther
    cases hOther
    exact hRuns hEnded
  launched := by
    intro r pod hPod hLive
    have hNumber := single.current stored ⟨pod, hPod, hLive⟩
    subst hNumber
    obtain ⟨process, hProcess, -⟩ :=
      accounted.halted stored completed (hPod ▸ Register.current_mem_visible _)
    exact ⟨process, hProcess⟩

namespace Concluded

/-- What can still be read of the job is not pending. -/
theorem not_pending (concluded : Concluded v processes) (sound : Sound v) {job : QuantumAerJob}
    (visible : some job ∈ v.job.visible) : job.status.jobStatus ≠ .pending := by
  intro hState
  cases hCurrent : v.job.current with
  | some stored =>
      have hCompleted := concluded.completed hCurrent
      rcases sound.versions.newer_of_current hCurrent visible with rfl | hSucceeds
      · exact JobState.completed_ne_pending (hCompleted.symm.trans hState)
      · exact hSucceeds.not_completed hState hCompleted
  | none =>
      rcases List.mem_cons.mp visible with hNow | hStale
      · rw [hCurrent] at hNow
        cases hNow
      · have hNewer := (List.pairwise_cons.mp sound.versions.ordered).1 _ hStale
        rw [hCurrent] at hNewer
        have hTerminal : job.status.jobStatus.Terminal := hNewer
        rw [hState] at hTerminal
        exact JobState.not_terminal_pending hTerminal

/-- Another value of one pod, which is not live unless it has a process. -/
theorem setPod (concluded : Concluded v processes) (retries : Int32) (value : Option Pod)
    (owned : ∀ pod, value = some pod → pod.deletionRequested = false →
      ∃ process, processes pod.uid = some process) :
    Concluded (v.setPod retries value) processes where
  created := concluded.created
  completed := concluded.completed
  ended := concluded.ended
  launched := by
    intro r pod hPod hLive
    by_cases hr : r = retries
    · subst hr
      rw [setPod_pods_self, Register.current_write] at hPod
      exact owned pod hPod hLive
    · rw [setPod_pods_of_ne v hr] at hPod
      exact concluded.launched hPod hLive

theorem setJob (concluded : Concluded v processes) (value : Option QuantumAerJob)
    (completed : ∀ job, value = some job → job.status.jobStatus = .completed) :
    Concluded (v.setJob value) processes :=
  { concluded with completed := fun hStored => completed _ hStored }

theorem log (concluded : Concluded v processes) (write : Write) :
    Concluded (v.log write) processes :=
  { concluded with }

theorem setWorker (concluded : Concluded v processes) (worker : Option (Worker key)) :
    Concluded (v.setWorker worker) processes :=
  { concluded with }

/-- What the cluster does to a completed job starts nothing anew. A reconcile that holds an
old copy of it can create no pod, since no copy is pending. -/
theorem cluster (concluded : Concluded v processes) (sound : Sound v) {a : World.Action}
    (alone : ∀ pod, a = .createPod pod → ∀ r, pod.key ≠ simulatorPodKey key r)
    (h : Moves v a v') : Concluded v' processes := by
  cases h with
  | elsewhere | setClock | finish => exact { concluded with }
  | create fresh => exact absurd concluded.created fresh
  | start => exact concluded.setWorker _
  | quiet => exact concluded.setWorker _
  | readJob waits read =>
      exact { concluded with
        completed := fun hStored =>
          concluded.completed ((Register.current_read read).symm.trans hStored) }
  | readPod waits held read =>
      exact { concluded with
        launched := fun hPod =>
          concluded.launched ((servePod_pods_current read _).symm.trans hPod) }
  | @created job history next reply answer path waits held free reported =>
      obtain ⟨job', hRead, hState, -, -⟩ := (site_of_busy path).createPod_inv
      obtain rfl : job = job' := Option.some.inj (held.symm.trans hRead)
      exact absurd hState (concluded.not_pending sound (sound.held_visible waits held))
  | @deleted job pod stored history next reply answer path waits held named present reported =>
      have hPods := concluded.setPod job.status.retries
        (some { stored with deletionRequested := true }) (by rintro _ ⟨⟩ ⟨⟩)
      exact (hPods.log _).setWorker _
  | expired waits held present reported =>
      exact ((concluded.setJob none (by rintro _ ⟨⟩)).log _).setWorker _
  | @updated job stored status history next reply answer path waits held present version
      reported =>
      obtain ⟨rfl, -⟩ := sound.versions.eq_of_version (sound.held waits held) present version
      have hOk := sound.versions.ok (sound.held_visible waits held)
      have hActive := (((site_of_busy path).reason held).advance hOk).active
      rw [concluded.completed present] at hActive
      exact absurd JobState.terminal_completed hActive
  | patched present =>
      have hCompleted := concluded.completed present
      apply concluded.setJob
      rintro _ ⟨⟩
      exact hCompleted
  | @setPhase retries phase pod present =>
      have hLaunched := concluded.launched present
      apply concluded.setPod
      rintro _ ⟨⟩ hLive
      exact hLaunched hLive
  | createPod named free => exact absurd named (alone _ rfl _)
  | removePod present => exact concluded.setPod _ none (by rintro _ ⟨⟩)

/-- A process of another job goes on. -/
theorem resume (concluded : Concluded v processes) {uid : Nat} {process process' : Process setup}
    (busy : processes uid = some process) (running : process.running = true)
    (same : process'.pod = process.pod) :
    Concluded v (Function.update processes uid (some process')) where
  created := concluded.created
  completed := concluded.completed
  ended := by
    intro u other hOther hServes
    rcases update_cases hOther with ⟨rfl, rfl⟩ | hOld
    · obtain ⟨r, hr⟩ := hServes
      have hEnded := concluded.ended busy ⟨r, same ▸ hr⟩
      rw [running] at hEnded
      cases hEnded
    · exact concluded.ended hOld hServes
  launched := by
    intro r pod hPod hLive
    obtain ⟨other, hOther⟩ := concluded.launched hPod hLive
    by_cases hUid : pod.uid = uid
    · exact ⟨process', by rw [hUid, Function.update_self]⟩
    · exact ⟨other, by rw [Function.update_of_ne hUid, hOther]⟩

/-- A pod of another job is started. -/
theorem launch (concluded : Concluded v processes) {pod : Pod}
    (elsewhere : ¬ (Process.start setup pod).Serves key) :
    Concluded v (Function.update processes pod.uid (some (.start setup pod))) where
  created := concluded.created
  completed := concluded.completed
  ended := by
    intro u other hOther hServes
    rcases update_cases hOther with ⟨rfl, rfl⟩ | hOld
    · exact absurd hServes elsewhere
    · exact concluded.ended hOld hServes
  launched := by
    intro r other hOther hLive
    obtain ⟨process, hProcess⟩ := concluded.launched hOther hLive
    by_cases hUid : other.uid = pod.uid
    · exact ⟨.start setup pod, by rw [hUid, Function.update_self]⟩
    · exact ⟨process, by rw [Function.update_of_ne hUid, hProcess]⟩

end Concluded
end Cluster.JobView

namespace Deployment
variable {d d' : Deployment setup} {id jobID : String} {data : JobData}

/-- No step of the system starts a completed job again. -/
theorem concluded_of_step (run : Reaches step Sourced Fresh d) {a : Action setup}
    (sourced : Sourced d a) (stepped : d.step a = some d')
    (concluded : (d.world.view key).Concluded d.processes) :
    (d'.world.view key).Concluded d'.processes := by
  have hSound := sound_of_run run
  cases (moves_of_step stepped).turns with
  | idle world processes =>
      rw [world, processes]
      exact concluded
  | cluster causes own reported clusterStep processes =>
      rw [processes]
      apply concluded.cluster (hSound key) _ (World.view_moves hSound clusterStep key)
      rintro pod rfl r
      exact (sourced.issues causes key).alone pod rfl r
  | @launched target retries pod present fresh live world processes =>
      rw [world, processes]
      apply concluded.launch
      intro hServes
      have hKeyed := (hSound target).podKeyed (present ▸ Register.current_mem_visible _)
      have hTarget : (Process.start setup pod).Serves target := ⟨retries, hKeyed⟩
      obtain rfl := Process.serves_unique hTarget hServes
      obtain ⟨process, hProcess⟩ := concluded.launched present live
      rw [fresh] at hProcess
      cases hProcess
  | resumed process' busy running same grown cleared world processes =>
      rw [world, processes]
      exact concluded.resume busy running same
  | patched process' busy running same grown cleared site patchStep processes =>
      rw [processes]
      have hMoves := World.view_moves hSound patchStep key
      exact (concluded.cluster (hSound key) (by simp) hMoves).resume busy running same

/-- The record of the job keeps this data as long as it is there. -/
structure Final (d : Deployment setup) (id : String) (data : JobData) : Prop where
  stored : d.Stored id
  concluded : (d.world.view (jobNamed setup id)).Concluded d.processes
  record : ∀ {entry}, d.records (jobKey id) = some entry → entry.data = data

/-- The record of a completed job is not written again. -/
theorem Final.step (final : d.Final id data) (run : Reaches step Sourced Fresh d)
    {a : Action setup} (sourced : Sourced d a) (stepped : d.step a = some d') :
    d'.Final id data := by
  have hClaimed := claimed_of_run run
  have hMoves := moves_of_step stepped
  refine ⟨(hMoves.grows hClaimed).stored final.stored,
    concluded_of_step run sourced stepped final.concluded, fun {entry} hRecord => ?_⟩
  clear stepped
  cases hMoves with
  | cluster | receive | launched | stopped => exact final.record hRecord
  | served busy effect =>
      rw [setRequest_records, (records_of_serve hClaimed busy effect final.stored).1] at hRecord
      exact final.record hRecord
  | @simulated uid pod history call reply answer next path middle busy effect =>
      cases effect with
      | stored =>
          cases (Simulator.main_follows pod).call path with
          | @setex vars data' text now env computed =>
              obtain ⟨id', hServes, -, hId⟩ := (hosted_of_run run).environment busy env
              have hOwn : vars.recordKey = jobKey id' := by
                rw [Simulator.ConfigVars.recordKey, hId, Option.getD_some]
              have hOther : jobKey id ≠ jobKey id' := by
                intro hKey
                obtain rfl := jobKey_injective hKey
                have hEnded := final.concluded.ended busy hServes
                cases hEnded
              rw [setProcess_records, setRecord_records, hOwn, Function.update_of_ne hOther]
                at hRecord
              exact final.record hRecord
      | loadIncluster | ping | fetched | unfetched | runSimulation | patched | unpatched | strftime
      | unstored => exact final.record hRecord
  | @expired key =>
      rw [setRecord_records] at hRecord
      by_cases hKey : jobKey id = key
      · rw [hKey, Function.update_self] at hRecord
        cases hRecord
      · rw [Function.update_of_ne hKey] at hRecord
        exact final.record hRecord

/-- What a request has learnt it had learnt before, or learns in this step. -/
theorem Moves.event {a : Action setup} (h : Moves d a d') {i : Nat} {request' : Request setup}
    (answered : d'.requests i = some request') {e : Event (Service.Call.Answer setup.q)}
    (mem : e ∈ request'.history) :
    (∃ request, d.requests i = some request ∧ request.endpoint = request'.endpoint ∧
      e ∈ request.history) ∨
    ∃ request next, ∃ path : Program.Path (request'.endpoint.program setup) request
      (.ask e.1 next), ∃ reply middle,
      d.requests i = some ⟨request'.endpoint, request, .ask e.1 next, path⟩ ∧
        ServiceEffect d reply e.1 e.2 middle := by
  cases h with
  | cluster | launched | stopped | expired => exact .inl ⟨request', answered, rfl, mem⟩
  | simulated busy effect =>
      rw [setProcess_requests, effect.requests] at answered
      exact .inl ⟨request', answered, rfl, mem⟩
  | receive fresh =>
      rcases update_cases answered with ⟨rfl, rfl⟩ | hOld
      · cases mem
      · exact .inl ⟨request', hOld, rfl, mem⟩
  | @served j endpoint history call reply answer next path middle busy effect =>
      rcases update_cases answered with ⟨rfl, rfl⟩ | hOld
      · rcases List.mem_append.mp mem with hBefore | hNow
        · exact .inl ⟨_, busy, rfl, hBefore⟩
        · obtain rfl := List.mem_singleton.mp hNow
          exact .inr ⟨history, next, path, reply, middle, busy, effect⟩
      · rw [effect.requests] at hOld
        exact .inl ⟨request', hOld, rfl, mem⟩

/-- A request for the job's results has read that it is completed. -/
def Known (d : Deployment setup) (jobID : String) : Prop :=
  ∃ i request, d.requests i = some request ∧ request.endpoint = .result jobID ∧
    Service.Completed setup.cfg jobID request.history

/-- A request for the job's results has read this record. -/
def Fetched (d : Deployment setup) (jobID : String) (data : JobData) : Prop :=
  ∃ i request, d.requests i = some request ∧ request.endpoint = .result jobID ∧
    ⟨.get (jobKey jobID), .ok (some data)⟩ ∈ request.history

theorem known_of_step {a : Action setup} (stepped : d.step a = some d')
    (known : d'.Known jobID) : d.Known jobID ∨ ∃ job,
      (d.world.view (jobNamed setup jobID)).job.current = some job ∧
        job.status.jobStatus = .completed := by
  obtain ⟨i, request', hRequest, hEndpoint, status, hMem, hState⟩ := known
  rcases (moves_of_step stepped).event hRequest hMem with
    ⟨request, hBefore, hSame, hOld⟩ | ⟨_, _, _, _, _, -, hEffect⟩
  · exact .inl ⟨i, request, hBefore, hSame.trans hEndpoint, status, hOld, hState⟩
  · obtain ⟨job, hStored, rfl⟩ := hEffect.status
    exact .inr ⟨job, hStored, jobStatus_of_statusObject hState⟩

theorem fetched_of_step {a : Action setup} (stepped : d.step a = some d')
    (fetched : d'.Fetched jobID data) : d.Fetched jobID data ∨ d.Known jobID ∧
      ∃ entry, d.records (jobKey jobID) = some entry ∧ entry.data = data := by
  obtain ⟨i, ⟨endpoint, history', rest, path'⟩, hRequest, hEndpoint, hMem⟩ := fetched
  have hResult : endpoint = .result jobID := hEndpoint
  subst hResult
  rcases (moves_of_step stepped).event hRequest hMem with
    ⟨request, hBefore, hSame, hOld⟩ | ⟨history, next, path, reply, middle, hBusy, hEffect⟩
  · exact .inl ⟨i, request, hBefore, hSame, hOld⟩
  · right
    refine ⟨?_, hEffect.read⟩
    cases site_of_request path with
    | result site =>
        generalize hKey : jobKey jobID = key at site
        cases site with
        | get completed => exact ⟨i, _, hBusy, rfl, completed⟩

/-- A job that was read as completed stays concluded, and all who read its record
read the same. -/
structure Unanimous (d : Deployment setup) : Prop where
  concluded : ∀ {jobID}, d.Known jobID →
    (d.world.view (jobNamed setup jobID)).Concluded d.processes
  final : ∀ {jobID data}, d.Fetched jobID data → d.Final jobID data
  same : ∀ {jobID data data'}, d.Fetched jobID data → d.Fetched jobID data' → data = data'

theorem unanimous_of_run (run : Reaches step Sure Fresh d) : d.Unanimous := by
  apply run.invariant
  · intro s fresh
    have hNone : ∀ {i request}, s.requests i ≠ some request := by
      intro i request hRequest
      rw [fresh.initial.unserved] at hRequest
      cases hRequest
    constructor
    · rintro jobID ⟨i, request, hRequest, -⟩
      exact absurd hRequest hNone
    · rintro jobID data ⟨i, request, hRequest, -⟩
      exact absurd hRequest hNone
    · rintro jobID data data' ⟨i, request, hRequest, -⟩
      exact absurd hRequest hNone
  · intro s a t reached unanimous sure stepped
    have hRun := sourced_of_run reached
    have hSourced := sure.managed.sourced
    -- what is read in this step was final before it
    have hRead : ∀ {jobID entry}, s.Known jobID → s.records (jobKey jobID) = some entry →
        s.Final jobID entry.data := by
      intro jobID entry hKnown hRecord
      have hConcluded := unanimous.concluded hKnown
      obtain ⟨id, hName, hStored⟩ := (claimed_of_run hRun).created hConcluded.created
      rw [← jobNamed_injective hName] at hStored
      refine ⟨hStored, hConcluded, fun {other} hOther => ?_⟩
      rw [Option.some.inj (hRecord.symm.trans hOther)]
    constructor
    · intro jobID hKnown
      apply concluded_of_step hRun hSourced stepped
      rcases known_of_step stepped hKnown with hBefore | ⟨job, hStored, hCompleted⟩
      · exact unanimous.concluded hBefore
      · exact JobView.concluded_of_completed (sound_of_run hRun _) (accounted_of_run reached _)
          (singleAttempt_of_run reached _) hStored hCompleted
    · intro jobID data hFetched
      rcases fetched_of_step stepped hFetched with hBefore | ⟨hKnown, entry, hRecord, rfl⟩
      · exact (unanimous.final hBefore).step hRun hSourced stepped
      · exact (hRead hKnown hRecord).step hRun hSourced stepped
    · intro jobID data data' hFetched hFetched'
      rcases fetched_of_step stepped hFetched with hBefore | ⟨-, entry, hRecord, rfl⟩ <;>
      rcases fetched_of_step stepped hFetched' with hBefore' | ⟨-, entry', hRecord', rfl⟩
      · exact unanimous.same hBefore hBefore'
      · exact ((unanimous.final hBefore).record hRecord').symm
      · exact (unanimous.final hBefore').record hRecord
      · rw [Option.some.inj (hRecord.symm.trans hRecord')]

/-- An answer that says success has the results of the record that was read. -/
theorem answer_of_run (run : Reaches step Sure Fresh d) {i : Nat} {request : Request setup}
    {response : Service.Response} (asked : d.requests i = some request)
    (endpoint : request.endpoint = .result jobID) (answered : request.rest = .done response)
    (success : response.body.get "status" = .str "success") :
    ∃ data text, d.Fetched jobID data ∧ data.results = some text ∧
      response.body.get "result" = .str text ∧ d.Holds jobID data := by
  have hPolled := polled_of_run run asked endpoint
  obtain ⟨_, history, rest, path⟩ := request
  dsimp only at endpoint answered
  subst endpoint answered
  have hAnswers := (Service.getJobResultEndpoint_follows setup.cfg jobID).result path
  obtain ⟨data, text, hMem, hText, hResult, hHolds⟩ := hPolled.answer hAnswers success
  exact ⟨data, text, ⟨i, _, asked, rfl, hMem⟩, hText, hResult, hHolds⟩

/-- A request for the results of the job was answered with this text. -/
def Delivered (d : Deployment setup) (jobID text : String) : Prop :=
  ∃ i request response, d.requests i = some request ∧ request.endpoint = .result jobID ∧
    request.rest = .done response ∧ response.body.get "status" = .str "success" ∧
    response.body.get "result" = .str text

/-- Results that were delivered were read from the record of a job that is done. -/
theorem Delivered.fetched {text : String} (delivered : d.Delivered jobID text)
    (run : Reaches step Sure Fresh d) :
    ∃ data, d.Fetched jobID data ∧ data.results = some text ∧ d.Holds jobID data := by
  obtain ⟨i, request, response, hAsked, hEndpoint, hAnswered, hSuccess, hText⟩ := delivered
  obtain ⟨data, text', hFetched, hResults, hText', hHolds⟩ :=
    answer_of_run run hAsked hEndpoint hAnswered hSuccess
  obtain rfl := Json.str.inj (hText.symm.trans hText')
  exact ⟨data, hFetched, hResults, hHolds⟩

/-- All who were delivered the results of a job have the same text. -/
theorem Delivered.unique {text text' : String} (delivered : d.Delivered jobID text)
    (other : d.Delivered jobID text') (run : Reaches step Sure Fresh d) : text' = text := by
  obtain ⟨data, hFetched, hText, -⟩ := delivered.fetched run
  obtain ⟨data', hFetched', hText', -⟩ := other.fetched run
  rw [(unanimous_of_run run).same hFetched' hFetched, hText] at hText'
  exact (Option.some.inj hText').symm

/-- One result for each job, in every run in which no reconcile guesses: whoever is answered
with success is told the same results, and the record holds no others. -/
theorem results_agree (run : Reaches step Sure Fresh d) {i : Nat} {request : Request setup}
    {response : Service.Response} (asked : d.requests i = some request)
    (endpoint : request.endpoint = .result jobID) (answered : request.rest = .done response)
    (success : response.body.get "status" = .str "success") :
    ∃ text, response.body.get "result" = .str text ∧
      (∀ j request' response', d.requests j = some request' → request'.endpoint = .result jobID →
        request'.rest = .done response' → response'.body.get "status" = .str "success" →
        response'.body.get "result" = .str text) ∧
      ∀ entry, d.records (jobKey jobID) = some entry → entry.data.results = some text := by
  obtain ⟨data, text, hFetched, hText, hResult, -⟩ :=
    answer_of_run run asked endpoint answered success
  have hDelivered : d.Delivered jobID text :=
    ⟨i, request, response, asked, endpoint, answered, success, hResult⟩
  refine ⟨text, hResult, ?_, ?_⟩
  · intro j request' response' hAsked hEndpoint hAnswered hSuccess
    obtain ⟨-, text', -, -, hResult', -⟩ := answer_of_run run hAsked hEndpoint hAnswered hSuccess
    rw [hResult', hDelivered.unique
      ⟨j, request', response', hAsked, hEndpoint, hAnswered, hSuccess, hResult'⟩ run]
  · intro entry hRecord
    rw [((unanimous_of_run run).final hFetched).record hRecord]
    exact hText

/-- The answer to a request for the results of a job. -/
def resultOf (request : Request setup) : Option (String × Service.Response) :=
  match request with
  | ⟨.result jobID, _, .done response, _⟩ => some (jobID, response)
  | _ => none

theorem resultOf_inv {request : Request setup} {response : Service.Response}
    (h : resultOf request = some (jobID, response)) :
    request.endpoint = .result jobID ∧ request.rest = .done response := by
  unfold resultOf at h
  split at h
  · cases h
    exact ⟨rfl, rfl⟩
  · cases h

/-- The results of job `1` are requested twice. -/
def askTwiceRun : List (Action sampleSetup) :=
  resultRun ++ [.receive 2 (.result "1"), .serve 2 .ok, .serve 2 .ok]

theorem results_agree_requested : ∃ d request request',
    runActions step (.empty sampleSetup) askTwiceRun = some d ∧
    d.requests 1 = some request ∧ d.requests 2 = some request' ∧
    ∃ response response', resultOf request = some ("1", response) ∧
      resultOf request' = some ("1", response') ∧
      response'.body.get "result" = response.body.get "result" := by
  have hRun : (runActions step (.empty sampleSetup) askTwiceRun).isSome := by decide
  obtain ⟨d, hd⟩ := Option.isSome_iff_exists.mp hRun
  have hReached : Reaches step (fun d a => d.managed a = true ∧ d.guesses a = false) Fresh d :=
    (Reaches.start (.empty sampleSetup)).runActions (by decide) hd
  have hSure : Reaches step Sure Fresh d :=
    hReached.mono (fun _ h => h) fun _ _ h => ⟨managed_of_check h.1, h.2⟩
  have hSeen : (runActions step (.empty sampleSetup) askTwiceRun).map (fun d =>
      ((d.requests 1).bind resultOf, (d.requests 2).bind resultOf)) =
      some (some ("1", ⟨200, [("status", .str "success"), ("result", .str "e30=")]⟩),
        some ("1", ⟨200, [("status", .str "success"), ("result", .str "e30=")]⟩)) := by
    decide
  rw [hd, Option.map_some, Option.some.injEq, Prod.mk.injEq, Option.bind_eq_some_iff,
    Option.bind_eq_some_iff] at hSeen
  obtain ⟨⟨request, hRequest, hAnswer⟩, request', hRequest', hAnswer'⟩ := hSeen
  refine ⟨d, request, request', hd, hRequest, hRequest', _, _, hAnswer, hAnswer', ?_⟩
  obtain ⟨hEndpoint, hDone⟩ := resultOf_inv hAnswer
  obtain ⟨hEndpoint', hDone'⟩ := resultOf_inv hAnswer'
  obtain ⟨text, hText, hOthers, -⟩ := results_agree hSure hRequest hEndpoint hDone rfl
  exact (hOthers 2 request' _ hRequest' hEndpoint' hDone' rfl).trans hText.symm

end Deployment
end QuantumService
