import QuantumService.Service.Sites
import QuantumService.Service.Submission
import QuantumService.Simulator.Environment

/-! The backend a job is transpiled for and the backend it is simulated on. Both
are chosen by the name in the request, each by a program of its own. -/
namespace QuantumService.Simulator
open Interaction Program

/-- The backends of the IBM service and the simulators made of them. -/
structure Devices (Target : Type) where
  Backend : Type
  AerSimulator : Type
  /-- `backend.target`. -/
  target : Backend → Target
  /-- `simulator.target`. -/
  simulatorTarget : AerSimulator → Target
  /-- `AerSimulator()`. -/
  aerSimulator : AerSimulator
  /-- `AerSimulator.from_backend`, which may raise. -/
  fromBackend : Backend → Except String AerSimulator
  fromBackend_target {backend : Backend} {simulator : AerSimulator} :
    fromBackend backend = .ok simulator → simulatorTarget simulator = target backend

section Run
variable {Target : Type} (devices : Devices Target) (aer : Aer)

/-- The calls of `run_simulation`. `initIbmService` tells whether there is a
service afterwards, and `run` is the sampler's run up to its results. -/
inductive RunCall where
  | initIbmService
  | backend (name : String)
  | run (simulator : devices.AerSimulator) (circuits : aer.Circuits) (shots : Int)

variable {devices aer} in
abbrev RunCall.Answer : RunCall devices aer → Type
  | .initIbmService => Bool
  | .backend _ => Except String devices.Backend
  | .run _ _ _ => Except String aer.Results

abbrev Runner := Program (RunCall devices aer) RunCall.Answer

abbrev RunHistory := List (Event (@RunCall.Answer Target devices aer))

def invoke (c : RunCall devices aer) : Runner devices aer c.Answer := query c

/-- `service` after `run_simulation` has tried to initialise it. -/
def ensureService (service : Bool) : Runner devices aer Bool :=
  if service then return true else invoke devices aer .initIbmService

/-- `run_simulation` in a process whose `service` is there or not. -/
def runSimulation (service : Bool) (circuits : aer.Circuits) (shots : Int)
    (backendName : String) : Runner devices aer (Except String aer.Results) := do
  if backendName = "aer-simulator" then
    invoke devices aer (.run devices.aerSimulator circuits shots)
  else
    let service ← ensureService devices aer service
    if service = false then return .error "IBM Quantum service not available"
    else
      match ← invoke devices aer (.backend backendName) with
      | .error err => return .error err
      | .ok backend =>
          match devices.fromBackend backend with
          | .error err => return .error err
          | .ok simulator => invoke devices aer (.run simulator circuits shots)

variable {devices aer}

/-- The simulator a run is made on, with the calls answered before it. -/
inductive RunSite (backendName : String) : RunHistory devices aer → RunCall devices aer →
    Prop where
  | initIbmService {h : RunHistory devices aer} : RunSite backendName h .initIbmService
  | backend {h : RunHistory devices aer} : RunSite backendName h (.backend backendName)
  | aerSimulator {h : RunHistory devices aer} {circuits : aer.Circuits} {shots : Int}
      (named : backendName = "aer-simulator") :
      RunSite backendName h (.run devices.aerSimulator circuits shots)
  | fromBackend {h : RunHistory devices aer} {backend : devices.Backend}
      {simulator : devices.AerSimulator} {circuits : aer.Circuits} {shots : Int}
      (named : backendName ≠ "aer-simulator") (found : ⟨.backend backendName, .ok backend⟩ ∈ h)
      (made : devices.fromBackend backend = .ok simulator) :
      RunSite backendName h (.run simulator circuits shots)

theorem runSimulation_follows (service : Bool) (circuits : aer.Circuits) (shots : Int)
    (backendName : String) :
    (runSimulation devices aer service circuits shots backendName).Follows
      (RunSite backendName) (fun _ _ => True) [] := by
  unfold runSimulation
  split
  · rename_i hName
    exact ⟨.aerSimulator hName, fun _ => trivial⟩
  · rename_i hName
    have hService : (ensureService devices aer service).Follows (RunSite backendName)
        (fun _ _ => True) [] := by
      unfold ensureService
      split
      · exact trivial
      · exact ⟨.initIbmService, fun _ => trivial⟩
    apply hService.bind
    intro later available _
    split
    · exact trivial
    · refine .query .backend fun found => ?_
      cases found with
      | error err => exact trivial
      | ok backend =>
          dsimp only
          split
          · exact trivial
          · rename_i simulator hMade
            have hFound := List.mem_append_right later
              (List.mem_singleton_self (⟨.backend backendName, .ok backend⟩ :
                Event (@RunCall.Answer Target devices aer)))
            exact ⟨.fromBackend hName hFound hMade, fun _ => trivial⟩

end Run

section Requests
variable (q : Service.Qiskit)

/-- The backend a request asks for. -/
def requestedBackend (data : Object) : Json := data.getD "backend_name" (.str "aer-simulator")

/-- The body of a job's resource names the backend of the request. -/
def NamesBackend (name : Json) (call : Service.Call) : Prop :=
  ∀ body, call = .createCustomObject body → body.backendName = name

theorem createQuantumJob_names (cfg : Service.Config) (circuitsB64 : String)
    (shots backendName jobID resources : Json) (h : Service.History q) :
    (Service.createQuantumJob q cfg circuitsB64 shots backendName jobID resources).Follows
      (fun _ => NamesBackend backendName) (fun _ _ => True) h := by
  have hStore : ∀ used later, (Service.storeAndCreate q cfg circuitsB64 shots backendName used
      resources).Follows (fun _ => NamesBackend backendName) (fun _ _ => True) later := by
    intro used later
    unfold Service.storeAndCreate Service.createJobData
    refine .query (by rintro body ⟨⟩) fun createdAt => ?_
    refine .query (by rintro body ⟨⟩) fun updatedAt => ?_
    refine .query (by rintro body ⟨⟩) fun written => ?_
    cases written with
    | error err => exact trivial
    | ok =>
        refine .query (by rintro body ⟨⟩; rfl) fun created => ?_
        cases created <;> exact trivial
  unfold Service.createQuantumJob
  split
  · exact hStore jobID h
  · exact .query (by rintro body ⟨⟩) fun generated => hStore (.str generated) _

theorem transpile_names (cfg : Service.Config) (trace : String → String) (data : Object) :
    (Service.transpile q cfg trace (.ok data)).Follows
      (fun _ => NamesBackend (requestedBackend data)) (fun _ _ => True) [] := by
  apply Service.transpile_follows_of_create
  · rintro h name body ⟨⟩
  · rintro _ circuit later ⟨⟩ -
    exact createQuantumJob_names q cfg _ _ _ _ _ later

end Requests

section Agreement
variable {q : Service.Qiskit} {aer : Aer} (a : Service.Admission) (devices : Devices q.Target)
  (backend : Json → devices.Backend)

/-- The schema gives `backendName` the type string and a default. -/
def AdmitsNames : Prop := ∀ {body spec}, a.admitted body = some spec →
  body.backendName = .str spec.backendName ∨
    body.backendName = .null ∧ spec.backendName = "aer-simulator"

/-- An accepted request: what its job's spec is, and which target its circuits
were transpiled for. A backend the service finds is the one of that name. -/
structure Accepted (cfg : Service.Config) (trace : String → String) (data : Object)
    (history : Service.History q) (spec : QuantumAerJobSpec) (target : q.Target) : Prop where
  answered : ∃ response, Path (Service.transpile q cfg trace (.ok data)) history
    (.done response) ∧ response.code = 202
  passed : ∃ first later, history = first ++ later ∧
    Path (Service.getTarget q cfg (requestedBackend data)) first (.done (.ok target))
  stored : ∃ body, ⟨.createCustomObject body, .ok ()⟩ ∈ history ∧ a.admitted body = some spec
  found : ∀ {name target}, ⟨.backend name, .ok target⟩ ∈ history →
    target = devices.target (backend name)

/-- An attempt of a job with this spec, in which the circuits are run on this
simulator. Its service finds the same backends. -/
structure Attempt (aer : Aer) (spec : QuantumAerJobSpec) (simulator : devices.AerSimulator) :
    Prop where
  ran : ∃ job pod h circuits shots backendName next, job.spec = spec ∧
    pod.containers = (Controller.simulatorPod job).containers ∧
    Path (main aer pod) h (.ask (.runSimulation circuits shots backendName) next) ∧
    ∃ service runs rest, Path (runSimulation devices aer service circuits shots backendName) runs
        (.ask (.run simulator circuits shots) rest) ∧
      ∀ {name found}, ⟨.backend name, .ok found⟩ ∈ runs → found = backend (.str name)

/-- The service of the transpiler is there exactly when it is asked for, or the
backend it would be asked for has the target of the Aer simulator. -/
def Agrees (cfg : Service.Config) (name : Json) : Prop :=
  name = .str "aer-simulator" ∨ (cfg.service = true ∧ name ≠ .null) ∨
    (cfg.service = false ∧ name = .null) ∨ devices.target (backend name) = q.aerTarget

variable {a devices backend}

/-- The target of the backend of that name, or of the Aer simulator. -/
theorem getTarget_path {cfg : Service.Config} {name : Json} {first : Service.History q}
    {target : q.Target}
    (path : Path (Service.getTarget q cfg name) first (.done (.ok target))) :
    ((name = .str "aer-simulator" ∨ cfg.service = false) ∧ target = q.aerTarget) ∨
      (¬ (name = .str "aer-simulator" ∨ cfg.service = false) ∧
        ⟨.backend name, .ok target⟩ ∈ first) := by
  unfold Service.getTarget at path
  split at path
  · rename_i hDefault
    cases path
    exact .inl ⟨hDefault, rfl⟩
  · rename_i hNamed
    cases path with
    | cons rest =>
        cases rest
        exact .inr ⟨hNamed, List.mem_singleton_self _⟩

theorem Accepted.target {cfg : Service.Config} {trace : String → String} {data : Object}
    {history : Service.History q} {spec : QuantumAerJobSpec} {target : q.Target}
    (accepted : Accepted a devices backend cfg trace data history spec target) :
    ((requestedBackend data = .str "aer-simulator" ∨ cfg.service = false) ∧
        target = q.aerTarget) ∨
      (¬ (requestedBackend data = .str "aer-simulator" ∨ cfg.service = false) ∧
        target = devices.target (backend (requestedBackend data))) := by
  obtain ⟨first, later, rfl, hPath⟩ := accepted.passed
  rcases getTarget_path hPath with hDefault | ⟨hAsked, hMem⟩
  · exact .inl hDefault
  · exact .inr ⟨hAsked, accepted.found (List.mem_append_left later hMem)⟩

/-- The name in the spec is the one in the request, unless that is null. -/
theorem Accepted.names {cfg : Service.Config} {trace : String → String} {data : Object}
    {history : Service.History q} {spec : QuantumAerJobSpec} {target : q.Target}
    (accepted : Accepted a devices backend cfg trace data history spec target)
    (admits : AdmitsNames a) :
    requestedBackend data = .str spec.backendName ∨
      requestedBackend data = .null ∧ spec.backendName = "aer-simulator" := by
  obtain ⟨response, hPath, -⟩ := accepted.answered
  obtain ⟨body, hMem, hAdmitted⟩ := accepted.stored
  obtain ⟨before, later, rfl⟩ := List.append_of_mem hMem
  obtain ⟨next, hBefore, -⟩ := hPath.split
  have hBody := (transpile_names q cfg trace data).call hBefore body rfl
  rw [← hBody]
  exact admits hAdmitted

theorem Attempt.target {spec : QuantumAerJobSpec} {simulator : devices.AerSimulator}
    (attempt : Attempt devices backend aer spec simulator) :
    (spec.backendName = "aer-simulator" ∧ simulator = devices.aerSimulator) ∨
      (spec.backendName ≠ "aer-simulator" ∧
        devices.simulatorTarget simulator = devices.target (backend (.str spec.backendName))) := by
  obtain ⟨job, pod, h, circuits, shots, backendName, next, rfl, hBuilt, hMain, service, runs, rest,
    hRun, hFound⟩ := attempt.ran
  obtain ⟨vars, hEnv, hName⟩ := ((main_follows pod).call hMain).runSimulation_inv
  have hVars := getEnvVars_simulatorPod job
  have hSame : getEnvVars pod = getEnvVars (Controller.simulatorPod job) := by
    simp only [getEnvVars, getenv, hBuilt]
  rw [hSame, hVars] at hEnv
  cases hEnv
  subst hName
  have hSite := (runSimulation_follows service circuits shots _).call hRun
  cases hSite with
  | aerSimulator named => exact .inl ⟨named, rfl⟩
  | fromBackend named found made =>
      right
      refine ⟨named, ?_⟩
      rw [devices.fromBackend_target made, hFound found]

/-- Transpile target and simulated backend agree exactly when the transpiler had the service
a named backend needs, or the difference does not matter. -/
theorem targets_agree_iff {cfg : Service.Config} {trace : String → String} {data : Object}
    {history : Service.History q} {spec : QuantumAerJobSpec} {target : q.Target}
    {simulator : devices.AerSimulator} (admits : AdmitsNames a)
    (same : devices.simulatorTarget devices.aerSimulator = q.aerTarget)
    (accepted : Accepted a devices backend cfg trace data history spec target)
    (attempt : Attempt devices backend aer spec simulator) :
    devices.simulatorTarget simulator = target ↔
      Agrees devices backend cfg (requestedBackend data) := by
  have hName := accepted.names admits
  have hTarget := accepted.target
  have hSimulated := attempt.target
  rw [Agrees]
  generalize requestedBackend data = name at hName hTarget ⊢
  rcases hSimulated with ⟨hAer, rfl⟩ | ⟨hNamed, hDevice⟩
  · -- the Aer simulator is simulated: by its name, or as the default
    rw [same]
    rcases hTarget with ⟨hDefault, rfl⟩ | ⟨hAsked, rfl⟩
    · rcases hName with rfl | ⟨rfl, -⟩
      · simp [hAer]
      · have hService : cfg.service = false := by simpa using hDefault
        simp [hService]
    · rcases hName with rfl | ⟨rfl, -⟩
      · exact absurd (.inl (by rw [hAer])) hAsked
      · have hService : cfg.service = true := by simpa using hAsked
        simp [hService, eq_comm]
  · -- a backend of the service is simulated, so its name was in the request
    have hRequested : name = .str spec.backendName :=
      hName.resolve_right fun hDefault => hNamed hDefault.2
    subst hRequested
    rw [hDevice]
    rcases hTarget with ⟨hDefault, rfl⟩ | ⟨hAsked, rfl⟩
    · have hService : cfg.service = false := by simpa [hNamed] using hDefault
      simp [hNamed, hService]
    · have hService : cfg.service = true := by simpa [hNamed] using hAsked
      simp [hService]

end Agreement

/-- Targets that are the names of their backends. -/
def namedQiskit : Service.Qiskit where
  Circuits := String
  Target := String
  load := fun circuits => .ok circuits.text
  aerTarget := "aer-simulator"
  runPasses := fun _ circuits => .ok circuits
  dump := .ok

def namedDevices : Devices namedQiskit.Target where
  Backend := String
  AerSimulator := String
  target := id
  simulatorTarget := id
  aerSimulator := "aer-simulator"
  fromBackend := .ok
  fromBackend_target := fun hMade => (Except.ok.inj hMade).symm

/-- The schema on a body that leaves everything but its identifier and its
backend at the defaults. -/
def namedAdmission : Service.Admission where
  admitted := fun body =>
    match body.jobID, body.backendName with
    | .str jobID, .str backendName =>
        some
          { QuantumAerJobSpec.defaults body.simulatorImage jobID with backendName := backendName }
    | .str jobID, .null => some (.defaults body.simulatorImage jobID)
    | _, _ => none
  jobID := by
    intro body spec hAdmitted
    dsimp only at hAdmitted
    split at hAdmitted
    · cases hAdmitted
      assumption
    · cases hAdmitted
      assumption
    · cases hAdmitted

theorem namedAdmission_admits : AdmitsNames namedAdmission := by
  intro body spec hAdmitted
  simp only [namedAdmission] at hAdmitted
  split at hAdmitted
  · rename_i hName
    cases hAdmitted
    exact .inl hName
  · rename_i hName
    cases hAdmitted
    exact .inr ⟨hName, rfl⟩
  · cases hAdmitted

/-- A request for a backend of the service. -/
def fezRequest : Object := ("backend_name", .str "ibm_fez") :: Service.sampleRequest

def fezConfig (service : Bool) : Service.Config := { Service.sampleConfig with service := service }

def fezSpec : QuantumAerJobSpec :=
  { QuantumAerJobSpec.defaults "aer-simulator:v3" "1" with backendName := "ibm_fez" }

def fezJob : QuantumAerJob := ⟨"qjob-1", "default", 1, 2, fezSpec, .empty⟩

def fezBody : Service.JobBody :=
  Service.jobBody Service.sampleConfig (.str "ibm_fez") (.int 1024) (.str "1") .null

/-- The calls of the request after it has its target. -/
def fezWrites : Service.History namedQiskit :=
  [⟨.strftime, Service.sampleNow⟩, ⟨.strftime, Service.sampleNow⟩,
    ⟨.setex "job:1" Service.sampleEntry.ttl Service.sampleEntry.data, .ok ()⟩,
    ⟨.createCustomObject fezBody, .ok ()⟩]

theorem fez_accepted_unserved : Accepted namedAdmission namedDevices Json.text (fezConfig false) id
    fezRequest fezWrites fezSpec "aer-simulator" where
  answered := ⟨_, .cons (.cons (.cons (.cons (.nil _)))), rfl⟩
  passed := ⟨[], fezWrites, rfl, .nil _⟩
  stored := ⟨fezBody, by simp [fezWrites], rfl⟩
  found := by simp [fezWrites]

theorem fez_accepted : Accepted namedAdmission namedDevices Json.text (fezConfig true) id
    fezRequest (⟨.backend (.str "ibm_fez"), .ok "ibm_fez"⟩ :: fezWrites) fezSpec "ibm_fez" where
  answered := ⟨_, .cons (.cons (.cons (.cons (.cons (.nil _))))), rfl⟩
  passed := ⟨[⟨.backend (.str "ibm_fez"), .ok "ibm_fez"⟩], fezWrites, rfl, .cons (.nil _)⟩
  stored := ⟨fezBody, by simp [fezWrites], rfl⟩
  found := by
    intro name target hMem
    simp only [fezWrites, List.mem_cons, List.not_mem_nil, or_false, Sigma.mk.injEq,
      Service.Call.backend.injEq, reduceCtorEq, false_and] at hMem
    obtain ⟨rfl, hTarget⟩ := hMem
    cases hTarget
    rfl

/-- What a simulator asks before it runs the circuits. -/
def fezHistory : History sampleAer :=
  [⟨.loadIncluster, .ok ()⟩, ⟨.ping, .ok ()⟩, ⟨.get "job:1", .ok (some Service.sampleEntry.data)⟩]

theorem fez_attempt : Attempt namedDevices Json.text sampleAer fezSpec "ibm_fez" where
  ran := by
    refine ⟨fezJob, Controller.simulatorPod fezJob, fezHistory, "UUlTS0lU", 1024, "ibm_fez", _,
      rfl, rfl, .cons (.cons (.cons (.nil _))), false,
      [⟨.initIbmService, true⟩, ⟨.backend "ibm_fez", .ok "ibm_fez"⟩], _, .cons (.cons (.nil _)), ?_⟩
    intro name found hMem
    simp only [List.mem_cons, List.not_mem_nil, or_false, Sigma.mk.injEq, reduceCtorEq, false_and,
      false_or, RunCall.backend.injEq] at hMem
    obtain ⟨rfl, hFound⟩ := hMem
    cases hFound
    rfl

/-- The transpiler has lost its service, and the attempt has one: the circuits of
an accepted job were transpiled for another target than they are simulated on. -/
theorem fallback_disagrees : ∃ history spec target simulator,
    Accepted namedAdmission namedDevices Json.text (fezConfig false) id fezRequest history spec
      target ∧
    Attempt namedDevices Json.text sampleAer spec simulator ∧
    namedDevices.simulatorTarget simulator ≠ target := by
  have hTargets : "ibm_fez" ≠ "aer-simulator" := by decide
  exact ⟨fezWrites, fezSpec, "aer-simulator", "ibm_fez", fez_accepted_unserved, fez_attempt,
    hTargets⟩

theorem targets_agree_served : namedDevices.simulatorTarget "ibm_fez" = "ibm_fez" := by
  apply (targets_agree_iff namedAdmission_admits rfl fez_accepted fez_attempt).mpr
  have hName : requestedBackend fezRequest ≠ .null := by decide
  exact .inr (.inl ⟨rfl, hName⟩)

end QuantumService.Simulator
