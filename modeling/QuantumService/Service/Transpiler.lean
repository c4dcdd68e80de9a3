import QuantumService.Api.Json
import QuantumService.Api.QuantumAerJob
import QuantumService.Interaction.Program

/-! The transpiler service (`transpiler-service/transpiler_service.py`) with its
Redis client (`utils/redisDB.py`), as programs over the calls they make. An
exception is carried as its text. Printing is left out. -/
namespace QuantumService.Service
open Interaction Program

/-- The parts of Qiskit the service calls; each may raise. -/
structure Qiskit where
  Circuits : Type
  Target : Type
  /-- `base64.b64decode`, then `qpy.load`. -/
  load : Json → Except String Circuits
  /-- `AerSimulator().target`. -/
  aerTarget : Target
  /-- `generate_preset_pass_manager(optimization_level=3, target=target).run`. -/
  runPasses : Target → Circuits → Except String Circuits
  /-- `qpy.dump`, then `base64.b64encode`. -/
  dump : Circuits → Except String String

/-- The service's environment variables, and whether its global `service` could
be initialised. -/
structure Config where
  simulatorImage : String
  k8sNamespace : String
  jobTimeout : Int
  maxRetries : Int
  defaultTtl : Int
  service : Bool
  deriving DecidableEq

/-- `quantum_job`, the body of the custom resource, with the values the request
supplied as they came. -/
structure JobBody where
  name : String
  nameSpace : String
  labels : List (String × Json)
  backendName : Json
  shots : Json
  simulatorImage : String
  jobID : Json
  maxRetries : Int
  timeOut : Int
  ttlSecondsAfterFinished : Int
  resources : Option Json
  deriving DecidableEq

def JobBody.key (body : JobBody) : NamespacedName := ⟨body.nameSpace, body.name⟩

/-- The calls that leave the process. `strftime` is the current time in text. -/
inductive Call where
  | backend (name : Json)
  | uuid4
  | strftime
  | setex (key : String) (ttl : Nat) (data : JobData)
  | get (key : String)
  | createCustomObject (body : JobBody)
  | getCustomObject (key : NamespacedName)
  deriving DecidableEq

variable (q : Qiskit)

/-- `getCustomObject` answers with the object's `status`, if it has one. -/
abbrev Call.Answer : Call → Type
  | .backend _ => Except String q.Target
  | .uuid4 => String
  | .strftime => String
  | .setex _ _ _ => Except String Unit
  | .get _ => Except String (Option JobData)
  | .createCustomObject _ => Except String Unit
  | .getCustomObject _ => Except String (Option Object)

/-- What handles a request. -/
abbrev Handler := Program Call (Call.Answer q)

abbrev History := List (Event (Call.Answer q))

def call (c : Call) : Handler q (c.Answer q) := query c

/-- `RedisDB.create_job_data` with the default results and expiry. -/
def createJobData (jobId : String) (circuit : String) : Handler q (Except String JobData) := do
  let createdAt ← call q .strftime
  let updatedAt ← call q .strftime
  let jobData : JobData := ⟨some circuit, none, createdAt, updatedAt⟩
  match ← call q (.setex (jobKey jobId) recordTtl jobData) with
  | .ok _ => return .ok jobData
  | .error err => return .error err

/-- `RedisDB.get_job_data`. -/
def getJobData (jobId : String) : Handler q (Except String (Option JobData)) :=
  call q (.get (jobKey jobId))

def jobName (jobID : Json) : String := s!"qjob-{jobID.text}"

def jobBody (cfg : Config) (backendName shots jobID resources : Json) : JobBody where
  name := jobName jobID
  nameSpace := cfg.k8sNamespace
  labels := [("managed-by", .str "transpiler-service"), ("job-id", jobID)]
  backendName := backendName
  shots := shots
  simulatorImage := cfg.simulatorImage
  jobID := jobID
  maxRetries := cfg.maxRetries
  timeOut := cfg.jobTimeout
  ttlSecondsAfterFinished := cfg.defaultTtl
  resources := if resources.truthy then some resources else none

/-- `create_quantum_job` once it has an identifier. -/
def storeAndCreate (cfg : Config) (circuitsB64 : String)
    (shots backendName jobID resources : Json) :
    Handler q (Except String (String × Json)) := do
  match ← createJobData q jobID.text circuitsB64 with
  | .error err => return .error err
  | .ok _ =>
      match ← call q (.createCustomObject (jobBody cfg backendName shots jobID resources)) with
      | .ok _ => return .ok (jobName jobID, jobID)
      | .error err => return .error err

def createQuantumJob (cfg : Config) (circuitsB64 : String)
    (shots backendName jobID resources : Json) : Handler q (Except String (String × Json)) := do
  if jobID.truthy then storeAndCreate q cfg circuitsB64 shots backendName jobID resources
  else
    let generated ← call q .uuid4
    storeAndCreate q cfg circuitsB64 shots backendName (.str generated) resources

/-- `get_quantum_job_status`: an error is answered like a job without a status. -/
def getQuantumJobStatus (cfg : Config) (jobID : String) : Handler q Object := do
  match ← call q (.getCustomObject ⟨cfg.k8sNamespace, jobName (.str jobID)⟩) with
  | .ok status => return status.getD []
  | .error _ => return []

structure Response where
  code : Nat
  body : Object
  deriving DecidableEq

def deserializeCircuits (circuitsB64 : Json) : Except String q.Circuits :=
  match q.load circuitsB64 with
  | .ok circuits => .ok circuits
  | .error err => .error s!"Failed to deserialize circuits: {err}"

/-- The target the request is transpiled for. -/
def getTarget (cfg : Config) (backendName : Json) : Handler q (Except String q.Target) := do
  if backendName = .str "aer-simulator" ∨ cfg.service = false then return .ok q.aerTarget
  else call q (.backend backendName)

/-- The circuits as they are stored: transpiled, dumped and encoded. -/
def transpileCircuits (target : q.Target) (circuits : q.Circuits) : Except String String := do
  let isaCircuits ← q.runPasses target circuits
  q.dump isaCircuits

def accepted (jobID : Json) : Response :=
  ⟨202, [("status", .str "accepted"), ("job_id", jobID), ("error", .str ""),
    ("message", .str s!"Job submitted. Poll /job/{jobID.text}/status for updates")]⟩

/-- The `except` clause of `transpile`; `trace` is the formatted traceback. -/
def failed (trace : String → String) (err : String) : Response :=
  ⟨500, [("status", .str "failed"), ("job_id", .str ""), ("error", .str err),
    ("message", .str (trace err))]⟩

/-- `transpile` on a decoded request body. -/
def submit (cfg : Config) (trace : String → String) (data : Object) : Handler q Response := do
  let circuitsB64 := data.get "circuits_qpy"
  let shots := data.getD "shots" (.int 1024)
  let backendName := data.getD "backend_name" (.str "aer-simulator")
  let jobID := data.get "job_id"
  let resources := data.get "resources"
  if ¬ circuitsB64.truthy then
    return ⟨400, [("Transpiler error", .str "No circuits provided")]⟩
  else
    match deserializeCircuits q circuitsB64 with
    | .error err => return failed trace err
    | .ok circuits =>
        match ← getTarget q cfg backendName with
        | .error err => return failed trace err
        | .ok target =>
            match transpileCircuits q target circuits with
            | .error err => return failed trace err
            | .ok isaCircuitB64 =>
                match ← createQuantumJob q cfg isaCircuitB64 shots backendName jobID resources with
                | .error err => return failed trace err
                | .ok (_, jobID) => return accepted jobID

/-- `POST /transpile`. The body is an error if it cannot be decoded or is no
object. -/
def transpile (cfg : Config) (trace : String → String) (body : Except String Object) :
    Handler q Response :=
  match body with
  | .error err => return failed trace err
  | .ok data => submit q cfg trace data

/-- `GET /job/<job_ID>/status`. -/
def getJobStatusEndpoint (cfg : Config) (jobID : String) : Handler q Response := do
  let status ← getQuantumJobStatus q cfg jobID
  if status.isEmpty then
    return ⟨404, [("error", .str s!"Job {jobID} is not Found"), ("details", .str "")]⟩
  else return ⟨200, status⟩

/-- `GET /job/<job_ID>/result`. A missing record is `None`, which has no `get`. -/
def getJobResultEndpoint (cfg : Config) (jobID : String) : Handler q Response := do
  let status ← getQuantumJobStatus q cfg jobID
  if status.get "jobStatus" ≠ .str "completed" then
    return ⟨400, [("error", .str "Job not completed"),
      ("status", status.getD "state" (.str "unknown"))]⟩
  else
    match ← getJobData q jobID with
    | .error err => return ⟨404, [("error", .str err)]⟩
    | .ok none =>
        return ⟨404, [("error", .str "'NoneType' object has no attribute 'get'")]⟩
    | .ok (some jobData) =>
        return ⟨200, [("status", .str "success"),
          ("result", (jobData.results.map Json.str).getD .null)]⟩

/-- Circuits that need no transpilation: each step hands the text on. -/
def sampleQiskit : Qiskit where
  Circuits := String
  Target := Unit
  load := fun circuits => .ok circuits.text
  aerTarget := ()
  runPasses := fun _ circuits => .ok circuits
  dump := .ok

def sampleConfig : Config := ⟨"aer-simulator:v3", "default", 600, 3, 300, false⟩

end QuantumService.Service
