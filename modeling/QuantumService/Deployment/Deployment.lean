import QuantumService.Cluster.Projection
import QuantumService.Service.Submission
import QuantumService.Simulator.Main

/-! The whole system: the cluster with its controller, the simulator processes in
the pods, the requests in flight in the transpiler service, and Redis. One party
makes one call at a time, so that everything else can happen between two calls. -/
namespace QuantumService
open Interaction Cluster Controller

/-- The code the programs are run with that is not theirs. -/
structure Setup where
  q : Service.Qiskit
  aer : Simulator.Aer
  cfg : Service.Config
  /-- `traceback.format_exc`, as far as it depends on the exception's text. -/
  trace : String → String
  admission : Service.Admission

variable {setup : Setup}

/-- The container of a pod, once it was started. It is never started again. A pod
that fails before its container runs has a process that is stopped at once. -/
structure Process (setup : Setup) where
  pod : Pod
  history : Simulator.History setup.aer
  rest : Simulator.Script setup.aer Nat
  path : Program.Path (Simulator.main setup.aer pod) history rest
  stopped : Bool

namespace Process

def start (setup : Setup) (pod : Pod) : Process setup :=
  ⟨pod, [], Simulator.main setup.aer pod, .nil _, false⟩

/-- The exit code of a process that ran to its end. -/
def exitCode (process : Process setup) : Option Nat :=
  match process.rest with
  | .done code => some code
  | .ask _ _ => none

def running (process : Process setup) : Bool := !process.stopped && process.exitCode.isNone

end Process

/-- The routes of the transpiler service. -/
inductive Endpoint where
  | transpile (body : Except String Object)
  | status (jobID : String)
  | result (jobID : String)

namespace Endpoint

def program (setup : Setup) : Endpoint → Service.Handler setup.q Service.Response
  | .transpile body => Service.transpile setup.q setup.cfg setup.trace body
  | .status jobID => Service.getJobStatusEndpoint setup.q setup.cfg jobID
  | .result jobID => Service.getJobResultEndpoint setup.q setup.cfg jobID

/-- The identifier a submission asks for. -/
def suppliedId : Endpoint → Option String
  | .transpile (.ok data) =>
      let jobID := data.get "job_id"
      if jobID.truthy then some jobID.text else none
  | .transpile (.error _) | .status _ | .result _ => none

end Endpoint

/-- A request to the transpiler service. It is kept when it is answered. -/
structure Request (setup : Setup) where
  endpoint : Endpoint
  history : Service.History setup.q
  rest : Service.Handler setup.q Service.Response
  path : Program.Path (endpoint.program setup) history rest

def Request.start (setup : Setup) (endpoint : Endpoint) : Request setup :=
  ⟨endpoint, [], endpoint.program setup, .nil _⟩

/-- `processes` are found by the UID of their pod. `submitted` lists the
identifiers of the submissions so far, and `circuits` what they stored, by record. -/
structure Deployment (setup : Setup) where
  world : World
  records : String → Option Entry
  processes : Nat → Option (Process setup)
  requests : Nat → Option (Request setup)
  submitted : List String
  circuits : String → Option String

/-- The `status` of a custom resource, without the fields that are empty. The
times, which nobody reads, are given as numbers. -/
def statusObject (status : QuantumAerJobStatus) : Object :=
  (if status.jobStatus ≠ "" then [("jobStatus", .str status.jobStatus)] else []) ++
  (if status.errorMessage ≠ "" then [("errorMessage", .str status.errorMessage)] else []) ++
  (if status.retries ≠ 0 then [("retries", .int status.retries.toInt)] else []) ++
  (if status.podName ≠ "" then [("podName", .str status.podName)] else []) ++
  (status.startTime.map fun t => ("startTime", Json.other (toString t) true)).toList ++
  (status.completionTime.map fun t => ("completionTime", Json.other (toString t) true)).toList

namespace Deployment
variable (d : Deployment setup)

def setWorld (w : World) : Deployment setup := { d with world := w }

def setRecord (key : String) (value : Option Entry) : Deployment setup :=
  { d with records := Function.update d.records key value }

def setProcess (uid : Nat) (process : Process setup) : Deployment setup :=
  { d with processes := Function.update d.processes uid (some process) }

def setRequest (i : Nat) (request : Request setup) : Deployment setup :=
  { d with requests := Function.update d.requests i (some request) }

def submit (id : String) : Deployment setup := { d with submitted := id :: d.submitted }

/-- A submission writes its record. -/
def store (key : String) (data : JobData) (ttl : Nat) : Deployment setup :=
  { d.setRecord key (some ⟨data, ttl⟩) with
    circuits := Function.update d.circuits key data.circuit }

/-- The API server's side of a creation. -/
def create (body : Service.JobBody) : Option (Deployment setup) := do
  let spec ← setup.admission.admitted body
  let w ← d.world.step (.createJob body.key spec)
  return d.setWorld w

/-- The API server's side of a patch. -/
def patch (key : NamespacedName) (message : String) : Option (Deployment setup) :=
  (d.world.step (.patchError key message)).map d.setWorld

/-- How a call is answered. `lost` takes effect but raises, `fail` has no effect. -/
inductive Reply (Value : Type) where
  | ok
  | value (value : Value)
  | text (text : String)
  | lost (err : String)
  | fail (err : String)

def Reply.applied {Value : Type} : Reply Value → Bool
  | .ok | .lost _ => true
  | .value _ | .text _ | .fail _ => false

/-- A write of one of the programs, which the stores may refuse. -/
def respondWrite {Value : Type} (written : Option (Deployment setup)) (reply : Reply Value) :
    Option (Except String Unit × Deployment setup) :=
  match reply, written with
  | .ok, some d' => some (.ok (), d')
  | .ok, none => some (.error "Conflict", d)
  | .lost err, some d' => some (.error err, d')
  | .fail err, _ => some (.error err, d)
  | _, _ => none

def respondService : (call : Service.Call) → Reply setup.q.Target →
    Option (call.Answer setup.q × Deployment setup)
  | .backend _, .value target => some (.ok target, d)
  | .backend _, .fail err => some (.error err, d)
  | .uuid4, .text id => some (id, d.submit id)
  | .strftime, .text now => some (now, d)
  | .setex key ttl data, reply => d.respondWrite (some (d.store key data ttl)) reply
  | .get key, .ok => some (.ok ((d.records key).map Entry.data), d)
  | .get _, .fail err => some (.error err, d)
  | .createCustomObject body, reply => d.respondWrite (d.create body) reply
  | .getCustomObject key, .ok =>
      match (d.world.jobs key).current with
      | some job => some (.ok (some (statusObject job.status)), d)
      | none => some (.error "Not Found", d)
  | .getCustomObject _, .fail err => some (.error err, d)
  | _, _ => none

def respondSimulator : (call : Simulator.Call setup.aer) → Reply setup.aer.Results →
    Option (call.Answer × Deployment setup)
  | .loadIncluster, .ok => some (.ok (), d)
  | .loadIncluster, .fail err => some (.error err, d)
  | .ping, .ok => some (.ok (), d)
  | .ping, .fail err => some (.error err, d)
  | .get key, .ok => some (.ok ((d.records key).map Entry.data), d)
  | .get _, .fail err => some (.error err, d)
  | .runSimulation _ _ _, .value results => some (.ok results, d)
  | .runSimulation _ _ _, .fail err => some (.error err, d)
  | .patchStatus key message, reply => d.respondWrite (d.patch key message) reply
  | .strftime, .text now => some (now, d)
  | .setex key ttl data, reply => d.respondWrite (some (d.setRecord key (some ⟨data, ttl⟩))) reply
  | _, _ => none

/-- The next call of a request is answered. -/
def serve (i : Nat) (request : Request setup) (reply : Reply setup.q.Target) :
    Option (Deployment setup) :=
  match request with
  | ⟨_, _, .done _, _⟩ => none
  | ⟨endpoint, history, .ask call next, path⟩ =>
      (d.respondService call reply).map fun answered =>
        answered.2.setRequest i
          ⟨endpoint, history ++ [⟨call, answered.1⟩], next answered.1, path.snoc answered.1⟩

/-- The next call of a simulator is answered. -/
def simulate (uid : Nat) (process : Process setup) (reply : Reply setup.aer.Results) :
    Option (Deployment setup) :=
  match process with
  | ⟨_, _, _, _, true⟩ => none
  | ⟨_, _, .done _, _, false⟩ => none
  | ⟨pod, history, .ask call next, path, false⟩ =>
      (d.respondSimulator call reply).map fun answered =>
        answered.2.setProcess uid
          ⟨pod, history ++ [⟨call, answered.1⟩], next answered.1, path.snoc answered.1, false⟩

/-- The kubelet reports a pod as finished when its process has ended, and as
succeeded when that exited with zero. -/
def reports (pod : Pod) : PodPhase → Bool
  | .succeeded => (d.processes pod.uid).any fun process =>
      !process.stopped && process.exitCode = some 0
  | .failed => (d.processes pod.uid).any fun process =>
      !process.running && (process.stopped || process.exitCode ≠ some 0)
  | .unset | .pending | .running | .unknown => true

/-- The moves of the cluster on its own. Simulators alone patch jobs. -/
def clusterStep (a : World.Action) : Option (Deployment setup) :=
  match a with
  | .patchError _ _ => none
  | .setPhase key phase =>
      if (d.world.pods key).current.any (d.reports · phase) then
        (d.world.step (.setPhase key phase)).map d.setWorld
      else none
  | a => (d.world.step a).map d.setWorld

inductive Action (setup : Setup) where
  | cluster (a : World.Action)
  | receive (i : Nat) (endpoint : Endpoint)
  | serve (i : Nat) (reply : Reply setup.q.Target)
  | launch (key : NamespacedName) (retries : Int32)
  | simulate (uid : Nat) (reply : Reply setup.aer.Results)
  | stop (uid : Nat)
  | expire (key : String)

def step : Action setup → Option (Deployment setup)
  | .cluster a => d.clusterStep a
  | .receive i endpoint =>
      match d.requests i with
      | none => some ({ d with submitted := endpoint.suppliedId.toList ++ d.submitted }.setRequest i
          (.start setup endpoint))
      | some _ => none
  | .serve i reply => (d.requests i).bind fun request => d.serve i request reply
  | .launch key retries => do
      let pod ← (d.world.pods (simulatorPodKey key retries)).current
      match d.processes pod.uid with
      | none =>
          if pod.deletionRequested then none
          else some (d.setProcess pod.uid (.start setup pod))
      | some _ => none
  | .simulate uid reply => (d.processes uid).bind fun process => d.simulate uid process reply
  | .stop uid => (d.processes uid).bind fun process =>
      if process.running then some (d.setProcess uid { process with stopped := true }) else none
  | .expire key => some (d.setRecord key none)

/-- A system in which nothing has happened yet, on any cluster and any Redis. -/
structure Initial (d : Deployment setup) : Prop where
  world : World.Initial d.world
  idle : ∀ uid, d.processes uid = none
  unserved : ∀ i, d.requests i = none
  unsubmitted : d.submitted = []

/-- A system with an empty cluster and an empty Redis. -/
def empty (setup : Setup) : Deployment setup where
  world := .empty
  records := fun _ => none
  processes := fun _ => none
  requests := fun _ => none
  submitted := []
  circuits := fun _ => none

theorem Initial.empty (setup : Setup) : Initial (.empty setup) :=
  ⟨.empty, fun _ => rfl, fun _ => rfl, rfl⟩

end Deployment
end QuantumService
