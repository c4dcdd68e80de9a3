import QuantumService.Api.Json
import QuantumService.Api.Meta
import QuantumService.Interaction.Program

/-! The program of a simulator pod (`simulator/simulator.py`), as a program over
the calls it makes. Printing is left out. -/
namespace QuantumService.Simulator
open Interaction Program

/-- The parts of Qiskit the simulator calls; each may raise. -/
structure Aer where
  Circuits : Type
  Results : Type
  /-- `base64.b64decode`, then `qpy.load`. -/
  load : String → Except String Circuits
  /-- `json.dumps` with `RuntimeEncoder`, then `base64.b64encode`. -/
  serialize : Results → Except String String

variable (aer : Aer)

/-- The calls that leave the process. `runSimulation` samples, and may be given
any results; `patchStatus` patches `status.errorMessage`. -/
inductive Call where
  | loadIncluster
  | ping
  | get (key : String)
  | runSimulation (circuits : aer.Circuits) (shots : Int) (backendName : String)
  | patchStatus (key : NamespacedName) (message : String)
  | strftime
  | setex (key : String) (ttl : Nat) (data : JobData)

variable {aer} in
abbrev Call.Answer : Call aer → Type
  | .loadIncluster => Except String Unit
  | .ping => Except String Unit
  | .get _ => Except String (Option JobData)
  | .runSimulation _ _ _ => Except String aer.Results
  | .patchStatus _ _ => Except String Unit
  | .strftime => String
  | .setex _ _ _ => Except String Unit

abbrev Script := Program (Call aer) Call.Answer

abbrev History := List (Event (@Call.Answer aer))

def call (c : Call aer) : Script aer c.Answer := query c

/-- What `main` gets from the environment, apart from the address of Redis. -/
structure ConfigVars where
  shots : Int
  backendName : String
  jobId : Option String
  quantumJobName : Option String
  quantumJobNamespace : String
  deriving DecidableEq

/-- `os.getenv`, of a variable that is not taken from a secret or a config map. -/
def getenv (pod : Pod) (name : String) : Option String := do
  let container ← pod.containers.head?
  let entry ← container.env.find? (·.name = name)
  match entry.source with
  | .value text => some text
  | .secretKeyRef _ _ | .configMapKeyRef _ _ => none

/-- `int(text)` for the forms that `%d` prints: the digits 0 to 9, and a minus sign for a
negative number. Python accepts more forms, which no pod of the controller has. -/
def parseInt (text : String) : Option Int :=
  match text.toList with
  | '-' :: digits => if digits ≠ [] ∧ digits.all Char.isDigit then
      some (-Nat.ofDigitChars 10 digits 0) else none
  | digits => if digits ≠ [] ∧ digits.all Char.isDigit then
      some (Nat.ofDigitChars 10 digits 0) else none

def getEnvVars (pod : Pod) : Except String ConfigVars :=
  let shots := (getenv pod "SHOTS").getD "1024"
  match parseInt shots with
  | none => .error s!"invalid literal for int() with base 10: '{shots}'"
  | some shots => .ok
    { shots := shots
      backendName := (getenv pod "BACKEND_NAME").getD "aer-simulator"
      jobId := getenv pod "JOB_ID"
      quantumJobName := getenv pod "QUANTUM_JOB_NAME"
      quantumJobNamespace := (getenv pod "QUANTUM_JOB_NAMESPACE").getD "default" }

/-- `bool(text)` for a value that may be `None`. -/
def given (text : Option String) : Bool := text.any (· ≠ "")

/-- What ends the `try` block of `main` early. -/
inductive Raised where
  | exit (code : Nat)
  | exception (err : String)
  deriving DecidableEq

/-- Go on with the value of a call, or raise its exception. -/
def orRaise {α β : Type} (result : Except String α)
    (next : α → Script aer (Except Raised β)) : Script aer (Except Raised β) :=
  match result with
  | .ok value => next value
  | .error err => return .error (.exception err)

/-- `load_kube_config`, which exits if there is no configuration. -/
def loadKubeConfig : Script aer (Except Raised Unit) := do
  match ← call aer .loadIncluster with
  | .ok _ => return .ok ()
  | .error _ => return .error (.exit 1)

def deserializeCircuits (circuitsB64 : String) : Except String aer.Circuits :=
  match aer.load circuitsB64 with
  | .ok circuits => .ok circuits
  | .error err => .error s!"Failed to deserialize circuits: {err}"

/-- `update_quantum_job_status`. -/
def updateQuantumJobStatus (nameSpace name : String) (success : Bool) (errorMessage : String) :
    Script aer (Except String Unit) :=
  call aer (.patchStatus ⟨nameSpace, name⟩ (if success then "" else errorMessage))

/-- `RedisDB.update_job_data` with the default expiry. -/
def updateJobData (jobId : String) (jobData : JobData) : Script aer (Except String Unit) := do
  let updatedAt ← call aer .strftime
  call aer (.setex (jobKey jobId) recordTtl { jobData with updatedAt := updatedAt })

/-- The `try` block from the deserialization on. -/
def simulateJob (vars : ConfigVars) (jobData : JobData) (circuitsB64 : String) :
    Script aer (Except Raised Unit) :=
  orRaise aer (deserializeCircuits aer circuitsB64) fun circuits => do
    let ran ← call aer (.runSimulation circuits vars.shots vars.backendName)
    orRaise aer ran fun results =>
      orRaise aer (aer.serialize results) fun resultB64 => do
        let updated ← updateQuantumJobStatus aer vars.quantumJobNamespace
          (vars.quantumJobName.getD "None") true ""
        orRaise aer updated fun _ => do
          let written ← updateJobData aer (vars.jobId.getD "None")
            { jobData with results := some resultB64 }
          orRaise aer written fun _ => return .ok ()

/-- The `try` block from the read of the job data on. -/
def runJob (vars : ConfigVars) : Script aer (Except Raised Unit) := do
  let jobId := vars.jobId.getD "None"
  let fetched ← call aer (.get (jobKey jobId))
  orRaise aer fetched fun jobData =>
    match jobData with
    | none => return .error (.exception "'NoneType' object has no attribute 'get'")
    | some jobData =>
        if ¬ given jobData.circuit then
          return .error (.exception s!"Job data not found in databse for key: {jobId}")
        else if ¬ given vars.quantumJobName then
          return .error (.exception "QUANTUM_JOB_NAME environment variable is required.")
        else if ¬ given vars.jobId then
          return .error (.exception "Job_ID environment variable is required.")
        else simulateJob aer vars jobData (jobData.circuit.getD "")

/-- The `try` block of `main`, up to the successful exit. -/
def tryMain (pod : Pod) : Script aer (Except Raised Unit) := do
  match ← loadKubeConfig aer with
  | .error raised => return .error raised
  | .ok _ =>
      orRaise aer (getEnvVars pod) fun vars => do
        let connected ← call aer .ping
        orRaise aer connected fun _ => runJob aer vars

/-- `error_msg[:1000]`. -/
def limitError (message : String) : String := String.ofList (message.toList.take 1000)

/-- The `try` statement of the `except` clause; its own exceptions are dropped. -/
def reportFailure (pod : Pod) (err : String) : Script aer Unit := do
  match getEnvVars pod with
  | .error _ => return ()
  | .ok vars =>
      if given vars.quantumJobName then
        let _ ← updateQuantumJobStatus aer vars.quantumJobNamespace
          (vars.quantumJobName.getD "None") false (limitError err)
        return ()
      else return ()

/-- `main` in the container of a pod, up to its exit code. -/
def main (pod : Pod) : Script aer Nat := do
  match ← tryMain aer pod with
  | .ok _ => return 0
  | .error (.exit code) => return code
  | .error (.exception err) =>
      reportFailure aer pod err
      return 1

/-- Texts as circuits and as results, which are what their texts say. -/
def sampleAer : Aer := ⟨String, String, .ok, .ok⟩

end QuantumService.Simulator
