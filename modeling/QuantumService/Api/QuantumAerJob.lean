import QuantumService.Api.Meta

/-! The `QuantumAerJob` custom resource (`api/v3/quantumaerjob_types.go`). -/
namespace QuantumService

/-- `JobState` is a string; only four values have a name. -/
abbrev JobState := String

namespace JobState

def pending : JobState := "pending"
def progress : JobState := "in progress"
def completed : JobState := "completed"
def failed : JobState := "failed"

/-- The states in which `handleTerminalJob` is called. -/
def Terminal (state : JobState) : Prop := state = completed ∨ state = failed

instance (state : JobState) : Decidable state.Terminal :=
  inferInstanceAs (Decidable (_ ∨ _))

@[simp] theorem terminal_completed : completed.Terminal := .inl rfl
@[simp] theorem terminal_failed : failed.Terminal := .inr rfl
@[simp] theorem not_terminal_new : ¬ Terminal "" := by decide
@[simp] theorem not_terminal_pending : ¬ pending.Terminal := by decide
@[simp] theorem not_terminal_progress : ¬ progress.Terminal := by decide
@[simp] theorem pending_ne_new : pending ≠ "" := by decide
@[simp] theorem progress_ne_new : progress ≠ "" := by decide
@[simp] theorem completed_ne_new : completed ≠ "" := by decide
@[simp] theorem failed_ne_new : failed ≠ "" := by decide
@[simp] theorem pending_ne_progress : pending ≠ progress := by decide
@[simp] theorem progress_ne_pending : progress ≠ pending := by decide
@[simp] theorem completed_ne_pending : completed ≠ pending := by decide
@[simp] theorem completed_ne_progress : completed ≠ progress := by decide
@[simp] theorem completed_ne_failed : completed ≠ failed := by decide
@[simp] theorem failed_ne_pending : failed ≠ pending := by decide
@[simp] theorem failed_ne_progress : failed ≠ progress := by decide
@[simp] theorem failed_ne_completed : failed ≠ completed := by decide

end JobState

/-- `ResourceList`. -/
structure ResourceList where
  cpu : String
  memory : String
  deriving DecidableEq, Repr

/-- `ResourceRequirements`. -/
structure ResourceRequirements where
  requests : ResourceList
  limits : ResourceList
  deriving DecidableEq, Repr

/-- `QuantumAerJobSpec`. -/
structure QuantumAerJobSpec where
  backendName : String
  shots : Int32
  simulatorImage : String
  jobID : String
  maxRetries : Int32
  timeOut : Int32
  ttlSecondsAfterFinished : Option Int32
  resources : ResourceRequirements
  deriving DecidableEq

/-- The spec the schema's defaults give a job that sets only these two fields. -/
def QuantumAerJobSpec.defaults (simulatorImage jobID : String) : QuantumAerJobSpec where
  backendName := "aer-simulator"
  shots := 1024
  simulatorImage := simulatorImage
  jobID := jobID
  maxRetries := 3
  timeOut := 600
  ttlSecondsAfterFinished := some 300
  resources := ⟨⟨"", ""⟩, ⟨"", ""⟩⟩

/-- `QuantumAerJobStatus`, without the conditions, which nothing sets. -/
structure QuantumAerJobStatus where
  jobStatus : JobState
  errorMessage : String
  retries : Int32
  podName : String
  startTime : Option Int
  completionTime : Option Int
  deriving DecidableEq

/-- The status of a newly created job; the schema defaults `retries` to zero. -/
def QuantumAerJobStatus.empty : QuantumAerJobStatus :=
  ⟨"", "", 0, "", none, none⟩

/-- What a later read of this status returns: times keep whole seconds only. -/
def QuantumAerJobStatus.stored (status : QuantumAerJobStatus) : QuantumAerJobStatus :=
  { status with
    startTime := status.startTime.map storedTime
    completionTime := status.completionTime.map storedTime }

/-- `QuantumAerJob`. The API server assigns `uid`, and a new `resourceVersion`
with every write. -/
structure QuantumAerJob where
  name : String
  nameSpace : String
  uid : Nat
  resourceVersion : Nat
  spec : QuantumAerJobSpec
  status : QuantumAerJobStatus
  deriving DecidableEq

namespace QuantumAerJob

def key (job : QuantumAerJob) : NamespacedName := ⟨job.nameSpace, job.name⟩

def withStatus (job : QuantumAerJob) (status : QuantumAerJobStatus) : QuantumAerJob :=
  { job with status := status }

section Simp
variable (job : QuantumAerJob) (status : QuantumAerJobStatus)

@[simp] theorem withStatus_key : (job.withStatus status).key = job.key := rfl
@[simp] theorem withStatus_status : (job.withStatus status).status = status := rfl
@[simp] theorem withStatus_spec : (job.withStatus status).spec = job.spec := rfl
@[simp] theorem withStatus_uid : (job.withStatus status).uid = job.uid := rfl
@[simp] theorem withStatus_resourceVersion :
    (job.withStatus status).resourceVersion = job.resourceVersion := rfl

end Simp
end QuantumAerJob
end QuantumService
