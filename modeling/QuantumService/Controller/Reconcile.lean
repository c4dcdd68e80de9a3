import QuantumService.Api.QuantumAerJob
import QuantumService.Interaction.Program

/-! The reconciler of `internal/controller/quantumaerjob_controller.go`, as a
program over the API calls it makes. Logging is left out. -/
namespace QuantumService.Controller
open Interaction Program

/-- The calls that change the cluster. -/
inductive Write where
  | createPod (pod : Pod)
  | deletePod (pod : Pod)
  | deleteJob (job : QuantumAerJob)
  | updateStatus (job : QuantumAerJob)
  deriving DecidableEq

/-- Every call of a reconcile that leaves the process; `now` reads the clock. -/
inductive Call where
  | getJob (key : NamespacedName)
  | getPod (key : NamespacedName)
  | getServiceAccount (key : NamespacedName)
  | write (write : Write)
  | now
  deriving DecidableEq

abbrev Call.Answer : Call → Type
  | .getJob _ => Except ApiError QuantumAerJob
  | .getPod _ => Except ApiError Pod
  | .getServiceAccount _ => Except ApiError Unit
  | .write _ => Except ApiError Unit
  | .now => Int

abbrev History := List (Event Call.Answer)

abbrev Reconciler := Program Call Call.Answer

/-- `ctrl.Result`. -/
structure Result where
  requeue : Bool
  requeueAfter : Int
  deriving DecidableEq

def Result.empty : Result := ⟨false, 0⟩
def Result.again : Result := ⟨true, 0⟩
def Result.after (delay : Int) : Result := ⟨false, delay⟩

def fastRequeueDelay : Int := 5 * second
def defaultRequeueDelay : Int := 10 * second
def slowRequeueDelay : Int := 60 * second

/-- What `Reconcile` and the handlers return. -/
abbrev Outcome := Result × Option ApiError

def call (c : Call) : Reconciler c.Answer := query c

def write (w : Write) : Reconciler (Except ApiError Unit) := call (.write w)

def updateStatus (job : QuantumAerJob) (status : QuantumAerJobStatus) :
    Reconciler (Except ApiError Unit) :=
  write (.updateStatus (job.withStatus status))

@[simp] theorem call_bind {β : Type} (c : Call) (f : c.Answer → Reconciler β) :
    (call c >>= f) = .ask c f := rfl

@[simp] theorem write_bind {β : Type} (w : Write) (f : Except ApiError Unit → Reconciler β) :
    (write w >>= f) = .ask (.write w) f := rfl

@[simp] theorem updateStatus_bind {β : Type} (job : QuantumAerJob)
    (status : QuantumAerJobStatus) (f : Except ApiError Unit → Reconciler β) :
    (updateStatus job status >>= f) = .ask (.write (.updateStatus (job.withStatus status))) f := rfl

def validateServiceAccount (nameSpace saName : String) : Reconciler (Option ApiError) := do
  match ← call (.getServiceAccount ⟨nameSpace, saName⟩) with
  | .ok _ => return none
  | .error err =>
      if err.isNotFound then
        return some (.other s!"ServiceAccount {saName} not found in namespace {nameSpace}")
      else return some err

/-- `fmt.Sprintf("%s-sim-%d", job.Name, job.Status.Retries)`. -/
def simulatorPodName (jobName : String) (retries : Int32) : String :=
  s!"{jobName}-sim-{retries.toInt}"

def simulatorPodKey (key : NamespacedName) (retries : Int32) : NamespacedName :=
  ⟨key.nameSpace, simulatorPodName key.name retries⟩

/-- The pod that `createSimulatorPod` submits. `SetControllerReference` cannot
fail here: the pod is in the job's namespace and has no owner yet. -/
def simulatorPod (job : QuantumAerJob) : Pod where
  name := simulatorPodName job.name job.status.retries
  nameSpace := job.nameSpace
  uid := 0
  labels := [("app", "quantum-simulator"), ("quantum-job", job.name)]
  ownerReferences := [⟨"QuantumAerJob", job.name, job.uid, true⟩]
  deletionRequested := false
  restartPolicy := .never
  serviceAccountName := "quantum-simulator-sa"
  containers := [
    { name := "aer-simulator"
      image := job.spec.simulatorImage
      env := [
        ⟨"JOB_ID", .value job.spec.jobID⟩,
        ⟨"BACKEND_NAME", .value job.spec.backendName⟩,
        ⟨"SHOTS", .value (toString job.spec.shots.toInt)⟩,
        ⟨"SIMULATOR_IMAGE", .value job.spec.simulatorImage⟩,
        ⟨"QUANTUM_JOB_NAME", .value job.name⟩,
        ⟨"QUANTUM_JOB_NAMESPACE", .value job.nameSpace⟩,
        ⟨"IBM_API_KEY", .secretKeyRef "ibm-quantum-secret" "api-key"⟩,
        ⟨"IBM_INSTANCE", .secretKeyRef "ibm-quantum-secret" "instance"⟩,
        ⟨"REDIS_HOST", .configMapKeyRef "redis-config" "host"⟩,
        ⟨"REDIS_PORT", .configMapKeyRef "redis-config" "port"⟩]
      resources :=
        { requests := [("cpu", "1"), ("memory", "512Mi")]
          limits := [("cpu", "2"), ("memory", "2Gi")] } }]
  phase := .unset

/-- The end of `createSimulatorPod`: store the pod's name unless it is there. -/
def recordPodName (job : QuantumAerJob) (podName : String) : Reconciler (Option ApiError) := do
  if job.status.podName ≠ podName then
    match ← updateStatus job { job.status with podName := podName } with
    | .ok _ => return none
    | .error err => return some err
  else return none

def createSimulatorPod (job : QuantumAerJob) : Reconciler (Option ApiError) := do
  let podName := simulatorPodName job.name job.status.retries
  match ← validateServiceAccount job.nameSpace "quantum-simulator-sa" with
  | some err => return some err
  | none =>
      match ← write (.createPod (simulatorPod job)) with
      | .ok _ => recordPodName job podName
      | .error err =>
          -- an existing pod of that name is taken over without a further look
          if err.isAlreadyExists then recordPodName job podName else return some err

def getForPod (job : QuantumAerJob) : Reconciler (Except ApiError Pod) := do
  if job.status.podName = "" then return .error .notFound
  else call (.getPod ⟨job.nameSpace, job.status.podName⟩)

def handleNewJob (job : QuantumAerJob) : Reconciler Outcome := do
  let now ← call .now
  let status : QuantumAerJobStatus :=
    { job.status with jobStatus := .pending, startTime := some now, retries := 0 }
  match ← updateStatus job status with
  | .error err => return (.after defaultRequeueDelay, some err)
  | .ok _ => return (.again, none)

/-- The end of `handlePendingJob`. -/
def markProgress (job : QuantumAerJob) : Reconciler Outcome := do
  match ← updateStatus job { job.status with jobStatus := .progress } with
  | .error err => return (.after defaultRequeueDelay, some err)
  | .ok _ => return (.again, none)

def handlePendingJob (job : QuantumAerJob) : Reconciler Outcome := do
  match ← getForPod job with
  | .error err =>
      if err.isNotFound then
        match ← createSimulatorPod job with
        | some err2 => return (.after defaultRequeueDelay, some err2)
        | none => return (.again, none)
      else markProgress job
  | .ok _ => markProgress job

/-- A failed attempt that is to be replaced, once its pod is deleted. -/
def retryJob (job : QuantumAerJob) : Reconciler Outcome := do
  let status : QuantumAerJobStatus :=
    { job.status with retries := job.status.retries + 1, jobStatus := .pending, podName := "" }
  match ← updateStatus job status with
  | .error err => return (.after defaultRequeueDelay, some err)
  | .ok _ => return (.after fastRequeueDelay, none)

/-- A failed attempt that is the last one. -/
def giveUp (job : QuantumAerJob) : Reconciler Outcome := do
  let now ← call .now
  let status : QuantumAerJobStatus :=
    { job.status with
      jobStatus := .failed
      errorMessage := "Job terminated due to consistend Pod failures"
      completionTime := some now }
  match ← updateStatus job status with
  | .error err => return (.after defaultRequeueDelay, some err)
  | .ok _ => return (.after (60 * second), none)

/-- The `PodFailed` case of `handleRunningJob`. -/
def handleFailedPod (job : QuantumAerJob) (pod : Pod) : Reconciler Outcome := do
  if job.status.retries < job.spec.maxRetries then
    match ← write (.deletePod pod) with
    | .ok _ => retryJob job
    | .error err =>
        if err.isNotFound then retryJob job
        else return (.after defaultRequeueDelay, some err)
  else giveUp job

/-- The `PodSucceeded` case of `handleRunningJob`. -/
def handleSucceededPod (job : QuantumAerJob) : Reconciler Outcome := do
  let now ← call .now
  match ← updateStatus job
      { job.status with completionTime := some now, jobStatus := .completed } with
  | .error err => return (.after defaultRequeueDelay, some err)
  | .ok _ => return (.after slowRequeueDelay, none)

def handleRunningJob (job : QuantumAerJob) : Reconciler Outcome := do
  match ← getForPod job with
  | .error err =>
      if err.isNotFound then
        match ← updateStatus job { job.status with jobStatus := .pending, podName := "" } with
        | .error err => return (.after defaultRequeueDelay, some err)
        | .ok _ => return (.again, none)
      else return (.empty, some err)
  | .ok pod =>
      match pod.phase with
      | .failed => handleFailedPod job pod
      | .succeeded => handleSucceededPod job
      | .pending | .running => return (.after fastRequeueDelay, none)
      | .unknown | .unset => return (.empty, none)

/-- The second half of `handleTerminalJob`: delete the job after its TTL. -/
def expireJob (job : QuantumAerJob) : Reconciler Outcome := do
  match job.spec.ttlSecondsAfterFinished, job.status.completionTime with
  | some ttlSeconds, some completionTime =>
      let ttl := seconds ttlSeconds
      let elapsed := timeSub (← call .now) completionTime
      if elapsed ≥ ttl then
        match ← write (.deleteJob job) with
        | .error err =>
            if err.isNotFound then return (.empty, none)
            else return (.after defaultRequeueDelay, some err)
        | .ok _ => return (.empty, none)
      else return (.after (int64 (ttl - elapsed)), none)
  | _, _ => return (.empty, none)

def handleTerminalJob (job : QuantumAerJob) : Reconciler Outcome := do
  if job.status.jobStatus.Terminal then
    match ← getForPod job with
    | .ok pod =>
        match ← write (.deletePod pod) with
        | .error err =>
            if err.isNotFound then expireJob job
            else return (.after defaultRequeueDelay, some err)
        | .ok _ => expireJob job
    | .error err =>
        if err.isNotFound then expireJob job
        else return (.after defaultRequeueDelay, some err)
  else return (.empty, none)

/-- The `switch` at the end of `Reconcile`. -/
def dispatch (job : QuantumAerJob) : Reconciler Outcome :=
  if job.status.jobStatus = "" then handleNewJob job
  else if job.status.jobStatus = .pending then handlePendingJob job
  else if job.status.jobStatus = .progress then handleRunningJob job
  else if job.status.jobStatus.Terminal then handleTerminalJob job
  else return (.empty, none)

section Dispatch
variable {job : QuantumAerJob}

theorem dispatch_new (state : job.status.jobStatus = "") : dispatch job = handleNewJob job := by
  rw [dispatch, if_pos state]

theorem dispatch_pending (state : job.status.jobStatus = .pending) :
    dispatch job = handlePendingJob job := by
  rw [dispatch, state, if_neg (by decide), if_pos rfl]

theorem dispatch_progress (state : job.status.jobStatus = .progress) :
    dispatch job = handleRunningJob job := by
  rw [dispatch, state, if_neg (by decide), if_neg (by decide), if_pos rfl]

theorem dispatch_terminal (state : job.status.jobStatus.Terminal) :
    dispatch job = handleTerminalJob job := by
  unfold dispatch
  rcases state with hState | hState <;>
  · rw [hState, if_neg (by decide), if_neg (by decide), if_neg (by decide), if_pos (by decide)]

end Dispatch

/-- The condition of the timeout branch when the clock reads `now`. -/
def TimedOut (job : QuantumAerJob) (startTime now : Int) : Prop :=
  timeSub now startTime > seconds job.spec.timeOut ∧ ¬ job.status.jobStatus.Terminal

instance (job : QuantumAerJob) (startTime now : Int) : Decidable (TimedOut job startTime now) :=
  inferInstanceAs (Decidable (_ ∧ _))

def timeoutMessage (job : QuantumAerJob) : String :=
  s!"Job exceeded timeout of {job.spec.timeOut.toInt} seconds"

/-- The body of the timeout branch. -/
def failTimedOut (job : QuantumAerJob) : Reconciler Outcome := do
  let now ← call .now
  let status : QuantumAerJobStatus :=
    { job.status with
      jobStatus := .failed, errorMessage := timeoutMessage job, completionTime := some now }
  match ← updateStatus job status with
  | .error err => return (.empty, some err)
  | .ok _ => return (.again, none)

/-- The deadline check of `Reconcile`, then the dispatch on the state. -/
def checkTimeout (job : QuantumAerJob) : Reconciler Outcome := do
  match job.status.startTime with
  | some startTime =>
      if job.spec.timeOut > 0 then
        let now ← call .now
        if TimedOut job startTime now then failTimedOut job else dispatch job
      else dispatch job
  | none => dispatch job

def reconcile (req : NamespacedName) : Reconciler Outcome := do
  match ← call (.getJob req) with
  | .error err => return (.empty, ignoreNotFound err)
  | .ok job => checkTimeout job

end QuantumService.Controller
