import QuantumService.Cluster.Moves
import QuantumService.Controller.PodName

/-! The cluster as one job sees it. A view holds the stored job, the pods under
the names its attempts use and its reconcile in flight. Whatever the cluster
does is one move of every view, or none of its business. -/
namespace QuantumService.Cluster
open Interaction Controller World

/-- What concerns the job stored under `key`. -/
structure JobView (key : NamespacedName) where
  job : Register QuantumAerJob
  pods : Int32 → Register Pod
  worker : Option (Worker key)
  clock : Int
  next : Nat
  created : Prop
  effects : List Write
  finished : List (History × Outcome)

/-- The entries of a log that belong to `key`. -/
def entriesOf {α : Type} (key : NamespacedName) (entries : List (NamespacedName × α)) : List α :=
  entries.filterMap fun entry => if entry.1 = key then some entry.2 else none

@[simp] theorem entriesOf_nil {α : Type} (key : NamespacedName) :
    entriesOf key ([] : List (NamespacedName × α)) = [] := rfl

@[simp] theorem entriesOf_cons_self {α : Type} (key : NamespacedName) (x : α)
    (entries : List (NamespacedName × α)) :
    entriesOf key ((key, x) :: entries) = x :: entriesOf key entries := by
  simp [entriesOf]

theorem entriesOf_cons_of_ne {α : Type} {key key' : NamespacedName} (h : key' ≠ key) (x : α)
    (entries : List (NamespacedName × α)) :
    entriesOf key ((key', x) :: entries) = entriesOf key entries := by
  simp [entriesOf, h]

theorem mem_entriesOf {α : Type} {key : NamespacedName} {x : α}
    {entries : List (NamespacedName × α)} :
    x ∈ entriesOf key entries ↔ (key, x) ∈ entries := by
  simp only [entriesOf, List.mem_filterMap, Option.ite_none_right_eq_some, Option.some.injEq]
  constructor
  · rintro ⟨⟨key', y⟩, hMem, rfl, rfl⟩
    exact hMem
  · intro hMem
    exact ⟨(key, x), hMem, rfl, rfl⟩

def World.view (w : World) (key : NamespacedName) : JobView key where
  job := w.jobs key
  pods := fun retries => w.pods (simulatorPodKey key retries)
  worker := w.workers key
  clock := w.clock
  next := w.next
  created := key ∈ w.created
  effects := entriesOf key w.effects
  finished := entriesOf key w.finished

/-- The answer to a call may have an effect, even one that is not reported. -/
def World.Reply.applied : Reply → Bool
  | .ok | .lost _ => true
  | .read _ | .absent | .fail _ => false

/-- The call took effect, and its answer was lost. -/
def World.Reply.isLost : Reply → Bool
  | .lost _ => true
  | .read _ | .ok | .absent | .fail _ => false

theorem World.Reported.applied {reply : Reply} {answer : Except ApiError Unit}
    (reported : Reported reply answer) : reply.applied = true := by
  cases reported <;> rfl

namespace JobView
variable {key : NamespacedName}

/-- A status update passes the version check. -/
def Accepts (v : JobView key) (update : QuantumAerJob) : Prop :=
  ∃ stored, v.job.current = some stored ∧ stored.resourceVersion = update.resourceVersion

/-- What an answer that is not a cached read and has no effect can tell. -/
structure Uneventful (v : JobView key) (e : Event Call.Answer) : Prop where
  job : ∀ req job, e ≠ ⟨.getJob req, .ok job⟩
  pod : ∀ pod found, e ≠ ⟨.getPod pod, .ok found⟩
  noPod : ∀ pod, e ≠ ⟨.getPod pod, .error .notFound⟩
  write : ∀ write, e ≠ ⟨.write write, .ok ()⟩
  now : ∀ t, e = ⟨.now, t⟩ → t = v.clock
  missing : ∀ retries pod, pod.key = simulatorPodKey key retries →
    e = ⟨.write (.deletePod pod), .error .notFound⟩ → (v.pods retries).current = none

/-- Store another value of the job. -/
def setJob (v : JobView key) (value : Option QuantumAerJob) : JobView key :=
  { v with job := v.job.write value, next := v.next + 1 }

/-- Store another value of the pod of one attempt. -/
def setPod (v : JobView key) (retries : Int32) (value : Option Pod) : JobView key :=
  { v with
    pods := Function.update v.pods retries ((v.pods retries).write value), next := v.next + 1 }

/-- What the cache serves of the job from now on. -/
def serveJob (v : JobView key) (register : Register QuantumAerJob) : JobView key :=
  { v with job := register }

/-- What the cache serves of the pod of one attempt from now on. -/
def servePod (v : JobView key) (retries : Int32) (register : Register Pod) : JobView key :=
  { v with pods := Function.update v.pods retries register }

def log (v : JobView key) (write : Write) : JobView key :=
  { v with effects := write :: v.effects }

def setWorker (v : JobView key) (worker : Option (Worker key)) : JobView key :=
  { v with worker := worker }

/-- The reconcile of this job waits for the answer to `call`. -/
def Waits (v : JobView key) (history : History) (call : Call)
    (next : call.Answer → Reconciler Outcome)
    (path : Program.Path (reconcile key) history (.ask call next)) : Prop :=
  v.worker = some ⟨history, .ask call next, path⟩

/-- The answer to its call has reached the reconcile of this job. -/
def resume (v : JobView key) {history : History} {call : Call}
    {next : call.Answer → Reconciler Outcome}
    (path : Program.Path (reconcile key) history (.ask call next)) (answer : call.Answer) :
    JobView key :=
  v.setWorker (some (Worker.extend path answer))

section Pods
variable (v : JobView key) {retries r : Int32}

@[simp] theorem setPod_pods_self (value : Option Pod) :
    (v.setPod retries value).pods retries = (v.pods retries).write value :=
  Function.update_self ..

theorem setPod_pods_of_ne (hr : r ≠ retries) (value : Option Pod) :
    (v.setPod retries value).pods r = v.pods r :=
  Function.update_of_ne hr ..

@[simp] theorem servePod_pods_self (register : Register Pod) :
    (v.servePod retries register).pods retries = register :=
  Function.update_self ..

theorem servePod_pods_of_ne (hr : r ≠ retries) (register : Register Pod) :
    (v.servePod retries register).pods r = v.pods r :=
  Function.update_of_ne hr ..

variable {v}

/-- A pod visible after a write is the pod written or was visible before. -/
theorem mem_setPod_visible {value : Option Pod} {pod : Pod}
    (mem : some pod ∈ ((v.setPod retries value).pods r).visible) :
    (r = retries ∧ value = some pod) ∨ some pod ∈ (v.pods r).visible := by
  by_cases hr : r = retries
  · subst hr
    rw [setPod_pods_self, Register.visible_write] at mem
    exact (List.mem_cons.mp mem).imp (fun hNew => ⟨rfl, hNew.symm⟩) id
  · rw [setPod_pods_of_ne v hr] at mem
    exact .inr mem

/-- Serving a pod from the cache shows no other pods. -/
theorem mem_servePod_visible {age : Nat} {value : Option Pod} {register : Register Pod}
    {pod : Pod} (read : (v.pods retries).read age = some (value, register))
    (mem : some pod ∈ ((v.servePod retries register).pods r).visible) :
    some pod ∈ (v.pods r).visible := by
  by_cases hr : r = retries
  · subst hr
    rw [servePod_pods_self] at mem
    exact Register.visible_subset_of_read read mem
  · rw [servePod_pods_of_ne v hr] at mem
    exact mem

/-- Serving a pod from the cache leaves every stored pod. -/
theorem servePod_pods_current {age : Nat} {value : Option Pod} {register : Register Pod}
    (read : (v.pods retries).read age = some (value, register)) (r : Int32) :
    ((v.servePod retries register).pods r).current = (v.pods r).current := by
  by_cases hr : r = retries
  · subst hr
    rw [servePod_pods_self, Register.current_read read]
  · rw [servePod_pods_of_ne v hr]

end Pods

/-- Everything that can happen to one job. -/
inductive Moves (v : JobView key) : Action → JobView key → Prop where
  | elsewhere {a : Action} {next : Nat} (later : v.next ≤ next) :
      Moves v a { v with next := next }
  | setClock {now : Int} : Moves v (.setClock now) { v with clock := now }
  | create {spec : QuantumAerJobSpec} (fresh : ¬ v.created) :
      Moves v (.createJob key spec)
        { v.setJob (some ⟨key.name, key.nameSpace, v.next, v.next, spec, .empty⟩) with
          created := True }
  | start (idle : v.worker = none) :
      Moves v (.reconcile key) (v.setWorker (some (.start key)))
  | readJob {age : Nat} {value : Option QuantumAerJob} {register : Register QuantumAerJob}
      {next : Except ApiError QuantumAerJob → Reconciler Outcome}
      {path : Program.Path (reconcile key) [] (.ask (.getJob key) next)}
      (waits : v.Waits [] (.getJob key) next path)
      (read : v.job.read age = some (value, register)) :
      Moves v (.answer key (.read age))
        ((v.serveJob register).resume path (served value))
  | readPod {age : Nat} {job : QuantumAerJob} {value : Option Pod} {register : Register Pod}
      {history : History} {next : Except ApiError Pod → Reconciler Outcome}
      {path : Program.Path (reconcile key) history
        (.ask (.getPod (simulatorPodKey key job.status.retries)) next)}
      (waits : v.Waits history (.getPod (simulatorPodKey key job.status.retries)) next path)
      (held : readJob history = some job)
      (read : (v.pods job.status.retries).read age = some (value, register)) :
      Moves v (.answer key (.read age))
        ((v.servePod job.status.retries register).resume path (served value))
  | created {job : QuantumAerJob} {history : History}
      {next : Except ApiError Unit → Reconciler Outcome} {reply : Reply}
      {answer : Except ApiError Unit}
      {path : Program.Path (reconcile key) history
        (.ask (.write (.createPod (simulatorPod job))) next)}
      (waits : v.Waits history (.write (.createPod (simulatorPod job))) next path)
      (held : readJob history = some job)
      (free : (v.pods job.status.retries).current = none) (reported : Reported reply answer) :
      Moves v (.answer key reply)
        ((v.setPod job.status.retries
          (some { simulatorPod job with uid := v.next, phase := .pending })).log
          (.createPod (simulatorPod job)) |>.resume path answer)
  | deleted {job : QuantumAerJob} {pod stored : Pod} {history : History}
      {next : Except ApiError Unit → Reconciler Outcome} {reply : Reply}
      {answer : Except ApiError Unit}
      {path : Program.Path (reconcile key) history (.ask (.write (.deletePod pod)) next)}
      (waits : v.Waits history (.write (.deletePod pod)) next path)
      (held : readJob history = some job)
      (named : pod.key = simulatorPodKey key job.status.retries)
      (present : (v.pods job.status.retries).current = some stored)
      (reported : Reported reply answer) :
      Moves v (.answer key reply)
        ((v.setPod job.status.retries (some { stored with deletionRequested := true })).log
          (.deletePod pod) |>.resume path answer)
  | expired {job stored : QuantumAerJob} {history : History}
      {next : Except ApiError Unit → Reconciler Outcome} {reply : Reply}
      {answer : Except ApiError Unit}
      {path : Program.Path (reconcile key) history (.ask (.write (.deleteJob job)) next)}
      (waits : v.Waits history (.write (.deleteJob job)) next path)
      (held : readJob history = some job) (present : v.job.current = some stored)
      (reported : Reported reply answer) :
      Moves v (.answer key reply)
        ((v.setJob none).log (.deleteJob job) |>.resume path answer)
  | updated {job stored : QuantumAerJob} {status : QuantumAerJobStatus} {history : History}
      {next : Except ApiError Unit → Reconciler Outcome} {reply : Reply}
      {answer : Except ApiError Unit}
      {path : Program.Path (reconcile key) history
        (.ask (.write (.updateStatus (job.withStatus status))) next)}
      (waits : v.Waits history (.write (.updateStatus (job.withStatus status))) next path)
      (held : readJob history = some job) (present : v.job.current = some stored)
      (version : stored.resourceVersion = job.resourceVersion)
      (reported : Reported reply answer) :
      Moves v (.answer key reply)
        ((v.setJob (some { stored with status := status.stored, resourceVersion := v.next })).log
          (.updateStatus (job.withStatus status)) |>.resume path answer)
  | quiet {call : Call} {history : History} {next : call.Answer → Reconciler Outcome}
      {reply : Reply} {answer : call.Answer}
      {path : Program.Path (reconcile key) history (.ask call next)}
      (waits : v.Waits history call next path) (uneventful : v.Uneventful ⟨call, answer⟩)
      (ineffective : ∀ update, call = .write (.updateStatus update) →
        reply.applied = true → ¬ v.Accepts update) :
      Moves v (.answer key reply) (v.resume path answer)
  | finish {history : History} {outcome : Outcome}
      {path : Program.Path (reconcile key) history (.done outcome)}
      (busy : v.worker = some ⟨history, .done outcome, path⟩) :
      Moves v (.finish key)
        { v.setWorker none with finished := (history, outcome) :: v.finished }
  | patched {message : String} {stored : QuantumAerJob} (present : v.job.current = some stored) :
      Moves v (.patchError key message) (v.setJob (some
        { stored with status := { stored.status with errorMessage := message }
                      resourceVersion := v.next }))
  | setPhase {retries : Int32} {phase : PodPhase} {pod : Pod}
      (present : (v.pods retries).current = some pod) :
      Moves v (.setPhase (simulatorPodKey key retries) phase)
        (v.setPod retries (some { pod with phase := phase }))
  | createPod {retries : Int32} {pod : Pod} (named : pod.key = simulatorPodKey key retries)
      (free : (v.pods retries).current = none) :
      Moves v (.createPod pod) (v.setPod retries (some { pod with uid := v.next }))
  | removePod {retries : Int32} {pod : Pod} (present : (v.pods retries).current = some pod) :
      Moves v (.removePod (simulatorPodKey key retries)) (v.setPod retries none)

end JobView
end QuantumService.Cluster
