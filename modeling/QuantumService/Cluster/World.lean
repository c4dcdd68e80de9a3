import Mathlib.Logic.Function.Basic
import QuantumService.Controller.Sites
import QuantumService.Interaction.Register
import QuantumService.Interaction.Transition

/-! The cluster the controller works in: stored jobs and pods as its cache shows
them, the clock, and one reconcile in flight per job. A step lets one party make
one move, so that everything else can happen between two calls of a reconcile. -/
namespace QuantumService.Cluster
open Interaction Controller

/-- A reconcile in flight: the calls answered so far and what is left of it. -/
structure Worker (key : NamespacedName) where
  history : History
  rest : Reconciler Outcome
  path : Program.Path (reconcile key) history rest

def Worker.start (key : NamespacedName) : Worker key := ⟨[], reconcile key, .nil _⟩

/-- `created` lists the names jobs were created under, `effects` the writes of
reconciles that took effect and `finished` the reconciles that returned. -/
structure World where
  jobs : NamespacedName → Register QuantumAerJob
  pods : NamespacedName → Register Pod
  clock : Int
  next : Nat
  created : List NamespacedName
  workers : (key : NamespacedName) → Option (Worker key)
  effects : List (NamespacedName × Write)
  finished : List (NamespacedName × History × Outcome)

namespace World

def setJob (w : World) (key : NamespacedName) (value : Option QuantumAerJob) : World :=
  { w with jobs := Function.update w.jobs key ((w.jobs key).write value), next := w.next + 1 }

def setPod (w : World) (key : NamespacedName) (value : Option Pod) : World :=
  { w with pods := Function.update w.pods key ((w.pods key).write value), next := w.next + 1 }

def setWorker (w : World) (key : NamespacedName) (worker : Option (Worker key)) : World :=
  { w with workers := Function.update w.workers key worker }

def log (w : World) (key : NamespacedName) (write : Write) : World :=
  { w with effects := (key, write) :: w.effects }

/-- The job the API server stores for an accepted creation. -/
def newJob (w : World) (key : NamespacedName) (spec : QuantumAerJobSpec) : QuantumAerJob :=
  ⟨key.name, key.nameSpace, w.next, w.next, spec, .empty⟩

/-- The API server's side of the controller's writes. Status updates carry the
version they were computed from, deletions only a name. -/
def applyWrite (w : World) : Write → Except ApiError World
  | .createPod pod =>
      match (w.pods pod.key).current with
      | some _ => .error .alreadyExists
      | none => .ok (w.setPod pod.key (some { pod with uid := w.next, phase := .pending }))
  | .deletePod pod =>
      match (w.pods pod.key).current with
      | some stored => .ok (w.setPod pod.key (some { stored with deletionRequested := true }))
      | none => .error .notFound
  | .deleteJob job =>
      match (w.jobs job.key).current with
      | some _ => .ok (w.setJob job.key none)
      | none => .error .notFound
  | .updateStatus job =>
      match (w.jobs job.key).current with
      | some stored =>
          if stored.resourceVersion = job.resourceVersion then
            .ok (w.setJob job.key (some
              { stored with status := job.status.stored, resourceVersion := w.next }))
          else .error .conflict
      | none => .error .notFound

/-- How the environment answers a call. `read age` serves a value from the
cache, `lost` takes effect but reports an error, `fail` has no effect. -/
inductive Reply where
  | read (age : Nat)
  | ok
  | absent
  | lost (text : String)
  | fail (text : String)

/-- A cached value as the client returns it. -/
def served {α : Type} : Option α → Except ApiError α
  | some value => .ok value
  | none => .error .notFound

def respond (w : World) (key : NamespacedName) :
    (call : Call) → Reply → Option (call.Answer × World)
  | .getJob req, .read age =>
      ((w.jobs req).read age).map fun served' =>
        (served served'.1, { w with jobs := Function.update w.jobs req served'.2 })
  | .getPod pod, .read age =>
      ((w.pods pod).read age).map fun served' =>
        (served served'.1, { w with pods := Function.update w.pods pod served'.2 })
  | .getServiceAccount _, .ok => some (.ok (), w)
  | .getServiceAccount _, .absent => some (.error .notFound, w)
  | .write write, .ok =>
      match w.applyWrite write with
      | .ok w' => some (.ok (), w'.log key write)
      | .error err => some (.error err, w)
  | .write write, .lost text =>
      match w.applyWrite write with
      | .ok w' => some (.error (.other text), w'.log key write)
      | .error _ => none
  | .now, .ok => some (w.clock, w)
  | .getJob _, .fail text => some (.error (.other text), w)
  | .getPod _, .fail text => some (.error (.other text), w)
  | .getServiceAccount _, .fail text => some (.error (.other text), w)
  | .write _, .fail text => some (.error (.other text), w)
  | _, _ => none

/-- One move. `patchError` is a simulator's patch of `status.errorMessage`, `setPhase` a
report of the kubelet. Users create jobs, each name once, and create and remove pods. Their
edits and deletions of a job, edits of a pod and a second job under a name are left out. -/
inductive Action where
  | createJob (key : NamespacedName) (spec : QuantumAerJobSpec)
  | reconcile (key : NamespacedName)
  | answer (key : NamespacedName) (reply : Reply)
  | finish (key : NamespacedName)
  | patchError (key : NamespacedName) (message : String)
  | setClock (now : Int)
  | setPhase (key : NamespacedName) (phase : PodPhase)
  | createPod (pod : Pod)
  | removePod (key : NamespacedName)

/-- A patch that changes nothing is not written and leaves the version alone. -/
def patchError (w : World) (key : NamespacedName) (job : QuantumAerJob) (message : String) :
    World :=
  if job.status.errorMessage = message then w
  else w.setJob key (some
    { job with status := { job.status with errorMessage := message }, resourceVersion := w.next })

/-- Answer the pending call of the reconcile of `key`. -/
def answer (w : World) (key : NamespacedName) (worker : Worker key) (reply : Reply) :
    Option World :=
  match worker with
  | ⟨_, .done _, _⟩ => none
  | ⟨history, .ask call next, path⟩ =>
      (w.respond key call reply).map fun answered =>
        answered.2.setWorker key
          (some ⟨history ++ [⟨call, answered.1⟩], next answered.1, path.snoc answered.1⟩)

def finish (w : World) (key : NamespacedName) (worker : Worker key) : Option World :=
  match worker.rest with
  | .done outcome =>
      some { w.setWorker key none with
        finished := (key, worker.history, outcome) :: w.finished }
  | .ask _ _ => none

def step (w : World) : Action → Option World
  | .createJob key spec =>
      if key ∈ w.created then none
      else some { w.setJob key (some (w.newJob key spec)) with created := key :: w.created }
  | .reconcile key =>
      match w.workers key with
      | none => some (w.setWorker key (some (.start key)))
      | some _ => none
  | .answer key reply => (w.workers key).bind fun worker => w.answer key worker reply
  | .finish key => (w.workers key).bind fun worker => w.finish key worker
  | .patchError key message => (w.jobs key).current.map fun job => w.patchError key job message
  | .setClock now => some { w with clock := now }
  | .setPhase key phase =>
      (w.pods key).current.map fun pod => w.setPod key (some { pod with phase := phase })
  | .createPod pod =>
      match (w.pods pod.key).current with
      | none => some (w.setPod pod.key (some { pod with uid := w.next }))
      | some _ => none
  | .removePod key => (w.pods key).current.map fun _ => w.setPod key none

/-- A cluster with nothing in it. -/
def empty : World where
  jobs := fun _ => .synced none
  pods := fun _ => .synced none
  clock := 0
  next := 0
  created := []
  workers := fun _ => none
  effects := []
  finished := []

/-- One whole reconcile, given the answers to its calls. -/
def pass (key : NamespacedName) (replies : List Reply) : List Action :=
  .reconcile key :: replies.map (.answer key) ++ [.finish key]

end World
end QuantumService.Cluster
