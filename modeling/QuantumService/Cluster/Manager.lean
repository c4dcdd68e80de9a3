import QuantumService.Cluster.Projection
import QuantumService.Controller.Rest
import QuantumService.Interaction.Watch
import QuantumService.Interaction.WorkQueue

/-! The manager that runs the controller (`SetupWithManager`). It watches the jobs and
the pods they own, queues the job that a change concerns, and has workers reconcile what
is queued. How its queue and its watches behave is what controller-runtime documents. -/
namespace QuantumService.Cluster
open Interaction Controller

/-- `jobNews` and `podNews` are the changes its handlers have not been told yet, newest
first, each with the jobs that are to be queued for it. -/
structure Manager where
  world : World
  queue : WorkQueue NamespacedName
  jobNews : NamespacedName → List (List NamespacedName)
  podNews : NamespacedName → List (List NamespacedName)

/-- `For(&QuantumAerJob{})`: a change of a job queues it. -/
def jobRequests (key : NamespacedName) (before after : Option QuantumAerJob) :
    List NamespacedName :=
  if before = after then [] else [key]

/-- The job that controls a pod. -/
def controllerKey (pod : Pod) : Option NamespacedName :=
  (pod.ownerReferences.find? (·.controller)).bind fun owner =>
    if owner.kind = "QuantumAerJob" then some ⟨pod.nameSpace, owner.name⟩ else none

/-- `Owns(&v1.Pod{})`: a change of a pod queues the job that controls it, or did. -/
def podRequests (before after : Option Pod) : List NamespacedName :=
  if before = after then [] else (before.toList ++ after.toList).filterMap controllerKey

namespace Manager

/-- What a manager does by itself is to let a worker take the next job, to end a
reconcile, to tell the oldest news, and to queue a job when its time has come. -/
inductive Action where
  | cluster (action : World.Action)
  | start
  | finish (key : NamespacedName)
  | tellJob (key : NamespacedName)
  | tellPod (key : NamespacedName)
  | fire (key : NamespacedName)

/-- The cluster has moved on. -/
def observe (m : Manager) (world : World) : Manager :=
  { m with
    world := world
    jobNews := fun key => tell (jobRequests key) (m.world.jobs key) (world.jobs key) (m.jobNews key)
    podNews := fun key => tell podRequests (m.world.pods key) (world.pods key) (m.podNews key) }

/-- A cached read is not older than what the handlers were told. -/
def recent (m : Manager) (key : NamespacedName) : World.Reply → Bool
  | .read age =>
      match m.world.workers key with
      | some ⟨_, .ask (.getJob req) _, _⟩ => age ≤ (m.jobNews req).length
      | some ⟨_, .ask (.getPod pod) _, _⟩ => age ≤ (m.podNews pod).length
      | _ => true
  | .ok | .absent | .lost _ | .fail _ => true

/-- Reconciles start and end in the manager only. -/
def admits (m : Manager) : World.Action → Bool
  | .reconcile _ | .finish _ => false
  | .answer key reply => m.recent key reply
  | .createJob .. | .patchError .. | .setClock _ | .setPhase .. | .createPod _ | .removePod _ =>
      true

/-- What becomes of a job when its reconcile has returned. The rate limiter and
`RequeueAfter` differ only in the delay. -/
def requeue (queue : WorkQueue NamespacedName) (key : NamespacedName) (outcome : Outcome) :
    WorkQueue NamespacedName :=
  if outcome.2.isSome || outcome.1.requeue || decide (0 < outcome.1.requeueAfter) then
    (queue.addAfter key).done key
  else queue.done key

def step (m : Manager) : Action → Option Manager
  | .cluster action =>
      if m.admits action then (m.world.step action).map m.observe else none
  | .start =>
      m.queue.get.bind fun (key, queue) =>
        (m.world.step (.reconcile key)).map fun world => { m with world := world, queue := queue }
  | .finish key =>
      match m.world.workers key with
      | some ⟨_, .done outcome, _⟩ =>
          (m.world.step (.finish key)).map fun world =>
            { m with world := world, queue := requeue m.queue key outcome }
      | some ⟨_, .ask _ _, _⟩ | none => none
  | .tellJob key =>
      match (m.jobNews key).getLast? with
      | some keys => some { m with
          queue := m.queue.addAll keys
          jobNews := Function.update m.jobNews key (m.jobNews key).dropLast }
      | none => none
  | .tellPod key =>
      match (m.podNews key).getLast? with
      | some keys => some { m with
          queue := m.queue.addAll keys
          podNews := Function.update m.podNews key (m.podNews key).dropLast }
      | none => none
  | .fire key => (m.queue.fire key).map fun queue => { m with queue := queue }

/-- A manager that has nothing to do in a cluster without jobs. -/
structure Initial (m : Manager) : Prop where
  world : World.Initial m.world
  queue : m.queue = .empty
  jobNews : ∀ key, m.jobNews key = []
  podNews : ∀ key, m.podNews key = []

end Manager
end QuantumService.Cluster
