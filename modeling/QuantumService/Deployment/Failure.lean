import QuantumService.Cluster.Lifecycle
import QuantumService.Deployment.Moves

/-! Why a job failed. The controller never stores a failed job without a message,
so it takes a simulator that still runs to clear the message afterwards. -/
namespace QuantumService
open Interaction Cluster Controller World

namespace Cluster.JobView
variable {key : NamespacedName} {v v' : JobView key}

/-- A failed job says why. -/
def Explained (v : JobView key) : Prop :=
  ∀ job, v.job.current = some job → job.status.jobStatus = .failed → job.status.errorMessage ≠ ""

/-- Only an empty message for a failed job is excluded. -/
theorem Explained.step (explained : Explained v) (sound : Sound v) {a : World.Action}
    (spares : a = .patchError key "" → ∀ job, v.job.current = some job →
      job.status.jobStatus ≠ .failed) (h : Moves v a v') : Explained v' := by
  cases h with
  | create fresh =>
      intro job hStored hFailed
      cases hStored
      exact absurd hFailed.symm JobState.failed_ne_new
  | readJob waits read =>
      intro job hStored
      exact explained job ((Register.current_read read).symm.trans hStored)
  | expired waits held present reported =>
      intro job hStored
      cases hStored
  | @updated job stored status history next reply answer path waits held present version
      reported =>
      obtain ⟨rfl, -⟩ := sound.versions.eq_of_version (sound.held waits held) present version
      have hReason := (site_of_busy path).reason held
      have hActive := (hReason.advance (sound.versions.ok (sound.held_visible waits held))).active
      intro job hStored hFailed
      cases hStored
      apply hReason.explains hFailed
      intro hBefore
      rw [hBefore] at hActive
      exact hActive JobState.terminal_failed
  | @patched message stored present =>
      intro job hStored hFailed hEmpty
      cases hStored
      have hMessage : message = "" := hEmpty
      rw [hMessage] at spares
      exact spares rfl stored present hFailed
  | elsewhere | setClock | start | readPod | created | deleted | quiet | finish | setPhase
  | createPod | removePod => exact explained

end Cluster.JobView

namespace Deployment
variable {setup : Setup} {d : Deployment setup} {key : NamespacedName} {job : QuantumAerJob}

/-- The patch a simulator is about to make. -/
def pendingPatch (d : Deployment setup) (uid : Nat) : Option (NamespacedName × String) :=
  match d.processes uid with
  | some ⟨_, _, .ask (.patchStatus key message) _, _, false⟩ => some (key, message)
  | _ => none

/-- A simulator's empty message reaches a job that is stored as failed. -/
def clearsFailed (d : Deployment setup) (key : NamespacedName) : Action setup → Bool
  | .simulate uid reply =>
      d.pendingPatch uid = some (key, "") && reply.applied &&
        (d.world.jobs key).current.any (·.status.jobStatus = .failed)
  | _ => false

/-- What the cluster is spared of. -/
def SparesFailed (key : NamespacedName) (w : World) (a : World.Action) : Prop :=
  a = .patchError key "" → ∀ job, (w.jobs key).current = some job → job.status.jobStatus ≠ .failed

theorem sparesFailed_of_causes {a : Action setup} {wa : World.Action} (causes : Causes d a wa)
    (clears : d.clearsFailed key a = false) : SparesFailed key d.world wa := by
  rintro rfl job hStored hFailed
  cases causes with
  | cluster own => exact own key "" rfl
  | patched busy applied =>
      simp [clearsFailed, pendingPatch, busy, applied, hStored, hFailed] at clears

/-- A failed job says why, in every run in which no simulator's empty message reaches it
after it was stored as failed. -/
theorem failed_says_why (run : Reaches step (fun d a => d.clearsFailed key a = false) Initial d)
    (stored : (d.world.jobs key).current = some job) (failed : job.status.jobStatus = .failed) :
    job.status.errorMessage ≠ "" := by
  have hCluster : Reaches World.step (SparesFailed key) World.Initial d.world :=
    cluster_reaches (fun _ initial => initial.world)
      (fun _ _ _ _ clears causes => sparesFailed_of_causes causes clears) run
  have hExplained : (d.world.view key).Explained := by
    apply view_invariant _ (fun _ h => h) _ _ hCluster
    · intro w initial job hStored
      have hNone : (w.jobs key).current = some job := hStored
      rw [initial.jobs key] at hNone
      cases hNone
    · intro w a v' sound explained spares moves
      exact explained.step sound spares moves
  exact hExplained job stored failed

/-- The deadline of job `1` passes while its simulator, pod 2, has its results but
has not reported them. -/
def timedOutRun : List (Action sampleSetup) :=
  submitRun ++ startRun.tail.map .cluster ++ .launch sampleKey 0 :: simulateRun 2 "e30=" ++
    .cluster (.setClock (700 * second)) :: clusterPass sampleKey [.read 0, .ok, .ok, .ok]

/-- The simulator's report then clears the message of the failed job. -/
theorem failed_message_cleared : ∃ d,
    runActions step (.empty sampleSetup) (timedOutRun ++ [.simulate 2 .ok]) = some d ∧
    ((d.world.jobs sampleKey).current.map fun job =>
      (job.status.jobStatus, job.status.errorMessage)) = some (.failed, "") := by
  have hRun : (runActions step (.empty sampleSetup) (timedOutRun ++ [.simulate 2 .ok])).isSome := by
    decide
  obtain ⟨d, hd⟩ := Option.isSome_iff_exists.mp hRun
  have hStored : (runActions step (.empty sampleSetup) (timedOutRun ++ [.simulate 2 .ok])).map
      (fun d => (d.world.jobs sampleKey).current.map fun job =>
        (job.status.jobStatus, job.status.errorMessage)) = some (some (.failed, "")) := by decide
  rw [hd, Option.map_some, Option.some.injEq] at hStored
  exact ⟨d, hd, hStored⟩

theorem failed_says_why_timedOut : ∃ d job,
    runActions step (.empty sampleSetup) timedOutRun = some d ∧
    (d.world.jobs sampleKey).current = some job ∧ job.status.jobStatus = .failed ∧
    job.status.errorMessage ≠ "" := by
  have hRun : (runActions step (.empty sampleSetup) timedOutRun).isSome := by decide
  obtain ⟨d, hd⟩ := Option.isSome_iff_exists.mp hRun
  have hReached : Reaches step (fun d a => d.clearsFailed sampleKey a = false) Initial d :=
    (Reaches.start (.empty sampleSetup)).runActions (by decide) hd
  have hStored : (runActions step (.empty sampleSetup) timedOutRun).map
      (fun d => (d.world.jobs sampleKey).current.map (·.status.jobStatus)) =
        some (some .failed) := by decide
  rw [hd, Option.map_some, Option.some.injEq, Option.map_eq_some_iff] at hStored
  obtain ⟨job, hJob, hFailed⟩ := hStored
  exact ⟨d, job, hd, hJob, hFailed, failed_says_why hReached hJob hFailed⟩

end Deployment
end QuantumService
