import QuantumService.Deployment.Completed

/-! Success and the exit codes behind it. The kubelet reports a pod as succeeded when
its process has exited with zero, and a job is completed for such a pod. This holds
also in runs in which reconciles guess and pods disappear. -/
namespace QuantumService
open Interaction Cluster Controller World
variable {setup : Setup} {key : NamespacedName}

namespace Cluster.JobView
variable {v v' : JobView key} {processes processes' : Nat → Option (Process setup)}

/-- The success of a pod, and that of the job, is that of a process. -/
structure Exited (v : JobView key) (processes : Nat → Option (Process setup)) : Prop where
  succeeded : ∀ {r pod}, some pod ∈ (v.pods r).visible → pod.phase = .succeeded →
    ∃ process, processes pod.uid = some process ∧ process.exitCode = some 0
  completed : ∀ {job}, v.job.current = some job → job.status.jobStatus = .completed →
    ∃ uid process, processes uid = some process ∧ process.Serves key ∧ process.exitCode = some 0

namespace Exited

theorem setJob (exited : Exited v processes) (value : Option QuantumAerJob)
    (completed : ∀ job, value = some job → job.status.jobStatus = .completed →
      ∃ uid process, processes uid = some process ∧ process.Serves key ∧
        process.exitCode = some 0) : Exited (v.setJob value) processes where
  succeeded := exited.succeeded
  completed := fun hStored => completed _ hStored

theorem setPod (exited : Exited v processes) {retries : Int32} {value : Option Pod}
    (succeeded : ∀ pod, value = some pod → pod.phase = .succeeded →
      ∃ process, processes pod.uid = some process ∧ process.exitCode = some 0) :
    Exited (v.setPod retries value) processes where
  succeeded := by
    intro r pod hMem hPhase
    rcases mem_setPod_visible hMem with ⟨rfl, hNew⟩ | hOld
    · exact succeeded pod hNew hPhase
    · exact exited.succeeded hOld hPhase
  completed := exited.completed

/-- Processes that have exited stay as they are. -/
theorem mono (exited : Exited v processes)
    (kept : ∀ uid process code, processes uid = some process → process.exitCode = some code →
      processes' uid = some process) : Exited v processes' where
  succeeded := by
    intro r pod hMem hPhase
    obtain ⟨process, hProcess, hExit⟩ := exited.succeeded hMem hPhase
    exact ⟨process, kept _ _ _ hProcess hExit, hExit⟩
  completed := by
    intro job hStored hState
    obtain ⟨uid, process, hProcess, hServes, hExit⟩ := exited.completed hStored hState
    exact ⟨uid, process, kept _ _ _ hProcess hExit, hServes, hExit⟩

/-- A status update completes the job only for a pod that has succeeded. -/
theorem update (exited : Exited v processes) (housed : Housed v processes) (sound : Sound v)
    (informed : Informed v) {worker : Worker key} {job : QuantumAerJob}
    {status : QuantumAerJobStatus} (busy : v.worker = some worker)
    (held : readJob worker.history = some job) (reason : StatusWrite worker.history job status)
    (state : status.jobStatus = .completed) :
    ∃ uid process, processes uid = some process ∧ process.Serves key ∧
      process.exitCode = some 0 := by
  have hOk := sound.versions.ok (sound.held_visible busy held)
  cases v.settles_of_write reason hOk with
  | succeeds before after retries message found phase =>
      have hFound := Register.oldest_mem_visible (informed.found busy held found.2)
      obtain ⟨process, hProcess, hExit⟩ := exited.succeeded hFound phase
      exact ⟨_, process, hProcess, housed.served hFound hProcess, hExit⟩
  | fails after => exact absurd (state.symm.trans after) JobState.completed_ne_failed
  | retries before after => exact absurd (state.symm.trans after) JobState.completed_ne_pending
  | goesOn active =>
      rw [state] at active
      exact absurd JobState.terminal_completed active

/-- What the cluster does to a job keeps its success that of a process. -/
theorem cluster (exited : Exited v processes) (housed : Housed v processes) (sound : Sound v)
    (informed : Informed v) {a : World.Action}
    (alone : ∀ pod, a = .createPod pod → ∀ r, pod.key ≠ simulatorPodKey key r)
    (reported : ∀ r phase pod, a = .setPhase (simulatorPodKey key r) phase →
      (v.pods r).current = some pod → phase = .succeeded →
        ∃ process, processes pod.uid = some process ∧ process.exitCode = some 0)
    (h : Moves v a v') : Exited v' processes := by
  cases h with
  | elsewhere | setClock | start | quiet | finish => exact { exited with }
  | @create spec fresh =>
      have hJob := exited.setJob (some ⟨key.name, key.nameSpace, v.next, v.next, spec, .empty⟩)
        (by
          rintro _ ⟨⟩ hState
          exact absurd hState JobState.completed_ne_new.symm)
      exact { hJob with }
  | readJob waits read =>
      have hCurrent := Register.current_read read
      exact { exited with
        completed := fun hStored => exited.completed (hCurrent.symm.trans hStored) }
  | @readPod age job value register history next path waits held read =>
      exact { exited with
        succeeded := fun hMem => exited.succeeded (mem_servePod_visible read hMem) }
  | @created job history next reply answer path waits held free reported =>
      have hPod := @setPod setup key v processes exited job.status.retries
        (some { simulatorPod job with uid := v.next, phase := .pending })
        (by rintro _ ⟨⟩ ⟨⟩)
      exact { hPod with }
  | @deleted job pod stored history next reply answer path waits held named present reported =>
      have hStored : some stored ∈ (v.pods job.status.retries).visible :=
        present ▸ (v.pods job.status.retries).current_mem_visible
      have hExit := exited.succeeded hStored
      have hPod := @setPod setup key v processes exited job.status.retries
        (some { stored with deletionRequested := true })
        (by
          rintro _ ⟨⟩ hPhase
          exact hExit hPhase)
      exact { hPod with }
  | expired waits held present reported =>
      have hJob := exited.setJob none (by simp)
      exact { hJob with }
  | @updated job stored status history next reply answer path waits held present version
      reported =>
      have hReason := (site_of_busy path).reason held
      have hJob := exited.setJob (some
        { stored with status := status.stored, resourceVersion := v.next })
        (by
          rintro _ ⟨⟩ hState
          exact exited.update housed sound informed waits held hReason hState)
      exact { hJob with }
  | patched present =>
      apply exited.setJob
      rintro _ ⟨⟩ hState
      exact exited.completed present hState
  | @setPhase retries phase pod present =>
      apply exited.setPod
      rintro _ ⟨⟩ hPhase
      exact reported retries phase pod rfl present hPhase
  | createPod named free => exact absurd named (alone _ rfl _)
  | removePod present => exact exited.setPod (by simp)

end Exited
end Cluster.JobView

namespace Deployment
variable {d d' : Deployment setup} {job : QuantumAerJob}

/-- An exited process takes no further step. -/
theorem exited_of_resume {processes : Nat → Option (Process setup)} {uid : Nat}
    {process process' : Process setup} (busy : processes uid = some process)
    (running : process.running = true) {u : Nat} {other : Process setup} {code : Nat}
    (owned : processes u = some other) (exit : other.exitCode = some code) :
    Function.update processes uid (some process') u = some other := by
  have hu : u ≠ uid := by
    rintro rfl
    obtain rfl := Option.some.inj (busy.symm.trans owned)
    rw [Process.not_running_of_exitCode exit] at running
    cases running
  rw [Function.update_of_ne hu, owned]

/-- Success is that of a process, also when reconciles guess. -/
theorem exited_of_run (run : Reaches step Sourced Fresh d) (key : NamespacedName) :
    (d.world.view key).Exited d.processes := by
  have hAll : ∀ key, (d.world.view key).Exited d.processes := by
    apply run.invariant
    · intro s fresh key
      have hJob : (s.world.view key).job = .synced none := fresh.initial.world.jobs key
      constructor
      · intro r pod hMem
        exact absurd hMem (fresh.unused key r pod)
      · intro job hStored
        rw [hJob] at hStored
        cases hStored
    · intro s a t reached exited sourced stepped key
      have hSound := sound_of_run reached
      have hHoused := (hosted_of_run reached).housed key
      have hInformed := informed_of_run reached key
      cases (moves_of_step stepped).turns with
      | idle world processes =>
          rw [world, processes]
          exact exited key
      | cluster causes own reported stepped processes =>
          rw [processes]
          apply (exited key).cluster hHoused (hSound key) hInformed _ _
            (World.view_moves hSound stepped key)
          · rintro pod rfl r
            exact (sourced.issues causes key).alone pod rfl r
          · rintro r phase pod hAction hPod rfl
            exact succeeded_of_reports (reported _ _ pod hAction hPod)
      | @launched target retries pod present fresh live world processes =>
          rw [world, processes]
          apply (exited key).mono
          intro uid process code hProcess _
          have hUid : uid ≠ pod.uid := by
            rintro rfl
            rw [fresh] at hProcess
            cases hProcess
          rw [Function.update_of_ne hUid, hProcess]
      | resumed process' busy running same grown cleared world processes =>
          rw [world, processes]
          exact (exited key).mono fun _ _ _ => exited_of_resume busy running
      | patched process' busy running same grown cleared site stepped processes =>
          have hMoves := World.view_moves hSound stepped key
          have hExited := (exited key).cluster hHoused (hSound key) hInformed (by simp) (by simp)
            hMoves
          rw [processes]
          exact hExited.mono fun _ _ _ => exited_of_resume busy running
  exact hAll key

/-- A completed job has a simulator that has written its results. -/
theorem finished_of_exited (run : Reaches step Sourced Fresh d)
    (stored : (d.world.jobs key).current = some job)
    (completed : job.status.jobStatus = .completed) : d.Finished job.spec.jobID := by
  obtain ⟨uid, process, hProcess, hServes, hExit⟩ :=
    (exited_of_run run key).completed stored completed
  exact (finished_of_exit run stored hProcess hServes hExit).2

end Deployment
end QuantumService
