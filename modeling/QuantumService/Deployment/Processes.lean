import QuantumService.Cluster.Provenance
import QuantumService.Deployment.Moves
import QuantumService.Simulator.Environment

/-! The processes of a job. While the job is neither deleted nor failed, a process
that still runs is that of the stored attempt's pod, and once the job is completed
none runs any more. Until then a process that has cleared the message keeps it clear. -/
namespace QuantumService
open Interaction Cluster Controller Simulator World
variable {setup : Setup} {key : NamespacedName}

namespace Process
variable {process process' : Process setup}

/-- The process runs in the pod of an attempt of the job. -/
def Serves (process : Process setup) (key : NamespacedName) : Prop :=
  ∃ r, process.pod.key = simulatorPodKey key r

theorem serves_unique {other : NamespacedName} (serves : process.Serves key)
    (serves' : process.Serves other) : key = other := by
  obtain ⟨r, hr⟩ := serves
  obtain ⟨r', hr'⟩ := serves'
  exact (simulatorPodKey_injective (hr.symm.trans hr')).1

theorem not_running_of_exitCode {code : Nat} (exit : process.exitCode = some code) :
    process.running = false := by
  simp [running, exit]

theorem running_of_ask {pod : Pod} {history : History setup.aer} {call : Call setup.aer}
    {next : call.Answer → Script setup.aer Nat}
    {path : Program.Path (main setup.aer pod) history (.ask call next)} :
    (⟨pod, history, .ask call next, path, false⟩ : Process setup).running = true := rfl

/-- A process that exited with zero has cleared the message and stored results. -/
theorem succeeded (exit : process.exitCode = some 0) :
    Succeeded process.pod process.history := by
  obtain ⟨pod, history, rest, path, stopped⟩ := process
  cases rest with
  | done code =>
      have hCode : code = 0 := Option.some.inj exit
      exact (main_follows pod).result path hCode
  | ask call next => cases exit

theorem not_cleared_start (pod : Pod) : ¬ Cleared (start setup pod).history := by
  intro hCleared
  obtain ⟨key, hMem⟩ := hCleared.answered
  cases hMem

end Process

namespace Cluster.JobView
variable {v v' : JobView key} {processes : Nat → Option (Process setup)}

/-- The processes of a job agree with its status and its pods. -/
structure Accounted (v : JobView key) (processes : Nat → Option (Process setup)) : Prop where
  uncreated : ∀ {uid process}, ¬ v.created → processes uid = some process →
    ¬ process.Serves key
  succeeded : ∀ {r pod}, some pod ∈ (v.pods r).visible → pod.phase = .succeeded →
    ∃ process, processes pod.uid = some process ∧ process.exitCode = some 0
  failed : ∀ {r pod}, some pod ∈ (v.pods r).visible → pod.phase = .failed →
    ∃ process, processes pod.uid = some process ∧ process.running = false
  running : ∀ {uid process job}, processes uid = some process → process.Serves key →
    process.running = true → v.job.current = some job → job.status.jobStatus ≠ .failed →
    ∃ pod, (v.pods job.status.retries).current = some pod ∧ pod.deletionRequested = false ∧
      pod.uid = uid
  halted : ∀ {job pod}, v.job.current = some job → job.status.jobStatus = .completed →
    some pod ∈ (v.pods job.status.retries).visible →
    ∃ process, processes pod.uid = some process ∧ process.running = false
  cleared : ∀ {job pod process}, v.job.current = some job → job.status.jobStatus ≠ .failed →
    some pod ∈ (v.pods job.status.retries).visible → processes pod.uid = some process →
    Cleared process.history → job.status.errorMessage = ""
  completed : ∀ {job}, v.job.current = some job → job.status.jobStatus = .completed →
    job.status.errorMessage = "" ∧ ∃ uid process, processes uid = some process ∧
      process.Serves key ∧ process.exitCode = some 0

/-- What the processes are known to be, whatever the status says. -/
structure Housed (v : JobView key) (processes : Nat → Option (Process setup)) : Prop where
  fresh : ∀ {uid process}, processes uid = some process → uid < v.next
  served : ∀ {r pod process}, some pod ∈ (v.pods r).visible → processes pod.uid = some process →
    process.Serves key

/-- How a status update leaves the processes of the job accounted for. -/
inductive Settles (v : JobView key) (history : Controller.History) (job : QuantumAerJob)
    (status : QuantumAerJobStatus) : Prop where
  | fails (state : status.jobStatus = .failed)
  | succeeds {pod : Pod} (before : job.status.jobStatus = .progress)
      (state : status.jobStatus = .completed) (retries : status.retries = job.status.retries)
      (message : status.errorMessage = job.status.errorMessage) (found : PodFound history job pod)
      (phase : pod.phase = .succeeded)
  | retries {pod : Pod} (before : job.status.jobStatus = .progress)
      (state : status.jobStatus = .pending) (later : job.status.retries < status.retries)
      (deleted : PodDeleted history pod)
  | goesOn (state : ¬ status.jobStatus.Terminal) (retries : status.retries = job.status.retries)
      (message : status.errorMessage = job.status.errorMessage)

theorem settles_of_write {history : Controller.History} {job : QuantumAerJob}
    {status : QuantumAerJobStatus} (write : StatusWrite history job status)
    (ok : StatusOk job.name job.spec job.status) : v.Settles history job status := by
  cases write with
  | timedOut | giveUp => exact .fails rfl
  | begin checked state clock =>
      exact .goesOn JobState.not_terminal_pending (ok.untried state).1.symm rfl
  | recordPod checked state absent placed => exact .goesOn (by simp [state]) rfl rfl
  | markProgress checked state seen => exact .goesOn JobState.not_terminal_progress rfl rfl
  | backToPending checked state absent untouched =>
      exact .goesOn JobState.not_terminal_pending rfl rfl
  | retry checked state found phase left deleted =>
      have hLess := lt_add_one_of_lt left
      exact .retries state rfl hLess deleted
  | succeed checked state found phase clock => exact .succeeds state rfl rfl rfl found phase

namespace Accounted

/-- Another value of the pod of one attempt. -/
theorem setPod (accounted : Accounted v processes) {retries : Int32} {value : Option Pod}
    (phases : ∀ pod, value = some pod →
      (pod.phase = .succeeded →
        ∃ process, processes pod.uid = some process ∧ process.exitCode = some 0) ∧
      (pod.phase = .failed →
        ∃ process, processes pod.uid = some process ∧ process.running = false))
    (running : ∀ {uid process job}, processes uid = some process → process.Serves key →
      process.running = true → v.job.current = some job → job.status.jobStatus ≠ .failed →
      job.status.retries = retries →
      ∃ pod, value = some pod ∧ pod.deletionRequested = false ∧ pod.uid = uid)
    (halted : ∀ {job pod}, v.job.current = some job → job.status.jobStatus = .completed →
      job.status.retries = retries → value = some pod →
      ∃ process, processes pod.uid = some process ∧ process.running = false)
    (cleared : ∀ {job pod process}, v.job.current = some job → job.status.jobStatus ≠ .failed →
      job.status.retries = retries → value = some pod → processes pod.uid = some process →
      Cleared process.history → job.status.errorMessage = "") :
    Accounted (v.setPod retries value) processes where
  uncreated := accounted.uncreated
  succeeded := by
    intro r pod hMem hPhase
    rcases mem_setPod_visible hMem with ⟨-, hNew⟩ | hOld
    · exact (phases pod hNew).1 hPhase
    · exact accounted.succeeded hOld hPhase
  failed := by
    intro r pod hMem hPhase
    rcases mem_setPod_visible hMem with ⟨-, hNew⟩ | hOld
    · exact (phases pod hNew).2 hPhase
    · exact accounted.failed hOld hPhase
  running := by
    intro uid process job hProcess hServes hRunning hStored hState
    by_cases hr : job.status.retries = retries
    · obtain ⟨pod, hPod, hLive, hUid⟩ := running hProcess hServes hRunning hStored hState hr
      exact ⟨pod, by rw [hr, setPod_pods_self, hPod]; rfl, hLive, hUid⟩
    · rw [setPod_pods_of_ne v hr]
      exact accounted.running hProcess hServes hRunning hStored hState
  halted := by
    intro job pod hStored hState hMem
    rcases mem_setPod_visible hMem with ⟨hr, hNew⟩ | hOld
    · exact halted hStored hState hr hNew
    · exact accounted.halted hStored hState hOld
  cleared := by
    intro job pod process hStored hState hMem hProcess hCleared
    rcases mem_setPod_visible hMem with ⟨hr, hNew⟩ | hOld
    · exact cleared hStored hState hr hNew hProcess hCleared
    · exact accounted.cleared hStored hState hOld hProcess hCleared
  completed := accounted.completed

/-- Another version of the same pod. -/
theorem setSame (accounted : Accounted v processes) {retries : Int32} {stored : Pod}
    (present : (v.pods retries).current = some stored) (pod : Pod) (same : pod.uid = stored.uid)
    (phases : (pod.phase = .succeeded →
        ∃ process, processes pod.uid = some process ∧ process.exitCode = some 0) ∧
      (pod.phase = .failed →
        ∃ process, processes pod.uid = some process ∧ process.running = false))
    (running : ∀ {process job}, processes stored.uid = some process → process.Serves key →
      process.running = true → v.job.current = some job → job.status.jobStatus ≠ .failed →
      job.status.retries = retries → pod.deletionRequested = stored.deletionRequested) :
    Accounted (v.setPod retries (some pod)) processes := by
  have hMem : some stored ∈ (v.pods retries).visible :=
    present ▸ (v.pods retries).current_mem_visible
  apply accounted.setPod
  · rintro _ ⟨⟩
    exact phases
  · intro uid process job hProcess hServes hRunning hStored hState hr
    obtain ⟨current, hCurrent, hLive, rfl⟩ :=
      accounted.running hProcess hServes hRunning hStored hState
    rw [hr, present, Option.some.injEq] at hCurrent
    subst hCurrent
    exact ⟨pod, rfl, (running hProcess hServes hRunning hStored hState hr).trans hLive, same⟩
  · rintro job _ hStored hState rfl ⟨⟩
    rw [same]
    exact accounted.halted hStored hState hMem
  · rintro job _ process hStored hState rfl ⟨⟩ hProcess
    rw [same] at hProcess
    exact accounted.cleared hStored hState hMem hProcess

/-- Serving a pod from the cache. -/
theorem servePod (accounted : Accounted v processes) {retries : Int32} {age : Nat}
    {value : Option Pod} {register : Register Pod}
    (read : (v.pods retries).read age = some (value, register)) :
    Accounted (v.servePod retries register) processes where
  uncreated := accounted.uncreated
  succeeded := fun hMem => accounted.succeeded (mem_servePod_visible read hMem)
  failed := fun hMem => accounted.failed (mem_servePod_visible read hMem)
  running := by
    intro uid process job hProcess hServes hRunning hStored hState
    rw [servePod_pods_current read]
    exact accounted.running hProcess hServes hRunning hStored hState
  halted := fun hStored hState hMem =>
    accounted.halted hStored hState (mem_servePod_visible read hMem)
  cleared := fun hStored hState hMem =>
    accounted.cleared hStored hState (mem_servePod_visible read hMem)
  completed := accounted.completed

/-- The pod a reconcile creates has no process yet. -/
theorem create (accounted : Accounted v processes) (housed : Housed v processes)
    (sound : Sound v) {worker : Worker key} {job : QuantumAerJob}
    (busy : v.worker = some worker) (held : readJob worker.history = some job)
    (state : job.status.jobStatus = .pending)
    (free : (v.pods job.status.retries).current = none) {pod : Pod} (uid : pod.uid = v.next)
    (phase : pod.phase = .pending) :
    Accounted (v.setPod job.status.retries (some pod)) processes := by
  have hNone : ∀ {process}, processes pod.uid ≠ some process := by
    intro process hProcess
    have hFresh := housed.fresh hProcess
    omega
  have hOpen : ∀ {stored}, v.job.current = some stored →
      stored.status.jobStatus ≠ .completed := by
    intro stored hStored hState
    rcases sound.versions.newer_of_held (sound.held busy held)
      (hStored ▸ v.job.current_mem_visible) with rfl | hSucceeds
    · rw [state] at hState
      exact absurd hState.symm JobState.completed_ne_pending
    · exact hSucceeds.not_completed state hState
  apply accounted.setPod
  · rintro _ ⟨⟩
    rw [phase]
    exact ⟨fun hPhase => (nomatch hPhase), fun hPhase => (nomatch hPhase)⟩
  · intro uid process stored hProcess hServes hRunning hStored hState hr
    obtain ⟨current, hCurrent, -⟩ := accounted.running hProcess hServes hRunning hStored hState
    rw [hr, free] at hCurrent
    cases hCurrent
  · intro stored _ hStored hState
    exact absurd hState (hOpen hStored)
  · rintro stored _ process hStored hState hr ⟨⟩ hProcess
    exact absurd hProcess hNone

/-- A job that is stored anew or no more. -/
theorem setJob (accounted : Accounted v processes) (value : Option QuantumAerJob)
    (running : ∀ {uid process job}, processes uid = some process → process.Serves key →
      process.running = true → value = some job → job.status.jobStatus ≠ .failed →
      ∃ pod, (v.pods job.status.retries).current = some pod ∧ pod.deletionRequested = false ∧
        pod.uid = uid)
    (halted : ∀ {job pod}, value = some job → job.status.jobStatus = .completed →
      some pod ∈ (v.pods job.status.retries).visible →
      ∃ process, processes pod.uid = some process ∧ process.running = false)
    (cleared : ∀ {job pod process}, value = some job → job.status.jobStatus ≠ .failed →
      some pod ∈ (v.pods job.status.retries).visible → processes pod.uid = some process →
      Cleared process.history → job.status.errorMessage = "")
    (completed : ∀ {job}, value = some job → job.status.jobStatus = .completed →
      job.status.errorMessage = "" ∧ ∃ uid process, processes uid = some process ∧
        process.Serves key ∧ process.exitCode = some 0) :
    Accounted { v.setJob value with created := True } processes where
  uncreated := fun hFresh => absurd trivial hFresh
  succeeded := accounted.succeeded
  failed := accounted.failed
  running := running
  halted := halted
  cleared := cleared
  completed := completed

/-- A status update of the controller. -/
theorem update (accounted : Accounted v processes) (housed : Housed v processes)
    (sound : Sound v) (steady : Steady v) (informed : Informed v) (single : SingleAttempt v)
    {worker : Worker key} {job : QuantumAerJob} {status : QuantumAerJobStatus} (version : Nat)
    (busy : v.worker = some worker) (held : readJob worker.history = some job)
    (present : v.job.current = some job) (settles : v.Settles worker.history job status)
    (active : ¬ job.status.jobStatus.Terminal) :
    Accounted { v.setJob (some
      { job with status := status.stored, resourceVersion := version }) with created := True }
      processes := by
  have hMem := sound.held_visible busy held
  have hActive : job.status.jobStatus ≠ .failed := by
    intro hFailed
    rw [hFailed] at active
    exact active JobState.terminal_failed
  cases settles with
  | fails state =>
      apply accounted.setJob
      · rintro uid process _ _ _ _ ⟨⟩ hState
        exact absurd state hState
      · rintro _ pod ⟨⟩ hState
        exact absurd (state.symm.trans hState) JobState.failed_ne_completed
      · rintro _ pod process ⟨⟩ hState
        exact absurd state hState
      · rintro _ ⟨⟩ hState
        exact absurd (state.symm.trans hState) JobState.failed_ne_completed
  | @succeeds pod before state retries message found phase =>
      have hOldest := informed.found busy held found.2
      have hFound := Register.oldest_mem_visible hOldest
      have hOne := steady.progress hMem before
      have hSame : ∀ {other}, some other ∈ (v.pods job.status.retries).visible →
          other.uid = pod.uid := fun hOther => hOne.same hOther hFound
      obtain ⟨process, hProcess, hExit⟩ := accounted.succeeded hFound phase
      have hStopped := Process.not_running_of_exitCode hExit
      have hMessage := accounted.cleared present hActive hFound hProcess
        (Process.succeeded hExit).cleared
      have hRunning : ∀ {uid other}, processes uid = some other → other.Serves key →
          other.running ≠ true := by
        intro uid other hOther hServes hRuns
        obtain ⟨current, hCurrent, -, rfl⟩ :=
          accounted.running hOther hServes hRuns present hActive
        rw [hSame (hCurrent ▸ (v.pods job.status.retries).current_mem_visible), hProcess] at hOther
        cases hOther
        rw [hStopped] at hRuns
        cases hRuns
      apply accounted.setJob
      · rintro uid other _ hOther hServes hRuns ⟨⟩
        exact absurd hRuns (hRunning hOther hServes)
      · rintro _ other ⟨⟩ _ hOther
        have hVisible : some other ∈ (v.pods status.retries).visible := hOther
        rw [retries] at hVisible
        rw [hSame hVisible]
        exact ⟨process, hProcess, hStopped⟩
      · rintro _ other _ ⟨⟩ _ _ _ _
        exact message.trans hMessage
      · rintro _ ⟨⟩ _
        exact ⟨message.trans hMessage, _, process, hProcess, housed.served hFound hProcess, hExit⟩
  | @retries pod before state later deleted =>
      have hDead := single.deleted busy held before deleted
      have hUnused := steady.ahead present later
      apply accounted.setJob
      · rintro uid process _ hProcess hServes hRunning ⟨⟩ _
        obtain ⟨current, hCurrent, hLive, -⟩ :=
          accounted.running hProcess hServes hRunning present hActive
        exact absurd ⟨current, hCurrent, hLive⟩ hDead
      · rintro _ other ⟨⟩ hState
        exact absurd (state.symm.trans hState) JobState.completed_ne_pending.symm
      · rintro _ other process ⟨⟩ _ hOther
        exact absurd hOther (hUnused other)
      · rintro _ ⟨⟩ hState
        exact absurd (state.symm.trans hState) JobState.completed_ne_pending.symm
  | goesOn state retries message =>
      have hOpen : status.jobStatus ≠ .completed := by
        intro hState
        rw [hState] at state
        exact state JobState.terminal_completed
      apply accounted.setJob
      · rintro uid process _ hProcess hServes hRunning ⟨⟩ _
        have hPod := accounted.running hProcess hServes hRunning present hActive
        rw [← retries] at hPod
        exact hPod
      · rintro _ other ⟨⟩ hState
        exact absurd hState hOpen
      · rintro _ other process ⟨⟩ _ hOther hProcess hCleared
        have hVisible : some other ∈ (v.pods status.retries).visible := hOther
        rw [retries] at hVisible
        exact message.trans (accounted.cleared present hActive hVisible hProcess hCleared)
      · rintro _ ⟨⟩ hState
        exact absurd hState hOpen

/-- A pod is deleted only when its process has ended, or the job has. -/
theorem ended_of_delete (accounted : Accounted v processes) (sound : Sound v) (steady : Steady v)
    (informed : Informed v) {history : Controller.History} {job current : QuantumAerJob}
    {pod stored : Pod} {next : Except ApiError Unit → Reconciler Outcome}
    {path : Program.Path (reconcile key) history (.ask (.write (.deletePod pod)) next)}
    {process : Process setup} (waits : v.Waits history (.write (.deletePod pod)) next path)
    (held : readJob history = some job)
    (present : (v.pods job.status.retries).current = some stored)
    (owned : processes stored.uid = some process) (current_job : v.job.current = some current)
    (state : current.status.jobStatus ≠ .failed)
    (number : current.status.retries = job.status.retries) : process.running = false := by
  have hMem := sound.held_visible waits held
  have hStored : some stored ∈ (v.pods job.status.retries).visible :=
    present ▸ (v.pods job.status.retries).current_mem_visible
  obtain ⟨job', hRead, hFound, hActive⟩ := (site_of_busy path).deletePod_inv
  obtain rfl := Option.some.inj (held.symm.trans hRead)
  rcases hActive with ⟨hProgress, -⟩ | hTerminal
  · have hPhase := (site_of_busy path).deletePod_phase held hProgress
    have hVisible := Register.oldest_mem_visible (informed.found waits held hFound.2)
    obtain ⟨other, hOther, hEnded⟩ := accounted.failed hVisible hPhase
    rw [(steady.progress hMem hProgress).same hVisible hStored, owned] at hOther
    cases hOther
    exact hEnded
  · have hCompleted : current.status.jobStatus = .completed := by
      have hCurrent : current.status.jobStatus.Terminal := by
        rcases sound.versions.newer_of_held (sound.held waits held)
          (current_job ▸ v.job.current_mem_visible) with rfl | hSucceeds
        · exact hTerminal
        · exact hSucceeds.terminal hTerminal
      exact hCurrent.resolve_right state
    rw [← number] at hStored
    obtain ⟨other, hOther, hEnded⟩ := accounted.halted current_job hCompleted hStored
    rw [owned] at hOther
    cases hOther
    exact hEnded

theorem log (accounted : Accounted v processes) (write : Write) :
    Accounted (v.log write) processes :=
  { accounted with }

theorem setWorker (accounted : Accounted v processes) (worker : Option (Worker key)) :
    Accounted (v.setWorker worker) processes :=
  { accounted with }

/-- What the cluster does to a job leaves its processes accounted for, apart from the
patches, which are theirs. -/
theorem cluster (accounted : Accounted v processes) (housed : Housed v processes)
    (sound : Sound v) (steady : Steady v) (informed : Informed v) (single : SingleAttempt v)
    {a : World.Action} (alone : ∀ pod, a = .createPod pod → ∀ r, pod.key ≠ simulatorPodKey key r)
    (removed : ∀ r pod, a = .removePod (simulatorPodKey key r) →
      (v.pods r).current = some pod → pod.deletionRequested = true)
    (reported : ∀ r phase pod, a = .setPhase (simulatorPodKey key r) phase →
      (v.pods r).current = some pod →
      (phase = .succeeded →
        ∃ process, processes pod.uid = some process ∧ process.exitCode = some 0) ∧
      (phase = .failed →
        ∃ process, processes pod.uid = some process ∧ process.running = false))
    (own : ∀ message, a ≠ .patchError key message) (h : Moves v a v') :
    Accounted v' processes := by
  cases h with
  | elsewhere | setClock | finish => exact { accounted with }
  | start => exact accounted.setWorker _
  | create fresh =>
      have hNone : ∀ {uid process}, processes uid = some process → ¬ process.Serves key :=
        fun hProcess => accounted.uncreated fresh hProcess
      apply accounted.setJob
      · intro uid process job hProcess hServes
        exact absurd hServes (hNone hProcess)
      · rintro _ pod ⟨⟩ hState
        exact absurd hState JobState.completed_ne_new.symm
      · rintro _ pod process ⟨⟩ _ hMem
        exact absurd hMem (steady.uncreated fresh _ pod)
      · rintro _ ⟨⟩ hState
        exact absurd hState JobState.completed_ne_new.symm
  | readJob waits read =>
      have hCurrent := Register.current_read read
      exact { accounted with
        running := fun hProcess hServes hRunning hStored =>
          accounted.running hProcess hServes hRunning (hCurrent.symm.trans hStored)
        halted := fun hStored => accounted.halted (hCurrent.symm.trans hStored)
        cleared := fun hStored => accounted.cleared (hCurrent.symm.trans hStored)
        completed := fun hStored => accounted.completed (hCurrent.symm.trans hStored) }
  | readPod waits held read => exact (accounted.servePod read).setWorker _
  | @created job history next reply answer path waits held free reported =>
      obtain ⟨job', hRead, hState, -, -⟩ := (site_of_busy path).createPod_inv
      obtain rfl : job = job' := Option.some.inj (held.symm.trans hRead)
      exact ((accounted.create housed sound waits held hState free rfl rfl).log _).setWorker _
  | @deleted job pod stored history next reply answer path waits held named present reported =>
      have hStored : some stored ∈ (v.pods job.status.retries).visible :=
        present ▸ (v.pods job.status.retries).current_mem_visible
      have hPhases := And.intro (accounted.succeeded hStored) (accounted.failed hStored)
      have hPods : Accounted (v.setPod job.status.retries
          (some { stored with deletionRequested := true })) processes := by
        apply accounted.setSame present { stored with deletionRequested := true } rfl
        · exact hPhases
        · intro process current hProcess hServes hRunning hCurrent hState hNumber
          have hEnded := accounted.ended_of_delete sound steady informed waits held present
            hProcess hCurrent hState hNumber
          rw [hRunning] at hEnded
          cases hEnded
      exact (hPods.log _).setWorker _
  | @expired job stored history next reply answer path waits held present reported =>
      have hJob := accounted.setJob none
        (by rintro _ _ _ _ _ _ ⟨⟩) (by rintro _ _ ⟨⟩) (by rintro _ _ _ ⟨⟩) (by rintro _ ⟨⟩)
      have hCreated := sound.versions.created_of_stored (sound.held_visible waits held)
      rw [← eq_true hCreated] at hJob
      exact (hJob.log _).setWorker _
  | @updated job stored status history next reply answer path waits held present version
      reported =>
      obtain ⟨rfl, -⟩ := sound.versions.eq_of_version (sound.held waits held) present version
      have hMem := sound.held_visible waits held
      have hReason := (site_of_busy path).reason held
      have hOk := sound.versions.ok hMem
      have hJob := accounted.update housed sound steady informed single v.next waits held present
        (settles_of_write hReason hOk) (hReason.advance hOk).active
      rw [← eq_true (sound.versions.created_of_stored hMem)] at hJob
      exact (hJob.log _).setWorker _
  | quiet => exact accounted.setWorker _
  | patched => exact absurd rfl (own _)
  | @setPhase retries phase pod present =>
      exact accounted.setSame present _ rfl (reported retries phase pod rfl present)
        fun _ _ _ _ _ _ => rfl
  | createPod named free => exact absurd named (alone _ rfl _)
  | @removePod retries pod present =>
      apply accounted.setPod
      · rintro _ ⟨⟩
      · intro uid process job hProcess hServes hRunning hStored hState hr
        obtain ⟨current, hCurrent, hLive, -⟩ :=
          accounted.running hProcess hServes hRunning hStored hState
        rw [hr] at hCurrent
        rw [removed retries current rfl hCurrent] at hLive
        cases hLive
      · rintro job pod' _ _ _ ⟨⟩
      · rintro job pod' process _ _ _ ⟨⟩

/-- A running process goes on, or ends. -/
theorem resume (accounted : Accounted v processes) {uid : Nat}
    {process process' : Process setup} (busy : processes uid = some process)
    (running : process.running = true) (same : process'.pod = process.pod)
    (cleared : ∀ {job r pod}, v.job.current = some job → job.status.jobStatus ≠ .failed →
      some pod ∈ (v.pods r).visible → pod.uid = uid → Cleared process'.history →
      Cleared process.history ∨ job.status.errorMessage = "") :
    Accounted v (Function.update processes uid (some process')) := by
  have hServes : ∀ {other}, process'.Serves other → process.Serves other := by
    rintro other ⟨r, hr⟩
    exact ⟨r, same ▸ hr⟩
  have hEnded : ∀ {u other}, processes u = some other → other.running = false →
      Function.update processes uid (some process') u = some other := by
    intro u other hOther hStopped
    have hu : u ≠ uid := by
      rintro rfl
      rw [busy] at hOther
      cases hOther
      rw [running] at hStopped
      cases hStopped
    rw [Function.update_of_ne hu, hOther]
  exact {
    uncreated := by
      intro u other hFresh hOther hOtherServes
      rcases update_cases hOther with ⟨rfl, rfl⟩ | hOld
      · exact accounted.uncreated hFresh busy (hServes hOtherServes)
      · exact accounted.uncreated hFresh hOld hOtherServes
    succeeded := by
      intro r pod hMem hPhase
      obtain ⟨other, hOther, hExit⟩ := accounted.succeeded hMem hPhase
      exact ⟨other, hEnded hOther (Process.not_running_of_exitCode hExit), hExit⟩
    failed := by
      intro r pod hMem hPhase
      obtain ⟨other, hOther, hStopped⟩ := accounted.failed hMem hPhase
      exact ⟨other, hEnded hOther hStopped, hStopped⟩
    running := by
      intro u other job hOther hOtherServes hRunning hStored hState
      rcases update_cases hOther with ⟨rfl, rfl⟩ | hOld
      · exact accounted.running busy (hServes hOtherServes) running hStored hState
      · exact accounted.running hOld hOtherServes hRunning hStored hState
    halted := by
      intro job pod hStored hState hMem
      obtain ⟨other, hOther, hStopped⟩ := accounted.halted hStored hState hMem
      exact ⟨other, hEnded hOther hStopped, hStopped⟩
    cleared := by
      intro job pod other hStored hState hMem hOther hCleared
      rcases update_cases hOther with ⟨hUid, rfl⟩ | hOld
      · rcases cleared hStored hState hMem hUid hCleared with hBefore | hMessage
        · rw [← hUid] at busy
          exact accounted.cleared hStored hState hMem busy hBefore
        · exact hMessage
      · exact accounted.cleared hStored hState hMem hOld hCleared
    completed := by
      intro job hStored hState
      obtain ⟨hMessage, u, other, hOther, hOtherServes, hExit⟩ :=
        accounted.completed hStored hState
      exact ⟨hMessage, u, other, hEnded hOther (Process.not_running_of_exitCode hExit),
        hOtherServes, hExit⟩ }

/-- A container is started: of the stored attempt's pod, or of another job's. -/
theorem launch (accounted : Accounted v processes) {pod : Pod} (fresh : processes pod.uid = none)
    (created : (Process.start setup pod).Serves key → v.created)
    (running : ∀ {job}, (Process.start setup pod).Serves key → v.job.current = some job →
      (v.pods job.status.retries).current = some pod ∧ pod.deletionRequested = false) :
    Accounted v (Function.update processes pod.uid (some (.start setup pod))) := by
  have hKept : ∀ {u other}, processes u = some other →
      Function.update processes pod.uid (some (.start setup pod)) u = some other := by
    intro u other hOther
    have hu : u ≠ pod.uid := by
      rintro rfl
      rw [fresh] at hOther
      cases hOther
    rw [Function.update_of_ne hu, hOther]
  exact {
    uncreated := by
      intro u process hFresh hProcess hServes
      rcases update_cases hProcess with ⟨rfl, rfl⟩ | hOld
      · exact hFresh (created hServes)
      · exact accounted.uncreated hFresh hOld hServes
    succeeded := by
      intro r other hOther hPhase
      obtain ⟨process, hProcess, hExit⟩ := accounted.succeeded hOther hPhase
      exact ⟨process, hKept hProcess, hExit⟩
    failed := by
      intro r other hOther hPhase
      obtain ⟨process, hProcess, hEnded⟩ := accounted.failed hOther hPhase
      exact ⟨process, hKept hProcess, hEnded⟩
    running := by
      intro u process job hProcess hServes hRunning hStored hState
      rcases update_cases hProcess with ⟨rfl, rfl⟩ | hOld
      · obtain ⟨hPresent, hLive⟩ := running hServes hStored
        exact ⟨pod, hPresent, hLive, rfl⟩
      · exact accounted.running hOld hServes hRunning hStored hState
    halted := by
      intro job other hStored hState hOther
      obtain ⟨process, hProcess, hEnded⟩ := accounted.halted hStored hState hOther
      exact ⟨process, hKept hProcess, hEnded⟩
    cleared := by
      intro job other process hStored hState hOther hProcess hCleared
      rcases update_cases hProcess with ⟨-, rfl⟩ | hOld
      · exact absurd hCleared (Process.not_cleared_start pod)
      · exact accounted.cleared hStored hState hOther hOld hCleared
    completed := by
      intro job hStored hState
      obtain ⟨hMessage, u, process, hProcess, hServes, hExit⟩ :=
        accounted.completed hStored hState
      exact ⟨hMessage, u, process, hKept hProcess, hServes, hExit⟩ }

/-- Another message, which every process that has cleared it agrees with. -/
theorem setMessage (accounted : Accounted v processes) {stored : QuantumAerJob}
    (present : v.job.current = some stored) (message : String) (version : Nat)
    (cleared : ∀ {pod process}, stored.status.jobStatus ≠ .failed →
      some pod ∈ (v.pods stored.status.retries).visible → processes pod.uid = some process →
      Cleared process.history → message = "")
    (completed : stored.status.jobStatus = .completed → message = "") :
    Accounted (v.setJob (some { stored with
      status := { stored.status with errorMessage := message }, resourceVersion := version }))
      processes where
  uncreated := accounted.uncreated
  succeeded := accounted.succeeded
  failed := accounted.failed
  running := by
    rintro uid process _ hProcess hServes hRunning ⟨⟩ hState
    have hPod := accounted.running hProcess hServes hRunning present hState
    exact hPod
  halted := by
    rintro _ pod ⟨⟩ hState hMem
    have hEnded := accounted.halted present hState hMem
    exact hEnded
  cleared := by
    rintro _ pod process ⟨⟩ hState hMem hProcess hCleared
    exact cleared hState hMem hProcess hCleared
  completed := by
    rintro _ ⟨⟩ hState
    exact ⟨completed hState, (accounted.completed present hState).2⟩

/-- A running process of the job patches its message. -/
theorem patch (accounted : Accounted v processes) (sound : Sound v) (steady : Steady v)
    {uid : Nat} {process process' : Process setup} {stored : QuantumAerJob} {message : String}
    (busy : processes uid = some process) (running : process.running = true)
    (serves : process.Serves key) (same : process'.pod = process.pod)
    (patched : Cleared process'.history → message = "") (present : v.job.current = some stored)
    (version : Nat) :
    Accounted (v.setJob (some { stored with
      status := { stored.status with errorMessage := message }, resourceVersion := version }))
      (Function.update processes uid (some process')) := by
  by_cases hMessage : message = ""
  · subst hMessage
    have hJob := accounted.setMessage present "" version (fun _ _ _ _ => rfl) fun _ => rfl
    apply hJob.resume busy running same
    rintro _ r pod ⟨⟩ _ _ _ _
    exact .inr rfl
  · have hDirty : ¬ Cleared process'.history := fun hCleared => hMessage (patched hCleared)
    have hResumed := accounted.resume busy running same
      fun _ _ _ _ hCleared => absurd hCleared hDirty
    have hOpen : stored.status.jobStatus ≠ .failed → ¬ stored.status.jobStatus.Terminal ∧
        ∀ {pod}, some pod ∈ (v.pods stored.status.retries).visible → pod.uid = uid := by
      intro hState
      obtain ⟨current, hCurrent, -, rfl⟩ :=
        accounted.running busy serves running present hState
      have hVisible := hCurrent ▸ (v.pods stored.status.retries).current_mem_visible
      have hActive : ¬ stored.status.jobStatus.Terminal := by
        intro hTerminal
        obtain ⟨other, hOther, hEnded⟩ :=
          accounted.halted present (hTerminal.resolve_right hState) hVisible
        rw [busy] at hOther
        cases hOther
        rw [running] at hEnded
        cases hEnded
      exact ⟨hActive, fun hMem => steady.same_pod sound present hActive hMem hVisible⟩
    apply hResumed.setMessage present message version
    · intro pod other hState hMem hOther hCleared
      rw [(hOpen hState).2 hMem, Function.update_self] at hOther
      cases hOther
      exact patched hCleared
    · intro hState
      have hActive := (hOpen (by rw [hState]; exact JobState.completed_ne_failed)).1
      rw [hState] at hActive
      exact absurd JobState.terminal_completed hActive

end Accounted
end Cluster.JobView
end QuantumService
