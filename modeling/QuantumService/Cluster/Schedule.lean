import QuantumService.Cluster.Lifecycle
import QuantumService.Controller.Deadline

/-! The times of a job against the instant of its submission. A job that starts then
and completes by its deadline is deleted no later than its time out and its TTL
together allow. -/
namespace QuantumService.Cluster
open Interaction Controller World

namespace JobView
variable {key : NamespacedName} {v v' : JobView key} {submitted submitted' : String → Int}

/-- The status update its reconcile waits for, with the version it would replace. -/
def pendingUpdate (v : JobView key) : Option (QuantumAerJob × QuantumAerJob) :=
  match v.worker with
  | some ⟨_, .ask (.write (.updateStatus update)) _, _⟩ =>
      v.job.current.bind fun stored =>
        if stored.resourceVersion = update.resourceVersion then some (stored, update) else none
  | _ => none

theorem pendingUpdate_of_waits {stored update : QuantumAerJob} {history : History}
    {next : Except ApiError Unit → Reconciler Outcome}
    {path : Program.Path (reconcile key) history (.ask (.write (.updateStatus update)) next)}
    (waits : v.Waits history (.write (.updateStatus update)) next path)
    (present : v.job.current = some stored)
    (version : stored.resourceVersion = update.resourceVersion) :
    v.pendingUpdate = some (stored, update) := by
  rw [Waits] at waits
  simp [pendingUpdate, waits, present, version]

/-- The stored job started no later than it was submitted. A completed one was
completed by its deadline, and is not kept for longer than its TTL. -/
structure Scheduled (v : JobView key) (submitted : String → Int) : Prop where
  started : ∀ {job s}, v.job.current = some job → job.status.startTime = some s →
    s ≤ submitted job.spec.jobID
  ended : ∀ {job}, v.job.current = some job → job.status.jobStatus = .completed →
    ∃ s c, job.status.startTime = some s ∧ job.status.completionTime = some c ∧
      c ≤ deadline s job.spec.timeOut ∧ ∀ ttl, job.spec.ttlSecondsAfterFinished = some ttl →
        v.clock ≤ deadline s job.spec.timeOut + max 0 (ttl.toInt * second)

/-- How a status update that takes effect keeps to the times. -/
structure InStep (v : JobView key) (submitted : String → Int) (stored update : QuantumAerJob) :
    Prop where
  starts : stored.status.startTime = none →
    update.status.startTime = some (submitted stored.spec.jobID)
  completes : update.status.jobStatus = .completed → ∀ s, stored.status.startTime = some s →
    v.clock ≤ deadline s stored.spec.timeOut

namespace Scheduled

/-- A step that keeps the stored job and the clock. -/
theorem keep (scheduled : Scheduled v submitted) (current : v'.job.current = v.job.current)
    (clock : v'.clock = v.clock) (later : ∀ id, submitted id ≤ submitted' id) :
    Scheduled v' submitted' where
  started := by
    intro job s hStored hStart
    rw [current] at hStored
    exact Int.le_trans (scheduled.started hStored hStart) (later _)
  ended := by
    intro job hStored hState
    rw [current] at hStored
    rw [clock]
    exact scheduled.ended hStored hState

theorem setJob {value : Option QuantumAerJob}
    (started : ∀ job s, value = some job → job.status.startTime = some s →
      s ≤ submitted job.spec.jobID)
    (ended : ∀ job, value = some job → job.status.jobStatus = .completed →
      ∃ s c, job.status.startTime = some s ∧ job.status.completionTime = some c ∧
        c ≤ deadline s job.spec.timeOut ∧ ∀ ttl, job.spec.ttlSecondsAfterFinished = some ttl →
          v.clock ≤ deadline s job.spec.timeOut + max 0 (ttl.toInt * second)) :
    Scheduled (v.setJob value) submitted where
  started := fun hStored => started _ _ hStored
  ended := fun hStored => ended _ hStored

/-- Time passes up to the instant the TTL passes. -/
theorem setClock (scheduled : Scheduled v submitted) {now : Int}
    (deletes : ∀ job c ttl, v.job.current = some job → job.status.completionTime = some c →
      job.spec.ttlSecondsAfterFinished = some ttl → now ≤ c + ttl.toInt * second) :
    Scheduled { v with clock := now } submitted where
  started := scheduled.started
  ended := by
    intro job hStored hState
    obtain ⟨s, c, hStart, hCompletion, hInTime, -⟩ := scheduled.ended hStored hState
    refine ⟨s, c, hStart, hCompletion, hInTime, fun ttl hTtl => ?_⟩
    have hNow := deletes job c ttl hStored hCompletion hTtl
    show now ≤ _
    omega

/-- A status update that takes effect. -/
theorem update (scheduled : Scheduled v submitted) (sound : Sound v) (timely : Timely v)
    {worker : Worker key} {job : QuantumAerJob} {status : QuantumAerJobStatus} (version : Nat)
    (busy : v.worker = some worker) (held : readJob worker.history = some job)
    (present : v.job.current = some job) (reason : StatusWrite worker.history job status)
    (inStep : v.InStep submitted job (job.withStatus status)) :
    Scheduled (v.setJob (some { job with status := status.stored, resourceVersion := version }))
      submitted := by
  have hOk := sound.versions.ok (sound.held_visible busy held)
  have hProgress := Advance.progresses hOk (reason.advance hOk)
  have hStarts := inStep.starts
  have hCompletes := inStep.completes
  apply setJob
  · rintro _ s ⟨⟩ hStart
    cases hBefore : job.status.startTime with
    | none =>
        have hUpdate : status.startTime = some (submitted job.spec.jobID) := hStarts hBefore
        have hTime : status.startTime.map storedTime = some s := hStart
        rw [hUpdate, Option.map_some, Option.some.injEq] at hTime
        rw [← hTime]
        exact storedTime_le _
    | some s' =>
        have hSame : status.stored.startTime = job.status.startTime :=
          hProgress.startTime (by simp [hBefore])
        have hStarted : s ≤ submitted job.spec.jobID :=
          scheduled.started present (hSame.symm.trans hStart)
        exact hStarted
  · rintro _ ⟨⟩ hState
    have hCompleted : status.jobStatus = .completed := hState
    cases reason with
    | @succeed pod now checked state found phase clock =>
        have hRunning : job.status.startTime ≠ none := by
          rw [Ne, hOk.started, state]
          exact JobState.progress_ne_new
        obtain ⟨s, hStart⟩ := Option.ne_none_iff_exists'.mp hRunning
        have hClock : v.clock ≤ deadline s job.spec.timeOut := hCompletes hCompleted s hStart
        have hNow := Int.le_trans (storedTime_le now) (timely.past busy clock)
        refine ⟨s, storedTime now, ?_, rfl, Int.le_trans hNow hClock, fun ttl _ => ?_⟩
        · rw [← hStart]
          exact hProgress.startTime (by simp [hStart])
        · show v.clock ≤ deadline s job.spec.timeOut + _
          omega
    | timedOut | giveUp => exact absurd hCompleted JobState.completed_ne_failed.symm
    | begin | backToPending | retry => exact absurd hCompleted JobState.completed_ne_pending.symm
    | recordPod checked state =>
        exact absurd (state.symm.trans hCompleted) JobState.completed_ne_pending.symm
    | markProgress => exact absurd hCompleted JobState.completed_ne_progress.symm

/-- Every move keeps a job to its schedule. -/
theorem step (scheduled : Scheduled v submitted) (sound : Sound v) (timely : Timely v)
    {a : Action} (inStep : ∀ reply stored update, a = .answer key reply → reply.applied = true →
      v.pendingUpdate = some (stored, update) → v.InStep submitted stored update)
    (deletes : ∀ now, a = .setClock now → ∀ job c ttl, v.job.current = some job →
      job.status.completionTime = some c → job.spec.ttlSecondsAfterFinished = some ttl →
        now ≤ c + ttl.toInt * second)
    (h : Moves v a v') : Scheduled v' submitted := by
  have hLater : ∀ id, submitted id ≤ submitted id := fun _ => Int.le_refl _
  cases h with
  | elsewhere | start | readPod | created | deleted | quiet | finish | setPhase | createPod
  | removePod => exact scheduled.keep rfl rfl hLater
  | setClock => exact scheduled.setClock (deletes _ rfl)
  | @create spec fresh =>
      have hJob := @setJob key v submitted
        (some ⟨key.name, key.nameSpace, v.next, v.next, spec, .empty⟩)
        (by rintro _ s ⟨⟩ ⟨⟩)
        (by
          rintro _ ⟨⟩ hState
          exact absurd hState JobState.completed_ne_new.symm)
      exact hJob.keep rfl rfl hLater
  | readJob waits read => exact scheduled.keep (Register.current_read read) rfl hLater
  | expired waits held present reported =>
      have hJob := @setJob key v submitted none (by rintro _ _ ⟨⟩) (by rintro _ ⟨⟩)
      exact hJob.keep rfl rfl hLater
  | @updated job stored status history next reply answer path waits held present version
      reported =>
      have hPending := pendingUpdate_of_waits waits present version
      have hInStep := inStep reply _ _ rfl reported.applied hPending
      obtain ⟨rfl, -⟩ := sound.versions.eq_of_version (sound.held waits held) present version
      have hReason := (site_of_busy path).reason held
      have hJob := scheduled.update sound timely v.next waits held present hReason hInStep
      exact hJob.keep rfl rfl hLater
  | @patched message stored present =>
      have hStarted : ∀ s, stored.status.startTime = some s → s ≤ submitted stored.spec.jobID :=
        fun s hStart => scheduled.started present hStart
      have hEnded := scheduled.ended present
      apply setJob
      · rintro _ s ⟨⟩ hStart
        exact hStarted _ hStart
      · rintro _ ⟨⟩ hState
        exact hEnded hState

end Scheduled
end JobView
end QuantumService.Cluster
