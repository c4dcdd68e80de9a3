import QuantumService.Cluster.Abreast
import QuantumService.Cluster.Deadline
import QuantumService.Cluster.Fair

/-! Every job comes to its end. In a fair run of the manager, once the API server answers,
a job with a time out is finished, and deleted if it has a TTL, unless its pod stays in a
phase that the controller has no case for. -/
namespace QuantumService.Cluster
open Interaction Controller World Filter

namespace JobView
variable {key : NamespacedName} {v v' : JobView key}

/-- The name of a job is used once. -/
theorem Moves.stays_gone {a : Action} (h : Moves v a v') (created : v.created)
    (gone : v.job.current = none) : v'.job.current = none := by
  cases h with
  | elsewhere | setClock | start | readPod | created | deleted | quiet | finish | setPhase
  | createPod | removePod => exact gone
  | readJob waits read => exact (Register.current_read read).trans gone
  | create fresh => exact absurd created fresh
  | expired => rfl
  | updated _ _ present | patched present =>
      rw [gone] at present
      cases present

end JobView

/-- What is fixed once it is stored. -/
structure Later (old new : QuantumAerJob) : Prop where
  spec : new.spec = old.spec
  startTime : old.status.startTime.isSome = true → new.status.startTime = old.status.startTime
  final : old.status.completionTime.isSome = true →
    new.status.jobStatus = old.status.jobStatus ∧
      new.status.completionTime = old.status.completionTime

theorem Later.refl (job : QuantumAerJob) : Later job job := ⟨rfl, fun _ => rfl, fun _ => ⟨rfl, rfl⟩⟩

theorem Later.trans {old middle new : QuantumAerJob} (first : Later old middle)
    (second : Later middle new) : Later old new where
  spec := second.spec.trans first.spec
  startTime := by
    intro hStarted
    have hKept := first.startTime hStarted
    rw [← hKept] at hStarted
    exact (second.startTime hStarted).trans hKept
  final := by
    intro hEnded
    obtain ⟨hState, hKept⟩ := first.final hEnded
    rw [← hKept] at hEnded
    obtain ⟨hLater, hLatest⟩ := second.final hEnded
    exact ⟨hLater.trans hState, hLatest.trans hKept⟩

namespace Manager
variable {m m' : Manager} {key : NamespacedName}

/-- The API server answers the calls for the job as in `World.Served`. -/
def Served (key : NamespacedName) (m : Manager) : Action → Prop
  | .cluster a => World.Served key m.world a
  | .start | .finish _ | .tellJob _ | .tellPod _ | .fire _ => True

/-- The job is in progress, and its pod is in a phase that the controller has no case for. -/
def Stalled (key : NamespacedName) (m : Manager) : Prop :=
  ∃ job pod, (m.world.jobs key).current = some job ∧ job.status.jobStatus = .progress ∧
    (m.world.pods (simulatorPodKey key job.status.retries)).current = some pod ∧
    (pod.phase = .unknown ∨ pod.phase = .unset)

/-- A step of the manager is one of the cluster, or leaves the cluster alone. By itself it
only begins and ends reconciles. -/
theorem world_of_step {a : Action} (stepped : m.step a = some m') :
    m'.world = m.world ∨ ∃ a', m.world.step a' = some m'.world ∧
      (a = .cluster a' ∨ ∃ other, a' = .reconcile other ∨ a' = .finish other) := by
  cases moves_of_step stepped with
  | @cluster a w' admitted moved => exact .inr ⟨a, moved, .inl rfl⟩
  | @start other queue got idle =>
      exact .inr ⟨.reconcile other, by simp [World.step, idle], .inr ⟨other, .inl rfl⟩⟩
  | @finish other history outcome path busy =>
      exact .inr ⟨.finish other, by simp [World.step, busy, World.finish], .inr ⟨other, .inr rfl⟩⟩
  | tellJob | tellPod | fire => exact .inl rfl

section Answers
variable {a : Action} {before : History}

/-- Where the API server answers, no answer tells of a failure. -/
theorem Answered.smooth {e : Event Call.Answer} (answered : Answered key m a m' before e)
    (served : Served key m a) : smooth e = true := by
  cases answered with
  | intro busy responded after =>
      obtain ⟨hDirect, hAccepts⟩ := served rfl
      refine smooth_of_respond responded hDirect fun update hUpdate => ?_
      subst hUpdate
      simpa [accepts, busy] using hAccepts

/-- The job that is read is the stored one. -/
theorem Answered.getJob {req : NamespacedName} {answer : Except ApiError QuantumAerJob}
    (answered : Answered key m a m' before ⟨.getJob req, answer⟩) (served : Served key m a) :
    answer = World.served (m.world.jobs key).current := by
  cases answered with
  | @intro _ _ _ next path reply _ middle busy responded after =>
      obtain ⟨hDirect, -⟩ := served rfl
      obtain ⟨-, rfl⟩ := (site_of_busy path).getJob_inv
      cases reply with
      | read age =>
          obtain ⟨⟨value, register⟩, hRead, hPair⟩ := Option.map_eq_some_iff.mp responded
          cases hPair
          have hAge : age = 0 := by simpa [Reply.direct] using hDirect
          subst hAge
          rw [Register.value_of_read hRead]
      | fail => cases hDirect
      | ok | absent | lost => cases responded

/-- The clock is read as it is. -/
theorem Answered.now {t : Int} (answered : Answered key m a m' before ⟨.now, t⟩) :
    t = m.world.clock := by
  cases answered with
  | @intro _ _ _ next path reply _ middle busy responded after =>
      cases reply with
      | ok =>
          cases responded
          rfl
      | read | absent | lost | fail => cases responded

/-- A status update that is acknowledged has a reason, and is stored. -/
theorem Answered.updateStatus {update : QuantumAerJob}
    (answered : Answered key m a m' before ⟨.write (.updateStatus update), .ok ()⟩)
    (sound : (m.world.view key).Sound) : ∃ job status later, readJob before = some job ∧
      StatusWrite before job status ∧ (m'.world.jobs key).current = some later ∧
      later.status = status.stored := by
  cases answered with
  | @intro _ _ _ next path reply _ middle busy responded after =>
      obtain ⟨job, status, hRead, hReason, rfl⟩ := (site_of_busy path).updateStatus_inv
      have hKey : job.key = key := sound.held_key busy hRead
      cases reply with
      | ok =>
          simp only [respond] at responded
          cases hWrite : m.world.applyWrite (.updateStatus (job.withStatus status)) with
          | error err =>
              rw [hWrite] at responded
              cases responded
          | ok written =>
              rw [hWrite] at responded
              cases responded
              obtain ⟨stored, -, -, rfl⟩ := applyWrite_updateStatus hWrite
              refine ⟨job, status, { stored with
                status := status.stored, resourceVersion := m.world.next }, hRead, hReason, ?_, rfl⟩
              subst hKey
              rw [after]
              exact congrArg Register.current (Function.update_self job.key _ m.world.jobs)
      | lost =>
          simp only [respond] at responded
          split at responded <;> cases responded
      | fail | read | absent => cases responded

end Answers

/-- A stored job goes on as it was, or is gone. -/
theorem later_of_step {a : Action} (sound : ∀ key, (m.world.view key).Sound)
    (stepped : m.step a = some m') {job : QuantumAerJob}
    (stored : (m.world.jobs key).current = some job) :
    (m'.world.jobs key).current = none ∨
      ∃ later, (m'.world.jobs key).current = some later ∧ Later job later := by
  rcases world_of_step stepped with hSame | ⟨a', hStep, -⟩
  · rw [hSame]
    exact .inr ⟨job, stored, .refl job⟩
  · have hMoves := view_moves sound hStep key
    cases hLater : (m'.world.jobs key).current with
    | none => exact .inl rfl
    | some later =>
        obtain ⟨hSpec, hProgresses⟩ :=
          (sound key).progresses ((sound key).step hMoves) hMoves stored hLater
        refine .inr ⟨later, rfl, hSpec, hProgresses.startTime, fun hEnded => ?_⟩
        obtain ⟨hState, hCompletion, -⟩ := hProgresses.final hEnded
        exact ⟨hState, hCompletion⟩

theorem created_of_step {a : Action} (stepped : m.step a = some m')
    (created : key ∈ m.world.created) : key ∈ m'.world.created := by
  rcases world_of_step stepped with hSame | ⟨a', hStep, -⟩
  · rw [hSame]
    exact created
  · exact created_subset hStep created

theorem gone_of_step {a : Action} (sound : ∀ key, (m.world.view key).Sound)
    (stepped : m.step a = some m') (created : key ∈ m.world.created)
    (gone : (m.world.jobs key).current = none) : (m'.world.jobs key).current = none := by
  rcases world_of_step stepped with hSame | ⟨a', hStep, -⟩
  · rw [hSame]
    exact gone
  · exact (view_moves sound hStep key).stays_gone created gone

theorem clock_of_step {a : Action} (orderly : Orderly key m a) (stepped : m.step a = some m') :
    m.world.clock ≤ m'.world.clock := by
  rcases world_of_step stepped with hSame | ⟨a', hStep, hFrom⟩
  · rw [hSame]
  · rcases World.clock_of_step hStep with hSame | hSet
    · rw [hSame]
    · subst hSet
      obtain rfl | ⟨other, hOwn | hOwn⟩ := hFrom
      · exact orderly.2
      · cases hOwn
      · cases hOwn

namespace FairRun
variable {run : Execution step} {n k : Nat} {job : QuantumAerJob}

theorem sound (fair : FairRun key run) (n : Nat) :
    ∀ key, ((run.state n).world.view key).Sound :=
  sound_of_reaches ((world_of_run (fair.reached n)).mono (fun _ h => h.1) fun _ _ h => h)

theorem clock_mono (fair : FairRun key run) (later : n ≤ k) :
    (run.state n).world.clock ≤ (run.state k).world.clock := by
  induction k, later using Nat.le_induction with
  | base => exact Int.le_refl _
  | succ k later ih => exact ih.trans (clock_of_step (fair.orderly k) (run.stepped k))

theorem created_mono (fair : FairRun key run)
    (stored : ((run.state n).world.jobs key).current = some job) (later : n ≤ k) :
    key ∈ (run.state k).world.created := by
  induction k, later using Nat.le_induction with
  | base =>
      exact (fair.sound n key).versions.created_of_stored (stored ▸ Register.current_mem_visible _)
  | succ k later ih => exact created_of_step (run.stepped k) ih

/-- At any later time a stored job is as it was in what is fixed, or gone. -/
theorem goes_on (fair : FairRun key run)
    (stored : ((run.state n).world.jobs key).current = some job) (later : n ≤ k) :
    ((run.state k).world.jobs key).current = none ∨
      ∃ later, ((run.state k).world.jobs key).current = some later ∧ Later job later := by
  induction k, later using Nat.le_induction with
  | base => exact .inr ⟨job, stored, .refl job⟩
  | succ k later ih =>
      rcases ih with hGone | ⟨middle, hStored, hMiddle⟩
      · have hCreated := fair.created_mono stored later
        exact .inl (gone_of_step (fair.sound k) (run.stepped k) hCreated hGone)
      · rcases later_of_step (fair.sound k) (run.stepped k) hStored with
          hGone | ⟨last, hLast, hLatest⟩
        · exact .inl hGone
        · exact .inr ⟨last, hLast, hMiddle.trans hLatest⟩

/-- A job that is gone does not come back. -/
theorem gone_mono (fair : FairRun key run)
    (created : key ∈ (run.state n).world.created)
    (gone : ((run.state n).world.jobs key).current = none) (later : n ≤ k) :
    ((run.state k).world.jobs key).current = none := by
  have hBoth : key ∈ (run.state k).world.created ∧
      ((run.state k).world.jobs key).current = none := by
    induction k, later using Nat.le_induction with
    | base => exact ⟨created, gone⟩
    | succ k later ih =>
        exact ⟨created_of_step (run.stepped k) ih.1,
          gone_of_step (fair.sound k) (run.stepped k) ih.1 ih.2⟩
  exact hBoth.2

/-- A stored job is lost for good, finishes and is kept, or stays unfinished for ever. -/
theorem course (fair : FairRun key run)
    (stored : ((run.state n).world.jobs key).current = some job) :
    (∃ k, ∀ j, k ≤ j → ((run.state j).world.jobs key).current = none) ∨
    (∃ k ended, ((run.state k).world.jobs key).current = some ended ∧ Later job ended ∧
      ended.status.jobStatus.Terminal ∧
      ∀ j, k ≤ j → ((run.state j).world.jobs key).current ≠ none) ∨
    ∀ k, n ≤ k → ∃ later, ((run.state k).world.jobs key).current = some later ∧
      Later job later ∧ ¬ later.status.jobStatus.Terminal := by
  by_cases hGone : ∃ k, n ≤ k ∧ ((run.state k).world.jobs key).current = none
  · obtain ⟨k, hLater, hNone⟩ := hGone
    have hCreated := fair.created_mono stored hLater
    exact .inl ⟨k, fun j => fair.gone_mono hCreated hNone⟩
  have hKept : ∀ k, n ≤ k → ((run.state k).world.jobs key).current ≠ none :=
    fun k hLater hNone => hGone ⟨k, hLater, hNone⟩
  have hStored : ∀ k, n ≤ k → ∃ later,
      ((run.state k).world.jobs key).current = some later ∧ Later job later :=
    fun k hLater => (fair.goes_on stored hLater).resolve_left (hKept k hLater)
  right
  by_cases hEnded : ∃ k ended, n ≤ k ∧ ((run.state k).world.jobs key).current = some ended ∧
      ended.status.jobStatus.Terminal
  · obtain ⟨k, ended, hLater, hEnd, hTerminal⟩ := hEnded
    obtain ⟨later, hSame, hJob⟩ := hStored k hLater
    obtain rfl := Option.some.inj (hEnd.symm.trans hSame)
    exact .inl ⟨k, ended, hEnd, hJob, hTerminal, fun j hj => hKept j (hLater.trans hj)⟩
  · right
    intro k hLater
    obtain ⟨later, hSame, hJob⟩ := hStored k hLater
    exact ⟨later, hSame, hJob, fun hTerminal => hEnded ⟨k, later, hLater, hSame, hTerminal⟩⟩

/-- What a reconcile that the API server answers has learned when it returns. -/
structure Learned (key : NamespacedName) (run : Execution step) (begun : Nat)
    (history : History) (job : QuantumAerJob) : Prop where
  smooth : Smooth history
  read : readJob history = some job
  current : ∃ j, begun < j ∧ ((run.state j).world.jobs key).current = some job
  clock : ∀ t, ⟨.now, t⟩ ∈ history → (run.state begun).world.clock ≤ t

/-- A reconcile of a stored job that the API server answers. -/
theorem learned_of_begins (fair : FairRun key run)
    (served : ∀ k, n ≤ k → Served key (run.state k) (run.action k))
    (stored : ∀ k, n ≤ k → ((run.state k).world.jobs key).current ≠ none)
    (begins : Begins key (run.state n) (run.state (n + 1))) : ∃ k, n < k ∧
      run.action k = .finish key ∧ ∃ history outcome path job,
        (run.state k).world.workers key = some ⟨history, .done outcome, path⟩ ∧
        Traced key run n k history ∧ Learned key run n history job := by
  obtain ⟨k, hAfter, hFinish, history, outcome, path, hBusy, hTraced⟩ :=
    fair.returns_of_begins begins
  have hHeard : ∀ e ∈ history, ∃ j before, n < j ∧
      Answered key (run.state j) (run.action j) (run.state (j + 1)) before e := by
    intro e hMem
    obtain ⟨before, later, hSplit⟩ := List.append_of_mem hMem
    obtain ⟨j, hFrom, -, hAnswered⟩ := hTraced before e later hSplit
    exact ⟨j, before, hFrom, hAnswered⟩
  have hFirst : ∃ job, readJob history = some job ∧ ∃ j, n < j ∧
      ((run.state j).world.jobs key).current = some job := by
    cases path with
    | @cons call next answer later q rest =>
        obtain ⟨j, before, hFrom, hAnswered⟩ := hHeard _ List.mem_cons_self
        have hServed := hAnswered.getJob (served j (by omega))
        cases hCurrent : ((run.state j).world.jobs key).current with
        | none => exact absurd hCurrent (stored j (by omega))
        | some job =>
            rw [hCurrent] at hServed
            subst hServed
            exact ⟨job, rfl, j, hFrom, hCurrent⟩
  obtain ⟨job, hRead, hCurrent⟩ := hFirst
  refine ⟨k, hAfter, hFinish, history, outcome, path, job, hBusy, hTraced, ?_, hRead, hCurrent, ?_⟩
  · intro e hMem
    obtain ⟨j, before, hFrom, hAnswered⟩ := hHeard e hMem
    exact hAnswered.smooth (served j (by omega))
  · intro t hMem
    obtain ⟨j, before, hFrom, hAnswered⟩ := hHeard _ hMem
    rw [hAnswered.now]
    exact fair.clock_mono (by omega)

theorem current_ne_none {w : World} {P : QuantumAerJob → Prop}
    (stored : ∃ job, (w.jobs key).current = some job ∧ P job) : (w.jobs key).current ≠ none := by
  obtain ⟨job, hStored, -⟩ := stored
  rw [hStored]
  exact Option.some_ne_none job

/-- No reconcile comes too late for an unfinished job to be finished by it. -/
theorem not_begins_late (fair : FairRun key run) {timeOut : Int32} {started : Option Int}
    (served : ∀ k, n ≤ k → Served key (run.state k) (run.action k))
    (active : ∀ k, n ≤ k → ∃ job, ((run.state k).world.jobs key).current = some job ∧
      ¬ job.status.jobStatus.Terminal ∧ job.spec.timeOut = timeOut ∧
      job.status.startTime = started)
    (limited : 0 < timeOut)
    (late : ∀ s, started = some s → deadline s timeOut < (run.state n).world.clock) :
    ¬ Begins key (run.state n) (run.state (n + 1)) := by
  intro hBegins
  have hStored : ∀ k, n ≤ k → ((run.state k).world.jobs key).current ≠ none :=
    fun k hLater => current_ne_none (active k hLater)
  obtain ⟨k, hAfter, -, history, outcome, path, job, hBusy, hTraced, hSmooth, hRead,
    ⟨j, hFrom, hCurrent⟩, hClock⟩ := fair.learned_of_begins served hStored hBegins
  obtain ⟨job', hJob, hActive, hLimit, hStart⟩ := active j (by omega)
  obtain rfl := Option.some.inj (hCurrent.symm.trans hJob)
  have hOk : StatusOk job.name job.spec job.status :=
    (fair.sound j key).versions.ok (hCurrent ▸ Register.current_mem_visible _)
  have hLimited : 0 < job.spec.timeOut := by
    rw [hLimit]
    exact limited
  have hLate : ∀ s, job.status.startTime = some s → ∀ before later, history = before ++ later →
      After (deadline s job.spec.timeOut) before := by
    rintro s hSome before later rfl t hMem
    rw [hLimit]
    exact Int.lt_of_lt_of_le (late s (hStart.symm.trans hSome))
      (hClock t (List.mem_append_left _ hMem))
  -- it has updated the status
  have hUpdated : ∃ update, ⟨.write (.updateStatus update), .ok ()⟩ ∈ history := by
    obtain ⟨limit, hPast, hDue⟩ : ∃ limit, limit < (run.state n).world.clock ∧
        ∀ s, job.status.startTime = some s → deadline s job.spec.timeOut = limit := by
      rw [hStart, hLimit]
      cases started with
      | some s => exact ⟨deadline s timeOut, late s rfl, by rintro _ ⟨⟩; rfl⟩
      | none => exact ⟨(run.state n).world.clock - 1, by omega, by rintro _ ⟨⟩⟩
    have hReturn : LateReturn limit history outcome :=
      rest_lapses path hRead hActive hLimited hOk.started.mp hDue
    obtain ⟨update, answer, hMem, -⟩ :=
      hReturn fun t hMem => Int.lt_of_lt_of_le hPast (hClock t hMem)
    have hAnswer : smooth ⟨.write (.updateStatus update), answer⟩ = true := hSmooth _ hMem
    obtain rfl := JobView.ok_of_smooth hAnswer
    exact ⟨update, hMem⟩
  obtain ⟨update, hMem⟩ := hUpdated
  obtain ⟨before, later, hSplit⟩ := List.append_of_mem hMem
  obtain ⟨i, hBegun, -, hAnswered⟩ := hTraced before _ later hSplit
  obtain ⟨held, status, stored, hHeld, hReason, hNext, hStatus⟩ :=
    hAnswered.updateStatus (fair.sound i key)
  obtain rfl := readJob_unique hSplit hRead hHeld
  obtain ⟨stored', hStored', hGoing, -, hKept⟩ := active (i + 1) (by omega)
  obtain rfl := Option.some.inj (hNext.symm.trans hStored')
  rcases hReason.late hLimited hOk.started fun s hSome => hLate s hSome before _ hSplit with
    hFailed | ⟨hNew, hBegun⟩
  · rw [hStatus] at hGoing
    exact hGoing (.inr hFailed)
  · -- a new job has been started
    rw [hStatus, ← hStart, hNew] at hKept
    obtain ⟨t, hTime⟩ := Option.isSome_iff_exists.mp hBegun
    simp [QuantumAerJobStatus.stored, hTime] at hKept

/-- No reconcile comes after the TTL of a finished job that is still stored. -/
theorem not_begins_expired (fair : FairRun key run) {ttl : Int32} {completionTime : Int}
    (served : ∀ k, n ≤ k → Served key (run.state k) (run.action k))
    (ended : ∀ k, n ≤ k → ∃ job, ((run.state k).world.jobs key).current = some job ∧
      job.status.jobStatus.Terminal ∧ job.spec.ttlSecondsAfterFinished = some ttl ∧
      job.status.completionTime = some completionTime)
    (late : completionTime + ttl.toInt * second ≤ (run.state n).world.clock) :
    ¬ Begins key (run.state n) (run.state (n + 1)) := by
  intro hBegins
  have hStored : ∀ k, n ≤ k → ((run.state k).world.jobs key).current ≠ none :=
    fun k hLater => current_ne_none (ended k hLater)
  obtain ⟨k, hAfter, -, history, outcome, path, job, hBusy, hTraced, hSmooth, hRead,
    ⟨j, hFrom, hCurrent⟩, hClock⟩ := fair.learned_of_begins served hStored hBegins
  obtain ⟨job', hJob, hTerminal, hTtl, hCompletion⟩ := ended j (by omega)
  obtain rfl := Option.some.inj (hCurrent.symm.trans hJob)
  have hEnds : Ends history outcome := (reconcile_follows key).result path
  have hCleaned := hEnds.cleaned hRead hTerminal (no_error_of_path path hSmooth)
  cases reconcile_leaves path hRead hTerminal ttl completionTime hTtl hCompletion hCleaned with
  | @due now answer outcome last elapsed deleted =>
      have hGone : Gone answer := by
        have hAnswer : smooth ⟨.write (.deleteJob job), answer⟩ = true := hSmooth _ deleted
        cases answer with
        | ok => exact .inl rfl
        | error err => exact .inr (congrArg _ (of_decide_eq_true hAnswer))
      have hDeletes := deletesJob_of_reaches
        ((world_of_run (fair.reached k)).mono (fun _ h => h.1) fun _ _ h => h) key
      exact hStored k (by omega) (hDeletes _ job answer hBusy deleted hGone)
  | @early now last early =>
      have hNow : (run.state n).world.clock ≤ now :=
        hClock now (List.mem_reverse.mp (firstNow_mem last))
      have hLeft := mt (elapsed_iff now completionTime ttl).mpr early
      omega

/-- A clock that passes every instant stays past it. -/
theorem clock_passes (fair : FairRun key run) (time : ∀ t, ∃ n, t ≤ (run.state n).world.clock)
    (t : Int) : ∀ᶠ n in atTop, t ≤ (run.state n).world.clock := by
  obtain ⟨n, hReached⟩ := time t
  exact eventually_atTop.mpr ⟨n, fun k hLater => hReached.trans (fair.clock_mono hLater)⟩

/-- A job that keeps being looked at is reconciled at a time that all of this holds for. -/
theorem begins_after (fair : FairRun key run)
    (awake : ∃ᶠ n in atTop, (run.state n).Awake key) {P : Nat → Prop}
    (holds : ∀ᶠ n in atTop, P n) :
    ∃ n, P n ∧ Begins key (run.state n) (run.state (n + 1)) := by
  obtain ⟨n, hBegins, hP⟩ := ((fair.awake_begins awake).and_eventually holds).exists
  exact ⟨n, hP, hBegins⟩

/-- A finished job that is kept stays as it is. -/
theorem stays_ended (fair : FairRun key run)
    (stored : ((run.state n).world.jobs key).current = some job)
    (kept : ∀ k, n ≤ k → ((run.state k).world.jobs key).current ≠ none)
    (terminal : job.status.jobStatus.Terminal) :
    ∃ c, ∀ k, n ≤ k → ∃ later, ((run.state k).world.jobs key).current = some later ∧
      later.status.jobStatus.Terminal ∧ later.spec = job.spec ∧
      later.status.completionTime = some c := by
  have hOk : StatusOk job.name job.spec job.status :=
    (fair.sound n key).versions.ok (stored ▸ Register.current_mem_visible _)
  obtain ⟨c, hCompletion⟩ :=
    Option.ne_none_iff_exists'.mp fun hNone => hOk.ended.mp hNone terminal
  refine ⟨c, fun k hFrom => ?_⟩
  obtain ⟨later, hStored, hSame⟩ := (fair.goes_on stored hFrom).resolve_left (kept k hFrom)
  obtain ⟨hState, hEnd⟩ := hSame.final (by simp [hCompletion])
  exact ⟨later, hStored, hState ▸ terminal, hSame.spec, hEnd.trans hCompletion⟩

/-- A finished job stays finished, and is not kept if it has a TTL. -/
theorem finished_settles (fair : FairRun key run)
    (time : ∀ t, ∃ n, t ≤ (run.state n).world.clock)
    (served : ∀ᶠ n in atTop, Served key (run.state n) (run.action n))
    (stored : ((run.state n).world.jobs key).current = some job)
    (kept : ∀ k, n ≤ k → ((run.state k).world.jobs key).current ≠ none)
    (terminal : job.status.jobStatus.Terminal) :
    job.spec.ttlSecondsAfterFinished = none ∧ ∀ᶠ k in atTop, ∃ later,
      ((run.state k).world.jobs key).current = some later ∧ later.status.jobStatus.Terminal := by
  obtain ⟨c, hLater⟩ := fair.stays_ended stored kept terminal
  constructor
  · by_contra hTtl
    obtain ⟨ttl, hLimited⟩ := Option.ne_none_iff_exists'.mp hTtl
    have hAwake : ∀ k, n ≤ k → (run.state k).Awake key := by
      intro k hFrom
      obtain ⟨later, hStored, hTerminal, hSpec, -⟩ := hLater k hFrom
      rcases (attentive_of_run (fair.reached k)).awake_or_rests hStored with
        hAwake | ⟨-, hNone⟩ | ⟨hProgress, -⟩
      · exact hAwake
      · rw [hSpec] at hNone
        exact absurd hNone hTtl
      · rw [hProgress] at hTerminal
        exact absurd hTerminal JobState.not_terminal_progress
    obtain ⟨N, hServed⟩ := eventually_atTop.mp served
    obtain ⟨k, ⟨⟨hFrom, hAnswered⟩, hTime⟩, hBegins⟩ := fair.begins_after
      (eventually_atTop.mpr ⟨n, hAwake⟩).frequently
      (((eventually_ge_atTop n).and (eventually_ge_atTop N)).and
        (fair.clock_passes time (c + ttl.toInt * second)))
    refine fair.not_begins_expired (fun j hj => hServed j (by omega)) (fun j hj => ?_) hTime hBegins
    obtain ⟨later, hStored, hTerminal, hSpec, hEnd⟩ := hLater j (by omega)
    exact ⟨later, hStored, hTerminal, by rw [hSpec, hLimited], hEnd⟩
  · refine eventually_atTop.mpr ⟨n, fun k hFrom => ?_⟩
    obtain ⟨later, hStored, hTerminal, -⟩ := hLater k hFrom
    exact ⟨later, hStored, hTerminal⟩

/-- A job that never finishes stalls. -/
theorem unfinished_stalls (fair : FairRun key run)
    (time : ∀ t, ∃ n, t ≤ (run.state n).world.clock)
    (served : ∀ᶠ n in atTop, Served key (run.state n) (run.action n))
    (active : ∀ k, n ≤ k → ∃ later, ((run.state k).world.jobs key).current = some later ∧
      Later job later ∧ ¬ later.status.jobStatus.Terminal)
    (limited : 0 < job.spec.timeOut) : ∀ᶠ k in atTop, Stalled key (run.state k) := by
  by_contra hNot
  have hAwake : ∃ᶠ k in atTop, (run.state k).Awake key := by
    refine ((not_eventually.mp hNot).and_eventually (eventually_ge_atTop n)).mono ?_
    rintro k ⟨hGoing, hFrom⟩
    obtain ⟨later, hStored, -, hActive⟩ := active k hFrom
    rcases (attentive_of_run (fair.reached k)).awake_or_rests hStored with
      hAwake | ⟨hTerminal, -⟩ | ⟨hProgress, pod, hPod, hPhase⟩
    · exact hAwake
    · exact absurd hTerminal hActive
    · exact absurd ⟨later, pod, hStored, hProgress, hPod, hPhase⟩ hGoing
  -- its start time is not stored, or stays as it is
  obtain ⟨started, first, hFirst, hStarted⟩ : ∃ started first, n ≤ first ∧
      ∀ k, first ≤ k → ∃ later, ((run.state k).world.jobs key).current = some later ∧
        ¬ later.status.jobStatus.Terminal ∧ later.spec.timeOut = job.spec.timeOut ∧
        later.status.startTime = started := by
    by_cases hStart : ∃ k later s, n ≤ k ∧ ((run.state k).world.jobs key).current = some later ∧
        later.status.startTime = some s
    · obtain ⟨k, begun, s, hFrom, hBegun, hSome⟩ := hStart
      refine ⟨some s, k, hFrom, fun j hj => ?_⟩
      obtain ⟨later, hStored, hJob, hActive⟩ := active j (hFrom.trans hj)
      rcases fair.goes_on hBegun hj with hNone | ⟨later', hStored', hSame⟩
      · rw [hStored] at hNone
        cases hNone
      · obtain rfl := Option.some.inj (hStored.symm.trans hStored')
        refine ⟨later, hStored, hActive, by rw [hJob.spec], ?_⟩
        rw [hSame.startTime (by simp [hSome]), hSome]
    · refine ⟨none, n, Nat.le_refl n, fun j hj => ?_⟩
      obtain ⟨later, hStored, hJob, hActive⟩ := active j hj
      refine ⟨later, hStored, hActive, by rw [hJob.spec], ?_⟩
      rw [Option.eq_none_iff_forall_ne_some]
      exact fun s hSome => hStart ⟨j, later, s, hj, hStored, hSome⟩
  obtain ⟨N, hServed⟩ := eventually_atTop.mp served
  obtain ⟨k, ⟨⟨hFrom, hAnswered⟩, hTime⟩, hBegins⟩ := fair.begins_after hAwake
    (((eventually_ge_atTop first).and (eventually_ge_atTop N)).and
      (fair.clock_passes time (started.elim 0 fun s => deadline s job.spec.timeOut + 1)))
  refine fair.not_begins_late (fun j hj => hServed j (by omega))
    (fun j hj => hStarted j (by omega)) limited ?_ hBegins
  rintro s rfl
  exact hTime

end FairRun

section Sample

/-- The same at another time. -/
def atTime (m : Manager) (now : Int) : Manager :=
  { m with world := { m.world with clock := now } }

/-- From here on nothing happens but that time passes. -/
def ticking (m : Manager) : Execution step where
  state n := m.atTime (m.world.clock + n)
  action n := .cluster (.setClock (m.world.clock + (n + 1 : Nat)))
  stepped n := by
    show some (observe _ _) = some _
    simp [observe, atTime, tell_same]

/-- Nothing is to be done for the job. -/
structure Still (key : NamespacedName) (m : Manager) : Prop where
  queue : m.queue.queue = []
  idle : m.world.workers key = none
  waiting : m.queue.waiting key = false
  jobNews : m.jobNews key = []
  podNews : ∀ pod, m.podNews pod = []

theorem ticking_fair (still : Still key m) (duty : Duty) : (ticking m).Fair (duty.Done key) := by
  intro n hEnabled
  obtain ⟨a, hDone, hSome⟩ := hEnabled n (Nat.le_refl n)
  obtain ⟨m', hStep⟩ := Option.isSome_iff_exists.mp hSome
  exfalso
  cases duty with
  | start =>
      obtain ⟨first, hGot, -⟩ := (queue_of_step hStep).2 hDone
      cases (WorkQueue.queue_of_get _ hGot).symm.trans still.queue
  | finish =>
      obtain rfl : a = .finish key := hDone
      cases moves_of_step hStep with
      | finish busy => cases busy.symm.trans still.idle
  | answer =>
      obtain ⟨reply, rfl⟩ : ∃ reply, a = .cluster (.answer key reply) := hDone
      cases workerMoves_of_step hStep key with
      | other _ unanswered => exact unanswered reply rfl
      | answered busy => cases busy.symm.trans still.idle
  | tellJob =>
      obtain ⟨keys, hNews, -⟩ := (jobNews_of_step hStep).2 hDone
      cases (List.append_eq_nil_iff.mp (hNews.symm.trans still.jobNews)).2
  | tellPod retries =>
      obtain ⟨keys, hNews, -⟩ := (podNews_of_step hStep).2 hDone
      cases (List.append_eq_nil_iff.mp (hNews.symm.trans (still.podNews _))).2
  | fire =>
      obtain rfl : a = .fire key := hDone
      cases moves_of_step hStep with
      | fire due => cases (WorkQueue.fire_inv _ due).1.symm.trans still.waiting

/-- The pod that an action of the cluster may change. -/
def touched (w : World) : World.Action → Option NamespacedName
  | .answer key _ =>
      match w.workers key with
      | some ⟨_, .ask (.getPod pod) _, _⟩ => some pod
      | some ⟨_, .ask (.write (.createPod pod)) _, _⟩ => some pod.key
      | some ⟨_, .ask (.write (.deletePod pod)) _, _⟩ => some pod.key
      | _ => none
  | .setPhase pod _ | .removePod pod => some pod
  | .createPod pod => some pod.key
  | .createJob .. | .reconcile _ | .finish _ | .patchError .. | .setClock _ => none

theorem pods_of_untouched {w w' : World} {a : World.Action} {pod : NamespacedName}
    (stepped : w.step a = some w') (untouched : touched w a ≠ some pod) :
    w'.pods pod = w.pods pod := by
  have hOther : ∀ {key}, some key ≠ some pod → pod ≠ key := fun hNot hSame => hNot (by rw [hSame])
  cases World.moves_of_step stepped with
  | createJob | start | readJob | quiet | finish | unpatched | patched | setClock => rfl
  | readPod busy read =>
      simp only [touched, busy] at untouched
      exact Function.update_of_ne (hOther untouched) ..
  | @wrote key write w' history next reply answer path busy applied reported =>
      cases write with
      | createPod created =>
          simp only [touched, busy] at untouched
          obtain ⟨-, rfl⟩ := applyWrite_createPod applied
          exact Function.update_of_ne (hOther untouched) ..
      | deletePod deleted =>
          simp only [touched, busy] at untouched
          obtain ⟨stored, -, rfl⟩ := applyWrite_deletePod applied
          exact Function.update_of_ne (hOther untouched) ..
      | deleteJob job =>
          obtain ⟨stored, -, rfl⟩ := applyWrite_deleteJob applied
          rfl
      | updateStatus job =>
          obtain ⟨stored, -, -, rfl⟩ := applyWrite_updateStatus applied
          rfl
  | setPhase | createPod | removePod => exact Function.update_of_ne (hOther untouched) ..

/-- The action changes no pods but these. -/
def Within (pods : List NamespacedName) (m : Manager) : Action → Prop
  | .cluster a => ∀ pod ∈ touched m.world a, pod ∈ pods
  | .start | .finish _ | .tellJob _ | .tellPod _ | .fire _ => True

instance (pods : List NamespacedName) (m : Manager) : (a : Action) → Decidable (Within pods m a)
  | .cluster a => inferInstanceAs (Decidable (∀ pod ∈ touched m.world a, pod ∈ pods))
  | .start | .finish _ | .tellJob _ | .tellPod _ | .fire _ => inferInstanceAs (Decidable True)

/-- There is no news about pods that are left alone. -/
theorem podNews_of_within {pods : List NamespacedName} {a : Action} {pod : NamespacedName}
    (within : Within pods m a) (stepped : m.step a = some m') (other : pod ∉ pods)
    (quiet : m.podNews pod = []) : m'.podNews pod = [] := by
  cases moves_of_step stepped with
  | cluster admitted moved =>
      have hSame := pods_of_untouched moved fun hTouched => other (within pod hTouched)
      show tell podRequests _ _ _ = []
      rw [hSame, tell_same, quiet]
  | start | finish | tellJob | fire => exact quiet
  | @tellPod told news keys hNews =>
      by_cases hPod : pod = told
      · subst hPod
        rw [quiet] at hNews
        exact absurd hNews.symm (by simp)
      · show Function.update m.podNews told news pod = []
        rw [Function.update_of_ne hPod]
        exact quiet

/-- Nothing is to be done after these actions, which change no pods but some. -/
theorem still_of_run {actions : List Action} (pods : List NamespacedName)
    (executed : runActions step empty actions = some m)
    (within : AllowedAlong step (Within pods) empty actions)
    (ended : (runActions step empty actions).map (fun m => (m.queue.queue,
      m.queue.waiting sampleKey, m.jobNews sampleKey, (m.world.workers sampleKey).isNone,
      pods.flatMap m.podNews)) = some ([], false, [], true, [])) : Still sampleKey m := by
  rw [executed, Option.map_some, Option.some.injEq] at ended
  simp only [Prod.mk.injEq] at ended
  obtain ⟨hQueue, hWaiting, hNews, hIdle, hTold⟩ := ended
  refine ⟨hQueue, Option.isNone_iff_eq_none.mp hIdle, hWaiting, hNews, fun pod => ?_⟩
  by_cases hPod : pod ∈ pods
  · exact List.flatMap_eq_nil_iff.mp hTold pod hPod
  · have hWithin : Reaches step (Within pods) (Eq empty) m :=
      (Reaches.start rfl).runActions within executed
    apply hWithin.invariant
    · rintro s rfl
      rfl
    · intro s a t _ quiet within stepped
      exact podNews_of_within within stepped hPod quiet

/-- The job is started, found late when its time out of 600 s has passed, and deleted when
its TTL of 300 s has passed, too. -/
def settlingRun : List Action :=
  [.cluster (.createJob sampleKey sampleSpec), .tellJob sampleKey] ++
    pass sampleKey [.read 0, .ok, .ok] ++
    [.cluster (.setClock (700 * second)), .tellJob sampleKey] ++
    pass sampleKey [.read 0, .ok, .ok, .ok] ++
    [.cluster (.setClock (1100 * second)), .tellJob sampleKey] ++
    pass sampleKey [.read 0, .ok, .ok, .ok] ++ [.tellJob sampleKey, .fire sampleKey] ++
    pass sampleKey [.read 0]

theorem settlingRun_still {m : Manager} (run : runActions step empty settlingRun = some m) :
    Still sampleKey m :=
  still_of_run [] run (by decide +kernel) (by decide +kernel)

/-- A fair run that begins with these actions. In the end only time goes on. -/
theorem exists_ticking {actions : List Action} (executed : runActions step empty actions = some m)
    (apart : AllowedAlong step Apart empty actions) (still : Still sampleKey m) :
    ∃ run : Execution step, FairRun sampleKey run ∧ (∀ t, ∃ n, t ≤ (run.state n).world.clock) ∧
      (∀ᶠ n in atTop, ∃ now, run.action n = .cluster (.setClock now)) ∧
      ∀ i, i ≤ actions.length → runActions step empty (actions.take i) = some (run.state i) := by
  have hFirst : (ticking m).state 0 = m := by simp [ticking, atTime]
  have hAlong : AllowedAlong step (Orderly sampleKey) empty actions :=
    apart.mono fun _ _ h => orderly_of_apart h
  have hLater : ∀ n, Orderly sampleKey ((ticking m).state n) ((ticking m).action n) := by
    intro n
    refine ⟨alone_of_isNone rfl, ?_⟩
    show m.world.clock + (n : Int) ≤ m.world.clock + (n + 1 : Nat)
    omega
  obtain ⟨run, hOrderly, hStates, hSame⟩ :=
    Execution.exists_prepend hAlong hLater (executed.trans (congrArg some hFirst.symm))
  refine ⟨run, ⟨?_, hOrderly, fun duty => ?_⟩, fun t => ?_, ?_, hStates⟩
  · have hStart : run.state 0 = empty := (Option.some.inj (hStates 0 (Nat.zero_le _))).symm
    rw [hStart]
    refine .start ⟨⟨.empty, rfl, fun _ => rfl, fun _ => rfl⟩, ?_⟩
    intro r pod hMem
    cases List.mem_singleton.mp hMem
  · exact (ticking_fair still duty).continues hSame
  · refine ⟨actions.length + (t - m.world.clock).toNat, ?_⟩
    rw [(hSame _).1]
    show t ≤ m.world.clock + ((t - m.world.clock).toNat : Int)
    omega
  · refine eventually_atTop.mpr ⟨actions.length, fun n hn => ?_⟩
    obtain ⟨k, rfl⟩ := Nat.exists_eq_add_of_le hn
    exact ⟨_, (hSame k).2⟩

theorem served_of_setClock {a : Action} (quiet : ∃ now, a = .cluster (.setClock now)) :
    Served key m a := by
  obtain ⟨now, rfl⟩ := quiet
  exact trivial

end Sample

end Manager
end QuantumService.Cluster
