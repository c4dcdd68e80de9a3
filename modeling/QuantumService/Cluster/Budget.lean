import QuantumService.Cluster.Attempts

/-! The retry budget. A failed pod is deleted before the attempt is counted, so
the count is right only while every such deletion is followed by an update that
takes effect. -/
namespace QuantumService.Cluster
open Interaction Controller World

/-- A write that creates a pod. -/
def isCreation : Write → Bool
  | .createPod _ => true
  | .deletePod _ | .deleteJob _ | .updateStatus _ => false

namespace JobView
variable {key : NamespacedName} {v v' : JobView key}

/-- How many pods the controller has created for the job. -/
def attempts (v : JobView key) : Nat := v.effects.countP isCreation

/-- A reconcile has deleted the failed pod of this attempt, and the update that
counts the attempt is still to be answered. -/
def InFlight (v : JobView key) (retries : Int32) : Prop :=
  ∃ worker job pod, v.worker = some worker ∧ readJob worker.history = some job ∧
    job.status.jobStatus = .progress ∧ job.status.retries = retries ∧
    ⟨.write (.deletePod pod), .ok ()⟩ ∈ worker.history ∧
    ∀ update answer, ⟨.write (.updateStatus update), answer⟩ ∉ worker.history

/-- A reconcile that deleted a failed pod does not end without an update. -/
theorem not_inFlight_of_done {retries : Int32} {history : History} {outcome : Outcome}
    {path : Program.Path (reconcile key) history (.done outcome)}
    (busy : v.worker = some ⟨history, .done outcome, path⟩) : ¬ v.InFlight retries := by
  rintro ⟨worker, held, pod, hBusy, hRead, hState, -, hDeleted, hOpen⟩
  obtain rfl := Option.some.inj (busy.symm.trans hBusy)
  have hEnds := (reconcile_follows key).result path
  obtain ⟨update, answer, hMem⟩ := hEnds.persisted hRead hState hDeleted
  exact hOpen update answer hMem

/-- The event that a pod was deleted. -/
def deletion : Event Call.Answer → Bool
  | ⟨.write (.deletePod _), .ok _⟩ => true
  | _ => false

/-- The answer that loses an attempt: the failed pod's deletion takes effect but
is reported as an error, or the status update after it has no effect, and the
stored job still has the number of the attempt. -/
def losesAttempt (v : JobView key) (reply : Reply) : Bool :=
  match v.worker, v.job.current with
  | some ⟨history, .ask (.write write) _, _⟩, some stored =>
      match readJob history with
      | some job =>
          job.status.jobStatus = .progress && stored.status.retries = job.status.retries &&
          match write with
          | .deletePod _ => reply.isLost
          | .updateStatus update => history.any deletion &&
              !(reply.applied && stored.resourceVersion = update.resourceVersion)
          | .createPod _ | .deleteJob _ => false
      | none => false
  | _, _ => false

section LosesAttempt
variable {history : History} {job stored : QuantumAerJob} {reply : Reply}

theorem losesAttempt_of_lost {pod : Pod} {next : Except ApiError Unit → Reconciler Outcome}
    {path : Program.Path (reconcile key) history (.ask (.write (.deletePod pod)) next)}
    (waits : v.Waits history (.write (.deletePod pod)) next path)
    (held : readJob history = some job) (state : job.status.jobStatus = .progress)
    (present : v.job.current = some stored) (same : stored.status.retries = job.status.retries)
    (text : String) : v.losesAttempt (.lost text) = true := by
  rw [Waits] at waits
  simp [losesAttempt, waits, present, held, state, same, Reply.isLost]

theorem losesAttempt_of_update {pod : Pod} {update : QuantumAerJob}
    {next : Except ApiError Unit → Reconciler Outcome}
    {path : Program.Path (reconcile key) history (.ask (.write (.updateStatus update)) next)}
    (waits : v.Waits history (.write (.updateStatus update)) next path)
    (held : readJob history = some job) (state : job.status.jobStatus = .progress)
    (present : v.job.current = some stored) (same : stored.status.retries = job.status.retries)
    (deleted : ⟨.write (.deletePod pod), .ok ()⟩ ∈ history)
    (ineffective : reply.applied = true → ¬ v.Accepts update) :
    v.losesAttempt reply = true := by
  have hDeleted : history.any deletion = true := List.any_eq_true.mpr ⟨_, deleted, rfl⟩
  have hRefused : (reply.applied && stored.resourceVersion = update.resourceVersion) = false := by
    cases hApplied : reply.applied with
    | false => rfl
    | true =>
        have hVersion : stored.resourceVersion ≠ update.resourceVersion :=
          fun hSame => ineffective hApplied ⟨stored, present, hSame⟩
        simp [hVersion]
  rw [Waits] at waits
  simp only [losesAttempt, waits, present, held, state, same, hDeleted, hRefused]
  decide

end LosesAttempt

/-- Copies from which the number of the next attempt can be taken. -/
def Counts (v : JobView key) (job : QuantumAerJob) : Prop :=
  some job ∈ v.job.visible ∧ (job.status.jobStatus = .pending ∨
    v.job.current = some job ∧ ¬ job.status.jobStatus.Terminal)

/-- The pods created so far are covered by the retries of every version, and by
one less where the next attempt could start. -/
structure Budgeted (v : JobView key) : Prop where
  uncreated : ¬ v.created → v.attempts = 0
  bound : ∀ {job}, some job ∈ v.job.visible → (v.attempts : Int) ≤ job.status.retries.toInt + 1
  paid : ∀ {job}, v.Counts job → (v.attempts : Int) ≤ job.status.retries.toInt ∨
    v.Live job.status.retries ∨ v.InFlight job.status.retries

/-- All copies that count have the stored number. -/
theorem Sound.number_of_counts (sound : Sound v) {job stored : QuantumAerJob}
    (counts : v.Counts job) (present : v.job.current = some stored) :
    stored.status.retries = job.status.retries := by
  obtain ⟨hMem, hPending | ⟨hCurrent, -⟩⟩ := counts
  · rcases sound.versions.newer_of_current present hMem with rfl | hSucceeds
    · rfl
    · exact hSucceeds.retries_of_pending hPending
  · rw [present] at hCurrent
    rw [Option.some.inj hCurrent]

/-- After a reconcile has read a terminal job no attempt can start any more. -/
theorem Sound.not_counts_of_terminal (sound : Sound v) {worker : Worker key}
    {job other : QuantumAerJob} (busy : v.worker = some worker)
    (held : readJob worker.history = some job) (terminal : job.status.jobStatus.Terminal) :
    ¬ v.Counts other := by
  rintro ⟨hMem, hActive⟩
  have hTerminal : other.status.jobStatus.Terminal := by
    rcases sound.versions.newer_of_held (sound.held busy held) hMem with rfl | hSucceeds
    · exact terminal
    · exact hSucceeds.terminal terminal
  rcases hActive with hPending | ⟨-, hOpen⟩
  · rw [hPending] at hTerminal
    exact absurd hTerminal JobState.not_terminal_pending
  · exact hOpen hTerminal

/-- Storing a pod in place of another keeps the live attempts if it is live
whenever the other one was. -/
theorem live_setPod_of_kept {retries r : Int32} {value : Option Pod}
    (kept : v.Live retries → ∃ pod, value = some pod ∧ pod.deletionRequested = false)
    (h : v.Live r) : (v.setPod retries value).Live r := by
  by_cases hr : r = retries
  · subst hr
    obtain ⟨pod, rfl, hLive⟩ := kept h
    exact ⟨pod, by simp, hLive⟩
  · exact (live_setPod_of_ne hr).mpr h

/-- Any other answer than the update's leaves the update to be answered. -/
theorem InFlight.resume {retries : Int32} (inFlight : v.InFlight retries) {history : History}
    {call : Call} {next : call.Answer → Reconciler Outcome}
    {path : Program.Path (reconcile key) history (.ask call next)} {answer : call.Answer}
    (waits : v.Waits history call next path)
    (other : ∀ update, call ≠ .write (.updateStatus update)) :
    (v.resume path answer).InFlight retries := by
  obtain ⟨worker, job, pod, hBusy, hRead, hState, hNumber, hDeleted, hOpen⟩ := inFlight
  obtain rfl := Option.some.inj (waits.symm.trans hBusy)
  refine ⟨_, job, pod, rfl, readJob_append hRead _, hState, hNumber,
    List.mem_append_left _ hDeleted, ?_⟩
  intro update answer' hMem
  exact hOpen update answer' (mem_of_mem_snoc hMem (other update))

/-- A status write of a reconcile with an attempt in flight is its count, or
ends the job. -/
theorem StatusWrite.of_inFlight {h : History} {job : QuantumAerJob}
    {status : QuantumAerJobStatus} (write : StatusWrite h job status)
    (ok : StatusOk job.name job.spec job.status) :
    status.jobStatus.Terminal ∨
      (status.jobStatus = .pending ∧ status.retries.toInt = job.status.retries.toInt + 1 ∧
        job.status.jobStatus = .progress) ∨
      status.retries = job.status.retries ∧
        (job.status.jobStatus ≠ .progress ∨ ∀ w answer, ⟨.write w, answer⟩ ∉ h) := by
  cases write with
  | timedOut | giveUp | succeed => exact .inl (by simp)
  | begin checked state clock =>
      exact .inr (.inr ⟨(ok.untried state).1.symm, .inl (by simp [state, JobState.progress])⟩)
  | recordPod checked state absent placed => exact .inr (.inr ⟨rfl, .inl (by simp [state])⟩)
  | markProgress checked state seen => exact .inr (.inr ⟨rfl, .inl (by simp [state])⟩)
  | backToPending checked state absent untouched => exact .inr (.inr ⟨rfl, .inr untouched⟩)
  | retry checked state found phase left deleted =>
      exact .inr (.inl ⟨rfl, toInt_succ left, state⟩)

namespace Budgeted

/-- A move that stores no job and creates no pod keeps the budget if it keeps
what pays for the attempts. -/
theorem keep (budgeted : Budgeted v) (effects : v'.attempts = v.attempts)
    (created : v'.created = v.created)
    (visible : ∀ job, some job ∈ v'.job.visible → some job ∈ v.job.visible)
    (current : v'.job.current = v.job.current)
    (paid : ∀ job, v.Counts job → v.Live job.status.retries ∨ v.InFlight job.status.retries →
      v'.Live job.status.retries ∨ v'.InFlight job.status.retries) : Budgeted v' where
  uncreated := by
    intro hFresh
    rw [effects]
    exact budgeted.uncreated (created ▸ hFresh)
  bound := by
    intro job hMem
    rw [effects]
    exact budgeted.bound (visible job hMem)
  paid := by
    rintro job ⟨hMem, hActive⟩
    rw [current] at hActive
    have hCounts : v.Counts job := ⟨visible job hMem, hActive⟩
    rw [effects]
    exact (budgeted.paid hCounts).imp id (paid job hCounts)

theorem setJob (budgeted : Budgeted v) (value : Option QuantumAerJob)
    (bound : ∀ job, value = some job → (v.attempts : Int) ≤ job.status.retries.toInt + 1)
    (paid : ∀ job, value = some job → ¬ job.status.jobStatus.Terminal →
      (v.attempts : Int) ≤ job.status.retries.toInt ∨ v.Live job.status.retries ∨
        v.InFlight job.status.retries) :
    Budgeted { v.setJob value with created := True } where
  uncreated := fun hFresh => absurd trivial hFresh
  bound := by
    intro job hMem
    rcases List.mem_cons.mp hMem with hNew | hOld
    · exact bound job hNew.symm
    · exact budgeted.bound hOld
  paid := by
    rintro job ⟨hMem, hPending | ⟨hCurrent, hOpen⟩⟩
    · rcases List.mem_cons.mp hMem with hNew | hOld
      · exact paid job hNew.symm (by simp [hPending])
      · exact budgeted.paid ⟨hOld, .inl hPending⟩
    · exact paid job hCurrent hOpen

theorem log (budgeted : Budgeted v) {write : Write} (other : isCreation write = false) :
    Budgeted (v.log write) :=
  budgeted.keep (by simp [attempts, JobView.log, other]) rfl (fun _ h => h) rfl
    fun _ _ h => h

theorem resume (budgeted : Budgeted v) {history : History} {call : Call}
    {next : call.Answer → Reconciler Outcome}
    {path : Program.Path (reconcile key) history (.ask call next)} {answer : call.Answer}
    (settled : ∀ job, v.Counts job → v.InFlight job.status.retries →
      (v.attempts : Int) ≤ job.status.retries.toInt ∨ v.Live job.status.retries ∨
        (v.resume path answer).InFlight job.status.retries) :
    Budgeted (v.resume path answer) where
  uncreated := budgeted.uncreated
  bound := budgeted.bound
  paid := by
    intro job hCounts
    rcases budgeted.paid hCounts with hPaid | hLive | hInFlight
    · exact .inl hPaid
    · exact .inr (.inl hLive)
    · exact settled job hCounts hInFlight

/-- An answer to another call than a status update leaves the budget alone. -/
theorem resume_of_other (budgeted : Budgeted v) {history : History} {call : Call}
    {next : call.Answer → Reconciler Outcome}
    {path : Program.Path (reconcile key) history (.ask call next)} {answer : call.Answer}
    (waits : v.Waits history call next path)
    (other : ∀ update, call ≠ .write (.updateStatus update)) :
    Budgeted (v.resume path answer) :=
  budgeted.resume fun _ _ hInFlight => .inr (.inr (hInFlight.resume waits other))

/-- A created pod uses up the attempt that was paid for. -/
theorem create (budgeted : Budgeted v) (sound : Sound v) {worker : Worker key}
    {job : QuantumAerJob} (busy : v.worker = some worker)
    (held : readJob worker.history = some job) (state : job.status.jobStatus = .pending)
    (free : (v.pods job.status.retries).current = none) (pod placed : Pod)
    (kept : pod.deletionRequested = false) :
    Budgeted ((v.setPod job.status.retries (some pod)).log (.createPod placed)) := by
  have hMem := sound.held_visible busy held
  have hPaid : (v.attempts : Int) ≤ job.status.retries.toInt := by
    rcases budgeted.paid ⟨hMem, .inl state⟩ with hPaid | ⟨stored, hStored, -⟩ | hInFlight
    · exact hPaid
    · rw [free] at hStored
      cases hStored
    · obtain ⟨worker', job', _, hBusy, hRead, hState, -⟩ := hInFlight
      obtain rfl := Option.some.inj (busy.symm.trans hBusy)
      obtain rfl := Option.some.inj (held.symm.trans hRead)
      rw [state] at hState
      exact absurd hState JobState.pending_ne_progress
  have hSame : ∀ other, some other ∈ v.job.visible →
      other.status.retries = job.status.retries :=
    fun _ => sound.retries_of_pending busy held state
  have hCount : ((v.setPod job.status.retries (some pod)).log (.createPod placed)).attempts =
      v.attempts + 1 := by
    rw [attempts, JobView.log, List.countP_cons_of_pos rfl]
    rfl
  exact {
    uncreated := fun hFresh => absurd (sound.versions.created_of_stored hMem) hFresh
    bound := by
      intro other hOther
      rw [hCount, hSame other hOther]
      push_cast
      omega
    paid := by
      rintro other ⟨hOther, -⟩
      right
      left
      rw [hSame other hOther]
      exact ⟨pod, by simp [JobView.log], kept⟩ }

/-- Deleting a pod pays for the attempt by the update that is to follow. -/
theorem delete (budgeted : Budgeted v) (sound : Sound v) {job : QuantumAerJob}
    {pod stored : Pod} {history : History} {next : Except ApiError Unit → Reconciler Outcome}
    {reply : Reply} {answer : Except ApiError Unit}
    {path : Program.Path (reconcile key) history (.ask (.write (.deletePod pod)) next)}
    (waits : v.Waits history (.write (.deletePod pod)) next path)
    (held : readJob history = some job) (reported : Reported reply answer)
    (kept : v.losesAttempt reply = false) :
    Budgeted ((v.setPod job.status.retries (some { stored with deletionRequested := true })).log
      (.deletePod pod) |>.resume path answer) := by
  refine budgeted.keep (by simp [attempts, JobView.log, JobView.resume, JobView.setWorker,
    JobView.setPod, isCreation]) rfl (fun _ h => h) rfl ?_
  intro other hCounts hPays
  obtain ⟨job', hRead, -, hState⟩ := (site_of_busy path).deletePod_inv
  obtain rfl := Option.some.inj (held.symm.trans hRead)
  rcases hState with ⟨hProgress, hUntouched⟩ | hTerminal
  · have hActive : ¬ job.status.jobStatus.Terminal := by simp [hProgress]
    obtain ⟨current, hCurrent⟩ := sound.stored_of_held waits held hActive
    have hNumber := sound.number_of_counts hCounts hCurrent
    by_cases hAttempt : other.status.retries = job.status.retries
    · right
      cases reported with
      | ok =>
          refine ⟨_, job, pod, rfl, readJob_append held _, hProgress, hAttempt.symm,
            last_mem _, ?_⟩
          intro update answer hMem
          exact hUntouched _ _ (mem_of_mem_snoc hMem (by simp))
      | @lost text =>
          have hLost := losesAttempt_of_lost waits held hProgress hCurrent
            (hNumber.trans hAttempt) text
          rw [kept] at hLost
          cases hLost
    · rcases hPays with hLive | hInFlight
      · left
        exact (live_setPod_of_ne hAttempt).mpr hLive
      · obtain ⟨worker, job', _, hBusy, hRead', _, hNumber', -⟩ := hInFlight
        obtain rfl := Option.some.inj (waits.symm.trans hBusy)
        obtain rfl := Option.some.inj (held.symm.trans hRead')
        exact absurd hNumber'.symm hAttempt
  · exact absurd hCounts (sound.not_counts_of_terminal waits held hTerminal)

/-- A status update that takes effect counts the attempt in flight. -/
theorem update (budgeted : Budgeted v) (sound : Sound v) {job : QuantumAerJob}
    {status : QuantumAerJobStatus} {history : History}
    {next : Except ApiError Unit → Reconciler Outcome} {answer : Except ApiError Unit}
    {path : Program.Path (reconcile key) history
      (.ask (.write (.updateStatus (job.withStatus status))) next)}
    (waits : v.Waits history (.write (.updateStatus (job.withStatus status))) next path)
    (held : readJob history = some job) (present : v.job.current = some job)
    (visible : v.job.visible = [some job]) :
    Budgeted ((v.setJob (some { job with
      status := status.stored, resourceVersion := v.next })).log
      (.updateStatus (job.withStatus status)) |>.resume path answer) := by
  have hMem := sound.held_visible waits held
  have hOk := sound.versions.ok hMem
  have hReason := (site_of_busy path).reason held
  have hCounts : v.Counts job := ⟨hMem, .inr ⟨present, (hReason.advance hOk).active⟩⟩
  have hInFlight : ∀ r, v.InFlight r → job.status.jobStatus = .progress ∧
      ¬ ∀ w answer, ⟨.write w, answer⟩ ∉ history := by
    rintro r ⟨worker, job', pod, hBusy, hRead, hState, -, hDeleted, -⟩
    obtain rfl := Option.some.inj (waits.symm.trans hBusy)
    obtain rfl := Option.some.inj (held.symm.trans hRead)
    exact ⟨hState, fun hNone => hNone _ _ hDeleted⟩
  have hBound := budgeted.bound hMem
  have hCases := StatusWrite.of_inFlight hReason hOk
  -- the new version is covered, by the update itself if an attempt was in flight
  have hCovered : ¬ status.jobStatus.Terminal → (v.attempts : Int) ≤ status.retries.toInt ∨
      status.retries = job.status.retries ∧ ∀ r, ¬ v.InFlight r := by
    intro hOpen
    rcases hCases with hTerminal | ⟨-, hSucc, -⟩ | ⟨hSame, hQuiet⟩
    · exact absurd hTerminal hOpen
    · left
      omega
    · right
      refine ⟨hSame, fun r hFlight => ?_⟩
      obtain ⟨hProgress, hWritten⟩ := hInFlight r hFlight
      rcases hQuiet with hState | hUntouched
      · exact hState hProgress
      · exact hWritten hUntouched
  have hJob := budgeted.setJob (some { job with
      status := status.stored, resourceVersion := v.next })
    (by
      rintro job' ⟨⟩
      have hRetries := hReason.retries hOk
      show (v.attempts : Int) ≤ status.retries.toInt + 1
      omega)
    (by
      rintro job' ⟨⟩ hOpen
      rcases hCovered hOpen with hPaid | ⟨hSame, -⟩
      · exact .inl hPaid
      · show (v.attempts : Int) ≤ status.retries.toInt ∨ v.Live status.retries ∨
          v.InFlight status.retries
        rw [hSame]
        exact budgeted.paid hCounts)
  rw [← eq_true (sound.versions.created_of_stored hMem)] at hJob
  apply (hJob.log rfl).resume
  intro job' hNext hFlight
  obtain ⟨hProgress, -⟩ := hInFlight _ hFlight
  have hOpen : ¬ status.jobStatus.Terminal ∧ job'.status.retries = status.retries := by
    rcases hNext with ⟨hStored, hPending | ⟨hCurrent, hOpen⟩⟩
    · rcases List.mem_cons.mp hStored with hNew | hOld
      · cases hNew
        have hState : status.jobStatus = .pending := hPending
        exact ⟨by simp [hState], rfl⟩
      · have hHeld : some job' ∈ v.job.visible := hOld
        rw [visible] at hHeld
        cases List.mem_singleton.mp hHeld
        rw [hProgress] at hPending
        exact absurd hPending JobState.progress_ne_pending
    · cases hCurrent
      exact ⟨hOpen, rfl⟩
  rcases hCovered hOpen.1 with hPaid | ⟨-, hNone⟩
  · left
    rw [hOpen.2]
    exact hPaid
  · exact absurd hFlight (hNone _)

/-- An update that has no effect loses no attempt that counts. -/
theorem refuse (budgeted : Budgeted v) (sound : Sound v) {update : QuantumAerJob}
    {history : History} {next : Except ApiError Unit → Reconciler Outcome} {reply : Reply}
    {answer : Except ApiError Unit}
    {path : Program.Path (reconcile key) history (.ask (.write (.updateStatus update)) next)}
    (waits : v.Waits history (.write (.updateStatus update)) next path)
    (ineffective : reply.applied = true → ¬ v.Accepts update)
    (kept : v.losesAttempt reply = false) : Budgeted (v.resume path answer) := by
  apply budgeted.resume
  intro job hCounts hFlight
  obtain ⟨worker, held, pod, hBusy, hRead, hState, hNumber, hDeleted, -⟩ := hFlight
  obtain rfl := Option.some.inj (waits.symm.trans hBusy)
  have hActive : ¬ held.status.jobStatus.Terminal := by simp [hState]
  obtain ⟨stored, hStored⟩ := sound.stored_of_held waits hRead hActive
  have hSame := sound.number_of_counts hCounts hStored
  have hLost := losesAttempt_of_update waits hRead hState hStored (hSame.trans hNumber.symm)
    hDeleted ineffective
  rw [kept] at hLost
  cases hLost

theorem step (budgeted : Budgeted v) (sound : Sound v) {a : Action}
    (kept : ∀ reply, a = .answer key reply → v.losesAttempt reply = false)
    (removed : ∀ r pod, a = .removePod (simulatorPodKey key r) →
      (v.pods r).current = some pod → pod.deletionRequested = true)
    (h : Moves v a v') : Budgeted v' := by
  cases h with
  | elsewhere later => exact budgeted.keep rfl rfl (fun _ h => h) rfl fun _ _ h => h
  | setClock => exact budgeted.keep rfl rfl (fun _ h => h) rfl fun _ _ h => h
  | @create spec fresh =>
      have hNone := budgeted.uncreated fresh
      exact budgeted.setJob _
        (by
          rintro job ⟨⟩
          rw [hNone]
          show ((0 : Nat) : Int) ≤ (0 : Int32).toInt + 1
          decide)
        (by
          rintro job ⟨⟩ _
          rw [hNone]
          left
          show ((0 : Nat) : Int) ≤ (0 : Int32).toInt
          decide)
  | start idle =>
      refine budgeted.keep rfl rfl (fun _ h => h) rfl fun job _ hPays => hPays.imp id ?_
      rintro ⟨worker, _, _, hBusy, -⟩
      rw [idle] at hBusy
      cases hBusy
  | @readJob age value register next path waits read =>
      refine budgeted.keep rfl rfl (fun _ => Register.visible_subset_of_read read)
        (Register.current_read read) fun job _ hPays => hPays.imp id ?_
      rintro ⟨worker, _, _, hBusy, hRead, -⟩
      obtain rfl := Option.some.inj (waits.symm.trans hBusy)
      cases hRead
  | @readPod age job value register history next path waits held read =>
      have hPods : Budgeted (v.servePod job.status.retries register) := by
        refine budgeted.keep rfl rfl (fun _ h => h) rfl fun other _ hPays => hPays.imp ?_ id
        exact (live_servePod read).mpr
      exact hPods.resume_of_other waits (by simp)
  | @created job history next reply answer path waits held free reported =>
      obtain ⟨job', hRead, hState, -, -⟩ := (site_of_busy path).createPod_inv
      obtain rfl : job = job' := Option.some.inj (held.symm.trans hRead)
      have hPods := budgeted.create sound waits held hState free
        { simulatorPod job with uid := v.next, phase := .pending } (simulatorPod job) rfl
      exact hPods.resume_of_other waits (by simp)
  | deleted waits held named present reported =>
      exact budgeted.delete sound waits held reported (kept _ rfl)
  | @expired job stored history next reply answer path waits held present reported =>
      have hStored : some stored ∈ v.job.visible := present ▸ v.job.current_mem_visible
      have hJob := budgeted.setJob none (by simp) (by simp)
      rw [← eq_true (sound.versions.created_of_stored hStored)] at hJob
      exact (hJob.log rfl).resume_of_other waits (by simp)
  | @updated job stored status history next reply answer path waits held present version
      reported =>
      obtain ⟨rfl, hVisible⟩ :=
        sound.versions.eq_of_version (sound.held waits held) present version
      exact budgeted.update sound waits held present hVisible
  | @quiet call history next reply answer path waits uneventful ineffective =>
      by_cases hUpdate : ∃ update, call = .write (.updateStatus update)
      · obtain ⟨update, rfl⟩ := hUpdate
        exact budgeted.refuse sound waits (ineffective update rfl) (kept _ rfl)
      · exact budgeted.resume_of_other waits fun update hCall => hUpdate ⟨update, hCall⟩
  | @finish history outcome path busy =>
      refine budgeted.keep rfl rfl (fun _ h => h) rfl fun job _ hPays => hPays.imp id ?_
      intro hFlight
      exact absurd hFlight (not_inFlight_of_done busy)
  | @patched message stored present =>
      have hStored : some stored ∈ v.job.visible := present ▸ v.job.current_mem_visible
      have hBound := budgeted.bound hStored
      have hPaid : ¬ stored.status.jobStatus.Terminal →
          (v.attempts : Int) ≤ stored.status.retries.toInt ∨ v.Live stored.status.retries ∨
            v.InFlight stored.status.retries :=
        fun hOpen => budgeted.paid ⟨hStored, .inr ⟨present, hOpen⟩⟩
      have hJob := budgeted.setJob (some { stored with
          status := { stored.status with errorMessage := message }, resourceVersion := v.next })
        (by
          rintro job ⟨⟩
          exact hBound)
        (by
          rintro job ⟨⟩
          exact hPaid)
      rw [← eq_true (sound.versions.created_of_stored hStored)] at hJob
      exact hJob
  | @setPhase retries phase pod present =>
      refine budgeted.keep rfl rfl (fun _ h => h) rfl fun job _ hPays => hPays.imp ?_ id
      apply live_setPod_of_kept
      rintro ⟨pod', hStored, hLive⟩
      rw [present] at hStored
      cases hStored
      exact ⟨_, rfl, hLive⟩
  | @createPod retries pod named free =>
      refine budgeted.keep rfl rfl (fun _ h => h) rfl fun job _ hPays => hPays.imp ?_ id
      apply live_setPod_of_kept
      rintro ⟨pod', hStored, -⟩
      rw [free] at hStored
      cases hStored
  | @removePod retries pod present =>
      refine budgeted.keep rfl rfl (fun _ h => h) rfl fun job _ hPays => hPays.imp ?_ id
      apply live_setPod_of_kept
      rintro ⟨pod', hStored, hLive⟩
      rw [removed retries pod' rfl hStored] at hLive
      cases hLive

end Budgeted
end JobView

namespace World
variable {w : World} {key : NamespacedName}

/-- The pods of the job disappear only after the controller deleted them. -/
def RemovesOwn (key : NamespacedName) (w : World) (a : Action) : Prop :=
  ∀ r, a = .removePod (simulatorPodKey key r) →
    ∀ pod ∈ (w.pods (simulatorPodKey key r)).current, pod.deletionRequested = true

/-- Every deletion of a failed pod is reported, and followed by a status update
that takes effect, unless the stored job is past the attempt already. -/
def CountsAttempts (key : NamespacedName) (w : World) : Action → Prop
  | .answer acting reply => acting = key → (w.view key).losesAttempt reply = false
  | _ => True

/-- The pods the controller has created for the job. -/
def attempts (w : World) (key : NamespacedName) : Nat :=
  (entriesOf key w.effects).countP isCreation

/-- In every run in which no attempt is lost, the pods created for a job are at most one
more than its stored retries, and so at most one more than its spec allows. -/
theorem retry_budget
    (run : Reaches step (fun w a => RemovesOwn key w a ∧ CountsAttempts key w a) Initial w) :
    ∀ job, (w.jobs key).current = some job →
      (w.attempts key : Int) ≤ job.status.retries.toInt + 1 ∧
      (w.attempts key : Int) ≤ max 0 job.spec.maxRetries.toInt + 1 := by
  have hSound := sound_of_reaches run key
  have hBudget : (w.view key).Budgeted := by
    apply view_invariant _ (fun _ h => h) _ _ run
    · intro s initial
      have hEffects : (s.view key).effects = [] := by simp [view, initial.effects]
      have hJob : (s.view key).job = .synced none := initial.jobs key
      exact {
        uncreated := fun _ => by simp [JobView.attempts, hEffects]
        bound := fun hMem => by simp [hJob] at hMem
        paid := fun hCounts => by
          have hMem := hCounts.1
          simp [hJob] at hMem }
    · intro s a v' sound budgeted permitted moves
      apply budgeted.step sound _ _ moves
      · rintro reply rfl
        exact permitted.2 rfl
      · intro r pod hAction hStored
        exact permitted.1 r hAction pod hStored
  intro job hStored
  have hMem : some job ∈ (w.view key).job.visible := hStored ▸ (w.jobs key).current_mem_visible
  have hBound : (w.attempts key : Int) ≤ job.status.retries.toInt + 1 := hBudget.bound hMem
  have hRetries := (hSound.versions.ok hMem).budget
  omega

/-- Pods of every name disappear only after their deletion was requested. -/
def RemovesDeleted (w : World) : Action → Prop
  | .removePod q => ∀ pod ∈ (w.pods q).current, pod.deletionRequested = true
  | _ => True

instance (w : World) : (a : Action) → Decidable (RemovesDeleted w a)
  | .removePod q =>
      inferInstanceAs (Decidable (∀ pod ∈ (w.pods q).current, pod.deletionRequested = true))
  | .createJob .. | .reconcile _ | .answer .. | .finish _ | .patchError .. | .setClock _
  | .setPhase .. | .createPod _ =>
      .isTrue trivial

instance (w : World) : (a : Action) → Decidable (CountsAttempts key w a)
  | .answer acting reply =>
      inferInstanceAs (Decidable (acting = key → (w.view key).losesAttempt reply = false))
  | .createJob .. | .reconcile _ | .finish _ | .patchError .. | .setClock _ | .setPhase ..
  | .createPod _ | .removePod _ =>
      .isTrue trivial

theorem RemovesDeleted.own {a : Action} (removes : RemovesDeleted w a) : RemovesOwn key w a := by
  rintro r rfl
  exact removes

/-- The simulator patches its error and exits. The reconcile has read the job
before the patch: it deletes the pod, and its update is rejected. Once the pod is
gone, the job goes back to pending, and a second first attempt is created. -/
def uncountedRun : List Action :=
  startRun ++ [.patchError sampleKey "Simulation failed",
    .setPhase (simulatorPodKey sampleKey 0) .failed] ++
  pass sampleKey [.read 1, .ok, .read 0, .ok, .ok] ++
  [.removePod (simulatorPodKey sampleKey 0)] ++
  pass sampleKey [.read 0, .ok, .read 0, .ok] ++ pass sampleKey [.read 0, .ok, .ok, .ok, .ok]

theorem retry_uncounted : ¬ ∀ (w : World) (key : NamespacedName) (job : QuantumAerJob),
    Reaches step (RemovesOwn key) Initial w → (w.jobs key).current = some job →
      (w.attempts key : Int) ≤ job.status.retries.toInt + 1 ∧
      (w.attempts key : Int) ≤ max 0 job.spec.maxRetries.toInt + 1 := by
  intro claim
  have hRun : (runActions step .empty uncountedRun).isSome := by decide
  obtain ⟨w, hw⟩ := Option.isSome_iff_exists.mp hRun
  have hReached : Reaches step RemovesDeleted Initial w :=
    (Reaches.start .empty).runActions (by decide) hw
  have hStored : (runActions step .empty uncountedRun).map (fun w =>
      (w.attempts sampleKey, (w.jobs sampleKey).current.map (·.status.retries))) =
      some (2, some 0) := by decide
  rw [hw, Option.map_some, Option.some.injEq, Prod.mk.injEq, Option.map_eq_some_iff] at hStored
  obtain ⟨hCount, job, hJob, hRetries⟩ := hStored
  have hClaim := (claim w sampleKey job (hReached.mono (fun _ h => h) fun _ _ h => h.own) hJob).1
  rw [hCount, hRetries] at hClaim
  exact absurd hClaim (by decide)

/-- The same failure, with an update that takes effect: two pods, one retry. -/
theorem retry_budget_retried : ∃ w job, runActions step .empty retriedRun = some w ∧
    (w.jobs sampleKey).current = some job ∧ w.attempts sampleKey = 2 ∧
    (w.attempts sampleKey : Int) ≤ job.status.retries.toInt + 1 := by
  have hRun : (runActions step .empty retriedRun).isSome := by decide
  obtain ⟨w, hw⟩ := Option.isSome_iff_exists.mp hRun
  have hReached : Reaches step (fun w a => RemovesDeleted w a ∧ CountsAttempts sampleKey w a)
      Initial w := (Reaches.start .empty).runActions (by decide) hw
  have hStored : (runActions step .empty retriedRun).map (fun w =>
      (w.attempts sampleKey, (w.jobs sampleKey).current.isSome)) = some (2, true) := by decide
  rw [hw, Option.map_some, Option.some.injEq, Prod.mk.injEq] at hStored
  obtain ⟨job, hJob⟩ := Option.isSome_iff_exists.mp hStored.2
  have hBudget := retry_budget (hReached.mono (fun _ h => h) fun _ _ h => ⟨h.1.own, h.2⟩) job hJob
  exact ⟨w, job, hw, hJob, hStored.1, hBudget.1⟩

end World
end QuantumService.Cluster
