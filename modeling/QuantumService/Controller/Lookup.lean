import QuantumService.Controller.Requeue

/-! What a reconcile does when the lookup of its job's pod ends in an error that
tells nothing about the pod. A running or a terminal job is left as it is, and the
error is returned. A pending job is taken for one whose pod was found. -/
namespace QuantumService.Controller
open Interaction Program

/-- The states in which a reconcile looks for the pod. -/
def Looks (job : QuantumAerJob) : Prop :=
  job.status.jobStatus = .pending ∨ job.status.jobStatus = .progress ∨
    job.status.jobStatus.Terminal

/-- A reconcile that has written nothing and returns this error. -/
def Untouched (h : History) (outcome : Outcome) (err : ApiError) : Prop :=
  (∀ write answer, ⟨.write write, answer⟩ ∉ h) ∧ outcome.2 = some err

section Lookups
variable {req : NamespacedName} {h : History} {job : QuantumAerJob} {outcome : Outcome}
  {rest : Reconciler Outcome}

/-- The site of a call that was answered already. -/
theorem site_of_event (path : Path (reconcile req) h rest) {before later : History} {call : Call}
    {answer : call.Answer} (split : h = before ++ ⟨call, answer⟩ :: later) :
    Site req before call := by
  subst split
  obtain ⟨next, hBefore, -⟩ := path.split
  exact (reconcile_follows req).call hBefore

/-- A lookup was made for the pod in the status of the job that was read. -/
theorem lookup_inv (path : Path (reconcile req) h rest) (read : readJob h = some job)
    {key : NamespacedName} {answer : Except ApiError Pod} (lookup : ⟨.getPod key, answer⟩ ∈ h) :
    job.status.podName ≠ "" ∧ key = podKey job := by
  obtain ⟨before, later, hSplit⟩ := List.append_of_mem lookup
  obtain ⟨job', hRead, hNamed, hKey⟩ := (site_of_event path hSplit).getPod_inv
  have hSame := readJob_append hRead (⟨.getPod key, answer⟩ :: later)
  rw [← hSplit, read, Option.some.injEq] at hSame
  subst hSame
  exact ⟨hNamed, hKey⟩

/-- A reconcile makes one lookup. -/
theorem lookup_unique (path : Path (reconcile req) h rest) {key key' : NamespacedName}
    {answer answer' : Except ApiError Pod} (lookup : ⟨.getPod key, answer⟩ ∈ h)
    (lookup' : ⟨.getPod key', answer'⟩ ∈ h) :
    (⟨.getPod key, answer⟩ : Event Call.Answer) = ⟨.getPod key', answer'⟩ := by
  obtain ⟨before, later, hSplit⟩ := List.append_of_mem lookup
  have hFirst := (site_of_event path hSplit).getPod_first
  have hMem := lookup'
  rw [hSplit] at hMem
  rcases List.mem_append.mp hMem with hBefore | hRest
  · exact absurd hBefore (hFirst _ _)
  · rcases List.mem_cons.mp hRest with hSame | hLater
    · exact hSame.symm
    · obtain ⟨middle, last, hTail⟩ := List.append_of_mem hLater
      have hSplit' : h = (before ++ ⟨.getPod key, answer⟩ :: middle) ++
          ⟨.getPod key', answer'⟩ :: last := by
        rw [hSplit, hTail, List.append_assoc]
        rfl
      have hFirst' := (site_of_event path hSplit').getPod_first
      exact absurd (List.mem_append_right _ List.mem_cons_self) (hFirst' _ _)

/-- What is left to do after a lookup that tells nothing. -/
def afterUnknown (job : QuantumAerJob) (err : ApiError) : Reconciler Outcome :=
  if job.status.jobStatus = .pending then markProgress job
  else if job.status.jobStatus = .progress then return (.empty, some err)
  else return (.after defaultRequeueDelay, some err)

theorem dispatch_unknown (looks : Looks job) (named : job.status.podName ≠ "") :
    ∃ next, dispatch job = .ask (.getPod (podKey job)) next ∧
      ∀ err, err ≠ .notFound → next (.error err) = afterUnknown job err := by
  have hLookup : getForPod job = call (.getPod (podKey job)) := by
    rw [getForPod, if_neg named]
    rfl
  rcases looks with hPending | hProgress | hTerminal
  · rw [dispatch_pending hPending, handlePendingJob, hLookup, call_bind]
    refine ⟨_, rfl, fun err hErr => ?_⟩
    simp [afterUnknown, hPending, hErr]
  · rw [dispatch_progress hProgress, handleRunningJob, hLookup, call_bind]
    refine ⟨_, rfl, fun err hErr => ?_⟩
    simp [afterUnknown, hProgress, hErr]
  · have hActive : job.status.jobStatus ≠ .pending ∧ job.status.jobStatus ≠ .progress := by
      rcases hTerminal with hState | hState <;>
      · rw [hState]
        decide
    rw [dispatch_terminal hTerminal, handleTerminalJob, if_pos hTerminal, hLookup, call_bind]
    refine ⟨_, rfl, fun err hErr => ?_⟩
    simp [afterUnknown, hActive.1, hActive.2, hErr]

/-- After the deadline check a reconcile dispatches on the state. -/
theorem path_of_checked (path : Path (reconcile req) h (.done outcome))
    (read : readJob h = some job)
    (checked : Checked h job) :
    ∃ before later, h = before ++ later ∧ (∀ write answer, ⟨.write write, answer⟩ ∉ before) ∧
      Path (dispatch job) later (.done outcome) := by
  obtain ⟨later, rfl, hPath⟩ := path_of_read path read
  unfold checkTimeout at hPath
  split at hPath
  · rename_i startTime hStart
    split at hPath
    · rename_i hLimited
      rw [call_bind] at hPath
      cases hPath with
      | @cons _ _ now later _ hRest =>
          obtain ⟨t, hFirst, hInTime⟩ := checked startTime hStart hLimited
          have hNow : t = now := (Option.some.inj hFirst).symm
          subst hNow
          dsimp only at hRest
          rw [if_neg hInTime] at hRest
          exact ⟨[⟨.getJob req, .ok job⟩, ⟨.now, t⟩], later, rfl, by simp, hRest⟩
    · exact ⟨[⟨.getJob req, .ok job⟩], later, rfl, by simp, hPath⟩
  · exact ⟨[⟨.getJob req, .ok job⟩], later, rfl, by simp, hPath⟩

/-- After such a lookup, what is left to do is all that is done. -/
theorem path_of_unknown (path : Path (reconcile req) h (.done outcome))
    (read : readJob h = some job) (checked : Checked h job) (looks : Looks job)
    {key : NamespacedName} {err : ApiError} (lookup : ⟨.getPod key, .error err⟩ ∈ h)
    (unknown : err ≠ .notFound) :
    ∃ before later, h = before ++ later ∧ (∀ write answer, ⟨.write write, answer⟩ ∉ before) ∧
      Path (afterUnknown job err) later (.done outcome) := by
  obtain ⟨hNamed, hKey⟩ := lookup_inv path read lookup
  obtain ⟨before, later, hSplit, hClean, hPath⟩ := path_of_checked path read checked
  obtain ⟨next, hDispatch, hNext⟩ := dispatch_unknown looks hNamed
  rw [hDispatch] at hPath
  cases hPath with
  | @cons _ _ answer later _ hRest =>
      have hMem : ⟨.getPod (podKey job), answer⟩ ∈ h := by
        rw [hSplit]
        exact List.mem_append_right _ List.mem_cons_self
      have hSame := lookup_unique path lookup hMem
      rw [hKey] at hSame
      cases hSame
      rw [hNext err unknown] at hRest
      refine ⟨before ++ [⟨.getPod (podKey job), .error err⟩], later, ?_, ?_, hRest⟩
      · rw [hSplit, List.append_assoc]
        rfl
      · intro write answer hWrite
        rcases List.mem_append.mp hWrite with hBefore | hLookup
        · exact hClean write answer hBefore
        · cases List.mem_singleton.mp hLookup

theorem untouched_iff (path : Path (reconcile req) h (.done outcome))
    (read : readJob h = some job) (checked : Checked h job) (looks : Looks job)
    {key : NamespacedName} {err : ApiError} (lookup : ⟨.getPod key, .error err⟩ ∈ h)
    (unknown : err ≠ .notFound) :
    Untouched h outcome err ↔ job.status.jobStatus ≠ .pending := by
  obtain ⟨before, later, rfl, hClean, hPath⟩ :=
    path_of_unknown path read checked looks lookup unknown
  by_cases hPending : job.status.jobStatus = .pending
  · -- the job is moved to in progress, whatever becomes of that write
    rw [afterUnknown, if_pos hPending, markProgress, updateStatus_bind] at hPath
    cases hPath with
    | cons hRest =>
        constructor
        · intro hUntouched
          exact absurd (List.mem_append_right before List.mem_cons_self) (hUntouched.1 _ _)
        · intro hOther
          exact absurd hPending hOther
  · have hReturns : ∃ result, afterUnknown job err = .done (result, some err) := by
      rw [afterUnknown, if_neg hPending]
      split
      · exact ⟨_, rfl⟩
      · exact ⟨_, rfl⟩
    obtain ⟨result, hResult⟩ := hReturns
    rw [hResult] at hPath
    cases hPath with
    | nil =>
        rw [List.append_nil]
        exact ⟨fun _ => hPending, fun _ => ⟨hClean, rfl⟩⟩

/-- A pending job is moved to in progress after a lookup that found its pod, or
after one that told nothing, and never after both. -/
theorem fetched_iff (path : Path (reconcile req) h rest) (read : readJob h = some job)
    (pending : job.status.jobStatus = .pending) {update : QuantumAerJob}
    {answer : Except ApiError Unit} (updated : ⟨.write (.updateStatus update), answer⟩ ∈ h)
    (state : update.status.jobStatus = .progress) :
    (∃ pod, PodFound h job pod) ↔ ¬ PodUnknown h job := by
  obtain ⟨before, later, hSplit⟩ := List.append_of_mem updated
  obtain ⟨held, status, hRead, hReason, rfl⟩ := (site_of_event path hSplit).updateStatus_inv
  have hSame :=
    readJob_append hRead (⟨.write (.updateStatus (held.withStatus status)), answer⟩ :: later)
  rw [← hSplit, read, Option.some.injEq] at hSame
  subst hSame
  have hState : status.jobStatus = .progress := state
  constructor
  · rintro ⟨pod, -, hFound⟩ ⟨-, err, -, hUnknown⟩
    cases lookup_unique path hFound hUnknown
  · intro hKnown
    cases hReason with
    | markProgress checked state seen =>
        rcases seen with ⟨pod, hFound⟩ | hUnknown
        · exact ⟨pod, hSplit ▸ hFound.append _⟩
        · exact absurd (hSplit ▸ hUnknown.append _) hKnown
    | recordPod => exact absurd (pending.symm.trans hState) JobState.pending_ne_progress
    | timedOut | giveUp => exact absurd hState JobState.failed_ne_progress
    | begin | backToPending | retry => exact absurd hState JobState.pending_ne_progress
    | succeed => exact absurd hState JobState.completed_ne_progress

end Lookups

/-- An inconclusive lookup changes nothing but a pending job: the others are left as they
are, with the lookup's error. -/
theorem inconclusive_lookup {req : NamespacedName} {history : History} {job : QuantumAerJob}
    {outcome : Outcome} (path : Path (reconcile req) history (.done outcome))
    (read : readJob history = some job) :
    (∀ key err, Looks job → Checked history job → ⟨.getPod key, .error err⟩ ∈ history →
      err ≠ .notFound →
        (Untouched history outcome err ↔ job.status.jobStatus ≠ .pending)) ∧
    ∀ update answer, job.status.jobStatus = .pending →
      ⟨.write (.updateStatus update), answer⟩ ∈ history → update.status.jobStatus = .progress →
        ((∃ pod, PodFound history job pod) ↔ ¬ PodUnknown history job) := by
  constructor
  · intro key err hLooks hChecked hLookup hUnknown
    exact untouched_iff path read hChecked hLooks hLookup hUnknown
  · intro update answer hPending hUpdated hState
    exact fetched_iff path read hPending hUpdated hState

/-- A running job is left alone when the lookup of its pod times out. -/
theorem inconclusive_lookup_running :
    Untouched [⟨.getJob runningJob.key, .ok runningJob⟩, ⟨.now, 5 * second⟩,
      ⟨.getPod (podKey runningJob), .error (.other "timeout")⟩]
      (.empty, some (.other "timeout")) (.other "timeout") := by
  have path : Path (reconcile runningJob.key)
      [⟨.getJob runningJob.key, .ok runningJob⟩, ⟨.now, 5 * second⟩,
        ⟨.getPod (podKey runningJob), .error (.other "timeout")⟩]
      (.done (.empty, some (.other "timeout"))) :=
    .cons (.cons (.cons (.nil _)))
  refine ((inconclusive_lookup path rfl).1 (podKey runningJob) _ (.inr (.inl rfl)) ?_ (by simp)
    (by decide)).mpr (by decide)
  intro startTime hStart _
  cases hStart
  exact ⟨5 * second, rfl, by decide⟩

def pendingJob : QuantumAerJob :=
  runningJob.withStatus { runningJob.status with jobStatus := .pending }

/-- The job is moved to in progress, although nothing is known of its pod. -/
theorem pending_lookup_ignored : ¬ ∀ (req : NamespacedName) (history : History)
    (job : QuantumAerJob) (outcome : Outcome) (key : NamespacedName) (err : ApiError),
    Path (reconcile req) history (.done outcome) → readJob history = some job → Looks job →
      Checked history job → ⟨.getPod key, .error err⟩ ∈ history → err ≠ .notFound →
        Untouched history outcome err := by
  intro claim
  have path : Path (reconcile pendingJob.key)
      [⟨.getJob pendingJob.key, .ok pendingJob⟩, ⟨.now, 5 * second⟩,
        ⟨.getPod (podKey pendingJob), .error (.other "timeout")⟩,
        ⟨.write (.updateStatus (pendingJob.withStatus
          { pendingJob.status with jobStatus := .progress })), .ok ()⟩]
      (.done (.again, none)) :=
    .cons (.cons (.cons (.cons (.nil _))))
  have hUntouched := claim _ _ pendingJob _ (podKey pendingJob) (.other "timeout") path rfl
    (.inl rfl) ?_ (by simp) (by decide)
  · exact absurd hUntouched.2 (by decide)
  · intro startTime hStart _
    cases hStart
    exact ⟨5 * second, rfl, by decide⟩

end QuantumService.Controller
