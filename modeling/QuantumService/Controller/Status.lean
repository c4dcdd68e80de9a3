import QuantumService.Controller.PodName
import QuantumService.Controller.Sites

/-! The life of a status. A status is well formed whatever calls fail, and each
status update of the controller advances it by one of eight steps. -/
namespace QuantumService.Controller
open JobState

/-- A guarded increment of an `int32` does not wrap. -/
theorem toInt_succ {a b : Int32} (h : a < b) : (a + 1).toInt = a.toInt + 1 := by
  have hLess := Int32.lt_iff_toInt_lt.mp h
  have hLower := a.le_toInt
  have hUpper := b.toInt_lt
  have hOne : (1 : Int32).toInt = 1 := by decide
  rw [Int32.toInt_add, hOne, Int.bmod_eq_of_le] <;> omega

theorem lt_add_one_of_lt {a b : Int32} (h : a < b) : a < a + 1 := by
  have hSucc := toInt_succ h
  rw [Int32.lt_iff_toInt_lt, hSucc]
  omega

theorem storedTime_storedTime (t : Int) : storedTime (storedTime t) = storedTime t := by
  unfold storedTime second
  omega

/-- How the fields of a stored status fit together. -/
structure StatusOk (name : String) (spec : QuantumAerJobSpec) (status : QuantumAerJobStatus) :
    Prop where
  state : status.jobStatus = "" ∨ status.jobStatus = pending ∨ status.jobStatus = progress ∨
    status.jobStatus = completed ∨ status.jobStatus = failed
  started : status.startTime = none ↔ status.jobStatus = ""
  ended : status.completionTime = none ↔ ¬ status.jobStatus.Terminal
  wholeStart : ∀ t, status.startTime = some t → storedTime t = t
  untried : status.jobStatus = "" → status.retries = 0 ∧ status.podName = ""
  nonneg : 0 ≤ status.retries.toInt
  budget : status.retries.toInt ≤ max 0 spec.maxRetries.toInt
  named : status.podName = "" ∨ status.podName = simulatorPodName name status.retries
  running : status.jobStatus = progress → status.podName ≠ ""

theorem StatusOk.empty (name : String) (spec : QuantumAerJobSpec) : StatusOk name spec .empty where
  state := .inl rfl
  started := by simp [QuantumAerJobStatus.empty]
  ended := by simp [QuantumAerJobStatus.empty]
  wholeStart := by simp [QuantumAerJobStatus.empty]
  untried := fun _ => ⟨rfl, rfl⟩
  nonneg := by decide
  budget := by
    have hZero : QuantumAerJobStatus.empty.retries.toInt = 0 := by decide
    omega
  named := .inl rfl
  running := by simp [QuantumAerJobStatus.empty, progress]

/-- One status update of the controller, as a later read sees it. -/
inductive Advance (name : String) (spec : QuantumAerJobSpec) (old : QuantumAerJobStatus) :
    QuantumAerJobStatus → Prop where
  | timedOut {message : String} {t : Int} (started : old.startTime ≠ none)
      (active : ¬ old.jobStatus.Terminal) :
      Advance name spec old { old with
        jobStatus := failed, errorMessage := message, completionTime := some (storedTime t) }
  | begin {t : Int} (state : old.jobStatus = "") :
      Advance name spec old { old with
        jobStatus := pending, startTime := some (storedTime t), retries := 0 }
  | recordPod (state : old.jobStatus = pending) :
      Advance name spec old { old with podName := simulatorPodName name old.retries }
  | markProgress (state : old.jobStatus = pending) (named : old.podName ≠ "") :
      Advance name spec old { old with jobStatus := progress }
  | backToPending (state : old.jobStatus = progress) :
      Advance name spec old { old with jobStatus := pending, podName := "" }
  | retry (state : old.jobStatus = progress) (left : old.retries < spec.maxRetries) :
      Advance name spec old { old with
        retries := old.retries + 1, jobStatus := pending, podName := "" }
  | giveUp {message : String} {t : Int} (state : old.jobStatus = progress)
      (spent : ¬ old.retries < spec.maxRetries) :
      Advance name spec old { old with
        jobStatus := failed, errorMessage := message, completionTime := some (storedTime t) }
  | succeed {t : Int} (state : old.jobStatus = progress) :
      Advance name spec old { old with
        completionTime := some (storedTime t), jobStatus := completed }

section Advance
variable {name : String} {spec : QuantumAerJobSpec} {old new : QuantumAerJobStatus}

theorem Advance.active (h : Advance name spec old new) : ¬ old.jobStatus.Terminal := by
  cases h with
  | timedOut _ active => exact active
  | begin state | recordPod state | markProgress state | backToPending state
  | retry state | giveUp state | succeed state => simp [state]

/-- After its first update a job is never new again. -/
theorem Advance.started (h : Advance name spec old new) : new.jobStatus ≠ "" := by
  cases h with
  | recordPod state => simp [state]
  | timedOut | begin | markProgress | backToPending | retry | giveUp | succeed => simp

/-- Every update keeps a status well formed. -/
theorem StatusOk.advance (ok : StatusOk name spec old) (h : Advance name spec old new) :
    StatusOk name spec new := by
  have hStart : old.jobStatus ≠ "" → old.startTime ≠ none := fun h => mt ok.started.mp h
  have hOpen : ¬ old.jobStatus.Terminal → old.completionTime = none := ok.ended.mpr
  cases h with
  | timedOut started active =>
      exact { ok with
        state := by simp
        started := by simpa using started
        ended := by simp
        untried := by simp
        running := by simp [failed, progress] }
  | begin state =>
      have hZero : (0 : Int32).toInt = 0 := by decide
      exact { ok with
        state := by simp
        started := by simp
        ended := by simpa using hOpen (by simp [state])
        wholeStart := by
          rintro t ht
          cases ht
          exact storedTime_storedTime _
        untried := by simp
        nonneg := by simp [hZero]
        budget := by
          simp only [hZero]
          omega
        named := .inl (ok.untried state).2
        running := by simp }
  | recordPod state =>
      exact { ok with
        untried := by simp [state]
        named := .inr rfl
        running := by simp [state] }
  | markProgress state named =>
      exact { ok with
        state := by simp
        started := by simpa using hStart (by simp [state])
        ended := by simpa using hOpen (by simp [state])
        untried := by simp
        running := fun _ => named }
  | backToPending state =>
      exact { ok with
        state := by simp
        started := by simpa using hStart (by simp [state])
        ended := by simpa using hOpen (by simp [state])
        untried := by simp
        named := .inl rfl
        running := by simp }
  | retry state left =>
      have hSucc := toInt_succ left
      have hLess := Int32.lt_iff_toInt_lt.mp left
      have hNonneg := ok.nonneg
      exact { ok with
        state := by simp
        started := by simpa using hStart (by simp [state])
        ended := by simpa using hOpen (by simp [state])
        untried := by simp
        nonneg := by simp only [hSucc]; omega
        budget := by simp only [hSucc]; omega
        named := .inl rfl
        running := by simp }
  | giveUp state spent =>
      exact { ok with
        state := by simp
        started := by simpa using hStart (by simp [state])
        ended := by simp
        untried := by simp
        running := by simp [failed, progress] }
  | succeed state =>
      exact { ok with
        state := by simp
        started := by simpa using hStart (by simp [state])
        ended := by simp
        untried := by simp
        running := by simp [completed, progress] }

/-- A patch of the error message keeps a status well formed. -/
theorem StatusOk.message (ok : StatusOk name spec old) (message : String) :
    StatusOk name spec { old with errorMessage := message } :=
  { ok with }

/-- An unfinished attempt keeps its number while the job is pending. -/
theorem Advance.retries_of_pending (h : Advance name spec old new)
    (state : old.jobStatus = pending) : new.retries = old.retries := by
  cases h with
  | begin hState => simp [state] at hState
  | retry hState => simp [state] at hState
  | timedOut | recordPod | markProgress | backToPending | giveUp | succeed => rfl

end Advance

/-- The retries a status write carries are computed without wrapping around. -/
theorem StatusWrite.retries {h : History} {job : QuantumAerJob} {status : QuantumAerJobStatus}
    (write : StatusWrite h job status) (ok : StatusOk job.name job.spec job.status) :
    status.retries.toInt = job.status.retries.toInt ∨
      status.retries.toInt = job.status.retries.toInt + 1 := by
  cases write with
  | begin checked state clock =>
      left
      rw [(ok.untried state).1]
  | retry checked state found phase left deleted => exact .inr (toInt_succ left)
  | timedOut | recordPod | markProgress | backToPending | giveUp | succeed => exact .inl rfl

/-- Each of the controller's status writes is an advance once it is stored. -/
theorem StatusWrite.advance {h : History} {job : QuantumAerJob} {status : QuantumAerJobStatus}
    (write : StatusWrite h job status) (ok : StatusOk job.name job.spec job.status) :
    Advance job.name job.spec job.status status.stored := by
  have hStart : job.status.startTime.map storedTime = job.status.startTime := by
    cases hTime : job.status.startTime with
    | none => rfl
    | some t => exact congrArg some (ok.wholeStart t hTime)
  have hOpen : ¬ job.status.jobStatus.Terminal →
      job.status.completionTime.map storedTime = job.status.completionTime := by
    intro hActive
    rw [ok.ended.mpr hActive]
    rfl
  cases write with
  | timedOut started limited first expired clock =>
      have hSome : job.status.startTime ≠ none := by simp [started]
      simpa [QuantumAerJobStatus.stored, hStart] using
        @Advance.timedOut job.name job.spec job.status _ _ hSome expired.2
  | begin checked state clock =>
      simpa [QuantumAerJobStatus.stored, hOpen, state] using
        @Advance.begin job.name job.spec job.status _ state
  | recordPod checked state absent placed =>
      simpa [QuantumAerJobStatus.stored, hStart, hOpen, state] using
        @Advance.recordPod job.name job.spec job.status state
  | markProgress checked state seen =>
      have hNamed : job.status.podName ≠ "" := by
        rcases seen with ⟨pod, hFound⟩ | hUnknown
        · exact hFound.1
        · exact hUnknown.1
      simpa [QuantumAerJobStatus.stored, hStart, hOpen, state] using
        @Advance.markProgress job.name job.spec job.status state hNamed
  | backToPending checked state absent =>
      simpa [QuantumAerJobStatus.stored, hStart, hOpen, state] using
        @Advance.backToPending job.name job.spec job.status state
  | retry checked state found phase left deleted =>
      simpa [QuantumAerJobStatus.stored, hStart, hOpen, state] using
        @Advance.retry job.name job.spec job.status state left
  | giveUp checked state found phase spent clock =>
      simpa [QuantumAerJobStatus.stored, hStart] using
        @Advance.giveUp job.name job.spec job.status _ _ state spent
  | succeed checked state found phase clock =>
      simpa [QuantumAerJobStatus.stored, hStart] using
        @Advance.succeed job.name job.spec job.status _ state

section Reasons
variable {h : History} {job : QuantumAerJob} {status : QuantumAerJobStatus}

/-- A job is completed because its pod was found to have succeeded. -/
theorem StatusWrite.completes (write : StatusWrite h job status)
    (after : status.jobStatus = completed) (before : job.status.jobStatus ≠ completed) :
    ∃ pod, PodFound h job pod ∧ pod.phase = .succeeded := by
  cases write with
  | succeed checked state found phase clock => exact ⟨_, found, phase⟩
  | recordPod => exact absurd after before
  | timedOut | giveUp => exact absurd (show failed = completed from after) (by decide)
  | begin | backToPending | retry =>
      exact absurd (show pending = completed from after) (by decide)
  | markProgress => exact absurd (show progress = completed from after) (by decide)

/-- A job fails because of its deadline, or because its pod was found failed. -/
theorem StatusWrite.fails (write : StatusWrite h job status)
    (after : status.jobStatus = failed) (before : job.status.jobStatus ≠ failed) :
    (∃ startTime t, job.status.startTime = some startTime ∧ ⟨.now, t⟩ ∈ h ∧
      TimedOut job startTime t) ∨ ∃ pod, PodFound h job pod ∧ pod.phase = .failed := by
  cases write with
  | timedOut started limited first expired clock =>
      exact .inl ⟨_, _, started, firstNow_mem first, expired⟩
  | giveUp checked state found phase spent clock => exact .inr ⟨_, found, phase⟩
  | recordPod => exact absurd after before
  | begin | backToPending | retry => exact absurd (show pending = failed from after) (by decide)
  | markProgress => exact absurd (show progress = failed from after) (by decide)
  | succeed => exact absurd (show completed = failed from after) (by decide)

theorem timeoutMessage_ne_empty (job : QuantumAerJob) : timeoutMessage job ≠ "" := by
  have hText : timeoutMessage job =
      "Job exceeded timeout of " ++ toString job.spec.timeOut.toInt ++ " seconds" := rfl
  rw [hText]
  intro hEmpty
  have hEnd := (String.append_eq_empty_iff.mp hEmpty).2
  simp at hEnd

/-- The controller never fails a job without a message. -/
theorem StatusWrite.explains (write : StatusWrite h job status)
    (after : status.jobStatus = failed) (before : job.status.jobStatus ≠ failed) :
    status.errorMessage ≠ "" := by
  cases write with
  | timedOut => exact timeoutMessage_ne_empty job
  | giveUp => simp
  | recordPod => exact absurd after before
  | begin | backToPending | retry => exact absurd (show pending = failed from after) (by decide)
  | markProgress => exact absurd (show progress = failed from after) (by decide)
  | succeed => exact absurd (show completed = failed from after) (by decide)

/-- A retry is used up because the pod was found failed. -/
theorem StatusWrite.retries_changed (write : StatusWrite h job status)
    (ok : StatusOk job.name job.spec job.status)
    (changed : status.retries ≠ job.status.retries) :
    ∃ pod, PodFound h job pod ∧ pod.phase = .failed := by
  cases write with
  | retry checked state found phase left deleted => exact ⟨_, found, phase⟩
  | begin checked state clock => exact absurd (ok.untried state).1.symm changed
  | timedOut | recordPod | markProgress | backToPending | giveUp | succeed =>
      exact absurd rfl changed

/-- A write that ends a job leaves its pod and its number as they are. -/
theorem StatusWrite.kept_of_terminal (write : StatusWrite h job status)
    (terminal : status.jobStatus.Terminal) :
    status.podName = job.status.podName ∧ status.retries = job.status.retries := by
  cases write with
  | timedOut | giveUp | succeed => exact ⟨rfl, rfl⟩
  | begin | backToPending | retry => exact absurd terminal not_terminal_pending
  | markProgress => exact absurd terminal not_terminal_progress
  | recordPod checked state =>
      rw [show job.status.jobStatus = pending from state] at terminal
      exact absurd terminal not_terminal_pending

end Reasons
end QuantumService.Controller
