import QuantumService.Controller.Expiry

/-! A reconcile of an unfinished job after its deadline. Whatever state the job was
read in, all that is left to do is to fail it, unless it was read as new. -/
namespace QuantumService.Controller
open Interaction Program

/-- The last instant at which a job started at `startTime` may go on. -/
def deadline (startTime : Int) (timeOut : Int32) : Int := startTime + timeOut.toInt * second

/-- The deadline check is exact for every `int32` number of seconds. -/
theorem timedOut_iff (job : QuantumAerJob) (startTime now : Int) :
    TimedOut job startTime now ↔
      deadline startTime job.spec.timeOut < now ∧ ¬ job.status.jobStatus.Terminal := by
  have hLower := job.spec.timeOut.le_toInt
  have hUpper := job.spec.timeOut.toInt_lt
  have hTime : timeSub now startTime > seconds job.spec.timeOut ↔
      deadline startTime job.spec.timeOut < now := by
    rw [seconds_eq]
    unfold timeSub deadline second
    omega
  rw [TimedOut, hTime]

/-- All clock readings are after this instant. -/
def After (limit : Int) (h : History) : Prop := ∀ t, ⟨.now, t⟩ ∈ h → limit < t

/-- The update fails the job for good and leaves its retries alone. -/
structure Fails (job update : QuantumAerJob) : Prop where
  state : update.status.jobStatus = .failed
  completed : update.status.completionTime.isSome
  retries : update.status.retries = job.status.retries

/-- A late reconcile writes once, and it fails the job unless that was read as new. -/
def LateCall (limit : Int) (job : QuantumAerJob) (h : History) (call : Call) : Prop :=
  After limit h → ∀ write, call = .write write → (∀ w answer, ⟨.write w, answer⟩ ∉ h) ∧
    ∃ status, write = .updateStatus (job.withStatus status) ∧
      (Fails job (job.withStatus status) ∨ job.status.jobStatus = "")

/-- A late reconcile returns the error of its status update, if there is one. -/
def LateReturn (limit : Int) (h : History) (outcome : Outcome) : Prop :=
  After limit h → ∃ update answer, ⟨.write (.updateStatus update), answer⟩ ∈ h ∧
    ∀ err, answer = .error err → outcome.2 = some err

section Late
variable {limit : Int} {job : QuantumAerJob} {h : History}

theorem After.of_append {later : History} (after : After limit (h ++ later)) : After limit h :=
  fun t hMem => after t (List.mem_append_left later hMem)

/-- Nothing is said about a reconcile that was in time at some reading. -/
theorem lapses_of_early {p : Reconciler Outcome} (early : ¬ After limit h) :
    p.Follows (LateCall limit job) (LateReturn limit) h := by
  induction p generalizing h with
  | done outcome => exact fun hAfter => absurd hAfter early
  | ask call next ih =>
      constructor
      · exact fun hAfter => absurd hAfter early
      · intro answer
        apply ih answer
        exact fun hAfter => early hAfter.of_append

theorem lateCall_of_read {call : Call} (reads : ∀ w, call ≠ .write w) :
    LateCall limit job h call := fun _ write hCall => absurd hCall (reads write)

/-- The status update that ends a late reconcile. -/
theorem lapses_of_update {status : QuantumAerJobStatus} {failed succeeded : Result}
    {next : Except ApiError Unit → Reconciler Outcome}
    (clean : ∀ w answer, ⟨.write w, answer⟩ ∉ h)
    (fails : Fails job (job.withStatus status) ∨ job.status.jobStatus = "")
    (onError : ∀ err, next (.error err) = .done (failed, some err))
    (onOk : next (.ok ()) = .done (succeeded, none)) :
    (updateStatus job status >>= next).Follows (LateCall limit job) (LateReturn limit) h := by
  have hCall : LateCall limit job h (.write (.updateStatus (job.withStatus status))) := by
    rintro - _ ⟨⟩
    exact ⟨clean, status, rfl, fails⟩
  refine .query hCall fun answer => ?_
  cases answer with
  | error err =>
      rw [onError]
      intro _
      refine ⟨_, _, last_mem _, ?_⟩
      rintro _ ⟨⟩
      rfl
  | ok =>
      rw [onOk]
      intro _
      exact ⟨_, _, last_mem _, by rintro _ ⟨⟩⟩

theorem checkTimeout_lapses (active : ¬ job.status.jobStatus.Terminal)
    (limited : job.spec.timeOut > 0)
    (started : job.status.startTime = none → job.status.jobStatus = "")
    (due : ∀ s, job.status.startTime = some s → deadline s job.spec.timeOut = limit)
    (clean : ∀ w answer, ⟨.write w, answer⟩ ∉ h) :
    (checkTimeout job).Follows (LateCall limit job) (LateReturn limit) h := by
  unfold checkTimeout
  cases hStart : job.status.startTime with
  | some s =>
      dsimp only
      rw [if_pos limited]
      refine .query (lateCall_of_read (by simp)) fun t => ?_
      have hClean := clean_snoc_now clean t
      split
      · refine .query (lateCall_of_read (by simp)) fun now => ?_
        exact lapses_of_update (clean_snoc_now hClean now) (.inl ⟨rfl, rfl, rfl⟩) (fun _ => rfl) rfl
      · rename_i hInTime
        apply lapses_of_early
        intro hAfter
        apply hInTime
        rw [timedOut_iff, due s hStart]
        exact ⟨hAfter t (last_mem _), active⟩
  | none =>
      have hNew := started hStart
      dsimp only
      rw [dispatch_new hNew]
      refine .query (lateCall_of_read (by simp)) fun now => ?_
      exact lapses_of_update (clean_snoc_now clean now) (.inr hNew) (fun _ => rfl) rfl

/-- What is left of a reconcile that has read an unfinished job. -/
theorem rest_lapses {req : NamespacedName} {rest : Reconciler Outcome}
    (path : Path (reconcile req) h rest) (read : readJob h = some job)
    (active : ¬ job.status.jobStatus.Terminal) (limited : job.spec.timeOut > 0)
    (started : job.status.startTime = none → job.status.jobStatus = "")
    (due : ∀ s, job.status.startTime = some s → deadline s job.spec.timeOut = limit) :
    rest.Follows (LateCall limit job) (LateReturn limit) h := by
  obtain ⟨later, rfl, hPath⟩ := path_of_read path read
  have lapses := checkTimeout_lapses (h := [⟨.getJob req, .ok job⟩]) active limited started due
    (by simp)
  exact lapses.path hPath

end Late

/-- A late status update fails the job, or stores the start time of a new one. -/
theorem StatusWrite.late {h : History} {job : QuantumAerJob} {status : QuantumAerJobStatus}
    (reason : StatusWrite h job status) (limited : job.spec.timeOut > 0)
    (started : job.status.startTime = none ↔ job.status.jobStatus = "")
    (late : ∀ s, job.status.startTime = some s → After (deadline s job.spec.timeOut) h) :
    status.jobStatus = .failed ∨
      (job.status.startTime = none ∧ status.startTime.isSome = true) := by
  have hUnchecked : ¬ job.status.jobStatus.Terminal → job.status.jobStatus ≠ "" →
      ¬ Checked h job := by
    intro hActive hStarted hChecked
    obtain ⟨s, hStart⟩ := Option.ne_none_iff_exists'.mp (mt started.mp hStarted)
    obtain ⟨t, hFirst, hInTime⟩ := hChecked s hStart limited
    exact hInTime ((timedOut_iff job s t).mpr ⟨late s hStart t (firstNow_mem hFirst), hActive⟩)
  cases reason with
  | timedOut => exact .inl rfl
  | begin checked state => exact .inr ⟨started.mpr state, rfl⟩
  | recordPod checked state | markProgress checked state | backToPending checked state
  | retry checked state | giveUp checked state | succeed checked state =>
      exact absurd checked (hUnchecked (by simp [state]) (by simp [state]))

theorem timeoutMessage_ne (job : QuantumAerJob) :
    timeoutMessage job ≠ "Job terminated due to consistend Pod failures" := by
  intro hSame
  have hText : timeoutMessage job =
      "Job exceeded timeout of " ++ (toString job.spec.timeOut.toInt ++ " seconds") :=
    String.append_assoc ..
  rw [hText] at hSame
  have hChars := congrArg (fun text : String => text.toList.take 5) hSame
  rw [String.toList_append, List.take_append_of_le_length (by decide)] at hChars
  exact absurd hChars (by decide)

/-- The message of the timeout branch is written by no other one. -/
theorem StatusWrite.timedOut_inv {h : History} {job : QuantumAerJob}
    {status : QuantumAerJobStatus} (reason : StatusWrite h job status)
    (failed : status.jobStatus = .failed) (message : status.errorMessage = timeoutMessage job) :
    ∃ startTime t, job.status.startTime = some startTime ∧ firstNow h = some t ∧
      deadline startTime job.spec.timeOut < t := by
  cases reason with
  | @timedOut startTime t now started limited first expired clock =>
      exact ⟨startTime, t, started, first, ((timedOut_iff job startTime t).mp expired).1⟩
  | giveUp => exact absurd message.symm (timeoutMessage_ne job)
  | begin | backToPending | retry => exact absurd failed JobState.failed_ne_pending.symm
  | recordPod checked state =>
      rw [state] at failed
      exact absurd failed JobState.failed_ne_pending.symm
  | markProgress => exact absurd failed JobState.failed_ne_progress.symm
  | succeed => exact absurd failed JobState.completed_ne_failed

end QuantumService.Controller
