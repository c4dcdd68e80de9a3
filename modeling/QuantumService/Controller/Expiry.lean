import QuantumService.Controller.Requeue

/-! How a reconcile leaves a terminal job: cleaned up and deleted once its TTL has
passed, and otherwise with a delay that ends at that very instant. -/
namespace QuantumService.Controller
open Interaction Program

/-- No `int32` number of seconds is out of reach of a saturated difference. -/
theorem elapsed_iff (now completionTime : Int) (ttl : Int32) :
    timeSub now completionTime ≥ seconds ttl ↔ ttl.toInt * second ≤ now - completionTime := by
  have hLower := ttl.le_toInt
  have hUpper := ttl.toInt_lt
  rw [seconds_eq]
  unfold timeSub second
  omega

/-- The delay up to the end of the TTL is computed without overflow. -/
theorem delay_eq {now completionTime : Int} {ttl : Int32} (after : completionTime ≤ now)
    (early : ¬ timeSub now completionTime ≥ seconds ttl) :
    int64 (seconds ttl - timeSub now completionTime) =
      completionTime + ttl.toInt * second - now := by
  have hUpper := ttl.toInt_lt
  have hEarly : now - completionTime < ttl.toInt * second := by
    have hNot := mt (elapsed_iff now completionTime ttl).mpr early
    omega
  have hElapsed : timeSub now completionTime = now - completionTime := by
    unfold timeSub
    unfold second at hEarly
    omega
  rw [hElapsed, seconds_eq]
  unfold int64 second at *
  rw [Int.bmod_eq_of_le] <;> omega

/-- The last clock reading. -/
def lastNow (h : History) : Option Int := firstNow h.reverse

section LastNow
variable {h : History}

@[simp] theorem lastNow_now (t : Int) : lastNow (h ++ [⟨.now, t⟩]) = some t := by
  rw [lastNow, List.reverse_append]
  rfl

@[simp] theorem lastNow_write (write : Write) (answer : Except ApiError Unit) :
    lastNow (h ++ [⟨.write write, answer⟩]) = lastNow h := by
  rw [lastNow, List.reverse_append]
  rfl

end LastNow

/-- A terminal job that was cleaned up is deleted, or left until its TTL has passed. -/
inductive Expires (h : History) (job : QuantumAerJob) (ttl : Int32) (completionTime : Int) :
    Outcome → Prop where
  | due {now : Int} {answer : Except ApiError Unit} {outcome : Outcome}
      (last : lastNow h = some now) (elapsed : timeSub now completionTime ≥ seconds ttl)
      (deleted : ⟨.write (.deleteJob job), answer⟩ ∈ h) : Expires h job ttl completionTime outcome
  | early {now : Int} (last : lastNow h = some now)
      (early : ¬ timeSub now completionTime ≥ seconds ttl) :
      Expires h job ttl completionTime
        (.after (int64 (seconds ttl - timeSub now completionTime)), none)

/-- What is known of a terminal job when a reconcile returns. -/
def Leaves (job : QuantumAerJob) (h : History) (outcome : Outcome) : Prop :=
  ∀ ttl completionTime, job.spec.ttlSecondsAfterFinished = some ttl →
    job.status.completionTime = some completionTime → CleanedUp h job →
      Expires h job ttl completionTime outcome

/-- A job is deleted when its TTL has passed at the last clock reading. -/
def DeletesDue (h : History) (call : Call) : Prop :=
  ∀ job, call = .write (.deleteJob job) → ∃ ttl completionTime now,
    job.spec.ttlSecondsAfterFinished = some ttl ∧ job.status.completionTime = some completionTime ∧
      lastNow h = some now ∧ timeSub now completionTime ≥ seconds ttl

section Returns
variable {job : QuantumAerJob} {h : History}

theorem expireJob_leaves : (expireJob job).Follows DeletesDue (Leaves job) h := by
  unfold expireJob
  split
  · rename_i ttl completionTime hTtl hCompletion
    refine .query (by rintro _ ⟨⟩) fun now => ?_
    dsimp only
    split
    · rename_i hElapsed
      have hDeletes : DeletesDue (h ++ [⟨.now, now⟩]) (.write (.deleteJob job)) := by
        rintro _ ⟨⟩
        exact ⟨ttl, completionTime, now, hTtl, hCompletion, lastNow_now now, hElapsed⟩
      refine .query hDeletes fun deleted => ?_
      have hDue : ∀ outcome, Leaves job
          (h ++ [⟨.now, now⟩] ++ [⟨.write (.deleteJob job), deleted⟩]) outcome := by
        intro outcome ttl' completionTime' hTtl' hCompletion' _
        rw [hTtl, Option.some.injEq] at hTtl'
        rw [hCompletion, Option.some.injEq] at hCompletion'
        subst hTtl' hCompletion'
        apply Expires.due _ hElapsed (last_mem _)
        rw [lastNow_write, lastNow_now]
      cases deleted with
      | ok => exact hDue _
      | error err =>
          dsimp only
          split
          · exact hDue _
          · exact hDue _
    · rename_i hEarly
      intro ttl' completionTime' hTtl' hCompletion' _
      rw [hTtl, Option.some.injEq] at hTtl'
      rw [hCompletion, Option.some.injEq] at hCompletion'
      subst hTtl' hCompletion'
      exact .early (lastNow_now now) hEarly
  · rename_i hNone
    intro ttl completionTime hTtl hCompletion _
    exact absurd hCompletion (hNone ttl completionTime hTtl)

/-- An inconclusive lookup leaves the job without a cleanup. -/
theorem not_cleanedUp_of_lookup {err : ApiError} (named : job.status.podName ≠ "")
    (unlooked : ∀ key answer, ⟨.getPod key, answer⟩ ∉ h) (unknown : err ≠ .notFound) :
    ¬ CleanedUp (h ++ [⟨.getPod (podKey job), .error err⟩]) job := by
  have hOnly : ∀ {answer}, ⟨.getPod (podKey job), answer⟩ ∈
      h ++ [⟨.getPod (podKey job), .error err⟩] → answer = .error err := by
    intro answer hMem
    rcases List.mem_append.mp hMem with hOld | hNew
    · exact absurd hOld (unlooked _ _)
    · cases List.mem_singleton.mp hNew
      rfl
  rintro ((hEmpty | hAbsent) | ⟨pod, hFound, -⟩)
  · exact named hEmpty
  · cases hOnly hAbsent
    exact unknown rfl
  · cases hOnly hFound.2

/-- A failed deletion of the pod leaves the job without a cleanup. -/
theorem not_cleanedUp_of_delete {pod : Pod} {err : ApiError} (named : job.status.podName ≠ "")
    (clean : ∀ w answer, ⟨.write w, answer⟩ ∉ h)
    (unlooked : ∀ key answer, ⟨.getPod key, answer⟩ ∉ h) (failed : err ≠ .notFound) :
    ¬ CleanedUp (h ++ [⟨.getPod (podKey job), .ok pod⟩] ++
      [⟨.write (.deletePod pod), .error err⟩]) job := by
  have hWrites : ∀ {w answer}, ⟨.write w, answer⟩ ∈ h ++ [⟨.getPod (podKey job), .ok pod⟩] ++
      [⟨.write (.deletePod pod), .error err⟩] → answer = .error err := by
    intro w answer hMem
    rcases List.mem_append.mp hMem with hOld | hNew
    · rcases List.mem_append.mp hOld with hBefore | hLookup
      · exact absurd hBefore (clean _ _)
      · cases List.mem_singleton.mp hLookup
    · cases List.mem_singleton.mp hNew
      rfl
  have hLookups : ∀ {key}, ⟨.getPod key, .error .notFound⟩ ∉
      h ++ [⟨.getPod (podKey job), .ok pod⟩] ++ [⟨.write (.deletePod pod), .error err⟩] := by
    intro key hMem
    rcases List.mem_append.mp hMem with hOld | hNew
    · rcases List.mem_append.mp hOld with hBefore | hLookup
      · exact unlooked _ _ hBefore
      · cases List.mem_singleton.mp hLookup
    · cases List.mem_singleton.mp hNew
  rintro ((hEmpty | hAbsent) | ⟨pod', -, hDeleted | hGone⟩)
  · exact named hEmpty
  · exact hLookups hAbsent
  · cases hWrites hDeleted
  · cases hWrites hGone
    exact failed rfl

theorem handleTerminalJob_leaves (state : job.status.jobStatus.Terminal)
    (clean : ∀ w answer, ⟨.write w, answer⟩ ∉ h)
    (unlooked : ∀ key answer, ⟨.getPod key, answer⟩ ∉ h) :
    (handleTerminalJob job).Follows DeletesDue (Leaves job) h := by
  unfold handleTerminalJob getForPod
  rw [if_pos state]
  split
  · exact expireJob_leaves
  · rename_i hNamed
    refine .query (by rintro _ ⟨⟩) fun answer => ?_
    cases answer with
    | error err =>
        by_cases hErr : err = .notFound
        · subst hErr
          exact expireJob_leaves
        · simp only [ApiError.isNotFound_iff, hErr, if_false]
          intro _ _ _ _ hCleaned
          exact absurd hCleaned (not_cleanedUp_of_lookup hNamed unlooked hErr)
    | ok pod =>
        refine .query (by rintro _ ⟨⟩) fun deleted => ?_
        cases deleted with
        | ok => exact expireJob_leaves
        | error err =>
            by_cases hErr : err = .notFound
            · subst hErr
              exact expireJob_leaves
            · simp only [ApiError.isNotFound_iff, hErr, if_false]
              intro _ _ _ _ hCleaned
              exact absurd hCleaned (not_cleanedUp_of_delete hNamed clean unlooked hErr)

/-- The deadline is no matter to a terminal job. -/
theorem checkTimeout_leaves (state : job.status.jobStatus.Terminal)
    (clean : ∀ w answer, ⟨.write w, answer⟩ ∉ h)
    (unlooked : ∀ key answer, ⟨.getPod key, answer⟩ ∉ h) :
    (checkTimeout job).Follows DeletesDue (Leaves job) h := by
  have hDispatch : ∀ {later}, (∀ w answer, ⟨.write w, answer⟩ ∉ later) →
      (∀ key answer, ⟨.getPod key, answer⟩ ∉ later) →
      (dispatch job).Follows DeletesDue (Leaves job) later := by
    intro later hClean hUnlooked
    rw [dispatch_terminal state]
    exact handleTerminalJob_leaves state hClean hUnlooked
  unfold checkTimeout
  split
  · split
    · refine .query (by rintro _ ⟨⟩) fun now => ?_
      have hInTime : ∀ startTime, ¬ TimedOut job startTime now :=
        fun startTime hExpired => hExpired.2 state
      rw [if_neg (hInTime _)]
      exact hDispatch (clean_snoc_now clean now) (unlooked_snoc_now unlooked now)
    · exact hDispatch clean unlooked
  · exact hDispatch clean unlooked

end Returns

section Reconcile
variable {req : NamespacedName} {history : History} {job : QuantumAerJob}
  {rest : Reconciler Outcome}

/-- What is left of a reconcile of a terminal job. -/
theorem rest_leaves (path : Path (reconcile req) history rest) (read : readJob history = some job)
    (state : job.status.jobStatus.Terminal) :
    rest.Follows DeletesDue (Leaves job) history := by
  obtain ⟨later, rfl, hPath⟩ := path_of_read path read
  have leaves := checkTimeout_leaves (h := [⟨.getJob req, .ok job⟩]) state (by simp) (by simp)
  exact leaves.path hPath

/-- A reconcile of a terminal job that has returned. -/
theorem reconcile_leaves {outcome : Outcome} (path : Path (reconcile req) history (.done outcome))
    (read : readJob history = some job) (state : job.status.jobStatus.Terminal) :
    Leaves job history outcome := rest_leaves path read state

/-- The deletion of a job is due when it is requested. -/
theorem deletes_due {next : Except ApiError Unit → Reconciler Outcome}
    (path : Path (reconcile req) history (.ask (.write (.deleteJob job)) next)) :
    readJob history = some job ∧ job.status.jobStatus.Terminal ∧ CleanedUp history job ∧
      ∃ ttl completionTime now, job.spec.ttlSecondsAfterFinished = some ttl ∧
        job.status.completionTime = some completionTime ∧ lastNow history = some now ∧
        ttl.toInt * second ≤ now - completionTime := by
  cases (reconcile_follows req).call path with
  | deleteJob read state cleaned =>
      obtain ⟨ttl, completionTime, now, hTtl, hCompletion, hLast, hElapsed⟩ :=
        (rest_leaves path read state).1 job rfl
      exact ⟨read, state, cleaned, ttl, completionTime, now, hTtl, hCompletion, hLast,
        (elapsed_iff now completionTime ttl).mp hElapsed⟩

end Reconcile

end QuantumService.Controller
