import QuantumService.Cluster.Abreast

/-! Recovery. Whatever has happened to a job, once its calls are answered from the current
state again and nobody else creates its pods, its reconciles come to an end: each of them
that finds work to do pays off some of what the job still owes. -/
namespace QuantumService.Cluster
open Interaction Controller World

namespace JobView
variable {key : NamespacedName} {v v' : JobView key}

section Paid
variable {h : History} {job : QuantumAerJob} {status : QuantumAerJobStatus}

/-- Each status update pays for itself, and for what it brings about. -/
theorem InTouch.paid (touch : v.InTouch h job) (write : StatusWrite h job status)
    (ok : StatusOk job.name job.spec job.status) (all : Smooth h) (first : ¬ Updated h) :
    1 + v.ahead job.spec status ≤ v.owes h job + v.ahead job.spec job.status := by
  have hOwes := @owes_nonneg _ v h job
  have hShaken : Seen h → v.Missing job.status.retries → 2 ≤ v.owes h job :=
    fun hSeen hMissing => owes_of_shaken ⟨first, hSeen, hMissing⟩
  have hActive : ¬ job.status.jobStatus.Terminal → 0 < v.ahead job.spec job.status :=
    fun active => Int.add_pos_of_pos_of_nonneg (rank_pos ok active) setback_nonneg
  cases write with
  | timedOut started limited clock expired =>
      have hBefore := hActive expired.2
      rw [ahead_terminal (by simp)]
      omega
  | @begin now checked state clock =>
      obtain ⟨hRetries, hName⟩ := ok.untried state
      have hAfter : v.ahead job.spec { job.status with
          jobStatus := .pending, startTime := some now, retries := 0 } =
          3 * (max 0 job.spec.maxRetries.toInt - (0 : Int32).toInt) + 3 := ahead_pending rfl hName
      rw [hAfter, ahead, setback_unnamed hName, rank, if_pos state, hRetries]
      omega
  | recordPod checked state absent placed =>
      have hAfter : v.ahead job.spec { job.status with
          podName := simulatorPodName job.name job.status.retries } =
          3 * (max 0 job.spec.maxRetries.toInt - job.status.retries.toInt) + 2 +
            if v.Missing job.status.retries then 1 else 0 :=
        ahead_recorded state (simulatorPodName_ne_empty _ _)
      rw [hAfter]
      by_cases hName : job.status.podName = ""
      · have hSeen := hShaken (.of_placed placed)
        rw [ahead_pending state hName]
        split
        · rename_i hMissing
          have hTwo := hSeen hMissing
          omega
        · omega
      · have hEffective : Effective h job := .inr ⟨hName, provided_of_placed placed⟩
        have hOne := @owes_of_effective _ v h job hEffective
        rw [ahead_recorded state hName]
        omega
  | markProgress checked state seen =>
      obtain ⟨pod, hFound⟩ := seen.resolve_right (not_podUnknown all)
      have hSeen := hShaken (.of_found hFound)
      have hAfter : v.ahead job.spec { job.status with jobStatus := .progress } =
          3 * (max 0 job.spec.maxRetries.toInt - job.status.retries.toInt) + 1 +
            if v.Missing job.status.retries then 3 else 0 := ahead_progress rfl hFound.1
      rw [hAfter, ahead_recorded state hFound.1]
      split
      · rename_i hMissing
        have hTwo := hSeen hMissing
        omega
      · omega
  | backToPending checked state absent untouched =>
      have hName := ok.running state
      have hMissing : v.Missing job.status.retries := by
        refine (touch.vacant (misses_of_absent absent hName)).resolve_left fun hProvided => ?_
        obtain ⟨e, hMem, hPlaced⟩ := List.any_eq_true.mp hProvided
        obtain ⟨pod, rfl | rfl⟩ := placedPod_inv hPlaced
        · exact untouched _ _ hMem
        · exact untouched _ _ hMem
      have hAfter : v.ahead job.spec { job.status with jobStatus := .pending, podName := "" } =
          3 * (max 0 job.spec.maxRetries.toInt - job.status.retries.toInt) + 3 :=
        ahead_pending rfl rfl
      rw [hAfter, ahead_progress state hName, if_pos hMissing]
      omega
  | retry checked state found phase left deleted =>
      have hSucc := toInt_succ left
      have hSetback := @setback_nonneg _ v job.status
      have hAfter : v.ahead job.spec { job.status with
          retries := job.status.retries + 1, jobStatus := .pending, podName := "" } =
          3 * (max 0 job.spec.maxRetries.toInt - (job.status.retries + 1).toInt) + 3 :=
        ahead_pending rfl rfl
      rw [hAfter, ahead, rank_progress state]
      omega
  | giveUp checked state found phase spent clock =>
      have hBefore := hActive (by simp [state])
      rw [ahead_terminal (by simp)]
      omega
  | succeed checked state found phase clock =>
      have hBefore := hActive (by simp [state])
      rw [ahead_terminal (by simp)]
      omega

end Paid

section Moves
variable {history : History} {call : Call} {next : call.Answer → Reconciler Outcome}
  {path : Program.Path (reconcile key) history (.ask call next)} {answer : call.Answer}

theorem debt_le (finished : v'.finished = v.finished)
    (paid : v'.owed + v'.due ≤ v.owed + v.due) : v'.debt ≤ v.debt := by
  unfold debt worked
  rw [finished]
  omega

/-- What is due where the stored job stays. -/
theorem due_le_add {loss : Int} (nonneg : 0 ≤ loss) (current : v'.job.current = v.job.current)
    (paid : ∀ spec status, v'.ahead spec status ≤ v.ahead spec status + loss) :
    v'.due ≤ v.due + loss := by
  cases hCurrent : v.job.current with
  | none =>
      rw [due_of_none hCurrent, due_of_none (current.trans hCurrent)]
      omega
  | some job =>
      rw [due_of_stored hCurrent, due_of_stored (current.trans hCurrent)]
      exact paid _ _

/-- What is owed where the reconcile goes on waiting. -/
theorem owed_le_add {loss : Int} (nonneg : 0 ≤ loss) (worker : v'.worker = v.worker)
    (paid : ∀ h job, v'.owes h job ≤ v.owes h job + loss) : v'.owed ≤ v.owed + loss := by
  cases hBusy : v.worker with
  | none =>
      rw [owed_of_idle hBusy, owed_of_idle (worker.trans hBusy)]
      omega
  | some busy =>
      cases hRead : readJob busy.history with
      | none =>
          rw [owed_of_unread hBusy hRead, owed_of_unread (worker.trans hBusy) hRead]
          omega
      | some job =>
          rw [owed_of_held hBusy hRead, owed_of_held (worker.trans hBusy) hRead]
          exact paid _ _

/-- Where no pod gets lost nothing more is due. -/
theorem due_mono (current : v'.job.current = v.job.current)
    (present : ∀ r, v'.Missing r → v.Missing r) : v'.due ≤ v.due := by
  have hDue := due_le_add (Int.le_refl 0) current fun spec status => by
    rw [Int.add_zero]
    exact Int.add_le_add_left (setback_mono (present status.retries)) (rank spec status)
  omega

theorem owed_mono (worker : v'.worker = v.worker) (present : ∀ r, v'.Missing r → v.Missing r) :
    v'.owed ≤ v.owed := by
  have hOwed := owed_le_add (Int.le_refl 0) worker fun h job => by
    rw [Int.add_zero]
    exact owes_mono id fun hShaken => ⟨hShaken.1, hShaken.2.1, present _ hShaken.2.2⟩
  omega

/-- The answer to another call than the read of the job or a status update. What it tells
of the pod is true, and a pod that is there already was missed by no reconcile. -/
theorem debt_resume (waits : v.Waits history call next path)
    (finished : v'.finished = v.finished) (due : v'.due ≤ v.due)
    (present : ∀ r, v'.Missing r → v.Missing r)
    (job : ∀ req job, (⟨call, answer⟩ : Event Call.Answer) ≠ ⟨.getJob req, .ok job⟩)
    (other : isUpdated ⟨call, answer⟩ = false)
    (seen : ∀ job, readJob history = some job →
      foundPod ⟨call, answer⟩ = true ∨ placedPod ⟨call, answer⟩ = true →
        ¬ v'.Missing job.status.retries)
    (placed : ∀ job, readJob history = some job → placedPod ⟨call, answer⟩ = true →
      job.status.podName ≠ "" → Effective history job) :
    (v'.resume path answer).debt ≤ v.debt := by
  have hOwed : (v'.resume path answer).owed ≤ v.owed := by
    have hBusy : (v'.resume path answer).worker = some (Worker.extend path answer) := rfl
    cases hRead : readJob (history ++ [⟨call, answer⟩]) with
    | none =>
        rw [owed_of_unread hBusy hRead]
        exact owed_nonneg
    | some held =>
        have hHeld := readJob_extend job hRead
        rw [owed_of_held hBusy hRead, owed_of_held waits hHeld]
        apply owes_mono
        · rintro (hUpdated | ⟨hNamed, hProvided⟩)
          · exact .inl ((updated_snoc_iff other).mp hUpdated)
          · by_cases hPlaced : placedPod (⟨call, answer⟩ : Event Call.Answer) = true
            · exact placed held hHeld hPlaced hNamed
            · exact .inr ⟨hNamed, hProvided.of_snoc (Bool.eq_false_iff.mpr hPlaced)⟩
        · rintro ⟨hFirst, hSeen, hMissing⟩
          have hUnseen := fun hEvent => seen held hHeld hEvent hMissing
          obtain ⟨hUnfound, hUnplaced⟩ := not_or.mp hUnseen
          exact ⟨fun h => hFirst (h.append _), hSeen.of_snoc (Bool.eq_false_iff.mpr hUnfound)
            (Bool.eq_false_iff.mpr hUnplaced), present _ hMissing⟩
  exact debt_le finished (Int.add_le_add hOwed due)

/-- A pod that is stored is not missing. -/
theorem missing_of_setPod {retries r : Int32} {value : Option Pod} (stored : value ≠ none)
    (missing : (v.setPod retries value).Missing r) : v.Missing r := by
  have hr : r ≠ retries := by
    rintro rfl
    rw [Missing, setPod_pods_self] at missing
    exact stored missing
  rw [Missing, ← setPod_pods_of_ne v hr value]
  exact missing

/-- The loss of a pod undoes what was found out about it. -/
theorem debt_removePod {retries : Int32} : (v.setPod retries none).debt ≤ v.debt + 5 := by
  have hOwed : (v.setPod retries none).owed ≤ v.owed + 2 := by
    refine owed_le_add (by decide) rfl fun h job => ?_
    unfold owes
    split <;> split <;> split <;> decide
  have hDue : (v.setPod retries none).due ≤ v.due + 3 := by
    refine due_le_add (by decide) rfl fun spec status => ?_
    have hAfter := @setback_le _ (v.setPod retries none) status
    have hBefore := @setback_nonneg _ v status
    unfold ahead
    omega
  show (v.worked : Int) + _ + _ ≤ v.worked + _ + _ + 5
  omega

/-- A creation that is refused finds the pod of the attempt. -/
theorem Attended.refused {a : Action} (attended : Attended v a (v.resume path answer))
    (sound : Sound v) (waits : v.Waits history call next path)
    (uneventful : v.Uneventful ⟨call, answer⟩) (placed : placedPod ⟨call, answer⟩ = true)
    {job : QuantumAerJob} (held : readJob history = some job) :
    job.status.jobStatus = .pending ∧ PodAbsent history job ∧ ¬ v.Missing job.status.retries := by
  obtain ⟨pod, hEvent | hEvent⟩ := placedPod_inv placed
  · exact absurd hEvent (uneventful.write _)
  · cases hEvent
    obtain ⟨job', hRead, hPending, hAbsent, rfl⟩ := (site_of_busy path).createPod_inv
    obtain rfl := Option.some.inj (held.symm.trans hRead)
    exact ⟨hPending, hAbsent,
      attended.taken waits rfl (simulatorPod_key (sound.held_key waits held))⟩

/-- A reconcile creates the pod of its attempt. -/
theorem debt_created (abreast : Abreast v) {job : QuantumAerJob} {pod : Pod}
    {next : Except ApiError Unit → Reconciler Outcome}
    {path : Program.Path (reconcile key) history
      (.ask (.write (.createPod (simulatorPod job))) next)}
    (waits : v.Waits history (.write (.createPod (simulatorPod job))) next path)
    (held : readJob history = some job) (free : v.Missing job.status.retries) :
    (((v.setPod job.status.retries (some pod)).log (.createPod (simulatorPod job))).resume path
      (.ok ())).debt ≤ v.debt := by
  let v' := ((v.setPod job.status.retries (some pod)).log (.createPod (simulatorPod job))).resume
    path (.ok ())
  have hPresent : ¬ v'.Missing job.status.retries := by
    show (((v.setPod job.status.retries (some pod)).pods job.status.retries).current) ≠ none
    rw [setPod_pods_self]
    exact Option.some_ne_none pod
  have hKept : ∀ r, v'.Missing r → v.Missing r :=
    fun r => missing_of_setPod (Option.some_ne_none pod)
  have hBusy : v'.worker = some (@Worker.extend key history
    (.write (.createPod (simulatorPod job))) next path (.ok ())) := rfl
  have hOwed : v'.owed = v'.owes (history ++ [⟨.write (.createPod (simulatorPod job)), .ok ()⟩])
      job := owed_of_held hBusy (readJob_append held _)
  have hBefore : v.owed = v.owes history job := owed_of_held waits held
  have hUnshaken : ¬ v'.Shaken
      (history ++ [⟨.write (.createPod (simulatorPod job)), .ok ()⟩]) job :=
    fun hShaken => hPresent hShaken.2.2
  refine debt_le rfl ?_
  show v'.owed + v'.due ≤ v.owed + v.due
  rw [hOwed, hBefore]
  by_cases hEffective : Effective history job
  · have hOwes := owes_le hUnshaken
    have hOne := @owes_of_effective _ v history job hEffective
    have hDue := due_mono (show v'.job.current = v.job.current from rfl) hKept
    omega
  · obtain ⟨job', hRead, hPending, hAbsent, hSame⟩ := (site_of_busy path).createPod_inv
    obtain rfl := Option.some.inj (held.symm.trans hRead)
    obtain ⟨stored, hStored, hStatus⟩ :=
      (abreast _ _ waits held (.inr (.inl hPending))).unchanged fun h => hEffective (.inl h)
    have hOwes := owes_le hUnshaken
    have hNonneg := @owes_nonneg _ v history job
    by_cases hName : job.status.podName = ""
    · have hNothing : ¬ Effective
          (history ++ [⟨.write (.createPod (simulatorPod job)), .ok ()⟩]) job := by
        rintro (hUpdated | hProvided)
        · exact hEffective (.inl ((updated_snoc_iff rfl).mp hUpdated))
        · exact hProvided.1 hName
      have hDue := due_mono (show v'.job.current = v.job.current from rfl) hKept
      rw [owes_eq_zero hUnshaken hNothing]
      omega
    · -- the pod that the status names was missing
      have hState : stored.status.jobStatus = .pending := by rw [hStatus]; exact hPending
      have hNamed : stored.status.podName ≠ "" := by rw [hStatus]; exact hName
      have hRetries : stored.status.retries = job.status.retries := by rw [hStatus]
      have hAfter : v'.due = _ := due_of_stored (show v'.job.current = some stored from hStored)
      have hWas : v.due = _ := due_of_stored hStored
      rw [ahead_recorded hState hNamed, hRetries, if_neg hPresent] at hAfter
      rw [ahead_recorded hState hNamed, hRetries, if_pos free] at hWas
      omega

/-- A reconcile updates the status. -/
theorem debt_updated (abreast : Abreast v) (sound : Sound v) {job stored : QuantumAerJob}
    {status : QuantumAerJobStatus} {next : Except ApiError Unit → Reconciler Outcome}
    {path : Program.Path (reconcile key) history
      (.ask (.write (.updateStatus (job.withStatus status))) next)}
    (waits : v.Waits history (.write (.updateStatus (job.withStatus status))) next path)
    (held : readJob history = some job) (present : v.job.current = some stored)
    (version : stored.resourceVersion = job.resourceVersion) (all : Smooth history) :
    (((v.setJob (some { stored with status := status.stored, resourceVersion := v.next })).log
      (.updateStatus (job.withStatus status))).resume path (.ok ())).debt ≤ v.debt := by
  obtain ⟨rfl, -⟩ := sound.versions.eq_of_version (sound.held waits held) present version
  let after := { stored with status := status.stored, resourceVersion := v.next }
  let v' := ((v.setJob (some after)).log (.updateStatus (stored.withStatus status))).resume path
    (.ok ())
  have hOk := sound.versions.ok (sound.held_visible waits held)
  have hReason := (site_of_busy path).reason held
  have hUnfinished := unfinished_of_active hOk (hReason.advance hOk).active
  have hTouch : v.InTouch history stored := abreast _ _ waits held hUnfinished
  have hFirst : ¬ Updated history :=
    fun hUpdated => Nat.lt_irrefl _ (hTouch.superseded hUpdated _ present)
  have hPaid := hTouch.paid hReason hOk all hFirst
  have hOwed : v'.owed ≤ 1 := by
    have hAfter : v'.owed = _ := owed_of_held rfl (readJob_append held _)
    rw [hAfter]
    exact owes_le fun hShaken => hShaken.1 updated_snoc
  have hStored : v'.job.current = some after := rfl
  have hDue : v'.due = v.ahead stored.spec status := due_of_stored hStored
  have hBefore : v.owed = v.owes history stored := owed_of_held waits held
  have hWas := due_of_stored present
  refine debt_le rfl ?_
  show v'.owed + v'.due ≤ v.owed + v.due
  omega

theorem debt_finish {outcome : Outcome}
    {path : Program.Path (reconcile key) history (.done outcome)}
    (busy : v.worker = some ⟨history, .done outcome, path⟩) (all : Smooth history) :
    JobView.debt { v.setWorker none with finished := (history, outcome) :: v.finished } ≤
      v.debt := by
  have hWork : HasWork history → 1 ≤ v.owed := by
    rintro ⟨job, hRead, hUnfinished, hIdle⟩
    have hMoved := (passes_of_path path hRead all).2 hUnfinished
    rw [owed_of_held busy hRead]
    exact owes_of_effective (effective_of_moved hMoved hIdle)
  have hNonneg := @owed_nonneg _ v
  have hWorked : ((history, outcome) :: v.finished).countP (fun e => HasWork e.1) =
      v.worked + if HasWork history then 1 else 0 := by
    rw [List.countP_cons]
    simp [worked]
  show (((((history, outcome) :: v.finished).countP fun e => HasWork e.1) : Nat) : Int) + 0 +
    v.due ≤ v.worked + v.owed + v.due
  rw [hWorked]
  split
  · rename_i hHas
    have hOne := hWork hHas
    omega
  · omega

/-- Only the loss of a pod raises the debt. -/
theorem debt_step (abreast : Abreast v) (sound : Sound v) (created : v.created)
    (smooth : ∀ worker, v.worker = some worker → Smooth worker.history) {a : Action}
    (attended : Attended v a v') (h : Moves v a v') :
    v'.debt ≤ v.debt ∨ (∃ r, a = .removePod (simulatorPodKey key r)) ∧ v'.debt ≤ v.debt + 5 := by
  cases h with
  | elsewhere | setClock => exact .inl (Int.le_refl _)
  | create fresh => exact absurd created fresh
  | start idle =>
      refine .inl (debt_le rfl ?_)
      have hBefore := owed_of_idle idle
      show 0 + v.due ≤ v.owed + v.due
      omega
  | @readJob age value register next path waits read =>
      refine .inl (debt_le rfl ?_)
      have hCurrent := Register.current_read read
      have hDue : (v.serveJob register).due ≤ v.due := due_mono hCurrent fun _ h => h
      have hBefore : v.owed = 0 := owed_of_unread waits rfl
      have hOwed : ((v.serveJob register).resume path (served value)).owed = 0 := by
        cases value with
        | none => exact owed_of_unread rfl rfl
        | some job =>
            refine (owed_of_held rfl rfl).trans (owes_eq_zero ?_ ?_)
            · rintro ⟨-, hFound | hProvided, -⟩
              · cases hFound
              · cases hProvided
            · rintro (hUpdated | ⟨-, hProvided⟩)
              · cases hUpdated
              · cases hProvided
      show _ + (v.serveJob register).due ≤ _
      omega
  | @readPod age job value register history next path waits held read =>
      have hAge := attended.current age rfl
      subst hAge
      have hValue : value = (v.pods job.status.retries).current := Register.value_of_read read
      have hCurrent := servePod_pods_current read
      have hPresent : ∀ r, (v.servePod job.status.retries register).Missing r → v.Missing r := by
        intro r hMissing
        rw [Missing, ← hCurrent]
        exact hMissing
      refine .inl (debt_resume waits rfl (due_mono rfl hPresent) hPresent (by rintro req job' ⟨⟩)
        rfl ?_ ?_)
      · rintro job' hRead (hFound | hPlaced) hMissing
        · obtain rfl := Option.some.inj (held.symm.trans hRead)
          have hGone := hPresent _ hMissing
          rw [Missing, ← hValue] at hGone
          subst hGone
          cases hFound
        · cases hPlaced
      · rintro job' - ⟨⟩
  | @created job history next reply answer path waits held free reported =>
      obtain rfl := ok_of_reported reported attended.answered
      exact .inl (debt_created abreast waits held free)
  | @deleted job pod stored history next reply answer path waits held named present reported =>
      have hPresent : ∀ r, (v.setPod job.status.retries
          (some { stored with deletionRequested := true })).Missing r → v.Missing r :=
        fun r => missing_of_setPod (Option.some_ne_none _)
      refine .inl (debt_resume waits rfl (due_mono rfl hPresent) hPresent (by rintro req job' ⟨⟩)
        rfl ?_ ?_)
      · rintro job' - (⟨⟨⟩⟩ | ⟨⟨⟩⟩)
      · rintro job' - ⟨⟩
  | @expired job stored history next reply answer path waits held present reported =>
      have hDue : (v.setJob none).due ≤ v.due := by
        rw [due_of_none (show (v.setJob none).job.current = none from rfl)]
        exact sound.due_nonneg
      refine .inl (debt_resume waits rfl hDue (fun _ h => h) (by rintro req job' ⟨⟩) rfl ?_ ?_)
      · rintro job' - (⟨⟨⟩⟩ | ⟨⟨⟩⟩)
      · rintro job' - ⟨⟩
  | @updated job stored status history next reply answer path waits held present version
      reported =>
      have hLast : Controller.smooth
          ⟨.write (.updateStatus (job.withStatus status)), answer⟩ = true := attended.answered
      obtain rfl := ok_of_smooth hLast
      exact .inl (debt_updated abreast sound waits held present version (smooth _ waits))
  | @quiet call history next reply answer path waits uneventful =>
      refine .inl (debt_resume waits rfl (Int.le_refl _) (fun _ h => h) uneventful.job
        (not_isUpdated uneventful.write) ?_ ?_)
      · rintro job hRead (hFound | hPlaced)
        · obtain ⟨q, pod, hEvent⟩ := foundPod_inv hFound
          exact absurd hEvent (uneventful.pod q pod)
        · exact (attended.refused sound waits uneventful hPlaced hRead).2.2
      · intro job hRead hPlaced hNamed
        obtain ⟨hPending, hAbsent, hPresent⟩ :=
          attended.refused sound waits uneventful hPlaced hRead
        have hTouch : v.InTouch history job := abreast _ _ waits hRead (.inr (.inl hPending))
        exact .inr ⟨hNamed,
          (hTouch.vacant (misses_of_absent hAbsent hNamed)).resolve_right hPresent⟩
  | finish busy => exact .inl (debt_finish busy (smooth _ busy))
  | @patched message stored present =>
      refine .inl (debt_le rfl (Int.le_of_eq ?_))
      show v.owed + v.ahead stored.spec stored.status = v.owed + v.due
      rw [due_of_stored present]
  | @setPhase retries phase pod present =>
      have hPresent : ∀ r, (v.setPod retries (some { pod with phase := phase })).Missing r →
          v.Missing r := fun r => missing_of_setPod (Option.some_ne_none _)
      exact .inl (debt_le rfl (Int.add_le_add (owed_mono rfl hPresent) (due_mono rfl hPresent)))
  | @createPod retries pod named free => exact absurd named (attended.alone pod retries rfl)
  | @removePod retries pod present => exact .inr ⟨⟨retries, rfl⟩, debt_removePod⟩

/-- The reconciles that finished after those in `base` returned no error. -/
def Recovered (base : List (History × Outcome)) (v : JobView key) : Prop :=
  ∃ newer, v.finished = newer ++ base ∧ ∀ e ∈ newer, e.2.2 = none

theorem Recovered.step {base : List (History × Outcome)} (recovered : Recovered base v)
    (smooth : ∀ worker, v.worker = some worker → Smooth worker.history) {a : Action}
    (h : Moves v a v') : Recovered base v' := by
  obtain ⟨newer, hFinished, hNone⟩ := recovered
  cases h with
  | @finish history outcome path busy =>
      refine ⟨(history, outcome) :: newer, ?_, ?_⟩
      · show (history, outcome) :: v.finished = _
        rw [hFinished, List.cons_append]
      · intro e hMem
        rcases List.mem_cons.mp hMem with rfl | hOld
        · exact no_error_of_path path (smooth _ busy)
        · exact hNone e hOld
  | elsewhere | setClock | create | start | readJob | readPod | created | deleted | expired
  | updated | quiet | patched | setPhase | createPod | removePod => exact ⟨newer, hFinished, hNone⟩

end Moves
end JobView

namespace World
variable {w w' : World} {key : NamespacedName}

/-- The pod of one of the job's attempts is removed. -/
def loses (key : NamespacedName) : Action → Bool
  | .removePod pod => (attemptOf key pod).isSome
  | _ => false

theorem loses_iff {a : Action} :
    loses key a = true ↔ ∃ r, a = .removePod (simulatorPodKey key r) := by
  constructor
  · intro hLoses
    unfold loses at hLoses
    split at hLoses
    · obtain ⟨r, hAttempt⟩ := Option.isSome_iff_exists.mp hLoses
      exact ⟨r, by rw [attemptOf_eq_some_iff.mp hAttempt]⟩
    · cases hLoses
  · rintro ⟨r, rfl⟩
    exact Option.isSome_iff_exists.mpr ⟨r, attemptOf_eq_some_iff.mpr rfl⟩

/-- A creation is refused where the pod is there. -/
theorem taken_of_step {a : Action} {history : History} {pod : Pod}
    {next : Except ApiError Unit → Reconciler Outcome}
    {path : Program.Path (reconcile key) history (.ask (.write (.createPod pod)) next)}
    (stepped : w.step a = some w')
    (waits : w.workers key = some ⟨history, .ask (.write (.createPod pod)) next, path⟩)
    (after : w'.workers key = some (@Worker.extend key history (.write (.createPod pod)) next path
      (.error .alreadyExists))) : (w.pods pod.key).current ≠ none := by
  have hHistory : ∀ worker, w'.workers key = some worker →
      worker.history = history ++ [⟨.write (.createPod pod), .error .alreadyExists⟩] := by
    intro worker hBusy
    rw [after] at hBusy
    cases hBusy
    rfl
  rcases workers_of_step stepped key with hSame | hStart | hNone |
    ⟨reply, worker, -, hWaits, hAnswer⟩
  · have hLength := congrArg List.length (hHistory _ (hSame.trans waits))
    simp at hLength
  · have hLength := congrArg List.length (hHistory _ hStart)
    simp [Worker.start] at hLength
  · rw [hNone] at after
    cases after
  · rw [waits] at hWaits
    cases hWaits
    obtain ⟨⟨answer, middle⟩, hRespond, rfl⟩ := Option.map_eq_some_iff.mp hAnswer
    have hLast := hHistory _ (Function.update_self key _ _)
    rw [List.append_cancel_left_eq] at hLast
    cases hLast
    intro hFree
    cases reply with
    | ok => simp [respond, applyWrite, hFree] at hRespond
    | lost => simp [respond, applyWrite, hFree] at hRespond
    | fail => simp [respond] at hRespond
    | read | absent => cases hRespond

/-- What holds while a job recovers from what it was like in `w₀`. -/
structure Recovering (key : NamespacedName) (w₀ w : World) : Prop where
  sound : ∀ key, (w.view key).Sound
  created : key ∈ w.created
  smooth : ∀ worker, w.workers key = some worker → Smooth worker.history
  abreast : (w.view key).Abreast
  recovered : (w.view key).Recovered (entriesOf key w₀.finished)

theorem attended_of_step {a : Action}
    (smooth : ∀ worker, w.workers key = some worker → Smooth worker.history)
    (served : Served key w a) (alone : Alone key w a) (stepped : w.step a = some w') :
    JobView.Attended (w.view key) a (w'.view key) where
  smooth := smooth_step smooth served stepped
  current := by
    rintro age rfl
    have hDirect := (served rfl).1
    simpa [Reply.direct] using hDirect
  alone := by
    rintro pod r rfl
    exact alone pod rfl r
  taken := by
    intro history pod next r path hWaits hAfter hNamed hMissing
    apply taken_of_step stepped hWaits hAfter
    rw [hNamed]
    exact hMissing

/-- Whatever a job was like, it recovers once no reconcile of it is in flight. -/
theorem Recovering.of_idle {job : QuantumAerJob} (sound : ∀ key, (w.view key).Sound)
    (idle : w.workers key = none) (stored : (w.jobs key).current = some job) :
    Recovering key w w where
  sound := sound
  created := (sound key).versions.created_of_stored (stored ▸ (w.jobs key).current_mem_visible)
  smooth := by
    intro worker hBusy
    rw [idle] at hBusy
    cases hBusy
  abreast := by
    intro worker job hBusy
    have hIdle : (w.view key).worker = none := idle
    rw [hIdle] at hBusy
    cases hBusy
  recovered := ⟨[], rfl, fun _ hMem => absurd hMem List.not_mem_nil⟩

theorem Recovering.step {w₀ : World} (recovering : Recovering key w₀ w) {a : Action}
    (served : Served key w a) (alone : Alone key w a) (stepped : w.step a = some w') :
    Recovering key w₀ w' ∧
      (w'.view key).debt ≤ (w.view key).debt + if loses key a then 5 else 0 := by
  have hSound := recovering.sound
  have hMoves := view_moves hSound stepped key
  have hAttended := attended_of_step recovering.smooth served alone stepped
  constructor
  · exact {
      sound := fun key => (hSound key).step (view_moves hSound stepped key)
      created := created_subset stepped recovering.created
      smooth := hAttended.smooth
      abreast := recovering.abreast.step (hSound key) recovering.created hAttended hMoves
      recovered := recovering.recovered.step recovering.smooth hMoves }
  · rcases JobView.debt_step recovering.abreast (hSound key) recovering.created
      recovering.smooth hAttended hMoves with hDebt | ⟨⟨r, rfl⟩, hDebt⟩
    · split <;> omega
    · rw [if_pos (loses_iff.mpr ⟨r, rfl⟩)]
      exact hDebt

/-- What may be left to do for a job, whatever has happened to it. Each of its pods that is
lost later on may undo some of it. -/
def workLeft (job : QuantumAerJob) (losses : Nat) : Int :=
  3 * (max 0 job.spec.maxRetries.toInt - job.status.retries.toInt) + 4 + 5 * losses

/-- From any state of any run, once the calls for a job are answered from the current state
and nobody else creates its pods, no reconcile of it returns an error, and those that find
the job unfinished and no pod to wait for come to an end. -/
theorem recovers {w₀ : World} {job : QuantumAerJob} {actions : List Action}
    (past : Reaches step (fun _ _ => True) Initial w₀) (idle : w₀.workers key = none)
    (stored : (w₀.jobs key).current = some job)
    (along : AllowedAlong step (fun w a => Served key w a ∧ Alone key w a) w₀ actions)
    (run : runActions step w₀ actions = some w) :
    ∃ newer, entriesOf key w.finished = newer ++ entriesOf key w₀.finished ∧
      (∀ e ∈ newer, e.2.2 = none) ∧
      (newer.countP (fun e => HasWork e.1) : Int) ≤ workLeft job (actions.countP (loses key)) ∧
      ∀ later, (w.jobs key).current = some later → ¬ later.status.jobStatus.Terminal →
        (newer.countP (fun e => HasWork e.1) : Int) <
          workLeft job (actions.countP (loses key)) := by
  have hSound := sound_of_reaches past
  have hStart := Recovering.of_idle hSound idle stored
  obtain ⟨hEnd, hCharged⟩ := along.charge
    (fun s a t recovering allowed stepped => recovering.step allowed.1 allowed.2 stepped) run hStart
  have hDebt : (w.view key).debt ≤ (w₀.view key).debt + 5 * actions.countP (loses key) := hCharged
  obtain ⟨newer, hFinished, hNone⟩ := hEnd.recovered
  have hBefore : (w₀.view key).debt = (w₀.view key).worked + 0 + (w₀.view key).due := by
    rw [JobView.debt, JobView.owed_of_idle idle]
  have hDue := (hSound key).due_le stored
  have hWorked : (w.view key).worked =
      newer.countP (fun e => HasWork e.1) + (w₀.view key).worked := by
    show (w.view key).finished.countP _ = _
    rw [hFinished, List.countP_append]
    rfl
  have hAfter : (w.view key).debt =
      (w.view key).worked + (w.view key).owed + (w.view key).due := rfl
  have hOwed := @JobView.owed_nonneg key (w.view key)
  have hNonneg := (hEnd.sound key).due_nonneg
  refine ⟨newer, hFinished, hNone, ?_, ?_⟩
  · unfold workLeft
    omega
  · intro later hLater hActive
    have hPos := (hEnd.sound key).due_pos hLater hActive
    unfold workLeft
    omega

/-- A reconcile has deleted the failed pod of its job, and its update was rejected. Then
the pod is gone. -/
def forgottenRun : List Action :=
  startRun ++ [.patchError sampleKey "Simulation failed",
    .setPhase (simulatorPodKey sampleKey 0) .failed] ++
  pass sampleKey [.read 1, .ok, .read 0, .ok, .ok] ++ [.removePod (simulatorPodKey sampleKey 0)]

/-- The attempt starts over, and its pod is lost once more. -/
def recoveringRun : List Action :=
  pass sampleKey [.read 0, .ok, .read 0, .ok] ++ pass sampleKey [.read 0, .ok, .ok, .ok, .ok] ++
  pass sampleKey [.read 0, .ok, .read 0, .ok] ++ [.removePod (simulatorPodKey sampleKey 0)] ++
  pass sampleKey [.read 0, .ok, .read 0, .ok]

theorem recovers_forgotten : ∃ w₀ w job newer,
    runActions step .empty forgottenRun = some w₀ ∧ (w₀.jobs sampleKey).current = some job ∧
    runActions step w₀ recoveringRun = some w ∧
    entriesOf sampleKey w.finished = newer ++ entriesOf sampleKey w₀.finished ∧
    (∀ e ∈ newer, e.2.2 = none) ∧
    (newer.countP (fun e => HasWork e.1) : Int) <
      workLeft job (recoveringRun.countP (loses sampleKey)) := by
  have hPast : (runActions step .empty forgottenRun).any (fun w₀ =>
      (w₀.workers sampleKey).isNone ∧ (w₀.jobs sampleKey).current.isSome ∧
      AllowedAlong step (fun w a => Served sampleKey w a ∧ a.placed.isNone) w₀ recoveringRun ∧
      (runActions step w₀ recoveringRun).any fun w =>
        (w.jobs sampleKey).current.any fun later => later.status.jobStatus = .pending) = true := by
    decide +kernel
  obtain ⟨w₀, hw₀, hCheck⟩ := (Option.any_eq_true _ _).mp hPast
  obtain ⟨hIdle, hStored, hAlong, hRest⟩ := of_decide_eq_true hCheck
  obtain ⟨w, hw, hEnd⟩ := (Option.any_eq_true _ _).mp hRest
  obtain ⟨later, hLater, hPending⟩ := (Option.any_eq_true _ _).mp hEnd
  obtain ⟨job, hJob⟩ := Option.isSome_iff_exists.mp hStored
  have hActive : ¬ later.status.jobStatus.Terminal := by
    rw [of_decide_eq_true hPending]
    exact JobState.not_terminal_pending
  have hReached : Reaches step (fun _ _ => True) Initial w₀ :=
    (Reaches.start .empty).runActions (.of_forall fun _ _ _ => trivial) hw₀
  have hServed : AllowedAlong step (fun w a => Served sampleKey w a ∧ Alone sampleKey w a) w₀
      recoveringRun := hAlong.mono fun _ _ h => ⟨h.1, alone_of_isNone h.2⟩
  obtain ⟨newer, hFinished, hNone, -, hLeft⟩ :=
    recovers hReached (Option.isNone_iff_eq_none.mp hIdle) hJob hServed hw
  exact ⟨w₀, w, job, newer, hw₀, hJob, hw, hFinished, hNone, hLeft later hLater hActive⟩

end World
end QuantumService.Cluster
