import QuantumService.Controller.Reconcile

/-! What a reconcile has learned when it makes each of its calls. Every later
argument about the controller starts from this list and never unfolds the
handlers again. -/
namespace QuantumService.Controller
open Interaction Program

/-- The job a reconcile works on: the answer to its first call. -/
def readJob : History → Option QuantumAerJob
  | ⟨.getJob _, .ok job⟩ :: _ => some job
  | _ => none

/-- The first clock reading, which is the one of the deadline check. -/
def firstNow : History → Option Int
  | [] => none
  | ⟨.now, t⟩ :: _ => some t
  | ⟨.getJob _, _⟩ :: h => firstNow h
  | ⟨.getPod _, _⟩ :: h => firstNow h
  | ⟨.getServiceAccount _, _⟩ :: h => firstNow h
  | ⟨.write _, _⟩ :: h => firstNow h

theorem readJob_append {h : History} {job : QuantumAerJob} (read : readJob h = some job)
    (later : History) : readJob (h ++ later) = some job := by
  cases h with
  | nil => cases read
  | cons e h =>
      obtain ⟨call, answer⟩ := e
      cases call with
      | getJob key =>
          cases answer with
          | ok job' => exact read
          | error err => cases read
      | getPod | getServiceAccount | write | now => cases read

theorem firstNow_append {h : History} {t : Int} (first : firstNow h = some t)
    (later : History) : firstNow (h ++ later) = some t := by
  induction h with
  | nil => cases first
  | cons e h ih =>
      obtain ⟨call, answer⟩ := e
      cases call <;> first | exact first | exact ih first

theorem firstNow_mem {h : History} {t : Int} (first : firstNow h = some t) :
    ⟨.now, t⟩ ∈ h := by
  induction h with
  | nil => cases first
  | cons e h ih =>
      obtain ⟨call, answer⟩ := e
      cases call with
      | now =>
          cases first
          exact List.mem_cons_self
      | getJob | getPod | getServiceAccount | write => exact List.mem_cons_of_mem _ (ih first)

/-- Where the pod named in the status is looked up. -/
def podKey (job : QuantumAerJob) : NamespacedName := ⟨job.nameSpace, job.status.podName⟩

/-- The deadline check has been passed. -/
def Checked (h : History) (job : QuantumAerJob) : Prop :=
  ∀ startTime, job.status.startTime = some startTime → job.spec.timeOut > 0 →
    ∃ t, firstNow h = some t ∧ ¬ TimedOut job startTime t

/-- `getForPod` returned this pod. -/
def PodFound (h : History) (job : QuantumAerJob) (pod : Pod) : Prop :=
  job.status.podName ≠ "" ∧ ⟨.getPod (podKey job), .ok pod⟩ ∈ h

/-- `getForPod` returned NotFound. -/
def PodAbsent (h : History) (job : QuantumAerJob) : Prop :=
  job.status.podName = "" ∨ ⟨.getPod (podKey job), .error .notFound⟩ ∈ h

/-- `getForPod` returned an error that says nothing about the pod. -/
def PodUnknown (h : History) (job : QuantumAerJob) : Prop :=
  job.status.podName ≠ "" ∧
    ∃ err, err ≠ .notFound ∧ ⟨.getPod (podKey job), .error err⟩ ∈ h

/-- The pod was deleted, or turned out to be gone already. -/
def PodDeleted (h : History) (pod : Pod) : Prop :=
  ⟨.write (.deletePod pod), .ok ()⟩ ∈ h ∨ ⟨.write (.deletePod pod), .error .notFound⟩ ∈ h

/-- The simulator pod was created, or its name was taken. -/
def PodPlaced (h : History) (job : QuantumAerJob) : Prop :=
  ⟨.write (.createPod (simulatorPod job)), .ok ()⟩ ∈ h ∨
    ⟨.write (.createPod (simulatorPod job)), .error .alreadyExists⟩ ∈ h

/-- The eight status writes, each with the reason for it. -/
inductive StatusWrite (h : History) (job : QuantumAerJob) : QuantumAerJobStatus → Prop where
  | timedOut {startTime t now : Int} (started : job.status.startTime = some startTime)
      (limited : job.spec.timeOut > 0) (first : firstNow h = some t)
      (expired : TimedOut job startTime t) (clock : ⟨.now, now⟩ ∈ h) :
      StatusWrite h job { job.status with
        jobStatus := .failed, errorMessage := timeoutMessage job, completionTime := some now }
  | begin {now : Int} (checked : Checked h job) (state : job.status.jobStatus = "")
      (clock : ⟨.now, now⟩ ∈ h) :
      StatusWrite h job { job.status with
        jobStatus := .pending, startTime := some now, retries := 0 }
  | recordPod (checked : Checked h job) (state : job.status.jobStatus = .pending)
      (absent : PodAbsent h job) (placed : PodPlaced h job) :
      StatusWrite h job { job.status with
        podName := simulatorPodName job.name job.status.retries }
  | markProgress (checked : Checked h job) (state : job.status.jobStatus = .pending)
      (seen : (∃ pod, PodFound h job pod) ∨ PodUnknown h job) :
      StatusWrite h job { job.status with jobStatus := .progress }
  | backToPending (checked : Checked h job) (state : job.status.jobStatus = .progress)
      (absent : PodAbsent h job) (untouched : ∀ w answer, ⟨.write w, answer⟩ ∉ h) :
      StatusWrite h job { job.status with jobStatus := .pending, podName := "" }
  | retry {pod : Pod} (checked : Checked h job) (state : job.status.jobStatus = .progress)
      (found : PodFound h job pod) (phase : pod.phase = .failed)
      (left : job.status.retries < job.spec.maxRetries) (deleted : PodDeleted h pod) :
      StatusWrite h job { job.status with
        retries := job.status.retries + 1, jobStatus := .pending, podName := "" }
  | giveUp {pod : Pod} {now : Int} (checked : Checked h job)
      (state : job.status.jobStatus = .progress) (found : PodFound h job pod)
      (phase : pod.phase = .failed) (spent : ¬ job.status.retries < job.spec.maxRetries)
      (clock : ⟨.now, now⟩ ∈ h) :
      StatusWrite h job { job.status with
        jobStatus := .failed
        errorMessage := "Job terminated due to consistend Pod failures"
        completionTime := some now }
  | succeed {pod : Pod} {now : Int} (checked : Checked h job)
      (state : job.status.jobStatus = .progress) (found : PodFound h job pod)
      (phase : pod.phase = .succeeded) (clock : ⟨.now, now⟩ ∈ h) :
      StatusWrite h job { job.status with
        completionTime := some now, jobStatus := .completed }

/-- The pod named in the status was looked for, and deleted if it was there. -/
def CleanedUp (h : History) (job : QuantumAerJob) : Prop :=
  PodAbsent h job ∨ ∃ pod, PodFound h job pod ∧ PodDeleted h pod

/-- Every call a reconcile of `req` makes, with the calls answered before it. -/
inductive Site (req : NamespacedName) : History → Call → Prop where
  | getJob : Site req [] (.getJob req)
  | now {h : History} {job : QuantumAerJob} (read : readJob h = some job) : Site req h .now
  | getPod {h : History} {job : QuantumAerJob} (read : readJob h = some job)
      (named : job.status.podName ≠ "") (unlooked : ∀ q answer, ⟨.getPod q, answer⟩ ∉ h) :
      Site req h (.getPod (podKey job))
  | getServiceAccount {h : History} {job : QuantumAerJob} (read : readJob h = some job) :
      Site req h (.getServiceAccount ⟨job.nameSpace, "quantum-simulator-sa"⟩)
  | createPod {h : History} {job : QuantumAerJob} (read : readJob h = some job)
      (checked : Checked h job) (state : job.status.jobStatus = .pending)
      (absent : PodAbsent h job) : Site req h (.write (.createPod (simulatorPod job)))
  | deleteFailed {h : History} {job : QuantumAerJob} {pod : Pod} (read : readJob h = some job)
      (checked : Checked h job) (state : job.status.jobStatus = .progress)
      (found : PodFound h job pod) (phase : pod.phase = .failed)
      (left : job.status.retries < job.spec.maxRetries)
      (untouched : ∀ w answer, ⟨.write w, answer⟩ ∉ h) : Site req h (.write (.deletePod pod))
  | deleteTerminal {h : History} {job : QuantumAerJob} {pod : Pod}
      (read : readJob h = some job) (state : job.status.jobStatus.Terminal)
      (found : PodFound h job pod) : Site req h (.write (.deletePod pod))
  | deleteJob {h : History} {job : QuantumAerJob} {ttl : Int32} {completionTime now : Int}
      (read : readJob h = some job) (state : job.status.jobStatus.Terminal)
      (cleaned : CleanedUp h job) (limited : job.spec.ttlSecondsAfterFinished = some ttl)
      (completed : job.status.completionTime = some completionTime)
      (clock : ⟨.now, now⟩ ∈ h) (elapsed : timeSub now completionTime ≥ seconds ttl) :
      Site req h (.write (.deleteJob job))
  | updateStatus {h : History} {job : QuantumAerJob} {status : QuantumAerJobStatus}
      (read : readJob h = some job) (reason : StatusWrite h job status) :
      Site req h (.write (.updateStatus (job.withStatus status)))

/-- What is known when a reconcile returns. -/
structure Ends (h : History) (outcome : Outcome) : Prop where
  /-- A terminal job is left without an error only after its pod's cleanup. -/
  cleaned : ∀ {job}, readJob h = some job → job.status.jobStatus.Terminal →
    outcome.2 = none → CleanedUp h job
  /-- A failed pod's deletion is always followed by a status update. -/
  persisted : ∀ {job pod}, readJob h = some job → job.status.jobStatus = .progress →
    ⟨.write (.deletePod pod), .ok ()⟩ ∈ h → ∃ update answer,
      ⟨.write (.updateStatus update), answer⟩ ∈ h

/-- A handler starts on a job that was read and checked, with nothing written. -/
structure Context (h : History) (job : QuantumAerJob) : Prop where
  read : readJob h = some job
  checked : Checked h job
  clean : ∀ w answer, ⟨.write w, answer⟩ ∉ h

/-- The context of a handler that has not looked for the pod yet. -/
structure Start (h : History) (job : QuantumAerJob) : Prop extends Context h job where
  unlooked : ∀ q answer, ⟨.getPod q, answer⟩ ∉ h

section Growth
variable {h : History} {job : QuantumAerJob} {pod : Pod}

theorem Checked.append (checked : Checked h job) (later : History) : Checked (h ++ later) job := by
  intro startTime hStart hLimited
  obtain ⟨t, hFirst, hTime⟩ := checked startTime hStart hLimited
  exact ⟨t, firstNow_append hFirst later, hTime⟩

theorem PodFound.append (found : PodFound h job pod) (later : History) :
    PodFound (h ++ later) job pod :=
  ⟨found.1, List.mem_append_left _ found.2⟩

theorem PodAbsent.append (absent : PodAbsent h job) (later : History) :
    PodAbsent (h ++ later) job :=
  absent.imp id (List.mem_append_left _)

theorem PodUnknown.append (unknown : PodUnknown h job) (later : History) :
    PodUnknown (h ++ later) job := by
  obtain ⟨hNamed, err, hErr, hMem⟩ := unknown
  exact ⟨hNamed, err, hErr, List.mem_append_left _ hMem⟩

theorem PodDeleted.append (deleted : PodDeleted h pod) (later : History) :
    PodDeleted (h ++ later) pod :=
  deleted.imp (List.mem_append_left _) (List.mem_append_left _)

theorem PodDeleted.of_append {later : History} (deleted : PodDeleted (h ++ later) pod) :
    PodDeleted h pod ∨ PodDeleted later pod := by
  rcases deleted with hOk | hGone
  · exact (List.mem_append.mp hOk).imp .inl .inl
  · exact (List.mem_append.mp hGone).imp .inr .inr

/-- Only the answer to a deletion tells that a pod was deleted. -/
theorem not_podDeleted {call : Call} {answer : call.Answer}
    (other : ∀ pod, call ≠ .write (.deletePod pod)) : ¬ PodDeleted [⟨call, answer⟩] pod := by
  rintro (hOk | hGone)
  · exact other pod (congrArg Sigma.fst (List.mem_singleton.mp hOk)).symm
  · exact other pod (congrArg Sigma.fst (List.mem_singleton.mp hGone)).symm

theorem CleanedUp.append (cleaned : CleanedUp h job) (later : History) :
    CleanedUp (h ++ later) job :=
  cleaned.imp (·.append later) fun ⟨pod, hFound, hDeleted⟩ =>
    ⟨pod, hFound.append later, hDeleted.append later⟩

/-- A call that writes nothing keeps a handler's context. -/
theorem Context.snoc (context : Context h job) (call : Call) (answer : call.Answer)
    (reads : ∀ w, call ≠ .write w) : Context (h ++ [⟨call, answer⟩]) job where
  read := readJob_append context.read _
  checked := context.checked.append _
  clean := by
    intro w a hMem
    exact context.clean w a (mem_of_mem_snoc hMem (reads w))

/-- A clock reading is no write. -/
theorem clean_snoc_now (clean : ∀ w answer, ⟨.write w, answer⟩ ∉ h) (t : Int) :
    ∀ w answer, ⟨.write w, answer⟩ ∉ h ++ [⟨.now, t⟩] := by
  intro w answer hMem
  exact clean w answer (mem_of_mem_snoc hMem (by simp))

/-- A clock reading is no lookup. -/
theorem unlooked_snoc_now (unlooked : ∀ q answer, ⟨.getPod q, answer⟩ ∉ h) (t : Int) :
    ∀ q answer, ⟨.getPod q, answer⟩ ∉ h ++ [⟨.now, t⟩] := by
  intro q answer hMem
  exact unlooked q answer (mem_of_mem_snoc hMem (by simp))

end Growth

section Handlers
variable {req : NamespacedName} {h : History} {job : QuantumAerJob}

/-- A handler on an unfinished job that has deleted nothing may return. -/
theorem Context.ends_of_active (context : Context h job)
    (active : ¬ job.status.jobStatus.Terminal) (outcome : Outcome) : Ends h outcome where
  cleaned := by
    intro job' hRead hTerminal _
    rw [context.read] at hRead
    cases hRead
    exact absurd hTerminal active
  persisted := fun _ _ hMem => absurd hMem (context.clean _ _)

/-- A reconcile that has updated the status of an unfinished job may return. -/
theorem ends_of_update (read : readJob h = some job)
    (active : ¬ job.status.jobStatus.Terminal) {update : QuantumAerJob}
    {answer : Except ApiError Unit} (updated : ⟨.write (.updateStatus update), answer⟩ ∈ h)
    (outcome : Outcome) : Ends h outcome where
  cleaned := by
    intro job' hRead hTerminal _
    rw [read] at hRead
    cases hRead
    exact absurd hTerminal active
  persisted := fun _ _ _ => ⟨update, answer, updated⟩

/-- The result of the pod lookup, as the three handlers distinguish it. -/
def Looked (h : History) (job : QuantumAerJob) (result : Except ApiError Pod) : Prop :=
  match result with
  | .ok pod => PodFound h job pod
  | .error err => if err = .notFound then PodAbsent h job else PodUnknown h job

theorem getForPod_follows (start : Start h job) :
    (getForPod job).Follows (Site req) (fun later result =>
      Context later job ∧ Looked later job result) h := by
  unfold getForPod
  split
  · rename_i hEmpty
    exact ⟨start.toContext, by simp [Looked, PodAbsent, hEmpty]⟩
  · rename_i hNamed
    refine ⟨.getPod start.read hNamed start.unlooked, fun answer => ?_⟩
    refine ⟨start.toContext.snoc _ _ (by simp), ?_⟩
    cases answer with
    | ok pod => exact ⟨hNamed, List.mem_append_right _ (List.mem_singleton.mpr rfl)⟩
    | error err =>
        have hMem : (⟨.getPod (podKey job), .error err⟩ : Event Call.Answer) ∈
            h ++ [⟨.getPod (podKey job), .error err⟩] :=
          List.mem_append_right _ (List.mem_singleton.mpr rfl)
        by_cases hErr : err = .notFound
        · subst hErr
          exact .inr hMem
        · simp only [Looked, hErr, if_false]
          exact ⟨hNamed, err, hErr, hMem⟩

/-- The lookup, and what follows each of its results. -/
theorem afterLookup_follows {Value : Type} {post : History → Value → Prop}
    {rest : Except ApiError Pod → Reconciler Value} (start : Start h job)
    (found : ∀ {later pod}, Context later job → PodFound later job pod →
      (rest (.ok pod)).Follows (Site req) post later)
    (absent : ∀ {later}, Context later job → PodAbsent later job →
      (rest (.error .notFound)).Follows (Site req) post later)
    (unknown : ∀ {later err}, err ≠ .notFound → Context later job → PodUnknown later job →
      (rest (.error err)).Follows (Site req) post later) :
    (getForPod job >>= rest).Follows (Site req) post h := by
  refine (getForPod_follows start).bind ?_
  rintro later (err | pod) ⟨hContext, hLooked⟩
  · unfold Looked at hLooked
    by_cases hErr : err = .notFound
    · subst hErr
      exact absent hContext hLooked
    · simp only [hErr, if_false] at hLooked
      exact unknown hErr hContext hLooked
  · exact found hContext hLooked

/-- A status update of an unfinished job, after which the reconcile returns. -/
theorem update_follows {status : QuantumAerJobStatus} {Value : Type}
    (read : readJob h = some job) (reason : StatusWrite h job status)
    {next : Except ApiError Unit → Reconciler Value} {post : History → Value → Prop}
    (rest : ∀ answer later, readJob later = some job →
      ⟨.write (.updateStatus (job.withStatus status)), answer⟩ ∈ later →
      (next answer).Follows (Site req) post later) :
    (updateStatus job status >>= next).Follows (Site req) post h := by
  refine .query (.updateStatus read reason) fun answer => ?_
  exact rest answer _ (readJob_append read _) (last_mem _)

theorem handleNewJob_follows (context : Context h job) (state : job.status.jobStatus = "") :
    (handleNewJob job).Follows (Site req) Ends h := by
  have hActive : ¬ job.status.jobStatus.Terminal := by rw [state]; decide
  unfold handleNewJob
  refine .query (.now context.read) fun now => ?_
  have later := context.snoc .now now (by simp)
  refine update_follows later.read (.begin later.checked state (last_mem _)) ?_
  intro answer h' hRead hUpdated
  cases answer <;> exact ends_of_update hRead hActive hUpdated _

theorem markProgress_follows (context : Context h job)
    (state : job.status.jobStatus = .pending)
    (seen : (∃ pod, PodFound h job pod) ∨ PodUnknown h job) :
    (markProgress job).Follows (Site req) Ends h := by
  have hActive : ¬ job.status.jobStatus.Terminal := by rw [state]; decide
  refine update_follows context.read (.markProgress context.checked state seen) ?_
  intro answer h' hRead hUpdated
  cases answer <;> exact ends_of_update hRead hActive hUpdated _

/-- The postcondition `createSimulatorPod` leaves to `handlePendingJob`. -/
def Placed (job : QuantumAerJob) (h : History) : Prop :=
  readJob h = some job ∧ ∀ pod answer, ⟨.write (.deletePod pod), answer⟩ ∉ h

theorem Placed.snoc (placed : Placed job h) (call : Call) (answer : call.Answer)
    (keeps : ∀ pod, call ≠ .write (.deletePod pod)) : Placed job (h ++ [⟨call, answer⟩]) := by
  refine ⟨readJob_append placed.1 _, fun pod a hMem => ?_⟩
  exact placed.2 pod a (mem_of_mem_snoc hMem (keeps pod))

theorem Placed.ends (placed : Placed job h) (state : job.status.jobStatus = .pending)
    (outcome : Outcome) : Ends h outcome where
  cleaned := by
    intro job' hRead hTerminal _
    rw [placed.1] at hRead
    cases hRead
    rw [state] at hTerminal
    exact absurd hTerminal (by decide)
  persisted := fun _ _ hMem => absurd hMem (placed.2 _ _)

theorem recordPodName_follows (placed : Placed job h) (checked : Checked h job)
    (state : job.status.jobStatus = .pending) (absent : PodAbsent h job)
    (present : PodPlaced h job) :
    (recordPodName job (simulatorPodName job.name job.status.retries)).Follows (Site req)
      (fun later _ => Placed job later) h := by
  unfold recordPodName
  split
  · refine .query
      (.updateStatus placed.1 (.recordPod checked state absent present)) fun answer => ?_
    have later := placed.snoc (.write (.updateStatus _)) answer (by simp)
    cases answer <;> exact later
  · exact placed

theorem validateServiceAccount_follows (context : Context h job) (absent : PodAbsent h job) :
    (validateServiceAccount job.nameSpace "quantum-simulator-sa").Follows (Site req)
      (fun later _ => Context later job ∧ PodAbsent later job) h := by
  refine .query (.getServiceAccount context.read) fun account => ?_
  have later := context.snoc (.getServiceAccount _) account (by simp)
  have hAbsent := absent.append [⟨.getServiceAccount _, account⟩]
  cases account with
  | ok => exact ⟨later, hAbsent⟩
  | error err =>
      dsimp only
      split <;> exact ⟨later, hAbsent⟩

theorem createSimulatorPod_follows (context : Context h job)
    (state : job.status.jobStatus = .pending) (absent : PodAbsent h job) :
    (createSimulatorPod job).Follows (Site req) (fun later _ => Placed job later) h := by
  unfold createSimulatorPod
  refine (validateServiceAccount_follows context absent).bind ?_
  rintro later (_ | err) ⟨hContext, hAbsent⟩
  · refine .query (.createPod hContext.read hContext.checked state hAbsent) fun created => ?_
    have placed : Placed job later := ⟨hContext.read, fun _ _ => hContext.clean _ _⟩
    have hPlaced := placed.snoc (.write (.createPod (simulatorPod job))) created (by simp)
    have hChecked := hContext.checked.append [⟨.write (.createPod (simulatorPod job)), created⟩]
    have hAbsent := hAbsent.append [⟨.write (.createPod (simulatorPod job)), created⟩]
    cases created with
    | ok => exact recordPodName_follows hPlaced hChecked state hAbsent (.inl (last_mem _))
    | error err =>
        by_cases hErr : err = .alreadyExists
        · subst hErr
          exact recordPodName_follows hPlaced hChecked state hAbsent (.inr (last_mem _))
        · simpa [hErr] using hPlaced
  · exact ⟨hContext.read, fun _ _ => hContext.clean _ _⟩

theorem handlePendingJob_follows (start : Start h job)
    (state : job.status.jobStatus = .pending) :
    (handlePendingJob job).Follows (Site req) Ends h := by
  unfold handlePendingJob
  refine afterLookup_follows start ?_ ?_ ?_
  · intro later pod hContext hFound
    exact markProgress_follows hContext state (.inl ⟨pod, hFound⟩)
  · intro later hContext hAbsent
    refine (createSimulatorPod_follows hContext state hAbsent).bind ?_
    rintro last (_ | err) hPlaced
    · exact hPlaced.ends state _
    · exact hPlaced.ends state _
  · intro later err hErr hContext hUnknown
    simpa [hErr] using markProgress_follows hContext state (.inr hUnknown)

theorem retryJob_follows {pod : Pod} (read : readJob h = some job) (checked : Checked h job)
    (state : job.status.jobStatus = .progress) (found : PodFound h job pod)
    (phase : pod.phase = .failed) (left : job.status.retries < job.spec.maxRetries)
    (deleted : PodDeleted h pod) : (retryJob job).Follows (Site req) Ends h := by
  have hActive : ¬ job.status.jobStatus.Terminal := by rw [state]; decide
  refine update_follows read (.retry checked state found phase left deleted) ?_
  intro answer h' hRead hUpdated
  cases answer <;> exact ends_of_update hRead hActive hUpdated _

theorem giveUp_follows {pod : Pod} (context : Context h job)
    (state : job.status.jobStatus = .progress) (found : PodFound h job pod)
    (phase : pod.phase = .failed) (spent : ¬ job.status.retries < job.spec.maxRetries) :
    (giveUp job).Follows (Site req) Ends h := by
  have hActive : ¬ job.status.jobStatus.Terminal := by rw [state]; decide
  unfold giveUp
  refine .query (.now context.read) fun now => ?_
  have later := context.snoc .now now (by simp)
  refine update_follows later.read
    (.giveUp later.checked state (found.append _) phase spent (last_mem _)) ?_
  intro answer h' hRead hUpdated
  cases answer <;> exact ends_of_update hRead hActive hUpdated _

theorem handleFailedPod_follows {pod : Pod} (context : Context h job)
    (state : job.status.jobStatus = .progress) (found : PodFound h job pod)
    (phase : pod.phase = .failed) : (handleFailedPod job pod).Follows (Site req) Ends h := by
  have hActive : ¬ job.status.jobStatus.Terminal := by rw [state]; decide
  unfold handleFailedPod
  split
  · rename_i hLeft
    refine .query (.deleteFailed context.read context.checked state found phase hLeft
      context.clean) fun deleted => ?_
    have hRead := readJob_append context.read [⟨.write (.deletePod pod), deleted⟩]
    have hChecked := context.checked.append [⟨.write (.deletePod pod), deleted⟩]
    have hFound := found.append [⟨.write (.deletePod pod), deleted⟩]
    cases deleted with
    | ok => exact retryJob_follows hRead hChecked state hFound phase hLeft (.inl (last_mem _))
    | error err =>
        by_cases hErr : err = .notFound
        · subst hErr
          exact retryJob_follows hRead hChecked state hFound phase hLeft (.inr (last_mem _))
        · -- the delete failed, so nothing was deleted in this reconcile
          simp only [ApiError.isNotFound_iff, hErr, if_false]
          refine ⟨fun hRead' hTerminal _ => ?_, fun _ _ hMem => ?_⟩
          · rw [hRead] at hRead'
            cases hRead'
            exact absurd hTerminal hActive
          · rcases List.mem_append.mp hMem with hOld | hNew
            · exact absurd hOld (context.clean _ _)
            · simp at hNew
  · rename_i hSpent
    exact giveUp_follows context state found phase hSpent

theorem handleSucceededPod_follows {pod : Pod} (context : Context h job)
    (state : job.status.jobStatus = .progress) (found : PodFound h job pod)
    (phase : pod.phase = .succeeded) : (handleSucceededPod job).Follows (Site req) Ends h := by
  have hActive : ¬ job.status.jobStatus.Terminal := by rw [state]; decide
  unfold handleSucceededPod
  refine .query (.now context.read) fun now => ?_
  have later := context.snoc .now now (by simp)
  refine update_follows later.read
    (.succeed later.checked state (found.append _) phase (last_mem _)) ?_
  intro answer h' hRead hUpdated
  cases answer <;> exact ends_of_update hRead hActive hUpdated _

theorem handleRunningJob_follows (start : Start h job)
    (state : job.status.jobStatus = .progress) :
    (handleRunningJob job).Follows (Site req) Ends h := by
  have hActive : ¬ job.status.jobStatus.Terminal := by rw [state]; decide
  unfold handleRunningJob
  refine afterLookup_follows start ?_ ?_ ?_
  · intro later pod hContext hFound
    cases hPhase : pod.phase with
    | failed => simpa [hPhase] using handleFailedPod_follows hContext state hFound hPhase
    | succeeded => simpa [hPhase] using handleSucceededPod_follows hContext state hFound hPhase
    | pending | running | unknown | unset =>
        simpa [hPhase] using hContext.ends_of_active hActive _
  · intro later hContext hAbsent
    refine update_follows hContext.read
      (.backToPending hContext.checked state hAbsent hContext.clean) ?_
    intro answer h' hRead hUpdated
    cases answer <;> exact ends_of_update hRead hActive hUpdated _
  · intro later err hErr hContext hUnknown
    simpa [hErr] using hContext.ends_of_active hActive _

/-- A terminal job may be left once its pod is cleaned up, or with an error. -/
theorem ends_of_terminal (read : readJob h = some job) (state : job.status.jobStatus.Terminal)
    {outcome : Outcome} (cleaned : outcome.2 = none → CleanedUp h job) : Ends h outcome where
  cleaned := by
    intro job' hRead _ hErr
    rw [read] at hRead
    cases hRead
    exact cleaned hErr
  persisted := by
    intro job' pod hRead hState _
    rw [read] at hRead
    cases hRead
    rw [hState] at state
    exact absurd state (by decide)

theorem expireJob_follows (read : readJob h = some job)
    (state : job.status.jobStatus.Terminal) (cleaned : CleanedUp h job) :
    (expireJob job).Follows (Site req) Ends h := by
  unfold expireJob
  split
  · rename_i ttl completionTime hTtl hCompletion
    refine .query (.now read) fun now => ?_
    have hRead := readJob_append read [⟨.now, now⟩]
    have hCleaned := cleaned.append [⟨.now, now⟩]
    dsimp only
    split
    · rename_i hElapsed
      refine .query (.deleteJob hRead state hCleaned hTtl hCompletion (last_mem _) hElapsed)
        fun deleted => ?_
      have hRead' := readJob_append hRead [⟨.write (.deleteJob job), deleted⟩]
      have hCleaned' := hCleaned.append [⟨.write (.deleteJob job), deleted⟩]
      cases deleted with
      | ok => exact ends_of_terminal hRead' state fun _ => hCleaned'
      | error err =>
          dsimp only
          split <;> exact ends_of_terminal hRead' state fun _ => hCleaned'
    · exact ends_of_terminal hRead state fun _ => hCleaned
  · exact ends_of_terminal read state fun _ => cleaned

theorem handleTerminalJob_follows (start : Start h job)
    (state : job.status.jobStatus.Terminal) :
    (handleTerminalJob job).Follows (Site req) Ends h := by
  unfold handleTerminalJob
  rw [if_pos state]
  refine afterLookup_follows start ?_ ?_ ?_
  · intro later pod hContext hFound
    refine .query (.deleteTerminal hContext.read state hFound) fun deleted => ?_
    have hRead := readJob_append hContext.read [⟨.write (.deletePod pod), deleted⟩]
    have hLater := hFound.append [⟨.write (.deletePod pod), deleted⟩]
    cases deleted with
    | ok => exact expireJob_follows hRead state (.inr ⟨pod, hLater, .inl (last_mem _)⟩)
    | error err =>
        by_cases hErr : err = .notFound
        · subst hErr
          exact expireJob_follows hRead state (.inr ⟨pod, hLater, .inr (last_mem _)⟩)
        · simpa [hErr] using ends_of_terminal hRead state (by simp)
  · intro later hContext hAbsent
    exact expireJob_follows hContext.read state (.inl hAbsent)
  · intro later err hErr hContext hUnknown
    simpa [hErr] using ends_of_terminal hContext.read state (by simp)

theorem dispatch_follows (start : Start h job) :
    (dispatch job).Follows (Site req) Ends h := by
  unfold dispatch
  split
  · rename_i hNew
    exact handleNewJob_follows start.toContext hNew
  split
  · rename_i hPending
    exact handlePendingJob_follows start hPending
  split
  · rename_i hProgress
    exact handleRunningJob_follows start hProgress
  split
  · rename_i hTerminal
    exact handleTerminalJob_follows start hTerminal
  · rename_i hActive
    exact start.ends_of_active hActive _

theorem failTimedOut_follows {startTime t : Int} (read : readJob h = some job)
    (started : job.status.startTime = some startTime) (limited : job.spec.timeOut > 0)
    (first : firstNow h = some t) (expired : TimedOut job startTime t) :
    (failTimedOut job).Follows (Site req) Ends h := by
  unfold failTimedOut
  refine .query (.now read) fun now => ?_
  refine update_follows (readJob_append read _)
    (.timedOut started limited (firstNow_append first _) expired (last_mem _)) ?_
  intro answer h' hRead hUpdated
  cases answer <;> exact ends_of_update hRead expired.2 hUpdated _

theorem checkTimeout_follows (read : readJob h = some job)
    (clean : ∀ w answer, ⟨.write w, answer⟩ ∉ h) (unlooked : ∀ q answer, ⟨.getPod q, answer⟩ ∉ h)
    (now_last : ∀ t, firstNow (h ++ [⟨.now, t⟩]) = some t) :
    (checkTimeout job).Follows (Site req) Ends h := by
  unfold checkTimeout
  split
  · rename_i startTime hStart
    split
    · rename_i hLimited
      refine .query (.now read) fun t => ?_
      have hRead := readJob_append read [⟨.now, t⟩]
      split
      · rename_i hExpired
        exact failTimedOut_follows hRead hStart hLimited (now_last t) hExpired
      · rename_i hRunning
        refine dispatch_follows ⟨⟨hRead, ?_, clean_snoc_now clean t⟩, unlooked_snoc_now unlooked t⟩
        intro startTime' hStart' _
        rw [hStart] at hStart'
        cases hStart'
        exact ⟨t, now_last t, hRunning⟩
    · rename_i hUnlimited
      exact dispatch_follows
        ⟨⟨read, fun _ _ hLimited => absurd hLimited hUnlimited, clean⟩, unlooked⟩
  · rename_i hNone
    refine dispatch_follows ⟨⟨read, fun _ hStart => ?_, clean⟩, unlooked⟩
    rw [hNone] at hStart
    cases hStart

end Handlers

/-- Each call of a reconcile is made at one of the sites, and the reconcile returns only in
the circumstances of `Ends`. -/
theorem reconcile_follows (req : NamespacedName) :
    (reconcile req).Follows (Site req) Ends [] := by
  unfold reconcile
  refine .query .getJob fun answer => ?_
  cases answer with
  | error err =>
      refine ⟨fun hRead => ?_, fun hRead => ?_⟩ <;> cases hRead
  | ok job => exact checkTimeout_follows rfl (by simp) (by simp) fun _ => rfl

section Inversion
variable {req key : NamespacedName} {h : History} {job : QuantumAerJob} {pod : Pod}

theorem Site.getJob_inv (site : Site req h (.getJob key)) : h = [] ∧ key = req := by
  cases site
  exact ⟨rfl, rfl⟩

theorem Site.getPod_inv (site : Site req h (.getPod key)) :
    ∃ job, readJob h = some job ∧ job.status.podName ≠ "" ∧ key = podKey job := by
  cases site with
  | getPod read named unlooked => exact ⟨_, read, named, rfl⟩

/-- A reconcile looks for the pod once. -/
theorem Site.getPod_first (site : Site req h (.getPod key)) :
    ∀ q answer, ⟨.getPod q, answer⟩ ∉ h := by
  cases site with
  | getPod read named unlooked => exact unlooked

theorem Site.createPod_inv (site : Site req h (.write (.createPod pod))) :
    ∃ job, readJob h = some job ∧ job.status.jobStatus = .pending ∧ PodAbsent h job ∧
      pod = simulatorPod job := by
  cases site with
  | createPod read checked state absent => exact ⟨_, read, state, absent, rfl⟩

/-- A pod is deleted when it failed and is to be replaced, or in the cleanup of
a terminal job. In both cases the lookup of the recorded pod returned it. -/
theorem Site.deletePod_inv (site : Site req h (.write (.deletePod pod))) :
    ∃ job, readJob h = some job ∧ PodFound h job pod ∧
      (job.status.jobStatus = .progress ∧ (∀ w answer, ⟨.write w, answer⟩ ∉ h) ∨
        job.status.jobStatus.Terminal) := by
  cases site with
  | deleteFailed read checked state found phase left untouched =>
      exact ⟨_, read, found, .inl ⟨state, untouched⟩⟩
  | deleteTerminal read state found => exact ⟨_, read, found, .inr state⟩

/-- A running job's pod is deleted only once it is found failed. -/
theorem Site.deletePod_phase (site : Site req h (.write (.deletePod pod)))
    (read : readJob h = some job) (state : job.status.jobStatus = .progress) :
    pod.phase = .failed := by
  cases site with
  | deleteFailed read' checked state' found phase left untouched => exact phase
  | deleteTerminal read' terminal found =>
      rw [read] at read'
      cases read'
      rw [state] at terminal
      exact absurd terminal JobState.not_terminal_progress

theorem Site.deleteJob_inv (site : Site req h (.write (.deleteJob job))) :
    readJob h = some job ∧ job.status.jobStatus.Terminal := by
  cases site with
  | deleteJob read state => exact ⟨read, state⟩

theorem Site.updateStatus_inv (site : Site req h (.write (.updateStatus job))) :
    ∃ held status, readJob h = some held ∧ StatusWrite h held status ∧
      job = held.withStatus status := by
  cases site with
  | updateStatus read reason => exact ⟨_, _, read, reason, rfl⟩

/-- The reason for a status update of the job that was read. -/
theorem Site.reason {status : QuantumAerJobStatus}
    (site : Site req h (.write (.updateStatus (job.withStatus status))))
    (read : readJob h = some job) : StatusWrite h job status := by
  obtain ⟨held, status', hRead, hReason, hUpdate⟩ := site.updateStatus_inv
  rw [read] at hRead
  cases hRead
  have hStatus : status = status' := congrArg QuantumAerJob.status hUpdate
  exact hStatus ▸ hReason

end Inversion
end QuantumService.Controller
