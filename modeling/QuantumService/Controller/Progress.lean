import QuantumService.Controller.PodName
import QuantumService.Controller.Requeue

/-! A reconcile that nothing goes wrong for. It finds what is stored and its writes
succeed; then it returns no error, and on an unfinished job it takes the job one
status update further, unless there is a pod it has to wait for. -/
namespace QuantumService.Controller
open Interaction Program

/-- An answer that reports no failure. A read may find nothing, a pod that is created may
be there already, and what is deleted may be gone. -/
def smooth : Event Call.Answer → Bool
  | ⟨.getJob _, .error err⟩ => err = .notFound
  | ⟨.getPod _, .error err⟩ => err = .notFound
  | ⟨.getServiceAccount _, .error _⟩ => false
  | ⟨.write (.createPod _), .error err⟩ => err = .alreadyExists
  | ⟨.write (.deletePod _), .error err⟩ => err = .notFound
  | ⟨.write (.deleteJob _), .error err⟩ => err = .notFound
  | ⟨.write (.updateStatus _), .error _⟩ => false
  | ⟨.getJob _, .ok _⟩ => true
  | ⟨.getPod _, .ok _⟩ => true
  | ⟨.getServiceAccount _, .ok _⟩ => true
  | ⟨.write _, .ok _⟩ => true
  | ⟨.now, _⟩ => true

/-- A status update that was acknowledged. -/
def isUpdated : Event Call.Answer → Bool
  | ⟨.write (.updateStatus _), .ok _⟩ => true
  | _ => false

/-- A pod was found that has neither failed nor succeeded. -/
def unsettledPod : Event Call.Answer → Bool
  | ⟨.getPod _, .ok pod⟩ => pod.phase ≠ .failed ∧ pod.phase ≠ .succeeded
  | _ => false

/-- A pod was looked for and not found. -/
def missingPod : Event Call.Answer → Bool
  | ⟨.getPod _, .error err⟩ => err = .notFound
  | _ => false

def Updated (h : History) : Prop := h.any isUpdated = true

/-- The job is in progress, and the pod of its attempt is not done yet. -/
def Awaits (h : History) (job : QuantumAerJob) : Prop :=
  job.status.jobStatus = .progress ∧ h.any unsettledPod = true

/-- The pod that the status names was not found. -/
def Misses (h : History) (job : QuantumAerJob) : Prop :=
  job.status.podName ≠ "" ∧ h.any missingPod = true

/-- The pod that the status names was not found, and is there again. -/
def Replaces (h : History) (job : QuantumAerJob) : Prop := Misses h job ∧ PodPlaced h job

instance (h : History) : Decidable (Updated h) := inferInstanceAs (Decidable (_ = _))
instance (h : History) (job : QuantumAerJob) : Decidable (Awaits h job) :=
  inferInstanceAs (Decidable (_ ∧ _))
instance (job : QuantumAerJob) : Decidable (Unfinished job) :=
  inferInstanceAs (Decidable (_ ∨ _))

theorem Unfinished.active {job : QuantumAerJob} (unfinished : Unfinished job) :
    ¬ job.status.jobStatus.Terminal := by
  rcases unfinished with hState | hState | hState <;> simp [hState]

/-- Every answer so far was smooth. -/
def Smooth (h : History) : Prop := ∀ e ∈ h, smooth e = true

section Smooth
variable {h : History} {job : QuantumAerJob}

theorem Smooth.last {e : Event Call.Answer} (all : Smooth (h ++ [e])) : smooth e = true :=
  all e (last_mem e)

theorem Smooth.snoc {e : Event Call.Answer} (before : Smooth h) (last : smooth e = true) :
    Smooth (h ++ [e]) := by
  intro e' hMem
  rcases List.mem_append.mp hMem with hOld | hNew
  · exact before e' hOld
  · rw [List.mem_singleton.mp hNew]
    exact last

theorem Updated.append (updated : Updated h) (later : History) : Updated (h ++ later) := by
  unfold Updated at *
  rw [List.any_append, updated, Bool.true_or]

theorem updated_snoc {update : QuantumAerJob} :
    Updated (h ++ [⟨.write (.updateStatus update), .ok ()⟩]) := by
  simp [Updated, isUpdated]

/-- An answer to another call than a status update leaves the job as far as it was. -/
theorem updated_snoc_iff {e : Event Call.Answer} (other : isUpdated e = false) :
    Updated (h ++ [e]) ↔ Updated h := by
  simp [Updated, other]

theorem not_isUpdated {e : Event Call.Answer} (refused : ∀ write, e ≠ ⟨.write write, .ok ()⟩) :
    isUpdated e = false := by
  unfold isUpdated
  split
  · exact absurd rfl (refused _)
  · rfl

theorem not_missingPod {e : Event Call.Answer} (found : ∀ q, e ≠ ⟨.getPod q, .error .notFound⟩) :
    missingPod e = false := by
  unfold missingPod
  split
  · rename_i q err
    exact decide_eq_false fun hErr => found q (by rw [hErr])
  · rfl

theorem not_misses_nil : ¬ Misses [] job := by
  simp [Misses]

/-- Only a lookup can miss a pod. -/
theorem Misses.of_snoc {e : Event Call.Answer} (misses : Misses (h ++ [e]) job)
    (other : missingPod e = false) : Misses h job := by
  refine ⟨misses.1, ?_⟩
  simpa [other] using misses.2

/-- A pod that was found missing stays so in what the reconcile knows. -/
theorem Misses.append (misses : Misses h job) (later : History) : Misses (h ++ later) job := by
  refine ⟨misses.1, ?_⟩
  rw [List.any_append, misses.2, Bool.true_or]

theorem not_podUnknown (all : Smooth h) : ¬ PodUnknown h job := by
  rintro ⟨-, err, hErr, hMem⟩
  have hNotFound : err = .notFound := by simpa [smooth] using all _ hMem
  exact hErr hNotFound

theorem misses_of_absent (absent : PodAbsent h job) (named : job.status.podName ≠ "") :
    Misses h job := by
  refine ⟨named, List.any_eq_true.mpr ⟨_, absent.resolve_left named, ?_⟩⟩
  rfl

end Smooth

/-- The reconcile has moved its job on, or there was a pod to wait for or to replace. -/
def Moved (h : History) (job : QuantumAerJob) : Prop :=
  Updated h ∨ Awaits h job ∨ Replaces h job

/-- What a reconcile of the job comes to when every answer is smooth. -/
def Passes (job : QuantumAerJob) (h : History) (outcome : Outcome) : Prop :=
  Smooth h → outcome.2 = none ∧ (Unfinished job → Moved h job)

section Handlers
variable {h : History} {job : QuantumAerJob}

/-- After an answer that was not smooth there is nothing to show. -/
theorem follows_of_rough {Value : Type} {post : History → Value → Prop}
    (rough : ¬ Smooth h) (p : Reconciler Value) :
    p.Follows AnyCall (fun later value => Smooth later → post later value) h := by
  induction p generalizing h with
  | done value => exact fun hSmooth => absurd hSmooth rough
  | ask call next ih =>
      refine ⟨trivial, fun answer => ih answer fun hSmooth => rough ?_⟩
      exact fun e hMem => hSmooth e (List.mem_append_left _ hMem)

/-- Only the smooth answers to a call matter. -/
theorem follows_smooth {Value : Type} {post : History → Value → Prop} {call : Call}
    {next : call.Answer → Reconciler Value}
    (rest : ∀ answer, smooth ⟨call, answer⟩ = true →
      (next answer).Follows AnyCall (fun later value => Smooth later → post later value)
        (h ++ [⟨call, answer⟩])) :
    (query call >>= next).Follows AnyCall
      (fun later value => Smooth later → post later value) h := by
  refine ⟨trivial, fun answer => ?_⟩
  by_cases hSmooth : smooth ⟨call, answer⟩ = true
  · exact rest answer hSmooth
  · exact follows_of_rough (fun all => hSmooth all.last) _

/-- A status update that succeeds. -/
theorem follows_update {Value : Type} {post : History → Value → Prop} {update : QuantumAerJob}
    {next : Except ApiError Unit → Reconciler Value}
    (rest : (next (.ok ())).Follows AnyCall (fun later value => Smooth later → post later value)
      (h ++ [⟨.write (.updateStatus update), .ok ()⟩])) :
    (query (.write (.updateStatus update)) >>= next).Follows AnyCall
      (fun later value => Smooth later → post later value) h := by
  apply follows_smooth
  rintro (err | ⟨⟩) hSmooth
  · cases hSmooth
  · exact rest

/-- A deletion, after which the pod is marked or gone. -/
theorem follows_deletePod {Value : Type} {post : History → Value → Prop} {pod : Pod}
    {next : Except ApiError Unit → Reconciler Value}
    (rest : ∀ answer, (answer = .ok () ∨ answer = .error .notFound) →
      (next answer).Follows AnyCall (fun later value => Smooth later → post later value)
        (h ++ [⟨.write (.deletePod pod), answer⟩])) :
    (query (.write (.deletePod pod)) >>= next).Follows AnyCall
      (fun later value => Smooth later → post later value) h := by
  apply follows_smooth
  rintro (err | ⟨⟩) hSmooth
  · have hErr : err = .notFound := by simpa [smooth] using hSmooth
    exact rest _ (.inr (hErr ▸ rfl))
  · exact rest _ (.inl rfl)

/-- The lookup of the pod, and what follows each of its results. -/
theorem follows_getForPod {Value : Type} {post : History → Value → Prop}
    {rest : Except ApiError Pod → Reconciler Value}
    (found : ∀ pod, (rest (.ok pod)).Follows AnyCall
      (fun later value => Smooth later → post later value)
      (h ++ [⟨.getPod (podKey job), .ok pod⟩]))
    (unnamed : job.status.podName = "" → (rest (.error .notFound)).Follows AnyCall
      (fun later value => Smooth later → post later value) h)
    (missing : ∀ later, Misses later job → (rest (.error .notFound)).Follows AnyCall
      (fun later value => Smooth later → post later value) later) :
    (getForPod job >>= rest).Follows AnyCall
      (fun later value => Smooth later → post later value) h := by
  unfold getForPod
  by_cases hName : job.status.podName = ""
  · rw [if_pos hName]
    exact unnamed hName
  · rw [if_neg hName]
    apply follows_smooth
    rintro (err | pod) hSmooth
    · have hErr : err = .notFound := by simpa [smooth] using hSmooth
      subst hErr
      refine missing _ ⟨hName, ?_⟩
      simp [missingPod]
    · exact found pod

/-- A status update at the end of a reconcile. -/
theorem passes_update {status : QuantumAerJobStatus} {result : Result}
    {next : Except ApiError Unit → Reconciler Outcome}
    (onOk : next (.ok ()) = .done (result, none)) :
    (updateStatus job status >>= next).Follows AnyCall (Passes job) h := by
  apply follows_update
  rw [onOk]
  exact fun _ => ⟨rfl, fun _ => .inl updated_snoc⟩

theorem handleNewJob_passes : (handleNewJob job).Follows AnyCall (Passes job) h :=
  follows_smooth fun _ _ => passes_update rfl

theorem markProgress_passes : (markProgress job).Follows AnyCall (Passes job) h :=
  passes_update rfl

/-- What `createSimulatorPod` comes to: the name of the pod is stored, unless it was
there already and its pod was not. -/
def Prepares (job : QuantumAerJob) (h : History) (failed : Option ApiError) : Prop :=
  failed = none ∧ Moved h job

theorem recordPodName_passes (known : job.status.podName = "" ∨ Replaces h job) :
    (recordPodName job (simulatorPodName job.name job.status.retries)).Follows AnyCall
      (fun later failed => Smooth later → Prepares job later failed) h := by
  unfold recordPodName
  by_cases hName : job.status.podName = simulatorPodName job.name job.status.retries
  · have hNamed : job.status.podName ≠ "" := by
      rw [hName]
      exact simulatorPodName_ne_empty _ _
    rw [if_neg (not_not_intro hName)]
    exact fun _ => ⟨rfl, .inr (.inr (known.resolve_left hNamed))⟩
  · rw [if_pos hName]
    apply follows_update
    exact fun _ => ⟨rfl, .inl updated_snoc⟩

theorem createSimulatorPod_passes (known : job.status.podName = "" ∨ Misses h job) :
    (createSimulatorPod job).Follows AnyCall
      (fun later failed => Smooth later → Prepares job later failed) h := by
  unfold createSimulatorPod validateServiceAccount
  apply follows_smooth
  rintro (err | ⟨⟩) hAccount
  · cases hAccount
  · have hKnown : ∀ later, PodPlaced later job → (Misses h job → Misses later job) →
        job.status.podName = "" ∨ Replaces later job :=
      fun later hPlaced hStill => known.imp id fun hMisses => ⟨hStill hMisses, hPlaced⟩
    apply follows_smooth
    rintro (err | ⟨⟩) hSmooth
    · have hErr : err = .alreadyExists := by simpa [smooth] using hSmooth
      subst hErr
      exact recordPodName_passes (hKnown _ (.inr (last_mem _)) fun h => (h.append _).append _)
    · exact recordPodName_passes (hKnown _ (.inl (last_mem _)) fun h => (h.append _).append _)

/-- The return of a reconcile that has created its pod. -/
theorem passes_createSimulatorPod (known : job.status.podName = "" ∨ Misses h job)
    {rest : Option ApiError → Reconciler Outcome} {result : Result}
    (onNone : rest none = .done (result, none)) :
    (createSimulatorPod job >>= rest).Follows AnyCall (Passes job) h := by
  refine (createSimulatorPod_passes known).bind ?_
  rintro later (_ | err) hPrepares
  · rw [onNone]
    exact fun hSmooth => ⟨rfl, fun _ => (hPrepares hSmooth).2⟩
  · apply follows_of_rough
    intro hSmooth
    cases (hPrepares hSmooth).1

theorem handlePendingJob_passes : (handlePendingJob job).Follows AnyCall (Passes job) h := by
  unfold handlePendingJob
  apply follows_getForPod
  · exact fun pod => markProgress_passes
  · exact fun hName => passes_createSimulatorPod (.inl hName) rfl
  · exact fun later hMisses => passes_createSimulatorPod (.inr hMisses) rfl

theorem retryJob_passes : (retryJob job).Follows AnyCall (Passes job) h :=
  passes_update rfl

theorem handleFailedPod_passes {pod : Pod} :
    (handleFailedPod job pod).Follows AnyCall (Passes job) h := by
  unfold handleFailedPod
  split
  · apply follows_deletePod
    rintro answer (rfl | rfl)
    · exact retryJob_passes
    · exact retryJob_passes
  · exact follows_smooth fun _ _ => passes_update rfl

theorem handleRunningJob_passes (state : job.status.jobStatus = .progress) :
    (handleRunningJob job).Follows AnyCall (Passes job) h := by
  unfold handleRunningJob
  apply follows_getForPod
  · intro pod
    have hAwaits : pod.phase ≠ .failed ∧ pod.phase ≠ .succeeded →
        Awaits (h ++ [⟨.getPod (podKey job), .ok pod⟩]) job := by
      intro hPhase
      refine ⟨state, ?_⟩
      simp [unsettledPod, hPhase]
    dsimp only
    cases hPhase : pod.phase with
    | failed => exact handleFailedPod_passes
    | succeeded => exact follows_smooth fun _ _ => passes_update rfl
    | pending | running | unknown | unset =>
        rw [hPhase] at hAwaits
        exact fun _ => ⟨rfl, fun _ => .inr (.inl (hAwaits (by decide)))⟩
  · exact fun _ => passes_update rfl
  · exact fun later _ => passes_update rfl

/-- On a finished job there is nothing to move. -/
theorem expireJob_passes (state : ¬ Unfinished job) :
    (expireJob job).Follows AnyCall (Passes job) h := by
  unfold expireJob
  split
  · apply follows_smooth
    intro now hNow
    dsimp only
    split
    · apply follows_smooth
      rintro (err | ⟨⟩) hSmooth
      · have hErr : err = .notFound := by simpa [smooth] using hSmooth
        subst hErr
        exact fun _ => ⟨rfl, fun hUnfinished => absurd hUnfinished state⟩
      · exact fun _ => ⟨rfl, fun hUnfinished => absurd hUnfinished state⟩
    · exact fun _ => ⟨rfl, fun hUnfinished => absurd hUnfinished state⟩
  · exact fun _ => ⟨rfl, fun hUnfinished => absurd hUnfinished state⟩

theorem handleTerminalJob_passes (state : ¬ Unfinished job) :
    (handleTerminalJob job).Follows AnyCall (Passes job) h := by
  unfold handleTerminalJob
  split
  · apply follows_getForPod
    · intro pod
      apply follows_deletePod
      rintro answer (rfl | rfl)
      · exact expireJob_passes state
      · exact expireJob_passes state
    · exact fun _ => expireJob_passes state
    · exact fun later _ => expireJob_passes state
  · exact fun _ => ⟨rfl, fun hUnfinished => absurd hUnfinished state⟩

theorem dispatch_passes : (dispatch job).Follows AnyCall (Passes job) h := by
  unfold dispatch
  split
  · exact handleNewJob_passes
  split
  · exact handlePendingJob_passes
  split
  · rename_i hState
    exact handleRunningJob_passes hState
  · rename_i hNew hPending hProgress
    have hState : ¬ Unfinished job := by
      simp [Unfinished, hNew, hPending, hProgress]
    split
    · exact handleTerminalJob_passes hState
    · exact fun _ => ⟨rfl, fun hUnfinished => absurd hUnfinished hState⟩

theorem checkTimeout_passes : (checkTimeout job).Follows AnyCall (Passes job) h := by
  unfold checkTimeout
  split
  · split
    · apply follows_smooth
      intro now hNow
      split
      · exact follows_smooth fun _ _ => passes_update rfl
      · exact dispatch_passes
    · exact dispatch_passes
  · exact dispatch_passes

end Handlers

/-- When every answer was smooth, an unfinished job that was read has been moved on, or has
a pod to wait for. -/
theorem passes_of_path {req : NamespacedName} {h : History} {job : QuantumAerJob}
    {outcome : Outcome} (path : Path (reconcile req) h (.done outcome))
    (read : readJob h = some job) : Passes job h outcome := by
  obtain ⟨later, rfl, hPath⟩ := path_of_read path read
  have hPasses : (checkTimeout job).Follows AnyCall (Passes job) [⟨.getJob req, .ok job⟩] :=
    checkTimeout_passes
  exact hPasses.path hPath

/-- The job that a reconcile holds is the one it has read first. -/
theorem readJob_unique {h before later : History} {held job : QuantumAerJob}
    (split : h = before ++ later) (read : readJob h = some job)
    (earlier : readJob before = some held) : held = job := by
  rw [split, readJob_append earlier later] at read
  exact Option.some.inj read

/-- Before a reconcile has looked for the pod, a job in progress can only time out. -/
theorem StatusWrite.unlooked {h : History} {job : QuantumAerJob} {status : QuantumAerJobStatus}
    (reason : StatusWrite h job status) (progress : job.status.jobStatus = .progress)
    (named : job.status.podName ≠ "") (unlooked : ∀ q answer, ⟨.getPod q, answer⟩ ∉ h) :
    status.jobStatus = .failed := by
  cases reason with
  | timedOut => rfl
  | begin checked state | recordPod checked state | markProgress checked state =>
      rw [progress] at state
      exact absurd state (by decide)
  | backToPending checked state absent => exact absurd (absent.resolve_left named) (unlooked _ _)
  | retry checked state found | giveUp checked state found | succeed checked state found =>
      exact absurd found.2 (unlooked _ _)

theorem unsettledPod_inv {e : Event Call.Answer} (unsettled : unsettledPod e = true) :
    ∃ q pod, e = ⟨.getPod q, .ok pod⟩ ∧ pod.phase ≠ .failed ∧ pod.phase ≠ .succeeded := by
  unfold unsettledPod at unsettled
  split at unsettled
  · exact ⟨_, _, rfl, of_decide_eq_true unsettled⟩
  · cases unsettled

theorem isUpdated_inv {e : Event Call.Answer} (updated : isUpdated e = true) :
    ∃ update, e = ⟨.write (.updateStatus update), .ok ()⟩ := by
  unfold isUpdated at updated
  split at updated
  · exact ⟨_, rfl⟩
  · cases updated

/-- When every answer was smooth, a reconcile returns no error. -/
theorem no_error_of_path {req : NamespacedName} {h : History} {outcome : Outcome}
    (path : Path (reconcile req) h (.done outcome)) (all : Smooth h) : outcome.2 = none := by
  cases path with
  | @cons call next answer history q rest =>
      cases answer with
      | ok job => exact (passes_of_path (.cons rest) rfl all).1
      | error err =>
          have hErr : err = .notFound := by
            simpa [smooth] using all _ List.mem_cons_self
          subst hErr
          cases rest
          rfl

end QuantumService.Controller
