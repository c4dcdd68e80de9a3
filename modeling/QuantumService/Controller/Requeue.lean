import QuantumService.Controller.Sites

/-! When a reconcile of an unfinished job makes sure it is called again. The
only return that does not is the one for a pod phase `handleRunningJob` has no
case for. -/
namespace QuantumService.Controller
open Interaction Program

/-- The states from which a job can still change. -/
def Unfinished (job : QuantumAerJob) : Prop :=
  job.status.jobStatus = "" ∨ job.status.jobStatus = .pending ∨
    job.status.jobStatus = .progress

/-- An error, `Requeue`, or a positive `RequeueAfter`: the work queue will hand
the job out again without another event. -/
def Revisited (outcome : Outcome) : Prop :=
  outcome.2 ≠ none ∨ outcome.1.requeue = true ∨ 0 < outcome.1.requeueAfter

/-- The lookup of a running job's pod returned one whose phase is `Unknown` or
not set. -/
def UnhandledPhase (h : History) (job : QuantumAerJob) : Prop :=
  job.status.jobStatus = .progress ∧
    ∃ pod, PodFound h job pod ∧ (pod.phase = .unknown ∨ pod.phase = .unset)

section Returns
variable {job : QuantumAerJob} {h : History}

theorem revisited_error (result : Result) (err : ApiError) : Revisited (result, some err) :=
  .inl (by simp)

theorem revisited_again (err : Option ApiError) : Revisited (.again, err) := .inr (.inl rfl)

theorem revisited_after {delay : Int} (err : Option ApiError) (positive : 0 < delay) :
    Revisited (.after delay, err) := .inr (.inr positive)

/-- Every call is unconstrained here; only the returns matter. -/
abbrev AnyCall : History → Call → Prop := fun _ _ => True

/-- Returns that ask for another reconcile, with no odd phase seen. -/
def Asks (job : QuantumAerJob) (h : History) (outcome : Outcome) : Prop :=
  Revisited outcome ∧ ¬ UnhandledPhase h job

theorem UnhandledPhase.of_snoc {call : Call} {answer : call.Answer}
    (odd : UnhandledPhase (h ++ [⟨call, answer⟩]) job) (other : ∀ key, call ≠ .getPod key) :
    UnhandledPhase h job := by
  obtain ⟨hState, pod, ⟨hNamed, hMem⟩, hPhase⟩ := odd
  refine ⟨hState, pod, ⟨hNamed, ?_⟩, hPhase⟩
  exact mem_of_mem_snoc hMem (other _)

/-- A status update whose every answer leads to such a return. -/
theorem asks_update {status : QuantumAerJobStatus} (quiet : ¬ UnhandledPhase h job)
    {next : Except ApiError Unit → Reconciler Outcome}
    (returns : ∀ answer, ∃ outcome, next answer = .done outcome ∧ Revisited outcome) :
    (updateStatus job status >>= next).Follows AnyCall (Asks job) h := by
  refine .query trivial fun answer => ?_
  obtain ⟨outcome, hNext, hRevisited⟩ := returns answer
  rw [hNext]
  exact ⟨hRevisited, fun odd => quiet (odd.of_snoc (by simp))⟩

/-- The return after a status update: an error, or the given result. -/
theorem returns_of_update {failed succeeded : Result}
    {next : Except ApiError Unit → Reconciler Outcome}
    (onError : ∀ err, next (.error err) = .done (failed, some err))
    (onOk : next (.ok ()) = .done (succeeded, none)) (revisited : Revisited (succeeded, none)) :
    ∀ answer, ∃ outcome, next answer = .done outcome ∧ Revisited outcome
  | .error err => ⟨_, onError err, revisited_error _ _⟩
  | .ok () => ⟨_, onOk, revisited⟩

theorem quiet_of_state (state : job.status.jobStatus ≠ .progress) : ¬ UnhandledPhase h job :=
  fun odd => state odd.1

theorem handleNewJob_asks (state : job.status.jobStatus = "") :
    (handleNewJob job).Follows AnyCall (Asks job) h := by
  refine .query trivial fun now => ?_
  refine asks_update (quiet_of_state (by rw [state]; decide)) ?_
  exact returns_of_update (fun _ => rfl) rfl (revisited_again _)

theorem markProgress_asks (state : job.status.jobStatus = .pending) :
    (markProgress job).Follows AnyCall (Asks job) h := by
  refine asks_update (quiet_of_state (by rw [state]; decide)) ?_
  exact returns_of_update (fun _ => rfl) rfl (revisited_again _)

/-- Any program may be followed by a continuation that needs nothing of it. -/
theorem follows_any {Value : Type} (p : Reconciler Value) :
    p.Follows AnyCall (fun _ _ => True) h := by
  induction p generalizing h with
  | done result => trivial
  | ask call next ih => exact ⟨trivial, fun answer => ih answer⟩

theorem handlePendingJob_asks (state : job.status.jobStatus = .pending) :
    (handlePendingJob job).Follows AnyCall (Asks job) h := by
  have hQuiet : ∀ {later : History}, ¬ UnhandledPhase later job :=
    quiet_of_state (by rw [state]; decide)
  refine (follows_any (getForPod job)).bind ?_
  rintro later (err | pod) -
  · by_cases hErr : err = .notFound
    · subst hErr
      refine (follows_any (createSimulatorPod job)).bind ?_
      rintro last (_ | err2) -
      · exact ⟨revisited_again _, hQuiet⟩
      · exact ⟨revisited_error _ _, hQuiet⟩
    · simpa [hErr] using markProgress_asks state
  · exact markProgress_asks state

theorem failTimedOut_asks (quiet : ¬ UnhandledPhase h job) :
    (failTimedOut job).Follows AnyCall (Asks job) h := by
  refine .query trivial fun now => ?_
  refine asks_update (fun odd => quiet (odd.of_snoc (by simp))) ?_
  exact returns_of_update (fun _ => rfl) rfl (revisited_again _)

theorem retryJob_asks (quiet : ¬ UnhandledPhase h job) :
    (retryJob job).Follows AnyCall (Asks job) h :=
  asks_update quiet (returns_of_update (fun _ => rfl) rfl (revisited_after _ (by decide)))

theorem handleFailedPod_asks {pod : Pod} (quiet : ¬ UnhandledPhase h job) :
    (handleFailedPod job pod).Follows AnyCall (Asks job) h := by
  unfold handleFailedPod
  split
  · refine .query trivial fun deleted => ?_
    have later : ¬ UnhandledPhase (h ++ [⟨.write (.deletePod pod), deleted⟩]) job :=
      fun odd => quiet (odd.of_snoc (by simp))
    cases deleted with
    | ok => exact retryJob_asks later
    | error err =>
        dsimp only
        split
        · exact retryJob_asks later
        · exact ⟨revisited_error _ _, later⟩
  · refine .query trivial fun now => ?_
    refine asks_update (fun odd => quiet (odd.of_snoc (by simp))) ?_
    exact returns_of_update (fun _ => rfl) rfl (revisited_after _ (by decide))

theorem handleSucceededPod_asks (quiet : ¬ UnhandledPhase h job) :
    (handleSucceededPod job).Follows AnyCall (Asks job) h := by
  refine .query trivial fun now => ?_
  refine asks_update (fun odd => quiet (odd.of_snoc (by simp))) ?_
  exact returns_of_update (fun _ => rfl) rfl (revisited_after _ (by decide))

/-- A return asks for another reconcile exactly when no odd phase was seen. -/
def AsksUnlessOdd (job : QuantumAerJob) (h : History) (outcome : Outcome) : Prop :=
  Revisited outcome ↔ ¬ UnhandledPhase h job

theorem asks_unlessOdd {p : Reconciler Outcome} (asks : p.Follows AnyCall (Asks job) h) :
    p.Follows AnyCall (AsksUnlessOdd job) h := by
  induction p generalizing h with
  | done outcome => exact ⟨fun _ => asks.2, fun _ => asks.1⟩
  | ask call next ih => exact ⟨trivial, fun answer => ih answer (asks.2 answer)⟩

/-- The branch on the pod's phase, after a lookup that is the only one made. -/
theorem handleRunningJob_asks (state : job.status.jobStatus = .progress)
    (unlooked : ∀ key answer, ⟨.getPod key, answer⟩ ∉ h) :
    (handleRunningJob job).Follows AnyCall (AsksUnlessOdd job) h := by
  have hQuiet : ¬ UnhandledPhase h job := fun ⟨_, _, hFound, _⟩ => unlooked _ _ hFound.2
  unfold handleRunningJob getForPod
  split
  · refine asks_unlessOdd (asks_update hQuiet ?_)
    exact returns_of_update (fun _ => rfl) rfl (revisited_again _)
  · rename_i hNamed
    refine .query trivial fun answer => ?_
    cases answer with
    | error err =>
        have later : ¬ UnhandledPhase (h ++ [⟨.getPod (podKey job), .error err⟩]) job := by
          rintro ⟨_, pod, hFound, _⟩
          rcases List.mem_append.mp hFound.2 with hOld | hNew
          · exact unlooked _ _ hOld
          · simp at hNew
        by_cases hErr : err = .notFound
        · subst hErr
          refine asks_unlessOdd (asks_update later ?_)
          exact returns_of_update (fun _ => rfl) rfl (revisited_again _)
        · simp only [ApiError.isNotFound_iff, hErr, if_false]
          exact ⟨fun _ => later, fun _ => revisited_error _ _⟩
    | ok pod =>
        have only : ∀ pod', PodFound (h ++ [⟨.getPod (podKey job), .ok pod⟩]) job pod' →
            pod' = pod := by
          intro pod' hFound
          rcases List.mem_append.mp hFound.2 with hOld | hNew
          · exact absurd hOld (unlooked _ _)
          · simpa using hNew
        have later : pod.phase ≠ .unknown → pod.phase ≠ .unset →
            ¬ UnhandledPhase (h ++ [⟨.getPod (podKey job), .ok pod⟩]) job := by
          rintro hUnknown hUnset ⟨_, pod', hFound, hPhase⟩
          rw [only pod' hFound] at hPhase
          exact hPhase.elim hUnknown hUnset
        have odd : pod.phase = .unknown ∨ pod.phase = .unset →
            UnhandledPhase (h ++ [⟨.getPod (podKey job), .ok pod⟩]) job :=
          fun hPhase => ⟨state, pod, ⟨hNamed, last_mem _⟩, hPhase⟩
        dsimp only
        cases hPhase : pod.phase with
        | failed =>
            exact asks_unlessOdd
              (handleFailedPod_asks (later (by simp [hPhase]) (by simp [hPhase])))
        | succeeded =>
            exact asks_unlessOdd
              (handleSucceededPod_asks (later (by simp [hPhase]) (by simp [hPhase])))
        | pending | running =>
            exact ⟨fun _ => later (by simp [hPhase]) (by simp [hPhase]),
              fun _ => revisited_after _ (by decide)⟩
        | unknown | unset =>
            refine ⟨fun hRevisited => ?_, fun hQuiet => absurd (odd (by simp [hPhase])) hQuiet⟩
            rcases hRevisited with hErr | hRequeue | hAfter
            · exact absurd rfl hErr
            · cases hRequeue
            · exact absurd hAfter (by decide)

theorem dispatch_asks (unfinished : Unfinished job)
    (unlooked : ∀ key answer, ⟨.getPod key, answer⟩ ∉ h) :
    (dispatch job).Follows AnyCall (AsksUnlessOdd job) h := by
  unfold dispatch
  rcases unfinished with hNew | hPending | hProgress
  · rw [if_pos hNew]
    exact asks_unlessOdd (handleNewJob_asks hNew)
  · rw [if_neg (by rw [hPending]; decide), if_pos hPending]
    exact asks_unlessOdd (handlePendingJob_asks hPending)
  · rw [if_neg (by rw [hProgress]; decide), if_neg (by rw [hProgress]; decide), if_pos hProgress]
    exact handleRunningJob_asks hProgress unlooked

theorem checkTimeout_asks (unfinished : Unfinished job)
    (unlooked : ∀ key answer, ⟨.getPod key, answer⟩ ∉ h) :
    (checkTimeout job).Follows AnyCall (AsksUnlessOdd job) h := by
  unfold checkTimeout
  split
  · split
    · refine .query trivial fun now => ?_
      have later := unlooked_snoc_now unlooked now
      split
      · exact asks_unlessOdd (failTimedOut_asks fun ⟨_, _, hFound, _⟩ => later _ _ hFound.2)
      · exact dispatch_asks unfinished later
    · exact dispatch_asks unfinished unlooked
  · exact dispatch_asks unfinished unlooked

end Returns

/-- After the job has been read, a reconcile is its deadline check. -/
theorem path_of_read {req : NamespacedName} {history : History} {job : QuantumAerJob}
    {rest : Reconciler Outcome} (path : Path (reconcile req) history rest)
    (read : readJob history = some job) :
    ∃ later, history = ⟨.getJob req, .ok job⟩ :: later ∧ Path (checkTimeout job) later rest := by
  unfold reconcile at path
  rw [call_bind] at path
  cases path with
  | nil => cases read
  | @cons _ _ answer later _ path =>
      cases answer with
      | error err => cases read
      | ok job' =>
          cases read
          exact ⟨later, rfl, path⟩

/-- No unfinished job is dropped, but for one case: a reconcile that has read an unfinished
job asks for another one, whatever the API answers, exactly when it did not find the running
job's pod in phase `Unknown` or without one. -/
theorem reconcile_revisits_iff {req : NamespacedName} {history : History}
    {job : QuantumAerJob} {outcome : Outcome}
    (path : Path (reconcile req) history (.done outcome)) (read : readJob history = some job)
    (unfinished : Unfinished job) : Revisited outcome ↔ ¬ UnhandledPhase history job := by
  obtain ⟨later, rfl, hPath⟩ := path_of_read path read
  have asks := checkTimeout_asks (h := [⟨.getJob req, .ok job⟩]) unfinished (by simp)
  exact asks.path hPath

/-- A job of the schema's defaults, running its first attempt. -/
def runningJob : QuantumAerJob where
  name := "qjob-1"
  nameSpace := "default"
  uid := 1
  resourceVersion := 5
  spec := .defaults "aer-simulator:v3" "1"
  status := ⟨.progress, "", 0, "qjob-1-sim-0", some 0, none⟩

/-- Five seconds in, the node reports the pod's phase as `Unknown`. -/
def unknownPhaseHistory : History :=
  [⟨.getJob runningJob.key, .ok runningJob⟩, ⟨.now, 5 * second⟩,
    ⟨.getPod (podKey runningJob), .ok { simulatorPod runningJob with phase := .unknown }⟩]

/-- The reconcile then returns an empty result and no error. -/
theorem reconcile_drops_unknown_phase :
    ¬ ∀ (req : NamespacedName) (history : History) (job : QuantumAerJob) (outcome : Outcome),
      Path (reconcile req) history (.done outcome) → readJob history = some job →
        Unfinished job → Revisited outcome := by
  intro claim
  have path : Path (reconcile runningJob.key) unknownPhaseHistory (.done (.empty, none)) :=
    .cons (.cons (.cons (.nil _)))
  have hRevisited := claim _ _ _ _ path rfl (.inr (.inr rfl))
  rcases hRevisited with hErr | hRequeue | hAfter
  · exact hErr rfl
  · cases hRequeue
  · exact absurd hAfter (by decide)

/-- While the pod is running, the same reconcile comes back in five seconds. -/
theorem reconcile_revisits_running : Revisited (.after fastRequeueDelay, none) := by
  have path : Path (reconcile runningJob.key)
      [⟨.getJob runningJob.key, .ok runningJob⟩, ⟨.now, 5 * second⟩,
        ⟨.getPod (podKey runningJob), .ok { simulatorPod runningJob with phase := .running }⟩]
      (.done (.after fastRequeueDelay, none)) :=
    .cons (.cons (.cons (.nil _)))
  refine (reconcile_revisits_iff path rfl (.inr (.inr rfl))).mpr ?_
  rintro ⟨_, pod, ⟨_, hMem⟩, hPhase⟩
  simp at hMem
  simp [hMem] at hPhase

end QuantumService.Controller
