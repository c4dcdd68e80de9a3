import QuantumService.Cluster.Budget

/-! No livelock. While its calls succeed and are answered from the current state, a
job never falls back to pending without using up a retry, so that every status write
brings it nearer to its end. -/
namespace QuantumService.Cluster
open Interaction Controller World

/-- A write that updates a status. -/
def isStatusUpdate : Write → Bool
  | .updateStatus _ => true
  | .createPod _ | .deletePod _ | .deleteJob _ => false

/-- The status writes of a job: one that begins it, and three for each attempt. -/
def writeLimit (spec : QuantumAerJobSpec) : Int := 1 + 3 * (max 0 spec.maxRetries.toInt + 1)

/-- How many status writes the job can still take. An attempt is recorded, found
running, and ended. -/
def rank (spec : QuantumAerJobSpec) (status : QuantumAerJobStatus) : Int :=
  let later := 3 * (max 0 spec.maxRetries.toInt - status.retries.toInt)
  if status.jobStatus = "" then later + 4
  else if status.jobStatus = .pending then
    if status.podName = "" then later + 3 else later + 2
  else if status.jobStatus = .progress then later + 1
  else 0

section Rank
variable {h : History} {job : QuantumAerJob} {spec : QuantumAerJobSpec}
  {status : QuantumAerJobStatus}

theorem rank_stored : rank spec status.stored = rank spec status := rfl

theorem rank_empty : rank spec .empty = writeLimit spec := by
  have hZero : QuantumAerJobStatus.empty.retries.toInt = 0 := by decide
  have hNew : QuantumAerJobStatus.empty.jobStatus = "" := rfl
  unfold rank writeLimit
  rw [hZero, if_pos hNew]
  omega

theorem rank_pending (state : status.jobStatus = .pending) (name : status.podName = "") :
    rank spec status = 3 * (max 0 spec.maxRetries.toInt - status.retries.toInt) + 3 := by
  unfold rank
  rw [if_neg (by rw [state]; decide), if_pos state, if_pos name]

theorem rank_recorded (state : status.jobStatus = .pending) (name : status.podName ≠ "") :
    rank spec status = 3 * (max 0 spec.maxRetries.toInt - status.retries.toInt) + 2 := by
  unfold rank
  rw [if_neg (by rw [state]; decide), if_pos state, if_neg name]

theorem rank_progress (state : status.jobStatus = .progress) :
    rank spec status = 3 * (max 0 spec.maxRetries.toInt - status.retries.toInt) + 1 := by
  unfold rank
  rw [if_neg (by rw [state]; decide), if_neg (by rw [state]; decide), if_pos state]

theorem rank_terminal (state : status.jobStatus.Terminal) : rank spec status = 0 := by
  unfold rank
  rcases state with hState | hState
  · rw [if_neg (by rw [hState]; decide), if_neg (by rw [hState]; decide),
      if_neg (by rw [hState]; decide)]
  · rw [if_neg (by rw [hState]; decide), if_neg (by rw [hState]; decide),
      if_neg (by rw [hState]; decide)]

theorem rank_nonneg {name : String} (ok : StatusOk name spec status) : 0 ≤ rank spec status := by
  have hBudget := ok.budget
  unfold rank
  dsimp only
  split
  · omega
  split
  · split <;> omega
  split <;> omega

/-- An unfinished job can take one more status write. -/
theorem rank_pos {name : String} (ok : StatusOk name spec status)
    (active : ¬ status.jobStatus.Terminal) : 0 < rank spec status := by
  have hBudget := ok.budget
  rcases ok.state with hNew | hPending | hProgress | hDone
  · unfold rank
    rw [if_pos hNew]
    omega
  · by_cases hName : status.podName = ""
    · rw [rank_pending hPending hName]
      omega
    · rw [rank_recorded hPending hName]
      omega
  · rw [rank_progress hProgress]
    omega
  · exact absurd hDone active

/-- Each status write lowers the rank, if a recorded pod was never found missing. -/
theorem StatusWrite.rank_lt (write : StatusWrite h job status)
    (ok : StatusOk job.name job.spec job.status)
    (present : job.status.podName ≠ "" → ∀ q, ⟨.getPod q, .error .notFound⟩ ∉ h) :
    rank job.spec status < rank job.spec job.status := by
  have hAbsent : PodAbsent h job → job.status.podName = "" := by
    intro hPod
    by_contra hName
    rcases hPod with hEmpty | hMissing
    · exact hName hEmpty
    · exact present hName _ hMissing
  cases write with
  | timedOut started limited first expired clock =>
      rw [rank_terminal (by simp)]
      exact rank_pos ok expired.2
  | @begin now checked state clock =>
      obtain ⟨hRetries, hName⟩ := ok.untried state
      have hAfter : rank job.spec { job.status with
          jobStatus := .pending, startTime := some now, retries := 0 } =
          3 * (max 0 job.spec.maxRetries.toInt - (0 : Int32).toInt) + 3 := rank_pending rfl hName
      rw [hAfter]
      unfold rank
      rw [if_pos state, hRetries]
      omega
  | recordPod checked state absent placed =>
      have hName := hAbsent absent
      have hAfter : rank job.spec { job.status with
          podName := simulatorPodName job.name job.status.retries } =
          3 * (max 0 job.spec.maxRetries.toInt - job.status.retries.toInt) + 2 :=
        rank_recorded state (simulatorPodName_ne_empty _ _)
      rw [hAfter, rank_pending state hName]
      omega
  | markProgress checked state seen =>
      have hName : job.status.podName ≠ "" := by
        rcases seen with ⟨pod, hFound⟩ | hUnknown
        · exact hFound.1
        · exact hUnknown.1
      rw [rank_recorded state hName, rank_progress rfl]
      dsimp only
      omega
  | backToPending checked state absent untouched =>
      exact absurd (hAbsent absent) (ok.running state)
  | retry checked state found phase left deleted =>
      have hSucc := toInt_succ left
      rw [rank_progress state, rank_pending rfl rfl]
      dsimp only
      omega
  | giveUp checked state found phase spent clock =>
      rw [rank_terminal (by simp)]
      exact rank_pos ok (by simp [state])
  | succeed checked state found phase clock =>
      rw [rank_terminal (by simp)]
      exact rank_pos ok (by simp [state])

end Rank

namespace JobView
variable {key : NamespacedName} {v v' : JobView key} {spec : QuantumAerJobSpec}

/-- How many status writes the controller has performed for the job. -/
def statusWrites (v : JobView key) : Nat := v.effects.countP isStatusUpdate

/-- Every write of the reconcile in flight has succeeded. -/
def Succeeded (v : JobView key) : Prop :=
  ∀ worker write answer, v.worker = some worker →
    ⟨.write write, answer⟩ ∈ worker.history → answer = .ok ()

/-- A reconcile has found the failed pod of this attempt and deleted it, and the update
that counts the attempt is still to be answered. -/
def Deleting (v : JobView key) (retries : Int32) : Prop :=
  v.InFlight retries ∧
    ∃ worker q pod, v.worker = some worker ∧ ⟨.getPod q, .ok pod⟩ ∈ worker.history

/-- The pod that a status names is there, until the attempt is over. -/
structure Tended (v : JobView key) : Prop where
  recorded : ∀ {job}, v.job.current = some job → ¬ job.status.jobStatus.Terminal →
    job.status.podName ≠ "" → v.Live job.status.retries ∨ v.Deleting job.status.retries
  placed : ∀ {worker job}, v.worker = some worker → readJob worker.history = some job →
    job.status.jobStatus = .pending →
    ⟨.write (.createPod (simulatorPod job)), .ok ()⟩ ∈ worker.history →
      v.Live job.status.retries
  found : ∀ {worker job q}, v.worker = some worker → readJob worker.history = some job →
    v.job.current = some job → ¬ job.status.jobStatus.Terminal → job.status.podName ≠ "" →
      ⟨.getPod q, .error .notFound⟩ ∉ worker.history

theorem Deleting.worker_eq {retries : Int32} (deleting : v.Deleting retries)
    (worker : v'.worker = v.worker) : v'.Deleting retries := by
  unfold Deleting InFlight at *
  rw [worker]
  exact deleting

theorem Deleting.resume {retries : Int32} (deleting : v.Deleting retries) {history : History}
    {call : Call} {next : call.Answer → Reconciler Outcome}
    {path : Program.Path (reconcile key) history (.ask call next)} {answer : call.Answer}
    (waits : v.Waits history call next path)
    (other : ∀ update, call ≠ .write (.updateStatus update)) :
    (v.resume path answer).Deleting retries := by
  obtain ⟨hFlight, worker, q, pod, hBusy, hFound⟩ := deleting
  obtain rfl := Option.some.inj (waits.symm.trans hBusy)
  exact ⟨hFlight.resume waits other, _, q, pod, rfl, List.mem_append_left _ hFound⟩

namespace Tended
variable {history : History} {call : Call} {next : call.Answer → Reconciler Outcome}
  {path : Program.Path (reconcile key) history (.ask call next)} {answer : call.Answer}

/-- A move of the clock or of a pod, under which live pods stay live. -/
theorem keep (tended : Tended v) (current : v'.job.current = v.job.current)
    (worker : v'.worker = v.worker) (live : ∀ r, v.Live r → v'.Live r) : Tended v' where
  recorded := by
    intro job hStored hActive hNamed
    rw [current] at hStored
    exact (tended.recorded hStored hActive hNamed).imp (live _) fun h => h.worker_eq worker
  placed := by
    intro worker' job hBusy hRead hState hMem
    rw [worker] at hBusy
    exact live _ (tended.placed hBusy hRead hState hMem)
  found := by
    intro worker' job q hBusy hRead hStored
    rw [worker] at hBusy
    rw [current] at hStored
    exact tended.found hBusy hRead hStored

/-- Another version of the job. -/
theorem setJob (tended : Tended v) (sound : Sound v) (value : Option QuantumAerJob)
    (fresh : ∀ job, value = some job → job.resourceVersion = v.next)
    (recorded : ∀ job, value = some job → ¬ job.status.jobStatus.Terminal →
      job.status.podName ≠ "" → v.Live job.status.retries ∨ v.Deleting job.status.retries) :
    Tended (v.setJob value) where
  recorded := fun hStored => recorded _ hStored
  placed := tended.placed
  found := by
    intro worker job q hBusy hRead hStored
    have hOld := sound.versions.fresh (sound.held_visible hBusy hRead)
    have hNew := fresh job hStored
    omega

/-- An answer to another call than a status update. -/
theorem resume (tended : Tended v) (waits : v.Waits history call next path)
    (other : ∀ update, call ≠ .write (.updateStatus update))
    (job : ∀ req job, (⟨call, answer⟩ : Event Call.Answer) ≠ ⟨.getJob req, .ok job⟩)
    (placed : ∀ job, readJob history = some job →
      (⟨call, answer⟩ : Event Call.Answer) = ⟨.write (.createPod (simulatorPod job)), .ok ()⟩ →
        v.Live job.status.retries)
    (found : ∀ job q, readJob history = some job → v.job.current = some job →
      ¬ job.status.jobStatus.Terminal → job.status.podName ≠ "" →
        (⟨call, answer⟩ : Event Call.Answer) ≠ ⟨.getPod q, .error .notFound⟩) :
    Tended (v.resume path answer) where
  recorded := fun hStored hActive hNamed =>
    (tended.recorded hStored hActive hNamed).imp id fun h => h.resume waits other
  placed := by
    intro worker job' hBusy hRead hState hMem
    cases hBusy
    have hHeld := readJob_extend job hRead
    rcases List.mem_append.mp hMem with hOld | hNew
    · exact tended.placed waits hHeld hState hOld
    · exact placed job' hHeld (List.mem_singleton.mp hNew).symm
  found := by
    intro worker job' q hBusy hRead hStored hActive hNamed hMem
    cases hBusy
    have hHeld := readJob_extend job hRead
    rcases List.mem_append.mp hMem with hOld | hNew
    · exact tended.found waits hHeld hStored hActive hNamed hOld
    · exact found job' q hHeld hStored hActive hNamed (List.mem_singleton.mp hNew).symm

/-- A reconcile deletes the pod of a failed attempt, or of a finished job. -/
theorem delete (tended : Tended v) (sound : Sound v) {job : QuantumAerJob} {pod stored : Pod}
    {next : Except ApiError Unit → Reconciler Outcome}
    {path : Program.Path (reconcile key) history (.ask (.write (.deletePod pod)) next)}
    (waits : v.Waits history (.write (.deletePod pod)) next path)
    (held : readJob history = some job) :
    Tended ((v.setPod job.status.retries (some { stored with deletionRequested := true })).log
      (.deletePod pod) |>.resume path (.ok ())) := by
  obtain ⟨job', hRead, hFound, hState⟩ := (site_of_busy path).deletePod_inv
  obtain rfl := Option.some.inj (held.symm.trans hRead)
  have hHeld := readJob_append held [⟨.write (.deletePod pod), .ok ()⟩]
  constructor
  · intro other hStored hActive hNamed
    have hNewer := sound.versions.newer_of_held (sound.held waits held)
      (hStored ▸ v.job.current_mem_visible : some other ∈ v.job.visible)
    rcases hState with ⟨hProgress, hUntouched⟩ | hTerminal
    · by_cases hAttempt : other.status.retries = job.status.retries
      · right
        refine ⟨⟨_, job, pod, rfl, hHeld, hProgress, hAttempt.symm, last_mem _, ?_⟩,
          _, _, pod, rfl, List.mem_append_left _ hFound.2⟩
        intro update answer hMem
        exact hUntouched _ _ (mem_of_mem_snoc hMem (by simp))
      · left
        rcases tended.recorded hStored hActive hNamed with hLive | ⟨hFlight, -⟩
        · exact (live_setPod_of_ne hAttempt).mpr hLive
        · obtain ⟨worker, _, _, hBusy, -, -, -, hDeleted, -⟩ := hFlight
          obtain rfl := Option.some.inj (waits.symm.trans hBusy)
          exact absurd hDeleted (hUntouched _ _)
    · have hEnded : other.status.jobStatus.Terminal := by
        rcases hNewer with rfl | hSucceeds
        · exact hTerminal
        · exact hSucceeds.terminal hTerminal
      exact absurd hEnded hActive
  · intro worker other hBusy hRead' hPending hMem
    cases hBusy
    obtain rfl := Option.some.inj (hHeld.symm.trans hRead')
    rcases hState with ⟨hProgress, -⟩ | hTerminal
    · exact absurd (hPending.symm.trans hProgress) JobState.pending_ne_progress
    · rw [hPending] at hTerminal
      exact absurd hTerminal JobState.not_terminal_pending
  · intro worker other q hBusy hRead' hStored hActive hNamed hMem
    cases hBusy
    obtain rfl := Option.some.inj (hHeld.symm.trans hRead')
    rcases List.mem_append.mp hMem with hOld | hNew
    · exact tended.found waits held hStored hActive hNamed hOld
    · cases List.mem_singleton.mp hNew

/-- A status that names a pod is written while the pod is there. -/
theorem live_of_reason (tended : Tended v) (succeeded : v.Succeeded) {worker : Worker key}
    {job : QuantumAerJob} {status : QuantumAerJobStatus} (busy : v.worker = some worker)
    (held : readJob worker.history = some job) (present : v.job.current = some job)
    (ok : StatusOk job.name job.spec job.status) (reason : StatusWrite worker.history job status)
    (active : ¬ status.jobStatus.Terminal) (named : status.podName ≠ "") :
    v.Live status.retries := by
  cases reason with
  | timedOut | giveUp | succeed => exact absurd (by simp) active
  | begin checked state clock => exact absurd (ok.untried state).2 named
  | backToPending | retry => exact absurd rfl named
  | recordPod checked state absent placed =>
      rcases placed with hCreated | hTaken
      · exact tended.placed busy held state hCreated
      · cases succeeded _ _ _ busy hTaken
  | markProgress checked state seen =>
      have hActive : ¬ job.status.jobStatus.Terminal := by simp [state]
      rcases tended.recorded present hActive named with hLive | ⟨hFlight, -⟩
      · exact hLive
      · obtain ⟨worker', job', _, hBusy, hRead, hProgress, -⟩ := hFlight
        obtain rfl := Option.some.inj (busy.symm.trans hBusy)
        obtain rfl := Option.some.inj (held.symm.trans hRead)
        exact absurd (state.symm.trans hProgress) JobState.pending_ne_progress

/-- The pod of an attempt is tended by every move, while the calls of the reconcile succeed
on the current state. -/
theorem step (tended : Tended v) (sound : Sound v) {a : Action}
    (current : ∀ age, a = .answer key (.read age) → age = 0)
    (removed : ∀ r pod, a = .removePod (simulatorPodKey key r) →
      (v.pods r).current = some pod → pod.deletionRequested = true)
    (before : v.Succeeded) (after : v'.Succeeded) (h : Moves v a v') : Tended v' := by
  cases h with
  | elsewhere later => exact tended.keep rfl rfl fun _ h => h
  | setClock => exact tended.keep rfl rfl fun _ h => h
  | @create spec fresh =>
      have hJob := tended.setJob sound
        (some ⟨key.name, key.nameSpace, v.next, v.next, spec, .empty⟩)
        (by
          rintro _ ⟨⟩
          rfl)
        (by
          rintro _ ⟨⟩ _ hNamed
          exact absurd rfl hNamed)
      exact { hJob with }
  | start idle =>
      constructor
      · intro job hStored hActive hNamed
        rcases tended.recorded hStored hActive hNamed with hLive | ⟨⟨worker, _, _, hBusy, -⟩, -⟩
        · exact .inl hLive
        · rw [idle] at hBusy
          cases hBusy
      · rintro worker job ⟨⟩ hRead
        cases hRead
      · rintro worker job q ⟨⟩ hRead
        cases hRead
  | @readJob age value register next path waits read =>
      constructor
      · intro job hStored hActive hNamed
        have hBefore := (Register.current_read read).symm.trans hStored
        rcases tended.recorded hBefore hActive hNamed with
          hLive | ⟨⟨worker, _, _, hBusy, hRead, -⟩, -⟩
        · exact .inl hLive
        · obtain rfl := Option.some.inj (waits.symm.trans hBusy)
          cases hRead
      · rintro worker job ⟨⟩ _ _ hMem
        cases List.mem_singleton.mp hMem
      · rintro worker job q ⟨⟩ _ _ _ _ hMem
        cases List.mem_singleton.mp hMem
  | @readPod age job value register history next path waits held read =>
      have hServed : Tended (v.servePod job.status.retries register) :=
        tended.keep rfl rfl fun r => (live_servePod read).mpr
      apply hServed.resume waits
      · rintro update ⟨⟩
      · rintro req job' ⟨⟩
      · rintro job' _ ⟨⟩
      · rintro job' q hRead hStored hActive hNamed hMissing
        obtain rfl := Option.some.inj (held.symm.trans hRead)
        have hAge := current age rfl
        subst hAge
        have hValue : value = (v.pods job.status.retries).current := by
          simpa [Register.visible] using (Register.visible_read read).1.symm
        rcases tended.recorded hStored hActive hNamed with ⟨pod, hPod, -⟩ | ⟨-, hSeen⟩
        · rw [hValue, hPod] at hMissing
          cases hMissing
        · -- the pod is looked for once, and before it is deleted
          obtain ⟨worker, q', pod, hBusy, hFound⟩ := hSeen
          obtain rfl := Option.some.inj (waits.symm.trans hBusy)
          exact (site_of_busy path).getPod_first _ _ hFound
  | @created job history next reply answer path waits held free reported =>
      have hLive : (v.setPod job.status.retries
          (some { simulatorPod job with uid := v.next, phase := .pending })).Live
          job.status.retries :=
        ⟨{ simulatorPod job with uid := v.next, phase := .pending }, by simp, rfl⟩
      have hPods : Tended ((v.setPod job.status.retries (some { simulatorPod job with
          uid := v.next, phase := .pending })).log (.createPod (simulatorPod job))) := by
        refine tended.keep rfl rfl fun r => live_setPod_of_kept ?_
        rintro ⟨pod, hStored, -⟩
        rw [free] at hStored
        cases hStored
      apply hPods.resume waits
      · rintro update ⟨⟩
      · rintro req job' ⟨⟩
      · intro job' hRead _
        obtain rfl := Option.some.inj (held.symm.trans hRead)
        exact hLive
      · rintro job' q _ _ _ _ ⟨⟩
  | @deleted job pod stored history next reply answer path waits held named present reported =>
      have hOk : answer = .ok () := after _ _ _ rfl (last_mem _)
      subst hOk
      exact tended.delete sound waits held
  | @expired job stored history next reply answer path waits held present reported =>
      have hGone := tended.setJob sound none (by simp) (by simp)
      have hLogged : Tended ((v.setJob none).log (.deleteJob job)) :=
        hGone.keep rfl rfl fun _ h => h
      apply hLogged.resume waits
      · rintro update ⟨⟩
      · rintro req job' ⟨⟩
      · rintro job' _ ⟨⟩
      · rintro job' q _ _ _ _ ⟨⟩
  | @updated job stored status history next reply answer path waits held present version
      reported =>
      obtain ⟨rfl, -⟩ := sound.versions.eq_of_version (sound.held waits held) present version
      have hOld := sound.versions.fresh (sound.held_visible waits held)
      have hOk := sound.versions.ok (sound.held_visible waits held)
      have hReason := (site_of_busy path).reason held
      have hHeld :=
        readJob_append held [⟨.write (.updateStatus (stored.withStatus status)), answer⟩]
      have hLive : ¬ status.jobStatus.Terminal → status.podName ≠ "" → v.Live status.retries :=
        tended.live_of_reason before waits held present hOk hReason
      constructor
      · rintro job ⟨⟩ hActive hNamed
        exact .inl (hLive hActive hNamed)
      · intro worker job hBusy hRead hState hMem
        cases hBusy
        obtain rfl := Option.some.inj (hHeld.symm.trans hRead)
        rcases List.mem_append.mp hMem with hEarlier | hNew
        · exact tended.placed waits held hState hEarlier
        · cases List.mem_singleton.mp hNew
      · intro worker job q hBusy hRead hStored
        cases hBusy
        obtain rfl := Option.some.inj (hHeld.symm.trans hRead)
        have hVersion := congrArg QuantumAerJob.resourceVersion (Option.some.inj hStored)
        have hNext : v.next = stored.resourceVersion := hVersion
        omega
  | @quiet call history next reply answer path waits uneventful ineffective =>
      have hReads : ∀ write, call ≠ .write write := by
        rintro write rfl
        have hOk : answer = .ok () := after _ _ _ rfl (last_mem _)
        exact uneventful.write write (by rw [hOk])
      apply tended.resume waits
      · exact fun update => hReads _
      · exact uneventful.job
      · exact fun job _ hCreated => absurd hCreated (uneventful.write _)
      · exact fun job q _ _ _ _ => uneventful.noPod q
  | @finish history outcome path busy =>
      constructor
      · intro job hStored hActive hNamed
        rcases tended.recorded hStored hActive hNamed with hLive | ⟨hFlight, -⟩
        · exact .inl hLive
        · exact absurd hFlight (not_inFlight_of_done busy)
      · rintro worker job ⟨⟩
      · rintro worker job q ⟨⟩
  | @patched message stored present =>
      have hRecorded : ¬ stored.status.jobStatus.Terminal → stored.status.podName ≠ "" →
          v.Live stored.status.retries ∨ v.Deleting stored.status.retries :=
        tended.recorded present
      apply tended.setJob sound
      · rintro job ⟨⟩
        rfl
      · rintro job ⟨⟩
        exact hRecorded
  | @setPhase retries phase pod present =>
      refine tended.keep rfl rfl fun r => live_setPod_of_kept ?_
      rintro ⟨pod', hStored, hLive⟩
      rw [present] at hStored
      cases hStored
      exact ⟨_, rfl, hLive⟩
  | @createPod retries pod named free =>
      refine tended.keep rfl rfl fun r => live_setPod_of_kept ?_
      rintro ⟨pod', hStored, -⟩
      rw [free] at hStored
      cases hStored
  | @removePod retries pod present =>
      refine tended.keep rfl rfl fun r => live_setPod_of_kept ?_
      rintro ⟨pod', hStored, hLive⟩
      rw [removed retries pod' rfl hStored] at hLive
      cases hLive

end Tended

/-- The status writes done and the rank of the stored status stay within the limit. -/
structure Bounded (spec : QuantumAerJobSpec) (v : JobView key) : Prop where
  uncreated : ¬ v.created → v.statusWrites = 0
  fixed : ∀ {job}, v.job.current = some job → job.spec = spec
  spent : ∀ {job}, v.job.current = some job →
    (v.statusWrites : Int) + rank spec job.status ≤ writeLimit spec
  limit : (v.statusWrites : Int) ≤ writeLimit spec

namespace Bounded

theorem keep (bounded : Bounded spec v) (writes : v'.statusWrites = v.statusWrites)
    (created : v'.created = v.created)
    (current : ∀ job, v'.job.current = some job → v.job.current = some job) : Bounded spec v' where
  uncreated := by
    intro hFresh
    rw [writes]
    exact bounded.uncreated (created ▸ hFresh)
  fixed := fun hStored => bounded.fixed (current _ hStored)
  spent := by
    intro job hStored
    rw [writes]
    exact bounded.spent (current job hStored)
  limit := by
    rw [writes]
    exact bounded.limit

theorem statusWrites_log {write : Write} (other : isStatusUpdate write = false) :
    (v.log write).statusWrites = v.statusWrites := by
  simp [statusWrites, JobView.log, other]

theorem step (bounded : Bounded spec v) (sound : Sound v) (tended : Tended v) {a : Action}
    (fixed : ∀ spec', a = .createJob key spec' → spec' = spec) (h : Moves v a v') :
    Bounded spec v' := by
  cases h with
  | elsewhere | setClock | start | setPhase | createPod | removePod | finish | quiet =>
      exact bounded.keep rfl rfl fun _ h => h
  | @create spec' fresh =>
      have hNone := bounded.uncreated fresh
      have hSpec := fixed spec' rfl
      subst hSpec
      exact {
        uncreated := fun hFresh => absurd trivial hFresh
        fixed := by
          rintro _ ⟨⟩
          rfl
        spent := by
          rintro _ ⟨⟩
          have hRank := @rank_empty spec'
          show (v.statusWrites : Int) + rank spec' .empty ≤ writeLimit spec'
          omega
        limit := bounded.limit }
  | readJob waits read =>
      exact bounded.keep rfl rfl fun _ hStored => (Register.current_read read).symm.trans hStored
  | readPod => exact bounded.keep rfl rfl fun _ h => h
  | created => exact bounded.keep (statusWrites_log rfl) rfl fun _ h => h
  | deleted => exact bounded.keep (statusWrites_log rfl) rfl fun _ h => h
  | expired => exact bounded.keep (statusWrites_log rfl) rfl (by rintro _ ⟨⟩)
  | @updated job stored status history next reply answer path waits held present version
      reported =>
      obtain ⟨rfl, -⟩ := sound.versions.eq_of_version (sound.held waits held) present version
      have hOk := sound.versions.ok (sound.held_visible waits held)
      have hReason := (site_of_busy path).reason held
      have hSpec := bounded.fixed present
      subst hSpec
      have hActive := (hReason.advance hOk).active
      have hRank := StatusWrite.rank_lt hReason hOk fun hNamed q =>
        tended.found waits held present hActive hNamed
      have hSpent := bounded.spent present
      have hNonneg := rank_nonneg (hOk.advance (hReason.advance hOk))
      have hCount : ((v.setJob (some { stored with
          status := status.stored, resourceVersion := v.next })).log
          (.updateStatus (stored.withStatus status)) |>.resume path answer).statusWrites =
          v.statusWrites + 1 := by
        show (Write.updateStatus _ :: v.effects).countP isStatusUpdate = _
        rw [List.countP_cons_of_pos rfl]
        rfl
      rw [rank_stored] at hNonneg
      exact {
        uncreated := fun hFresh =>
          absurd (sound.versions.created_of_stored (sound.held_visible waits held)) hFresh
        fixed := by
          rintro _ ⟨⟩
          rfl
        spent := by
          rintro _ ⟨⟩
          rw [hCount]
          show ((v.statusWrites + 1 : Nat) : Int) + rank stored.spec status ≤ _
          omega
        limit := by
          rw [hCount]
          omega }
  | @patched message stored present =>
      have hSpec : stored.spec = spec := bounded.fixed present
      have hSpent : (v.statusWrites : Int) + rank spec stored.status ≤ writeLimit spec :=
        bounded.spent present
      exact {
        uncreated := bounded.uncreated
        fixed := by
          rintro _ ⟨⟩
          exact hSpec
        spent := by
          rintro _ ⟨⟩
          exact hSpent
        limit := bounded.limit }

end Bounded
end JobView

namespace World
variable {w w' : World} {key : NamespacedName} {spec : QuantumAerJobSpec}

/-- The answer of a call that succeeds, and that serves the current value. -/
def Reply.direct : Reply → Bool
  | .read age => age = 0
  | .ok => true
  | .absent | .lost _ | .fail _ => false

/-- The write that the reconcile of the job waits for would be applied. -/
def applies (w : World) (key : NamespacedName) : Bool :=
  match w.workers key with
  | some ⟨_, .ask (.write write) _, _⟩ => (w.applyWrite write).isOk
  | _ => true

/-- Every API call for the job succeeds, and its reads are current. -/
def Responsive (key : NamespacedName) (w : World) : Action → Prop
  | .answer acting reply => acting = key → reply.direct = true ∧ w.applies key = true
  | _ => True

instance (w : World) : (a : Action) → Decidable (Responsive key w a)
  | .answer acting reply =>
      inferInstanceAs (Decidable (acting = key → reply.direct = true ∧ w.applies key = true))
  | .createJob .. | .reconcile _ | .finish _ | .patchError .. | .setClock _ | .setPhase ..
  | .createPod _ | .removePod _ =>
      .isTrue trivial

/-- The job is created with this spec. -/
def CreatesAs (key : NamespacedName) (spec : QuantumAerJobSpec) (_ : World) : Action → Prop
  | .createJob acting spec' => acting = key → spec' = spec
  | _ => True

instance (w : World) : (a : Action) → Decidable (CreatesAs key spec w a)
  | .createJob acting spec' => inferInstanceAs (Decidable (acting = key → spec' = spec))
  | .reconcile _ | .answer .. | .finish _ | .patchError .. | .setClock _ | .setPhase ..
  | .createPod _ | .removePod _ =>
      .isTrue trivial

/-- Nothing disturbs the controller's work on the job. -/
structure Undisturbed (key : NamespacedName) (spec : QuantumAerJobSpec) (w : World)
    (a : Action) : Prop where
  responsive : Responsive key w a
  removes : RemovesOwn key w a
  creates : CreatesAs key spec w a

theorem succeeded_step (succeeded : (w.view key).Succeeded) {a : Action}
    (responsive : Responsive key w a) (stepped : w.step a = some w') :
    (w'.view key).Succeeded := by
  have hKept : w'.workers key = w.workers key → (w'.view key).Succeeded := by
    intro hSame worker write answer hBusy
    exact succeeded worker write answer (hSame.symm.trans hBusy)
  have hOther : ∀ {s : World} {acting} (worker : Option (Worker acting)), s.workers = w.workers →
      acting ≠ key → (s.setWorker acting worker).workers key = w.workers key := by
    intro s acting worker hWorkers hKey
    rw [setWorker_workers, Function.update_of_ne (Ne.symm hKey), hWorkers]
  -- the answer joins what the reconcile knows, and it is no failed write
  have hExtend : ∀ {s : World} {history : History} {call : Call}
      {next : call.Answer → Reconciler Outcome}
      {path : Program.Path (reconcile key) history (.ask call next)} {answer : call.Answer},
      w.workers key = some ⟨history, .ask call next, path⟩ →
      (∀ write answer', (⟨call, answer⟩ : Event Call.Answer) = ⟨.write write, answer'⟩ →
        answer' = .ok ()) →
      ((s.setWorker key (some (Worker.extend path answer))).view key).Succeeded := by
    intro s history call next path answer hWaits hLast worker write answer' hBusy hMem
    have hWorker : some (Worker.extend path answer) = some worker :=
      (Function.update_self key _ _).symm.trans hBusy
    cases hWorker
    rcases List.mem_append.mp hMem with hOld | hNew
    · exact succeeded _ write answer' hWaits hOld
    · exact hLast write answer' (List.mem_singleton.mp hNew).symm
  have hMoves := moves_of_step stepped
  clear stepped
  cases hMoves with
  | createJob | unpatched | patched | setClock | setPhase | createPod | removePod =>
      exact hKept rfl
  | @start acting idle =>
      by_cases hKey : acting = key
      · subst hKey
        intro worker write answer hBusy hMem
        have hWorker : some (Worker.start acting) = some worker :=
          (Function.update_self acting _ _).symm.trans hBusy
        cases hWorker
        cases hMem
      · exact hKept (hOther _ rfl hKey)
  | @readJob acting req age value register history next path busy read =>
      by_cases hKey : acting = key
      · subst hKey
        exact hExtend busy (by rintro write answer' ⟨⟩)
      · exact hKept (hOther _ rfl hKey)
  | @readPod acting pod age value register history next path busy read =>
      by_cases hKey : acting = key
      · subst hKey
        exact hExtend busy (by rintro write answer' ⟨⟩)
      · exact hKept (hOther _ rfl hKey)
  | @wrote acting write middle history next reply answer path busy applied reported =>
      by_cases hKey : acting = key
      · subst hKey
        apply hExtend busy
        rintro write' answer' hEvent
        cases hEvent
        cases reported with
        | ok => rfl
        | lost =>
            have hDirect := (responsive rfl).1
            cases hDirect
      · have hWorkers := applyWrite_workers applied
        exact hKept (hOther _ hWorkers hKey)
  | @quiet acting call history next reply answer path busy quiet =>
      by_cases hKey : acting = key
      · subst hKey
        obtain ⟨hDirect, hApplies⟩ := responsive rfl
        apply hExtend busy
        rintro write answer' hEvent
        cases hEvent
        cases quiet with
        | rejected refused =>
            simp only [applies, busy, refused] at hApplies
            cases hApplies
        | failedWrite => cases hDirect
      · exact hKept (hOther _ rfl hKey)
  | @finish acting history outcome path busy =>
      by_cases hKey : acting = key
      · subst hKey
        intro worker write answer hBusy
        have hNone : (none : Option (Worker acting)) = some worker :=
          (Function.update_self acting _ _).symm.trans hBusy
        cases hNone
      · exact hKept (hOther _ rfl hKey)

theorem bounded_of_reaches (run : Reaches step (Undisturbed key spec) Initial w) :
    (w.view key).Succeeded ∧ (w.view key).Tended ∧ (w.view key).Bounded spec := by
  apply run.invariant
  · intro s initial
    have hIdle : (s.view key).worker = none := initial.idle key
    have hJob : (s.view key).job = .synced none := initial.jobs key
    have hWrites : (s.view key).statusWrites = 0 := by
      simp [view, JobView.statusWrites, initial.effects]
    have hCurrent : ∀ {job}, (s.view key).job.current ≠ some job := by
      simp [hJob, Register.synced]
    refine ⟨?_, ?_, ?_⟩
    · intro worker write answer hBusy
      rw [hIdle] at hBusy
      cases hBusy
    · constructor
      · exact fun hStored => absurd hStored hCurrent
      · intro worker job hBusy
        rw [hIdle] at hBusy
        cases hBusy
      · exact fun _ _ hStored => absurd hStored hCurrent
    · constructor
      · exact fun _ => hWrites
      · exact fun hStored => absurd hStored hCurrent
      · exact fun hStored => absurd hStored hCurrent
      · rw [hWrites]
        unfold writeLimit
        omega
  · intro s a t reached kept permitted stepped
    obtain ⟨hSucceeded, hTended, hBounded⟩ := kept
    have hSound := sound_of_reaches (reached.mono (fun _ h => h) fun _ _ h => h)
    have hMoves := view_moves hSound stepped key
    have hAfter := succeeded_step hSucceeded permitted.responsive stepped
    refine ⟨hAfter, ?_, ?_⟩
    · apply hTended.step (hSound key) _ _ hSucceeded hAfter hMoves
      · rintro age rfl
        have hDirect := (permitted.responsive rfl).1
        simpa [Reply.direct] using hDirect
      · intro r pod hAction hStored
        exact permitted.removes r hAction pod hStored
    · apply hBounded.step (hSound key) hTended _ hMoves
      rintro spec' rfl
      exact permitted.creates rfl

/-- The status writes the controller has performed for the job. -/
def statusWrites (w : World) (key : NamespacedName) : Nat :=
  (entriesOf key w.effects).countP isStatusUpdate

/-- In every run in which the API answers and nobody interferes, the controller writes the
status of a job at most once, and three times for each attempt. -/
theorem status_writes_bounded (run : Reaches step (Undisturbed key spec) Initial w) :
    (w.statusWrites key : Int) ≤ 1 + 3 * (max 0 spec.maxRetries.toInt + 1) :=
  (bounded_of_reaches run).2.2.limit

theorem status_writes_bounded_retried : ∃ w, runActions step .empty retriedRun = some w ∧
    w.statusWrites sampleKey = 5 ∧
    (w.statusWrites sampleKey : Int) ≤ 1 + 3 * (max 0 sampleSpec.maxRetries.toInt + 1) := by
  have hRun : (runActions step .empty retriedRun).isSome := by decide +kernel
  obtain ⟨w, hw⟩ := Option.isSome_iff_exists.mp hRun
  have hReached : Reaches step (fun w a => Responsive sampleKey w a ∧ RemovesDeleted w a ∧
      CreatesAs sampleKey sampleSpec w a) Initial w :=
    (Reaches.start .empty).runActions (by decide +kernel) hw
  have hUndisturbed : Reaches step (Undisturbed sampleKey sampleSpec) Initial w :=
    hReached.mono (fun _ h => h) fun _ _ h => ⟨h.1, h.2.1.own, h.2.2⟩
  have hCount : (runActions step .empty retriedRun).map (fun w => w.statusWrites sampleKey) =
      some 5 := by decide +kernel
  rw [hw, Option.map_some, Option.some.injEq] at hCount
  exact ⟨w, hw, hCount, status_writes_bounded hUndisturbed⟩

end World
end QuantumService.Cluster
