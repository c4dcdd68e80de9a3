import QuantumService.Cluster.Projection

/-! The life of a job. Its status moves along six edges, its times are ordered
and its retries counted within the budget, whatever calls fail, whatever stale
copies reconciles work on and wherever simulators patch the status. -/
namespace QuantumService.Cluster
open Interaction Controller World

/-- The transitions of `jobStatus`. -/
inductive Edge : JobState → JobState → Prop where
  | begin : Edge "" .pending
  | run : Edge .pending .progress
  | failPending : Edge .pending .failed
  | again : Edge .progress .pending
  | complete : Edge .progress .completed
  | failRunning : Edge .progress .failed

/-- What the fields of a stored status say about each other. -/
structure WellFormed (spec : QuantumAerJobSpec) (status : QuantumAerJobStatus) : Prop where
  state : status.jobStatus ∈
    (["", .pending, .progress, .completed, .failed] : List JobState)
  started : status.startTime.isSome ↔ status.jobStatus ≠ ""
  completed : status.completionTime.isSome ↔
    status.jobStatus = .completed ∨ status.jobStatus = .failed
  ordered : ∀ s c, status.startTime = some s → status.completionTime = some c → s ≤ c
  nonneg : 0 ≤ status.retries.toInt
  budget : status.retries.toInt ≤ max 0 spec.maxRetries.toInt

/-- What one step may change in a stored status. -/
structure Progresses (old new : QuantumAerJobStatus) : Prop where
  state : new.jobStatus = old.jobStatus ∨ Edge old.jobStatus new.jobStatus
  startTime : old.startTime.isSome → new.startTime = old.startTime
  final : old.completionTime.isSome → new.jobStatus = old.jobStatus ∧
    new.completionTime = old.completionTime ∧ new.retries = old.retries ∧
    new.podName = old.podName
  retries : new.retries.toInt = old.retries.toInt ∨ new.retries.toInt = old.retries.toInt + 1

/-- The clock is never set back. -/
def ForwardClock (w : World) : Action → Prop
  | .setClock now => w.clock ≤ now
  | _ => True

instance (w : World) : (a : Action) → Decidable (ForwardClock w a)
  | .setClock now => inferInstanceAs (Decidable (w.clock ≤ now))
  | .createJob .. | .reconcile _ | .answer .. | .finish _ | .patchError .. | .setPhase ..
  | .createPod _ | .removePod _ =>
      .isTrue trivial

section Advance
variable {name : String} {spec : QuantumAerJobSpec} {old new : QuantumAerJobStatus}

theorem StatusOk.wellFormed (ok : StatusOk name spec old)
    (ordered : ∀ s c, old.startTime = some s → old.completionTime = some c → s ≤ c) :
    WellFormed spec old where
  state := by
    have hState := ok.state
    simpa using hState
  started := by
    rw [Option.isSome_iff_ne_none]
    exact not_congr ok.started
  completed := by
    rw [Option.isSome_iff_ne_none]
    have hEnded := not_congr ok.ended
    rw [not_not] at hEnded
    exact hEnded
  ordered := ordered
  nonneg := ok.nonneg
  budget := ok.budget

theorem Advance.progresses (ok : StatusOk name spec old) (h : Advance name spec old new) :
    Progresses old new := by
  have hOpen : old.completionTime = none := ok.ended.mpr h.active
  have hFinal : old.completionTime.isSome → new.jobStatus = old.jobStatus ∧
      new.completionTime = old.completionTime ∧ new.retries = old.retries ∧
      new.podName = old.podName := by simp [hOpen]
  cases h with
  | timedOut started active =>
      refine ⟨.inr ?_, fun _ => rfl, hFinal, .inl rfl⟩
      rcases ok.state with hState | hState | hState | hState | hState
      · exact absurd (ok.started.mpr hState) started
      · exact hState ▸ .failPending
      · exact hState ▸ .failRunning
      · exact absurd (hState ▸ JobState.terminal_completed) active
      · exact absurd (hState ▸ JobState.terminal_failed) active
  | begin state =>
      have hStart : old.startTime = none := ok.started.mpr state
      have hRetries : old.retries = 0 := (ok.untried state).1
      refine ⟨.inr (state ▸ .begin), ?_, hFinal, .inl (by rw [hRetries])⟩
      intro hSome
      simp [hStart] at hSome
  | recordPod state => exact ⟨.inl rfl, fun _ => rfl, hFinal, .inl rfl⟩
  | markProgress state named => exact ⟨.inr (state ▸ .run), fun _ => rfl, hFinal, .inl rfl⟩
  | backToPending state => exact ⟨.inr (state ▸ .again), fun _ => rfl, hFinal, .inl rfl⟩
  | retry state left =>
      exact ⟨.inr (state ▸ .again), fun _ => rfl, hFinal, .inr (toInt_succ left)⟩
  | giveUp state spent => exact ⟨.inr (state ▸ .failRunning), fun _ => rfl, hFinal, .inl rfl⟩
  | succeed state => exact ⟨.inr (state ▸ .complete), fun _ => rfl, hFinal, .inl rfl⟩

end Advance

theorem Progresses.refl (status : QuantumAerJobStatus) : Progresses status status :=
  ⟨.inl rfl, fun _ => rfl, fun _ => ⟨rfl, rfl, rfl, rfl⟩, .inl rfl⟩

/-- A patch of the error message is not a step of the life of a job. -/
theorem Progresses.message {old new : QuantumAerJobStatus} (h : Progresses old new)
    (message : String) : Progresses old { new with errorMessage := message } :=
  ⟨h.state, h.startTime, h.final, h.retries⟩

theorem Succeeds.progresses {old new : QuantumAerJob} (h : Succeeds new old)
    (ok : StatusOk old.name old.spec old.status) : Progresses old.status new.status := by
  obtain ⟨status, hOrigin, hStatus⟩ := h.status
  rw [hStatus]
  apply Progresses.message
  rcases hOrigin with rfl | hAdvance
  · exact .refl _
  · exact Advance.progresses ok hAdvance

namespace JobView
variable {key : NamespacedName} {v v' : JobView key}

/-- A move leaves the stored job alone or stores one new value of it. -/
theorem Moves.job {a : Action} (h : Moves v a v') :
    v'.job.current = v.job.current ∨ ∃ value, v'.job = v.job.write value := by
  cases h with
  | elsewhere | setClock | start | readPod | created | deleted | quiet | finish | setPhase
  | createPod | removePod => exact .inl rfl
  | readJob waits read => exact .inl (Register.current_read read)
  | create | expired | updated | patched => exact .inr ⟨_, rfl⟩

/-- Only its creation stores a job that was not there before. -/
theorem Moves.born {a : Action} (h : Moves v a v') {new : QuantumAerJob}
    (absent : v.job.current = none) (stored : v'.job.current = some new) :
    new.status = .empty := by
  have hKept : v'.job.current ≠ v.job.current := by
    rw [absent, stored]
    simp
  cases h with
  | elsewhere | setClock | start | readPod | created | deleted | quiet | finish | setPhase
  | createPod | removePod => exact absurd rfl hKept
  | readJob waits read => exact absurd (Register.current_read read) hKept
  | create fresh =>
      cases stored
      rfl
  | expired _ _ present | updated _ _ present | patched present =>
      rw [absent] at present
      cases present

/-- Between two stored versions of a job lies one advance, or a patch. -/
theorem Sound.progresses (sound : Sound v) (sound' : Sound v') {a : Action} (h : Moves v a v')
    {old new : QuantumAerJob} (before : v.job.current = some old)
    (after : v'.job.current = some new) :
    new.spec = old.spec ∧ Progresses old.status new.status := by
  have hOld : some old ∈ v.job.visible := before ▸ v.job.current_mem_visible
  rcases h.job with hSame | ⟨value, hWrite⟩
  · rw [hSame, before] at after
    cases after
    exact ⟨rfl, .refl _⟩
  · have hOrdered := sound'.versions.ordered
    rw [hWrite] at after hOrdered
    have hNewer := (List.pairwise_cons.mp hOrdered).1 _ hOld
    obtain rfl : value = some new := after
    have hSucceeds : Succeeds new old := hNewer
    exact ⟨hSucceeds.spec, hSucceeds.progresses (sound.versions.ok hOld)⟩

/-- The times in the stored versions and the ones a reconcile has read. -/
structure Timely (v : JobView key) : Prop where
  started : ∀ {job s}, some job ∈ v.job.visible → job.status.startTime = some s →
    s ≤ storedTime v.clock
  ordered : ∀ {job s c}, some job ∈ v.job.visible → job.status.startTime = some s →
    job.status.completionTime = some c → s ≤ c
  past : ∀ {worker t}, v.worker = some worker → ⟨.now, t⟩ ∈ worker.history → t ≤ v.clock
  after : ∀ {worker job s t}, v.worker = some worker → readJob worker.history = some job →
    job.status.startTime = some s → ⟨.now, t⟩ ∈ worker.history → s ≤ storedTime t

section Timely

theorem Timely.write (timely : Timely v) (value : Option QuantumAerJob)
    (started : ∀ job s, value = some job → job.status.startTime = some s →
      s ≤ storedTime v.clock)
    (ordered : ∀ job s c, value = some job → job.status.startTime = some s →
      job.status.completionTime = some c → s ≤ c) : Timely (v.setJob value) where
  started := by
    intro job s hMem
    rcases List.mem_cons.mp hMem with hNew | hOld
    · exact started job s hNew.symm
    · exact timely.started hOld
  ordered := by
    intro job s c hMem
    rcases List.mem_cons.mp hMem with hNew | hOld
    · exact ordered job s c hNew.symm
    · exact timely.ordered hOld
  past := timely.past
  after := timely.after

theorem Timely.resume (timely : Timely v) {history : History} {call : Call}
    {next : call.Answer → Reconciler Outcome}
    {path : Program.Path (reconcile key) history (.ask call next)} {answer : call.Answer}
    (waits : v.Waits history call next path)
    (job : ∀ req job, (⟨call, answer⟩ : Event Call.Answer) ≠ ⟨.getJob req, .ok job⟩)
    (now : ∀ t, (⟨call, answer⟩ : Event Call.Answer) = ⟨.now, t⟩ → t = v.clock)
    (visible : ∀ job, readJob history = some job → some job ∈ v.job.visible) :
    Timely (v.resume path answer) where
  started := timely.started
  ordered := timely.ordered
  past := by
    rintro worker t ⟨⟩ hMem
    rcases List.mem_append.mp hMem with hOld | hNew
    · exact timely.past waits hOld
    · exact Int.le_of_eq (now t (List.mem_singleton.mp hNew).symm)
  after := by
    rintro worker job' s t ⟨⟩ hRead hStart hMem
    have hBefore := readJob_extend job hRead
    rcases List.mem_append.mp hMem with hOld | hNew
    · exact timely.after waits hBefore hStart hOld
    · rw [now t (List.mem_singleton.mp hNew).symm]
      exact timely.started (visible job' hBefore) hStart

/-- The controller's status writes keep a job's times in order. -/
theorem Timely.status (timely : Timely v) {worker : Worker key} {job : QuantumAerJob}
    {status : QuantumAerJobStatus} (busy : v.worker = some worker)
    (held : readJob worker.history = some job) (visible : some job ∈ v.job.visible)
    (ok : StatusOk job.name job.spec job.status)
    (reason : StatusWrite worker.history job status) :
    (∀ s, status.stored.startTime = some s → s ≤ storedTime v.clock) ∧
      ∀ s c, status.stored.startTime = some s → status.stored.completionTime = some c →
        s ≤ c := by
  have hWhole : ∀ s, (job.status.startTime.map storedTime) = some s →
      job.status.startTime = some s := by
    intro s hStart
    cases hTime : job.status.startTime with
    | none => simp [hTime] at hStart
    | some t =>
        rw [hTime] at hStart
        cases hStart
        rw [ok.wholeStart t hTime]
  have hKept : ∀ s, job.status.startTime.map storedTime = some s → s ≤ storedTime v.clock :=
    fun s hStart => timely.started visible (hWhole s hStart)
  have hDone : ∀ {now : Int}, ⟨.now, now⟩ ∈ worker.history → ∀ s c,
      job.status.startTime.map storedTime = some s → some (storedTime now) = some c → s ≤ c := by
    rintro now hNow s c hStart ⟨⟩
    exact timely.after busy held (hWhole s hStart) hNow
  have hOpen : ¬ job.status.jobStatus.Terminal → ∀ {start : Option Int}, ∀ s c,
      start = some s → job.status.completionTime.map storedTime = some c → s ≤ c := by
    intro hActive start s c _ hCompletion
    simp [ok.ended.mpr hActive] at hCompletion
  cases reason with
  | timedOut started limited first expired clock => exact ⟨hKept, hDone clock⟩
  | begin checked state clock =>
      constructor
      · rintro s ⟨⟩
        exact storedTime_mono (timely.past busy clock)
      · exact hOpen (by simp [state])
  | recordPod checked state | markProgress checked state | backToPending checked state
  | retry checked state => exact ⟨hKept, hOpen (by simp [state])⟩
  | giveUp checked state found phase spent clock => exact ⟨hKept, hDone clock⟩
  | succeed checked state found phase clock => exact ⟨hKept, hDone clock⟩

theorem Timely.step (timely : Timely v) (sound : Sound v) {a : Action}
    (forward : ∀ now, a = .setClock now → v.clock ≤ now) (h : Moves v a v') : Timely v' := by
  have hVisible : ∀ {history : History} {rest : Reconciler Outcome}
      {path : Program.Path (reconcile key) history rest}, v.worker = some ⟨history, rest, path⟩ →
      ∀ job, readJob history = some job → some job ∈ v.job.visible :=
    fun busy job hRead => sound.held_visible busy hRead
  cases h with
  | elsewhere | setPhase | createPod | removePod => exact { timely with }
  | @setClock now =>
      have hForward := forward now rfl
      exact { timely with
        started := fun hMem hStart =>
          Int.le_trans (timely.started hMem hStart) (storedTime_mono hForward)
        past := fun hBusy hMem => Int.le_trans (timely.past hBusy hMem) hForward }
  | @create spec fresh =>
      have hJob := timely.write (some ⟨key.name, key.nameSpace, v.next, v.next, spec, .empty⟩)
        (by rintro job s ⟨⟩ ⟨⟩) (by rintro job s c ⟨⟩ ⟨⟩)
      exact { hJob with }
  | start idle =>
      exact { timely with
        past := by
          rintro worker t ⟨⟩ hMem
          cases hMem
        after := by
          rintro worker job s t ⟨⟩ hRead
          cases hRead }
  | @readJob age value register next path waits read =>
      exact {
        started := fun hMem => timely.started (Register.visible_subset_of_read read hMem)
        ordered := fun hMem => timely.ordered (Register.visible_subset_of_read read hMem)
        past := by
          rintro worker t ⟨⟩ hMem
          cases List.mem_singleton.mp hMem
        after := by
          rintro worker job s t ⟨⟩ _ _ hMem
          cases List.mem_singleton.mp hMem }
  | @readPod age job value register history next path waits held read =>
      have hPods : Timely (v.servePod job.status.retries register) :=
        { timely with }
      exact hPods.resume waits (by rintro _ _ ⟨⟩) (by rintro _ ⟨⟩) (hVisible waits)
  | @created job history next reply answer path waits held free reported =>
      have hPods : Timely ((v.setPod job.status.retries (some { simulatorPod job with
          uid := v.next, phase := .pending })).log (.createPod (simulatorPod job))) :=
        { timely with }
      exact hPods.resume waits (by rintro _ _ ⟨⟩) (by rintro _ ⟨⟩) (hVisible waits)
  | @deleted job pod stored history next reply answer path waits held named present reported =>
      have hPods : Timely ((v.setPod job.status.retries (some { stored with
          deletionRequested := true })).log (.deletePod pod)) :=
        { timely with }
      exact hPods.resume waits (by rintro _ _ ⟨⟩) (by rintro _ ⟨⟩) (hVisible waits)
  | @expired job stored history next reply answer path waits held present reported =>
      have hJob := timely.write none (by simp) (by simp)
      have hLogged : Timely ((v.setJob none).log (.deleteJob job)) := { hJob with }
      exact hLogged.resume waits (by rintro _ _ ⟨⟩) (by rintro _ ⟨⟩)
        fun job hRead => List.mem_cons_of_mem _ (hVisible waits job hRead)
  | @updated job stored status history next reply answer path waits held present version
      reported =>
      obtain ⟨rfl, -⟩ := sound.versions.eq_of_version (sound.held waits held) present version
      have hMem := sound.held_visible waits held
      obtain ⟨hStarted, hOrdered⟩ := timely.status waits held hMem (sound.versions.ok hMem)
        ((site_of_busy path).reason held)
      have hJob := timely.write
        (some { stored with status := status.stored, resourceVersion := v.next })
        (by rintro job s ⟨⟩; exact hStarted s) (by rintro job s c ⟨⟩; exact hOrdered s c)
      have hLogged : Timely ((v.setJob (some { stored with
          status := status.stored, resourceVersion := v.next })).log
          (.updateStatus (stored.withStatus status))) := { hJob with }
      exact hLogged.resume waits (by rintro _ _ ⟨⟩) (by rintro _ ⟨⟩)
        fun job hRead => List.mem_cons_of_mem _ (hVisible waits job hRead)
  | quiet waits uneventful ineffective =>
      exact timely.resume waits uneventful.job uneventful.now (hVisible waits)
  | finish busy => exact { timely with past := by rintro _ _ ⟨⟩, after := by rintro _ _ _ _ ⟨⟩ }
  | @patched message stored present =>
      have hStored : some stored ∈ v.job.visible := present ▸ v.job.current_mem_visible
      have hStarted : ∀ s, stored.status.startTime = some s → s ≤ storedTime v.clock :=
        fun s => timely.started hStored
      have hOrdered : ∀ s c, stored.status.startTime = some s →
          stored.status.completionTime = some c → s ≤ c := fun s c => timely.ordered hStored
      exact timely.write _ (by rintro job s ⟨⟩; exact hStarted s)
        (by rintro job s c ⟨⟩; exact hOrdered s c)

end Timely
end JobView

namespace World
variable {w : World} {key : NamespacedName}

theorem timely_of_reaches (run : Reaches step ForwardClock Initial w) :
    (w.view key).Timely := by
  apply view_invariant _ (fun _ h => h) _ _ run
  · intro s initial
    have hJob : (s.view key).job = .synced none := initial.jobs key
    have hIdle : (s.view key).worker = none := initial.idle key
    refine ⟨?_, ?_, ?_, ?_⟩
    · simp [hJob]
    · simp [hJob]
    · simp [hIdle]
    · simp [hIdle]
  · intro s a v' sound timely forward moves
    apply timely.step sound _ moves
    rintro now rfl
    exact forward

/-- In every run whose clock moves forward, a stored status is well formed, each step moves
it along an edge or leaves its state alone, and every status update that is sent, also one
that will be rejected, carries the number of retries its copy had or one more, without
wrapping around. -/
theorem lifecycle (run : Reaches step ForwardClock Initial w) (key : NamespacedName) :
    (∀ job, (w.jobs key).current = some job → WellFormed job.spec job.status) ∧
    (∀ a w', ForwardClock w a → w.step a = some w' → ∀ new,
      (w'.jobs key).current = some new →
        ((w.jobs key).current = none → new.status = .empty) ∧
        ∀ old, (w.jobs key).current = some old →
          new.spec = old.spec ∧ Progresses old.status new.status) ∧
    ∀ worker update next, w.workers key = some worker →
      worker.rest = .ask (.write (.updateStatus update)) next → ∃ job,
        readJob worker.history = some job ∧
        (update.status.retries.toInt = job.status.retries.toInt ∨
          update.status.retries.toInt = job.status.retries.toInt + 1) := by
  have hSound := sound_of_reaches run
  refine ⟨?_, ?_, ?_⟩
  · intro job hStored
    have hMem : some job ∈ (w.view key).job.visible :=
      hStored ▸ (w.jobs key).current_mem_visible
    have hOrdered : ∀ s c, job.status.startTime = some s →
        job.status.completionTime = some c → s ≤ c :=
      fun s c => (timely_of_reaches run).ordered hMem
    exact StatusOk.wellFormed ((hSound key).versions.ok hMem) hOrdered
  · intro a w' hForward hStep new hNew
    have hMoves := view_moves hSound hStep key
    refine ⟨fun hAbsent => hMoves.born hAbsent hNew, fun old hOld => ?_⟩
    exact (hSound key).progresses ((hSound key).step hMoves) hMoves hOld hNew
  · rintro ⟨history, rest, path⟩ update next hBusy rfl
    obtain ⟨job, status, hRead, hReason, rfl⟩ := (site_of_busy path).updateStatus_inv
    have hOk := (hSound key).versions.ok ((hSound key).held_visible hBusy hRead)
    exact ⟨job, hRead, hReason.retries hOk⟩

/-- The job of the examples, and a run that completes it. -/
def sampleKey : NamespacedName := ⟨"default", "qjob-1"⟩

def sampleSpec : QuantumAerJobSpec := .defaults "aer-simulator:v3" "1"

/-- The job is created, its pod is created and recorded, and found. -/
def startRun : List Action :=
  .createJob sampleKey sampleSpec :: pass sampleKey [.read 0, .ok, .ok] ++
    pass sampleKey [.read 0, .ok, .ok, .ok, .ok] ++ pass sampleKey [.read 0, .ok, .read 0, .ok]

def completedRun : List Action :=
  startRun ++ [.setClock (30 * second), .setPhase (simulatorPodKey sampleKey 0) .succeeded] ++
    pass sampleKey [.read 0, .ok, .read 0, .ok, .ok]

theorem lifecycle_completes : ∃ w, runActions step .empty completedRun = some w ∧
    ((w.jobs sampleKey).current.map (·.status)) = some
      ⟨.completed, "", 0, "qjob-1-sim-0", some 0, some (30 * second)⟩ ∧
    ∀ job, (w.jobs sampleKey).current = some job → WellFormed job.spec job.status := by
  have hRun : (runActions step .empty completedRun).isSome := by decide
  obtain ⟨w, hw⟩ := Option.isSome_iff_exists.mp hRun
  have hReached : Reaches step ForwardClock Initial w :=
    (Reaches.start .empty).runActions (by decide) hw
  refine ⟨w, hw, ?_, (lifecycle hReached sampleKey).1⟩
  have hStored : (runActions step .empty completedRun).map
      (fun w => (w.jobs sampleKey).current.map (·.status)) = some (some
        ⟨.completed, "", 0, "qjob-1-sim-0", some 0, some (30 * second)⟩) := by decide
  simpa [hw] using hStored

end World
end QuantumService.Cluster
