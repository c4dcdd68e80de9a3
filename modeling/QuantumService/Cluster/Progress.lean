import QuantumService.Cluster.Convergence
import QuantumService.Controller.Progress

/-! No idling. While nothing disturbs the controller's work on a job, every reconcile
that finds the job unfinished takes it one status write further, or has a pod to wait
for. As the status writes are bounded, the job is over after so many reconciles. -/
namespace QuantumService.Cluster
open Interaction Controller World

/-- The reconcile found the job unfinished, and no pod to wait for. -/
def HasWork (history : History) : Prop :=
  ∃ job, readJob history = some job ∧ Unfinished job ∧ ¬ Awaits history job

instance (history : History) : Decidable (HasWork history) :=
  match hRead : readJob history with
  | some job => decidable_of_iff (Unfinished job ∧ ¬ Awaits history job) (by simp [HasWork, hRead])
  | none => .isFalse (by simp [HasWork, hRead])

namespace JobView
variable {key : NamespacedName} {v v' : JobView key}

/-- How many reconciles have finished after an acknowledged status update. -/
def moved (v : JobView key) : Nat := v.finished.countP fun e => Updated e.1

/-- One if the reconcile in flight has had a status update acknowledged. -/
def moving (v : JobView key) : Nat :=
  match v.worker with
  | some worker => if Updated worker.history then 1 else 0
  | none => 0

/-- Each acknowledged status update was a status write. -/
def Credited (v : JobView key) : Prop := v.moved + v.moving ≤ v.statusWrites

section Credited

theorem moving_le (v : JobView key) : v.moving ≤ 1 := by
  unfold moving
  split
  · split <;> decide
  · decide

theorem moving_resume {history : History} {call : Call} {next : call.Answer → Reconciler Outcome}
    {path : Program.Path (reconcile key) history (.ask call next)} {answer : call.Answer}
    (waits : v.Waits history call next path) (other : isUpdated ⟨call, answer⟩ = false)
    (v' : JobView key) : (v'.resume path answer).moving = v.moving := by
  have hAfter : (v'.resume path answer).worker = some (Worker.extend path answer) := rfl
  have hIff := updated_snoc_iff (h := history) other
  rw [Waits] at waits
  simp only [moving, hAfter, waits, Worker.extend, hIff]

theorem Credited.keep (credited : v.Credited) (finished : v'.finished = v.finished)
    (moving : v'.moving = v.moving) (writes : v'.statusWrites = v.statusWrites) :
    v'.Credited := by
  unfold Credited moved at *
  rw [finished, moving, writes]
  exact credited

theorem Credited.step (credited : v.Credited) {a : Action} (h : Moves v a v') :
    v'.Credited := by
  cases h with
  | elsewhere | setClock | create | patched | setPhase | createPod | removePod =>
      exact credited.keep rfl rfl rfl
  | start idle =>
      refine credited.keep rfl ?_ rfl
      simp [moving, setWorker, idle, Worker.start, Updated]
  | readJob waits read => exact credited.keep rfl (moving_resume waits rfl _) rfl
  | readPod waits held read => exact credited.keep rfl (moving_resume waits rfl _) rfl
  | created waits | deleted waits | expired waits =>
      exact credited.keep rfl (moving_resume waits rfl _) (Bounded.statusWrites_log rfl)
  | quiet waits uneventful =>
      exact credited.keep rfl (moving_resume waits (not_isUpdated uneventful.write) _) rfl
  | @updated job stored status history next reply answer path waits =>
      have hMoving := moving_le (((v.setJob (some { stored with
        status := status.stored, resourceVersion := v.next })).log
        (.updateStatus (job.withStatus status))).resume path answer)
      have hBefore : v.moved ≤ v.statusWrites := Nat.le_trans (Nat.le_add_right _ _) credited
      have hWrites : (Write.updateStatus (job.withStatus status) :: v.effects).countP
          isStatusUpdate = v.statusWrites + 1 := List.countP_cons_of_pos rfl
      show v.moved + _ ≤ (Write.updateStatus (job.withStatus status) :: v.effects).countP _
      omega
  | @finish history outcome path busy =>
      have hMoved : ((history, outcome) :: v.finished).countP (fun e => Updated e.1) =
          v.moved + v.moving := by
        rw [List.countP_cons]
        simp [moving, busy, moved]
      show ((history, outcome) :: v.finished).countP (fun e => Updated e.1) + 0 ≤ v.statusWrites
      rw [hMoved]
      exact credited

end Credited

/-- The stored job is as it was read, up to the message of a simulator. -/
def Unchanged (v : JobView key) (job : QuantumAerJob) : Prop :=
  ∃ stored, v.job.current = some stored ∧
    stored.status = { job.status with errorMessage := stored.status.errorMessage }

/-- Until it updates the status, a reconcile of an unfinished job has read what is
stored, and has not missed the pod of the attempt. -/
def UpToDate (v : JobView key) : Prop :=
  ∀ worker job, v.worker = some worker → readJob worker.history = some job →
    Unfinished job → Updated worker.history ∨ (v.Unchanged job ∧ ¬ Misses worker.history job)

namespace UpToDate
variable {history : History} {call : Call} {next : call.Answer → Reconciler Outcome}
  {path : Program.Path (reconcile key) history (.ask call next)} {answer : call.Answer}

theorem keep (upToDate : UpToDate v) (worker : v'.worker = v.worker)
    (unchanged : ∀ job, v.Unchanged job → v'.Unchanged job) : UpToDate v' := by
  intro worker' job hBusy hRead hUnfinished
  rw [worker] at hBusy
  rcases upToDate _ _ hBusy hRead hUnfinished with hUpdated | ⟨hSame, hMisses⟩
  · exact .inl hUpdated
  · exact .inr ⟨unchanged job hSame, hMisses⟩

/-- An answer to another call than a status update. -/
theorem resume (upToDate : UpToDate v) (waits : v.Waits history call next path)
    (current : v'.job.current = v.job.current)
    (job : ∀ req job, (⟨call, answer⟩ : Event Call.Answer) ≠ ⟨.getJob req, .ok job⟩)
    (missing : ∀ job, readJob history = some job → Unfinished job → v.Unchanged job →
      job.status.podName ≠ "" → missingPod ⟨call, answer⟩ = false) :
    UpToDate (v'.resume path answer) := by
  rintro worker job' ⟨⟩ hRead hUnfinished
  have hHeld := readJob_extend job hRead
  rcases upToDate _ _ waits hHeld hUnfinished with hUpdated | ⟨hSame, hMisses⟩
  · exact .inl (hUpdated.append _)
  · refine .inr ⟨?_, fun hNow => hMisses (hNow.of_snoc ?_)⟩
    · unfold Unchanged at *
      rw [← current] at hSame
      exact hSame
    · exact missing job' hHeld hUnfinished hSame hNow.1

theorem step (upToDate : UpToDate v) (sound : Sound v) (tended : Tended v) {a : Action}
    (current : ∀ age, a = .answer key (.read age) → age = 0) (after : v'.Succeeded)
    (h : Moves v a v') : UpToDate v' := by
  cases h with
  | elsewhere | setClock | setPhase | createPod | removePod => exact upToDate.keep rfl fun _ h => h
  | create fresh =>
      intro worker job hBusy hRead _
      have hCreated := sound.versions.created_of_stored (sound.held_visible hBusy hRead)
      exact absurd hCreated fresh
  | start idle =>
      rintro worker job ⟨⟩ hRead
      cases hRead
  | @readJob age value register next path waits read =>
      rintro worker job ⟨⟩ hRead _
      have hAge := current age rfl
      subst hAge
      have hValue : value = v.job.current := Register.value_of_read read
      refine .inr ⟨?_, fun hMisses => not_misses_nil (hMisses.of_snoc rfl)⟩
      cases value with
      | none => cases hRead
      | some stored =>
          cases hRead
          exact ⟨job, (Register.current_read read).trans hValue.symm, rfl⟩
  | @readPod age job value register history next path waits held read =>
      apply upToDate.resume waits rfl (by rintro req job' ⟨⟩)
      intro job' hRead hUnfinished hSame hNamed
      obtain ⟨stored, hStored, hStatus⟩ := hSame
      obtain rfl := Option.some.inj (held.symm.trans hRead)
      have hAge := current age rfl
      subst hAge
      have hValue : value = (v.pods job.status.retries).current := Register.value_of_read read
      have hLive := tended.recorded hStored (by rw [hStatus]; exact hUnfinished.active)
        (by rw [hStatus]; exact hNamed)
      rw [hStatus] at hLive
      rcases hLive with ⟨pod, hPod, -⟩ | ⟨-, worker, q, pod, hBusy, hFound⟩
      · rw [hValue, hPod]
        rfl
      · -- the pod is looked for once, and before it is deleted
        obtain rfl := Option.some.inj (waits.symm.trans hBusy)
        exact absurd hFound ((site_of_busy path).getPod_first _ _)
  | created waits | deleted waits =>
      exact upToDate.resume waits rfl (by rintro req job' ⟨⟩) fun _ _ _ _ _ => rfl
  | @expired job stored history next reply answer path waits held present reported =>
      rintro worker job' ⟨⟩ hRead hUnfinished
      obtain ⟨hHeld, hTerminal⟩ := (site_of_busy path).deleteJob_inv
      obtain rfl := Option.some.inj ((readJob_append hHeld _).symm.trans hRead)
      exact absurd hTerminal hUnfinished.active
  | @updated job stored status history next reply answer path waits held present version
      reported =>
      have hOk : answer = .ok () := after _ _ _ rfl (last_mem _)
      subst hOk
      rintro worker job' ⟨⟩ _ _
      exact .inl updated_snoc
  | quiet waits uneventful =>
      exact upToDate.resume waits rfl uneventful.job fun _ _ _ _ _ =>
        not_missingPod uneventful.noPod
  | finish =>
      rintro worker job ⟨⟩
  | @patched message stored present =>
      refine upToDate.keep rfl ?_
      rintro job ⟨stored', hStored, hStatus⟩
      obtain rfl := Option.some.inj (present.symm.trans hStored)
      refine ⟨_, rfl, ?_⟩
      rw [hStatus]

end UpToDate

/-- What the finished reconciles of the job came to. -/
def Returned (v : JobView key) : Prop :=
  ∀ e ∈ v.finished, e.2.2 = none ∧ (HasWork e.1 → Updated e.1)

theorem Returned.step (returned : Returned v) (upToDate : UpToDate v)
    (smooth : ∀ worker, v.worker = some worker → Smooth worker.history) {a : Action}
    (h : Moves v a v') : Returned v' := by
  cases h with
  | @finish history outcome path busy =>
      intro e hMem
      rcases List.mem_cons.mp hMem with rfl | hOld
      · have hSmooth := smooth _ busy
        refine ⟨no_error_of_path path hSmooth, ?_⟩
        rintro ⟨job, hRead, hUnfinished, hAwaits⟩
        rcases upToDate _ _ busy hRead hUnfinished with hUpdated | ⟨-, hMisses⟩
        · exact hUpdated
        · have hMoved := (passes_of_path path hRead hSmooth).2 hUnfinished
          exact hMoved.resolve_right (not_or_intro hAwaits fun hReplaces => hMisses hReplaces.1)
      · exact returned e hOld
  | elsewhere | setClock | create | start | readJob | readPod | created | deleted | expired
  | updated | quiet | patched | setPhase | createPod | removePod => exact returned

end JobView

namespace World
variable {w w' : World} {key : NamespacedName} {spec : QuantumAerJobSpec}

/-- The status update that the reconcile of the job waits for would be applied. -/
def accepts (w : World) (key : NamespacedName) : Bool :=
  match w.workers key with
  | some ⟨_, .ask (.write (.updateStatus update)) _, _⟩ =>
      (w.applyWrite (.updateStatus update)).isOk
  | _ => true

/-- The API answers the calls for the job, its reads are current and nobody's write comes
between a read of the job and its update. -/
def Served (key : NamespacedName) (w : World) : Action → Prop
  | .answer acting reply => acting = key → reply.direct = true ∧ w.accepts key = true
  | _ => True

instance (w : World) : (a : Action) → Decidable (Served key w a)
  | .answer acting reply =>
      inferInstanceAs (Decidable (acting = key → reply.direct = true ∧ w.accepts key = true))
  | .createJob .. | .reconcile _ | .finish _ | .patchError .. | .setClock _ | .setPhase ..
  | .createPod _ | .removePod _ =>
      .isTrue trivial

theorem accepts_of_applies (applied : w.applies key = true) : w.accepts key = true := by
  unfold applies at applied
  unfold accepts
  split
  · rename_i hBusy
    simpa only [hBusy] using applied
  · rfl

theorem Responsive.served {a : Action} (responsive : Responsive key w a) : Served key w a := by
  cases a with
  | answer acting reply =>
      intro hKey
      obtain ⟨hDirect, hApplied⟩ := responsive hKey
      exact ⟨hDirect, accepts_of_applies hApplied⟩
  | createJob | reconcile | finish | patchError | setClock | setPhase | createPod | removePod =>
      trivial

/-- A write is refused because what it is about is there already, or is gone. -/
theorem smooth_of_refused {write : Write} {err : ApiError}
    (refused : w.applyWrite write = .error err) (other : ∀ update, write ≠ .updateStatus update) :
    smooth ⟨.write write, .error err⟩ = true := by
  cases write with
  | createPod pod =>
      simp only [applyWrite] at refused
      split at refused
      · cases refused
        rfl
      · cases refused
  | deletePod pod =>
      simp only [applyWrite] at refused
      split at refused
      · cases refused
      · cases refused
        rfl
  | deleteJob job =>
      simp only [applyWrite] at refused
      split at refused
      · cases refused
      · cases refused
        rfl
  | updateStatus update => exact absurd rfl (other update)

/-- A direct answer is smooth, if a status update that is asked for would be applied. -/
theorem smooth_of_respond {call : Call} {reply : Reply} {answered : call.Answer × World}
    (responded : w.respond key call reply = some answered) (direct : reply.direct = true)
    (applied : ∀ update, call = .write (.updateStatus update) →
      (w.applyWrite (.updateStatus update)).isOk = true) :
    smooth ⟨call, answered.1⟩ = true := by
  cases call with
  | getJob req =>
      cases reply with
      | read age =>
          obtain ⟨⟨value, register⟩, -, rfl⟩ := Option.map_eq_some_iff.mp responded
          cases value <;> rfl
      | fail => cases direct
      | ok | absent | lost => cases responded
  | getPod pod =>
      cases reply with
      | read age =>
          obtain ⟨⟨value, register⟩, -, rfl⟩ := Option.map_eq_some_iff.mp responded
          cases value <;> rfl
      | fail => cases direct
      | ok | absent | lost => cases responded
  | getServiceAccount account =>
      cases reply with
      | ok =>
          cases responded
          rfl
      | absent | fail => cases direct
      | read | lost => cases responded
  | write write =>
      cases reply with
      | ok =>
          simp only [respond] at responded
          cases hWrite : w.applyWrite write with
          | ok middle =>
              rw [hWrite] at responded
              cases responded
              cases write <;> rfl
          | error err =>
              rw [hWrite] at responded
              cases responded
              apply smooth_of_refused hWrite
              rintro update rfl
              have hApplied := applied update rfl
              rw [hWrite] at hApplied
              cases hApplied
      | lost | fail => cases direct
      | read | absent => cases responded
  | now => rfl

/-- What an answer does to the reconcile that waits for it. -/
theorem worker_of_answer {reply : Reply} {worker : Worker key}
    (busy : w.workers key = some worker) (answered : w.answer key worker reply = some w')
    (direct : reply.direct = true) (accepted : w.accepts key = true)
    (before : Smooth worker.history) :
    ∃ later, w'.workers key = some later ∧ Smooth later.history := by
  obtain ⟨history, rest, path⟩ := worker
  cases rest with
  | done outcome => cases answered
  | ask call next =>
      obtain ⟨⟨answer, middle⟩, hRespond, rfl⟩ := Option.map_eq_some_iff.mp answered
      refine ⟨_, Function.update_self key _ _, before.snoc ?_⟩
      refine smooth_of_respond hRespond direct fun update hUpdate => ?_
      subst hUpdate
      simpa [accepts, busy] using accepted

/-- What a step does to the reconcile of one job. -/
theorem workers_of_step {a : Action} (stepped : w.step a = some w') (key : NamespacedName) :
    w'.workers key = w.workers key ∨ w'.workers key = some (.start key) ∨
      w'.workers key = none ∨ ∃ reply worker, a = .answer key reply ∧
        w.workers key = some worker ∧ w.answer key worker reply = some w' := by
  have hOther : ∀ {s : World} {acting} (worker : Option (Worker acting)), s.workers = w.workers →
      acting ≠ key → (s.setWorker acting worker).workers key = w.workers key := by
    intro s acting worker hWorkers hKey
    rw [setWorker_workers, Function.update_of_ne (Ne.symm hKey), hWorkers]
  have hOwn : ∀ reply, a = .answer key reply → ∃ reply worker, a = .answer key reply ∧
      w.workers key = some worker ∧ w.answer key worker reply = some w' := by
    rintro reply rfl
    obtain ⟨worker, hBusy, hAnswer⟩ := Option.bind_eq_some_iff.mp stepped
    exact ⟨reply, worker, rfl, hBusy, hAnswer⟩
  have hMoves := moves_of_step stepped
  clear stepped
  cases hMoves with
  | createJob | unpatched | patched | setClock | setPhase | createPod | removePod => exact .inl rfl
  | @start acting idle =>
      by_cases hKey : acting = key
      · subst hKey
        exact .inr (.inl (Function.update_self acting _ _))
      · exact .inl (hOther _ rfl hKey)
  | @readJob acting | @readPod acting | @quiet acting =>
      by_cases hKey : acting = key
      · subst hKey
        exact .inr (.inr (.inr (hOwn _ rfl)))
      · exact .inl (hOther _ rfl hKey)
  | @wrote acting write middle history next reply answer path busy applied reported =>
      by_cases hKey : acting = key
      · subst hKey
        exact .inr (.inr (.inr (hOwn _ rfl)))
      · have hWorkers := applyWrite_workers applied
        exact .inl (hOther _ hWorkers hKey)
  | @finish acting history outcome path busy =>
      by_cases hKey : acting = key
      · subst hKey
        exact .inr (.inr (.inl (Function.update_self acting _ _)))
      · exact .inl (hOther _ rfl hKey)

/-- The answers to a reconcile that is served are smooth. -/
theorem smooth_step
    (before : ∀ worker, w.workers key = some worker → Smooth worker.history) {a : Action}
    (served : Served key w a) (stepped : w.step a = some w') :
    ∀ worker, w'.workers key = some worker → Smooth worker.history := by
  intro later hBusy
  rcases workers_of_step stepped key with hSame | hStart | hNone |
    ⟨reply, worker, rfl, hWaits, hAnswer⟩
  · exact before later (hSame.symm.trans hBusy)
  · rw [hStart] at hBusy
    cases hBusy
    exact fun e hMem => absurd hMem List.not_mem_nil
  · rw [hNone] at hBusy
    cases hBusy
  · obtain ⟨hDirect, hAccepts⟩ := served rfl
    obtain ⟨next, hNext, hSmooth⟩ :=
      worker_of_answer hWaits hAnswer hDirect hAccepts (before worker hWaits)
    rw [hNext] at hBusy
    cases hBusy
    exact hSmooth

/-- The invariants of an undisturbed run, beside those that bound the status writes. -/
structure Progressing (v : JobView key) : Prop where
  smooth : ∀ worker, v.worker = some worker → Smooth worker.history
  upToDate : v.UpToDate
  returned : v.Returned
  credited : v.Credited

theorem progressing_of_reaches (run : Reaches step (Undisturbed key spec) Initial w) :
    Progressing (w.view key) := by
  apply run.invariant
  · intro s initial
    have hIdle : (s.view key).worker = none := initial.idle key
    have hFinished : (s.view key).finished = [] := by simp [view, initial.finished]
    constructor
    · intro worker hBusy
      rw [hIdle] at hBusy
      cases hBusy
    · intro worker job hBusy
      rw [hIdle] at hBusy
      cases hBusy
    · intro e hMem
      rw [hFinished] at hMem
      cases hMem
    · simp [JobView.Credited, JobView.moved, JobView.moving, hIdle, hFinished]
  · intro s a t reached kept permitted stepped
    obtain ⟨-, hTended, -⟩ := bounded_of_reaches reached
    obtain ⟨hSucceeded, -, -⟩ := bounded_of_reaches (.step reached permitted stepped)
    have hSound := sound_of_reaches (reached.mono (fun _ h => h) fun _ _ h => h)
    have hMoves := view_moves hSound stepped key
    constructor
    · exact smooth_step kept.smooth permitted.responsive.served stepped
    · apply kept.upToDate.step (hSound key) hTended _ hSucceeded hMoves
      rintro age rfl
      have hDirect := (permitted.responsive rfl).1
      simpa [Reply.direct] using hDirect
    · exact kept.returned.step kept.upToDate kept.smooth hMoves
    · exact kept.credited.step hMoves

/-- How many reconciles of the job found it unfinished, and no pod to wait for. -/
def worked (w : World) (key : NamespacedName) : Nat :=
  (entriesOf key w.finished).countP fun e => HasWork e.1

/-- In every run in which the API answers and nobody interferes, no reconcile of the job
returns an error, and one that finds the job unfinished and no pod to wait for updates its
status: while the job is not over, there were fewer of them than the job can take updates. -/
theorem reconciles_progress (run : Reaches step (Undisturbed key spec) Initial w) :
    (∀ history outcome, (key, history, outcome) ∈ w.finished →
        outcome.2 = none ∧ (HasWork history → Updated history)) ∧
      (w.worked key : Int) ≤ 1 + 3 * (max 0 spec.maxRetries.toInt + 1) ∧
      ∀ job, (w.jobs key).current = some job → ¬ job.status.jobStatus.Terminal →
        (w.worked key : Int) < 1 + 3 * (max 0 spec.maxRetries.toInt + 1) := by
  obtain ⟨-, -, hBounded⟩ := bounded_of_reaches run
  have hProgress := progressing_of_reaches run
  have hSound := sound_of_reaches (run.mono (fun _ h => h) fun _ _ h => h) key
  have hWorked : w.worked key ≤ (w.view key).statusWrites := by
    have hMoved : w.worked key ≤ (w.view key).moved := by
      apply List.countP_mono_left
      intro e hMem hWork
      have hUpdated := (hProgress.returned e hMem).2 (of_decide_eq_true hWork)
      exact decide_eq_true hUpdated
    exact Nat.le_trans hMoved (Nat.le_trans (Nat.le_add_right _ _) hProgress.credited)
  refine ⟨?_, ?_, ?_⟩
  · intro history outcome hMem
    exact hProgress.returned _ (mem_entriesOf.mpr hMem)
  · have hLimit := hBounded.limit
    unfold writeLimit at hLimit
    omega
  · intro job hStored hActive
    have hSpent := hBounded.spent hStored
    have hOk := hSound.versions.ok (hStored ▸ (w.view key).job.current_mem_visible)
    have hSpec := hBounded.fixed hStored
    have hRank := rank_pos hOk hActive
    rw [hSpec] at hRank
    unfold writeLimit at hSpent
    omega

theorem reconciles_progress_retried : ∃ w job, runActions step .empty retriedRun = some w ∧
    (w.jobs sampleKey).current = some job ∧ w.worked sampleKey = 5 ∧
    (w.worked sampleKey : Int) < 1 + 3 * (max 0 sampleSpec.maxRetries.toInt + 1) := by
  have hRun : (runActions step .empty retriedRun).isSome := by decide +kernel
  obtain ⟨w, hw⟩ := Option.isSome_iff_exists.mp hRun
  have hReached : Reaches step (fun w a => Responsive sampleKey w a ∧ RemovesDeleted w a ∧
      CreatesAs sampleKey sampleSpec w a) Initial w :=
    (Reaches.start .empty).runActions (by decide +kernel) hw
  have hUndisturbed : Reaches step (Undisturbed sampleKey sampleSpec) Initial w :=
    hReached.mono (fun _ h => h) fun _ _ h => ⟨h.1, h.2.1.own, h.2.2⟩
  have hState : (runActions step .empty retriedRun).map (fun w => (w.worked sampleKey,
      (w.jobs sampleKey).current.map fun job => job.status.jobStatus)) =
      some (5, some .pending) := by decide +kernel
  rw [hw, Option.map_some, Option.some.injEq, Prod.mk.injEq] at hState
  obtain ⟨hWorked, hPending⟩ := hState
  obtain ⟨job, hStored, hJob⟩ := Option.map_eq_some_iff.mp hPending
  have hActive : ¬ job.status.jobStatus.Terminal := by simp [hJob]
  exact ⟨w, job, hw, hStored, hWorked, (reconciles_progress hUndisturbed).2.2 job hStored hActive⟩

end World
end QuantumService.Cluster
