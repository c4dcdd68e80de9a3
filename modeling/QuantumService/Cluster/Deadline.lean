import QuantumService.Cluster.Lifecycle
import QuantumService.Controller.Deadline

/-! The deadline of a job covers all its attempts. Its start time is stored once, and
a reconcile that starts after the deadline fails the job or leaves it alone. -/
namespace QuantumService.Cluster
open Interaction Controller World

namespace JobView
variable {key : NamespacedName} {v v' v₀ : JobView key} {s : Int} {timeOut : Int32}

/-- The start time of the job is stored, and its time out is fixed. -/
structure StartedAt (v : JobView key) (s : Int) (timeOut : Int32) : Prop where
  created : v.created
  current : ∀ {job}, v.job.current = some job → job.status.startTime = some s
  visible : ∀ {job}, some job ∈ v.job.visible →
    job.status.startTime = none ∨ job.status.startTime = some s
  limit : ∀ {job}, some job ∈ v.job.visible → job.spec.timeOut = timeOut

/-- Two versions of a job have the same start time, once it is stored. -/
theorem Sound.startTime_eq (sound : Sound v) {new old : QuantumAerJob} (h : Succeeds new old)
    (mem : some old ∈ v.job.visible) (started : old.status.startTime.isSome) :
    new.status.startTime = old.status.startTime :=
  (h.progresses (sound.versions.ok mem)).startTime started

/-- A version with this start time can be read. -/
theorem Sound.startedAt (sound : Sound v) {job : QuantumAerJob} (mem : some job ∈ v.job.visible)
    (started : job.status.startTime = some s) : StartedAt v s job.spec.timeOut := by
  have hSome : job.status.startTime.isSome := by simp [started]
  constructor
  · exact sound.versions.created_of_stored mem
  · intro other hCurrent
    rcases sound.versions.newer_of_current hCurrent mem with rfl | hSucceeds
    · exact started
    · rw [sound.startTime_eq hSucceeds mem hSome, started]
  · intro other hOther
    rcases Register.rel_visible sound.versions.ordered hOther mem with hSame | hNewer | hOlder
    · cases hSame
      exact .inr started
    · rw [sound.startTime_eq hNewer mem hSome]
      exact .inr started
    · cases hTime : other.status.startTime with
      | none => exact .inl rfl
      | some t =>
          have hLater := sound.startTime_eq hOlder hOther (by simp [hTime])
          rw [started, hTime] at hLater
          exact .inr hLater.symm
  · intro other hOther
    rcases Register.rel_visible sound.versions.ordered hOther mem with hSame | hNewer | hOlder
    · cases hSame
      rfl
    · rw [Succeeds.spec hNewer]
    · rw [Succeeds.spec hOlder]

/-- The stored status, apart from the message, which simulators patch. -/
def progress (v : JobView key) : Option QuantumAerJobStatus :=
  v.job.current.map fun job => { job.status with errorMessage := "" }

/-- Nothing was written to the job since `v₀`. -/
def Unwritten (v₀ v : JobView key) : Prop := v.effects = v₀.effects ∧ v.progress = v₀.progress

/-- The job was failed since `v₀`, by this reconcile, and nothing else was done. -/
def Failed (v₀ v : JobView key) (history : History) (job : QuantumAerJob) : Prop :=
  ∃ update answer, v.effects = .updateStatus update :: v₀.effects ∧ Fails job update ∧
    ⟨.write (.updateStatus update), answer⟩ ∈ history

/-- A reconcile started after the deadline, when the job was as in `v₀`. -/
structure Overdue (v₀ v : JobView key) (s : Int) (timeOut : Int32) : Prop where
  started : StartedAt v s timeOut
  late : deadline s timeOut < v.clock
  busy : ∃ worker, v.worker = some worker
  after : ∀ {worker}, v.worker = some worker → After (deadline s timeOut) worker.history
  unread : ∀ {worker}, v.worker = some worker → readJob worker.history = none → Unwritten v₀ v
  active : ∀ {worker job}, v.worker = some worker → readJob worker.history = some job →
    ¬ job.status.jobStatus.Terminal →
      (Unwritten v₀ v ∧ ∀ w, ⟨.write w, .ok ()⟩ ∉ worker.history) ∨
        Failed v₀ v worker.history job

namespace StartedAt

theorem setJob (started : StartedAt v s timeOut) (value : Option QuantumAerJob)
    (kept : ∀ job, value = some job → job.status.startTime = some s ∧ job.spec.timeOut = timeOut) :
    StartedAt (v.setJob value) s timeOut where
  created := started.created
  current := fun hCurrent => (kept _ hCurrent).1
  visible := by
    intro job hMem
    rcases List.mem_cons.mp hMem with hNew | hOld
    · exact .inr (kept job hNew.symm).1
    · exact started.visible hOld
  limit := by
    intro job hMem
    rcases List.mem_cons.mp hMem with hNew | hOld
    · exact (kept job hNew.symm).2
    · exact started.limit hOld

theorem serveJob (started : StartedAt v s timeOut) {age : Nat} {value : Option QuantumAerJob}
    {register : Register QuantumAerJob} (read : v.job.read age = some (value, register)) :
    StartedAt (v.serveJob register) s timeOut where
  created := started.created
  current := fun hCurrent => started.current ((Register.current_read read).symm.trans hCurrent)
  visible := fun hMem => started.visible (Register.visible_subset_of_read read hMem)
  limit := fun hMem => started.limit (Register.visible_subset_of_read read hMem)

/-- A call of a late reconcile of an unfinished job. -/
theorem lateCall (started : StartedAt v s timeOut) (sound : Sound v) (limited : 0 < timeOut)
    {history : History} {rest : Reconciler Outcome}
    {path : Program.Path (reconcile key) history rest} {job : QuantumAerJob}
    (busy : v.worker = some ⟨history, rest, path⟩) (held : readJob history = some job)
    (active : ¬ job.status.jobStatus.Terminal) :
    rest.Follows (LateCall (deadline s timeOut) job) (LateReturn (deadline s timeOut)) history := by
  have hMem := sound.held_visible busy held
  have hOk := sound.versions.ok hMem
  apply rest_lapses path held active
  · rw [started.limit hMem]
    exact limited
  · exact hOk.started.mp
  · intro s' hStart
    rcases started.visible hMem with hNone | hSome
    · rw [hNone] at hStart
      cases hStart
    · rw [hSome, Option.some.injEq] at hStart
      rw [← hStart, started.limit hMem]

end StartedAt

theorem Unwritten.keep (unwritten : Unwritten v₀ v) (effects : v'.effects = v.effects)
    (progress : v'.progress = v.progress) : Unwritten v₀ v' :=
  ⟨effects.trans unwritten.1, progress.trans unwritten.2⟩

theorem Failed.keep {history : History} {job : QuantumAerJob} (failed : Failed v₀ v history job)
    (effects : v'.effects = v.effects) (later : History) : Failed v₀ v' (history ++ later) job := by
  obtain ⟨update, answer, hEffects, hFails, hMem⟩ := failed
  exact ⟨update, answer, effects.trans hEffects, hFails, List.mem_append_left later hMem⟩

namespace Overdue
variable {history : History} {call : Call} {next : call.Answer → Reconciler Outcome}
  {path : Program.Path (reconcile key) history (.ask call next)} {answer : call.Answer}

/-- A step that the reconcile does not take part in. -/
theorem keep (overdue : Overdue v₀ v s timeOut) (started : StartedAt v' s timeOut)
    (clock : v.clock ≤ v'.clock) (worker : v'.worker = v.worker) (effects : v'.effects = v.effects)
    (progress : v'.progress = v.progress) : Overdue v₀ v' s timeOut where
  started := started
  late := Int.lt_of_lt_of_le overdue.late clock
  busy := by
    rw [worker]
    exact overdue.busy
  after := fun hBusy => overdue.after (worker.symm.trans hBusy)
  unread := fun hBusy hRead =>
    (overdue.unread (worker.symm.trans hBusy) hRead).keep effects progress
  active := by
    intro worker' job hBusy hRead hActive
    rcases overdue.active (worker.symm.trans hBusy) hRead hActive with ⟨hKept, hNone⟩ | hFailed
    · exact .inl ⟨hKept.keep effects progress, hNone⟩
    · have hLater := hFailed.keep effects []
      rw [List.append_nil] at hLater
      exact .inr hLater

theorem after_extend (overdue : Overdue v₀ v s timeOut) (waits : v.Waits history call next path)
    (now : ∀ t, (⟨call, answer⟩ : Event Call.Answer) = ⟨.now, t⟩ → t = v.clock) :
    After (deadline s timeOut) (history ++ [⟨call, answer⟩]) := by
  intro t hMem
  rcases List.mem_append.mp hMem with hOld | hNew
  · exact overdue.after waits t hOld
  · rw [now t (List.mem_singleton.mp hNew).symm]
    exact overdue.late

/-- An answer that tells of no effect. -/
theorem resume (overdue : Overdue v₀ v s timeOut) (waits : v.Waits history call next path)
    (now : ∀ t, (⟨call, answer⟩ : Event Call.Answer) = ⟨.now, t⟩ → t = v.clock)
    (job : ∀ req job, (⟨call, answer⟩ : Event Call.Answer) ≠ ⟨.getJob req, .ok job⟩)
    (write : ∀ w, (⟨call, answer⟩ : Event Call.Answer) ≠ ⟨.write w, .ok ()⟩) :
    Overdue v₀ (v.resume path answer) s timeOut where
  started := { overdue.started with }
  late := overdue.late
  busy := ⟨_, rfl⟩
  after := by
    rintro worker ⟨⟩
    exact overdue.after_extend waits now
  unread := by
    rintro worker ⟨⟩ hRead
    cases hBefore : readJob history with
    | none => exact overdue.unread waits hBefore
    | some job' =>
        have hLater := readJob_append hBefore [⟨call, answer⟩]
        rw [show readJob (history ++ [⟨call, answer⟩]) = none from hRead] at hLater
        cases hLater
  active := by
    rintro worker job' ⟨⟩ hRead hActive
    rcases overdue.active waits (readJob_extend job hRead) hActive with ⟨hKept, hNone⟩ | hFailed
    · refine .inl ⟨hKept, fun w hMem => ?_⟩
      rcases List.mem_append.mp hMem with hOld | hNew
      · exact hNone w hOld
      · exact write w (List.mem_singleton.mp hNew).symm
    · exact .inr (hFailed.keep rfl [⟨call, answer⟩])

/-- A write of a reconcile that has read the job as terminal. -/
theorem finished (overdue : Overdue v₀ v s timeOut) (waits : v.Waits history call next path)
    {job : QuantumAerJob} (held : readJob history = some job)
    (ended : job.status.jobStatus.Terminal)
    (now : ∀ t, (⟨call, answer⟩ : Event Call.Answer) ≠ ⟨.now, t⟩)
    (started : StartedAt v' s timeOut) (clock : v'.clock = v.clock)
    (worker : v'.worker = some (Worker.extend path answer)) : Overdue v₀ v' s timeOut where
  started := started
  late := clock ▸ overdue.late
  busy := ⟨_, worker⟩
  after := by
    intro worker' hBusy
    rw [worker, Option.some.injEq] at hBusy
    subst hBusy
    exact overdue.after_extend waits fun t hNow => absurd hNow (now t)
  unread := by
    intro worker' hBusy hRead
    rw [worker, Option.some.injEq] at hBusy
    subst hBusy
    have hLater := readJob_append held [⟨call, answer⟩]
    rw [show readJob (history ++ [⟨call, answer⟩]) = none from hRead] at hLater
    cases hLater
  active := by
    intro worker' job' hBusy hRead hActive
    rw [worker, Option.some.injEq] at hBusy
    subst hBusy
    have hLater := readJob_append held [⟨call, answer⟩]
    rw [show readJob (history ++ [⟨call, answer⟩]) = some job' from hRead,
      Option.some.injEq] at hLater
    rw [hLater] at hActive
    exact absurd ended hActive

/-- The pods of a job that was read unfinished are left alone. -/
theorem ended_of_write (overdue : Overdue v₀ v s timeOut) (sound : Sound v)
    (limited : 0 < timeOut) {write : Write} {next : Except ApiError Unit → Reconciler Outcome}
    {path : Program.Path (reconcile key) history (.ask (.write write) next)}
    (waits : v.Waits history (.write write) next path) {job : QuantumAerJob}
    (held : readJob history = some job) (other : ∀ update, write ≠ .updateStatus update) :
    job.status.jobStatus.Terminal := by
  by_contra hActive
  have hLate := (overdue.started.lateCall sound limited waits held hActive).1
  obtain ⟨-, status, hWrite, -⟩ := hLate (overdue.after waits) write rfl
  exact other _ hWrite

/-- A status update that takes effect fails the job. -/
theorem update (overdue : Overdue v₀ v s timeOut) (sound : Sound v) (limited : 0 < timeOut)
    {job stored : QuantumAerJob} {status : QuantumAerJobStatus}
    {next : Except ApiError Unit → Reconciler Outcome} {answer : Except ApiError Unit}
    {path : Program.Path (reconcile key) history
      (.ask (.write (.updateStatus (job.withStatus status))) next)}
    (waits : v.Waits history (.write (.updateStatus (job.withStatus status))) next path)
    (held : readJob history = some job) (present : v.job.current = some stored)
    (version : stored.resourceVersion = job.resourceVersion) :
    Overdue v₀ ((v.setJob (some { stored with
        status := status.stored, resourceVersion := v.next })).log
      (.updateStatus (job.withStatus status)) |>.resume path answer) s timeOut := by
  obtain ⟨rfl, -⟩ := sound.versions.eq_of_version (sound.held waits held) present version
  have hMem := sound.held_visible waits held
  have hOk := sound.versions.ok hMem
  have hAdvance := (site_of_busy path).reason held |>.advance hOk
  have hStart := overdue.started.current present
  have hKept : status.stored.startTime = some s := by
    rw [(Advance.progresses hOk hAdvance).startTime (by simp [hStart]), hStart]
  have hLimit := overdue.started.limit hMem
  have hStarted := overdue.started.setJob (some { stored with
    status := status.stored, resourceVersion := v.next })
    (by
      rintro _ ⟨⟩
      exact ⟨hKept, hLimit⟩)
  have hLate := (overdue.started.lateCall sound limited waits held hAdvance.active).1
  obtain ⟨hClean, status', hWrite, hFails⟩ := hLate (overdue.after waits) _ rfl
  have hFailed : Fails stored (stored.withStatus status) := by
    have hSame : stored.withStatus status = stored.withStatus status' := by simpa using hWrite
    rw [hSame]
    refine hFails.resolve_right fun hNew => ?_
    rw [hOk.started.mpr hNew] at hStart
    cases hStart
  have hBefore : Unwritten v₀ v := by
    rcases overdue.active waits held hAdvance.active with ⟨hUnwritten, -⟩ | ⟨_, _, -, -, hEvent⟩
    · exact hUnwritten
    · exact absurd hEvent (hClean _ _)
  have hHeld := readJob_append held [⟨.write (.updateStatus (stored.withStatus status)), answer⟩]
  exact {
    started := { hStarted with }
    late := overdue.late
    busy := ⟨_, rfl⟩
    after := by
      rintro worker ⟨⟩
      exact overdue.after_extend waits (by rintro t ⟨⟩)
    unread := by
      rintro worker ⟨⟩ hRead
      rw [show readJob (history ++ _) = none from hRead] at hHeld
      cases hHeld
    active := by
      rintro worker job' ⟨⟩ hRead -
      rw [show readJob (history ++ _) = some job' from hRead, Option.some.injEq] at hHeld
      rw [hHeld]
      refine .inr ⟨stored.withStatus status, answer, ?_, hFailed, last_mem _⟩
      rw [← hBefore.1]
      rfl }

/-- After the deadline every move keeps to this, until the reconcile is over. -/
theorem step (overdue : Overdue v₀ v s timeOut) (sound : Sound v) (limited : 0 < timeOut)
    {a : Action} (forward : ∀ now, a = .setClock now → v.clock ≤ now) (going : a ≠ .finish key)
    (h : Moves v a v') : Overdue v₀ v' s timeOut := by
  have hStarted := overdue.started
  cases h with
  | elsewhere | setPhase | createPod | removePod =>
      exact overdue.keep { hStarted with } (Int.le_refl _) rfl rfl rfl
  | @setClock now => exact overdue.keep { hStarted with } (forward now rfl) rfl rfl rfl
  | create fresh => exact absurd hStarted.created fresh
  | start idle =>
      obtain ⟨worker, hBusy⟩ := overdue.busy
      rw [idle] at hBusy
      cases hBusy
  | @readJob age value register next path waits read =>
      have hProgress : (v.serveJob register).progress = v.progress := by
        unfold progress
        rw [← Register.current_read read]
        rfl
      have hUnwritten := overdue.unread waits rfl
      have hServed := hStarted.serveJob read
      have hKept : Unwritten v₀ ((v.serveJob register).resume path (served value)) :=
        hUnwritten.keep rfl hProgress
      exact {
        started := { hServed with }
        late := overdue.late
        busy := ⟨_, rfl⟩
        after := by
          rintro worker ⟨⟩
          exact overdue.after_extend waits (by rintro t ⟨⟩)
        unread := fun _ _ => hKept
        active := by
          rintro worker job ⟨⟩ - -
          refine .inl ⟨hKept, fun w hMem => ?_⟩
          cases List.mem_singleton.mp hMem }
  | @readPod age job value register history next path waits held read =>
      have hServed : Overdue v₀ (v.servePod job.status.retries register) s timeOut :=
        overdue.keep { hStarted with } (Int.le_refl _) rfl rfl rfl
      apply hServed.resume waits
      · rintro t ⟨⟩
      · rintro req job' ⟨⟩
      · rintro w ⟨⟩
  | @created job history next reply answer path waits held free reported =>
      have hEnded := overdue.ended_of_write sound limited waits held (by simp)
      exact overdue.finished waits held hEnded (by rintro t ⟨⟩) { hStarted with } rfl rfl
  | @deleted job pod stored history next reply answer path waits held named present reported =>
      have hEnded := overdue.ended_of_write sound limited waits held (by simp)
      exact overdue.finished waits held hEnded (by rintro t ⟨⟩) { hStarted with } rfl rfl
  | @expired job stored history next reply answer path waits held present reported =>
      have hEnded := overdue.ended_of_write sound limited waits held (by simp)
      have hGone := hStarted.setJob none (by rintro _ ⟨⟩)
      exact overdue.finished waits held hEnded (by rintro t ⟨⟩) { hGone with } rfl rfl
  | updated waits held present version reported =>
      exact overdue.update sound limited waits held present version
  | @quiet call history next reply answer path waits uneventful ineffective =>
      exact overdue.resume waits uneventful.now uneventful.job uneventful.write
  | finish busy => exact absurd rfl going
  | @patched message stored present =>
      have hMem : some stored ∈ v.job.visible := present ▸ v.job.current_mem_visible
      have hKept := And.intro (hStarted.current present) (hStarted.limit hMem)
      have hPatched := hStarted.setJob (some { stored with
        status := { stored.status with errorMessage := message }, resourceVersion := v.next })
        (by
          rintro _ ⟨⟩
          exact hKept)
      apply overdue.keep hPatched (Int.le_refl _) rfl rfl
      simp [progress, present, JobView.setJob]

end Overdue
end JobView

namespace World
variable {w w₀ w₁ : World} {key : NamespacedName} {s : Int} {timeOut : Int32}

/-- A reconcile of the job starts after the deadline that its start time sets. -/
structure StartsLate (w₀ w₁ : World) (key : NamespacedName) (s : Int) (timeOut : Int32) :
    Prop where
  stored : ∃ job, some job ∈ (w₀.jobs key).visible ∧ job.status.startTime = some s ∧
    job.spec.timeOut = timeOut
  limited : 0 < timeOut
  late : deadline s timeOut < w₀.clock
  started : w₀.step (.reconcile key) = some w₁

/-- The clock is not set back, and the reconcile of the job is not over. -/
def Goes (key : NamespacedName) (w : World) (a : Action) : Prop :=
  ForwardClock w a ∧ a ≠ .finish key

/-- What a reconcile that has read the job as unfinished can do, and has done since
it started in `w₀`: to fail the job, and nothing else. -/
structure OnlyFails (w₀ w : World) (key : NamespacedName) (worker : Worker key)
    (job : QuantumAerJob) : Prop where
  calls : ∀ write next, worker.rest = .ask (.write write) next →
    ∃ update, write = .updateStatus update ∧
      (Fails job update ∨ ¬ (w.view key).Accepts update)
  effects : JobView.Unwritten (w₀.view key) (w.view key) ∨
    JobView.Failed (w₀.view key) (w.view key) worker.history job
  returns : ∀ outcome, worker.rest = .done outcome →
    JobView.Failed (w₀.view key) (w.view key) worker.history job ∨
      outcome.2 ≠ none ∧ JobView.Unwritten (w₀.view key) (w.view key)

theorem overdue_of_reaches (run : Reaches step ForwardClock Initial w₀)
    (starts : StartsLate w₀ w₁ key s timeOut) (later : Reaches step (Goes key) (· = w₁) w) :
    (w₀.view key).Overdue (w.view key) s timeOut := by
  have hForward : ForwardClock w₀ (.reconcile key) := trivial
  have hFirst : Reaches step ForwardClock Initial w₁ := .step run hForward starts.started
  apply later.invariant
  · rintro t rfl
    have hSound := sound_of_reaches run key
    obtain ⟨job, hMem, hStart, hLimit⟩ := starts.stored
    have hStarted := hSound.startedAt hMem hStart
    rw [hLimit] at hStarted
    have hIdle := starts.started
    simp only [World.step] at hIdle
    split at hIdle
    · cases hIdle
      have hWorker : ((w₀.setWorker key (some (.start key))).view key).worker = some (.start key) :=
        Function.update_self ..
      constructor
      · exact { hStarted with }
      · exact starts.late
      · exact ⟨_, hWorker⟩
      · intro worker hBusy t hMem
        rw [hWorker, Option.some.injEq] at hBusy
        subst hBusy
        cases hMem
      · intro worker hBusy _
        exact ⟨rfl, rfl⟩
      · intro worker job' hBusy hRead
        rw [hWorker, Option.some.injEq] at hBusy
        subst hBusy
        cases hRead
    · cases hIdle
  · intro s' a t reached overdue goes stepped
    have hReached := hFirst.trans (reached.mono (fun _ h => h) fun _ _ h => h.1)
    have hSound := sound_of_reaches hReached
    apply overdue.step (hSound key) starts.limited _ goes.2 (view_moves hSound stepped key)
    rintro now rfl
    exact goes.1

theorem onlyFails_of_overdue (sound : (w.view key).Sound) (limited : 0 < timeOut)
    (overdue : (w₀.view key).Overdue (w.view key) s timeOut) {worker : Worker key}
    {job : QuantumAerJob} (busy : w.workers key = some worker)
    (read : readJob worker.history = some job) (active : ¬ job.status.jobStatus.Terminal) :
    OnlyFails w₀ w key worker job := by
  have hAfter := overdue.after busy
  have hEffects := overdue.active busy read active
  obtain ⟨history, rest, path⟩ := worker
  have hLate := overdue.started.lateCall sound limited busy read active
  constructor
  · rintro write next rfl
    obtain ⟨-, status, rfl, hFails | hNew⟩ := hLate.1 hAfter write rfl
    · exact ⟨_, rfl, .inl hFails⟩
    · refine ⟨_, rfl, .inr ?_⟩
      rintro ⟨stored, hStored, hVersion⟩
      obtain ⟨rfl, -⟩ := sound.versions.eq_of_version (sound.held busy read) hStored hVersion
      have hOk := sound.versions.ok (sound.held_visible busy read)
      have hStart := overdue.started.current hStored
      rw [hOk.started.mpr hNew] at hStart
      cases hStart
  · exact hEffects.imp And.left id
  · rintro outcome rfl
    obtain ⟨update, answer, hMem, hErr⟩ := hLate hAfter
    rcases hEffects with ⟨hUnwritten, hNone⟩ | hFailed
    · right
      cases answer with
      | ok => exact absurd hMem (hNone _)
      | error err => exact ⟨by rw [hErr err rfl]; simp, hUnwritten⟩
    · exact .inl hFailed

/-- A reconcile that starts after the deadline only fails the job, the timeout branch is
taken after the deadline only, and the deadline never moves. -/
theorem deadline_covers_retries (run : Reaches step ForwardClock Initial w₀)
    (key : NamespacedName) :
    (∀ s timeOut w₁ w worker job, StartsLate w₀ w₁ key s timeOut →
      Reaches step (Goes key) (· = w₁) w → w.workers key = some worker →
      readJob worker.history = some job → ¬ job.status.jobStatus.Terminal →
        OnlyFails w₀ w key worker job) ∧
    (∀ worker update next job, w₀.workers key = some worker →
      worker.rest = .ask (.write (.updateStatus update)) next →
      readJob worker.history = some job → update.status.jobStatus = .failed →
      update.status.errorMessage = timeoutMessage job →
        ∃ s t, job.status.startTime = some s ∧ firstNow worker.history = some t ∧
          deadline s job.spec.timeOut < t) ∧
    ∀ a w' old new s, ForwardClock w₀ a → w₀.step a = some w' →
      (w₀.jobs key).current = some old → (w'.jobs key).current = some new →
      old.status.startTime = some s →
        new.status.startTime = some s ∧ new.spec.timeOut = old.spec.timeOut := by
  have hSound := sound_of_reaches run
  refine ⟨?_, ?_, ?_⟩
  · intro s timeOut w₁ w worker job hStarts hLater hBusy hRead hActive
    have hForward : ForwardClock w₀ (.reconcile key) := trivial
    have hFirst : Reaches step ForwardClock Initial w₁ := .step run hForward hStarts.started
    have hReached := hFirst.trans (hLater.mono (fun _ h => h) fun _ _ h => h.1)
    exact onlyFails_of_overdue (sound_of_reaches hReached key) hStarts.limited
      (overdue_of_reaches run hStarts hLater) hBusy hRead hActive
  · rintro ⟨history, rest, path⟩ update next job hBusy rfl hRead hState hMessage
    obtain ⟨held, status, hHeld, hReason, rfl⟩ := (site_of_busy path).updateStatus_inv
    have hSame : held = job := Option.some.inj (hHeld.symm.trans hRead)
    subst hSame
    exact hReason.timedOut_inv hState hMessage
  · intro a w' old new s hForward hStep hOld hNew hStart
    have hMoves := view_moves hSound hStep key
    obtain ⟨hSpec, hProgress⟩ :=
      (hSound key).progresses ((hSound key).step hMoves) hMoves hOld hNew
    rw [hProgress.startTime (by simp [hStart]), hSpec]
    exact ⟨hStart, rfl⟩

/-- The job is in progress since 0 s, and its time out of 600 s has passed. -/
def overdueRun : List Action := startRun ++ [.setClock (700 * second)]

/-- A reconcile that reads the job and finds that it is late. -/
def overduePass : List Action := [Reply.read 0, .ok, .ok].map (.answer sampleKey)

theorem deadline_covers_retries_overdue : ∃ w₀ w₁ w worker job,
    runActions step .empty overdueRun = some w₀ ∧ w₀.step (.reconcile sampleKey) = some w₁ ∧
    runActions step w₁ overduePass = some w ∧ w.workers sampleKey = some worker ∧
    OnlyFails w₀ w sampleKey worker job := by
  have hStored : ((runActions step .empty overdueRun).bind fun w₀ =>
      (w₀.jobs sampleKey).current.map fun job =>
        (job.status.startTime, job.spec.timeOut, w₀.clock)) =
          some (some 0, 600, 700 * second) := by decide +kernel
  have hRead : ((runActions step .empty overdueRun).bind fun w₀ =>
      (w₀.step (.reconcile sampleKey)).bind fun w₁ => (runActions step w₁ overduePass).bind fun w =>
        (w.workers sampleKey).bind fun worker => (readJob worker.history).map fun job =>
          job.status.jobStatus) = some .progress := by decide +kernel
  obtain ⟨w₀, hw₀, hLate⟩ := Option.bind_eq_some_iff.mp hRead
  obtain ⟨w₁, hw₁, hStarted⟩ := Option.bind_eq_some_iff.mp hLate
  obtain ⟨w, hw, hBusy⟩ := Option.bind_eq_some_iff.mp hStarted
  obtain ⟨worker, hWorker, hHeld⟩ := Option.bind_eq_some_iff.mp hBusy
  obtain ⟨job, hJob, hState⟩ := Option.map_eq_some_iff.mp hHeld
  rw [hw₀, Option.bind_some] at hStored
  obtain ⟨stored, hCurrent, hTimes⟩ := Option.map_eq_some_iff.mp hStored
  rw [Prod.mk.injEq, Prod.mk.injEq] at hTimes
  obtain ⟨hStart, hLimit, hClock⟩ := hTimes
  have hMem : some stored ∈ (w₀.jobs sampleKey).visible :=
    hCurrent ▸ (w₀.jobs sampleKey).current_mem_visible
  have hReached : Reaches step ForwardClock Initial w₀ :=
    (Reaches.start .empty).runActions (by decide) hw₀
  have hStarts : StartsLate w₀ w₁ sampleKey 0 600 := {
    stored := ⟨stored, hMem, hStart, hLimit⟩
    limited := by decide
    late := by
      rw [hClock]
      decide
    started := hw₁ }
  have hAlong : AllowedAlong step (Goes sampleKey) w₁ overduePass := by
    apply AllowedAlong.of_forall
    intro a hMem s
    obtain ⟨reply, -, rfl⟩ := List.mem_map.mp hMem
    exact ⟨trivial, nofun⟩
  have hSelf : Reaches step (Goes sampleKey) (· = w₁) w₁ := .start rfl
  have hLater := hSelf.runActions hAlong hw
  have hActive : ¬ job.status.jobStatus.Terminal := by
    rw [hState]
    decide
  refine ⟨w₀, w₁, w, worker, job, hw₀, hw₁, hw, hWorker, ?_⟩
  exact (deadline_covers_retries hReached sampleKey).1 0 600 w₁ w worker job hStarts hLater hWorker
    hJob hActive

end World
end QuantumService.Cluster
