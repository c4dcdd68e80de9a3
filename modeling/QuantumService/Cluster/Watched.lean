import QuantumService.Cluster.Expiry
import QuantumService.Cluster.Manager
import QuantumService.Cluster.Ownership

/-! What a reconcile knows against what is stored. A read that is not up to date, and a
change after it, are noticed; so a reconcile that returns for good has seen the job and
its pod as they are. -/
namespace QuantumService.Cluster
open Interaction Controller World

/-- The first answer of a reconcile is the job it works on. -/
theorem readJob_snoc {history : History} {e : Event Call.Answer} {job : QuantumAerJob}
    (read : readJob (history ++ [e]) = some job) : readJob history = some job ∨
      history = [] ∧ ∃ req, e = ⟨.getJob req, .ok job⟩ := by
  cases history with
  | nil =>
      refine .inr ⟨rfl, ?_⟩
      obtain ⟨call, answer⟩ := e
      cases call with
      | getJob req =>
          cases answer with
          | ok found =>
              cases read
              exact ⟨req, rfl⟩
          | error err => cases read
      | getPod | getServiceAccount | write | now => cases read
  | cons first history =>
      obtain ⟨call, answer⟩ := first
      cases call with
      | getJob req =>
          cases answer with
          | ok found => exact .inl read
          | error err => cases read
      | getPod | getServiceAccount | write | now => cases read

/-- A read returns the current value, or fails. -/
def Serves {α : Type} (current : Option α) (answer : Except ApiError α) : Prop :=
  answer = served current ∨ ∃ text, answer = .error (.other text)

section Serves
variable {α : Type} {current : Option α}

theorem Serves.some {value : α} (serves : Serves current (.ok value)) : current = some value := by
  rcases serves with hServed | ⟨text, hFailed⟩
  · cases current with
    | none => cases hServed
    | some found =>
        cases hServed
        rfl
  · cases hFailed

theorem Serves.none (serves : Serves current (.error .notFound)) : current = none := by
  rcases serves with hServed | ⟨text, hFailed⟩
  · cases current with
    | none => rfl
    | some found => cases hServed
  · cases hFailed

end Serves

namespace JobView
variable {key : NamespacedName} {v v' : JobView key} {noticed noticed' : Prop}

/-- The job is kept for ever, or its pod is in a phase that the controller has no case
for, which the next report of the pod's node will change. -/
def Rests (v : JobView key) (job : QuantumAerJob) : Prop :=
  (job.status.jobStatus.Terminal ∧ job.spec.ttlSecondsAfterFinished = none) ∨
    (job.status.jobStatus = .progress ∧ ∃ pod,
      (v.pods job.status.retries).current = some pod ∧
        (pod.phase = .unknown ∨ pod.phase = .unset))

/-- What the reconcile in flight has read is what is stored, or a change was noticed. -/
structure Watched (v : JobView key) (noticed : Prop) : Prop where
  missing : ∀ {worker req}, v.worker = some worker →
    ⟨.getJob req, .error .notFound⟩ ∈ worker.history → v.job.current = none ∨ noticed
  held : ∀ {worker job}, v.worker = some worker → readJob worker.history = some job →
    v.job.current = some job ∨ noticed
  found : ∀ {worker job q pod}, v.worker = some worker → readJob worker.history = some job →
    ⟨.getPod q, .ok pod⟩ ∈ worker.history →
      (v.pods job.status.retries).current = some pod ∨ noticed

namespace Watched

theorem idle (worker : v.worker = none) : Watched v noticed := by
  constructor
  · intro worker' req hBusy
    rw [worker] at hBusy
    cases hBusy
  · intro worker' job hBusy
    rw [worker] at hBusy
    cases hBusy
  · intro worker' job q pod hBusy
    rw [worker] at hBusy
    cases hBusy

theorem start : Watched (v.setWorker (some (.start key))) noticed := by
  constructor
  · rintro worker req ⟨⟩ hMem
    cases hMem
  · rintro worker job ⟨⟩ hRead
    cases hRead
  · rintro worker job q pod ⟨⟩ hRead
    cases hRead

/-- What was read is stored, or a change was noticed, after a move that keeps both. -/
theorem keep (watched : Watched v noticed) (worker : v'.worker = v.worker)
    (kept : noticed → noticed') (job : v'.job.current = v.job.current ∨ noticed')
    (pods : ∀ r, (v'.pods r).current = (v.pods r).current ∨ noticed') :
    Watched v' noticed' := by
  rcases job with hJob | hNoticed
  · constructor
    · intro worker' req hBusy hMem
      rw [worker] at hBusy
      rw [hJob]
      exact (watched.missing hBusy hMem).imp id kept
    · intro worker' job hBusy hRead
      rw [worker] at hBusy
      rw [hJob]
      exact (watched.held hBusy hRead).imp id kept
    · intro worker' job q pod hBusy hRead hMem
      rw [worker] at hBusy
      rcases pods job.status.retries with hPod | hNoticed
      · rw [hPod]
        exact (watched.found hBusy hRead hMem).imp id kept
      · exact .inr hNoticed
  · exact ⟨fun _ _ => .inr hNoticed, fun _ _ => .inr hNoticed, fun _ _ _ => .inr hNoticed⟩

variable {history : History} {call : Call} {next : call.Answer → Reconciler Outcome}
  {path : Program.Path (reconcile key) history (.ask call next)} {answer : call.Answer}

/-- An answer to the reconcile in flight. -/
theorem resume (watched : Watched v noticed) (waits : v.Waits history call next path)
    (job : ∀ req reply, (⟨call, answer⟩ : Event Call.Answer) = ⟨.getJob req, reply⟩ →
      Serves v.job.current reply ∨ noticed)
    (pod : ∀ job q reply, readJob history = some job →
      (⟨call, answer⟩ : Event Call.Answer) = ⟨.getPod q, reply⟩ →
        Serves (v.pods job.status.retries).current reply ∨ noticed) :
    Watched (v.resume path answer) noticed := by
  constructor
  · rintro worker req ⟨⟩ hMem
    rcases List.mem_append.mp hMem with hOld | hNew
    · exact watched.missing waits hOld
    · exact (job req _ (List.mem_singleton.mp hNew).symm).imp Serves.none id
  · rintro worker job' ⟨⟩ hRead
    rcases readJob_snoc hRead with hHeld | ⟨-, req, hEvent⟩
    · exact watched.held waits hHeld
    · exact (job req _ hEvent).imp Serves.some id
  · rintro worker job' q pod' ⟨⟩ hRead hMem
    rcases readJob_snoc hRead with hHeld | ⟨rfl, req, hEvent⟩
    · rcases List.mem_append.mp hMem with hOld | hNew
      · exact watched.found waits hHeld hOld
      · exact (pod job' q _ hHeld (List.mem_singleton.mp hNew).symm).imp Serves.some id
    · cases hEvent
      cases List.mem_singleton.mp hMem

/-- An answer, and what it does to what is stored. -/
theorem answered (watched : Watched v noticed) {middle : JobView key} (kept : noticed → noticed')
    (waits : v.Waits history call next path) (worker : middle.worker = v.worker)
    (jobs : middle.job.current = v.job.current ∨ noticed')
    (pods : ∀ r, (middle.pods r).current = (v.pods r).current ∨ noticed')
    (job : ∀ req reply, (⟨call, answer⟩ : Event Call.Answer) = ⟨.getJob req, reply⟩ →
      Serves v.job.current reply ∨ noticed')
    (pod : ∀ job q reply, readJob history = some job →
      (⟨call, answer⟩ : Event Call.Answer) = ⟨.getPod q, reply⟩ →
        Serves (v.pods job.status.retries).current reply ∨ noticed') :
    Watched (middle.resume path answer) noticed' := by
  have hMiddle : Watched middle noticed' := watched.keep worker kept jobs pods
  refine hMiddle.resume (worker.trans waits) ?_ ?_
  · intro req reply hEvent
    rcases jobs with hSame | hNoticed
    · rw [hSame]
      exact job req reply hEvent
    · exact .inr hNoticed
  · intro job' q reply hRead hEvent
    rcases pods job'.status.retries with hSame | hNoticed
    · rw [hSame]
      exact pod job' q reply hRead hEvent
    · exact .inr hNoticed

/-- What is read is watched by every move, if reads that are not up to date and changes of
what is stored are noticed. -/
theorem step (watched : Watched v noticed) (kept : noticed → noticed') {a : Action}
    (jobs : v'.job.current = v.job.current ∨ noticed')
    (pods : ∀ r, (v'.pods r).current = (v.pods r).current ∨ noticed')
    (readsJob : ∀ history req next path answer, v.Waits history (.getJob req) next path →
      v'.worker = some (Worker.extend path answer) → Serves v.job.current answer ∨ noticed')
    (readsPod : ∀ history job q next path answer, v.Waits history (.getPod q) next path →
      readJob history = some job → v'.worker = some (Worker.extend path answer) →
        Serves (v.pods job.status.retries).current answer ∨ noticed') (h : Moves v a v') :
    Watched v' noticed' := by
  have hAnswered : ∀ {history call next answer} {middle : JobView key}
      {path : Program.Path (reconcile key) history (.ask call next)},
      v' = middle.resume path answer → middle.worker = v.worker →
        v.Waits history call next path → Watched v' noticed' := by
    rintro history call next answer middle path rfl hWorker hWaits
    refine watched.answered kept hWaits hWorker jobs pods ?_ ?_
    · rintro req reply hEvent
      cases hEvent
      exact readsJob _ _ _ _ _ hWaits rfl
    · rintro job q reply hRead hEvent
      cases hEvent
      exact readsPod _ _ _ _ _ _ hWaits hRead rfl
  cases h with
  | elsewhere | setClock | create | patched | setPhase | createPod | removePod =>
      exact watched.keep rfl kept jobs pods
  | start => exact start
  | finish => exact idle rfl
  | readJob waits | readPod waits | created waits | deleted waits | expired waits
  | updated waits | quiet waits =>
      exact hAnswered rfl rfl waits

end Watched
/-- A completion is never ahead of the clock, nor of a later reading of it. -/
structure Elapsed (v : JobView key) : Prop where
  completed : ∀ {job c}, some job ∈ v.job.visible → job.status.completionTime = some c →
    c ≤ v.clock
  after : ∀ {worker job c t}, v.worker = some worker → readJob worker.history = some job →
    job.status.completionTime = some c → ⟨.now, t⟩ ∈ worker.history → c ≤ t

/-- A completion time that is written was there, or is a clock reading. -/
theorem completionTime_of_reason {h : History} {job : QuantumAerJob}
    {status : QuantumAerJobStatus} (reason : StatusWrite h job status) :
    status.completionTime = job.status.completionTime ∨
      ∃ now, ⟨.now, now⟩ ∈ h ∧ status.completionTime = some now := by
  cases reason with
  | timedOut started limited first expired clock => exact .inr ⟨_, clock, rfl⟩
  | giveUp checked state found phase spent clock => exact .inr ⟨_, clock, rfl⟩
  | succeed checked state found phase clock => exact .inr ⟨_, clock, rfl⟩
  | begin | recordPod | markProgress | backToPending | retry => exact .inl rfl

namespace Elapsed
variable {history : History} {call : Call} {next : call.Answer → Reconciler Outcome}
  {path : Program.Path (reconcile key) history (.ask call next)} {answer : call.Answer}

theorem setJob (elapsed : Elapsed v) (value : Option QuantumAerJob)
    (completed : ∀ job c, value = some job → job.status.completionTime = some c → c ≤ v.clock) :
    Elapsed (v.setJob value) where
  completed := by
    intro job c hMem hCompletion
    rcases List.mem_cons.mp hMem with hNew | hOld
    · exact completed job c hNew.symm hCompletion
    · exact elapsed.completed hOld hCompletion
  after := elapsed.after

theorem resume (elapsed : Elapsed v) (waits : v.Waits history call next path)
    (job : ∀ req job, (⟨call, answer⟩ : Event Call.Answer) ≠ ⟨.getJob req, .ok job⟩)
    (now : ∀ t, (⟨call, answer⟩ : Event Call.Answer) = ⟨.now, t⟩ → t = v.clock)
    (visible : ∀ job, readJob history = some job → some job ∈ v.job.visible) :
    Elapsed (v.resume path answer) where
  completed := elapsed.completed
  after := by
    rintro worker job' c t ⟨⟩ hRead hCompletion hMem
    have hBefore := readJob_extend job hRead
    rcases List.mem_append.mp hMem with hOld | hNew
    · exact elapsed.after waits hBefore hCompletion hOld
    · rw [now t (List.mem_singleton.mp hNew).symm]
      exact elapsed.completed (visible job' hBefore) hCompletion

theorem step (elapsed : Elapsed v) (sound : Sound v) (timely : Timely v) {a : Action}
    (forward : ∀ now, a = .setClock now → v.clock ≤ now) (h : Moves v a v') : Elapsed v' := by
  have hVisible : ∀ {history : History} {rest : Reconciler Outcome}
      {path : Program.Path (reconcile key) history rest}, v.worker = some ⟨history, rest, path⟩ →
      ∀ job, readJob history = some job → some job ∈ v.job.visible :=
    fun busy job hRead => sound.held_visible busy hRead
  cases h with
  | elsewhere | setPhase | createPod | removePod => exact { elapsed with }
  | @setClock now =>
      exact { elapsed with
        completed := fun hMem hCompletion =>
          Int.le_trans (elapsed.completed hMem hCompletion) (forward now rfl) }
  | @create spec fresh =>
      have hJob := elapsed.setJob (some ⟨key.name, key.nameSpace, v.next, v.next, spec, .empty⟩)
        (by rintro job c ⟨⟩ ⟨⟩)
      exact { hJob with }
  | start idle =>
      exact { elapsed with
        after := by
          rintro worker job c t ⟨⟩ hRead
          cases hRead }
  | finish busy => exact { elapsed with after := by rintro _ _ _ _ ⟨⟩ }
  | @readJob age value register next path waits read =>
      exact {
        completed := fun hMem => elapsed.completed (Register.visible_subset_of_read read hMem)
        after := by
          rintro worker job c t ⟨⟩ _ _ hMem
          cases List.mem_singleton.mp hMem }
  | @readPod age job value register history next path waits held read =>
      have hPods : Elapsed (v.servePod job.status.retries register) := { elapsed with }
      exact hPods.resume waits (by rintro _ _ ⟨⟩) (by rintro _ ⟨⟩) (hVisible waits)
  | @created job history next reply answer path waits held free reported =>
      have hPods : Elapsed ((v.setPod job.status.retries (some { simulatorPod job with
          uid := v.next, phase := .pending })).log (.createPod (simulatorPod job))) :=
        { elapsed with }
      exact hPods.resume waits (by rintro _ _ ⟨⟩) (by rintro _ ⟨⟩) (hVisible waits)
  | @deleted job pod stored history next reply answer path waits held named present reported =>
      have hPods : Elapsed ((v.setPod job.status.retries (some { stored with
          deletionRequested := true })).log (.deletePod pod)) :=
        { elapsed with }
      exact hPods.resume waits (by rintro _ _ ⟨⟩) (by rintro _ ⟨⟩) (hVisible waits)
  | @expired job stored history next reply answer path waits held present reported =>
      have hJob := elapsed.setJob none (by simp)
      have hLogged : Elapsed ((v.setJob none).log (.deleteJob job)) := { hJob with }
      exact hLogged.resume waits (by rintro _ _ ⟨⟩) (by rintro _ ⟨⟩)
        fun job hRead => List.mem_cons_of_mem _ (hVisible waits job hRead)
  | @updated job stored status history next reply answer path waits held present version
      reported =>
      have hReason := (site_of_busy path).reason held
      have hCompleted : ∀ c, status.completionTime = some c → c ≤ v.clock := by
        intro c hCompletion
        rcases completionTime_of_reason hReason with hSame | ⟨now, hNow, hRead⟩
        · exact elapsed.completed (hVisible waits job held) (hSame.symm.trans hCompletion)
        · obtain rfl := Option.some.inj (hRead.symm.trans hCompletion)
          exact timely.past waits hNow
      have hJob := elapsed.setJob
        (some { stored with status := status.stored, resourceVersion := v.next }) (by
          rintro _ c ⟨⟩ hStored
          obtain ⟨t, hCompletion, rfl⟩ := Option.map_eq_some_iff.mp hStored
          exact Int.le_trans (storedTime_le t) (hCompleted t hCompletion))
      have hLogged : Elapsed ((v.setJob (some { stored with
          status := status.stored, resourceVersion := v.next })).log
          (.updateStatus (job.withStatus status))) := { hJob with }
      exact hLogged.resume waits (by rintro _ _ ⟨⟩) (by rintro _ ⟨⟩)
        fun job hRead => List.mem_cons_of_mem _ (hVisible waits job hRead)
  | quiet waits uneventful =>
      exact elapsed.resume waits uneventful.job uneventful.now (hVisible waits)
  | @patched message stored present =>
      have hStored : some stored ∈ v.job.visible := present ▸ v.job.current_mem_visible
      have hCompleted : ∀ c, stored.status.completionTime = some c → c ≤ v.clock :=
        fun c => elapsed.completed hStored
      exact elapsed.setJob _ (by rintro job c ⟨⟩; exact hCompleted c)

end Elapsed

/-- A reconcile that returns for good leaves its job to rest, or a change was noticed. -/
theorem Watched.rests (watched : Watched v noticed) (sound : Sound v) (elapsed : Elapsed v)
    {history : History} {outcome : Outcome}
    {path : Program.Path (reconcile key) history (.done outcome)}
    (busy : v.worker = some ⟨history, .done outcome, path⟩)
    (deletes : ∀ job answer, ⟨.write (.deleteJob job), answer⟩ ∈ history →
      Gone answer → v.job.current = none)
    (final : ¬ Revisited outcome) {job : QuantumAerJob} (present : v.job.current = some job) :
    noticed ∨ v.Rests job := by
  -- the job that was read is the one that is stored
  have hHeld : ∀ {job'}, readJob history = some job' → noticed ∨ job' = job := by
    intro job' hRead
    rcases watched.held busy hRead with hCurrent | hNoticed
    · exact .inr (Option.some.inj (hCurrent.symm.trans present))
    · exact .inl hNoticed
  have hOk : ∀ {job'}, readJob history = some job' →
      StatusOk job'.name job'.spec job'.status :=
    fun hRead => sound.versions.ok (sound.held_visible busy hRead)
  cases dropped_of_path path final with
  | missing read =>
      rcases watched.missing busy read with hNone | hNoticed
      · rw [present] at hNone
        cases hNone
      · exact .inl hNoticed
  | @unhandled job' read odd =>
      obtain ⟨hState, pod, hFound, hPhase⟩ := odd
      rcases hHeld read with hNoticed | rfl
      · exact .inl hNoticed
      · rcases watched.found busy read hFound.2 with hPod | hNoticed
        · exact .inr (.inr ⟨hState, pod, hPod, hPhase⟩)
        · exact .inl hNoticed
  | unlimited read state kept =>
      rcases hHeld read with hNoticed | rfl
      · exact .inl hNoticed
      · exact .inr (.inl ⟨state, kept⟩)
  | deleted read gone asked =>
      have hNone := deletes _ _ asked gone
      rw [present] at hNone
      cases hNone
  | uncompleted read state unset => exact absurd state ((hOk read).ended.mp unset)
  | backward read completed clock before =>
      have hAfter := elapsed.after busy read completed clock
      omega
  | foreign read unknown state =>
      have hState := (hOk read).state
      unfold Unfinished JobState.Terminal at *
      tauto

/-- What a move does to the stored job. -/
theorem Moves.jobEvolves {a : Action} (h : Moves v a v') : Evolves v.job v'.job := by
  cases h with
  | elsewhere | setClock | start | readPod | created | deleted | quiet | finish | setPhase
  | createPod | removePod => exact .same
  | readJob waits read => exact .read read
  | create | expired | updated | patched => exact .write _

/-- What a move does to the pod of an attempt. -/
theorem Moves.podEvolves {a : Action} (h : Moves v a v') (r : Int32) :
    Evolves (v.pods r) (v'.pods r) := by
  have hWritten : ∀ retries value, Evolves (v.pods r) ((v.setPod retries value).pods r) := by
    intro retries value
    by_cases hr : r = retries
    · subst hr
      rw [setPod_pods_self]
      exact .write value
    · rw [setPod_pods_of_ne v hr]
      exact .same
  cases h with
  | elsewhere | setClock | start | create | readJob | expired | updated | quiet | finish
  | patched => exact .same
  | @readPod age job value register history next path waits held read =>
      show Evolves (v.pods r) ((v.servePod job.status.retries register).pods r)
      by_cases hr : r = job.status.retries
      · subst hr
        rw [servePod_pods_self]
        exact .read read
      · rw [servePod_pods_of_ne v hr]
        exact .same
  | created | deleted | setPhase | createPod | removePod => exact hWritten _ _

/-- Only an answer moves a reconcile on. -/
theorem Moves.answers {a : Action} (h : Moves v a v') {history : History} {call : Call}
    {next : call.Answer → Reconciler Outcome}
    {path : Program.Path (reconcile key) history (.ask call next)} {answer : call.Answer}
    (waits : v.Waits history call next path)
    (after : v'.worker = some (Worker.extend path answer)) :
    ∃ reply, a = .answer key reply := by
  have hMoved : v'.worker ≠ v.worker := by
    intro hSame
    rw [after, waits] at hSame
    have hLength := congrArg (fun worker : Option (Worker key) =>
      worker.map fun worker => worker.history.length) hSame
    simp [Worker.extend] at hLength
  cases h with
  | elsewhere | setClock | create | patched | setPhase | createPod | removePod =>
      exact absurd rfl hMoved
  | start idle =>
      rw [waits] at idle
      cases idle
  | finish => cases after
  | readJob | readPod | created | deleted | expired | updated | quiet => exact ⟨_, rfl⟩

/-- Only its return ends a reconcile. -/
theorem Moves.idle {a : Action} (h : Moves v a v') (other : a ≠ .finish key)
    (idle : v'.worker = none) : v.worker = none := by
  cases h with
  | elsewhere | setClock | create | patched | setPhase | createPod | removePod => exact idle
  | start | readJob | readPod | created | deleted | expired | updated | quiet => cases idle
  | finish => exact absurd rfl other

/-- Only a start begins one. -/
theorem Moves.stays_idle {a : Action} (h : Moves v a v') (other : a ≠ .reconcile key)
    (idle : v.worker = none) : v'.worker = none := by
  cases h with
  | elsewhere | setClock | create | patched | setPhase | createPod | removePod => exact idle
  | start => exact absurd rfl other
  | finish => rfl
  | readJob waits | readPod waits | created waits | deleted waits | expired waits
  | updated waits | quiet waits =>
      rw [Waits, idle] at waits
      cases waits

/-- The pods under the names of the job's attempts are controlled by it. -/
def Controlled (v : JobView key) : Prop :=
  ∀ r pod, some pod ∈ (v.pods r).visible → controllerKey pod = some key

theorem controllerKey_simulatorPod {job : QuantumAerJob} (keyed : job.key = key) :
    controllerKey (simulatorPod job) = some key := by
  rw [← keyed]
  rfl

theorem Controlled.setPod (controlled : Controlled v) {retries : Int32} {value : Option Pod}
    (owned : ∀ pod, value = some pod → controllerKey pod = some key) :
    Controlled (v.setPod retries value) := by
  intro r pod hMem
  rcases mem_setPod_visible hMem with ⟨-, hNew⟩ | hOld
  · exact owned pod hNew
  · exact controlled r pod hOld

theorem Controlled.step (controlled : Controlled v) (sound : Sound v) {a : Action}
    (alone : ∀ pod, a = .createPod pod → ∀ r, pod.key ≠ simulatorPodKey key r)
    (h : Moves v a v') : Controlled v' := by
  have hCurrent : ∀ {r pod}, (v.pods r).current = some pod → controllerKey pod = some key :=
    fun hStored => controlled _ _ (hStored ▸ Register.current_mem_visible _)
  cases h with
  | elsewhere | setClock | start | create | readJob | expired | updated | quiet | finish
  | patched => exact controlled
  | readPod waits held read =>
      exact fun r pod hMem => controlled r pod (mem_servePod_visible read hMem)
  | created waits held =>
      have hOwned := controllerKey_simulatorPod (sound.held_key waits held)
      exact controlled.setPod (by rintro _ ⟨⟩; exact hOwned)
  | deleted waits held named present =>
      have hOwned := hCurrent present
      exact controlled.setPod (by rintro _ ⟨⟩; exact hOwned)
  | setPhase present =>
      have hOwned := hCurrent present
      exact controlled.setPod (by rintro _ ⟨⟩; exact hOwned)
  | createPod named => exact absurd named (alone _ rfl _)
  | removePod => exact controlled.setPod (by rintro _ ⟨⟩)

end JobView
end QuantumService.Cluster
