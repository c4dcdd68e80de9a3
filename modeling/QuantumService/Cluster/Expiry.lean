import QuantumService.Cluster.Lifecycle
import QuantumService.Controller.Expiry
import QuantumService.Controller.Lookup

/-! The end of a job. It is deleted when it is terminal, cleaned up and past its
TTL, and a reconcile that comes too early asks for another one at that instant. -/
namespace QuantumService.Cluster
open Interaction Controller World

namespace World
variable {w w' : World} {key : NamespacedName}

/-- The answer to a deletion of the job says that it is gone. -/
def Gone (answer : Except ApiError Unit) : Prop :=
  answer = .ok () ∨ answer = .error .notFound

/-- A job whose deletion was answered so is stored no more. -/
def DeletesJob (w : World) (key : NamespacedName) : Prop :=
  ∀ worker job answer, w.workers key = some worker →
    ⟨.write (.deleteJob job), answer⟩ ∈ worker.history → Gone answer → (w.jobs key).current = none

section DeletesJob

/-- A step that leaves the reconcile alone and does not store the job. -/
theorem DeletesJob.keep (deletes : DeletesJob w key) (workers : w'.workers key = w.workers key)
    (jobs : (w.jobs key).current = none → (w'.jobs key).current = none) : DeletesJob w' key := by
  intro worker job answer hBusy hMem hGone
  rw [workers] at hBusy
  exact jobs (deletes worker job answer hBusy hMem hGone)

/-- An answer to the reconcile, which does not store the job. -/
theorem DeletesJob.extend (deletes : DeletesJob w key) {history : History} {call : Call}
    {next : call.Answer → Reconciler Outcome} {answer : call.Answer}
    {path : Program.Path (reconcile key) history (.ask call next)}
    (busy : w.workers key = some ⟨history, .ask call next, path⟩)
    (workers : w'.workers key = some (Worker.extend path answer))
    (jobs : (w.jobs key).current = none → (w'.jobs key).current = none)
    (deleted : ∀ job reported, (⟨call, answer⟩ : Event Call.Answer) =
      ⟨.write (.deleteJob job), reported⟩ → Gone reported → (w'.jobs key).current = none) :
    DeletesJob w' key := by
  intro worker job reported hBusy hMem hGone
  rw [workers, Option.some.injEq] at hBusy
  subst hBusy
  rcases List.mem_append.mp hMem with hOld | hNew
  · exact jobs (deletes _ job reported busy hOld hGone)
  · exact deleted job reported (List.mem_singleton.mp hNew).symm hGone

theorem DeletesJob.step (deletes : DeletesJob w key) (sound : ∀ key, (w.view key).Sound)
    {a : Action} (stepped : w.step a = some w') : DeletesJob w' key := by
  have hMoves := moves_of_step stepped
  clear stepped
  cases hMoves with
  | @createJob other spec fresh =>
      by_cases hKey : other = key
      · subst hKey
        intro worker job answer hBusy hMem hGone
        obtain ⟨before, later, hSplit⟩ := List.append_of_mem hMem
        have hRead := (site_of_event worker.path hSplit).deleteJob_inv.1
        have hHeld := readJob_append hRead (⟨.write (.deleteJob job), answer⟩ :: later)
        rw [← hSplit] at hHeld
        have hVisible := (sound other).held_visible hBusy hHeld
        exact absurd ((sound other).versions.created_of_stored hVisible) fresh
      · refine deletes.keep rfl fun hNone => ?_
        have hJob : Function.update w.jobs other
            ((w.jobs other).write (some (w.newJob other spec))) key = w.jobs key :=
          Function.update_of_ne (Ne.symm hKey) ..
        exact (congrArg Register.current hJob).trans hNone
  | @start other idle =>
      by_cases hKey : other = key
      · subst hKey
        intro worker job answer hBusy hMem
        rw [setWorker_workers, Function.update_self, Option.some.injEq] at hBusy
        subst hBusy
        cases hMem
      · exact deletes.keep (Function.update_of_ne (Ne.symm hKey) ..) id
  | @readJob acting req age value register history next path busy read =>
      have hJobs : (w.jobs key).current = none →
          (Function.update w.jobs req register key).current = none := by
        intro hNone
        by_cases hReq : key = req
        · subst hReq
          rw [Function.update_self, Register.current_read read, hNone]
        · rw [Function.update_of_ne hReq, hNone]
      by_cases hKey : acting = key
      · subst hKey
        exact deletes.extend busy (Function.update_self ..) hJobs (by rintro _ _ ⟨⟩)
      · exact deletes.keep (Function.update_of_ne (Ne.symm hKey) ..) hJobs
  | @readPod acting pod age value register history next path busy read =>
      by_cases hKey : acting = key
      · subst hKey
        exact deletes.extend busy (Function.update_self ..) id (by rintro _ _ ⟨⟩)
      · exact deletes.keep (Function.update_of_ne (Ne.symm hKey) ..) id
  | @wrote acting write middle history next reply answer path busy applied reported =>
      have hWorkers := applyWrite_workers applied
      have hJobs := @applyWrite_absent _ _ _ applied key
      by_cases hKey : acting = key
      · subst hKey
        refine deletes.extend busy (Function.update_self ..) hJobs ?_
        rintro job _ ⟨⟩ hGone
        obtain ⟨stored, -, rfl⟩ := applyWrite_deleteJob applied
        have hRead := (site_of_busy path).deleteJob_inv.1
        rw [(sound acting).held_key busy hRead]
        simp
      · refine deletes.keep ?_ hJobs
        rw [setWorker_workers, Function.update_of_ne (Ne.symm hKey), log_workers, hWorkers]
  | @quiet acting call history next reply answer path busy quiet =>
      by_cases hKey : acting = key
      · subst hKey
        refine deletes.extend busy (Function.update_self ..) id ?_
        rintro job _ ⟨⟩ hGone
        have hRead := (site_of_busy path).deleteJob_inv.1
        cases quiet with
        | rejected refused =>
            have hNone := applyWrite_deleteJob_refused refused
            rw [(sound acting).held_key busy hRead] at hNone
            exact hNone
        | failedWrite => rcases hGone with hOk | hNotFound <;> simp at *
      · exact deletes.keep (Function.update_of_ne (Ne.symm hKey) ..) id
  | @finish acting history outcome path busy =>
      by_cases hKey : acting = key
      · subst hKey
        intro worker job answer hBusy
        have hIdle : some worker = none := hBusy.symm.trans (Function.update_self ..)
        cases hIdle
      · exact deletes.keep (Function.update_of_ne (Ne.symm hKey) ..) id
  | unpatched => exact deletes
  | @patched other message job stored =>
      refine deletes.keep rfl fun hNone => ?_
      have hKey : key ≠ other := by
        rintro rfl
        rw [stored] at hNone
        cases hNone
      rw [setJob_jobs, Function.update_of_ne hKey]
      exact hNone
  | setClock | setPhase | createPod | removePod => exact deletes.keep rfl id

end DeletesJob

theorem deletesJob_of_reaches {allowed : World → Action → Prop}
    (run : Reaches step allowed Initial w) (key : NamespacedName) : DeletesJob w key := by
  apply run.invariant
  · intro s initial worker job answer hBusy
    rw [initial.idle key] at hBusy
    cases hBusy
  · intro s a t reached deletes _ stepped
    exact deletes.step (sound_of_reaches reached) stepped

/-- The deletion of a job that a reconcile requests: the job is terminal, cleaned
up and past its TTL, and what is stored of it is no different. -/
structure Due (w : World) (key : NamespacedName) (history : History) (job : QuantumAerJob) :
    Prop where
  read : readJob history = some job
  named : job.key = key
  state : job.status.jobStatus.Terminal
  cleaned : CleanedUp history job
  elapsed : ∃ ttl completionTime now, job.spec.ttlSecondsAfterFinished = some ttl ∧
    job.status.completionTime = some completionTime ∧ lastNow history = some now ∧
    ttl.toInt * second ≤ now - completionTime
  stored : ∀ stored, (w.jobs key).current = some stored → stored.spec = job.spec ∧
    stored.status.jobStatus = job.status.jobStatus ∧
    stored.status.completionTime = job.status.completionTime

/-- A reconcile of a terminal job with a TTL that was cleaned up: it comes back when
the TTL has passed, and if it has, the job is gone unless a write failed. -/
def Punctual (w : World) (key : NamespacedName) (history : History) (outcome : Outcome)
    (completionTime : Int) (ttl : Int32) (now : Int) : Prop :=
  (completionTime ≤ now → now - completionTime < ttl.toInt * second →
    outcome = (.after (completionTime + ttl.toInt * second - now), none) ∧
      0 < completionTime + ttl.toInt * second - now ∧
      completionTime + ttl.toInt * second - now < 2 ^ 63) ∧
  (ttl.toInt * second ≤ now - completionTime →
    (∀ write err, ⟨.write write, .error err⟩ ∈ history → err = .notFound) →
      (w.jobs key).current = none)

theorem due_of_busy (sound : (w.view key).Sound) {history : History} {job : QuantumAerJob}
    {next : Except ApiError Unit → Reconciler Outcome}
    {path : Program.Path (reconcile key) history (.ask (.write (.deleteJob job)) next)}
    (busy : w.workers key = some ⟨history, .ask (.write (.deleteJob job)) next, path⟩) :
    Due w key history job := by
  obtain ⟨hRead, hTerminal, hCleaned, hElapsed⟩ := deletes_due path
  refine ⟨hRead, sound.held_key busy hRead, hTerminal, hCleaned, hElapsed, ?_⟩
  intro stored hStored
  have hVisible : some stored ∈ (w.view key).job.visible :=
    hStored ▸ (w.jobs key).current_mem_visible
  rcases sound.versions.newer_of_held (sound.held busy hRead) hVisible with rfl | hSucceeds
  · exact ⟨rfl, rfl, rfl⟩
  · rw [hSucceeds.of_terminal hTerminal]
    exact ⟨hSucceeds.spec, rfl, rfl⟩

theorem punctual_of_expires (deletes : DeletesJob w key) {worker : Worker key}
    {job : QuantumAerJob} {outcome : Outcome} {completionTime : Int} {ttl : Int32}
    (busy : w.workers key = some worker)
    (expires : Expires worker.history job ttl completionTime outcome) :
    ∃ now, lastNow worker.history = some now ∧
      Punctual w key worker.history outcome completionTime ttl now := by
  cases expires with
  | @due now answer outcome last elapsed deleted =>
      have hElapsed := (elapsed_iff now completionTime ttl).mp elapsed
      refine ⟨now, last, fun _ hEarly => ?_, fun _ hFine => ?_⟩
      · omega
      · apply deletes worker job answer busy deleted
        cases answer with
        | ok => exact .inl rfl
        | error err => exact .inr (by rw [hFine _ err deleted])
  | @early now last early =>
      have hEarly : ¬ ttl.toInt * second ≤ now - completionTime :=
        mt (elapsed_iff now completionTime ttl).mpr early
      refine ⟨now, last, fun hAfter _ => ?_, fun hElapsed _ => absurd hElapsed hEarly⟩
      have hUpper := ttl.toInt_lt
      rw [delay_eq hAfter early]
      refine ⟨rfl, ?_, ?_⟩ <;>
      · unfold second at *
        omega

/-- A job's deletion is requested only when it is due, and a reconcile that finds it not due
yet returns the delay until it is. -/
theorem ttl_exact {allowed : World → Action → Prop} (run : Reaches step allowed Initial w)
    (key : NamespacedName) :
    (∀ worker job next, w.workers key = some worker →
      worker.rest = .ask (.write (.deleteJob job)) next → Due w key worker.history job) ∧
    ∀ worker outcome job ttl, w.workers key = some worker → worker.rest = .done outcome →
      readJob worker.history = some job → job.status.jobStatus.Terminal →
      job.spec.ttlSecondsAfterFinished = some ttl → CleanedUp worker.history job →
        ∃ completionTime now, job.status.completionTime = some completionTime ∧
          lastNow worker.history = some now ∧
          Punctual w key worker.history outcome completionTime ttl now := by
  have hSound := sound_of_reaches run key
  constructor
  · rintro ⟨history, rest, path⟩ job next hBusy rfl
    exact due_of_busy hSound hBusy
  · rintro ⟨history, rest, path⟩ outcome job ttl hBusy rfl hRead hTerminal hTtl hCleaned
    have hOk := hSound.versions.ok (hSound.held_visible hBusy hRead)
    obtain ⟨completionTime, hCompletion⟩ :=
      Option.ne_none_iff_exists'.mp fun hNone => hOk.ended.mp hNone hTerminal
    have hExpires := reconcile_leaves path hRead hTerminal ttl completionTime hTtl hCompletion
      hCleaned
    obtain ⟨now, hLast, hPunctual⟩ :=
      punctual_of_expires (deletesJob_of_reaches run key) hBusy hExpires
    exact ⟨completionTime, now, hCompletion, hLast, hPunctual⟩

/-- The job is completed at 30 s, and its TTL of 300 s has passed. -/
def expiringRun : List Action :=
  completedRun ++ [.setClock (330 * second), .reconcile sampleKey] ++
    [Reply.read 0, .ok, .read 0, .ok, .ok].map (.answer sampleKey)

/-- The job whose deletion a reconcile requests. -/
def deletedJob (worker : Worker key) : Option QuantumAerJob :=
  match worker.rest with
  | .ask (.write (.deleteJob job)) _ => some job
  | _ => none

theorem ttl_exact_due : ∃ w worker job, runActions step .empty expiringRun = some w ∧
    w.workers sampleKey = some worker ∧ Due w sampleKey worker.history job := by
  have hRun : ((runActions step .empty expiringRun).bind fun w =>
      (w.workers sampleKey).bind fun worker => (deletedJob worker).map (·.key)) =
        some sampleKey := by decide +kernel
  obtain ⟨w, hw, hBusy⟩ := Option.bind_eq_some_iff.mp hRun
  obtain ⟨worker, hWorker, hDeleted⟩ := Option.bind_eq_some_iff.mp hBusy
  obtain ⟨job, hJob, -⟩ := Option.map_eq_some_iff.mp hDeleted
  have hReached : Reaches step (fun _ _ => True) Initial w :=
    (Reaches.start .empty).runActions (.of_forall fun _ _ _ => trivial) hw
  refine ⟨w, worker, job, hw, hWorker, ?_⟩
  unfold deletedJob at hJob
  split at hJob
  · rename_i job' next hRest
    cases hJob
    exact (ttl_exact hReached sampleKey).1 worker job next hWorker hRest
  · cases hJob

end World
end QuantumService.Cluster
