import QuantumService.Cluster.World

/-! Everything a step can do, said once. Invariants are proved by going through
the moves, and a write of a reconcile is looked up among the controller's sites. -/
namespace QuantumService.Cluster
open Interaction Controller

namespace World
variable {w : World}

section Components
variable (w) (key : NamespacedName) (job : Option QuantumAerJob) (pod : Option Pod)
  (worker : Option (Worker key)) (write : Write)

@[simp] theorem setJob_jobs : (w.setJob key job).jobs =
    Function.update w.jobs key ((w.jobs key).write job) := rfl
@[simp] theorem setJob_pods : (w.setJob key job).pods = w.pods := rfl
@[simp] theorem setJob_clock : (w.setJob key job).clock = w.clock := rfl
@[simp] theorem setJob_next : (w.setJob key job).next = w.next + 1 := rfl
@[simp] theorem setJob_created : (w.setJob key job).created = w.created := rfl
@[simp] theorem setJob_workers : (w.setJob key job).workers = w.workers := rfl
@[simp] theorem setJob_effects : (w.setJob key job).effects = w.effects := rfl
@[simp] theorem setJob_finished : (w.setJob key job).finished = w.finished := rfl

@[simp] theorem setPod_jobs : (w.setPod key pod).jobs = w.jobs := rfl
@[simp] theorem setPod_pods : (w.setPod key pod).pods =
    Function.update w.pods key ((w.pods key).write pod) := rfl
@[simp] theorem setPod_clock : (w.setPod key pod).clock = w.clock := rfl
@[simp] theorem setPod_next : (w.setPod key pod).next = w.next + 1 := rfl
@[simp] theorem setPod_created : (w.setPod key pod).created = w.created := rfl
@[simp] theorem setPod_workers : (w.setPod key pod).workers = w.workers := rfl
@[simp] theorem setPod_effects : (w.setPod key pod).effects = w.effects := rfl
@[simp] theorem setPod_finished : (w.setPod key pod).finished = w.finished := rfl

@[simp] theorem setWorker_jobs : (w.setWorker key worker).jobs = w.jobs := rfl
@[simp] theorem setWorker_pods : (w.setWorker key worker).pods = w.pods := rfl
@[simp] theorem setWorker_clock : (w.setWorker key worker).clock = w.clock := rfl
@[simp] theorem setWorker_next : (w.setWorker key worker).next = w.next := rfl
@[simp] theorem setWorker_created : (w.setWorker key worker).created = w.created := rfl
@[simp] theorem setWorker_workers : (w.setWorker key worker).workers =
    Function.update w.workers key worker := rfl
@[simp] theorem setWorker_effects : (w.setWorker key worker).effects = w.effects := rfl
@[simp] theorem setWorker_finished : (w.setWorker key worker).finished = w.finished := rfl

@[simp] theorem log_jobs : (w.log key write).jobs = w.jobs := rfl
@[simp] theorem log_pods : (w.log key write).pods = w.pods := rfl
@[simp] theorem log_clock : (w.log key write).clock = w.clock := rfl
@[simp] theorem log_next : (w.log key write).next = w.next := rfl
@[simp] theorem log_created : (w.log key write).created = w.created := rfl
@[simp] theorem log_workers : (w.log key write).workers = w.workers := rfl
@[simp] theorem log_effects : (w.log key write).effects = (key, write) :: w.effects := rfl
@[simp] theorem log_finished : (w.log key write).finished = w.finished := rfl

end Components

/-- Answers that leave the cluster as it is. -/
inductive Quiet (w : World) : (call : Call) → Reply → call.Answer → Prop where
  | now : Quiet w .now .ok w.clock
  | account {key : NamespacedName} {reply : Reply} {answer : Except ApiError Unit} :
      Quiet w (.getServiceAccount key) reply answer
  | rejected {write : Write} {err : ApiError} (refused : w.applyWrite write = .error err) :
      Quiet w (.write write) .ok (.error err)
  | failedJob {key : NamespacedName} {text : String} :
      Quiet w (.getJob key) (.fail text) (.error (.other text))
  | failedPod {key : NamespacedName} {text : String} :
      Quiet w (.getPod key) (.fail text) (.error (.other text))
  | failedWrite {write : Write} {text : String} :
      Quiet w (.write write) (.fail text) (.error (.other text))

/-- The answer to a write that took effect: success, or a lost reply. -/
inductive Reported : Reply → Except ApiError Unit → Prop where
  | ok : Reported .ok (.ok ())
  | lost {text : String} : Reported (.lost text) (.error (.other text))

/-- The worker after one more answer. -/
def Worker.extend {key : NamespacedName} {history : History} {call : Call}
    {next : call.Answer → Reconciler Outcome}
    (path : Program.Path (reconcile key) history (.ask call next)) (answer : call.Answer) :
    Worker key :=
  ⟨history ++ [⟨call, answer⟩], next answer, path.snoc answer⟩

inductive Moves (w : World) : Action → World → Prop where
  | createJob {key : NamespacedName} {spec : QuantumAerJobSpec} (fresh : key ∉ w.created) :
      Moves w (.createJob key spec)
        { w.setJob key (some (w.newJob key spec)) with created := key :: w.created }
  | start {key : NamespacedName} (idle : w.workers key = none) :
      Moves w (.reconcile key) (w.setWorker key (some (.start key)))
  | readJob {key req : NamespacedName} {age : Nat} {value : Option QuantumAerJob}
      {register : Register QuantumAerJob} {history : History}
      {next : Except ApiError QuantumAerJob → Reconciler Outcome}
      {path : Program.Path (reconcile key) history (.ask (.getJob req) next)}
      (busy : w.workers key = some ⟨history, .ask (.getJob req) next, path⟩)
      (read : (w.jobs req).read age = some (value, register)) :
      Moves w (.answer key (.read age))
        ({ w with jobs := Function.update w.jobs req register }.setWorker key
          (some (Worker.extend path (served value))))
  | readPod {key pod : NamespacedName} {age : Nat} {value : Option Pod}
      {register : Register Pod} {history : History}
      {next : Except ApiError Pod → Reconciler Outcome}
      {path : Program.Path (reconcile key) history (.ask (.getPod pod) next)}
      (busy : w.workers key = some ⟨history, .ask (.getPod pod) next, path⟩)
      (read : (w.pods pod).read age = some (value, register)) :
      Moves w (.answer key (.read age))
        ({ w with pods := Function.update w.pods pod register }.setWorker key
          (some (Worker.extend path (served value))))
  | wrote {key : NamespacedName} {write : Write} {w' : World} {history : History}
      {next : Except ApiError Unit → Reconciler Outcome} {reply : Reply}
      {answer : Except ApiError Unit}
      {path : Program.Path (reconcile key) history (.ask (.write write) next)}
      (busy : w.workers key = some ⟨history, .ask (.write write) next, path⟩)
      (applied : w.applyWrite write = .ok w') (reported : Reported reply answer) :
      Moves w (.answer key reply)
        ((w'.log key write).setWorker key
          (some (@Worker.extend key history (.write write) next path answer)))
  | quiet {key : NamespacedName} {call : Call} {history : History}
      {next : call.Answer → Reconciler Outcome} {reply : Reply} {answer : call.Answer}
      {path : Program.Path (reconcile key) history (.ask call next)}
      (busy : w.workers key = some ⟨history, .ask call next, path⟩)
      (quiet : Quiet w call reply answer) :
      Moves w (.answer key reply) (w.setWorker key (some (Worker.extend path answer)))
  | finish {key : NamespacedName} {history : History} {outcome : Outcome}
      {path : Program.Path (reconcile key) history (.done outcome)}
      (busy : w.workers key = some ⟨history, .done outcome, path⟩) :
      Moves w (.finish key)
        { w.setWorker key none with finished := (key, history, outcome) :: w.finished }
  | unpatched {key : NamespacedName} {message : String} {job : QuantumAerJob}
      (stored : (w.jobs key).current = some job) (same : job.status.errorMessage = message) :
      Moves w (.patchError key message) w
  | patched {key : NamespacedName} {message : String} {job : QuantumAerJob}
      (stored : (w.jobs key).current = some job) :
      Moves w (.patchError key message) (w.setJob key (some
        { job with status := { job.status with errorMessage := message }
                   resourceVersion := w.next }))
  | setClock {now : Int} : Moves w (.setClock now) { w with clock := now }
  | setPhase {key : NamespacedName} {phase : PodPhase} {pod : Pod}
      (stored : (w.pods key).current = some pod) :
      Moves w (.setPhase key phase) (w.setPod key (some { pod with phase := phase }))
  | createPod {pod : Pod} (free : (w.pods pod.key).current = none) :
      Moves w (.createPod pod) (w.setPod pod.key (some { pod with uid := w.next }))
  | removePod {key : NamespacedName} {pod : Pod} (stored : (w.pods key).current = some pod) :
      Moves w (.removePod key) (w.setPod key none)

/-- An answered call is a cached read, a write that took effect, or quiet. -/
theorem moves_of_answer {key : NamespacedName} {history : History} {call : Call}
    {next : call.Answer → Reconciler Outcome}
    {path : Program.Path (reconcile key) history (.ask call next)} {reply : Reply}
    (busy : w.workers key = some ⟨history, .ask call next, path⟩) {w' : World}
    (h : w.answer key ⟨history, .ask call next, path⟩ reply = some w') :
    Moves w (.answer key reply) w' := by
  obtain ⟨⟨answer, middle⟩, hRespond, rfl⟩ := Option.map_eq_some_iff.mp h
  cases call with
  | getJob req =>
      cases reply with
      | read age =>
          obtain ⟨⟨value, register⟩, hRead, hPair⟩ := Option.map_eq_some_iff.mp hRespond
          cases hPair
          exact .readJob busy hRead
      | fail text =>
          cases hRespond
          exact .quiet busy .failedJob
      | ok | absent | lost => cases hRespond
  | getPod pod =>
      cases reply with
      | read age =>
          obtain ⟨⟨value, register⟩, hRead, hPair⟩ := Option.map_eq_some_iff.mp hRespond
          cases hPair
          exact .readPod busy hRead
      | fail text =>
          cases hRespond
          exact .quiet busy .failedPod
      | ok | absent | lost => cases hRespond
  | getServiceAccount account =>
      cases reply with
      | ok | absent | fail =>
          cases hRespond
          exact .quiet busy .account
      | read | lost => cases hRespond
  | write write =>
      cases reply with
      | ok =>
          simp only [respond] at hRespond
          cases hApplied : w.applyWrite write with
          | ok applied =>
              simp only [hApplied, Option.some.injEq, Prod.mk.injEq] at hRespond
              obtain ⟨rfl, rfl⟩ := hRespond
              exact .wrote busy hApplied .ok
          | error err =>
              simp only [hApplied, Option.some.injEq, Prod.mk.injEq] at hRespond
              obtain ⟨rfl, rfl⟩ := hRespond
              exact .quiet busy (.rejected hApplied)
      | lost text =>
          simp only [respond] at hRespond
          cases hApplied : w.applyWrite write with
          | ok applied =>
              simp only [hApplied, Option.some.injEq, Prod.mk.injEq] at hRespond
              obtain ⟨rfl, rfl⟩ := hRespond
              exact .wrote busy hApplied .lost
          | error err => simp [hApplied] at hRespond
      | fail text =>
          cases hRespond
          exact .quiet busy .failedWrite
      | read | absent => cases hRespond
  | now =>
      cases reply with
      | ok =>
          cases hRespond
          exact .quiet busy .now
      | read | absent | lost | fail => cases hRespond

/-- Every step is one of the moves. -/
theorem moves_of_step {a : Action} {w' : World} (h : w.step a = some w') : Moves w a w' := by
  cases a with
  | createJob key spec =>
      simp only [step] at h
      split at h
      · cases h
      · rename_i hFresh
        cases h
        exact .createJob hFresh
  | reconcile key =>
      simp only [step] at h
      split at h
      · rename_i hIdle
        cases h
        exact .start hIdle
      · cases h
  | answer key reply =>
      obtain ⟨⟨history, rest, path⟩, hBusy, hAnswer⟩ := Option.bind_eq_some_iff.mp h
      cases rest with
      | done outcome => cases hAnswer
      | ask call next => exact moves_of_answer hBusy hAnswer
  | finish key =>
      obtain ⟨⟨history, rest, path⟩, hBusy, hFinish⟩ := Option.bind_eq_some_iff.mp h
      cases rest with
      | done outcome =>
          cases hFinish
          exact .finish hBusy
      | ask call next => cases hFinish
  | patchError key message =>
      obtain ⟨job, hStored, rfl⟩ := Option.map_eq_some_iff.mp h
      unfold patchError
      split
      · rename_i hSame
        exact .unpatched hStored hSame
      · exact .patched hStored
  | setClock now =>
      cases h
      exact .setClock
  | setPhase key phase =>
      obtain ⟨pod, hStored, rfl⟩ := Option.map_eq_some_iff.mp h
      exact .setPhase hStored
  | createPod pod =>
      simp only [step] at h
      split at h
      · rename_i hFree
        cases h
        exact .createPod hFree
      · cases h
  | removePod key =>
      obtain ⟨pod, hStored, rfl⟩ := Option.map_eq_some_iff.mp h
      exact .removePod hStored

/-- A pending call of a reconcile is made at one of the controller's sites. -/
theorem site_of_busy {key : NamespacedName} {history : History} {call : Call}
    {next : call.Answer → Reconciler Outcome}
    (path : Program.Path (reconcile key) history (.ask call next)) : Site key history call :=
  (reconcile_follows key).call path

section Writes
variable {w' : World} {pod : Pod} {job : QuantumAerJob}

theorem applyWrite_createPod (h : w.applyWrite (.createPod pod) = .ok w') :
    (w.pods pod.key).current = none ∧
      w' = w.setPod pod.key (some { pod with uid := w.next, phase := .pending }) := by
  simp only [applyWrite] at h
  split at h
  · cases h
  · rename_i hFree
    cases h
    exact ⟨hFree, rfl⟩

theorem applyWrite_deletePod (h : w.applyWrite (.deletePod pod) = .ok w') :
    ∃ stored, (w.pods pod.key).current = some stored ∧
      w' = w.setPod pod.key (some { stored with deletionRequested := true }) := by
  simp only [applyWrite] at h
  split at h
  · rename_i stored hStored
    cases h
    exact ⟨stored, hStored, rfl⟩
  · cases h

theorem applyWrite_deleteJob (h : w.applyWrite (.deleteJob job) = .ok w') :
    ∃ stored, (w.jobs job.key).current = some stored ∧ w' = w.setJob job.key none := by
  simp only [applyWrite] at h
  split at h
  · rename_i stored hStored
    cases h
    exact ⟨stored, hStored, rfl⟩
  · cases h

theorem applyWrite_updateStatus (h : w.applyWrite (.updateStatus job) = .ok w') :
    ∃ stored, (w.jobs job.key).current = some stored ∧
      stored.resourceVersion = job.resourceVersion ∧
      w' = w.setJob job.key (some
        { stored with status := job.status.stored, resourceVersion := w.next }) := by
  simp only [applyWrite] at h
  split at h
  · rename_i stored hStored
    split at h
    · rename_i hVersion
      cases h
      exact ⟨stored, hStored, hVersion, rfl⟩
    · cases h
  · cases h

theorem applyWrite_deletePod_notFound {err : ApiError}
    (h : w.applyWrite (.deletePod pod) = .error err) : (w.pods pod.key).current = none := by
  simp only [applyWrite] at h
  split at h
  · cases h
  · assumption

theorem applyWrite_deleteJob_refused {err : ApiError}
    (h : w.applyWrite (.deleteJob job) = .error err) : (w.jobs job.key).current = none := by
  simp only [applyWrite] at h
  split at h
  · cases h
  · assumption

/-- A write of a reconcile changes one pod or one job. -/
theorem applyWrite_sets {write : Write} (h : w.applyWrite write = .ok w') :
    (∃ key pod, w' = w.setPod key pod) ∨ ∃ key job, w' = w.setJob key job := by
  cases write with
  | createPod pod =>
      obtain ⟨-, hPod⟩ := applyWrite_createPod h
      exact .inl ⟨_, _, hPod⟩
  | deletePod pod =>
      obtain ⟨stored, -, hPod⟩ := applyWrite_deletePod h
      exact .inl ⟨_, _, hPod⟩
  | deleteJob job =>
      obtain ⟨stored, -, hJob⟩ := applyWrite_deleteJob h
      exact .inr ⟨_, _, hJob⟩
  | updateStatus job =>
      obtain ⟨stored, -, -, hJob⟩ := applyWrite_updateStatus h
      exact .inr ⟨_, _, hJob⟩

theorem applyWrite_workers {write : Write} (h : w.applyWrite write = .ok w') :
    w'.workers = w.workers := by
  rcases applyWrite_sets h with ⟨key, pod, rfl⟩ | ⟨key, job, rfl⟩ <;> rfl

theorem applyWrite_clock {write : Write} (h : w.applyWrite write = .ok w') :
    w'.clock = w.clock := by
  rcases applyWrite_sets h with ⟨key, pod, rfl⟩ | ⟨key, job, rfl⟩ <;> rfl

/-- No write of a reconcile stores a job that was not there. -/
theorem applyWrite_absent {write : Write} (h : w.applyWrite write = .ok w')
    {key : NamespacedName} (absent : (w.jobs key).current = none) :
    (w'.jobs key).current = none := by
  cases write with
  | createPod pod =>
      obtain ⟨-, rfl⟩ := applyWrite_createPod h
      exact absent
  | deletePod pod =>
      obtain ⟨stored, -, rfl⟩ := applyWrite_deletePod h
      exact absent
  | deleteJob job =>
      obtain ⟨stored, -, rfl⟩ := applyWrite_deleteJob h
      by_cases hKey : key = job.key
      · subst hKey
        simp
      · rw [setJob_jobs, Function.update_of_ne hKey]
        exact absent
  | updateStatus job =>
      obtain ⟨stored, hStored, -, rfl⟩ := applyWrite_updateStatus h
      have hKey : key ≠ job.key := by
        rintro rfl
        rw [hStored] at absent
        cases absent
      rw [setJob_jobs, Function.update_of_ne hKey]
      exact absent

theorem applyWrite_created {write : Write} (h : w.applyWrite write = .ok w') :
    w'.created = w.created := by
  rcases applyWrite_sets h with ⟨key, pod, rfl⟩ | ⟨key, job, rfl⟩ <;> rfl

/-- Only the passing of time moves the clock. -/
theorem clock_of_step {a : Action} (h : w.step a = some w') :
    w'.clock = w.clock ∨ a = .setClock w'.clock := by
  cases moves_of_step h with
  | setClock => exact .inr rfl
  | wrote busy applied reported =>
      have hClock := applyWrite_clock applied
      exact .inl hClock
  | createJob | start | readJob | readPod | quiet | finish | unpatched | patched | setPhase
  | createPod | removePod => exact .inl rfl

/-- Names of jobs are used by creations only. -/
theorem created_of_step {a : Action} (h : w.step a = some w') :
    w'.created = w.created ∨
      ∃ key spec, a = .createJob key spec ∧ w'.created = key :: w.created := by
  cases moves_of_step h with
  | @createJob key spec fresh => exact .inr ⟨key, spec, rfl, rfl⟩
  | wrote busy applied reported =>
      have hCreated := applyWrite_created applied
      exact .inl hCreated
  | start | readJob | readPod | quiet | finish | unpatched | patched | setClock | setPhase
  | createPod | removePod => exact .inl rfl

/-- The names of jobs that were created are never forgotten. -/
theorem created_subset {a : Action} (h : w.step a = some w') {key : NamespacedName}
    (created : key ∈ w.created) : key ∈ w'.created := by
  rcases created_of_step h with hSame | ⟨_, _, -, hNew⟩
  · rw [hSame]
    exact created
  · rw [hNew]
    exact List.mem_cons_of_mem _ created

end Writes
end World
end QuantumService.Cluster
