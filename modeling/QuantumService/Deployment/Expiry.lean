import QuantumService.Deployment.Dated

/-! Expiry across the stores. The expiry of a record is fixed, the time out and the
TTL of a job are settings. Where these together are no longer than that, the record
outlives every attempt that is in time, and the completed job. -/
namespace QuantumService
open Interaction Cluster Controller Deployment

/-- The API server stores the times of a job as they were requested. -/
def Service.Admission.KeepsTimes (admission : Service.Admission) : Prop :=
  ∀ body spec, admission.admitted body = some spec → spec.timeOut.toInt = body.timeOut ∧
    spec.ttlSecondsAfterFinished.map Int32.toInt = some body.ttlSecondsAfterFinished

variable {setup : Setup}

namespace Deployment
variable {d d' : Deployment setup} {key : NamespacedName} {job : QuantumAerJob}

/-- The times of the job are those of the settings. -/
structure Configured (setup : Setup) (spec : QuantumAerJobSpec) : Prop where
  timeOut : spec.timeOut.toInt = setup.cfg.jobTimeout
  ttl : spec.ttlSecondsAfterFinished.map Int32.toInt = some setup.cfg.defaultTtl

/-- A job that is neither terminal nor past its time out, which runs from its start. -/
structure Within (d : Deployment setup) (key : NamespacedName) (job : QuantumAerJob) : Prop where
  stored : (d.world.jobs key).current = some job
  active : ¬ job.status.jobStatus.Terminal
  inTime : ∃ s, job.status.startTime = some s ∧
    (0 < job.spec.timeOut → d.world.clock ≤ deadline s job.spec.timeOut)

/-- The record of the job is there, with the circuit that was submitted. -/
def Offers (d : Deployment setup) (id : String) : Prop :=
  ∃ entry circuit, d.records (jobKey id) = some entry ∧ entry.data.circuit = some circuit ∧
    d.circuits (jobKey id) = some circuit

/-- The expiry times agree: an attempt that starts, or reads, while its job is within
its time out finds the circuit, and a completed job has its results. -/
structure Agrees (d : Deployment setup) : Prop where
  starts : ∀ {key job retries d'}, d.Within key job → d.step (.launch key retries) = some d' →
    d'.Offers job.spec.jobID
  reads : ∀ {key job uid pod history record next path}, d.Within key job →
    d.processes uid = some ⟨pod, history, .ask (.get record) next, path, false⟩ →
    (∃ r, pod.key = simulatorPodKey key r) → ∃ data circuit,
      d.respondSimulator (.get record) .ok = some (.ok (some data), d) ∧
      data.circuit = some circuit ∧ d.circuits (jobKey job.spec.jobID) = some circuit
  results : ∀ {key job}, (d.world.jobs key).current = some job →
    job.status.jobStatus = .completed →
    ∃ entry, d.records (jobKey job.spec.jobID) = some entry ∧ d.Holds job.spec.jobID entry.data

/-- Jobs are created with the times of the settings. -/
theorem configured_of_causes {a : Action setup} {spec : QuantumAerJobSpec}
    (keeps : setup.admission.KeepsTimes) (sourced : Sourced d a)
    (causes : Causes d a (.createJob key spec)) : Configured setup spec := by
  cases causes with
  | cluster own => exact absurd rfl (sourced.sole key spec)
  | @created i endpoint history body spec reply next path busy admitted =>
      have hBody : ∃ backendName shots jobID resources,
          body = Service.jobBody setup.cfg backendName shots jobID resources := by
        cases endpoint with
        | transpile data =>
            exact (Service.transpile_configured setup.cfg setup.trace data).call path body rfl
        | status jobID => cases (Service.getJobStatusEndpoint_follows setup.cfg jobID).call path
        | result jobID => cases (Service.getJobResultEndpoint_follows setup.cfg jobID).call path
      obtain ⟨backendName, shots, jobID, resources, rfl⟩ := hBody
      obtain ⟨hTimeOut, hTtl⟩ := keeps _ _ admitted
      exact ⟨hTimeOut, hTtl⟩

theorem configured_of_run (keeps : setup.admission.KeepsTimes)
    (run : Reaches step Sourced Fresh d) (stored : (d.world.jobs key).current = some job) :
    Configured setup job.spec := by
  have hIssues : Reaches World.step (World.Issues key (Configured setup)) (World.Unused key)
      d.world := by
    apply cluster_reaches _ _ run
    · exact fun _ fresh => ⟨fresh.initial.world, fresh.unused key⟩
    · intro s a wa _ sourced causes
      constructor
      · rintro spec rfl
        exact configured_of_causes keeps sourced causes
      · exact (sourced.issues causes key).alone
  exact (World.traced_of_reaches hIssues).jobs (stored ▸ Register.current_mem_visible _)

/-- The record of a job that is stored was written. -/
theorem stored_of_job (run : Reaches step Sourced Fresh d)
    (stored : (d.world.jobs key).current = some job) :
    key = jobNamed setup job.spec.jobID ∧ d.Stored job.spec.jobID := by
  have hMem : some job ∈ (d.world.view key).job.visible :=
    stored ▸ Register.current_mem_visible _
  have hKey : key = jobNamed setup job.spec.jobID := (traced_of_run run key).jobs hMem
  have hCreated : key ∈ d.world.created := (sound_of_run run key).versions.created_of_stored hMem
  obtain ⟨id, hNamed, hStored⟩ := (claimed_of_run run).created hCreated
  refine ⟨hKey, ?_⟩
  rw [jobNamed_injective (hKey.symm.trans hNamed)]
  exact hStored

end Deployment

namespace Dated
variable {t t' : Dated setup} {key : NamespacedName} {job : QuantumAerJob} {a : Action setup}

/-- The instants at which the records of jobs were written, by identifier. -/
def submitted (t : Dated setup) (id : String) : Int := t.written (jobKey id)

theorem timely_of_run (run : Reaches step Timed Fresh t) (key : NamespacedName) :
    (t.system.world.view key).Timely := by
  have hRun : Reaches Deployment.step (fun d a => ∀ now, a = .cluster (.setClock now) →
      d.world.clock ≤ now) Deployment.Fresh t.system := by
    apply system_of_run _ run
    rintro s a timed now rfl
    exact timed.onTime.1
  have hCluster : Reaches World.step ForwardClock World.Initial t.system.world := by
    apply cluster_reaches (fun _ fresh => fresh.initial.world) _ hRun
    intro s a wa _ hForward causes
    cases wa with
    | setClock now =>
        cases causes with
        | cluster own => exact hForward now rfl
    | createJob | reconcile | answer | finish | patchError | setPhase | createPod | removePod =>
        exact trivial
  exact World.timely_of_reaches hCluster

/-- What is allowed of time keeps the status updates to the schedule. -/
theorem Timed.inStep (timed : Timed t a) {reply : World.Reply} {stored update : QuantumAerJob}
    (action : a = .cluster (.answer key reply)) (applied : reply.applied = true)
    (pending : (t.system.world.view key).pendingUpdate = some (stored, update)) :
    (t.system.world.view key).InStep t.submitted stored update := by
  subst action
  have hStarts := timed.onTime applied _ pending
  have hCompletes := timed.inTime applied _ pending
  exact ⟨hStarts, hCompletes⟩

theorem scheduled_of_run (run : Reaches step Timed Fresh t) (key : NamespacedName) :
    (t.system.world.view key).Scheduled t.submitted := by
  have hAll : ∀ key, (t.system.world.view key).Scheduled t.submitted := by
    apply run.invariant
    · intro s fresh key
      have hJob : (s.system.world.view key).job = .synced none :=
        fresh.system.initial.world.jobs key
      constructor
      · intro job start hStored
        rw [hJob] at hStored
        cases hStored
      · intro job hStored
        rw [hJob] at hStored
        cases hStored
    · intro s a s' reached scheduled timed stepped key
      have hSound := sound_of_run (sourced_of_timed reached)
      have hPast := past_of_run reached
      obtain ⟨d, hStepped, rfl⟩ := Option.map_eq_some_iff.mp stepped
      -- a record that is written anew is not older than before
      have hLater : ∀ id, s.submitted id ≤ (⟨d, s.stamp a⟩ : Dated setup).submitted id := by
        intro id
        show s.written (jobKey id) ≤ s.stamp a (jobKey id)
        rcases s.stamp_cases a (jobKey id) with hKept | hNow
        · exact Int.le_of_eq hKept.symm
        · rw [hNow]
          exact hPast _
      rcases (moves_of_step hStepped).world with hSame | ⟨wa, hCauses, hMoved⟩
      · apply (scheduled key).keep _ _ hLater
        · exact congrArg (fun w => (World.view w key).job.current) hSame
        · exact congrArg World.clock hSame
      · have hMoves := World.view_moves hSound hMoved key
        have hNext := (scheduled key).step (hSound key) (timely_of_run reached key)
          (by
            rintro reply stored update rfl hApplied hPending
            cases hCauses with
            | cluster own => exact timed.inStep rfl hApplied hPending)
          (by
            rintro now rfl job c ttl hStored hCompletion hTtl
            have hMem : key ∈ s.system.world.created :=
              (hSound key).versions.created_of_stored (hStored ▸ Register.current_mem_visible _)
            cases hCauses with
            | cluster own => exact timed.onTime.2 key hMem job hStored c hCompletion ttl hTtl)
          hMoves
        exact hNext.keep rfl rfl hLater
  exact hAll key

/-- A record is there as long as its expiry has not passed. -/
theorem Recorded.entry {id : String} (recorded : Recorded t id)
    (young : t.system.world.clock ≤ t.written (jobKey id) + recordTtl * second) :
    ∃ entry, t.system.records (jobKey id) = some entry := by
  rcases recorded.record with ⟨entry, hEntry, -⟩ | hPassed
  · exact ⟨entry, hEntry⟩
  · omega

/-- The record of a job within its time out is there, and has the circuit. -/
theorem offers_of_within (keeps : setup.admission.KeepsTimes) (limited : 0 < setup.cfg.jobTimeout)
    (short : setup.cfg.jobTimeout + max 0 setup.cfg.defaultTtl ≤ recordTtl)
    (run : Reaches step Timed Fresh t) (within : t.system.Within key job) :
    t.system.Offers job.spec.jobID := by
  have hSourced := sourced_of_timed run
  have hConfigured := configured_of_run keeps hSourced within.stored
  obtain ⟨-, hStored⟩ := stored_of_job hSourced within.stored
  have hRecorded := recorded_of_run run hStored
  obtain ⟨s, hStart, hInTime⟩ := within.inTime
  have hLimited : 0 < job.spec.timeOut := by
    rw [Int32.lt_iff_toInt_lt, hConfigured.timeOut]
    exact limited
  have hClock := hInTime hLimited
  have hSubmitted : s ≤ t.written (jobKey job.spec.jobID) :=
    (scheduled_of_run run key).started within.stored hStart
  have hYoung : t.system.world.clock ≤ t.written (jobKey job.spec.jobID) + recordTtl * second := by
    rw [deadline, hConfigured.timeOut] at hClock
    unfold second at *
    omega
  obtain ⟨entry, hEntry⟩ := hRecorded.entry hYoung
  obtain ⟨circuit, hCircuit⟩ := hRecorded.circuit
  have hKept := (kept_of_run hSourced hStored).circuit hEntry
  exact ⟨entry, circuit, hEntry, hKept.trans hCircuit, hCircuit⟩

/-- The record of a completed job is there, and has the results. -/
theorem holds_of_completed (keeps : setup.admission.KeepsTimes)
    (short : setup.cfg.jobTimeout + max 0 setup.cfg.defaultTtl ≤ recordTtl)
    (run : Reaches step Timed Fresh t) (stored : (t.system.world.jobs key).current = some job)
    (completed : job.status.jobStatus = .completed) :
    ∃ entry, t.system.records (jobKey job.spec.jobID) = some entry ∧
      t.system.Holds job.spec.jobID entry.data := by
  have hSourced := sourced_of_timed run
  have hConfigured := configured_of_run keeps hSourced stored
  obtain ⟨-, hStored⟩ := stored_of_job hSourced stored
  have hScheduled := scheduled_of_run run key
  obtain ⟨s, c, hStart, -, -, hTtl⟩ := hScheduled.ended stored completed
  have hSubmitted : s ≤ t.written (jobKey job.spec.jobID) := hScheduled.started stored hStart
  obtain ⟨ttl, hLimit, hSeconds⟩ := Option.map_eq_some_iff.mp hConfigured.ttl
  have hClock : t.system.world.clock ≤ deadline s job.spec.timeOut + max 0 (ttl.toInt * second) :=
    hTtl ttl hLimit
  have hYoung : t.system.world.clock ≤ t.written (jobKey job.spec.jobID) + recordTtl * second := by
    rw [deadline, hConfigured.timeOut, hSeconds] at hClock
    unfold second at *
    omega
  obtain ⟨entry, hEntry⟩ := (recorded_of_run run hStored).entry hYoung
  exact ⟨entry, hEntry, (finished_of_exited hSourced stored completed).holds hSourced hEntry⟩

/-- Expiry times agree in every run in which jobs complete in time, when the time out and
the TTL of the settings together are no longer than the expiry of a record. -/
theorem expiry_agrees (keeps : setup.admission.KeepsTimes) (limited : 0 < setup.cfg.jobTimeout)
    (short : setup.cfg.jobTimeout + max 0 setup.cfg.defaultTtl ≤ recordTtl)
    (run : Reaches step Timed Fresh t) : Agrees t.system where
  starts := by
    intro key job retries d' hWithin hLaunched
    have hOffers := offers_of_within keeps limited short run hWithin
    cases moves_of_step hLaunched with
    | launched => exact hOffers
  reads := by
    rintro key job uid pod history record next path hWithin hBusy ⟨r, hPod⟩
    obtain ⟨entry, circuit, hEntry, hCircuit, hSubmitted⟩ :=
      offers_of_within keeps limited short run hWithin
    have hSourced := sourced_of_timed run
    obtain ⟨hKey, -⟩ := stored_of_job hSourced hWithin.stored
    cases (Simulator.main_follows pod).call path with
    | @get vars env =>
        obtain ⟨id, hServes, -, hId⟩ := (hosted_of_run hSourced).environment hBusy env
        have hSame : jobNamed setup id = key := Process.serves_unique hServes ⟨r, hPod⟩
        rw [hKey] at hSame
        rw [jobNamed_injective hSame] at hId
        refine ⟨entry.data, circuit, ?_, hCircuit, hSubmitted⟩
        simp [respondSimulator, Simulator.ConfigVars.recordKey, hId, hEntry]
  results := fun hStored hCompleted => holds_of_completed keeps short run hStored hCompleted

/-- A number of the schema's format `int32`. -/
def toInt32 (n : Int) : Option Int32 :=
  if -2 ^ 31 ≤ n ∧ n < 2 ^ 31 then some (.ofInt n) else none

theorem toInt_of_toInt32 {n : Int} {m : Int32} (h : toInt32 n = some m) : m.toInt = n := by
  unfold toInt32 at h
  split at h
  · rename_i hRange
    cases h
    exact Int32.toInt_ofInt_of_le hRange.1 hRange.2
  · cases h

/-- The schema on a body that sets its retries and times. -/
def admitTimes (body : Service.JobBody) : Option QuantumAerJobSpec := do
  let spec ← Service.admitDefaults body
  let maxRetries ← toInt32 body.maxRetries
  let timeOut ← toInt32 body.timeOut
  let ttl ← toInt32 body.ttlSecondsAfterFinished
  return { spec with
    maxRetries := maxRetries, timeOut := timeOut, ttlSecondsAfterFinished := some ttl }

theorem admitTimes_inv {body : Service.JobBody} {spec : QuantumAerJobSpec}
    (h : admitTimes body = some spec) :
    ∃ defaults timeOut ttl, Service.admitDefaults body = some defaults ∧
      spec.jobID = defaults.jobID ∧ toInt32 body.timeOut = some timeOut ∧ spec.timeOut = timeOut ∧
      toInt32 body.ttlSecondsAfterFinished = some ttl ∧
      spec.ttlSecondsAfterFinished = some ttl := by
  obtain ⟨defaults, hDefaults, hRest⟩ := Option.bind_eq_some_iff.mp h
  obtain ⟨maxRetries, -, hRest⟩ := Option.bind_eq_some_iff.mp hRest
  obtain ⟨timeOut, hTimeOut, hRest⟩ := Option.bind_eq_some_iff.mp hRest
  obtain ⟨ttl, hTtl, hSpec⟩ := Option.bind_eq_some_iff.mp hRest
  cases hSpec
  exact ⟨defaults, timeOut, ttl, hDefaults, rfl, hTimeOut, rfl, hTtl, rfl⟩

def timesAdmission : Service.Admission where
  admitted := admitTimes
  jobID := by
    intro body spec hAdmitted
    obtain ⟨defaults, -, -, hDefaults, hId, -⟩ := admitTimes_inv hAdmitted
    rw [hId]
    exact Service.sampleAdmission.jobID hDefaults

theorem timesAdmission_keepsTimes : timesAdmission.KeepsTimes := by
  intro body spec hAdmitted
  obtain ⟨-, timeOut, ttl, -, -, hTimeOut, hSet, hTtl, hLimit⟩ := admitTimes_inv hAdmitted
  constructor
  · rw [hSet]
    exact toInt_of_toInt32 hTimeOut
  · rw [hLimit, Option.map_some, toInt_of_toInt32 hTtl]

/-- The system of the examples, with another time out. -/
def timedSetup (jobTimeout : Int) : Setup :=
  ⟨Service.sampleQiskit, Simulator.sampleAer,
    { Service.sampleConfig with jobTimeout := jobTimeout }, id, timesAdmission⟩

def timedEmpty (jobTimeout : Int) : Dated (timedSetup jobTimeout) := ⟨.empty _, fun _ => 0⟩

theorem timedEmpty_fresh (jobTimeout : Int) : Fresh (timedEmpty jobTimeout) :=
  ⟨.empty _, fun _ => Int.le_refl _⟩

section Runs
variable (jobTimeout : Int)

def timedPass (replies : List World.Reply) : List (Action (timedSetup jobTimeout)) :=
  (World.pass World.sampleKey replies).map .cluster

/-- Job `1` is submitted and started, and its first pod is created and found. -/
def timedStart : List (Action (timedSetup jobTimeout)) :=
  [.receive 0 (.transpile (.ok Service.sampleRequest)), .serve 0 (.text Service.sampleNow),
    .serve 0 (.text Service.sampleNow), .serve 0 .ok, .serve 0 .ok] ++
    timedPass jobTimeout [.read 0, .ok, .ok] ++
    timedPass jobTimeout [.read 0, .ok, .ok, .ok, .ok] ++
    timedPass jobTimeout [.read 0, .ok, .read 0, .ok]

/-- The job completes at 600 s, and its TTL has passed at 900 s. -/
def timedRun : List (Action (timedSetup jobTimeout)) :=
  timedStart jobTimeout ++ [.launch World.sampleKey 0, .simulate 2 .ok, .simulate 2 .ok,
    .simulate 2 .ok, .simulate 2 (.value "e30="), .simulate 2 .ok,
    .simulate 2 (.text Service.sampleNow), .simulate 2 .ok,
    .cluster (.setPhase (simulatorPodKey World.sampleKey 0) .succeeded),
    .cluster (.setClock (600 * second))] ++
    timedPass jobTimeout [.read 0, .ok, .read 0, .ok, .ok] ++ [.cluster (.setClock (900 * second))]

/-- The first pod fails, and Redis drops the record before the job is retried. -/
def expiredRun : List (Action (timedSetup jobTimeout)) :=
  timedStart jobTimeout ++ [.launch World.sampleKey 0, .stop 2,
    .cluster (.setPhase (simulatorPodKey World.sampleKey 0) .failed),
    .cluster (.setClock (1201 * second)), .expire "job:1"] ++
    timedPass jobTimeout [.read 0, .ok, .read 0, .ok, .ok] ++
    timedPass jobTimeout [.read 0, .ok, .ok, .ok, .ok]

end Runs

/-- Executing actions that pass the checks of `Timed`. -/
theorem timed_of_runActions {jobTimeout : Int} {actions : List (Action (timedSetup jobTimeout))}
    {t : Dated (timedSetup jobTimeout)}
    (along : AllowedAlong step (fun t a => t.system.managed a = true ∧ OnTime t a ∧
      CompletesInTime t a) (timedEmpty jobTimeout) actions)
    (executed : runActions step (timedEmpty jobTimeout) actions = some t) :
    Reaches step Timed Fresh t := by
  have hReached := (Reaches.start (timedEmpty_fresh jobTimeout)).runActions along executed
  apply hReached.mono fun _ fresh => fresh
  rintro s a ⟨hManaged, hOnTime, hInTime⟩
  exact ⟨(managed_of_check hManaged).sourced, hOnTime, hInTime⟩

theorem expiry_agrees_completed : ∃ t job entry,
    runActions step (timedEmpty 600) (timedRun 600) = some t ∧
    (t.system.world.jobs World.sampleKey).current = some job ∧
    job.status.jobStatus = .completed ∧ t.system.world.clock = 900 * second ∧
    t.system.records (jobKey job.spec.jobID) = some entry ∧
    t.system.Holds job.spec.jobID entry.data := by
  have hRun : (runActions step (timedEmpty 600) (timedRun 600)).isSome := by decide +kernel
  obtain ⟨t, ht⟩ := Option.isSome_iff_exists.mp hRun
  have hReached : Reaches step Timed Fresh t := timed_of_runActions (by decide +kernel) ht
  have hAgrees := expiry_agrees timesAdmission_keepsTimes (by decide) (by decide) hReached
  have hSeen : (runActions step (timedEmpty 600) (timedRun 600)).map (fun t =>
      (t.system.world.clock,
        (t.system.world.jobs World.sampleKey).current.map (·.status.jobStatus))) =
      some (900 * second, some .completed) := by decide +kernel
  rw [ht, Option.map_some, Option.some.injEq, Prod.mk.injEq, Option.map_eq_some_iff] at hSeen
  obtain ⟨hClock, job, hJob, hCompleted⟩ := hSeen
  obtain ⟨entry, hEntry, hHolds⟩ := hAgrees.results hJob hCompleted
  exact ⟨t, job, entry, ht, hJob, hCompleted, hClock, hEntry, hHolds⟩

/-- With a time out of an hour the second attempt starts in time, after 1201 s, and
finds no circuit. -/
theorem expiry_disagrees : ¬ ∀ (setup : Setup) (t : Dated setup), setup.admission.KeepsTimes →
    Reaches step Timed Fresh t → Agrees t.system := by
  intro claim
  have hRun : (runActions step (timedEmpty 3600) (expiredRun 3600)).isSome := by decide +kernel
  obtain ⟨t, ht⟩ := Option.isSome_iff_exists.mp hRun
  have hReached : Reaches step Timed Fresh t := timed_of_runActions (by decide +kernel) ht
  have hStored : (runActions step (timedEmpty 3600) (expiredRun 3600)).map (fun t =>
      (t.system.world.jobs World.sampleKey).current.map fun job =>
        (job.status.jobStatus, job.status.startTime, job.spec.timeOut, job.spec.jobID)) =
      some (some (.pending, some 0, 3600, "1")) := by decide +kernel
  have hLaunch : (runActions step (timedEmpty 3600) (expiredRun 3600)).map (fun t =>
      (t.system.world.clock, (t.system.step (.launch World.sampleKey 1)).map fun d =>
        (d.records "job:1").isNone)) = some (1201 * second, some true) := by decide +kernel
  rw [ht, Option.map_some, Option.some.injEq, Option.map_eq_some_iff] at hStored
  rw [ht, Option.map_some, Option.some.injEq, Prod.mk.injEq, Option.map_eq_some_iff] at hLaunch
  obtain ⟨job, hJob, hStatus⟩ := hStored
  obtain ⟨hClock, d, hLaunched, hNone⟩ := hLaunch
  simp only [Prod.mk.injEq] at hStatus
  obtain ⟨hState, hStart, hTimeOut, hId⟩ := hStatus
  have hActive : ¬ job.status.jobStatus.Terminal := by
    rw [hState]
    exact JobState.not_terminal_pending
  have hInTime : t.system.world.clock ≤ deadline 0 job.spec.timeOut := by
    rw [hClock, hTimeOut]
    decide
  have hWithin : t.system.Within World.sampleKey job :=
    ⟨hJob, hActive, 0, hStart, fun _ => hInTime⟩
  obtain ⟨entry, circuit, hEntry, -⟩ :=
    (claim _ t timesAdmission_keepsTimes hReached).starts hWithin hLaunched
  have hKey : jobKey job.spec.jobID = "job:1" := by rw [hId]; rfl
  rw [hKey] at hEntry
  rw [hEntry] at hNone
  cases hNone

end Dated
end QuantumService
