import QuantumService.Deployment.Processes
import QuantumService.Service.Sites

/-! The cluster and the processes in one run. Jobs come from submissions only, pods
of jobs from their controller only, and each process from one such pod. -/
namespace QuantumService
open Interaction Cluster Controller

namespace Deployment
variable {setup : Setup} {d d' : Deployment setup}

/-- The identifier a submission takes with this action. -/
def submits (d : Deployment setup) : Action setup → Option String
  | .receive _ endpoint => endpoint.suppliedId
  | .serve i (.text id) =>
      match d.requests i with
      | some ⟨_, _, .ask .uuid4 _, _⟩ => some id
      | _ => none
  | _ => none

/-- Each identifier is submitted once, jobs are created by submissions only, and
their pods created and deleted by the controller only. -/
structure Managed (d : Deployment setup) (a : Action setup) : Prop where
  once : ∀ id, d.submits a = some id → id ∉ d.submitted
  sole : ∀ key spec, a ≠ .cluster (.createJob key spec)
  alone : ∀ pod, a = .cluster (.createPod pod) → ∀ key r, pod.key ≠ simulatorPodKey key r
  removes : ∀ key r, a = .cluster (.removePod (simulatorPodKey key r)) →
    ∀ pod ∈ (d.world.pods (simulatorPodKey key r)).current, pod.deletionRequested = true

/-- What of this processes and records rest on, also when pods disappear. -/
structure Sourced (d : Deployment setup) (a : Action setup) : Prop where
  once : ∀ id, d.submits a = some id → id ∉ d.submitted
  sole : ∀ key spec, a ≠ .cluster (.createJob key spec)
  alone : ∀ pod, a = .cluster (.createPod pod) → ∀ key r, pod.key ≠ simulatorPodKey key r

theorem Managed.sourced {a : Action setup} (managed : Managed d a) : Sourced d a :=
  ⟨managed.once, managed.sole, managed.alone⟩

/-- A reconcile moves a job to in progress after an inconclusive pod lookup. -/
def guesses (d : Deployment setup) : Action setup → Bool
  | .cluster (.answer key reply) => (d.world.view key).guesses reply
  | _ => false

/-- What is allowed in the runs in which no reconcile guesses. -/
structure Sure (d : Deployment setup) (a : Action setup) : Prop where
  managed : Managed d a
  sure : d.guesses a = false

/-- A system in which nothing has happened yet, and no pod has a job's name. -/
structure Fresh (d : Deployment setup) : Prop where
  initial : Initial d
  unused : ∀ key r, (d.world.pods (simulatorPodKey key r)).Unused

theorem sourced_of_run (run : Reaches step Sure Fresh d) : Reaches step Sourced Fresh d :=
  run.mono (fun _ h => h) fun _ _ h => h.managed.sourced

theorem Fresh.empty (setup : Setup) : Fresh (.empty setup) :=
  ⟨.empty setup, fun _ _ _ hMem => nomatch List.mem_singleton.mp hMem⟩

/-- The name of the job with this identifier. -/
def jobNamed (setup : Setup) (id : String) : NamespacedName :=
  ⟨setup.cfg.k8sNamespace, Service.jobName (.str id)⟩

theorem jobName_injective {id id' : String}
    (h : Service.jobName (.str id) = Service.jobName (.str id')) : id = id' := by
  have hText : ∀ id, Service.jobName (.str id) = "qjob-" ++ id := fun _ => rfl
  rw [hText, hText] at h
  exact (String.append_right_inj "qjob-").mp h

theorem jobNamed_injective {id id' : String} (h : jobNamed setup id = jobNamed setup id') :
    id = id' :=
  jobName_injective (congrArg NamespacedName.name h)

/-- The name of a job is made of its identifier. -/
def Origin (setup : Setup) (key : NamespacedName) (spec : QuantumAerJobSpec) : Prop :=
  key = jobNamed setup spec.jobID

section Sites
variable {endpoint : Endpoint} {history : Service.History setup.q} {call : Service.Call}
  {next : call.Answer setup.q → Service.Handler setup.q Service.Response}

/-- A request is at one of the sites of its endpoint. -/
inductive RequestSite (setup : Setup) (history : Service.History setup.q) (call : Service.Call) :
    Endpoint → Prop where
  | transpile {body : Except String Object}
      (site : Service.Site setup.cfg (Service.suppliedId body) history call) :
      RequestSite setup history call (.transpile body)
  | status {jobID : String} (site : Service.PollSite setup.cfg jobID history call) :
      RequestSite setup history call (.status jobID)
  | result {jobID : String} (site : Service.PollSite setup.cfg jobID history call) :
      RequestSite setup history call (.result jobID)

theorem site_of_request (path : Program.Path (endpoint.program setup) history (.ask call next)) :
    RequestSite setup history call endpoint := by
  cases endpoint with
  | transpile body =>
      exact .transpile ((Service.transpile_follows setup.cfg setup.trace body).call path)
  | status jobID => exact .status ((Service.getJobStatusEndpoint_follows setup.cfg jobID).call path)
  | result jobID => exact .result ((Service.getJobResultEndpoint_follows setup.cfg jobID).call path)

/-- A request that writes a record is a submission, and writes no other. -/
theorem RequestSite.setex_inv {key : String} {ttl : Nat} {data : JobData}
    (site : RequestSite setup history (.setex key ttl data) endpoint) :
    ∃ body id circuit createdAt updatedAt, endpoint = .transpile body ∧ key = jobKey id ∧
      Service.identifier (Service.suppliedId body) history = some id ∧
      Service.Unwritten history ∧ data = ⟨some circuit, none, createdAt, updatedAt⟩ := by
  cases site with
  | @transpile body site =>
      cases site with
      | setex identified first => exact ⟨body, _, _, _, _, rfl, rfl, identified, first, rfl⟩
  | status site => cases site
  | result site => cases site

theorem Endpoint.suppliedId_transpile (body : Except String Object) :
    (Endpoint.transpile body).suppliedId = Service.suppliedId body := by
  cases body <;> rfl

end Sites

section Causes
variable {a : Action setup} {wa : World.Action}

/-- What an action does to the cluster is up to the claims on it. -/
theorem Sourced.issues (sourced : Sourced d a) (causes : Causes d a wa) (key : NamespacedName) :
    World.Issues key (Origin setup key) d.world wa := by
  cases causes with
  | cluster own =>
      constructor
      · rintro spec rfl
        exact absurd rfl (sourced.sole key spec)
      · intro pod hPlaced r
        cases wa with
        | createPod pod' =>
            cases hPlaced
            exact sourced.alone pod rfl key r
        | createJob | reconcile | answer | finish | patchError | setClock | setPhase
        | removePod => cases hPlaced
  | @created i endpoint history body spec reply next path busy admitted =>
      constructor
      · intro spec' hAction
        cases hAction
        have hId := setup.admission.jobID admitted
        cases site_of_request path with
        | transpile site =>
            cases site with
            | createCustomObject identified named jobID stored =>
                rw [hId] at jobID
                rw [Origin, named, ← jobID]
                rfl
        | status site => cases site
        | result site => cases site
      · rintro pod ⟨⟩
  | patched busy applied =>
      constructor
      · rintro spec ⟨⟩
      · rintro pod ⟨⟩

theorem Sure.cautious (sure : Sure d a) (causes : Causes d a wa) (key : NamespacedName) :
    World.Cautious key d.world wa where
  alone := (sure.managed.sourced.issues causes key).alone
  removes := by
    rintro r rfl
    cases causes with
    | cluster own => exact sure.managed.removes key r rfl
  sure := by
    rintro reply rfl
    cases causes with
    | cluster own => exact sure.sure

end Causes

/-! What a run of the system says about its cluster. -/

section Run
variable (run : Reaches step Sourced Fresh d) (key : NamespacedName)
include run

theorem sound_of_run : (d.world.view key).Sound :=
  World.sound_of_reaches (cluster_of_run (fun _ fresh => fresh.initial.world) run) key

theorem informed_of_run : (d.world.view key).Informed :=
  World.informed_of_reaches (cluster_of_run (fun _ fresh => fresh.initial.world) run) key

theorem issues_of_run :
    Reaches World.step (World.Issues key (Origin setup key)) (World.Unused key) d.world :=
  cluster_reaches (fun _ fresh => ⟨fresh.initial.world, fresh.unused key⟩)
    (fun _ _ _ _ sourced causes => sourced.issues causes key) run

theorem traced_of_run : (d.world.view key).Traced (Origin setup key) :=
  World.traced_of_reaches (issues_of_run run key)

theorem inhabited_of_run : (d.world.view key).Inhabited :=
  World.inhabited_of_reaches (issues_of_run run key)

theorem distinct_of_run : World.Distinct d.world := by
  have hCluster : Reaches World.step (fun _ _ => True) (fun w => ∀ key, World.Unused key w)
      d.world :=
    cluster_reaches (fun _ fresh key => ⟨fresh.initial.world, fresh.unused key⟩)
      (fun _ _ _ _ _ _ => trivial) run
  exact World.distinct_of_reaches hCluster

end Run

section Sure
variable (run : Reaches step Sure Fresh d) (key : NamespacedName)
include run

theorem cautious_of_run : Reaches World.step (World.Cautious key) (World.Unused key) d.world :=
  cluster_reaches (fun _ fresh => ⟨fresh.initial.world, fresh.unused key⟩)
    (fun _ _ _ _ sure causes => sure.cautious causes key) run

theorem steady_of_run : (d.world.view key).Steady :=
  World.steady_of_reaches (cautious_of_run run key)

theorem singleAttempt_of_run : (d.world.view key).SingleAttempt :=
  World.singleAttempt_of_reaches (fun _ _ cautious => cautious.alone)
    ((cautious_of_run run key).mono (fun _ unused => unused.vacant) fun _ _ h => h)

end Sure

/-- What a step does to the cluster and the processes. -/
inductive Turns (d : Deployment setup) (a : Action setup) (d' : Deployment setup) : Prop where
  | idle (world : d'.world = d.world) (processes : d'.processes = d.processes)
  | cluster {wa : World.Action} (causes : Causes d a wa)
      (own : ∀ key message, wa ≠ .patchError key message)
      (reported : ∀ key phase pod, wa = .setPhase key phase →
        (d.world.pods key).current = some pod → d.reports pod phase = true)
      (stepped : d.world.step wa = some d'.world) (processes : d'.processes = d.processes)
  | launched {key : NamespacedName} {retries : Int32} {pod : Pod}
      (present : (d.world.pods (simulatorPodKey key retries)).current = some pod)
      (fresh : d.processes pod.uid = none) (live : pod.deletionRequested = false)
      (world : d'.world = d.world)
      (processes : d'.processes = Function.update d.processes pod.uid (some (.start setup pod)))
  | resumed {uid : Nat} {process : Process setup} (process' : Process setup)
      (busy : d.processes uid = some process) (running : process.running = true)
      (same : process'.pod = process.pod) (grown : process.history ⊆ process'.history)
      (cleared : Simulator.Cleared process'.history → Simulator.Cleared process.history)
      (world : d'.world = d.world)
      (processes : d'.processes = Function.update d.processes uid (some process'))
  | patched {uid : Nat} {process : Process setup} (process' : Process setup)
      {key : NamespacedName} {message : String} (busy : d.processes uid = some process)
      (running : process.running = true) (same : process'.pod = process.pod)
      (grown : process.history ⊆ process'.history)
      (cleared : Simulator.Cleared process'.history → message = "")
      (site : Simulator.Site process.pod process.history (.patchStatus key message))
      (stepped : d.world.step (.patchError key message) = some d'.world)
      (processes : d'.processes = Function.update d.processes uid (some process'))

theorem Moves.turns {a : Action setup} (h : Moves d a d') : Turns d a d' := by
  cases h with
  | cluster stepped own reported => exact .cluster (.cluster own) own reported stepped rfl
  | receive | expired => exact .idle rfl rfl
  | served busy effect =>
      cases effect with
      | created admitted stepped =>
          exact .cluster (.created busy admitted) (by simp) (by simp) stepped rfl
      | backend | uuid4 | strftime | stored | unstored | fetched | unfetched | uncreated | found
      | unfound => exact .idle rfl rfl
  | launched present fresh live => exact .launched present fresh live rfl rfl
  | @stopped uid process busy running =>
      exact .resumed { process with stopped := true } busy running rfl (fun _ hMem => hMem) id
        rfl rfl
  | @simulated uid pod history call reply answer next path middle busy effect =>
      have hRunning := @Process.running_of_ask setup pod history call next path
      cases effect with
      | @patched key message w answer applied stepped =>
          have hSite := (Simulator.main_follows pod).call path
          exact .patched ⟨pod, _, _, path.snoc answer, false⟩ busy hRunning rfl
            (fun _ hMem => List.mem_append_left _ hMem)
            (fun hCleared => hCleared.only (last_mem _)) hSite stepped rfl
      | loadIncluster | ping | fetched | unfetched | runSimulation | unpatched | strftime | stored
      | unstored =>
          refine .resumed ⟨pod, _, _, path.snoc _, false⟩ busy hRunning rfl
            (fun _ hMem => List.mem_append_left _ hMem)
            (fun hCleared => hCleared.of_snoc ?_) rfl rfl
          rintro key ⟨⟩

/-- Each process runs in the pod with its UID, which its job's controller made. -/
structure Hosted (w : World) (processes : Nat → Option (Process setup)) : Prop where
  fresh : ∀ {uid process}, processes uid = some process → uid < w.next
  built : ∀ {uid process}, processes uid = some process →
    ∃ key, process.Serves key ∧ JobView.Built key (Origin setup key) process.pod
  same : ∀ {key r pod process}, some pod ∈ (w.pods (simulatorPodKey key r)).visible →
    processes pod.uid = some process → process.pod.key = simulatorPodKey key r

namespace Hosted
variable {w w' : World} {processes : Nat → Option (Process setup)}

theorem step (hosted : Hosted w processes) {wa : World.Action} (stepped : w.step wa = some w') :
    Hosted w' processes := by
  obtain ⟨q, hLater, hAssigned⟩ := (World.moves_of_step stepped).assigns
  constructor
  · intro uid process hProcess
    exact Nat.lt_of_lt_of_le (hosted.fresh hProcess) hLater
  · exact hosted.built
  · intro key r pod process hMem hProcess
    rcases hAssigned hMem with ⟨before, hBefore, hUid⟩ | ⟨-, hUid, -⟩
    · rw [← hUid] at hProcess
      exact hosted.same hBefore hProcess
    · have hFresh := hosted.fresh hProcess
      omega

theorem resume (hosted : Hosted w processes) {uid : Nat} {process process' : Process setup}
    (busy : processes uid = some process) (same : process'.pod = process.pod) :
    Hosted w (Function.update processes uid (some process')) := by
  constructor
  · intro u other hOther
    rcases update_cases hOther with ⟨rfl, rfl⟩ | hOld
    · exact hosted.fresh busy
    · exact hosted.fresh hOld
  · intro u other hOther
    rcases update_cases hOther with ⟨rfl, rfl⟩ | hOld
    · obtain ⟨key, ⟨r, hr⟩, hBuilt⟩ := hosted.built busy
      rw [← same] at hr hBuilt
      exact ⟨key, ⟨r, hr⟩, hBuilt⟩
    · exact hosted.built hOld
  · intro key r pod other hMem hOther
    rcases update_cases hOther with ⟨hUid, rfl⟩ | hOld
    · rw [← hUid] at busy
      rw [same]
      exact hosted.same hMem busy
    · exact hosted.same hMem hOld

theorem launch (hosted : Hosted w processes) (distinct : World.Distinct w)
    {key : NamespacedName} {r : Int32} {pod : Pod}
    (mem : some pod ∈ (w.pods (simulatorPodKey key r)).visible)
    (keyed : pod.key = simulatorPodKey key r)
    (built : JobView.Built key (Origin setup key) pod) :
    Hosted w (Function.update processes pod.uid (some (.start setup pod))) := by
  constructor
  · intro u other hOther
    rcases update_cases hOther with ⟨rfl, rfl⟩ | hOld
    · exact distinct.fresh mem
    · exact hosted.fresh hOld
  · intro u other hOther
    rcases update_cases hOther with ⟨rfl, rfl⟩ | hOld
    · exact ⟨key, ⟨r, keyed⟩, built⟩
    · exact hosted.built hOld
  · intro key' r' pod' other hMem hOther
    rcases update_cases hOther with ⟨hUid, rfl⟩ | hOld
    · exact keyed.trans (distinct.unique mem hMem hUid.symm)
    · exact hosted.same hMem hOld

theorem housed (hosted : Hosted w processes) (key : NamespacedName) :
    JobView.Housed (w.view key) processes where
  fresh := hosted.fresh
  served := fun hMem hProcess => ⟨_, hosted.same hMem hProcess⟩

/-- A simulator patches its own job, and reads and writes its own record. -/
theorem environment (hosted : Hosted w processes) {uid : Nat} {process : Process setup}
    {vars : Simulator.ConfigVars} (busy : processes uid = some process)
    (env : Simulator.getEnvVars process.pod = .ok vars) :
    ∃ id, process.Serves (jobNamed setup id) ∧ vars.job = jobNamed setup id ∧
      vars.jobId = some id := by
  obtain ⟨key, hServes, job, hKey, hOrigin, hContainers⟩ := hosted.built busy
  obtain ⟨hId, hJob⟩ := Simulator.getEnvVars_of_simulatorPod hContainers env
  have hNamed : key = jobNamed setup job.spec.jobID := hOrigin
  rw [hNamed] at hServes hKey
  exact ⟨job.spec.jobID, hServes, hJob.trans hKey, hId⟩

theorem turn (hosted : Hosted d.world d.processes) (sound : ∀ key, (d.world.view key).Sound)
    (distinct : World.Distinct d.world)
    (traced : ∀ key, (d.world.view key).Traced (Origin setup key)) {a : Action setup}
    (h : Turns d a d') : Hosted d'.world d'.processes := by
  cases h with
  | idle world processes =>
      rw [world, processes]
      exact hosted
  | cluster causes own reported stepped processes =>
      rw [processes]
      exact hosted.step stepped
  | @launched key retries pod present fresh live world processes =>
      have hMem : some pod ∈ ((d.world.view key).pods retries).visible :=
        present ▸ Register.current_mem_visible _
      rw [world, processes]
      exact hosted.launch distinct hMem ((sound key).podKeyed hMem) ((traced key).pods hMem)
  | resumed process' busy running same grown cleared world processes =>
      rw [world, processes]
      exact hosted.resume busy same
  | patched process' busy running same grown cleared site stepped processes =>
      rw [processes]
      exact (hosted.step stepped).resume busy same

end Hosted

theorem hosted_of_run (run : Reaches step Sourced Fresh d) : Hosted d.world d.processes := by
  apply run.invariant
  · intro s fresh
    have hIdle : ∀ {uid process}, s.processes uid ≠ some process := by
      intro uid process hProcess
      rw [fresh.initial.idle] at hProcess
      cases hProcess
    exact ⟨fun h => absurd h hIdle, fun h => absurd h hIdle, fun _ h => absurd h hIdle⟩
  · intro s a t reached hosted _ stepped
    exact hosted.turn (sound_of_run reached) (distinct_of_run reached) (traced_of_run reached)
      (moves_of_step stepped).turns

/-- A process has a job that was created. -/
theorem created_of_process (run : Reaches step Sourced Fresh d) {uid : Nat}
    {process : Process setup} {key : NamespacedName} (busy : d.processes uid = some process)
    (serves : process.Serves key) : key ∈ d.world.created := by
  have hAll : ∀ uid process, d.processes uid = some process → process.Serves key →
      key ∈ d.world.created := by
    apply run.invariant
    · intro s fresh uid process hProcess
      rw [fresh.initial.idle] at hProcess
      cases hProcess
    · intro s a t reached created _ stepped uid process hProcess hServes
      have hResumed : ∀ {u : Nat} {before after : Process setup}, s.processes u = some before →
          after.pod = before.pod → Function.update s.processes u (some after) uid = some process →
          key ∈ s.world.created := by
        intro u before after hBusy hSame hUpdated
        rcases update_cases hUpdated with ⟨rfl, rfl⟩ | hOld
        · obtain ⟨r, hr⟩ := hServes
          rw [hSame] at hr
          exact created _ _ hBusy ⟨r, hr⟩
        · exact created uid process hOld hServes
      cases (moves_of_step stepped).turns with
      | idle world processes =>
          rw [processes] at hProcess
          rw [world]
          exact created uid process hProcess hServes
      | cluster causes own reported stepped processes =>
          rw [processes] at hProcess
          exact World.created_subset stepped (created uid process hProcess hServes)
      | @launched target retries pod present fresh live world processes =>
          rw [processes] at hProcess
          rw [world]
          rcases update_cases hProcess with ⟨rfl, rfl⟩ | hOld
          · have hMem : some pod ∈ ((s.world.view target).pods retries).visible :=
              present ▸ Register.current_mem_visible _
            have hTarget : (Process.start setup pod).Serves target :=
              ⟨retries, (sound_of_run reached target).podKeyed hMem⟩
            rw [Process.serves_unique hServes hTarget]
            exact inhabited_of_run reached target retries pod hMem
          · exact created uid process hOld hServes
      | resumed process' busy running same grown cleared world processes =>
          rw [processes] at hProcess
          rw [world]
          exact hResumed busy same hProcess
      | patched process' busy running same grown cleared site stepped processes =>
          rw [processes] at hProcess
          exact World.created_subset stepped (hResumed busy same hProcess)
  exact hAll uid process busy serves

theorem succeeded_of_reports {pod : Pod} (h : d.reports pod .succeeded = true) :
    ∃ process, d.processes pod.uid = some process ∧ process.exitCode = some 0 := by
  unfold reports at h
  cases hProcess : d.processes pod.uid with
  | none => simp [hProcess] at h
  | some process =>
      have hExit : process.stopped = false ∧ process.exitCode = some 0 := by
        simpa [hProcess] using h
      exact ⟨process, rfl, hExit.2⟩

theorem failed_of_reports {pod : Pod} (h : d.reports pod .failed = true) :
    ∃ process, d.processes pod.uid = some process ∧ process.running = false := by
  unfold reports at h
  cases hProcess : d.processes pod.uid with
  | none => simp [hProcess] at h
  | some process =>
      have hEnded : process.running = false ∧
          (process.stopped = true ∨ ¬ process.exitCode = some 0) := by
        simpa [hProcess] using h
      exact ⟨process, rfl, hEnded.1⟩

/-- A patch reaches the job of the process, and its message only. -/
theorem Hosted.patch {w w' : World} {key target : NamespacedName}
    {processes : Nat → Option (Process setup)} {uid : Nat} {process process' : Process setup}
    {message : String} (hosted : Hosted w processes)
    (accounted : (w.view key).Accounted processes) (sound : (w.view key).Sound)
    (steady : (w.view key).Steady) (busy : processes uid = some process)
    (running : process.running = true) (serves : process.Serves target)
    (same : process'.pod = process.pod)
    (cleared : Simulator.Cleared process'.history → message = "")
    (stepped : w.step (.patchError target message) = some w') :
    (w'.view key).Accounted (Function.update processes uid (some process')) := by
  have hElsewhere : target ≠ key →
      (w.view key).Accounted (Function.update processes uid (some process')) := by
    intro hKey
    apply accounted.resume busy running same
    rintro job r pod - - hMem rfl -
    have hServes : process.Serves key := ⟨r, hosted.same hMem busy⟩
    exact absurd (process.serves_unique serves hServes) hKey
  cases World.moves_of_step stepped with
  | @unpatched _ _ stored present unchanged =>
      by_cases hKey : target = key
      · subst hKey
        apply accounted.resume busy running same
        intro job r pod hStored _ _ _ hCleared
        have hSame : stored = job := Option.some.inj (present.symm.trans hStored)
        right
        rw [← hSame, unchanged]
        exact cleared hCleared
      · exact hElsewhere hKey
  | @patched _ _ stored present =>
      by_cases hKey : target = key
      · subst hKey
        rw [World.view_setJob]
        exact accounted.patch sound steady busy running serves same cleared present w.next
      · rw [World.view_setJob_of_ne _ hKey]
        exact { hElsewhere hKey with }

theorem accounted_of_fresh (fresh : Fresh d) (key : NamespacedName) :
    (d.world.view key).Accounted d.processes := by
  have hIdle : ∀ {uid process}, d.processes uid ≠ some process := by
    intro uid process hProcess
    rw [fresh.initial.idle] at hProcess
    cases hProcess
  have hNone : ∀ {job}, (d.world.view key).job.current ≠ some job := by
    intro job hStored
    have hJob : (d.world.view key).job = .synced none := fresh.initial.world.jobs key
    rw [hJob] at hStored
    cases hStored
  exact {
    uncreated := fun _ hProcess => absurd hProcess hIdle
    succeeded := fun hMem => absurd hMem (fresh.unused key _ _)
    failed := fun hMem => absurd hMem (fresh.unused key _ _)
    running := fun hProcess => absurd hProcess hIdle
    halted := fun hStored => absurd hStored hNone
    cleared := fun hStored => absurd hStored hNone
    completed := fun hStored => absurd hStored hNone }

/-- Processes and status agree in every run in which no reconcile guesses. -/
theorem accounted_of_run (run : Reaches step Sure Fresh d) (key : NamespacedName) :
    (d.world.view key).Accounted d.processes := by
  have hAll : ∀ key, (d.world.view key).Accounted d.processes := by
    apply run.invariant fun s fresh => accounted_of_fresh fresh
    intro s a t reached accounted sure stepped key
    have hSourced := sourced_of_run reached
    have hSound := sound_of_run hSourced
    have hSteady := steady_of_run reached key
    have hSingle := singleAttempt_of_run reached key
    have hHosted := hosted_of_run hSourced
    cases (moves_of_step stepped).turns with
    | idle world processes =>
        rw [world, processes]
        exact accounted key
    | cluster causes own reported stepped processes =>
        have hCautious := sure.cautious causes key
        have hMoves := World.view_moves hSound stepped key
        rw [processes]
        apply (accounted key).cluster (hHosted.housed key) (hSound key) hSteady
          (informed_of_run hSourced key) hSingle _ _ _ (own key) hMoves
        · rintro pod rfl r
          exact hCautious.alone pod rfl r
        · rintro r pod rfl hPod
          exact hCautious.removes r rfl pod hPod
        · intro r phase pod hAction hPod
          have hReported := reported _ phase pod hAction hPod
          constructor
          · rintro rfl
            exact succeeded_of_reports hReported
          · rintro rfl
            exact failed_of_reports hReported
    | @launched target retries pod present fresh live world processes =>
        have hMem : some pod ∈ ((s.world.view target).pods retries).visible :=
          present ▸ Register.current_mem_visible _
        have hKeyed := (hSound target).podKeyed hMem
        have hServes : (Process.start setup pod).Serves target := ⟨retries, hKeyed⟩
        rw [world, processes]
        apply (accounted key).launch fresh
        · intro hKey
          obtain rfl := Process.serves_unique hServes hKey
          by_contra hFresh
          exact hSteady.uncreated hFresh retries pod hMem
        · intro job hKey hStored
          obtain rfl := Process.serves_unique hServes hKey
          have hNumber := hSingle.current hStored ⟨pod, present, live⟩
          rw [← hNumber]
          exact ⟨present, live⟩
    | resumed process' busy running same grown cleared world processes =>
        rw [world, processes]
        exact (accounted key).resume busy running same
          fun _ _ _ _ hCleared => .inl (cleared hCleared)
    | patched process' busy running same grown cleared site stepped processes =>
        obtain ⟨vars, hEnv, hTarget⟩ := site.patch_inv
        obtain ⟨id, hServes, hJob, -⟩ := hHosted.environment busy hEnv
        rw [← hJob, ← hTarget] at hServes
        rw [processes]
        exact hHosted.patch (accounted key) (hSound key) hSteady busy running hServes same cleared
          stepped
  exact hAll key

end Deployment
end QuantumService
