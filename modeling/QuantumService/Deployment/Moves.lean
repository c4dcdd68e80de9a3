import QuantumService.Deployment.Deployment

/-! What a step of the whole system can do, and what of it the cluster sees. A run
of the system is a run of the cluster in which the simulators alone patch jobs. -/
namespace QuantumService
open Interaction Cluster Controller

/-- An entry of an updated table is the new one, or was there before. -/
theorem update_cases {α : Type} {table : Nat → Option α} {i j : Nat} {x y : α}
    (h : Function.update table i (some x) j = some y) : (j = i ∧ y = x) ∨ table j = some y := by
  by_cases hj : j = i
  · subst hj
    rw [Function.update_self] at h
    exact .inl ⟨rfl, (Option.some.inj h).symm⟩
  · rw [Function.update_of_ne hj] at h
    exact .inr h

namespace Deployment
variable {setup : Setup} {d d' : Deployment setup}

section Components
variable (d) (w : World) (key : String) (value : Option Entry) (uid : Nat)
  (process : Process setup) (i : Nat) (request : Request setup) (id : String) (data : JobData)
  (ttl : Nat)

@[simp] theorem setWorld_world : (d.setWorld w).world = w := rfl
@[simp] theorem setWorld_records : (d.setWorld w).records = d.records := rfl
@[simp] theorem setWorld_processes : (d.setWorld w).processes = d.processes := rfl
@[simp] theorem setWorld_requests : (d.setWorld w).requests = d.requests := rfl
@[simp] theorem setWorld_submitted : (d.setWorld w).submitted = d.submitted := rfl
@[simp] theorem setWorld_circuits : (d.setWorld w).circuits = d.circuits := rfl

@[simp] theorem setRecord_world : (d.setRecord key value).world = d.world := rfl
@[simp] theorem setRecord_records :
    (d.setRecord key value).records = Function.update d.records key value := rfl
@[simp] theorem setRecord_processes : (d.setRecord key value).processes = d.processes := rfl
@[simp] theorem setRecord_requests : (d.setRecord key value).requests = d.requests := rfl
@[simp] theorem setRecord_submitted : (d.setRecord key value).submitted = d.submitted := rfl
@[simp] theorem setRecord_circuits : (d.setRecord key value).circuits = d.circuits := rfl

@[simp] theorem setProcess_world : (d.setProcess uid process).world = d.world := rfl
@[simp] theorem setProcess_records : (d.setProcess uid process).records = d.records := rfl
@[simp] theorem setProcess_processes :
    (d.setProcess uid process).processes = Function.update d.processes uid (some process) := rfl
@[simp] theorem setProcess_requests : (d.setProcess uid process).requests = d.requests := rfl
@[simp] theorem setProcess_submitted : (d.setProcess uid process).submitted = d.submitted := rfl
@[simp] theorem setProcess_circuits : (d.setProcess uid process).circuits = d.circuits := rfl

@[simp] theorem setRequest_world : (d.setRequest i request).world = d.world := rfl
@[simp] theorem setRequest_records : (d.setRequest i request).records = d.records := rfl
@[simp] theorem setRequest_processes : (d.setRequest i request).processes = d.processes := rfl
@[simp] theorem setRequest_requests :
    (d.setRequest i request).requests = Function.update d.requests i (some request) := rfl
@[simp] theorem setRequest_submitted : (d.setRequest i request).submitted = d.submitted := rfl
@[simp] theorem setRequest_circuits : (d.setRequest i request).circuits = d.circuits := rfl

@[simp] theorem submit_world : (d.submit id).world = d.world := rfl
@[simp] theorem submit_records : (d.submit id).records = d.records := rfl
@[simp] theorem submit_processes : (d.submit id).processes = d.processes := rfl
@[simp] theorem submit_requests : (d.submit id).requests = d.requests := rfl
@[simp] theorem submit_submitted : (d.submit id).submitted = id :: d.submitted := rfl
@[simp] theorem submit_circuits : (d.submit id).circuits = d.circuits := rfl

@[simp] theorem store_world : (d.store key data ttl).world = d.world := rfl
@[simp] theorem store_records :
    (d.store key data ttl).records = Function.update d.records key (some ⟨data, ttl⟩) := rfl
@[simp] theorem store_processes : (d.store key data ttl).processes = d.processes := rfl
@[simp] theorem store_requests : (d.store key data ttl).requests = d.requests := rfl
@[simp] theorem store_submitted : (d.store key data ttl).submitted = d.submitted := rfl
@[simp] theorem store_circuits :
    (d.store key data ttl).circuits = Function.update d.circuits key data.circuit := rfl

end Components

/-- What the answer to a call of the service can do and tell. -/
inductive ServiceEffect (d : Deployment setup) (reply : Reply setup.q.Target) :
    (call : Service.Call) → call.Answer setup.q → Deployment setup → Prop where
  | backend {name : Json} {answer : Except String setup.q.Target} :
      ServiceEffect d reply (.backend name) answer d
  | uuid4 {id : String} (generated : reply = .text id) :
      ServiceEffect d reply .uuid4 id (d.submit id)
  | strftime {now : String} : ServiceEffect d reply .strftime now d
  | stored {key : String} {ttl : Nat} {data : JobData} {answer : Except String Unit} :
      ServiceEffect d reply (.setex key ttl data) answer (d.store key data ttl)
  | unstored {key : String} {ttl : Nat} {data : JobData} {err : String} :
      ServiceEffect d reply (.setex key ttl data) (.error err) d
  | fetched {key : String} :
      ServiceEffect d reply (.get key) (.ok ((d.records key).map Entry.data)) d
  | unfetched {key : String} {err : String} : ServiceEffect d reply (.get key) (.error err) d
  | created {body : Service.JobBody} {spec : QuantumAerJobSpec} {w : World}
      {answer : Except String Unit} (admitted : setup.admission.admitted body = some spec)
      (stepped : d.world.step (.createJob body.key spec) = some w) :
      ServiceEffect d reply (.createCustomObject body) answer (d.setWorld w)
  | uncreated {body : Service.JobBody} {err : String} :
      ServiceEffect d reply (.createCustomObject body) (.error err) d
  | found {key : NamespacedName} {job : QuantumAerJob}
      (stored : (d.world.jobs key).current = some job) :
      ServiceEffect d reply (.getCustomObject key) (.ok (some (statusObject job.status))) d
  | unfound {key : NamespacedName} {err : String} :
      ServiceEffect d reply (.getCustomObject key) (.error err) d

/-- What the answer to a call of a simulator can do and tell. -/
inductive SimulatorEffect (d : Deployment setup) (reply : Reply setup.aer.Results) :
    (call : Simulator.Call setup.aer) → call.Answer → Deployment setup → Prop where
  | loadIncluster {answer : Except String Unit} : SimulatorEffect d reply .loadIncluster answer d
  | ping {answer : Except String Unit} : SimulatorEffect d reply .ping answer d
  | fetched {key : String} :
      SimulatorEffect d reply (.get key) (.ok ((d.records key).map Entry.data)) d
  | unfetched {key : String} {err : String} : SimulatorEffect d reply (.get key) (.error err) d
  | runSimulation {circuits : setup.aer.Circuits} {shots : Int} {backendName : String}
      {answer : Except String setup.aer.Results} :
      SimulatorEffect d reply (.runSimulation circuits shots backendName) answer d
  | patched {key : NamespacedName} {message : String} {w : World} {answer : Except String Unit}
      (applied : reply.applied = true)
      (stepped : d.world.step (.patchError key message) = some w) :
      SimulatorEffect d reply (.patchStatus key message) answer (d.setWorld w)
  | unpatched {key : NamespacedName} {message err : String} :
      SimulatorEffect d reply (.patchStatus key message) (.error err) d
  | strftime {now : String} : SimulatorEffect d reply .strftime now d
  | stored {key : String} {ttl : Nat} {data : JobData} {answer : Except String Unit} :
      SimulatorEffect d reply (.setex key ttl data) answer
        (d.setRecord key (some ⟨data, ttl⟩))
  | unstored {key : String} {ttl : Nat} {data : JobData} {err : String} :
      SimulatorEffect d reply (.setex key ttl data) (.error err) d

/-- A write takes effect, or it raises. -/
theorem respondWrite_cases {Value : Type} {written : Option (Deployment setup)}
    {reply : Reply Value} {answer : Except String Unit}
    (h : d.respondWrite written reply = some (answer, d')) :
    (reply.applied = true ∧ written = some d') ∨ (d' = d ∧ ∃ err, answer = .error err) := by
  cases reply with
  | ok =>
      cases written with
      | some d'' =>
          cases h
          exact .inl ⟨rfl, rfl⟩
      | none =>
          cases h
          exact .inr ⟨rfl, _, rfl⟩
  | lost err =>
      cases written with
      | some d'' =>
          cases h
          exact .inl ⟨rfl, rfl⟩
      | none => cases h
  | fail err =>
      cases written <;>
      · cases h
        exact .inr ⟨rfl, _, rfl⟩
  | value | text => cases written <;> cases h

theorem serviceEffect {call : Service.Call} {reply : Reply setup.q.Target}
    {answer : call.Answer setup.q} (h : d.respondService call reply = some (answer, d')) :
    ServiceEffect d reply call answer d' := by
  cases call with
  | backend name =>
      cases reply <;> cases h <;> exact .backend
  | uuid4 =>
      cases reply <;> cases h
      exact .uuid4 rfl
  | strftime =>
      cases reply <;> cases h
      exact .strftime
  | setex key ttl data =>
      rcases respondWrite_cases h with ⟨-, hWritten⟩ | ⟨rfl, err, rfl⟩
      · cases hWritten
        exact .stored
      · exact .unstored
  | get key =>
      cases reply <;> cases h
      · exact .fetched
      · exact .unfetched
  | createCustomObject body =>
      rcases respondWrite_cases h with ⟨-, hWritten⟩ | ⟨rfl, err, rfl⟩
      · obtain ⟨spec, hAdmitted, hStep⟩ := Option.bind_eq_some_iff.mp hWritten
        obtain ⟨w, hStepped, hSet⟩ := Option.bind_eq_some_iff.mp hStep
        cases hSet
        exact .created hAdmitted hStepped
      · exact .uncreated
  | getCustomObject key =>
      cases reply with
      | ok =>
          simp only [respondService] at h
          split at h
          · cases h
            exact .found ‹_›
          · cases h
            exact .unfound
      | fail err =>
          cases h
          exact .unfound
      | value | text | lost => cases h

theorem simulatorEffect {call : Simulator.Call setup.aer} {reply : Reply setup.aer.Results}
    {answer : call.Answer} (h : d.respondSimulator call reply = some (answer, d')) :
    SimulatorEffect d reply call answer d' := by
  cases call with
  | loadIncluster => cases reply <;> cases h <;> exact .loadIncluster
  | ping => cases reply <;> cases h <;> exact .ping
  | get key =>
      cases reply <;> cases h
      · exact .fetched
      · exact .unfetched
  | runSimulation circuits shots backendName => cases reply <;> cases h <;> exact .runSimulation
  | patchStatus key message =>
      rcases respondWrite_cases h with ⟨hApplied, hWritten⟩ | ⟨rfl, err, rfl⟩
      · obtain ⟨w, hStepped, rfl⟩ := Option.map_eq_some_iff.mp hWritten
        exact .patched hApplied hStepped
      · exact .unpatched
  | strftime =>
      cases reply <;> cases h
      exact .strftime
  | setex key ttl data =>
      rcases respondWrite_cases h with ⟨-, hWritten⟩ | ⟨rfl, err, rfl⟩
      · cases hWritten
        exact .stored
      · exact .unstored

inductive Moves (d : Deployment setup) : Action setup → Deployment setup → Prop where
  | cluster {a : World.Action} {w : World} (stepped : d.world.step a = some w)
      (own : ∀ key message, a ≠ .patchError key message)
      (reported : ∀ key phase pod, a = .setPhase key phase →
        (d.world.pods key).current = some pod → d.reports pod phase = true) :
      Moves d (.cluster a) (d.setWorld w)
  | receive {i : Nat} {endpoint : Endpoint} (fresh : d.requests i = none) :
      Moves d (.receive i endpoint)
        ({ d with submitted := endpoint.suppliedId.toList ++ d.submitted }.setRequest i
          (.start setup endpoint))
  | served {i : Nat} {endpoint : Endpoint} {history : Service.History setup.q}
      {call : Service.Call} {reply : Reply setup.q.Target} {answer : call.Answer setup.q}
      {next : call.Answer setup.q → Service.Handler setup.q Service.Response}
      {path : Program.Path (endpoint.program setup) history (.ask call next)}
      {middle : Deployment setup}
      (busy : d.requests i = some ⟨endpoint, history, .ask call next, path⟩)
      (effect : ServiceEffect d reply call answer middle) :
      Moves d (.serve i reply)
        (middle.setRequest i ⟨endpoint, history ++ [⟨call, answer⟩], next answer, path.snoc answer⟩)
  | launched {key : NamespacedName} {retries : Int32} {pod : Pod}
      (present : (d.world.pods (simulatorPodKey key retries)).current = some pod)
      (fresh : d.processes pod.uid = none) (live : pod.deletionRequested = false) :
      Moves d (.launch key retries) (d.setProcess pod.uid (.start setup pod))
  | simulated {uid : Nat} {pod : Pod} {history : Simulator.History setup.aer}
      {call : Simulator.Call setup.aer} {reply : Reply setup.aer.Results} {answer : call.Answer}
      {next : call.Answer → Simulator.Script setup.aer Nat}
      {path : Program.Path (Simulator.main setup.aer pod) history (.ask call next)}
      {middle : Deployment setup}
      (busy : d.processes uid = some ⟨pod, history, .ask call next, path, false⟩)
      (effect : SimulatorEffect d reply call answer middle) :
      Moves d (.simulate uid reply) (middle.setProcess uid
        ⟨pod, history ++ [⟨call, answer⟩], next answer, path.snoc answer, false⟩)
  | stopped {uid : Nat} {process : Process setup} (busy : d.processes uid = some process)
      (running : process.running = true) :
      Moves d (.stop uid) (d.setProcess uid { process with stopped := true })
  | expired {key : String} : Moves d (.expire key) (d.setRecord key none)

theorem moves_of_clusterStep {a : World.Action} (h : d.clusterStep a = some d') :
    Moves d (.cluster a) d' := by
  cases a with
  | patchError key message => cases h
  | setPhase key phase =>
      simp only [clusterStep] at h
      split at h
      · rename_i hReported
        obtain ⟨w, hStepped, rfl⟩ := Option.map_eq_some_iff.mp h
        refine .cluster hStepped (by simp) ?_
        rintro _ _ pod ⟨⟩ hPod
        rw [hPod] at hReported
        exact hReported
      · cases h
  | setClock now =>
      cases h
      exact .cluster rfl (by simp) (by simp)
  | createJob | reconcile | answer | finish | createPod | removePod =>
      obtain ⟨w, hStepped, rfl⟩ := Option.map_eq_some_iff.mp h
      exact .cluster hStepped (by simp) (by simp)

/-- An answer to a request is an answer to the call it waits for. -/
theorem step_serve {i : Nat} {reply : Reply setup.q.Target}
    (h : d.step (.serve i reply) = some d') :
    ∃ endpoint history call next, ∃ path : Program.Path (endpoint.program setup) history
      (.ask call next), ∃ answer middle,
      d.requests i = some ⟨endpoint, history, .ask call next, path⟩ ∧
      d.respondService call reply = some (answer, middle) ∧
      d' = middle.setRequest i
        ⟨endpoint, history ++ [⟨call, answer⟩], next answer, path.snoc answer⟩ := by
  obtain ⟨⟨endpoint, history, rest, path⟩, hBusy, hServe⟩ := Option.bind_eq_some_iff.mp h
  cases rest with
  | done response => cases hServe
  | ask call next =>
      obtain ⟨⟨answer, middle⟩, hAnswered, hSet⟩ := Option.map_eq_some_iff.mp hServe
      exact ⟨endpoint, history, call, next, path, answer, middle, hBusy, hAnswered, hSet.symm⟩

/-- An answer to a simulator is an answer to the call it waits for, and it runs. -/
theorem step_simulate {uid : Nat} {reply : Reply setup.aer.Results}
    (h : d.step (.simulate uid reply) = some d') :
    ∃ pod history call next, ∃ path : Program.Path (Simulator.main setup.aer pod) history
      (.ask call next), ∃ answer middle,
      d.processes uid = some ⟨pod, history, .ask call next, path, false⟩ ∧
      d.respondSimulator call reply = some (answer, middle) ∧
      d' = middle.setProcess uid
        ⟨pod, history ++ [⟨call, answer⟩], next answer, path.snoc answer, false⟩ := by
  obtain ⟨⟨pod, history, rest, path, stopped⟩, hBusy, hSimulate⟩ := Option.bind_eq_some_iff.mp h
  cases stopped with
  | true => cases hSimulate
  | false =>
      cases rest with
      | done code => cases hSimulate
      | ask call next =>
          obtain ⟨⟨answer, middle⟩, hAnswered, hSet⟩ := Option.map_eq_some_iff.mp hSimulate
          exact ⟨pod, history, call, next, path, answer, middle, hBusy, hAnswered, hSet.symm⟩

/-- Every step is one of the moves. -/
theorem moves_of_step {a : Action setup} (h : d.step a = some d') : Moves d a d' := by
  cases a with
  | cluster a => exact moves_of_clusterStep h
  | receive i endpoint =>
      simp only [step] at h
      split at h
      · rename_i hFresh
        cases h
        exact .receive hFresh
      · cases h
  | serve i reply =>
      obtain ⟨_, _, _, _, _, _, _, hBusy, hAnswered, rfl⟩ := step_serve h
      exact .served hBusy (serviceEffect hAnswered)
  | launch key retries =>
      obtain ⟨pod, hPod, hLaunch⟩ := Option.bind_eq_some_iff.mp h
      split at hLaunch
      · rename_i hFresh
        split at hLaunch
        · cases hLaunch
        · rename_i hLive
          cases hLaunch
          exact .launched hPod hFresh (by simpa using hLive)
      · cases hLaunch
  | simulate uid reply =>
      obtain ⟨_, _, _, _, _, _, _, hBusy, hAnswered, rfl⟩ := step_simulate h
      exact .simulated hBusy (simulatorEffect hAnswered)
  | stop uid =>
      obtain ⟨process, hBusy, hStop⟩ := Option.bind_eq_some_iff.mp h
      split at hStop
      · cases hStop
        exact .stopped hBusy ‹_›
      · cases hStop
  | expire key =>
      cases h
      exact .expired

/-- The action of the cluster that a step of the system amounts to. -/
inductive Causes (d : Deployment setup) : Action setup → World.Action → Prop where
  | cluster {a : World.Action} (own : ∀ key message, a ≠ .patchError key message) :
      Causes d (.cluster a) a
  | created {i : Nat} {endpoint : Endpoint} {history : Service.History setup.q}
      {body : Service.JobBody} {spec : QuantumAerJobSpec} {reply : Reply setup.q.Target}
      {next : Except String Unit → Service.Handler setup.q Service.Response}
      {path : Program.Path (endpoint.program setup) history (.ask (.createCustomObject body) next)}
      (busy : d.requests i = some ⟨endpoint, history, .ask (.createCustomObject body) next, path⟩)
      (admitted : setup.admission.admitted body = some spec) :
      Causes d (.serve i reply) (.createJob body.key spec)
  | patched {uid : Nat} {pod : Pod} {history : Simulator.History setup.aer}
      {key : NamespacedName} {message : String} {reply : Reply setup.aer.Results}
      {next : Except String Unit → Simulator.Script setup.aer Nat}
      {path : Program.Path (Simulator.main setup.aer pod) history
        (.ask (.patchStatus key message) next)}
      (busy : d.processes uid =
        some ⟨pod, history, .ask (.patchStatus key message) next, path, false⟩)
      (applied : reply.applied = true) :
      Causes d (.simulate uid reply) (.patchError key message)

/-- A step of the system is at most one step of the cluster. -/
theorem Moves.world {a : Action setup} (h : Moves d a d') :
    d'.world = d.world ∨ ∃ wa, Causes d a wa ∧ d.world.step wa = some d'.world := by
  cases h with
  | cluster stepped own reported => exact .inr ⟨_, .cluster own, stepped⟩
  | served busy effect =>
      cases effect with
      | created admitted stepped => exact .inr ⟨_, .created busy admitted, stepped⟩
      | backend | uuid4 | strftime | stored | unstored | fetched | unfetched | uncreated | found
      | unfound => exact .inl rfl
  | simulated busy effect =>
      cases effect with
      | patched applied stepped => exact .inr ⟨_, .patched busy applied, stepped⟩
      | loadIncluster | ping | fetched | unfetched | runSimulation | unpatched | strftime | stored
      | unstored => exact .inl rfl
  | receive | launched | stopped | expired => exact .inl rfl

/-- The cluster of a run of the system goes through a run of the cluster, under every
restriction that the steps' effects on it meet. -/
theorem cluster_reaches {allowed : Deployment setup → Action setup → Prop}
    {permitted : World → World.Action → Prop} {start : Deployment setup → Prop}
    {starts : World → Prop} (initial : ∀ d, start d → starts d.world)
    (caused : ∀ d a wa, Reaches step allowed start d → allowed d a → Causes d a wa →
      permitted d.world wa)
    (run : Reaches step allowed start d) : Reaches World.step permitted starts d.world := by
  refine run.project Deployment.world initial ?_
  intro s a t reached hAllowed hStep hWorld
  rcases (moves_of_step hStep).world with hSame | ⟨wa, hCauses, hStepped⟩
  · rw [hSame]
    exact hWorld
  · exact .step hWorld (caused s a wa reached hAllowed hCauses) hStepped

/-- Whatever is allowed, the cluster of a run goes through a run of the cluster. -/
theorem cluster_of_run {allowed : Deployment setup → Action setup → Prop}
    {start : Deployment setup → Prop} (initial : ∀ d, start d → World.Initial d.world)
    (run : Reaches step allowed start d) :
    Reaches World.step (fun _ _ => True) World.Initial d.world :=
  cluster_reaches initial (fun _ _ _ _ _ _ => trivial) run

/-- The system of the examples. -/
def sampleSetup : Setup :=
  ⟨Service.sampleQiskit, Simulator.sampleAer, Service.sampleConfig, id, Service.sampleAdmission⟩

/-- The actions of a reconcile, of the whole system. -/
def clusterPass (key : NamespacedName) (replies : List World.Reply) : List (Action sampleSetup) :=
  (World.pass key replies).map .cluster

/-- Job `1` is submitted. -/
def submitRun : List (Action sampleSetup) :=
  [.receive 0 (.transpile (.ok Service.sampleRequest)), .serve 0 (.text Service.sampleNow),
    .serve 0 (.text Service.sampleNow), .serve 0 .ok, .serve 0 .ok]

/-- A simulator runs up to the point where it has its results. -/
def simulateRun (uid : Nat) (results : String) : List (Action sampleSetup) :=
  [.simulate uid .ok, .simulate uid .ok, .simulate uid .ok, .simulate uid (.value results)]

end Deployment
end QuantumService
