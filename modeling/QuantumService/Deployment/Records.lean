import QuantumService.Deployment.Submissions

/-! The records of jobs. A submission writes the circuit, after that only simulators
of the same job write, and each of these writes results of that circuit. -/
namespace QuantumService
open Interaction Cluster Controller

/-- The environment of the process names this job. -/
structure Process.Env {setup : Setup} (process : Process setup) (vars : Simulator.ConfigVars)
    (id : String) : Prop where
  env : Simulator.getEnvVars process.pod = .ok vars
  jobId : vars.jobId = some id

theorem Process.Env.recordKey {setup : Setup} {process : Process setup}
    {vars : Simulator.ConfigVars} {id : String} (env : process.Env vars id) :
    vars.recordKey = jobKey id := by
  rw [Simulator.ConfigVars.recordKey, env.jobId, Option.getD_some]

namespace Deployment
variable {setup : Setup} {d d' : Deployment setup} {id circuit text : String} {data : JobData}

/-- A simulator of the job serialized this text from a run of this circuit. -/
def Ran (d : Deployment setup) (id circuit text : String) : Prop :=
  ∃ uid process vars, d.processes uid = some process ∧ process.Env vars id ∧
    Simulator.Ran process.history vars circuit text

/-- The results in the job data are those of the circuit in it. -/
def Result (d : Deployment setup) (id : String) (data : JobData) : Prop :=
  ∃ circuit text, data.circuit = some circuit ∧ data.results = some text ∧ d.Ran id circuit text

/-- A simulator of the job was told that its results are written. -/
def Finished (d : Deployment setup) (id : String) : Prop :=
  ∃ uid process vars ttl data, d.processes uid = some process ∧ process.Env vars id ∧
    ⟨.setex (jobKey id) ttl data, .ok ()⟩ ∈ process.history

/-- The job data of a job that is done: the circuit is the one its submission
stored, and the results are those of that circuit. -/
structure Holds (d : Deployment setup) (id : String) (data : JobData) : Prop where
  stored : d.Stored id
  circuit : data.circuit = d.circuits (jobKey id)
  result : d.Result id data

/-- What later steps cannot undo: what is stored, and what processes have done. -/
structure Grows (d d' : Deployment setup) : Prop where
  stored : ∀ {id}, d.Stored id → d'.Stored id
  circuits : ∀ {id}, d.Stored id → d'.circuits (jobKey id) = d.circuits (jobKey id)
  processes : ∀ {uid process}, d.processes uid = some process →
    ∃ process', d'.processes uid = some process' ∧ process'.pod = process.pod ∧
      process.history ⊆ process'.history

section Grows

theorem Ran.grows (ran : d.Ran id circuit text) (grows : d.Grows d') : d'.Ran id circuit text := by
  obtain ⟨uid, process, vars, hProcess, hEnv, hRan⟩ := ran
  obtain ⟨process', hProcess', hPod, hHistory⟩ := grows.processes hProcess
  have hEnv' : Simulator.getEnvVars process'.pod = .ok vars := by rw [hPod, hEnv.env]
  exact ⟨uid, process', vars, hProcess', ⟨hEnv', hEnv.jobId⟩, hRan.mono hHistory⟩

theorem Result.grows (result : d.Result id data) (grows : d.Grows d') : d'.Result id data := by
  obtain ⟨circuit, text, hCircuit, hText, hRan⟩ := result
  exact ⟨circuit, text, hCircuit, hText, hRan.grows grows⟩

theorem Finished.grows (finished : d.Finished id) (grows : d.Grows d') : d'.Finished id := by
  obtain ⟨uid, process, vars, ttl, data, hProcess, hEnv, hMem⟩ := finished
  obtain ⟨process', hProcess', hPod, hHistory⟩ := grows.processes hProcess
  have hEnv' : Simulator.getEnvVars process'.pod = .ok vars := by rw [hPod, hEnv.env]
  exact ⟨uid, process', vars, ttl, data, hProcess', ⟨hEnv', hEnv.jobId⟩, hHistory hMem⟩

theorem Holds.grows (holds : d.Holds id data) (grows : d.Grows d') : d'.Holds id data where
  stored := grows.stored holds.stored
  circuit := holds.circuit.trans (grows.circuits holds.stored).symm
  result := holds.result.grows grows

/-- A step of a process keeps what the processes have done. -/
theorem processes_setProcess {uid : Nat} {process : Process setup}
    (before : ∀ old, d.processes uid = some old →
      process.pod = old.pod ∧ old.history ⊆ process.history)
    {u : Nat} {other : Process setup} (hOther : d.processes u = some other) :
    ∃ process', Function.update d.processes uid (some process) u = some process' ∧
      process'.pod = other.pod ∧ other.history ⊆ process'.history := by
  by_cases hu : u = uid
  · subst hu
    obtain ⟨hPod, hHistory⟩ := before other hOther
    exact ⟨process, Function.update_self .., hPod, hHistory⟩
  · exact ⟨other, by rw [Function.update_of_ne hu, hOther], rfl, fun _ hMem => hMem⟩

/-- The first write of a record comes before everything else that has to do with it. -/
theorem Claimed.unstored (claimed : Claimed d) {i : Nat} {request : Request setup}
    {body : Except String Object} (busy : d.requests i = some request)
    (endpoint : request.endpoint = .transpile body)
    (identified : Service.identifier (Service.suppliedId body) request.history = some id)
    (first : Service.Unwritten request.history) : ¬ d.Stored id := by
  rintro ⟨j, other, ttl, data, hOther, hMem⟩
  have hTakes : d.Takes i id := ⟨request, body, busy, endpoint, identified⟩
  obtain rfl := claimed.unique hTakes (claimed.wrote hOther hMem)
  obtain rfl := Option.some.inj (busy.symm.trans hOther)
  exact first _ _ _ _ hMem

theorem ServiceEffect.processes {reply : Reply setup.q.Target} {call : Service.Call}
    {answer : call.Answer setup.q} (effect : ServiceEffect d reply call answer d') :
    d'.processes = d.processes := by
  cases effect <;> rfl

theorem SimulatorEffect.processes {reply : Reply setup.aer.Results}
    {call : Simulator.Call setup.aer} {answer : call.Answer}
    (effect : SimulatorEffect d reply call answer d') : d'.processes = d.processes := by
  cases effect <;> rfl

theorem SimulatorEffect.circuits {reply : Reply setup.aer.Results}
    {call : Simulator.Call setup.aer} {answer : call.Answer}
    (effect : SimulatorEffect d reply call answer d') : d'.circuits = d.circuits := by
  cases effect <;> rfl

/-- What a simulator reads is what is there. -/
theorem SimulatorEffect.read {reply : Reply setup.aer.Results} {key : String}
    (effect : SimulatorEffect d reply (.get key) (.ok (some data)) d') :
    ∃ entry, d.records key = some entry ∧ entry.data = data := by
  generalize hAnswer : (Except.ok (some data) : Except String (Option JobData)) = answer at effect
  cases effect with
  | fetched =>
      have hFound := Except.ok.inj hAnswer
      exact Option.map_eq_some_iff.mp hFound.symm
  | unfetched => cases hAnswer

theorem SimulatorEffect.wrote {reply : Reply setup.aer.Results} {key : String} {ttl : Nat}
    (effect : SimulatorEffect d reply (.setex key ttl data) (.ok ()) d') :
    d'.records key = some ⟨data, ttl⟩ := by
  cases effect
  rw [setRecord_records, Function.update_self]

theorem ServiceEffect.wrote {reply : Reply setup.q.Target} {key : String} {ttl : Nat}
    (effect : ServiceEffect d reply (.setex key ttl data) (.ok ()) d') :
    d' = d.store key data ttl := by
  cases effect
  rfl

/-- Requests leave the record of a job alone once it was written. -/
theorem records_of_serve (claimed : Claimed d) {i : Nat} {endpoint : Endpoint}
    {history : Service.History setup.q} {call : Service.Call} {reply : Reply setup.q.Target}
    {answer : call.Answer setup.q}
    {next : call.Answer setup.q → Service.Handler setup.q Service.Response}
    {path : Program.Path (endpoint.program setup) history (.ask call next)}
    (busy : d.requests i = some ⟨endpoint, history, .ask call next, path⟩)
    (effect : ServiceEffect d reply call answer d') (stored : d.Stored id) :
    d'.records (jobKey id) = d.records (jobKey id) ∧
      d'.circuits (jobKey id) = d.circuits (jobKey id) := by
  cases effect with
  | stored =>
      obtain ⟨body, id', circuit, _, _, rfl, rfl, hIdentified, hFirst, rfl⟩ :=
        (site_of_request path).setex_inv
      have hId : jobKey id ≠ jobKey id' := by
        intro hKey
        obtain rfl := jobKey_injective hKey
        exact claimed.unstored busy rfl hIdentified hFirst stored
      rw [store_records, store_circuits, Function.update_of_ne hId, Function.update_of_ne hId]
      exact ⟨rfl, rfl⟩
  | backend | uuid4 | strftime | unstored | fetched | unfetched | created | uncreated | found
  | unfound => exact ⟨rfl, rfl⟩

/-- Nothing stored or done is lost, whatever happens. -/
theorem Moves.grows {a : Action setup} (claimed : Claimed d) (h : Moves d a d') : d.Grows d' := by
  have hSame : ∀ {uid process}, d.processes uid = some process →
      ∃ process', d.processes uid = some process' ∧ process'.pod = process.pod ∧
        process.history ⊆ process'.history :=
    fun hProcess => ⟨_, hProcess, rfl, fun _ hMem => hMem⟩
  cases h with
  | cluster | expired => exact ⟨id, fun _ => rfl, hSame⟩
  | receive fresh => exact ⟨(continues_of_receive fresh).stored, fun _ => rfl, hSame⟩
  | served busy effect =>
      constructor
      · exact (continues_of_serve busy effect).stored
      · intro id hStored
        rw [setRequest_circuits]
        exact (records_of_serve claimed busy effect hStored).2
      · rw [setRequest_processes, effect.processes]
        exact hSame
  | launched present fresh live =>
      refine ⟨id, fun _ => rfl, processes_setProcess ?_⟩
      intro old hOld
      rw [fresh] at hOld
      cases hOld
  | @simulated uid pod history call reply answer next path middle busy effect =>
      constructor
      · exact (Continues.of_eq effect.requests).stored
      · intro id _
        rw [setProcess_circuits, effect.circuits]
      · rw [setProcess_processes, effect.processes]
        apply processes_setProcess
        intro old hOld
        obtain rfl := Option.some.inj (busy.symm.trans hOld)
        exact ⟨rfl, fun _ hMem => List.mem_append_left _ hMem⟩
  | stopped busy running =>
      refine ⟨id, fun _ => rfl, processes_setProcess ?_⟩
      intro old hOld
      obtain rfl := Option.some.inj (busy.symm.trans hOld)
      exact ⟨rfl, fun _ hMem => hMem⟩

end Grows

/-- The record of a stored job holds its circuit, and no other results than its own. -/
structure Kept (d : Deployment setup) (id : String) : Prop where
  circuit : ∀ {entry}, d.records (jobKey id) = some entry →
    entry.data.circuit = d.circuits (jobKey id)
  result : ∀ {entry}, d.records (jobKey id) = some entry → entry.data.results ≠ none →
    d.Result id entry.data
  fetched : ∀ {uid process vars data}, d.processes uid = some process → process.Env vars id →
    ⟨.get (jobKey id), .ok (some data)⟩ ∈ process.history → data.circuit = d.circuits (jobKey id)
  finished : ∀ {entry}, d.Finished id → d.records (jobKey id) = some entry →
    entry.data.results ≠ none

section Kept

theorem Kept.step (kept : d.Kept id) (grows : d.Grows d') (stored : d.Stored id)
    (record : ∀ entry, d'.records (jobKey id) = some entry → d.records (jobKey id) = some entry ∨
      entry.data.circuit = d.circuits (jobKey id) ∧ d'.Result id entry.data)
    (fetched : ∀ uid process vars data, d'.processes uid = some process → process.Env vars id →
      ⟨.get (jobKey id), .ok (some data)⟩ ∈ process.history →
        data.circuit = d.circuits (jobKey id))
    (finished : d'.Finished id → d.Finished id ∨
      ∀ entry, d'.records (jobKey id) = some entry → entry.data.results ≠ none) : d'.Kept id where
  circuit := by
    intro entry hRecord
    rw [grows.circuits stored]
    rcases record entry hRecord with hOld | ⟨hCircuit, -⟩
    · exact kept.circuit hOld
    · exact hCircuit
  result := by
    intro entry hRecord hSome
    rcases record entry hRecord with hOld | ⟨-, hResult⟩
    · exact (kept.result hOld hSome).grows grows
    · exact hResult
  fetched := by
    intro uid process vars data hProcess hEnv hMem
    rw [grows.circuits stored]
    exact fetched uid process vars data hProcess hEnv hMem
  finished := by
    intro entry hFinished hRecord
    rcases finished hFinished with hBefore | hNew
    · rcases record entry hRecord with hOld | ⟨-, circuit, text, -, hText, -⟩
      · exact kept.finished hBefore hOld
      · simp [hText]
    · exact hNew entry hRecord

/-- A step that no process takes part in, and that writes no record. -/
theorem Kept.idle (kept : d.Kept id) (grows : d.Grows d') (stored : d.Stored id)
    (processes : d'.processes = d.processes)
    (record : ∀ entry, d'.records (jobKey id) = some entry →
      d.records (jobKey id) = some entry) : d'.Kept id := by
  apply kept.step grows stored
  · exact fun entry hRecord => .inl (record entry hRecord)
  · rw [processes]
    exact fun _ _ _ _ hProcess hEnv hMem => kept.fetched hProcess hEnv hMem
  · rintro ⟨uid, process, hProcess⟩
    rw [processes] at hProcess
    exact .inl ⟨uid, process, hProcess⟩

/-- A step of one process, which may write its record and learn from it. -/
theorem Kept.turn (kept : d.Kept id) (grows : d.Grows d') (stored : d.Stored id) {uid : Nat}
    {process : Process setup}
    (processes : d'.processes = Function.update d.processes uid (some process))
    (record : ∀ entry, d'.records (jobKey id) = some entry → d.records (jobKey id) = some entry ∨
      entry.data.circuit = d.circuits (jobKey id) ∧ d'.Result id entry.data)
    (fetched : ∀ vars data, process.Env vars id →
      ⟨.get (jobKey id), .ok (some data)⟩ ∈ process.history →
        data.circuit = d.circuits (jobKey id))
    (finished : ∀ vars ttl data, process.Env vars id →
      ⟨.setex (jobKey id) ttl data, .ok ()⟩ ∈ process.history → d.Finished id ∨
        ∀ entry, d'.records (jobKey id) = some entry → entry.data.results ≠ none) :
    d'.Kept id := by
  apply kept.step grows stored record
  · intro u other vars data hOther hEnv hMem
    rw [processes] at hOther
    rcases update_cases hOther with ⟨rfl, rfl⟩ | hOld
    · exact fetched vars data hEnv hMem
    · exact kept.fetched hOld hEnv hMem
  · rintro ⟨u, other, vars, ttl, data, hOther, hEnv, hMem⟩
    rw [processes] at hOther
    rcases update_cases hOther with ⟨rfl, rfl⟩ | hOld
    · exact finished vars ttl data hEnv hMem
    · exact .inl ⟨u, other, vars, ttl, data, hOld, hEnv, hMem⟩

theorem Kept.launched (kept : d.Kept id) {uid : Nat} {pod : Pod}
    (grows : d.Grows (d.setProcess uid (.start setup pod))) (stored : d.Stored id) :
    (d.setProcess uid (.start setup pod)).Kept id := by
  apply kept.turn grows stored rfl fun entry hRecord => .inl hRecord
  · intro vars data hEnv hMem
    cases hMem
  · intro vars ttl data hEnv hMem
    cases hMem

theorem Kept.stopped (kept : d.Kept id) {uid : Nat} {process : Process setup}
    (busy : d.processes uid = some process)
    (grows : d.Grows (d.setProcess uid { process with stopped := true }))
    (stored : d.Stored id) : (d.setProcess uid { process with stopped := true }).Kept id := by
  apply kept.turn grows stored rfl fun entry hRecord => .inl hRecord
  · intro vars data hEnv hMem
    exact kept.fetched busy ⟨hEnv.env, hEnv.jobId⟩ hMem
  · intro vars ttl data hEnv hMem
    exact .inl ⟨uid, process, vars, ttl, data, busy, ⟨hEnv.env, hEnv.jobId⟩, hMem⟩

section Simulate
variable {uid : Nat} {pod : Pod} {history : Simulator.History setup.aer}
  {call : Simulator.Call setup.aer} {reply : Reply setup.aer.Results} {answer : call.Answer}
  {next : call.Answer → Simulator.Script setup.aer Nat}
  {path : Program.Path (Simulator.main setup.aer pod) history (.ask call next)}

/-- The results a simulator writes are those of the circuit it has read. -/
theorem Kept.computed (kept : d.Kept id)
    (busy : d.processes uid = some ⟨pod, history, .ask call next, path, false⟩)
    {vars : Simulator.ConfigVars} (env : Simulator.getEnvVars pod = .ok vars)
    (jobId : vars.jobId = some id) (computed : Simulator.Computed history vars data text) :
    data.circuit = d.circuits (jobKey id) ∧
      ∃ circuit, data.circuit = some circuit ∧ d.Ran id circuit text := by
  have hEnv : (⟨pod, history, .ask call next, path, false⟩ : Process setup).Env vars id :=
    ⟨env, jobId⟩
  have hFetched := computed.fetched
  rw [hEnv.recordKey] at hFetched
  obtain ⟨circuit, hCircuit, hRan⟩ := computed.ran
  exact ⟨kept.fetched busy hEnv hFetched, circuit, hCircuit, uid, _, vars, busy, hEnv, hRan⟩

theorem Kept.simulated (kept : d.Kept id) (hosted : Hosted d.world d.processes)
    (busy : d.processes uid = some ⟨pod, history, .ask call next, path, false⟩)
    (effect : SimulatorEffect d reply call answer d')
    (grows : d.Grows (d'.setProcess uid
      ⟨pod, history ++ [⟨call, answer⟩], next answer, path.snoc answer, false⟩))
    (stored : d.Stored id) :
    (d'.setProcess uid
      ⟨pod, history ++ [⟨call, answer⟩], next answer, path.snoc answer, false⟩).Kept id := by
  have hSite := (Simulator.main_follows pod).call path
  -- the only record this step can write is that of the process's own job
  have hWritten : ∀ entry, d'.records (jobKey id) = some entry →
      d.records (jobKey id) = some entry ∨
        entry.data.circuit = d.circuits (jobKey id) ∧ d.Result id entry.data := by
    intro entry hRecord
    cases effect with
    | stored =>
        cases hSite with
        | @setex vars data text now env computed =>
            rw [setRecord_records] at hRecord
            obtain ⟨id', hServes, -, hId⟩ := hosted.environment busy env
            have hOwn : vars.recordKey = jobKey id' := by
              rw [Simulator.ConfigVars.recordKey, hId, Option.getD_some]
            by_cases hSame : id = id'
            · subst hSame
              obtain ⟨hKept, circuit, hCircuit, hRan⟩ := kept.computed busy env hId computed
              rw [hOwn, Function.update_self, Option.some.injEq] at hRecord
              subst hRecord
              exact .inr ⟨hKept, circuit, text, hCircuit, rfl, hRan⟩
            · have hKey : jobKey id ≠ jobKey id' := fun h => hSame (jobKey_injective h)
              rw [hOwn, Function.update_of_ne hKey] at hRecord
              exact .inl hRecord
    | loadIncluster | ping | fetched | unfetched | runSimulation | patched | unpatched | strftime
    | unstored => exact .inl hRecord
  apply kept.turn grows stored (by rw [setProcess_processes, effect.processes])
  · intro entry hRecord
    rcases hWritten entry hRecord with hOld | ⟨hCircuit, hResult⟩
    · exact .inl hOld
    · exact .inr ⟨hCircuit, hResult.grows grows⟩
  · intro vars data hEnv hMem
    rcases List.mem_append.mp hMem with hBefore | hNow
    · exact kept.fetched busy ⟨hEnv.env, hEnv.jobId⟩ hBefore
    · cases List.mem_singleton.mp hNow
      obtain ⟨entry, hEntry, rfl⟩ := effect.read
      exact kept.circuit hEntry
  · intro vars ttl data hEnv hMem
    rcases List.mem_append.mp hMem with hBefore | hNow
    · exact .inl ⟨uid, _, vars, ttl, data, busy, ⟨hEnv.env, hEnv.jobId⟩, hBefore⟩
    · right
      cases List.mem_singleton.mp hNow
      intro entry hRecord
      obtain rfl := Option.some.inj (effect.wrote.symm.trans hRecord)
      generalize hKey : jobKey id = key at hSite
      cases hSite with
      | setex env computed => simp

end Simulate

/-- A record that was just written for the first time. No process knows of it. -/
theorem Kept.written (unknown : ∀ uid process vars, d.processes uid = some process →
      ¬ process.Env vars id)
    (processes : d'.processes = d.processes) {ttl : Nat} (unfinished : data.results = none)
    (record : d'.records (jobKey id) = some ⟨data, ttl⟩)
    (circuit : d'.circuits (jobKey id) = data.circuit) : d'.Kept id where
  circuit := by
    intro entry hRecord
    obtain rfl := Option.some.inj (record.symm.trans hRecord)
    exact circuit.symm
  result := by
    intro entry hRecord hSome
    obtain rfl := Option.some.inj (record.symm.trans hRecord)
    exact absurd unfinished hSome
  fetched := by
    intro uid process vars data hProcess hEnv
    rw [processes] at hProcess
    exact absurd hEnv (unknown uid process vars hProcess)
  finished := by
    rintro entry ⟨uid, process, vars, _, _, hProcess, hEnv, -⟩
    rw [processes] at hProcess
    exact absurd hEnv (unknown uid process vars hProcess)

end Kept

/-- A record becomes that of a job when it is written for the first time. -/
theorem stored_of_serve {i : Nat} {endpoint : Endpoint} {history : Service.History setup.q}
    {call : Service.Call} {reply : Reply setup.q.Target} {answer : call.Answer setup.q}
    {next : call.Answer setup.q → Service.Handler setup.q Service.Response}
    {path : Program.Path (endpoint.program setup) history (.ask call next)}
    (busy : d.requests i = some ⟨endpoint, history, .ask call next, path⟩)
    (effect : ServiceEffect d reply call answer d')
    (stored : (d'.setRequest i
      ⟨endpoint, history ++ [⟨call, answer⟩], next answer, path.snoc answer⟩).Stored id) :
    d.Stored id ∨ ∃ ttl data, data.results = none ∧ d' = d.store (jobKey id) data ttl := by
  obtain ⟨j, request, ttl, data, hRequest, hMem⟩ := stored
  rcases update_cases hRequest with ⟨rfl, rfl⟩ | hOld
  · rcases List.mem_append.mp hMem with hBefore | hNow
    · exact .inl ⟨j, _, ttl, data, busy, hBefore⟩
    · right
      cases List.mem_singleton.mp hNow
      obtain ⟨body, id', circuit, createdAt, updatedAt, -, -, -, -, rfl⟩ :=
        (site_of_request path).setex_inv
      exact ⟨ttl, _, rfl, effect.wrote⟩
  · rw [effect.requests] at hOld
    exact .inl ⟨j, request, ttl, data, hOld, hMem⟩

/-- The job of a process has its record. -/
theorem stored_of_process (run : Reaches step Sourced Fresh d) {uid : Nat}
    {process : Process setup} {vars : Simulator.ConfigVars} (busy : d.processes uid = some process)
    (env : process.Env vars id) : d.Stored id := by
  obtain ⟨id', hServes, -, hId⟩ := (hosted_of_run run).environment busy env.env
  obtain rfl := Option.some.inj (hId.symm.trans env.jobId)
  have hCreated := created_of_process run busy hServes
  obtain ⟨id, hKey, hStored⟩ := (claimed_of_run run).created hCreated
  rw [jobNamed_injective hKey]
  exact hStored

/-- Records are kept, also when reconciles guess. -/
theorem kept_of_run (run : Reaches step Sourced Fresh d) (stored : d.Stored id) : d.Kept id := by
  have hAll : ∀ id, d.Stored id → d.Kept id := by
    apply run.invariant
    · rintro s fresh id ⟨i, request, ttl, data, hRequest, -⟩
      rw [fresh.initial.unserved] at hRequest
      cases hRequest
    · intro s a t reached kept _ stepped id hStored
      have hMoves := moves_of_step stepped
      have hClaimed := claimed_of_run reached
      have hGrows := hMoves.grows hClaimed
      clear stepped
      cases hMoves with
      | cluster stepped own reported =>
          exact (kept id hStored).idle hGrows hStored rfl fun _ hRecord => hRecord
      | @receive i endpoint fresh =>
          obtain ⟨j, request, ttl, data, hRequest, hMem⟩ := hStored
          rcases update_cases hRequest with ⟨rfl, rfl⟩ | hOld
          · cases hMem
          · have hBefore : s.Stored id := ⟨j, request, ttl, data, hOld, hMem⟩
            exact (kept id hBefore).idle hGrows hBefore rfl fun _ hRecord => hRecord
      | served busy effect =>
          by_cases hBefore : s.Stored id
          · obtain ⟨hRecords, -⟩ := records_of_serve hClaimed busy effect hBefore
            apply (kept id hBefore).idle hGrows hBefore effect.processes
            intro entry hRecord
            rw [setRequest_records, hRecords] at hRecord
            exact hRecord
          · have hSources := stored_of_serve busy effect hStored
            obtain ⟨ttl, data, hResults, rfl⟩ := hSources.resolve_left hBefore
            apply Kept.written _ rfl hResults (Function.update_self ..) (Function.update_self ..)
            exact fun uid process vars hProcess hEnv =>
              hBefore (stored_of_process reached hProcess hEnv)
      | launched present fresh live => exact (kept id hStored).launched hGrows hStored
      | simulated busy effect =>
          have hBefore : s.Stored id := by
            obtain ⟨i, request, ttl, data, hRequest, hMem⟩ := hStored
            rw [setProcess_requests, effect.requests] at hRequest
            exact ⟨i, request, ttl, data, hRequest, hMem⟩
          exact (kept id hBefore).simulated (hosted_of_run reached) busy effect hGrows hBefore
      | stopped busy running => exact (kept id hStored).stopped busy hGrows hStored
      | @expired key =>
          apply (kept id hStored).idle hGrows hStored rfl
          intro entry hRecord
          rw [setRecord_records] at hRecord
          by_cases hKey : jobKey id = key
          · rw [hKey, Function.update_self] at hRecord
            cases hRecord
          · rw [Function.update_of_ne hKey] at hRecord
            exact hRecord
  exact hAll id stored

end Deployment
end QuantumService
