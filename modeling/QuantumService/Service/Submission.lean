import Mathlib.Logic.Function.Basic
import QuantumService.Interaction.Run
import QuantumService.Service.Transpiler

/-! What a submission leaves behind. It writes two stores in sequence: the Redis
record, which overwrites, and the custom resource, whose name must be free. -/
namespace QuantumService.Service
open Interaction Program

/-- The stored custom resources and the Redis entries. -/
structure Stores where
  jobs : NamespacedName → Option QuantumAerJob
  records : String → Option Entry

namespace Stores

def setJob (s : Stores) (key : NamespacedName) (job : QuantumAerJob) : Stores :=
  { s with jobs := Function.update s.jobs key (some job) }

def setRecord (s : Stores) (key : String) (entry : Entry) : Stores :=
  { s with records := Function.update s.records key (some entry) }

section Simp
variable (s : Stores) (key : NamespacedName) (job : QuantumAerJob) (name : String) (entry : Entry)

@[simp] theorem setJob_records : (s.setJob key job).records = s.records := rfl
@[simp] theorem setRecord_jobs : (s.setRecord name entry).jobs = s.jobs := rfl
@[simp] theorem setJob_jobs : (s.setJob key job).jobs key = some job := by simp [setJob]
@[simp] theorem setRecord_records : (s.setRecord name entry).records name = some entry := by
  simp [setRecord]

end Simp

/-- Writing a record changes the stores unless the same entry is there already. -/
theorem setRecord_eq_self_iff (s : Stores) (key : String) (entry : Entry) :
    s.setRecord key entry = s ↔ s.records key = some entry := by
  constructor
  · intro hSame
    rw [← hSame]
    exact s.setRecord_records key entry
  · intro hStored
    rw [setRecord, ← hStored, Function.update_eq_self]

end Stores

/-- The API server's check of a new resource against its schema: the spec it
stores, if it admits the body. The schema gives `jobID` the type string. -/
structure Admission where
  admitted : JobBody → Option QuantumAerJobSpec
  jobID {body : JobBody} {spec : QuantumAerJobSpec} :
    admitted body = some spec → body.jobID = .str spec.jobID

variable (q : Qiskit) (a : Admission)

/-- A call takes effect and returns, or raises without effect. Creating a
resource can succeed only under a free name. -/
def Serves (s : Stores) : (call : Call) → call.Answer q → Stores → Prop
  | .setex key ttl data, .ok _, t => t = s.setRecord key ⟨data, ttl⟩
  | .setex _ _ _, .error _, t => t = s
  | .createCustomObject body, .ok _, t => ∃ spec uid version,
      s.jobs body.key = none ∧ a.admitted body = some spec ∧
        t = s.setJob body.key ⟨body.name, body.nameSpace, uid, version, spec, .empty⟩
  | .createCustomObject _, .error _, t => t = s
  | .get key, .ok data, t => data = (s.records key).map Entry.data ∧ t = s
  | .getCustomObject key, .ok _, t => (s.jobs key).isSome ∧ t = s
  | _, _, t => t = s

/-- Whether a call writes one of the stores. -/
def Call.writes : Call → Bool
  | .setex _ _ _ => true
  | .createCustomObject _ => true
  | _ => false

variable {q} {a}

def Quiet (history : History q) : Prop := ∀ event ∈ history, event.1.writes = false

/-- `target` is the target of the request's backend, as far as the calls tell. -/
def TargetOf (cfg : Config) (backendName : Json) (history : History q) (target : q.Target) :
    Prop :=
  (backendName = .str "aer-simulator" ∨ cfg.service = false) ∧ target = q.aerTarget ∨
    ⟨.backend backendName, .ok target⟩ ∈ history

theorem TargetOf.append {cfg : Config} {backendName : Json} {first : History q}
    {target : q.Target} (of : TargetOf cfg backendName first target) (later : History q) :
    TargetOf cfg backendName (first ++ later) target := by
  cases of with
  | inl hDefault => exact .inl hDefault
  | inr hAsked => exact .inr (List.mem_append_left later hAsked)

/-- `circuit` is what the service makes of the circuits of this request. -/
def Transpiled (cfg : Config) (data : Object) (history : History q) (circuit : String) : Prop :=
  ∃ circuits target,
    deserializeCircuits q (data.get "circuits_qpy") = .ok circuits ∧
    TargetOf cfg (data.getD "backend_name" (.str "aer-simulator")) history target ∧
    transpileCircuits q target circuits = .ok circuit

/-- The stores after a submission that created the job `id`. -/
structure Submitted (cfg : Config) (body : Except String Object) (history : History q)
    (before after : Stores) (id : String) : Prop where
  free : before.jobs ⟨cfg.k8sNamespace, jobName (.str id)⟩ = none
  created : ∃ job, after.jobs ⟨cfg.k8sNamespace, jobName (.str id)⟩ = some job ∧
    job.spec.jobID = id
  stored : ∃ data entry circuit, body = .ok data ∧ after.records (jobKey id) = some entry ∧
    entry.data.circuit = some circuit ∧ Transpiled cfg data history circuit

/-- An accepted request created the job it names; any other left no trace. -/
def AllOrNothing (cfg : Config) (body : Except String Object) (history : History q)
    (before after : Stores) (response : Response) : Prop :=
  if response.code = 202 then
    ∃ id, response.body.get "job_id" = .str id ∧ Submitted cfg body history before after id
  else after = before

/-- A record was changed by the request, and the resource was then not created. -/
def Stranded (before : Stores) (history : History q) : Prop :=
  ∃ key ttl data body err, ⟨.setex key ttl data, .ok ()⟩ ∈ history ∧
    ⟨.createCustomObject body, .error err⟩ ∈ history ∧ before.records key ≠ some ⟨data, ttl⟩

/-- How the two writes of a submission can end, after calls that write nothing. -/
inductive Written (before : Stores) (jobID : Json) (circuit : String) (body : JobBody) :
    History q → Stores → Except String (String × Json) → Prop where
  | notStored {prior : History q} {ttl : Nat} {data : JobData} {err : String}
      (quiet : Quiet prior) :
      Written before jobID circuit body
        (prior ++ [⟨.setex (jobKey jobID.text) ttl data, .error err⟩]) before (.error err)
  | notCreated {prior : History q} {ttl : Nat} {data : JobData} {err : String}
      (quiet : Quiet prior) :
      Written before jobID circuit body
        (prior ++ [⟨.setex (jobKey jobID.text) ttl data, .ok ()⟩,
          ⟨.createCustomObject body, .error err⟩])
        (before.setRecord (jobKey jobID.text) ⟨data, ttl⟩) (.error err)
  | created {prior : History q} {ttl : Nat} {data : JobData} {job : QuantumAerJob}
      (quiet : Quiet prior) (stored : data.circuit = some circuit)
      (free : before.jobs body.key = none) (named : body.jobID = .str job.spec.jobID) :
      Written before jobID circuit body
        (prior ++ [⟨.setex (jobKey jobID.text) ttl data, .ok ()⟩,
          ⟨.createCustomObject body, .ok ()⟩])
        ((before.setRecord (jobKey jobID.text) ⟨data, ttl⟩).setJob body.key job)
        (.ok (jobName jobID, jobID))

/-- Calls that write nothing may come first. -/
theorem Written.prepend {before after : Stores} {jobID : Json} {circuit : String} {body : JobBody}
    {first history : History q} {result : Except String (String × Json)} (quiet : Quiet first)
    (written : Written before jobID circuit body history after result) :
    Written before jobID circuit body (first ++ history) after result := by
  have hQuiet {prior : History q} (hPrior : Quiet prior) : Quiet (first ++ prior) := by
    intro event hEvent
    exact (List.mem_append.mp hEvent).elim (quiet event) (hPrior event)
  cases written with
  | notStored hPrior =>
      rw [← List.append_assoc]
      exact .notStored (hQuiet hPrior)
  | notCreated hPrior =>
      rw [← List.append_assoc]
      exact .notCreated (hQuiet hPrior)
  | created hPrior hStored hFree hNamed =>
      rw [← List.append_assoc]
      exact .created (hQuiet hPrior) hStored hFree hNamed

section Runs
variable {cfg : Config} {before after : Stores} {history : History q}

theorem Serves.setex {key : String} {ttl : Nat} {data : JobData} {answer : Except String Unit}
    (served : Serves q a before (.setex key ttl data) answer after) :
    (∃ err, answer = .error err ∧ after = before) ∨
      answer = .ok () ∧ after = before.setRecord key ⟨data, ttl⟩ := by
  cases answer with
  | error err => exact .inl ⟨err, rfl, served⟩
  | ok _ => exact .inr ⟨rfl, served⟩

theorem Serves.createCustomObject {body : JobBody} {answer : Except String Unit}
    (served : Serves q a before (.createCustomObject body) answer after) :
    (∃ err, answer = .error err ∧ after = before) ∨
      answer = .ok () ∧ ∃ job, before.jobs body.key = none ∧ body.jobID = .str job.spec.jobID ∧
        after = before.setJob body.key job := by
  cases answer with
  | error err => exact .inl ⟨err, rfl, served⟩
  | ok _ =>
      obtain ⟨spec, uid, version, hFree, hAdmitted, hAfter⟩ := served
      exact .inr ⟨rfl, _, hFree, a.jobID hAdmitted, hAfter⟩

theorem createJobData_runs {jobId circuit : String} {result : Except String JobData}
    (run : Runs (Serves q a) before (createJobData q jobId circuit) history after result) :
    ∃ prior data answer, Quiet prior ∧ data.circuit = some circuit ∧
      history = prior ++ [⟨.setex (jobKey jobId) recordTtl data, answer⟩] ∧
      Serves q a before (.setex (jobKey jobId) recordTtl data) answer after ∧
      result = answer.map fun _ => data := by
  obtain ⟨createdAt, m, later, rfl, hFirst, hRun⟩ := runs_ask_iff.mp run
  obtain ⟨updatedAt, m', later', rfl, hSecond, hRest⟩ := runs_ask_iff.mp hRun
  obtain ⟨answer, t, last, rfl, hServed, hEnd⟩ := runs_ask_iff.mp hRest
  have hSame : m' = before := by rw [show m' = m from hSecond, show m = before from hFirst]
  rw [hSame] at hServed
  have hQuiet : Quiet (q := q) [⟨.strftime, createdAt⟩, ⟨.strftime, updatedAt⟩] := by
    simp [Quiet, Call.writes]
  refine ⟨_, ⟨some circuit, none, createdAt, updatedAt⟩, answer, hQuiet, rfl, ?_⟩
  cases answer <;>
  · obtain ⟨rfl, rfl, rfl⟩ := runs_done_iff.mp hEnd
    exact ⟨rfl, hServed, rfl⟩

theorem storeAndCreate_written {circuitsB64 : String} {shots backendName jobID resources : Json}
    {result : Except String (String × Json)}
    (run : Runs (Serves q a) before
      (storeAndCreate q cfg circuitsB64 shots backendName jobID resources) history after result) :
    Written before jobID circuitsB64 (jobBody cfg backendName shots jobID resources)
      history after result := by
  obtain ⟨first, later, m, middle, rfl, hStore, hLater⟩ := runs_bind_iff.mp run
  obtain ⟨prior, data, answer, hQuiet, hCircuit, rfl, hServed, rfl⟩ := createJobData_runs hStore
  rcases hServed.setex with ⟨err, rfl, rfl⟩ | ⟨rfl, rfl⟩
  · obtain ⟨rfl, rfl, rfl⟩ := runs_done_iff.mp hLater
    rw [List.append_nil]
    exact .notStored hQuiet
  · obtain ⟨created, m, last, rfl, hCreate, hEnd⟩ := runs_ask_iff.mp hLater
    rw [List.append_assoc]
    rcases hCreate.createCustomObject with ⟨err, rfl, rfl⟩ | ⟨rfl, job, hFree, hNamed, rfl⟩
    · obtain ⟨rfl, rfl, rfl⟩ := runs_done_iff.mp hEnd
      exact .notCreated hQuiet
    · obtain ⟨rfl, rfl, rfl⟩ := runs_done_iff.mp hEnd
      exact .created hQuiet hCircuit hFree hNamed

theorem createQuantumJob_written {circuitsB64 : String} {shots backendName jobID resources : Json}
    {result : Except String (String × Json)}
    (run : Runs (Serves q a) before
      (createQuantumJob q cfg circuitsB64 shots backendName jobID resources)
      history after result) :
    ∃ used, Written before used circuitsB64 (jobBody cfg backendName shots used resources)
      history after result := by
  rw [createQuantumJob] at run
  split at run
  · exact ⟨_, storeAndCreate_written run⟩
  · obtain ⟨generated, m, later, rfl, hSame, hRun⟩ := runs_ask_iff.mp run
    have hBefore : m = before := hSame
    rw [hBefore] at hRun
    have hQuiet : Quiet (q := q) [⟨.uuid4, generated⟩] := by simp [Quiet, Call.writes]
    exact ⟨_, (storeAndCreate_written hRun).prepend hQuiet⟩

theorem getTarget_runs {backendName : Json} {result : Except String q.Target}
    (run : Runs (Serves q a) before (getTarget q cfg backendName) history after result) :
    Quiet history ∧ after = before ∧
      ∀ target, result = .ok target → TargetOf cfg backendName history target := by
  rw [getTarget] at run
  split at run
  · obtain ⟨rfl, rfl, rfl⟩ := runs_done_iff.mp run
    refine ⟨by simp [Quiet], rfl, ?_⟩
    intro target hTarget
    exact .inl ⟨‹_›, (Except.ok.inj hTarget).symm⟩
  · obtain ⟨rfl, hServed⟩ := runs_query_iff.mp run
    refine ⟨by simp [Quiet, Call.writes], hServed, ?_⟩
    rintro target rfl
    exact .inr (List.mem_singleton_self _)

/-- The answer to a request whose job was, or was not, created. -/
def answered (trace : String → String) : Except String (String × Json) → Response
  | .ok (_, jobID) => accepted jobID
  | .error err => failed trace err

/-- How a request can end: without a write, or with both writes attempted. -/
inductive Ended (cfg : Config) (trace : String → String) (request : Except String Object)
    (before : Stores) : History q → Stores → Response → Prop where
  | refused {history : History q} {response : Response} (quiet : Quiet history)
      (code : response.code ≠ 202) : Ended cfg trace request before history before response
  | attempted {data : Object} {circuit : String} {backendName shots jobID resources : Json}
      {history : History q} {after : Stores} {result : Except String (String × Json)}
      (decoded : request = .ok data) (transpiled : Transpiled cfg data history circuit)
      (written : Written before jobID circuit (jobBody cfg backendName shots jobID resources)
        history after result) :
      Ended cfg trace request before history after (answered trace result)

theorem submit_ended {trace : String → String} {data : Object} {response : Response}
    (run : Runs (Serves q a) before (submit q cfg trace data) history after response) :
    Ended cfg trace (.ok data) before history after response := by
  have hNone : Quiet (q := q) [] := by simp [Quiet]
  rw [submit] at run
  split at run
  · obtain ⟨rfl, rfl, rfl⟩ := runs_done_iff.mp run
    exact .refused hNone (by decide)
  · cases hCircuits : deserializeCircuits q (data.get "circuits_qpy") with
    | error err =>
        rw [hCircuits] at run
        obtain ⟨rfl, rfl, rfl⟩ := runs_done_iff.mp run
        exact .refused hNone (by simp [failed])
    | ok circuits =>
        rw [hCircuits] at run
        obtain ⟨first, later, m, chosen, rfl, hTarget, hRun⟩ := runs_bind_iff.mp run
        obtain ⟨hQuiet, rfl, hChosen⟩ := getTarget_runs hTarget
        cases chosen with
        | error err =>
            obtain ⟨rfl, rfl, rfl⟩ := runs_done_iff.mp hRun
            rw [List.append_nil]
            exact .refused hQuiet (by simp [failed])
        | ok target =>
            cases hCircuit : transpileCircuits q target circuits with
            | error err =>
                simp only [hCircuit] at hRun
                obtain ⟨rfl, rfl, rfl⟩ := runs_done_iff.mp hRun
                rw [List.append_nil]
                exact .refused hQuiet (by simp [failed])
            | ok circuit =>
                simp only [hCircuit] at hRun
                obtain ⟨writes, last, t, result, rfl, hCreate, hEnd⟩ := runs_bind_iff.mp hRun
                obtain ⟨jobID, hWritten⟩ := createQuantumJob_written hCreate
                have hTranspiled :
                    Transpiled cfg data (first ++ writes) circuit :=
                  ⟨circuits, target, hCircuits, (hChosen target rfl).append writes, hCircuit⟩
                have hResponse : last = [] ∧ after = t ∧ response = answered trace result := by
                  cases result <;> exact runs_done_iff.mp hEnd
                obtain ⟨rfl, rfl, rfl⟩ := hResponse
                rw [List.append_nil]
                exact .attempted rfl hTranspiled (hWritten.prepend hQuiet)

theorem transpile_ended {trace : String → String} {body : Except String Object}
    {response : Response}
    (run : Runs (Serves q a) before (transpile q cfg trace body) history after response) :
    Ended cfg trace body before history after response := by
  cases body with
  | error err =>
      obtain ⟨rfl, rfl, rfl⟩ := runs_done_iff.mp run
      exact .refused (by simp [Quiet]) (by simp [failed])
  | ok data => exact submit_ended run

end Runs

/-- The writes of a history come after the calls that write nothing. -/
theorem Quiet.mem_of_append {prior later : History q} {event : Event (Call.Answer q)}
    (quiet : Quiet prior) (mem : event ∈ prior ++ later) (writes : event.1.writes = true) :
    event ∈ later := by
  cases List.mem_append.mp mem with
  | inl hPrior =>
      rw [quiet event hPrior] at writes
      cases writes
  | inr hLater => exact hLater

section AllOrNothing
variable {cfg : Config} {trace : String → String} {body : Except String Object}
  {before after : Stores} {history : History q} {response : Response}

theorem not_stranded_of_created
    (created : ∀ body err, ⟨.createCustomObject body, .error err⟩ ∉ history) :
    ¬ Stranded before history := by
  rintro ⟨_, _, _, body, err, -, hFailed, -⟩
  exact created body err hFailed

theorem allOrNothing_of_unchanged (code : response.code ≠ 202) :
    AllOrNothing cfg body history before after response ↔ after = before := by
  rw [AllOrNothing, if_neg code]

theorem allOrNothing_of_created {data : Object} {circuit key : String} {job : QuantumAerJob}
    {backendName shots jobID resources : Json} {entry : Entry} (decoded : body = .ok data)
    (transpiled : Transpiled cfg data history circuit) (stored : entry.data.circuit = some circuit)
    (free : before.jobs (jobBody cfg backendName shots jobID resources).key = none)
    (named : jobID = .str job.spec.jobID) (record : key = jobKey jobID.text) :
    AllOrNothing cfg body history before
      ((before.setRecord key entry).setJob
        (jobBody cfg backendName shots jobID resources).key job)
      (answered trace (.ok (jobName jobID, jobID))) := by
  have hKey : (jobBody cfg backendName shots jobID resources).key =
      ⟨cfg.k8sNamespace, jobName (.str job.spec.jobID)⟩ := by
    rw [← named]
    rfl
  have hRecord : key = jobKey job.spec.jobID := by
    rw [record, named]
    rfl
  have hAccepted : (answered trace (.ok (jobName jobID, jobID))).code = 202 := rfl
  rw [AllOrNothing, if_pos hAccepted]
  refine ⟨job.spec.jobID, named, ?_, ⟨job, ?_, rfl⟩, data, entry, circuit, decoded, ?_, stored,
    transpiled⟩
  · rw [← hKey]
    exact free
  · rw [← hKey]
    exact Stores.setJob_jobs _ _ _
  · rw [← hRecord]
    exact Stores.setRecord_records _ _ _

/-- With the resource refused, the only trace is the record. -/
theorem stranded_notCreated {prior : History q} {key : String} {ttl : Nat} {data : JobData}
    {request : JobBody} {err : String} (quiet : Quiet prior) :
    Stranded before (prior ++ [⟨.setex key ttl data, .ok ()⟩,
      ⟨.createCustomObject request, .error err⟩]) ↔ before.records key ≠ some ⟨data, ttl⟩ := by
  constructor
  · rintro ⟨key', ttl', data', _, _, hStored, -, hChanged⟩
    have hWrite := quiet.mem_of_append hStored rfl
    simp only [List.mem_cons, List.not_mem_nil, or_false, Sigma.mk.injEq, Call.setex.injEq,
      reduceCtorEq, false_and] at hWrite
    obtain ⟨⟨rfl, rfl, rfl⟩, -⟩ := hWrite
    exact hChanged
  · intro hChanged
    exact ⟨key, ttl, data, request, err, by simp, by simp, hChanged⟩

/-- Submission is all-or-nothing exactly when no record it changed is left without its resource. -/
theorem all_or_nothing (run : Runs (Serves q a) before (transpile q cfg trace body)
    history after response) :
    AllOrNothing cfg body history before after response ↔ ¬ Stranded before history := by
  cases transpile_ended run with
  | refused quiet code =>
      constructor
      · intro _
        apply not_stranded_of_created
        intro request err hFailed
        cases quiet _ hFailed
      · intro _
        exact (allOrNothing_of_unchanged code).mpr rfl
  | attempted decoded transpiled written =>
      cases written with
      | notStored quiet =>
          constructor
          · intro _
            apply not_stranded_of_created
            intro request err hFailed
            have hLast := quiet.mem_of_append hFailed rfl
            simp at hLast
          · intro _
            exact (allOrNothing_of_unchanged (by simp [answered, failed])).mpr rfl
      | notCreated quiet =>
          rw [allOrNothing_of_unchanged (by simp [answered, failed]),
            Stores.setRecord_eq_self_iff, stranded_notCreated quiet, not_not]
      | created quiet stored free named =>
          constructor
          · intro _
            apply not_stranded_of_created
            intro request err hFailed
            have hLast := quiet.mem_of_append hFailed rfl
            simp at hLast
          · intro _
            exact allOrNothing_of_created decoded transpiled stored free named rfl

end AllOrNothing

/-- The schema on a body that leaves everything but its identifier at the defaults. -/
def admitDefaults (body : JobBody) : Option QuantumAerJobSpec :=
  match body.jobID with
  | .str jobID =>
      if body.backendName = .str "aer-simulator" ∧ body.shots = .int 1024 ∧
          body.resources = none then
        some (.defaults body.simulatorImage jobID)
      else none
  | _ => none

def sampleAdmission : Admission where
  admitted := admitDefaults
  jobID := by
    intro body spec hAdmitted
    rw [admitDefaults] at hAdmitted
    split at hAdmitted
    · split at hAdmitted
      · cases hAdmitted
        assumption
      · cases hAdmitted
    · cases hAdmitted

def sampleRequest : Object := [("circuits_qpy", .str "UUlTS0lU"), ("job_id", .str "1")]

def sampleNow : String := "2026-01-09T07:00:00Z"

def sampleEntry : Entry := ⟨⟨some "UUlTS0lU", none, sampleNow, sampleNow⟩, recordTtl⟩

def sampleJob : QuantumAerJob :=
  ⟨"qjob-1", "default", 1, 2, .defaults "aer-simulator:v3" "1", .empty⟩

/-- The calls up to and including the one that writes the record. -/
def sampleWrites : History sampleQiskit :=
  [⟨.strftime, sampleNow⟩, ⟨.strftime, sampleNow⟩,
    ⟨.setex "job:1" sampleEntry.ttl sampleEntry.data, .ok ()⟩]

def sampleBody : JobBody :=
  jobBody sampleConfig (.str "aer-simulator") (.int 1024) (.str "1") .null

/-- The stores of a completed job `1` whose results can be fetched. -/
def occupied : Stores where
  jobs := fun key =>
    if key = ⟨"default", "qjob-1"⟩ then
      some (sampleJob.withStatus { QuantumAerJobStatus.empty with jobStatus := .completed })
    else none
  records := fun key =>
    if key = "job:1" then
      some ⟨⟨some "UUlTS0lU", some "e30=", "2026-01-09T06:39:00Z", "2026-01-09T06:40:00Z"⟩,
        recordTtl⟩
    else none

def duplicateHistory : History sampleQiskit :=
  sampleWrites ++ [⟨.createCustomObject sampleBody, .error "(409) Reason: Conflict"⟩]

/-- The duplicate is refused, and the results of the completed job are gone. -/
theorem duplicate_overwrites : ∃ after response,
    Runs (Serves sampleQiskit sampleAdmission) occupied
      (transpile sampleQiskit sampleConfig id (.ok sampleRequest)) duplicateHistory after response ∧
    response.code = 500 ∧
    (after.records "job:1").bind (fun entry => entry.data.results) = none ∧
    ¬ AllOrNothing sampleConfig (.ok sampleRequest) duplicateHistory occupied after response := by
  refine ⟨_, _, .ask rfl (.ask rfl (.ask rfl (.ask rfl .done))), rfl, rfl, ?_⟩
  intro hNothing
  have hRecords := congrArg (fun stores : Stores => stores.records "job:1") hNothing
  revert hRecords
  decide

def vacant : Stores := ⟨fun _ => none, fun _ => none⟩

def acceptedHistory : History sampleQiskit :=
  sampleWrites ++ [⟨.createCustomObject sampleBody, .ok ()⟩]

def acceptedStores : Stores :=
  (vacant.setRecord "job:1" sampleEntry).setJob sampleBody.key sampleJob

theorem all_or_nothing_accepted :
    AllOrNothing sampleConfig (.ok sampleRequest) acceptedHistory vacant acceptedStores
      (accepted (.str "1")) := by
  have hCreated : Serves sampleQiskit sampleAdmission (vacant.setRecord "job:1" sampleEntry)
      (.createCustomObject sampleBody) (.ok ()) acceptedStores :=
    ⟨.defaults "aer-simulator:v3" "1", 1, 2, rfl, rfl, rfl⟩
  have hRun : Runs (Serves sampleQiskit sampleAdmission) vacant
      (transpile sampleQiskit sampleConfig id (.ok sampleRequest)) acceptedHistory
      acceptedStores (accepted (.str "1")) :=
    .ask rfl (.ask rfl (.ask rfl (.ask hCreated .done)))
  apply (all_or_nothing hRun).mpr
  apply not_stranded_of_created
  intro request err hFailed
  simp [acceptedHistory, sampleWrites] at hFailed

end QuantumService.Service
