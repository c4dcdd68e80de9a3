import QuantumService.Deployment.Formats

/-! What the calls of `result` come to. No two calls for a job come to different ends, and
what a client gets comes from a run of the very circuits it gave to the backend. -/
namespace QuantumService
open Interaction Client

variable {remote : Remote} {setup : Setup}

namespace Deployment
variable {d : Deployment setup} {client client' : ClientState remote} {job : RemoteAerJob}
  {jobID : String}

/-- Results that were answered are those of a job that was read as completed. -/
theorem read_of_result {response : Service.Response} {resultB64 : Json}
    (said : d.Said (.result jobID) response)
    (found : response.body.lookup "result" = some resultB64) :
    d.Read jobID .completed ∧ response.body.get "status" = .str "success" := by
  obtain ⟨i, ⟨endpoint, history, rest, path⟩, hRequest, hEndpoint, hDone⟩ := said
  dsimp only at hEndpoint hDone
  subst hEndpoint hDone
  obtain ⟨⟨status, hMem, hState⟩, hSuccess⟩ :=
    (Service.getJobResultEndpoint_reads setup.cfg jobID).result path resultB64 found
  exact ⟨⟨i, _, status, hRequest, hMem, hState⟩, hSuccess⟩

/-- A status that was answered was read. -/
theorem read_of_status {response : Service.Response} {state : JobState}
    (said : d.Said (.status jobID) response) (code : response.code = 200)
    (answered : response.body.get "jobStatus" = .str state) : d.Read jobID state := by
  obtain ⟨i, ⟨endpoint, history, rest, path⟩, hRequest, hEndpoint, hDone⟩ := said
  dsimp only at hEndpoint hDone
  subst hEndpoint hDone
  have hMem := (Service.getJobStatusEndpoint_reads setup.cfg jobID).result path code
  exact ⟨i, _, response.body, hRequest, hMem, answered⟩

/-- A request that was accepted is the submission of the job it names. -/
theorem takes_of_accepted {data : Object} {response : Service.Response}
    (said : d.Said (.transpile (.ok data)) response) (code : response.code = 202) :
    ∃ i request, d.requests i = some request ∧ request.endpoint = .transpile (.ok data) ∧
      d.Takes i (response.body.get "job_id").text := by
  obtain ⟨i, ⟨endpoint, history, rest, path⟩, hRequest, hEndpoint, hDone⟩ := said
  dsimp only at hEndpoint hDone
  subst hEndpoint hDone
  obtain ⟨data', id, hDecoded, rfl, hId, -⟩ :=
    (Service.transpile_writes setup.cfg setup.trace (.ok data)).result path code
  exact ⟨i, _, hRequest, rfl, _, _, hRequest, rfl, hId⟩

/-- A value that `result` returned was decoded from a text that was delivered. -/
theorem Reported.delivered {value : Option remote.Value}
    (reported : d.Reported remote job (.ok value)) (run : Reaches step Sure Fresh d) :
    ∃ text, d.Delivered job.jobId text ∧ remote.decode (.str text) = .ok value := by
  cases reported with
  | @value response resultB64 _ said found decoded =>
      obtain ⟨-, hSuccess⟩ := read_of_result said found
      obtain ⟨i, request, hRequest, hEndpoint, hDone⟩ := said
      obtain ⟨-, text, -, -, hText, -⟩ := answer_of_run run hRequest hEndpoint hDone hSuccess
      have hSame : response.body.get "result" = resultB64 := by
        rw [Object.get, Object.getD, found, Option.getD_some]
      rw [← hSame, hText] at decoded
      exact ⟨text, ⟨i, request, response, hRequest, hEndpoint, hDone, hSuccess, hText⟩, decoded⟩

/-- The value is what the client makes of the results that its submission yields. -/
def Own (d : Deployment setup) (client : ClientState remote) (value : Option remote.Value) : Prop :=
  ∃ job circuitsB64 hex i request text, client.job = some job ∧
    remote.dump (asList client.circuits) = .ok circuitsB64 ∧ d.requests i = some request ∧
    request.endpoint = .transpile (.ok (client.json circuitsB64 hex)) ∧
    d.Yields job.jobId (client.json circuitsB64 hex) request.history text ∧
    remote.decode (.str text) = .ok value

end Deployment

namespace System
variable {s : System setup remote} {n m : Nat} {client client' : ClientState remote}
open Deployment

/-- A client gets its own results, in every run in which no reconcile guesses: what `result`
returns was decoded from the results of a run of the client's circuits. -/
theorem own_of_run (run : Reaches step Sure Fresh s) (present : s.clients n = some client)
    {value : Option remote.Value} (returned : .ok value ∈ client.outcomes) :
    s.deployment.Own client value := by
  have hDeployment := deployment_of_run run
  have hTold := told_of_run run present
  obtain ⟨job, hJob, hReported⟩ := hTold.outcomes returned
  obtain ⟨text, hDelivered, hDecoded⟩ := hReported.delivered hDeployment
  obtain ⟨circuitsB64, hex, accepted, hDump, hSaid, hCode, hId⟩ := hTold.accepted hJob
  obtain ⟨i, posted, hPosted, hBody, hTakes⟩ := takes_of_accepted hSaid hCode
  obtain ⟨j, submission, data, hSubmission, hData, hTakes', hYields⟩ :=
    hDelivered.submitted hDeployment
  -- the submission whose results these are is the request of this client
  rw [← hId] at hTakes
  obtain rfl := (claimed_of_run (sourced_of_run hDeployment)).unique hTakes hTakes'
  obtain rfl := Option.some.inj (hPosted.symm.trans hSubmission)
  have hSame := hBody.symm.trans hData
  cases hSame
  exact ⟨job, circuitsB64, hex, i, posted, text, hJob, hDump, hPosted, hBody, hYields, hDecoded⟩

end System

section Circuits
variable {formats : Formats} {cfg : Service.Config} {trace : String → String} {schema : Schema}

/-- The value is what the JSON of these results says: a simulator of the client's job
sampled them in a run of the client's circuits, as they were transpiled for its request,
on the client's backend and with so many shots. -/
def Ran (d : Deployment (formats.setup cfg trace schema)) (client : ClientState formats.remote)
    (shots : Int) (value : Option formats.Value) : Prop :=
  ∃ job circuitsB64 hex i request target isaCircuits uid process results bytes,
    client.job = some job ∧ d.requests i = some request ∧
    request.endpoint = .transpile (.ok (client.json circuitsB64 hex)) ∧
    Service.TargetOf cfg (.str client.backend.name) request.history target ∧
    formats.runPasses target (asList client.circuits) = .ok isaCircuits ∧
    d.processes uid = some process ∧
    process.Serves (Deployment.jobNamed (formats.setup cfg trace schema) job.jobId) ∧
    ⟨.runSimulation isaCircuits shots client.backend.name, .ok results⟩ ∈ process.history ∧
    formats.jsonDumps results = .ok bytes ∧ formats.jsonLoads bytes = .ok value

/-- What a submission of the client yields comes from a run of its circuits. -/
theorem ran_of_own {d : Deployment (formats.setup cfg trace schema)}
    {client : ClientState formats.remote} {shots : Int} {value : Option formats.Value}
    (own : d.Own client value) (asked : client.options.getD "shots" (.int 1024) = .int shots) :
    Ran d client shots value := by
  obtain ⟨job, circuitsB64, hex, i, request, text, hJob, hDump, hRequest, hPosted, hYields,
    hDecoded⟩ := own
  obtain ⟨circuit, isaCircuits, results, spec, uid, process,
    ⟨circuits, target, hCircuits, hTarget, hTranspiled⟩, hLoad, hAdmitted, hProcess, hServes, hRan,
    hSerialized⟩ := hYields
  obtain rfl := circuits_of_dump hDump hCircuits
  obtain ⟨bytes, hBytes, hValue⟩ := Formats.decode_of_serialize hSerialized hDecoded
  have hShots : (Service.requestedBody cfg (client.json circuitsB64 hex) (.str job.jobId)).shots =
    .int shots := asked
  have hSpecShots := schema.shots hAdmitted hShots
  have hSpecBackend := schema.backendName hAdmitted rfl
  rw [hSpecShots, hSpecBackend] at hRan
  exact ⟨job, circuitsB64, hex, i, request, target, isaCircuits, uid, process, results, bytes, hJob,
    hRequest, hPosted, hTarget, isaCircuits_of_transpile hTranspiled hLoad, hProcess, hServes, hRan,
    hBytes, hValue⟩

end Circuits
end QuantumService
