import QuantumService.Client.Backend
import QuantumService.Deployment.Verdicts
import QuantumService.Interaction.Party

/-! The system with its clients. A client runs circuits on a backend and asks the job it
is given for its results, as often as it likes. Its requests are requests to the
transpiler service, which go on there even when the client gave up waiting. -/
namespace QuantumService
open Interaction Client

/-- The code of the clients that is not theirs. -/
structure Remote where
  Circuit : Type
  Value : Type
  /-- `qpy.dump`, then `base64.b64encode`. -/
  dump : List Circuit → Except String String
  /-- `base64.b64decode`, then `json.loads` with `RuntimeDecoder`, which may be `None`. -/
  decode : Json → Except String (Option Value)

/-- What a client observes on its own machine. -/
inductive Observed where
  | text (text : String)
  | time (time : ℚ)
  | slept

namespace Client

/-- The routes of the service that `run` requests. -/
def RunCall.protocol : Protocol RunCall RunCall.Answer Endpoint Service.Response Observed where
  route
    | .post ["transpile"] json => some (.transpile (.ok json))
    | _ => none
  heard
    | .post _ _, result => some result
    | .uuid4, _ => none
  own
    | .uuid4, .text hex => some hex
    | _, _ => none

/-- The routes of the service that `result` requests. -/
def Call.protocol : Protocol Call Call.Answer Endpoint Service.Response Observed where
  route
    | .get ["job", jobID, "status"] => some (.status jobID)
    | .get ["job", jobID, "result"] => some (.result jobID)
    | _ => none
  heard
    | .get _, result => some result
    | .time, _ | .sleep _, _ => none
  own
    | .time, .time now => some now
    | .sleep _, .slept => some ()
    | _, _ => none

end Client

variable {remote : Remote} {setup : Setup}

/-- What a client is doing. The cache of its job is empty while it polls. -/
inductive Activity (remote : Remote) (backend : RemoteAerBackend)
    (circuits : remote.Circuit ⊕ List remote.Circuit) (options : Object) where
  | submitting (party : Party RunCall.protocol (backend.run remote.dump circuits options))
  | refused (raised : RunRaised)
  | holding (job : RemoteAerJob) (cache : Option remote.Value)
  | polling (job : RemoteAerJob) (fuel : Nat)
      (party : Party Call.protocol (job.result remote.decode fuel none))

/-- `outcomes` lists what the calls of `result` returned or raised so far. -/
structure ClientState (remote : Remote) where
  backend : RemoteAerBackend
  circuits : remote.Circuit ⊕ List remote.Circuit
  options : Object
  activity : Activity remote backend circuits options
  outcomes : List (Except Raised (Option remote.Value))

namespace ClientState
variable (client : ClientState remote)

/-- The job that `run` returned. -/
def job : Option RemoteAerJob :=
  match client.activity with
  | .submitting _ | .refused _ => none
  | .holding job _ | .polling job _ _ => some job

/-- Go on from here in `run`. -/
def continueRun
    (party : Party RunCall.protocol
      (client.backend.run remote.dump client.circuits client.options)) : ClientState remote :=
  match party.rest with
  | .ask _ _ => { client with activity := .submitting party }
  | .done (.ok job) => { client with activity := .holding job none }
  | .done (.error raised) => { client with activity := .refused raised }

/-- Go on from here in `result`, which caches what it returns. -/
def continueResult (job : RemoteAerJob) (fuel : Nat)
    (party : Party Call.protocol (job.result remote.decode fuel none)) : ClientState remote :=
  match party.rest with
  | .ask _ _ | .done none => { client with activity := .polling job fuel party }
  | .done (some (.ok value)) =>
      { client with activity := .holding job value, outcomes := .ok value :: client.outcomes }
  | .done (some (.error raised)) =>
      { client with activity := .holding job none, outcomes := .error raised :: client.outcomes }

/-- A client calls `run`. -/
def run (remote : Remote) (backend : RemoteAerBackend)
    (circuits : remote.Circuit ⊕ List remote.Circuit) (options : Object) : ClientState remote :=
  let party := .start RunCall.protocol (backend.run remote.dump circuits options)
  continueRun ⟨backend, circuits, options, .submitting party, []⟩ party

/-- A client calls `result` of the job it holds. -/
def result (fuel : Nat) : Option (ClientState remote) :=
  match client.activity with
  | .holding _ (some value) =>
      some { client with outcomes := .ok (some value) :: client.outcomes }
  | .holding job none =>
      some (client.continueResult job fuel
        (.start Call.protocol (job.result remote.decode fuel none)))
  | .submitting _ | .refused _ | .polling _ _ _ => none

/-- The request for the next call. -/
def query : Option Endpoint :=
  match client.activity with
  | .submitting party => party.query
  | .polling _ _ party => party.query
  | .refused _ | .holding _ _ => none

def send (i : Nat) : ClientState remote :=
  match client.activity with
  | .submitting party => { client with activity := .submitting (party.send i) }
  | .polling job fuel party => { client with activity := .polling job fuel (party.send i) }
  | .refused _ | .holding _ _ => client

def hear (answers : Nat → Option Service.Response) (hearing : Hearing Observed) :
    Option (ClientState remote) :=
  match client.activity with
  | .submitting party => (party.hear answers hearing).map client.continueRun
  | .polling job fuel party => (party.hear answers hearing).map (client.continueResult job fuel)
  | .refused _ | .holding _ _ => none

end ClientState

/-- The deployment and the clients that were ever started. -/
structure System (setup : Setup) (remote : Remote) where
  deployment : Deployment setup
  clients : Nat → Option (ClientState remote)

namespace Deployment

/-- The answer to a request, once it is there. -/
def answerOf (d : Deployment setup) (i : Nat) : Option Service.Response :=
  (d.requests i).bind fun request =>
    match request.rest with
    | .done response => some response
    | .ask _ _ => none

end Deployment

namespace System
variable (s : System setup remote)

def setClient (n : Nat) (client : ClientState remote) : System setup remote :=
  { s with clients := Function.update s.clients n (some client) }

/-- `deploy` are the moves of the deployment, among them requests of others. -/
inductive Action (setup : Setup) (remote : Remote) where
  | deploy (a : Deployment.Action setup)
  | run (n : Nat) (backend : RemoteAerBackend) (circuits : remote.Circuit ⊕ List remote.Circuit)
      (options : Object)
  | result (n : Nat) (fuel : Nat)
  | send (n : Nat) (i : Nat)
  | hear (n : Nat) (hearing : Hearing Observed)

def step : Action setup remote → Option (System setup remote)
  | .deploy a => (s.deployment.step a).map fun d => { s with deployment := d }
  | .run n backend circuits options =>
      match s.clients n with
      | none => some (s.setClient n (.run remote backend circuits options))
      | some _ => none
  | .result n fuel => (s.clients n).bind fun client => (client.result fuel).map (s.setClient n)
  | .send n i => (s.clients n).bind fun client => client.query.bind fun endpoint =>
      (s.deployment.step (.receive i endpoint)).map fun d =>
        { s with deployment := d }.setClient n (client.send i)
  | .hear n hearing => (s.clients n).bind fun client =>
      (client.hear s.deployment.answerOf hearing).map (s.setClient n)

/-- The move of the deployment that is part of an action. -/
def deploys : Action setup remote → Option (Deployment.Action setup)
  | .deploy a => some a
  | .send n i => (s.clients n).bind fun client => client.query.map fun endpoint =>
      .receive i endpoint
  | .run _ _ _ _ | .result _ _ | .hear _ _ => none

/-- What is allowed in the runs of the deployment in which no reconcile guesses. -/
def Sure (s : System setup remote) (a : Action setup remote) : Prop :=
  ∀ a', s.deploys a = some a' → Deployment.Sure s.deployment a'

/-- `Sure`, as it can be checked along a run. -/
def sure (s : System setup remote) (a : Action setup remote) : Bool :=
  (s.deploys a).all fun a' => s.deployment.managed a' && !s.deployment.guesses a'

theorem sure_of_check {s : System setup remote} {a : Action setup remote} (h : s.sure a = true) :
    Sure s a := by
  intro a' hDeploys
  rw [sure, hDeploys, Option.all_some, Bool.and_eq_true_iff, Bool.not_eq_true'] at h
  exact ⟨Deployment.managed_of_check h.1, h.2⟩

/-- A system without clients in which nothing has happened yet. -/
structure Fresh (s : System setup remote) : Prop where
  deployment : Deployment.Fresh s.deployment
  unused : ∀ n, s.clients n = none

end System

section Told
variable {d d' : Deployment setup} {client : ClientState remote} {job : RemoteAerJob}

/-- The request for the client's circuits. -/
def ClientState.json (client : ClientState remote) (circuitsB64 hex : String) : Object :=
  client.backend.json circuitsB64 (client.options.getD "shots" (.int 1024))
    (RemoteAerBackend.jobIdOf hex)

/-- The job was accepted for the client's circuits. -/
def Deployment.Accepted (d : Deployment setup) (client : ClientState remote)
    (job : RemoteAerJob) : Prop :=
  ∃ circuitsB64 hex response, remote.dump (asList client.circuits) = .ok circuitsB64 ∧
    d.Said (.transpile (.ok (client.json circuitsB64 hex))) response ∧ response.code = 202 ∧
    job.jobId = (response.body.get "job_id").text

/-- What `result` made of the answers to the requests for its job. -/
inductive Deployment.Reported (d : Deployment setup) (remote : Remote) (job : RemoteAerJob) :
    Except Raised (Option remote.Value) → Prop where
  | value {response : Service.Response} {resultB64 : Json} {value : Option remote.Value}
      (said : d.Said (.result job.jobId) response)
      (found : response.body.lookup "result" = some resultB64)
      (decoded : remote.decode resultB64 = .ok value) : d.Reported remote job (.ok value)
  | failed {response : Service.Response} (said : d.Said (.status job.jobId) response)
      (code : response.code = 200) (state : response.body.get "jobStatus" = .str "failed") :
      d.Reported remote job
        (.error (.failed (response.body.getD "errorMessage" (.str "Unknown error"))))
  | timeout : d.Reported remote job (.error job.timeoutError)
  | keyError {key : String} : d.Reported remote job (.error (.keyError key))
  | decoding {message : String} : d.Reported remote job (.error (.decoding message))

open Deployment

/-- What a client has of its job, and was told of it, is what was answered. -/
structure Told (d : Deployment setup) (client : ClientState remote) : Prop where
  submitting : ∀ {party}, client.activity = .submitting party → party.Informed d.Asked d.Said
  polling : ∀ {job fuel party}, client.activity = .polling job fuel party →
    party.Informed d.Asked d.Said
  accepted : ∀ {job}, client.job = some job → d.Accepted client job
  cached : ∀ {job value}, client.activity = .holding job (some value) →
    d.Reported remote job (.ok (some value))
  outcomes : ∀ {outcome}, outcome ∈ client.outcomes →
    ∃ job, client.job = some job ∧ d.Reported remote job outcome

/-- A request that `run` was told of an answer to was answered so. -/
theorem said_of_post {path : List String} {json : Object} {response : Service.Response}
    (source : Party.Source RunCall.protocol d.Said ⟨.post path json, .ok response⟩)
    (routed : path = ["transpile"]) : d.Said (.transpile (.ok json)) response := by
  subst routed
  generalize hEvent : (⟨.post ["transpile"] json, .ok response⟩ : Event RunCall.Answer) = e
    at source
  cases source with
  | response hRouted hHeard hSaid =>
      cases hEvent
      cases hRouted
      cases hHeard
      exact hSaid
  | error hHeard =>
      cases hEvent
      cases hHeard
  | own hOwn =>
      cases hEvent
      cases hOwn

/-- A request that `result` was told of an answer to was answered so. -/
theorem said_of_get {path : List String} {endpoint : Endpoint} {response : Service.Response}
    (source : Party.Source Call.protocol d.Said ⟨.get path, .ok response⟩)
    (routed : Call.protocol.route (.get path) = some endpoint) : d.Said endpoint response := by
  generalize hEvent : (⟨.get path, .ok response⟩ : Event Call.Answer) = e at source
  cases source with
  | response hRouted hHeard hSaid =>
      cases hEvent
      cases hHeard
      rw [routed] at hRouted
      cases hRouted
      exact hSaid
  | error hHeard =>
      cases hEvent
      cases hHeard
  | own hOwn =>
      cases hEvent
      cases hOwn

theorem Deployment.Accepted.continues (accepted : d.Accepted client job)
    (continues : d.Continues d') : d'.Accepted client job := by
  obtain ⟨circuitsB64, hex, response, hDump, hSaid, hCode, hJob⟩ := accepted
  exact ⟨circuitsB64, hex, response, hDump, hSaid.continues continues, hCode, hJob⟩

theorem Deployment.Reported.continues {outcome : Except Raised (Option remote.Value)}
    (reported : d.Reported remote job outcome) (continues : d.Continues d') :
    d'.Reported remote job outcome := by
  cases reported with
  | value said found decoded => exact .value (said.continues continues) found decoded
  | failed said code state => exact .failed (said.continues continues) code state
  | timeout => exact .timeout
  | keyError => exact .keyError
  | decoding => exact .decoding

/-- What clients were told stays so while the deployment goes on. -/
theorem Told.continues (told : Told d client) (continues : d.Continues d') : Told d' client where
  submitting := fun hActivity => (told.submitting hActivity).mono
    (fun _ _ hAsked => hAsked.continues continues) fun _ _ hSaid => hSaid.continues continues
  polling := fun hActivity => (told.polling hActivity).mono
    (fun _ _ hAsked => hAsked.continues continues) fun _ _ hSaid => hSaid.continues continues
  accepted := fun hJob => (told.accepted hJob).continues continues
  cached := fun hActivity => (told.cached hActivity).continues continues
  outcomes := by
    intro outcome hMem
    obtain ⟨job, hJob, hReported⟩ := told.outcomes hMem
    exact ⟨job, hJob, hReported.continues continues⟩

/-- A client in `run` has no outcomes yet. -/
theorem Told.no_outcomes (told : Told d client) (jobless : client.job = none) :
    client.outcomes = [] := by
  apply List.eq_nil_iff_forall_not_mem.mpr
  intro outcome hMem
  obtain ⟨job, hJob, -⟩ := told.outcomes hMem
  rw [jobless] at hJob
  cases hJob

theorem told_continueRun (unasked : client.outcomes = [])
    {party : Party RunCall.protocol
      (client.backend.run remote.dump client.circuits client.options)}
    (informed : party.Informed d.Asked d.Said) : Told d (client.continueRun party) := by
  obtain ⟨backend, circuits, options, activity, outcomes⟩ := client
  obtain ⟨history, rest, path, sent⟩ := party
  dsimp only at unasked path
  subst unasked
  cases rest with
  | ask call next =>
      refine ⟨?_, by rintro _ _ _ ⟨⟩, by rintro _ ⟨⟩, by rintro _ _ ⟨⟩, by rintro _ ⟨⟩⟩
      rintro _ ⟨⟩
      exact informed
  | done result =>
      cases result with
      | error raised =>
          exact ⟨by rintro _ ⟨⟩, by rintro _ _ _ ⟨⟩, by rintro _ ⟨⟩, by rintro _ _ ⟨⟩,
            by rintro _ ⟨⟩⟩
      | ok job =>
          refine ⟨by rintro _ ⟨⟩, by rintro _ _ _ ⟨⟩, ?_, by rintro _ _ ⟨⟩, by rintro _ ⟨⟩⟩
          rintro _ ⟨⟩
          obtain ⟨circuitsB64, hex, response, hDump, hMem, hCode, hJob⟩ :=
            RemoteAerBackend.run_follows.result path job rfl
          exact ⟨circuitsB64, hex, response, hDump, said_of_post (informed.told _ hMem) rfl, hCode,
            hJob⟩

theorem told_run {backend : RemoteAerBackend} {circuits : remote.Circuit ⊕ List remote.Circuit}
    {options : Object} : Told d (.run remote backend circuits options) := by
  unfold ClientState.run
  exact told_continueRun rfl Party.informed_start

/-- What is heard of a job is reported of it. -/
theorem reported_of_heard {history : List (Event Call.Answer)}
    (told : ∀ e ∈ history, Party.Source Call.protocol d.Said e)
    {outcome : Except Raised (Option remote.Value)}
    (heard : RemoteAerJob.Heard job remote.decode history outcome) :
    d.Reported remote job outcome := by
  cases heard with
  | value answered found decoded => exact .value (said_of_get (told _ answered) rfl) found decoded
  | failed answered code state => exact .failed (said_of_get (told _ answered) rfl) code state
  | timeout => exact .timeout
  | keyError => exact .keyError
  | decoding => exact .decoding

theorem told_continueResult (accepted : d.Accepted client job)
    (reported : ∀ outcome ∈ client.outcomes, d.Reported remote job outcome) {fuel : Nat}
    {party : Party Call.protocol (job.result remote.decode fuel none)}
    (informed : party.Informed d.Asked d.Said) : Told d (client.continueResult job fuel party) := by
  obtain ⟨backend, circuits, options, activity, outcomes⟩ := client
  obtain ⟨history, rest, path, sent⟩ := party
  have hPolling : Told d (⟨backend, circuits, options,
      .polling job fuel ⟨history, rest, path, sent⟩, outcomes⟩ : ClientState remote) := by
    refine ⟨by rintro _ ⟨⟩, ?_, ?_, by rintro _ _ ⟨⟩, fun hMem => ⟨job, rfl, reported _ hMem⟩⟩
    · rintro _ _ _ ⟨⟩
      exact informed
    · rintro _ ⟨⟩
      exact accepted
  cases rest with
  | ask call next => exact hPolling
  | done result =>
      cases result with
      | none => exact hPolling
      | some outcome =>
          have hHeard := (RemoteAerJob.result_follows fuel).result path outcome rfl
          have hReported := reported_of_heard informed.told hHeard
          have hOutcomes : ∀ {other}, other ∈ outcome :: outcomes →
              d.Reported remote job other := by
            intro other hMem
            rcases List.mem_cons.mp hMem with rfl | hOld
            · exact hReported
            · exact reported other hOld
          cases outcome with
          | error raised =>
              refine ⟨by rintro _ ⟨⟩, by rintro _ _ _ ⟨⟩, ?_, by rintro _ _ ⟨⟩,
                fun hMem => ⟨job, rfl, hOutcomes hMem⟩⟩
              rintro _ ⟨⟩
              exact accepted
          | ok value =>
              refine ⟨by rintro _ ⟨⟩, by rintro _ _ _ ⟨⟩, ?_, ?_,
                fun hMem => ⟨job, rfl, hOutcomes hMem⟩⟩
              · rintro _ ⟨⟩
                exact accepted
              · rintro _ _ ⟨⟩
                exact hReported

/-- A client goes on with the job it has. -/
theorem Told.result (told : Told d client) {fuel : Nat} {client' : ClientState remote}
    (asked : client.result fuel = some client') : Told d client' := by
  obtain ⟨backend, circuits, options, activity, outcomes⟩ := client
  cases activity with
  | submitting | refused | polling => cases asked
  | holding job cache =>
      have hReported : ∀ outcome ∈ outcomes, d.Reported remote job outcome := by
        intro outcome hMem
        obtain ⟨_, ⟨⟩, hReported⟩ := told.outcomes hMem
        exact hReported
      cases cache with
      | none =>
          cases asked
          exact told_continueResult (told.accepted rfl) hReported Party.informed_start
      | some value =>
          cases asked
          refine ⟨by rintro _ ⟨⟩, by rintro _ _ _ ⟨⟩, told.accepted, told.cached, ?_⟩
          intro outcome hMem
          rcases List.mem_cons.mp hMem with rfl | hOld
          · exact ⟨job, rfl, told.cached rfl⟩
          · exact ⟨job, rfl, hReported outcome hOld⟩

theorem Told.send (told : Told d client) {endpoint : Endpoint}
    (queried : client.query = some endpoint) {i : Nat} (now : d.Asked i endpoint) :
    Told d (client.send i) := by
  obtain ⟨backend, circuits, options, activity, outcomes⟩ := client
  cases activity with
  | refused | holding => cases queried
  | submitting party =>
      refine ⟨?_, by rintro _ _ _ ⟨⟩, by rintro _ ⟨⟩, by rintro _ _ ⟨⟩, told.outcomes⟩
      rintro _ ⟨⟩
      exact (told.submitting rfl).send queried now
  | polling job fuel party =>
      refine ⟨by rintro _ ⟨⟩, ?_, told.accepted, by rintro _ _ ⟨⟩, told.outcomes⟩
      rintro _ _ _ ⟨⟩
      exact (told.polling rfl).send queried now

/-- The answer to a request is what it was answered. -/
theorem said_of_answerOf {i : Nat} {endpoint : Endpoint} {response : Service.Response}
    (asked : d.Asked i endpoint) (answered : d.answerOf i = some response) :
    d.Said endpoint response := by
  obtain ⟨⟨_, history, rest, path⟩, hRequest, rfl⟩ := asked
  rw [answerOf, hRequest, Option.bind_some] at answered
  cases rest with
  | ask call next => cases answered
  | done result =>
      cases answered
      exact ⟨i, _, hRequest, rfl, rfl⟩

theorem Told.hear (told : Told d client) {hearing : Hearing Observed}
    {client' : ClientState remote} (heard : client.hear d.answerOf hearing = some client') :
    Told d client' := by
  have hTruthful := fun i endpoint response => @said_of_answerOf setup d i endpoint response
  obtain ⟨backend, circuits, options, activity, outcomes⟩ := client
  cases activity with
  | refused | holding => cases heard
  | submitting party =>
      obtain ⟨party', hHeard, rfl⟩ := Option.map_eq_some_iff.mp heard
      exact told_continueRun (told.no_outcomes rfl)
        ((told.submitting rfl).hear hTruthful hHeard)
  | polling job fuel party =>
      obtain ⟨party', hHeard, rfl⟩ := Option.map_eq_some_iff.mp heard
      apply told_continueResult (told.accepted rfl) _ ((told.polling rfl).hear hTruthful hHeard)
      intro outcome hMem
      obtain ⟨_, ⟨⟩, hReported⟩ := told.outcomes hMem
      exact hReported

end Told

namespace System
variable {s : System setup remote}
open Deployment

/-- A step of the deployment, as part of a step of the system. -/
theorem deploys_of_step {a : Action setup remote} {t : System setup remote}
    (stepped : s.step a = some t) :
    t.deployment = s.deployment ∨
      ∃ a', s.deploys a = some a' ∧ s.deployment.step a' = some t.deployment := by
  cases a with
  | deploy a =>
      obtain ⟨d, hStep, rfl⟩ := Option.map_eq_some_iff.mp stepped
      exact .inr ⟨a, rfl, hStep⟩
  | send n i =>
      obtain ⟨client, hClient, hSend⟩ := Option.bind_eq_some_iff.mp stepped
      obtain ⟨endpoint, hQuery, hReceive⟩ := Option.bind_eq_some_iff.mp hSend
      obtain ⟨d, hStep, rfl⟩ := Option.map_eq_some_iff.mp hReceive
      refine .inr ⟨.receive i endpoint, ?_, hStep⟩
      simp [deploys, hClient, hQuery]
  | run n backend circuits options =>
      simp only [step] at stepped
      split at stepped
      · cases stepped
        exact .inl rfl
      · cases stepped
  | result n fuel =>
      obtain ⟨client, hClient, hResult⟩ := Option.bind_eq_some_iff.mp stepped
      obtain ⟨client', hResult', rfl⟩ := Option.map_eq_some_iff.mp hResult
      exact .inl rfl
  | hear n hearing =>
      obtain ⟨client, hClient, hHear⟩ := Option.bind_eq_some_iff.mp stepped
      obtain ⟨client', hHear', rfl⟩ := Option.map_eq_some_iff.mp hHear
      exact .inl rfl

/-- The deployment of a run goes through a run of its own. -/
theorem deployment_of_run (run : Reaches step Sure Fresh s) :
    Reaches Deployment.step Deployment.Sure Deployment.Fresh s.deployment := by
  refine run.project System.deployment (fun _ fresh => fresh.deployment) ?_
  intro s a t _ sure stepped reached
  rcases deploys_of_step stepped with hSame | ⟨a', hDeploys, hStep⟩
  · rw [hSame]
    exact reached
  · exact .step reached (sure a' hDeploys) hStep

theorem continues_of_step {a : Action setup remote} {t : System setup remote}
    (stepped : s.step a = some t) : s.deployment.Continues t.deployment := by
  rcases deploys_of_step stepped with hSame | ⟨a', -, hStep⟩
  · rw [hSame]
    exact .of_eq rfl
  · exact (moves_of_step hStep).continues

theorem told_of_run (run : Reaches step Sure Fresh s) {n : Nat} {client : ClientState remote}
    (present : s.clients n = some client) : Told s.deployment client := by
  have hAll : ∀ n client, s.clients n = some client → Told s.deployment client := by
    apply run.invariant
    · intro s fresh n client hClient
      rw [fresh.unused] at hClient
      cases hClient
    · intro s a t _ told _ stepped n client hClient
      have hContinues := continues_of_step stepped
      cases a with
      | deploy a =>
          obtain ⟨d, hStep, rfl⟩ := Option.map_eq_some_iff.mp stepped
          exact (told n client hClient).continues hContinues
      | run m backend circuits options =>
          simp only [step] at stepped
          split at stepped
          · cases stepped
            rcases update_cases hClient with ⟨rfl, rfl⟩ | hOld
            · exact told_run
            · exact told n client hOld
          · cases stepped
      | result m fuel =>
          obtain ⟨client', hClient', hResult⟩ := Option.bind_eq_some_iff.mp stepped
          obtain ⟨after, hAfter, rfl⟩ := Option.map_eq_some_iff.mp hResult
          rcases update_cases hClient with ⟨rfl, rfl⟩ | hOld
          · exact (told _ client' hClient').result hAfter
          · exact told n client hOld
      | send m i =>
          obtain ⟨client', hClient', hSend⟩ := Option.bind_eq_some_iff.mp stepped
          obtain ⟨endpoint, hQuery, hReceive⟩ := Option.bind_eq_some_iff.mp hSend
          obtain ⟨d, hStep, rfl⟩ := Option.map_eq_some_iff.mp hReceive
          rcases update_cases hClient with ⟨rfl, rfl⟩ | hOld
          · apply ((told _ client' hClient').continues hContinues).send hQuery
            cases moves_of_step hStep with
            | receive fresh => exact ⟨_, Function.update_self .., rfl⟩
          · exact (told n client hOld).continues hContinues
      | hear m hearing =>
          obtain ⟨client', hClient', hHear⟩ := Option.bind_eq_some_iff.mp stepped
          obtain ⟨after, hAfter, rfl⟩ := Option.map_eq_some_iff.mp hHear
          rcases update_cases hClient with ⟨rfl, rfl⟩ | hOld
          · exact (told _ client' hClient').hear hAfter
          · exact told n client hOld
  exact hAll n client present

end System
end QuantumService
