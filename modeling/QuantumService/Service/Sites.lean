import QuantumService.Service.Transpiler

/-! What a request to the transpiler service has done when it makes each of its
calls. A submission writes one record, creates the job after that, and uses one
identifier for both. -/
namespace QuantumService.Service
open Interaction Program
variable {q : Qiskit}

/-- The identifier a submission asks for. -/
def suppliedId (body : Except String Object) : Option String :=
  match body with
  | .ok data => if (data.get "job_id").truthy then some (data.get "job_id").text else none
  | .error _ => none

/-- The identifier that was generated for a submission. -/
def generated : History q → Option String
  | [] => none
  | ⟨.uuid4, id⟩ :: _ => some id
  | ⟨.backend _, _⟩ :: h => generated h
  | ⟨.strftime, _⟩ :: h => generated h
  | ⟨.setex _ _ _, _⟩ :: h => generated h
  | ⟨.get _, _⟩ :: h => generated h
  | ⟨.createCustomObject _, _⟩ :: h => generated h
  | ⟨.getCustomObject _, _⟩ :: h => generated h

/-- The identifier of a submission, once it has one. -/
def identifier (supplied : Option String) (h : History q) : Option String :=
  supplied <|> generated h

/-- The request has written no record. -/
def Unwritten (h : History q) : Prop := ∀ key ttl data answer, ⟨.setex key ttl data, answer⟩ ∉ h

/-- Every call of a submission, with the calls answered before it. -/
inductive Site (cfg : Config) (supplied : Option String) : History q → Call → Prop where
  | backend {h : History q} {name : Json} : Site cfg supplied h (.backend name)
  | uuid4 {h : History q} (unsupplied : supplied = none) (first : generated h = none) :
      Site cfg supplied h .uuid4
  | strftime {h : History q} : Site cfg supplied h .strftime
  | setex {h : History q} {id circuit createdAt updatedAt : String}
      (identified : identifier supplied h = some id) (first : Unwritten h) :
      Site cfg supplied h (.setex (jobKey id) recordTtl ⟨some circuit, none, createdAt, updatedAt⟩)
  | createCustomObject {h : History q} {body : JobBody} {id : String} {ttl : Nat} {data : JobData}
      (identified : identifier supplied h = some id)
      (named : body.key = ⟨cfg.k8sNamespace, jobName (.str id)⟩) (jobID : body.jobID.text = id)
      (stored : ⟨.setex (jobKey id) ttl data, .ok ()⟩ ∈ h) :
      Site cfg supplied h (.createCustomObject body)

/-- The status of the job was read, and was completed. -/
def Completed (cfg : Config) (jobID : String) (h : History q) : Prop := ∃ status : Object,
  ⟨.getCustomObject ⟨cfg.k8sNamespace, jobName (.str jobID)⟩, .ok (some status)⟩ ∈ h ∧
    status.get "jobStatus" = .str "completed"

/-- Every call of a request for a job's status or results. -/
inductive PollSite (cfg : Config) (jobID : String) : History q → Call → Prop where
  | getCustomObject {h : History q} :
      PollSite cfg jobID h (.getCustomObject ⟨cfg.k8sNamespace, jobName (.str jobID)⟩)
  | get {h : History q} (completed : Completed cfg jobID h) :
      PollSite cfg jobID h (.get (jobKey jobID))

/-- The result endpoint answers with the results of the record it read, or with
the `state` of a status, which has none. -/
inductive Answers (jobID : String) (h : History q) (response : Response) : Prop where
  | success {data : JobData} (fetched : ⟨.get (jobKey jobID), .ok (some data)⟩ ∈ h)
      (result : response.body.get "result" = (data.results.map Json.str).getD .null)
  | failure (none : response.body.get "status" = .null)
  | incomplete {status : Object}
      (origin : status = [] ∨ ∃ key, ⟨.getCustomObject key, .ok (some status)⟩ ∈ h)
      (state : response.body.get "status" = status.getD "state" (.str "unknown"))

section Growth
variable {h later : History q} {supplied : Option String} {id : String}

theorem generated_append (first : generated h = some id) : generated (h ++ later) = some id := by
  induction h with
  | nil => cases first
  | cons e h ih =>
      obtain ⟨call, answer⟩ := e
      cases call with
      | uuid4 => exact first
      | backend | strftime | setex | get | createCustomObject | getCustomObject => exact ih first

theorem generated_append_none (none : generated h = none) :
    generated (h ++ later) = generated later := by
  induction h with
  | nil => rfl
  | cons e h ih =>
      obtain ⟨call, answer⟩ := e
      cases call with
      | uuid4 => cases none
      | backend | strftime | setex | get | createCustomObject | getCustomObject => exact ih none

/-- A submission keeps its identifier. -/
theorem identifier_append (identified : identifier supplied h = some id) (later : History q) :
    identifier supplied (h ++ later) = some id := by
  cases supplied with
  | some id' => exact identified
  | none => exact generated_append identified

/-- A submission gets its identifier from the request or by generating one. -/
theorem identifier_snoc {e : Event (Call.Answer q)}
    (identified : identifier supplied (h ++ [e]) = some id) :
    identifier supplied h = some id ∨ e = ⟨.uuid4, id⟩ := by
  cases supplied with
  | some id' => exact .inl identified
  | none =>
      cases hGenerated : generated h with
      | some id' =>
          have hSame : generated (h ++ [e]) = some id := identified
          rw [generated_append hGenerated] at hSame
          exact .inl (hGenerated.trans hSame)
      | none =>
          have hLast : generated [e] = some id :=
            (generated_append_none hGenerated).symm.trans identified
          obtain ⟨call, answer⟩ := e
          cases call with
          | uuid4 =>
              have hId : answer = id := Option.some.inj hLast
              exact .inr (by rw [hId])
          | backend | strftime | setex | get | createCustomObject | getCustomObject => cases hLast

theorem Unwritten.snoc (unwritten : Unwritten h) (call : Call) (answer : call.Answer q)
    (other : ∀ key ttl data, call ≠ .setex key ttl data) : Unwritten (h ++ [⟨call, answer⟩]) := by
  intro key ttl data answer' hMem
  exact unwritten key ttl data answer' (mem_of_mem_snoc hMem (other key ttl data))

end Growth

section Requests
variable {cfg : Config} {supplied : Option String} {h : History q}

theorem storeAndCreate_follows {circuitsB64 : String} {shots backendName jobID resources : Json}
    (identified : identifier supplied h = some jobID.text) (unwritten : Unwritten h) :
    (storeAndCreate q cfg circuitsB64 shots backendName jobID resources).Follows
      (Site cfg supplied) (fun _ _ => True) h := by
  unfold storeAndCreate createJobData
  refine .query .strftime fun createdAt => ?_
  have hCreated := unwritten.snoc .strftime createdAt (by simp)
  refine .query .strftime fun updatedAt => ?_
  have hUpdated := hCreated.snoc .strftime updatedAt (by simp)
  have hIdentified := identifier_append (identifier_append identified [⟨.strftime, createdAt⟩])
    [⟨.strftime, updatedAt⟩]
  refine .query (.setex hIdentified hUpdated) fun written => ?_
  cases written with
  | error err => exact trivial
  | ok =>
      have hLater := identifier_append hIdentified [⟨.setex (jobKey jobID.text) recordTtl
        ⟨some circuitsB64, none, createdAt, updatedAt⟩, .ok ()⟩]
      refine .query (.createCustomObject hLater rfl rfl (last_mem _)) fun created => ?_
      cases created <;> exact trivial

theorem createQuantumJob_follows {circuitsB64 : String} {shots backendName jobID resources : Json}
    (identified : supplied = if jobID.truthy then some jobID.text else none)
    (ungenerated : generated h = none) (unwritten : Unwritten h) :
    (createQuantumJob q cfg circuitsB64 shots backendName jobID resources).Follows
      (Site cfg supplied) (fun _ _ => True) h := by
  unfold createQuantumJob
  split
  · rename_i hTruthy
    rw [if_pos hTruthy] at identified
    subst identified
    exact storeAndCreate_follows rfl unwritten
  · rename_i hFalsy
    rw [if_neg hFalsy] at identified
    subst identified
    refine .query (.uuid4 rfl ungenerated) fun id => ?_
    have hGenerated : identifier none (h ++ [⟨.uuid4, id⟩]) = some id :=
      generated_append_none ungenerated
    exact storeAndCreate_follows hGenerated (unwritten.snoc .uuid4 id (by simp))

/-- At most one call, for the backend. -/
theorem getTarget_follows {spec : History q → Call → Prop} (cfg : Config) (backendName : Json)
    (backend : ∀ h name, spec h (.backend name)) :
    (getTarget q cfg backendName).Follows spec (fun later _ =>
      later = [] ∨ ∃ name answer, later = [⟨.backend name, answer⟩]) [] := by
  unfold getTarget
  split
  · exact .inl rfl
  · exact .query (backend [] _) fun answer => .inr ⟨_, answer, rfl⟩

/-- A rule for the calls of a submission, from one for its two writes. Before these
it has at most asked for a backend. -/
theorem transpile_follows_of_create {spec : History q → Call → Prop} (cfg : Config)
    (trace : String → String) (body : Except String Object)
    (backend : ∀ h name, spec h (.backend name))
    (create : ∀ data circuit later, body = .ok data →
      (later = [] ∨ ∃ name answer, later = [⟨.backend name, answer⟩]) →
      (createQuantumJob q cfg circuit (data.getD "shots" (.int 1024))
        (data.getD "backend_name" (.str "aer-simulator")) (data.get "job_id")
        (data.get "resources")).Follows spec (fun _ _ => True) later) :
    (transpile q cfg trace body).Follows spec (fun _ _ => True) [] := by
  unfold transpile
  cases body with
  | error err => exact trivial
  | ok data =>
      simp only [submit]
      split
      · exact trivial
      split
      · exact trivial
      · apply (getTarget_follows cfg _ backend).bind
        rintro later (err | target) hLater
        · exact trivial
        · dsimp only
          split
          · exact trivial
          · apply (create data _ later rfl hLater).bind
            rintro last (err | ⟨name, jobID⟩) -
            · exact trivial
            · exact trivial

/-- The calls of a submission. -/
theorem transpile_follows (cfg : Config) (trace : String → String) (body : Except String Object) :
    (transpile q cfg trace body).Follows (Site cfg (suppliedId body)) (fun _ _ => True) [] := by
  apply transpile_follows_of_create
  · exact fun _ _ => .backend
  · rintro data circuit later rfl hLater
    apply createQuantumJob_follows rfl
    · rcases hLater with rfl | ⟨name, answer, rfl⟩ <;> rfl
    · rcases hLater with rfl | ⟨name, answer, rfl⟩ <;> simp [Unwritten]

/-- The body of a resource is made from the settings and from what was requested. -/
def Configured (cfg : Config) (_ : History q) (call : Call) : Prop :=
  ∀ body, call = .createCustomObject body → ∃ backendName shots jobID resources,
    body = jobBody cfg backendName shots jobID resources

theorem transpile_configured (cfg : Config) (trace : String → String)
    (body : Except String Object) :
    (transpile q cfg trace body).Follows (Configured cfg) (fun _ _ => True) [] := by
  have hStore : ∀ {circuitsB64 : String} {shots backendName jobID resources : Json} {h : History q},
      (storeAndCreate q cfg circuitsB64 shots backendName jobID resources).Follows
        (Configured cfg) (fun _ _ => True) h := by
    intro circuitsB64 shots backendName jobID resources h
    unfold storeAndCreate createJobData
    refine .query (by rintro _ ⟨⟩) fun createdAt => ?_
    refine .query (by rintro _ ⟨⟩) fun updatedAt => ?_
    refine .query (by rintro _ ⟨⟩) fun written => ?_
    cases written with
    | error err => exact trivial
    | ok =>
        refine .query (by rintro _ ⟨⟩; exact ⟨_, _, _, _, rfl⟩) fun created => ?_
        cases created <;> exact trivial
  apply transpile_follows_of_create
  · rintro _ _ _ ⟨⟩
  · intro data circuit later _ _
    unfold createQuantumJob
    split
    · exact hStore
    · exact .query (by rintro _ ⟨⟩) fun id => hStore

variable {jobID : String}

/-- The status that was read, or none if that failed. -/
theorem getQuantumJobStatus_follows (cfg : Config) (jobID : String) :
    (getQuantumJobStatus q cfg jobID).Follows (PollSite cfg jobID) (fun later status =>
      status = [] ∨ ⟨.getCustomObject ⟨cfg.k8sNamespace, jobName (.str jobID)⟩,
        .ok (some status)⟩ ∈ later) h := by
  unfold getQuantumJobStatus
  refine .query .getCustomObject fun answer => ?_
  rcases answer with err | (_ | status)
  · exact .inl rfl
  · exact .inl rfl
  · exact .inr (last_mem _)

theorem getJobStatusEndpoint_follows (cfg : Config) (jobID : String) :
    (getJobStatusEndpoint q cfg jobID).Follows (PollSite cfg jobID) (fun _ _ => True) [] := by
  unfold getJobStatusEndpoint
  refine (getQuantumJobStatus_follows cfg jobID).bind ?_
  intro later status _
  split
  · exact trivial
  · exact trivial

/-- The calls of a request for results, and what it is answered. -/
theorem getJobResultEndpoint_follows (cfg : Config) (jobID : String) :
    (getJobResultEndpoint q cfg jobID).Follows (PollSite cfg jobID) (Answers jobID) [] := by
  unfold getJobResultEndpoint getJobData
  refine (getQuantumJobStatus_follows cfg jobID).bind ?_
  intro later status hStatus
  split
  · exact .incomplete (hStatus.imp id fun hMem => ⟨_, hMem⟩) rfl
  · rename_i hState
    have hCompleted : Object.get status "jobStatus" = .str "completed" := not_not.mp hState
    have hRead : Completed cfg jobID later := by
      rcases hStatus with rfl | hMem
      · cases hCompleted
      · exact ⟨status, hMem, hCompleted⟩
    refine .query (.get hRead) fun fetched => ?_
    rcases fetched with err | (_ | data)
    · exact .failure rfl
    · exact .failure rfl
    · exact .success (last_mem _) rfl

end Requests
end QuantumService.Service
