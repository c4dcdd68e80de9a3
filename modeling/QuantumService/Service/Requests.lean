import QuantumService.Service.Sites
import QuantumService.Service.Submission

/-! What the answers to requests say. The writes of a submission are made of what was
requested, and it is accepted when they were. The answers about a job say what was read. -/
namespace QuantumService.Service
open Interaction Program
variable {q : Qiskit} {cfg : Config} {request : Except String Object} {data : Object}
  {h : History q}

/-- The body of the resource for a request, once its job has an identifier. -/
def requestedBody (cfg : Config) (data : Object) (jobID : Json) : JobBody :=
  jobBody cfg (data.getD "backend_name" (.str "aer-simulator")) (data.getD "shots" (.int 1024))
    jobID (data.get "resources")

/-- The calls of a submission, its writes with what they are made of. -/
inductive Writes (cfg : Config) (request : Except String Object) (h : History q) :
    Call → Prop where
  | backend {name : Json} : Writes cfg request h (.backend name)
  | uuid4 : Writes cfg request h .uuid4
  | strftime : Writes cfg request h .strftime
  | setex {data : Object} {key circuit createdAt updatedAt : String} {ttl : Nat}
      (decoded : request = .ok data) (transpiled : Transpiled cfg data h circuit) :
      Writes cfg request h (.setex key ttl ⟨some circuit, none, createdAt, updatedAt⟩)
  | createCustomObject {data : Object} {jobID : Json} (decoded : request = .ok data) :
      Writes cfg request h (.createCustomObject (requestedBody cfg data jobID))

/-- A request that was accepted has created the job that its answer names. -/
def Accepts (cfg : Config) (request : Except String Object) (h : History q)
    (response : Response) : Prop :=
  response.code = 202 → ∃ data jobID, request = .ok data ∧
    response.body.get "job_id" = jobID ∧
    identifier (suppliedId request) h = some jobID.text ∧
    ⟨.createCustomObject (requestedBody cfg data jobID), .ok ()⟩ ∈ h

/-- What `create_quantum_job` returns when both writes were accepted. -/
def Creates (cfg : Config) (data : Object) (supplied : Option String) (h : History q) :
    Except String (String × Json) → Prop
  | .ok (_, jobID) => identifier supplied h = some jobID.text ∧
      ⟨.createCustomObject (requestedBody cfg data jobID), .ok ()⟩ ∈ h
  | .error _ => True

theorem Transpiled.append {circuit : String} (transpiled : Transpiled cfg data h circuit)
    (later : History q) : Transpiled cfg data (h ++ later) circuit := by
  obtain ⟨circuits, target, hCircuits, hTarget, hCircuit⟩ := transpiled
  exact ⟨circuits, target, hCircuits, hTarget.append later, hCircuit⟩

theorem storeAndCreate_writes {circuit : String} {jobID : Json} {supplied : Option String}
    (transpiled : Transpiled cfg data h circuit)
    (identified : identifier supplied h = some jobID.text) :
    (storeAndCreate q cfg circuit (data.getD "shots" (.int 1024))
      (data.getD "backend_name" (.str "aer-simulator")) jobID (data.get "resources")).Follows
      (Writes cfg (.ok data)) (Creates cfg data supplied) h := by
  unfold storeAndCreate createJobData
  refine .query .strftime fun createdAt => ?_
  refine .query .strftime fun updatedAt => ?_
  refine .query (.setex rfl ((transpiled.append _).append _)) fun written => ?_
  cases written with
  | error err => exact trivial
  | ok =>
      have hSite : ∀ h : History q, Writes cfg (.ok data) h
          (.createCustomObject (requestedBody cfg data jobID)) := fun _ => .createCustomObject rfl
      refine .query (hSite _) fun created => ?_
      cases created with
      | error err => exact trivial
      | ok =>
          refine ⟨?_, last_mem _⟩
          simp only [List.append_assoc]
          exact identifier_append identified _

theorem createQuantumJob_writes {circuit : String} (transpiled : Transpiled cfg data h circuit)
    (ungenerated : generated h = none) :
    (createQuantumJob q cfg circuit (data.getD "shots" (.int 1024))
      (data.getD "backend_name" (.str "aer-simulator")) (data.get "job_id")
      (data.get "resources")).Follows
      (Writes cfg (.ok data)) (Creates cfg data (suppliedId (.ok data))) h := by
  unfold createQuantumJob
  split
  · rename_i hTruthy
    apply storeAndCreate_writes transpiled
    rw [suppliedId, if_pos hTruthy]
    rfl
  · rename_i hFalsy
    refine .query .uuid4 fun id => ?_
    apply storeAndCreate_writes (transpiled.append _)
    rw [suppliedId, if_neg hFalsy]
    exact generated_append_none ungenerated

/-- The target is that of the requested backend, and nothing is generated for it. -/
theorem getTarget_writes (cfg : Config) (backendName : Json) :
    (getTarget q cfg backendName).Follows (Writes cfg request) (fun later result =>
      generated later = none ∧
        ∀ target, result = .ok target → TargetOf cfg backendName later target) [] := by
  unfold getTarget
  split
  · rename_i hDefault
    refine ⟨rfl, ?_⟩
    rintro target ⟨⟩
    exact .inl ⟨hDefault, rfl⟩
  · refine .query .backend fun answer => ⟨rfl, ?_⟩
    rintro target rfl
    exact .inr (last_mem _)

/-- The writes of a submission are made of what was requested, and a request is accepted
when they were. -/
theorem transpile_writes (cfg : Config) (trace : String → String)
    (request : Except String Object) :
    (transpile q cfg trace request).Follows (Writes cfg request) (Accepts cfg request) [] := by
  unfold transpile
  cases request with
  | error err => exact fun hCode => absurd hCode (by simp [failed])
  | ok data =>
      simp only [submit]
      split
      · exact fun hCode => absurd hCode (by decide)
      split
      · exact fun hCode => absurd hCode (by simp [failed])
      · rename_i circuits hCircuits
        apply (getTarget_writes cfg _).bind
        rintro later (err | target) ⟨hGenerated, hTarget⟩
        · exact fun hCode => absurd hCode (by simp [failed])
        · dsimp only
          split
          · exact fun hCode => absurd hCode (by simp [failed])
          · rename_i circuit hCircuit
            have hTranspiled : Transpiled cfg data later circuit :=
              ⟨circuits, target, hCircuits, hTarget target rfl, hCircuit⟩
            apply (createQuantumJob_writes hTranspiled hGenerated).bind
            rintro last (err | ⟨name, jobID⟩) hCreated
            · exact fun hCode => absurd hCode (by simp [failed])
            · exact fun _ => ⟨data, jobID, rfl, rfl, hCreated⟩

section Answers
variable {jobID : String}

/-- A status that is answered is one that was read. -/
theorem getJobStatusEndpoint_reads (cfg : Config) (jobID : String) :
    (getJobStatusEndpoint q cfg jobID).Follows (PollSite cfg jobID) (fun later response =>
      response.code = 200 → ⟨.getCustomObject ⟨cfg.k8sNamespace, jobName (.str jobID)⟩,
        .ok (some response.body)⟩ ∈ later) [] := by
  unfold getJobStatusEndpoint
  refine (getQuantumJobStatus_follows cfg jobID).bind ?_
  rintro later status (rfl | hRead)
  · exact fun hCode => absurd hCode (by simp)
  · split
    · exact fun hCode => absurd hCode (by simp)
    · exact fun _ => hRead

/-- Results that are answered are those of a job that was read as completed. -/
theorem getJobResultEndpoint_reads (cfg : Config) (jobID : String) :
    (getJobResultEndpoint q cfg jobID).Follows (PollSite cfg jobID) (fun later response =>
      ∀ result, response.body.lookup "result" = some result →
        Completed cfg jobID later ∧ response.body.get "status" = .str "success") [] := by
  unfold getJobResultEndpoint getJobData
  refine (getQuantumJobStatus_follows cfg jobID).bind ?_
  intro later status hStatus
  split
  · rintro result ⟨⟩
  · rename_i hState
    have hCompleted : Object.get status "jobStatus" = .str "completed" := not_not.mp hState
    have hRead : Completed cfg jobID later := by
      rcases hStatus with rfl | hMem
      · cases hCompleted
      · exact ⟨status, hMem, hCompleted⟩
    refine .query (.get hRead) fun fetched => ?_
    rcases fetched with err | (_ | data)
    · rintro result ⟨⟩
    · rintro result ⟨⟩
    · obtain ⟨read, hMem, hReadState⟩ := hRead
      exact fun _ _ => ⟨⟨read, List.mem_append_left _ hMem, hReadState⟩, rfl⟩

end Answers
end QuantumService.Service
