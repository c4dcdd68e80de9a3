import QuantumService.Deployment.Hosting

/-! The identifiers of submissions. Each has one submission, which writes the
record before it creates the job, so that a job's record is written already. -/
namespace QuantumService
open Interaction Cluster Controller

namespace Deployment
variable {setup : Setup} {d d' : Deployment setup} {i j : Nat} {id : String}

/-- The request is the submission with this identifier. -/
def Takes (d : Deployment setup) (i : Nat) (id : String) : Prop :=
  ∃ request body, d.requests i = some request ∧ request.endpoint = .transpile body ∧
    Service.identifier (Service.suppliedId body) request.history = some id

/-- A submission was told that the record of this identifier is written. -/
def Stored (d : Deployment setup) (id : String) : Prop :=
  ∃ i request ttl data, d.requests i = some request ∧
    ⟨.setex (jobKey id) ttl data, .ok ()⟩ ∈ request.history

/-- Who writes which record, and which jobs follow. -/
structure Claimed (d : Deployment setup) : Prop where
  taken : ∀ {i id}, d.Takes i id → id ∈ d.submitted
  unique : ∀ {i j id}, d.Takes i id → d.Takes j id → i = j
  wrote : ∀ {i request id ttl data answer}, d.requests i = some request →
    ⟨.setex (jobKey id) ttl data, answer⟩ ∈ request.history → d.Takes i id
  created : ∀ {key}, key ∈ d.world.created → ∃ id, key = jobNamed setup id ∧ d.Stored id

/-- Requests go on, and none is forgotten. -/
def Continues (d d' : Deployment setup) : Prop := ∀ i request, d.requests i = some request →
  ∃ request', d'.requests i = some request' ∧ request'.endpoint = request.endpoint ∧
    ∃ later, request'.history = request.history ++ later

section Continues

theorem Continues.of_eq (same : d'.requests = d.requests) : d.Continues d' := by
  intro i request hRequest
  exact ⟨request, same ▸ hRequest, rfl, [], (List.append_nil _).symm⟩

theorem Continues.takes (continues : d.Continues d') (takes : d.Takes i id) : d'.Takes i id := by
  obtain ⟨request, body, hRequest, hBody, hId⟩ := takes
  obtain ⟨request', hRequest', hSame, later, hHistory⟩ := continues i request hRequest
  refine ⟨request', body, hRequest', hSame.trans hBody, ?_⟩
  rw [hHistory]
  exact Service.identifier_append hId later

theorem Continues.stored (continues : d.Continues d') (stored : d.Stored id) : d'.Stored id := by
  obtain ⟨i, request, ttl, data, hRequest, hMem⟩ := stored
  obtain ⟨request', hRequest', -, later, hHistory⟩ := continues i request hRequest
  exact ⟨i, request', ttl, data, hRequest', hHistory ▸ List.mem_append_left _ hMem⟩

theorem ServiceEffect.requests {reply : Reply setup.q.Target} {call : Service.Call}
    {answer : call.Answer setup.q} (effect : ServiceEffect d reply call answer d') :
    d'.requests = d.requests := by
  cases effect <;> rfl

theorem SimulatorEffect.requests {reply : Reply setup.aer.Results}
    {call : Simulator.Call setup.aer} {answer : call.Answer}
    (effect : SimulatorEffect d reply call answer d') : d'.requests = d.requests := by
  cases effect <;> rfl

theorem SimulatorEffect.submitted {reply : Reply setup.aer.Results}
    {call : Simulator.Call setup.aer} {answer : call.Answer}
    (effect : SimulatorEffect d reply call answer d') : d'.submitted = d.submitted := by
  cases effect <;> rfl

theorem SimulatorEffect.created {reply : Reply setup.aer.Results}
    {call : Simulator.Call setup.aer} {answer : call.Answer}
    (effect : SimulatorEffect d reply call answer d') : d'.world.created = d.world.created := by
  cases effect with
  | patched applied stepped =>
      rcases World.created_of_step stepped with hSame | ⟨_, _, hAction, -⟩
      · exact hSame
      · cases hAction
  | loadIncluster | ping | fetched | unfetched | runSimulation | unpatched | strftime | stored
  | unstored => rfl

end Continues

/-- A step that no request takes part in. -/
theorem Claimed.idle (claimed : Claimed d) (requests : d'.requests = d.requests)
    (submitted : d'.submitted = d.submitted) (created : d'.world.created = d.world.created) :
    Claimed d' := by
  have hContinues : d.Continues d' := .of_eq requests
  have hTakes : ∀ {i id}, d'.Takes i id → d.Takes i id := by
    rintro i id ⟨request, body, hRequest, hBody⟩
    rw [requests] at hRequest
    exact ⟨request, body, hRequest, hBody⟩
  exact {
    taken := by
      intro i id hTaken
      rw [submitted]
      exact claimed.taken (hTakes hTaken)
    unique := fun hTaken hOther => claimed.unique (hTakes hTaken) (hTakes hOther)
    wrote := by
      intro i request id ttl data answer hRequest hMem
      rw [requests] at hRequest
      exact hContinues.takes (claimed.wrote hRequest hMem)
    created := by
      intro key hMem
      rw [created] at hMem
      obtain ⟨id, hKey, hStored⟩ := claimed.created hMem
      exact ⟨id, hKey, hContinues.stored hStored⟩ }

theorem continues_of_receive {endpoint : Endpoint} (fresh : d.requests i = none) :
    d.Continues ({ d with submitted := endpoint.suppliedId.toList ++ d.submitted }.setRequest i
      (.start setup endpoint)) := by
  intro j request hRequest
  have hj : j ≠ i := by
    rintro rfl
    rw [fresh] at hRequest
    cases hRequest
  refine ⟨request, ?_, rfl, [], (List.append_nil _).symm⟩
  rw [setRequest_requests, Function.update_of_ne hj, hRequest]

theorem Claimed.receive (claimed : Claimed d) {endpoint : Endpoint} (fresh : d.requests i = none)
    (once : ∀ id, endpoint.suppliedId = some id → id ∉ d.submitted) :
    Claimed ({ d with submitted := endpoint.suppliedId.toList ++ d.submitted }.setRequest i
      (.start setup endpoint)) := by
  have hContinues := @continues_of_receive setup d i endpoint fresh
  have hCases : ∀ {j id}, ({ d with
      submitted := endpoint.suppliedId.toList ++ d.submitted }.setRequest i
      (.start setup endpoint)).Takes j id →
      (j = i ∧ endpoint.suppliedId = some id) ∨ d.Takes j id := by
    rintro j id ⟨request, body, hRequest, hBody, hId⟩
    rcases update_cases hRequest with ⟨rfl, rfl⟩ | hOld
    · left
      have hEndpoint : endpoint = .transpile body := hBody
      have hSupplied : Service.identifier (Service.suppliedId body)
          ([] : Service.History setup.q) = some id := hId
      rw [hEndpoint, Endpoint.suppliedId_transpile]
      cases hBodyId : Service.suppliedId body with
      | none =>
          rw [hBodyId] at hSupplied
          cases hSupplied
      | some id' =>
          rw [hBodyId] at hSupplied
          exact ⟨rfl, hSupplied⟩
    · exact .inr ⟨request, body, hOld, hBody, hId⟩
  exact {
    taken := by
      intro j id hTakes
      rw [setRequest_submitted, List.mem_append]
      rcases hCases hTakes with ⟨-, hId⟩ | hOld
      · left
        simp [hId]
      · exact .inr (claimed.taken hOld)
    unique := by
      intro j k id hTakes hTakes'
      rcases hCases hTakes with ⟨rfl, hId⟩ | hOld
      · rcases hCases hTakes' with ⟨rfl, -⟩ | hOld'
        · rfl
        · exact absurd (claimed.taken hOld') (once id hId)
      · rcases hCases hTakes' with ⟨rfl, hId⟩ | hOld'
        · exact absurd (claimed.taken hOld) (once id hId)
        · exact claimed.unique hOld hOld'
    wrote := by
      intro j request id ttl data answer hRequest hMem
      rcases update_cases hRequest with ⟨rfl, rfl⟩ | hOld
      · cases hMem
      · exact hContinues.takes (claimed.wrote hOld hMem)
    created := by
      intro key hMem
      obtain ⟨id, hKey, hStored⟩ := claimed.created hMem
      exact ⟨id, hKey, hContinues.stored hStored⟩ }

section Serve
variable {endpoint : Endpoint} {history : Service.History setup.q} {call : Service.Call}
  {reply : Reply setup.q.Target} {answer : call.Answer setup.q}
  {next : call.Answer setup.q → Service.Handler setup.q Service.Response}
  {path : Program.Path (endpoint.program setup) history (.ask call next)}
  {middle : Deployment setup}

theorem continues_of_serve (busy : d.requests i = some ⟨endpoint, history, .ask call next, path⟩)
    (effect : ServiceEffect d reply call answer middle) :
    d.Continues (middle.setRequest i
      ⟨endpoint, history ++ [⟨call, answer⟩], next answer, path.snoc answer⟩) := by
  intro j request hRequest
  by_cases hj : j = i
  · subst hj
    rw [busy, Option.some.injEq] at hRequest
    subst hRequest
    refine ⟨⟨endpoint, history ++ [⟨call, answer⟩], next answer, path.snoc answer⟩, ?_, rfl,
      [⟨call, answer⟩], rfl⟩
    rw [setRequest_requests, Function.update_self]
  · refine ⟨request, ?_, rfl, [], (List.append_nil _).symm⟩
    rw [setRequest_requests, Function.update_of_ne hj, effect.requests, hRequest]

/-- An identifier is taken as before, or was generated by this step. -/
theorem takes_of_serve (busy : d.requests i = some ⟨endpoint, history, .ask call next, path⟩)
    (effect : ServiceEffect d reply call answer middle)
    (takes : (middle.setRequest i
      ⟨endpoint, history ++ [⟨call, answer⟩], next answer, path.snoc answer⟩).Takes j id) :
    d.Takes j id ∨ j = i ∧ d.submits (.serve i reply) = some id ∧ middle = d.submit id := by
  obtain ⟨request, body, hRequest, hBody, hId⟩ := takes
  rcases update_cases hRequest with ⟨rfl, rfl⟩ | hOld
  · rcases Service.identifier_snoc hId with hBefore | hNew
    · exact .inl ⟨_, body, busy, hBody, hBefore⟩
    · right
      cases hNew
      cases effect with
      | uuid4 generated =>
          subst generated
          exact ⟨rfl, by simp [submits, busy], rfl⟩
  · rw [effect.requests] at hOld
    exact .inl ⟨request, body, hOld, hBody, hId⟩

theorem Claimed.serve (claimed : Claimed d)
    (busy : d.requests i = some ⟨endpoint, history, .ask call next, path⟩)
    (effect : ServiceEffect d reply call answer middle)
    (once : ∀ id, d.submits (.serve i reply) = some id → id ∉ d.submitted) :
    Claimed (middle.setRequest i
      ⟨endpoint, history ++ [⟨call, answer⟩], next answer, path.snoc answer⟩) := by
  have hContinues := continues_of_serve busy effect
  have hSubmitted : ∀ {id}, id ∈ d.submitted → id ∈ middle.submitted := by
    intro id hMem
    cases effect with
    | uuid4 => exact List.mem_cons_of_mem _ hMem
    | backend | strftime | stored | unstored | fetched | unfetched | created | uncreated | found
    | unfound => exact hMem
  exact {
    taken := by
      intro j id hTakes
      rcases takes_of_serve busy effect hTakes with hOld | ⟨-, -, rfl⟩
      · exact hSubmitted (claimed.taken hOld)
      · exact List.mem_cons_self
    unique := by
      intro j k id hTakes hTakes'
      rcases takes_of_serve busy effect hTakes with hOld | ⟨rfl, hNew, -⟩
      · rcases takes_of_serve busy effect hTakes' with hOld' | ⟨rfl, hNew', -⟩
        · exact claimed.unique hOld hOld'
        · exact absurd (claimed.taken hOld) (once id hNew')
      · rcases takes_of_serve busy effect hTakes' with hOld' | ⟨rfl, -, -⟩
        · exact absurd (claimed.taken hOld') (once id hNew)
        · rfl
    wrote := by
      intro j request id ttl data answer' hRequest hMem
      rcases update_cases hRequest with ⟨rfl, rfl⟩ | hOld
      · rcases List.mem_append.mp hMem with hBefore | hNow
        · exact hContinues.takes (claimed.wrote busy hBefore)
        · apply hContinues.takes
          have hCall : Service.Call.setex (jobKey id) ttl data = call :=
            congrArg Sigma.fst (List.mem_singleton.mp hNow)
          have hSite := site_of_request path
          rw [← hCall] at hSite
          obtain ⟨body, id', _, _, _, rfl, hKey, hIdentified, -, -⟩ := hSite.setex_inv
          rw [jobKey_injective hKey]
          exact ⟨_, body, busy, rfl, hIdentified⟩
      · rw [effect.requests] at hOld
        exact hContinues.takes (claimed.wrote hOld hMem)
    created := by
      intro key hMem
      have hOld : key ∈ d.world.created → ∃ id, key = jobNamed setup id ∧
          (middle.setRequest i ⟨endpoint, history ++ [⟨call, answer⟩], next answer,
            path.snoc answer⟩).Stored id := by
        intro hBefore
        obtain ⟨id, hKey, hStored⟩ := claimed.created hBefore
        exact ⟨id, hKey, hContinues.stored hStored⟩
      cases effect with
      | @created body spec w answer admitted stepped =>
          rcases World.created_of_step stepped with hSame | ⟨key', spec', hAction, hNew⟩
          · exact hOld (hSame ▸ hMem)
          · cases hAction
            have hCreated : key ∈ body.key :: d.world.created := hNew ▸ hMem
            rcases List.mem_cons.mp hCreated with rfl | hBefore
            · cases site_of_request path with
              | transpile site =>
                  cases site with
                  | @createCustomObject _ id ttl data identified named jobID stored =>
                      exact ⟨id, named, i, _, ttl, data, Function.update_self ..,
                        List.mem_append_left _ stored⟩
              | status site => cases site
              | result site => cases site
            · exact hOld hBefore
      | backend | uuid4 | strftime | stored | unstored | fetched | unfetched | uncreated | found
      | unfound => exact hOld hMem }

end Serve

theorem claimed_of_run (run : Reaches step Sourced Fresh d) : Claimed d := by
  apply run.invariant
  · intro s fresh
    have hNone : ∀ {i request}, s.requests i ≠ some request := by
      intro i request hRequest
      rw [fresh.initial.unserved] at hRequest
      cases hRequest
    have hTakes : ∀ {i id}, ¬ s.Takes i id := by
      rintro i id ⟨request, body, hRequest, -⟩
      exact hNone hRequest
    constructor
    · exact fun h => absurd h hTakes
    · exact fun h => absurd h hTakes
    · exact fun h => absurd h hNone
    · intro key hMem
      rw [fresh.initial.world.created] at hMem
      cases hMem
  · intro s a t _ claimed sourced stepped
    have hMoves := moves_of_step stepped
    clear stepped
    cases hMoves with
    | cluster stepped own reported =>
        rcases World.created_of_step stepped with hSame | ⟨key, spec, hAction, -⟩
        · exact claimed.idle rfl rfl hSame
        · exact absurd (congrArg Action.cluster hAction) (sourced.sole key spec)
    | receive fresh => exact claimed.receive fresh fun id hId => sourced.once id hId
    | served busy effect => exact claimed.serve busy effect sourced.once
    | simulated busy effect => exact claimed.idle effect.requests effect.submitted effect.created
    | launched | stopped | expired => exact claimed.idle rfl rfl rfl

end Deployment
end QuantumService
