import QuantumService.Deployment.Results

/-! How a job ended, as it is answered. Requests that were answered stay so, and the
state a job was read in, once it is terminal, is the one it is read in ever after. -/
namespace QuantumService
open Interaction Cluster Controller World
variable {setup : Setup} {key : NamespacedName}

namespace Cluster.JobView
variable {v v' : JobView key} {state : JobState}

/-- The job has ended in this state, and may be deleted since. -/
structure Ended (v : JobView key) (state : JobState) : Prop where
  created : v.created
  state : ∀ {job}, v.job.current = some job → job.status.jobStatus = state

theorem ended_of_stored (sound : Sound v) {job : QuantumAerJob}
    (stored : v.job.current = some job) : Ended v job.status.jobStatus where
  created := sound.versions.created_of_stored (stored ▸ v.job.current_mem_visible)
  state := by
    intro other hOther
    rw [Option.some.inj (stored.symm.trans hOther)]

/-- A terminal state is kept whatever happens to the job, while it is there. -/
theorem Ended.step (ended : Ended v state) (terminal : state.Terminal) (sound : Sound v)
    {a : World.Action} (h : Moves v a v') : Ended v' state := by
  have hSet : ∀ value, (∀ job, value = some job → job.status.jobStatus = state) →
      Ended (v.setJob value) state :=
    fun value hValue => ⟨ended.created, fun hStored => hValue _ hStored⟩
  cases h with
  | create fresh => exact absurd ended.created fresh
  | readJob waits read =>
      exact ⟨ended.created, fun hStored =>
        ended.state ((Register.current_read read).symm.trans hStored)⟩
  | expired waits held present reported =>
      have hGone := hSet none (by rintro _ ⟨⟩)
      exact ⟨hGone.created, hGone.state⟩
  | @updated job stored status history next reply answer path waits held present version
      reported =>
      obtain ⟨rfl, -⟩ := sound.versions.eq_of_version (sound.held waits held) present version
      have hOk := sound.versions.ok (sound.held_visible waits held)
      have hActive := (((site_of_busy path).reason held).advance hOk).active
      rw [ended.state present] at hActive
      exact absurd terminal hActive
  | patched present =>
      have hState := ended.state present
      apply hSet
      rintro _ ⟨⟩
      exact hState
  | elsewhere | setClock | finish | start | quiet | readPod | created | deleted | setPhase
  | createPod | removePod => exact ⟨ended.created, ended.state⟩

end Cluster.JobView

namespace Deployment
variable {d d' : Deployment setup} {jobID : String} {state state' : JobState}

/-- The request with this number is a request to the endpoint. -/
def Asked (d : Deployment setup) (i : Nat) (endpoint : Endpoint) : Prop :=
  ∃ request, d.requests i = some request ∧ request.endpoint = endpoint

/-- A request to the endpoint was answered like this. -/
def Said (d : Deployment setup) (endpoint : Endpoint) (response : Service.Response) : Prop :=
  ∃ i request, d.requests i = some request ∧ request.endpoint = endpoint ∧
    request.rest = .done response

theorem Asked.continues {i : Nat} {endpoint : Endpoint} (asked : d.Asked i endpoint)
    (continues : d.Continues d') : d'.Asked i endpoint := by
  obtain ⟨request, hRequest, hEndpoint⟩ := asked
  obtain ⟨request', hRequest', hSame, -⟩ := continues i request hRequest
  exact ⟨request', hRequest', hSame.trans hEndpoint⟩

/-- What was answered is not taken back. -/
theorem Said.continues {endpoint : Endpoint} {response : Service.Response}
    (said : d.Said endpoint response) (continues : d.Continues d') :
    d'.Said endpoint response := by
  obtain ⟨i, ⟨_, history, rest, path⟩, hRequest, rfl, hDone⟩ := said
  obtain ⟨⟨endpoint', history', rest', path'⟩, hRequest', hSame, later, hHistory⟩ :=
    continues i _ hRequest
  dsimp only at hDone hSame hHistory
  subst hDone hSame hHistory
  exact ⟨i, _, hRequest', rfl, path.returned path'⟩

/-- Some request has read the job in this state. -/
def Read (d : Deployment setup) (jobID : String) (state : JobState) : Prop :=
  ∃ i request status, d.requests i = some request ∧
    ⟨.getCustomObject (jobNamed setup jobID), .ok (some status)⟩ ∈ request.history ∧
    Object.get status "jobStatus" = .str state

theorem read_of_step {a : Action setup} (stepped : d.step a = some d')
    (read : d'.Read jobID state) : d.Read jobID state ∨ ∃ job,
      (d.world.view (jobNamed setup jobID)).job.current = some job ∧
        job.status.jobStatus = state := by
  obtain ⟨i, request', status, hRequest, hMem, hState⟩ := read
  rcases (moves_of_step stepped).event hRequest hMem with
    ⟨request, hBefore, -, hOld⟩ | ⟨_, _, _, _, _, -, hEffect⟩
  · exact .inl ⟨i, request, status, hBefore, hOld, hState⟩
  · obtain ⟨job, hStored, rfl⟩ := hEffect.status
    exact .inr ⟨job, hStored, jobStatus_of_statusObject hState⟩

/-- A step leaves a job that has ended in its state. -/
theorem ended_of_step (run : Reaches step Sourced Fresh d) {a : Action setup}
    (stepped : d.step a = some d') (terminal : state.Terminal)
    (ended : (d.world.view key).Ended state) : (d'.world.view key).Ended state := by
  have hSound := sound_of_run run
  rcases (moves_of_step stepped).world with hSame | ⟨wa, -, hStep⟩
  · rw [hSame]
    exact ended
  · exact ended.step terminal (hSound key) (World.view_moves hSound hStep key)

/-- Jobs that were read in a terminal state have ended in it, and in no other. -/
structure Verdicts (d : Deployment setup) : Prop where
  ended : ∀ {jobID state}, d.Read jobID state → state.Terminal →
    (d.world.view (jobNamed setup jobID)).Ended state
  same : ∀ {jobID state state'}, d.Read jobID state → state.Terminal →
    d.Read jobID state' → state'.Terminal → state = state'

theorem verdicts_of_run (run : Reaches step Sourced Fresh d) : Verdicts d := by
  apply run.invariant
  · intro s fresh
    have hNone : ∀ {jobID state}, ¬ s.Read jobID state := by
      rintro jobID state ⟨i, request, status, hRequest, -⟩
      rw [fresh.initial.unserved] at hRequest
      cases hRequest
    exact ⟨fun hRead => absurd hRead hNone, fun hRead => absurd hRead hNone⟩
  · intro s a t reached verdicts sourced stepped
    constructor
    · intro jobID state hRead hTerminal
      apply ended_of_step reached stepped hTerminal
      rcases read_of_step stepped hRead with hBefore | ⟨job, hStored, rfl⟩
      · exact verdicts.ended hBefore hTerminal
      · exact JobView.ended_of_stored (sound_of_run reached _) hStored
    · intro jobID state state' hRead hTerminal hRead' hTerminal'
      rcases read_of_step stepped hRead with hBefore | ⟨job, hStored, rfl⟩ <;>
      rcases read_of_step stepped hRead' with hBefore' | ⟨job', hStored', rfl⟩
      · exact verdicts.same hBefore hTerminal hBefore' hTerminal'
      · exact ((verdicts.ended hBefore hTerminal).state hStored').symm
      · exact (verdicts.ended hBefore' hTerminal').state hStored
      · rw [Option.some.inj (hStored.symm.trans hStored')]

end Deployment
end QuantumService
