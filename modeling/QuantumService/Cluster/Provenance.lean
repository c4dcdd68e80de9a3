import QuantumService.Cluster.Steady

/-! Where the pods of a job come from. Each has the container its controller gave
it, and a UID that no other pod has. -/
namespace QuantumService.Cluster
open Interaction Controller World

namespace JobView
variable {key : NamespacedName} {v v' : JobView key} {origin : QuantumAerJobSpec → Prop}

/-- The container of the pod is the one the controller gives the pods of such a
job. -/
def Built (key : NamespacedName) (origin : QuantumAerJobSpec → Prop) (pod : Pod) : Prop :=
  ∃ job, job.key = key ∧ origin job.spec ∧ pod.containers = (simulatorPod job).containers

/-- The specs of the job come from its creation, and the pods from its specs. -/
structure Traced (origin : QuantumAerJobSpec → Prop) (v : JobView key) : Prop where
  jobs : ∀ {job}, some job ∈ v.job.visible → origin job.spec
  pods : ∀ {r pod}, some pod ∈ (v.pods r).visible → Built key origin pod

theorem Traced.setJob (traced : Traced origin v) {value : Option QuantumAerJob}
    (kept : ∀ job, value = some job → origin job.spec) : Traced origin (v.setJob value) where
  jobs := by
    intro job hMem
    rcases List.mem_cons.mp hMem with hNew | hOld
    · exact kept job hNew.symm
    · exact traced.jobs hOld
  pods := traced.pods

theorem Traced.setPod (traced : Traced origin v) {retries : Int32} {value : Option Pod}
    (kept : ∀ pod, value = some pod → Built key origin pod) :
    Traced origin (v.setPod retries value) where
  jobs := traced.jobs
  pods := by
    intro r pod hMem
    rcases mem_setPod_visible hMem with ⟨rfl, hNew⟩ | hOld
    · exact kept pod hNew
    · exact traced.pods hOld

theorem Traced.step (traced : Traced origin v) (sound : Sound v) {a : Action}
    (made : ∀ spec, a = .createJob key spec → origin spec)
    (alone : ∀ pod, a = .createPod pod → ∀ r, pod.key ≠ simulatorPodKey key r)
    (h : Moves v a v') : Traced origin v' := by
  cases h with
  | elsewhere | setClock | start | quiet | finish => exact { traced with }
  | create fresh =>
      have hJob := @Traced.setJob key v origin traced
        (some ⟨key.name, key.nameSpace, v.next, v.next, _, .empty⟩)
        (by rintro job ⟨⟩; exact made _ rfl)
      exact { hJob with }
  | readJob waits read =>
      exact { traced with
        jobs := fun hMem => traced.jobs (Register.visible_subset_of_read read hMem) }
  | @readPod age job value register history next path waits held read =>
      exact { traced with pods := fun hMem => traced.pods (mem_servePod_visible read hMem) }
  | @created job history next reply answer path waits held free reported =>
      have hPod := @Traced.setPod key v origin traced job.status.retries
        (some { simulatorPod job with uid := v.next, phase := .pending })
        (by
          rintro pod ⟨⟩
          exact ⟨job, sound.held_key waits held, traced.jobs (sound.held_visible waits held), rfl⟩)
      exact { hPod with }
  | @deleted job pod stored history next reply answer path waits held named present reported =>
      have hBuilt := traced.pods (present ▸ (v.pods job.status.retries).current_mem_visible)
      have hPod := @Traced.setPod key v origin traced job.status.retries
        (some { stored with deletionRequested := true }) (by rintro pod ⟨⟩; exact hBuilt)
      exact { hPod with }
  | expired waits held present reported =>
      have hJob := @Traced.setJob key v origin traced none (by simp)
      exact { hJob with }
  | @updated job stored status history next reply answer path waits held present version
      reported =>
      have hOrigin := traced.jobs (present ▸ v.job.current_mem_visible)
      have hJob := @Traced.setJob key v origin traced
        (some { stored with status := status.stored, resourceVersion := v.next })
        (by rintro job ⟨⟩; exact hOrigin)
      exact { hJob with }
  | patched present =>
      have hOrigin := traced.jobs (present ▸ v.job.current_mem_visible)
      apply traced.setJob
      rintro job ⟨⟩
      exact hOrigin
  | @setPhase retries phase pod present =>
      have hBuilt := traced.pods (present ▸ (v.pods retries).current_mem_visible)
      apply traced.setPod
      rintro pod ⟨⟩
      exact hBuilt
  | createPod named free => exact absurd named (alone _ rfl _)
  | removePod present => exact traced.setPod (by simp)

/-- Pods under the names of a job's attempts are there only once it was created. -/
def Inhabited (v : JobView key) : Prop := ∀ r pod, some pod ∈ (v.pods r).visible → v.created

theorem Inhabited.step (inhabited : Inhabited v) (sound : Sound v) {a : Action}
    (alone : ∀ pod, a = .createPod pod → ∀ r, pod.key ≠ simulatorPodKey key r)
    (h : Moves v a v') : Inhabited v' := by
  have hHeld : ∀ {worker : Worker key} {job}, v.worker = some worker →
      readJob worker.history = some job → v.created :=
    fun hBusy hRead => sound.versions.created_of_stored (sound.held_visible hBusy hRead)
  have hPresent : ∀ {r pod}, (v.pods r).current = some pod → v.created :=
    fun hStored => inhabited _ _ (hStored ▸ Register.current_mem_visible _)
  cases h with
  | elsewhere | setClock | start | readJob | expired | updated | quiet | finish | patched =>
      exact inhabited
  | create fresh => exact fun _ _ _ => trivial
  | readPod waits held read => exact fun _ _ _ => hHeld waits held
  | created waits held free reported => exact fun _ _ _ => hHeld waits held
  | deleted waits held named present reported => exact fun _ _ _ => hHeld waits held
  | setPhase present => exact fun _ _ _ => hPresent present
  | removePod present => exact fun _ _ _ => hPresent present
  | createPod named free => exact absurd named (alone _ rfl _)

end JobView

namespace World
variable {w w' : World}

/-- What a step can do to the UIDs of pods: at most one pod gets a new one. -/
structure Assigns (w w' : World) (q : NamespacedName) : Prop where
  later : w.next ≤ w'.next
  assigned : ∀ {p pod}, some pod ∈ (w'.pods p).visible →
    (∃ before, some before ∈ (w.pods p).visible ∧ before.uid = pod.uid) ∨
      p = q ∧ pod.uid = w.next ∧ w.next < w'.next

theorem Assigns.of_pods (later : w.next ≤ w'.next) (pods : w'.pods = w.pods)
    (q : NamespacedName) : Assigns w w' q where
  later := later
  assigned := by
    intro p pod hMem
    rw [pods] at hMem
    exact .inl ⟨pod, hMem, rfl⟩

theorem Assigns.setPod {q : NamespacedName} {value : Option Pod}
    (kept : ∀ pod, value = some pod →
      (∃ before, (w.pods q).current = some before ∧ before.uid = pod.uid) ∨ pod.uid = w.next) :
    Assigns w (w.setPod q value) q where
  later := Nat.le_succ _
  assigned := by
    intro p pod hMem
    by_cases hp : p = q
    · subst hp
      rw [setPod_pods, Function.update_self] at hMem
      rcases List.mem_cons.mp hMem with hNew | hOld
      · rcases kept pod hNew.symm with ⟨before, hBefore, hUid⟩ | hNext
        · exact .inl ⟨before, hBefore ▸ Register.current_mem_visible _, hUid⟩
        · exact .inr ⟨rfl, hNext, Nat.lt_succ_self _⟩
      · exact .inl ⟨pod, hOld, rfl⟩
    · rw [setPod_pods, Function.update_of_ne hp] at hMem
      exact .inl ⟨pod, hMem, rfl⟩

theorem Assigns.wrote {write : Write} (applied : w.applyWrite write = .ok w') :
    ∃ q, Assigns w w' q := by
  cases write with
  | createPod pod =>
      obtain ⟨-, rfl⟩ := applyWrite_createPod applied
      exact ⟨_, .setPod (by rintro _ ⟨⟩; exact .inr rfl)⟩
  | deletePod pod =>
      obtain ⟨stored, hStored, rfl⟩ := applyWrite_deletePod applied
      exact ⟨_, .setPod (by rintro _ ⟨⟩; exact .inl ⟨stored, hStored, rfl⟩)⟩
  | deleteJob job =>
      obtain ⟨stored, -, rfl⟩ := applyWrite_deleteJob applied
      exact ⟨job.key, .of_pods (by simp) (by rfl) _⟩
  | updateStatus job =>
      obtain ⟨stored, -, -, rfl⟩ := applyWrite_updateStatus applied
      exact ⟨job.key, .of_pods (by simp) (by rfl) _⟩

theorem Moves.assigns {a : Action} (h : Moves w a w') : ∃ q, Assigns w w' q := by
  cases h with
  | @createJob key spec fresh => exact ⟨key, .of_pods (by simp) (by rfl) _⟩
  | @start key idle => exact ⟨key, .of_pods (by simp) (by rfl) _⟩
  | @readJob key req age value register history next path busy read =>
      exact ⟨key, .of_pods (by simp) (by rfl) _⟩
  | @readPod key q age value register history next path busy read =>
      refine ⟨q, Nat.le_refl _, ?_⟩
      intro p pod hMem
      by_cases hp : p = q
      · subst hp
        simp only [setWorker_pods, Function.update_self] at hMem
        exact .inl ⟨pod, Register.visible_subset_of_read read hMem, rfl⟩
      · simp only [setWorker_pods, Function.update_of_ne hp] at hMem
        exact .inl ⟨pod, hMem, rfl⟩
  | wrote busy applied reported =>
      obtain ⟨q, hAssigns⟩ := Assigns.wrote applied
      exact ⟨q, hAssigns.later, hAssigns.assigned⟩
  | @quiet key call history next reply answer path busy quiet =>
      exact ⟨key, .of_pods (by simp) (by rfl) _⟩
  | @finish key history outcome path busy => exact ⟨key, .of_pods (by simp) (by rfl) _⟩
  | @unpatched key message job stored same => exact ⟨key, .of_pods (by simp) (by rfl) _⟩
  | @patched key message job stored => exact ⟨key, .of_pods (by simp) (by rfl) _⟩
  | setClock => exact ⟨⟨"", ""⟩, .of_pods (by simp) (by rfl) _⟩
  | setPhase stored => exact ⟨_, .setPod (by rintro _ ⟨⟩; exact .inl ⟨_, stored, rfl⟩)⟩
  | createPod free => exact ⟨_, .setPod (by rintro _ ⟨⟩; exact .inr rfl)⟩
  | removePod stored => exact ⟨_, .setPod (by simp)⟩

/-- The pods under the names of attempts are told apart by their UIDs. -/
structure Distinct (w : World) : Prop where
  fresh : ∀ {key r pod}, some pod ∈ (w.pods (simulatorPodKey key r)).visible → pod.uid < w.next
  unique : ∀ {key key' r r' pod pod'}, some pod ∈ (w.pods (simulatorPodKey key r)).visible →
    some pod' ∈ (w.pods (simulatorPodKey key' r')).visible → pod.uid = pod'.uid →
      simulatorPodKey key r = simulatorPodKey key' r'

theorem Distinct.step (distinct : Distinct w) {a : Action} (h : Moves w a w') : Distinct w' := by
  obtain ⟨q, hLater, hAssigned⟩ := h.assigns
  constructor
  · intro key r pod hMem
    rcases hAssigned hMem with ⟨before, hBefore, hUid⟩ | ⟨-, hUid, hLess⟩
    · have hFresh := distinct.fresh hBefore
      omega
    · omega
  · intro key key' r r' pod pod' hMem hMem' hSame
    rcases hAssigned hMem with ⟨before, hBefore, hUid⟩ | ⟨hq, hUid, -⟩
    · have hFresh := distinct.fresh hBefore
      rcases hAssigned hMem' with ⟨before', hBefore', hUid'⟩ | ⟨-, hUid', -⟩
      · exact distinct.unique hBefore hBefore' (by rw [hUid, hUid', hSame])
      · omega
    · rcases hAssigned hMem' with ⟨before', hBefore', hUid'⟩ | ⟨hq', -, -⟩
      · have hFresh' := distinct.fresh hBefore'
        omega
      · rw [hq, hq']

/-- Jobs are created with such specs, and nobody else creates their pods. -/
structure Issues (key : NamespacedName) (origin : QuantumAerJobSpec → Prop) (w : World)
    (a : Action) : Prop where
  made : ∀ spec, a = .createJob key spec → origin spec
  alone : Alone key w a

theorem traced_of_reaches {key : NamespacedName} {origin : QuantumAerJobSpec → Prop}
    (run : Reaches step (Issues key origin) (Unused key) w) :
    (w.view key).Traced origin := by
  apply view_invariant _ (fun _ h => h.initial) _ _ run
  · intro s unused
    have hJob : (s.view key).job = .synced none := unused.initial.jobs key
    constructor
    · simp [hJob]
    · intro r pod hMem
      exact absurd hMem (unused.unused r pod)
  · intro s a v' sound traced issues moves
    apply traced.step sound issues.made _ moves
    intro pod hAction r
    rw [hAction] at issues
    exact issues.alone pod rfl r

theorem inhabited_of_reaches {key : NamespacedName} {origin : QuantumAerJobSpec → Prop}
    (run : Reaches step (Issues key origin) (Unused key) w) : (w.view key).Inhabited := by
  apply view_invariant _ (fun _ h => h.initial) _ _ run
  · intro s unused r pod hMem
    exact absurd hMem (unused.unused r pod)
  · intro s a v' sound inhabited issues moves
    apply inhabited.step sound _ moves
    intro pod hAction r
    rw [hAction] at issues
    exact issues.alone pod rfl r

theorem distinct_of_reaches {allowed : World → Action → Prop}
    (run : Reaches step allowed (fun w => ∀ key, Unused key w) w) : Distinct w := by
  apply run.invariant
  · intro s unused
    constructor
    · intro key r pod hMem
      exact absurd hMem ((unused key).unused r pod)
    · intro key key' r r' pod pod' hMem
      exact absurd hMem ((unused key).unused r pod)
  · intro s a t _ distinct _ stepped
    exact distinct.step (moves_of_step stepped)

end World
end QuantumService.Cluster
