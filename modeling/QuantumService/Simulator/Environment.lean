import QuantumService.Controller.PodName
import QuantumService.Simulator.Sites

/-! What a simulator finds in the pod that the controller builds for its job. The
spec is printed into environment variables there and parsed from them here. -/
namespace QuantumService.Simulator

theorem natRepr_digits (n : Nat) : n.repr.toList ≠ [] ∧ n.repr.toList.all Char.isDigit = true := by
  constructor
  · rw [Nat.toList_repr]
    exact Nat.toDigits_ne_nil
  · exact List.all_eq_true.mpr fun c hMem => Controller.digit_of_mem_repr hMem

/-- A number is parsed back from the decimal digits it is printed with. -/
theorem parseInt_natRepr (n : Nat) : parseInt n.repr = some (n : Int) := by
  unfold parseInt
  split
  · rename_i digits hSign
    exact absurd hSign (Controller.natRepr_ne_minus n digits)
  · rw [if_pos (natRepr_digits n), Controller.ofDigitChars_natRepr]

theorem parseInt_neg_natRepr (n : Nat) : parseInt ("-" ++ n.repr) = some (-(n : Int)) := by
  simp only [parseInt, Controller.toList_minus_append]
  rw [if_pos (natRepr_digits n), Controller.ofDigitChars_natRepr]

theorem parseInt_toString (x : Int) : parseInt (toString x) = some x := by
  have hRepr : toString x = x.repr := rfl
  rw [hRepr, Int.repr_eq_if]
  split
  · rename_i hSign
    rw [parseInt_natRepr, Int.toNat_of_nonneg hSign]
  · rename_i hSign
    rw [parseInt_neg_natRepr]
    congr 1
    omega

/-- The simulator reads from its environment what the spec says. -/
theorem getEnvVars_simulatorPod (job : QuantumAerJob) :
    getEnvVars (Controller.simulatorPod job) = .ok
      { shots := job.spec.shots.toInt
        backendName := job.spec.backendName
        jobId := some job.spec.jobID
        quantumJobName := some job.name
        quantumJobNamespace := job.nameSpace } := by
  have hShots : getenv (Controller.simulatorPod job) "SHOTS" =
      some (toString job.spec.shots.toInt) := rfl
  simp only [getEnvVars, hShots, Option.getD_some, parseInt_toString]
  rfl

/-- The environment a pod of the controller gives its simulator. -/
theorem getEnvVars_of_simulatorPod {pod : Pod} {job : QuantumAerJob}
    (built : pod.containers = (Controller.simulatorPod job).containers) {vars : ConfigVars}
    (env : getEnvVars pod = .ok vars) :
    vars.jobId = some job.spec.jobID ∧ vars.job = job.key := by
  have hSame : getEnvVars pod = getEnvVars (Controller.simulatorPod job) := by
    simp only [getEnvVars, getenv, built]
  rw [hSame, getEnvVars_simulatorPod] at env
  cases env
  exact ⟨rfl, rfl⟩

/-- The job and the run that such a pod asks its simulator for. -/
theorem spec_of_simulatorPod {pod : Pod} {job : QuantumAerJob}
    (built : pod.containers = (Controller.simulatorPod job).containers) {vars : ConfigVars}
    (env : getEnvVars pod = .ok vars) :
    vars.jobId = some job.spec.jobID ∧ vars.shots = job.spec.shots.toInt ∧
      vars.backendName = job.spec.backendName := by
  have hSame : getEnvVars pod = getEnvVars (Controller.simulatorPod job) := by
    simp only [getEnvVars, getenv, built]
  rw [hSame, getEnvVars_simulatorPod] at env
  cases env
  exact ⟨rfl, rfl, rfl⟩

/-- A quantity that is set is the one the container gets. Quantities are texts,
and `value` is what they are worth; the empty text is none. -/
def Granted {Quantity : Type} (value : String → Quantity) (granted : List (String × String))
    (wanted : ResourceList) : Prop :=
  (wanted.cpu ≠ "" → (granted.lookup "cpu").map value = some (value wanted.cpu)) ∧
  (wanted.memory ≠ "" → (granted.lookup "memory").map value = some (value wanted.memory))

/-- The pod runs what the spec of the job says, in the way it says. -/
structure Realises {Quantity : Type} (value : String → Quantity) (job : QuantumAerJob)
    (pod : Pod) : Prop where
  env : getEnvVars pod = .ok
    { shots := job.spec.shots.toInt
      backendName := job.spec.backendName
      jobId := some job.spec.jobID
      quantumJobName := some job.name
      quantumJobNamespace := job.nameSpace }
  container : ∃ container, pod.containers = [container] ∧
    container.image = job.spec.simulatorImage ∧
    Granted value container.resources.requests job.spec.resources.requests ∧
    Granted value container.resources.limits job.spec.resources.limits

/-- The quantities that are set are these two. -/
def Fixed {Quantity : Type} (value : String → Quantity) (wanted : ResourceList)
    (cpu memory : String) : Prop :=
  (wanted.cpu ≠ "" → value wanted.cpu = value cpu) ∧
  (wanted.memory ≠ "" → value wanted.memory = value memory)

theorem granted_iff {Quantity : Type} (value : String → Quantity) (wanted : ResourceList)
    (cpu memory : String) :
    Granted value [("cpu", cpu), ("memory", memory)] wanted ↔ Fixed value wanted cpu memory := by
  have hCpu : List.lookup "cpu" [("cpu", cpu), ("memory", memory)] = some cpu := rfl
  have hMemory : List.lookup "memory" [("cpu", cpu), ("memory", memory)] = some memory := rfl
  rw [Granted, Fixed, hCpu, hMemory, Option.map_some, Option.map_some, Option.some.injEq,
    Option.some.injEq, eq_comm (a := value cpu), eq_comm (a := value memory)]

/-- The resources of every pod of the controller. -/
theorem fixed_of_realises {Quantity : Type} {value : String → Quantity} {job : QuantumAerJob}
    (realises : Realises value job (Controller.simulatorPod job)) :
    Fixed value job.spec.resources.requests "1" "512Mi" ∧
      Fixed value job.spec.resources.limits "2" "2Gi" := by
  obtain ⟨container, hContainer, -, hRequests, hLimits⟩ := realises.container
  cases hContainer
  exact ⟨(granted_iff ..).mp hRequests, (granted_iff ..).mp hLimits⟩

/-- The pod realises the spec up to the resources, which are the same in every pod whatever
the spec sets. -/
theorem simulatorPod_realises_iff {Quantity : Type} (value : String → Quantity)
    (job : QuantumAerJob) :
    Realises value job (Controller.simulatorPod job) ↔
      Fixed value job.spec.resources.requests "1" "512Mi" ∧
        Fixed value job.spec.resources.limits "2" "2Gi" := by
  constructor
  · exact fixed_of_realises
  · rw [← granted_iff, ← granted_iff]
    intro granted
    exact ⟨getEnvVars_simulatorPod job, _, rfl, rfl, granted.1, granted.2⟩

/-- A job that asks for four processors. -/
def demandingJob : QuantumAerJob :=
  ⟨"qjob-1", "default", 1, 2,
    { QuantumAerJobSpec.defaults "aer-simulator:v3" "1" with
      resources := ⟨⟨"4", "512Mi"⟩, ⟨"", ""⟩⟩ }, .empty⟩

/-- Numbers of processors are worth the numbers they are. -/
theorem resources_dropped :
    ¬ Realises parseInt demandingJob (Controller.simulatorPod demandingJob) := by
  intro hRealises
  have hCpu : parseInt "4" = parseInt "1" := (fixed_of_realises hRealises).1.1 (by decide)
  exact absurd hCpu (by decide)

end QuantumService.Simulator
