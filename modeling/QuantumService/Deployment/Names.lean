import QuantumService.Api.Names
import QuantumService.Controller.PodName
import QuantumService.Service.Transpiler

/-! The names and labels of a job and of its pods. Both are made from the identifier
of the submission, and both are checked by the Kubernetes API. -/
namespace QuantumService

namespace Service

/-- The metadata of the custom resource follows the rules. Labels are texts. -/
structure ValidBody (body : JobBody) : Prop where
  name : isDNS1123Subdomain body.name = true
  labels : ∀ label ∈ body.labels, ∃ value, label.2 = .str value ∧ isValidLabelValue value = true

end Service

namespace Controller

/-- The metadata of the pod follows the rules. -/
structure ValidPod (pod : Pod) : Prop where
  name : isDNS1123Subdomain pod.name = true
  labels : ∀ label ∈ pod.labels, isValidLabelValue label.2 = true

section Names
variable {id name : String} {retries : Int32}

/-- What the controller appends to the name of a job. -/
def attemptSuffix (retries : Int32) : List Char := '-' :: 's' :: 'i' :: 'm' :: '-' ::
  retries.toInt.repr.toList

theorem toList_simulatorPodName (name : String) (retries : Int32) :
    (simulatorPodName name retries).toList = name.toList ++ attemptSuffix retries := by
  rw [simulatorPodName_toList, List.append_assoc]
  rfl

theorem intRepr_of_nonneg (nonneg : 0 ≤ retries.toInt) :
    retries.toInt.repr = retries.toInt.toNat.repr := by
  rw [Int.repr_eq_if, if_pos nonneg]

/-- The number of an attempt has at most ten digits. -/
theorem length_attemptSuffix (nonneg : 0 ≤ retries.toInt) :
    (attemptSuffix retries).length ≤ 15 := by
  have hBound : retries.toInt.toNat < 10 ^ 10 := by
    have hUpper := retries.toInt_lt
    omega
  have hDigits : retries.toInt.toNat.repr.length ≤ 10 :=
    (Nat.length_repr_le_iff (by decide)).mpr hBound
  rw [attemptSuffix, intRepr_of_nonneg nonneg]
  simp only [List.length_cons, String.length_toList]
  omega

theorem attemptSuffix_alphabet (nonneg : 0 ≤ retries.toInt) :
    ∀ c ∈ attemptSuffix retries, lowerAlphanum c = true ∨ c = '-' := by
  intro c hMem
  rw [attemptSuffix, intRepr_of_nonneg nonneg] at hMem
  simp only [List.mem_cons] at hMem
  rcases hMem with rfl | rfl | rfl | rfl | rfl | hDigit
  · exact .inr rfl
  · exact .inl (by decide)
  · exact .inl (by decide)
  · exact .inl (by decide)
  · exact .inr rfl
  · left
    rw [lowerAlphanum, digit_of_mem_repr hDigit, Bool.or_true]

theorem attemptSuffix_ends (nonneg : 0 ≤ retries.toInt) :
    ∃ last, (attemptSuffix retries).getLast? = some last ∧ lowerAlphanum last = true := by
  have hSome : retries.toInt.toNat.repr.toList ≠ [] := by
    rw [Nat.toList_repr]
    exact Nat.toDigits_ne_nil
  refine ⟨retries.toInt.toNat.repr.toList.getLast hSome, ?_, ?_⟩
  · rw [attemptSuffix, intRepr_of_nonneg nonneg]
    have hSplit : '-' :: 's' :: 'i' :: 'm' :: '-' :: retries.toInt.toNat.repr.toList =
      ['-', 's', 'i', 'm', '-'] ++ retries.toInt.toNat.repr.toList := rfl
    rw [hSplit, List.getLast?_append, List.getLast?_eq_some_getLast hSome, Option.some_or]
  · rw [lowerAlphanum, digit_of_mem_repr (List.getLast_mem hSome), Bool.or_true]

/-- Pod names follow the rules where the job's name does, and is not too long. -/
theorem simulatorPodName_valid (hName : isDNS1123Subdomain name = true)
    (short : name.toList.length ≤ 238) (nonneg : 0 ≤ retries.toInt) :
    isDNS1123Subdomain (simulatorPodName name retries) = true := by
  obtain ⟨last, hEnds, hClosed⟩ := attemptSuffix_ends nonneg
  rw [isDNS1123Subdomain, Bool.and_eq_true] at hName
  rw [isDNS1123Subdomain, toList_simulatorPodName, List.length_append,
    all_splitOn_append hName.2 (attemptSuffix_alphabet nonneg) hEnds hClosed, Bool.and_true,
    decide_eq_true_eq]
  have hLength := length_attemptSuffix nonneg
  omega

end Names

section Jobs
variable {cfg : Service.Config} {backendName shots resources : Json} {id : String}

theorem toList_jobName (id : String) :
    (Service.jobName (.str id)).toList = ['q', 'j', 'o', 'b', '-'] ++ id.toList := by
  have hText : Service.jobName (.str id) = "qjob-" ++ id := rfl
  rw [hText, String.toList_append]
  rfl

/-- The identifier of an accepted job is a label's value, and is not empty. -/
theorem identifier_of_valid
    (valid : Service.ValidBody (Service.jobBody cfg backendName shots (.str id) resources)) :
    id ≠ "" ∧ isValidLabelValue id = true := by
  constructor
  · rintro rfl
    have hName : isDNS1123Subdomain "qjob-" = true := valid.name
    exact absurd hName (by decide)
  · obtain ⟨value, hValue, hValid⟩ := valid.labels ("job-id", .str id) (by
      simp [Service.jobBody])
    cases hValue
    exact hValid

/-- The job's name is a label's value as well, as far as it is short enough. -/
theorem isValidLabelValue_jobName (given : id ≠ "") (valid : isValidLabelValue id = true) :
    isValidLabelValue (Service.jobName (.str id)) = true ↔ id.length ≤ 58 := by
  obtain ⟨-, hAlphabet, -, last, hLast, hClosed⟩ := (isValidLabelValue_iff given).mp valid
  have hGiven : Service.jobName (.str id) ≠ "" := by
    intro hNil
    have hChars := congrArg String.toList hNil
    rw [toList_jobName] at hChars
    cases hChars
  rw [isValidLabelValue_iff hGiven, toList_jobName]
  constructor
  · intro hValid
    have hLength := hValid.1
    rw [List.length_append, String.length_toList] at hLength
    exact Nat.le_of_add_le_add_left hLength
  · intro hShort
    refine ⟨?_, ?_, ⟨'q', rfl, by decide⟩, last, ?_, hClosed⟩
    · rw [List.length_append, String.length_toList]
      exact Nat.add_le_add_left hShort 5
    · intro c hMem
      rcases List.mem_append.mp hMem with hPrefix | hId
      · simp only [List.mem_cons, List.not_mem_nil, or_false] at hPrefix
        rcases hPrefix with rfl | rfl | rfl | rfl | rfl <;> decide
      · exact hAlphabet c hId
    · rw [List.getLast?_append, hLast, Option.some_or]

/-- Accepted jobs get their pods when their identifiers have at most 58 characters: the
label with the job's name has five more than the one with its identifier. -/
theorem simulatorPod_valid_iff {job : QuantumAerJob}
    (valid : Service.ValidBody (Service.jobBody cfg backendName shots (.str id) resources))
    (named : job.name = (Service.jobBody cfg backendName shots (.str id) resources).name)
    (nonneg : 0 ≤ job.status.retries.toInt) : ValidPod (simulatorPod job) ↔ id.length ≤ 58 := by
  have hName : job.name = Service.jobName (.str id) := named
  obtain ⟨hGiven, hId⟩ := identifier_of_valid valid
  rw [← isValidLabelValue_jobName hGiven hId]
  constructor
  · intro hPod
    have hLabel := hPod.labels ("quantum-job", job.name) (by simp [simulatorPod])
    rw [← hName]
    exact hLabel
  · intro hLabel
    constructor
    · have hLength := ((isValidLabelValue_iff hGiven).mp hId).1
      have hShort : job.name.toList.length ≤ 238 := by
        rw [hName, toList_jobName, List.length_append]
        simp only [List.length_cons, List.length_nil]
        omega
      have hValid : isDNS1123Subdomain job.name = true := by
        rw [hName]
        exact valid.name
      exact simulatorPodName_valid hValid hShort nonneg
    · intro label hMem
      have hLabels : label = ("app", "quantum-simulator") ∨ label = ("quantum-job", job.name) := by
        simpa [simulatorPod] using hMem
      rcases hLabels with rfl | rfl
      · decide
      · rw [hName]
        exact hLabel

end Jobs

/-- The job of a submission under this identifier, with a first attempt. -/
def namedJob (id : String) : QuantumAerJob :=
  ⟨Service.jobName (.str id), "default", 1, 2, .defaults "aer-simulator:v3" id, .empty⟩

def namedBody (id : String) : Service.JobBody :=
  Service.jobBody Service.sampleConfig (.str "aer-simulator") (.int 1024) (.str id) .null

theorem namedBody_valid {id : String} (name : isDNS1123Subdomain (Service.jobName (.str id)) = true)
    (label : isValidLabelValue id = true) : Service.ValidBody (namedBody id) where
  name := name
  labels := by
    intro entry hMem
    have hEntries : entry = ("managed-by", .str "transpiler-service") ∨
        entry = ("job-id", .str id) := by
      simpa [namedBody, Service.jobBody] using hMem
    rcases hEntries with rfl | rfl
    · exact ⟨_, rfl, by decide⟩
    · exact ⟨_, rfl, label⟩

/-- Sixteen characters, as the service generates them. -/
theorem simulatorPod_valid_generated : ValidPod (simulatorPod (namedJob "0123456789abcdef")) :=
  (simulatorPod_valid_iff (namedBody_valid (by decide) (by decide)) rfl (by decide)).mpr (by decide)

/-- Fifty-nine characters: the job is accepted, and its pod is not. -/
theorem simulatorPod_refused : ¬ ∀ (id : String) (job : QuantumAerJob),
    Service.ValidBody (namedBody id) → job.name = (namedBody id).name →
      0 ≤ job.status.retries.toInt → job.status.retries ≤ job.spec.maxRetries →
        ValidPod (simulatorPod job) := by
  intro claim
  have hPod := claim "a123456789b123456789c123456789d123456789e123456789f12345678"
    (namedJob "a123456789b123456789c123456789d123456789e123456789f12345678")
    (namedBody_valid (by decide) (by decide)) rfl (by decide) (by decide)
  have hLabel : isValidLabelValue
      "qjob-a123456789b123456789c123456789d123456789e123456789f12345678" = true :=
    hPod.labels _ (List.mem_cons_of_mem _ List.mem_cons_self)
  exact absurd hLabel (by decide)

end Controller
end QuantumService
