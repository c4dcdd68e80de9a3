import QuantumService.Controller.Reconcile
import QuantumService.Simulator.Main

/-! What a simulator has done when it makes each of its calls, and when it exits.
It clears the message first and stores the results last, and exits with zero only
after both were answered without an error. -/
namespace QuantumService.Simulator
open Interaction Program
variable {aer : Aer}

/-- The simulator has not touched the job. -/
def Unpatched (h : History aer) : Prop := ∀ key message answer,
  ⟨.patchStatus key message, answer⟩ ∉ h

/-- The job's message was cleared, and no other was patched since. -/
structure Cleared (h : History aer) : Prop where
  answered : ∃ key, ⟨.patchStatus key "", .ok ()⟩ ∈ h
  only : ∀ {key message answer}, ⟨.patchStatus key message, answer⟩ ∈ h → message = ""

/-- Where the record of the simulator's job is. -/
def ConfigVars.recordKey (vars : ConfigVars) : String := jobKey (vars.jobId.getD "None")

/-- The job the simulator patches. -/
def ConfigVars.job (vars : ConfigVars) : NamespacedName :=
  ⟨vars.quantumJobNamespace, vars.quantumJobName.getD "None"⟩

/-- The text is the serialized result of running this circuit. -/
def Ran (h : History aer) (vars : ConfigVars) (circuit text : String) : Prop :=
  ∃ circuits results, aer.load circuit = .ok circuits ∧
    ⟨.runSimulation circuits vars.shots vars.backendName, .ok results⟩ ∈ h ∧
    aer.serialize results = .ok text

/-- These results are those of running the circuit that was read. -/
structure Computed (h : History aer) (vars : ConfigVars) (data : JobData) (text : String) :
    Prop where
  fetched : ⟨.get vars.recordKey, .ok (some data)⟩ ∈ h
  ran : ∃ circuit, data.circuit = some circuit ∧ Ran h vars circuit text

/-- Every call a simulator makes, with the calls answered before it. -/
inductive Site (pod : Pod) : History aer → Call aer → Prop where
  | loadIncluster {h : History aer} : Site pod h .loadIncluster
  | ping {h : History aer} : Site pod h .ping
  | get {h : History aer} {vars : ConfigVars} (env : getEnvVars pod = .ok vars) :
      Site pod h (.get vars.recordKey)
  | runSimulation {h : History aer} {vars : ConfigVars} {circuits : aer.Circuits}
      (env : getEnvVars pod = .ok vars) :
      Site pod h (.runSimulation circuits vars.shots vars.backendName)
  | clear {h : History aer} {vars : ConfigVars} (env : getEnvVars pod = .ok vars)
      (unpatched : Unpatched h) : Site pod h (.patchStatus vars.job "")
  | strftime {h : History aer} : Site pod h .strftime
  | setex {h : History aer} {vars : ConfigVars} {data : JobData} {text now : String}
      (env : getEnvVars pod = .ok vars) (computed : Computed h vars data text) :
      Site pod h (.setex vars.recordKey recordTtl
        { data with results := some text, updatedAt := now })
  | report {h : History aer} {vars : ConfigVars} {message : String}
      (env : getEnvVars pod = .ok vars) : Site pod h (.patchStatus vars.job message)

/-- What an exit with zero tells. -/
structure Succeeded (pod : Pod) (h : History aer) : Prop where
  cleared : Cleared h
  written : ∃ vars ttl data, getEnvVars pod = .ok vars ∧
    ⟨.setex vars.recordKey ttl data, .ok ()⟩ ∈ h

def Ends (pod : Pod) (h : History aer) (code : Nat) : Prop := code = 0 → Succeeded pod h

/-- What the `try` block of `main` tells: it raises, or all was done. -/
def TryEnds (pod : Pod) (h : History aer) : Except Raised Unit → Prop
  | .ok _ => Succeeded pod h
  | .error (.exit code) => code ≠ 0
  | .error (.exception _) => True

section Growth
variable {h : History aer} {vars : ConfigVars} {data : JobData} {circuit text : String}

theorem Unpatched.snoc (unpatched : Unpatched h) (call : Call aer) (answer : call.Answer)
    (other : ∀ key message, call ≠ .patchStatus key message) :
    Unpatched (h ++ [⟨call, answer⟩]) := by
  intro key message answer' hMem
  exact unpatched key message answer' (mem_of_mem_snoc hMem (other key message))

theorem Ran.mono (ran : Ran h vars circuit text) {later : History aer} (grown : h ⊆ later) :
    Ran later vars circuit text := by
  obtain ⟨circuits, results, hLoad, hRan, hText⟩ := ran
  exact ⟨circuits, results, hLoad, grown hRan, hText⟩

theorem Computed.append (computed : Computed h vars data text) (later : History aer) :
    Computed (h ++ later) vars data text where
  fetched := List.mem_append_left _ computed.fetched
  ran := by
    obtain ⟨circuit, hCircuit, hRan⟩ := computed.ran
    exact ⟨circuit, hCircuit, hRan.mono fun _ hMem => List.mem_append_left _ hMem⟩

/-- The first patch clears the message, if it is answered without an error. -/
theorem Unpatched.clear (unpatched : Unpatched h) (job : NamespacedName) :
    Cleared (h ++ [⟨.patchStatus job "", .ok ()⟩]) where
  answered := ⟨job, last_mem _⟩
  only := by
    intro key message answer hMem
    rcases List.mem_append.mp hMem with hOld | hNew
    · exact absurd hOld (unpatched _ _ _)
    · have hCall := congrArg Sigma.fst (List.mem_singleton.mp hNew)
      cases hCall
      rfl

theorem Cleared.snoc (cleared : Cleared h) (call : Call aer) (answer : call.Answer)
    (other : ∀ key message, call ≠ .patchStatus key message) :
    Cleared (h ++ [⟨call, answer⟩]) where
  answered := by
    obtain ⟨key, hMem⟩ := cleared.answered
    exact ⟨key, List.mem_append_left _ hMem⟩
  only := by
    intro key message answer' hMem
    exact cleared.only (mem_of_mem_snoc hMem (other key message))

/-- A process that has cleared the message did so before or with this answer. -/
theorem Cleared.of_snoc {e : Event (@Call.Answer aer)} (cleared : Cleared (h ++ [e]))
    (other : ∀ key, e ≠ ⟨.patchStatus key "", .ok ()⟩) : Cleared h where
  answered := by
    obtain ⟨key, hMem⟩ := cleared.answered
    rcases List.mem_append.mp hMem with hOld | hNew
    · exact ⟨key, hOld⟩
    · exact absurd (List.mem_singleton.mp hNew).symm (other key)
  only := fun hMem => cleared.only (List.mem_append_left _ hMem)

end Growth

section Blocks
variable {pod : Pod} {vars : ConfigVars} {h : History aer}

/-- Raising an exception ends the `try` block, whatever was done. -/
theorem orRaise_follows {α : Type} {result : Except String α}
    {next : α → Script aer (Except Raised Unit)}
    (rest : ∀ value, result = .ok value → (next value).Follows (Site pod) (TryEnds pod) h) :
    (orRaise aer result next).Follows (Site pod) (TryEnds pod) h := by
  cases result with
  | ok value => exact rest value rfl
  | error err => exact trivial

theorem given_iff {text : Option String} :
    given text = true ↔ ∃ value, text = some value ∧ value ≠ "" := by
  cases text with
  | none => simp [given]
  | some value => simp [given]

theorem simulateJob_follows {data : JobData} {circuit : String}
    (env : getEnvVars pod = .ok vars) (unpatched : Unpatched h)
    (fetched : ⟨.get vars.recordKey, .ok (some data)⟩ ∈ h)
    (circuits : data.circuit = some circuit) :
    (simulateJob aer vars data circuit).Follows (Site pod) (TryEnds pod) h := by
  unfold simulateJob
  apply orRaise_follows
  intro loaded hLoaded
  have hLoad : aer.load circuit = .ok loaded := by
    unfold deserializeCircuits at hLoaded
    split at hLoaded
    · rename_i hFine
      cases hLoaded
      exact hFine
    · cases hLoaded
  refine .query (.runSimulation env) fun ran => ?_
  apply orRaise_follows
  rintro results rfl
  apply orRaise_follows
  intro text hText
  have hComputed : Computed (h ++ [⟨.runSimulation loaded vars.shots vars.backendName,
      .ok results⟩]) vars data text :=
    ⟨List.mem_append_left _ fetched, circuit, circuits, loaded, results, hLoad, last_mem _, hText⟩
  have hUnpatched := unpatched.snoc (.runSimulation loaded vars.shots vars.backendName)
    (.ok results) (by simp)
  refine .query (.clear env hUnpatched) fun updated => ?_
  apply orRaise_follows
  rintro _ rfl
  refine .query .strftime fun now => ?_
  have hCleared := (hUnpatched.clear vars.job).snoc .strftime now (by simp)
  have hComputed := (hComputed.append [⟨.patchStatus vars.job "", .ok ()⟩]).append
    [⟨.strftime, now⟩]
  have hSite : Site pod _ (.setex vars.recordKey recordTtl
      { data with results := some text, updatedAt := now }) := .setex env hComputed
  refine .query hSite fun written => ?_
  apply orRaise_follows
  rintro _ rfl
  constructor
  · exact hCleared.snoc (.setex vars.recordKey recordTtl
      { data with results := some text, updatedAt := now }) (.ok ()) (by simp)
  · exact ⟨vars, _, _, env, last_mem _⟩

theorem runJob_follows (env : getEnvVars pod = .ok vars) (unpatched : Unpatched h) :
    (runJob aer vars).Follows (Site pod) (TryEnds pod) h := by
  unfold runJob
  refine .query (.get env) fun fetched => ?_
  have hUnpatched := unpatched.snoc (.get vars.recordKey) fetched (by simp)
  apply orRaise_follows
  rintro (_ | data) rfl
  · exact trivial
  · dsimp only
    split
    · exact trivial
    rename_i hGiven
    split
    · exact trivial
    split
    · exact trivial
    · obtain ⟨circuit, hCircuit, -⟩ := given_iff.mp (not_not.mp hGiven)
      rw [hCircuit]
      exact simulateJob_follows env hUnpatched (last_mem _) hCircuit

theorem tryMain_follows (pod : Pod) : (tryMain aer pod).Follows (Site pod) (TryEnds pod) [] := by
  unfold tryMain loadKubeConfig
  refine .query .loadIncluster fun loaded => ?_
  have hNone : Unpatched ([] : History aer) := by simp [Unpatched]
  have hLoaded := hNone.snoc .loadIncluster loaded (by simp)
  cases loaded with
  | error err => exact Nat.one_ne_zero
  | ok =>
      apply orRaise_follows
      intro vars hEnv
      refine .query .ping fun connected => ?_
      have hConnected := hLoaded.snoc .ping connected (by simp)
      apply orRaise_follows
      rintro _ rfl
      exact runJob_follows hEnv hConnected

theorem reportFailure_follows (pod : Pod) (err : String) :
    (reportFailure aer pod err).Follows (Site pod) (fun _ _ => True) h := by
  unfold reportFailure
  split
  · exact trivial
  · rename_i vars hEnv
    split
    · exact .query (.report hEnv) fun _ => trivial
    · exact trivial

end Blocks

/-- Each call of a simulator is made at one of the sites, and it exits with zero only when
its results are stored and the message is cleared. -/
theorem main_follows (pod : Pod) : (main aer pod).Follows (Site pod) (Ends pod) [] := by
  unfold main
  refine (tryMain_follows pod).bind ?_
  rintro h (raised | _) hEnds
  · cases raised with
    | exit code => exact fun hZero => absurd hZero hEnds
    | exception err =>
        refine (reportFailure_follows pod err).bind ?_
        intro later _ _ hOne
        exact absurd hOne Nat.one_ne_zero
  · exact fun _ => hEnds

/-- A simulator patches the job of its environment. -/
theorem Site.patch_inv {pod : Pod} {h : History aer} {key : NamespacedName} {message : String}
    (site : Site pod h (.patchStatus key message)) :
    ∃ vars, getEnvVars pod = .ok vars ∧ key = vars.job := by
  cases site with
  | clear env unpatched => exact ⟨_, env, rfl⟩
  | report env => exact ⟨_, env, rfl⟩

/-- A simulator runs the backend of its environment. -/
theorem Site.runSimulation_inv {pod : Pod} {h : History aer} {circuits : aer.Circuits}
    {shots : Int} {backendName : String}
    (site : Site pod h (.runSimulation circuits shots backendName)) :
    ∃ vars, getEnvVars pod = .ok vars ∧ backendName = vars.backendName := by
  cases site with
  | runSimulation env => exact ⟨_, env, rfl⟩

end QuantumService.Simulator
