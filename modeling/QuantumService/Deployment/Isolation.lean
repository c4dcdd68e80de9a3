import QuantumService.Controller.Lookup
import QuantumService.Deployment.Hosting

/-! Two jobs do not touch each other. A pod is found by its name only, and its name
says which job it is of, whatever the jobs are called. -/
namespace QuantumService
open Interaction Cluster Controller

namespace Deployment
variable {setup : Setup} {d d' : Deployment setup} {key other : NamespacedName}

/-- Only the controller creates pods. -/
def Solo (_ : Deployment setup) (a : Action setup) : Prop := ∀ pod, a ≠ .cluster (.createPod pod)

/-- A system in which nothing has happened yet, without any pod. -/
structure Podless (d : Deployment setup) : Prop where
  initial : Initial d
  none : ∀ key pod, some pod ∉ (d.world.pods key).visible

theorem Podless.empty (setup : Setup) : Podless (.empty setup) :=
  ⟨.empty setup, fun _ _ hMem => nomatch List.mem_singleton.mp hMem⟩

theorem Podless.unused (podless : Podless d) (key : NamespacedName) :
    World.Unused key d.world :=
  ⟨podless.initial.world, fun _ => podless.none _⟩

theorem Solo.issues {a : Action setup} {wa : World.Action} (solo : Solo d a)
    (causes : Causes d a wa) : World.Issues key (fun _ => True) d.world wa := by
  constructor
  · intro spec _
    trivial
  · intro pod hPlaced
    cases causes with
    | cluster own =>
        cases wa with
        | createPod pod' => exact absurd rfl (solo pod')
        | createJob | reconcile | answer | finish | patchError | setClock | setPhase
        | removePod => cases hPlaced
    | created => cases hPlaced
    | patched => cases hPlaced

section Run
variable (run : Reaches step Solo Podless d)
include run

theorem sound_of_solo (key : NamespacedName) : (d.world.view key).Sound :=
  World.sound_of_reaches (cluster_of_run (fun _ podless => podless.initial.world) run) key

theorem traced_of_solo (key : NamespacedName) :
    (d.world.view key).Traced (fun _ => True) := by
  have hCluster : Reaches World.step (World.Issues key fun _ => True) (World.Unused key)
      d.world :=
    cluster_reaches (fun _ podless => podless.unused key)
      (fun _ _ _ _ solo causes => solo.issues causes) run
  exact World.traced_of_reaches hCluster

/-- Each process runs in a pod that was built for the job whose name it has. -/
theorem built_of_solo {uid : Nat} {process : Process setup}
    (stored : d.processes uid = some process) :
    ∃ key, process.Serves key ∧ JobView.Built key (fun _ => True) process.pod := by
  have hAll : ∀ uid process, d.processes uid = some process →
      ∃ key, process.Serves key ∧ JobView.Built key (fun _ => True) process.pod := by
    apply run.invariant
    · intro s podless uid process hProcess
      rw [podless.initial.idle] at hProcess
      cases hProcess
    · intro s a t reached built _ stepped uid process hProcess
      have hResumed : ∀ {u : Nat} {before after : Process setup}, s.processes u = some before →
          after.pod = before.pod →
          Function.update s.processes u (some after) uid = some process →
          ∃ key, process.Serves key ∧ JobView.Built key (fun _ => True) process.pod := by
        intro u before after hBusy hSame hUpdated
        rcases update_cases hUpdated with ⟨rfl, rfl⟩ | hOld
        · obtain ⟨key, ⟨r, hr⟩, hBuilt⟩ := built _ _ hBusy
          rw [← hSame] at hr hBuilt
          exact ⟨key, ⟨r, hr⟩, hBuilt⟩
        · exact built uid process hOld
      cases (moves_of_step stepped).turns with
      | idle world processes | cluster _ _ _ _ processes =>
          rw [processes] at hProcess
          exact built uid process hProcess
      | @launched key retries pod present fresh live world processes =>
          rw [processes] at hProcess
          rcases update_cases hProcess with ⟨rfl, rfl⟩ | hOld
          · have hMem : some pod ∈ ((s.world.view key).pods retries).visible :=
              present ▸ Register.current_mem_visible _
            exact ⟨key, ⟨retries, (sound_of_solo reached key).podKeyed hMem⟩,
              (traced_of_solo reached key).pods hMem⟩
          · exact built uid process hOld
      | resumed process' busy _ same _ _ _ processes =>
          rw [processes] at hProcess
          exact hResumed busy same hProcess
      | patched process' busy _ same _ _ _ _ processes =>
          rw [processes] at hProcess
          exact hResumed busy same hProcess
  exact hAll uid process stored

/-- A simulator patches the status of the job its pod was built for. -/
theorem patch_target {uid : Nat} {process : Process setup} {target : NamespacedName}
    {message : String} {next : Except String Unit → Simulator.Script setup.aer Nat}
    (busy : d.processes uid = some process) (serves : process.Serves key)
    (asks : process.rest = .ask (.patchStatus target message) next) : target = key := by
  obtain ⟨pod, history, rest, path, stopped⟩ := process
  subst asks
  obtain ⟨vars, hEnv, rfl⟩ := ((Simulator.main_follows pod).call path).patch_inv
  obtain ⟨key', hServes, job, rfl, -, hContainers⟩ := built_of_solo run busy
  rw [Process.serves_unique serves hServes]
  exact (Simulator.getEnvVars_of_simulatorPod hContainers hEnv).2

end Run

/-- The call looks for the pod of this name, creates it or deletes it. -/
def Touches (call : Call) (q : NamespacedName) : Prop :=
  call = .getPod q ∨ ∃ pod, pod.key = q ∧
    (call = .write (.createPod pod) ∨ call = .write (.deletePod pod))

/-- The action is a step of the job's reconcile or of one of its simulators. -/
inductive ActsFor (d : Deployment setup) (key : NamespacedName) : Action setup → Prop where
  | start : ActsFor d key (.cluster (.reconcile key))
  | answer {reply : World.Reply} : ActsFor d key (.cluster (.answer key reply))
  | finish : ActsFor d key (.cluster (.finish key))
  | simulate {uid : Nat} {process : Process setup} {reply : Reply setup.aer.Results}
      (busy : d.processes uid = some process) (serves : process.Serves key) :
      ActsFor d key (.simulate uid reply)

/-- One job has nothing to do with another one. -/
structure Apart (d : Deployment setup) (key other : NamespacedName) : Prop where
  named : ∀ job, (d.world.jobs key).current = some job →
    job.status.podName = "" ∨ ∃ n, job.status.podName = simulatorPodName key.name n
  untouched : ∀ pod, (other, .createPod pod) ∈ d.world.effects →
    ∀ worker call next, d.world.workers key = some worker → worker.rest = .ask call next →
      ¬ Touches call pod.key
  unseen : ∀ pod, (other, .createPod pod) ∈ d.world.effects →
    ∀ worker q found, d.world.workers key = some worker →
      ⟨.getPod q, .ok found⟩ ∈ worker.history → found.key ≠ pod.key
  reconciles : ∀ worker update next, d.world.workers key = some worker →
    worker.rest = .ask (.write (.updateStatus update)) next → update.key = key
  patches : ∀ uid process target message next, d.processes uid = some process →
    process.Serves key → process.rest = .ask (.patchStatus target message) next → target = key
  frame : ∀ a d', ActsFor d key a → d.step a = some d' →
    d'.world.jobs other = d.world.jobs other ∧
      ∀ r, d'.world.pods (simulatorPodKey other r) = d.world.pods (simulatorPodKey other r)

section Cluster
variable {w w' : World}

/-- The pods a reconcile deals with have the names of its job's attempts. -/
theorem touches_own (sound : (w.view key).Sound) {history : History} {call : Call}
    {next : call.Answer → Reconciler Outcome}
    {path : Program.Path (reconcile key) history (.ask call next)} {q : NamespacedName}
    (busy : w.workers key = some ⟨history, .ask call next, path⟩) (touches : Touches call q) :
    ∃ r, q = simulatorPodKey key r := by
  have hSite := World.site_of_busy path
  have hNamed : ∀ {job}, readJob history = some job → job.status.podName ≠ "" →
      podKey job = simulatorPodKey key job.status.retries := by
    intro job hRead hName
    exact JobView.podKey_eq (sound.held_key busy hRead)
      (sound.versions.ok (sound.held_visible busy hRead)) hName
  rcases touches with rfl | ⟨pod, rfl, rfl | rfl⟩
  · obtain ⟨job, hRead, hName, rfl⟩ := hSite.getPod_inv
    exact ⟨_, hNamed hRead hName⟩
  · obtain ⟨job, hRead, -, -, rfl⟩ := hSite.createPod_inv
    exact ⟨_, JobView.simulatorPod_key (sound.held_key busy hRead)⟩
  · obtain ⟨job, hRead, hFound, -⟩ := hSite.deletePod_inv
    rw [sound.found busy hFound.2]
    exact ⟨_, hNamed hRead hFound.1⟩

/-- The action is the move of this job's reconcile, or a patch of this job. -/
def Concerns (key : NamespacedName) (a : World.Action) : Prop :=
  a = .reconcile key ∨ a = .finish key ∨ (∃ reply, a = .answer key reply) ∨
    ∃ message, a = .patchError key message

/-- What concerns one job leaves the other one as it is. -/
theorem frame_of_concerns (distinct : key ≠ other) {a : World.Action} (concerns : Concerns key a)
    (moves : (w.view other).Moves a (w'.view other)) :
    w'.jobs other = w.jobs other ∧
      ∀ r, w'.pods (simulatorPodKey other r) = w.pods (simulatorPodKey other r) := by
  generalize hAfter : w'.view other = v' at moves
  unfold Concerns at concerns
  cases moves with
  | elsewhere =>
      have hJob := congrArg JobView.job hAfter
      have hPods := congrArg JobView.pods hAfter
      exact ⟨hJob, fun r => congrFun hPods r⟩
  | setClock | create | setPhase | createPod | removePod =>
      exact absurd concerns (by simp)
  | start | readJob | readPod | created | deleted | expired | updated | quiet | finish
  | patched => exact absurd concerns (by simp [distinct.symm])

end Cluster

/-- Jobs do not touch each other, and pods are told apart by their names. -/
theorem jobs_apart (run : Reaches step Solo Podless d) :
    (∀ key other, key ≠ other → Apart d key other) ∧
    ∀ name name' n n', simulatorPodName name n = simulatorPodName name' n' →
      name = name' ∧ n = n' := by
  have hSound := sound_of_solo run
  constructor
  · intro key other hDistinct
    have hPlaced : ∀ {pod}, (other, .createPod pod) ∈ d.world.effects →
        ∀ r, pod.key ≠ simulatorPodKey key r := by
      intro pod hMem r hKey
      obtain ⟨r', hr'⟩ := (hSound other).placed (mem_entriesOf.mpr hMem)
      exact hDistinct (simulatorPodKey_injective (hKey.symm.trans hr')).1
    have hPatches : ∀ uid process target message next, d.processes uid = some process →
        process.Serves key → process.rest = .ask (.patchStatus target message) next →
        target = key :=
      fun _ _ _ _ _ hBusy hServes hAsks => patch_target run hBusy hServes hAsks
    constructor
    · intro job hStored
      have hMem : some job ∈ (d.world.view key).job.visible :=
        hStored ▸ (d.world.jobs key).current_mem_visible
      rw [← (hSound key).versions.keyed hMem]
      exact ((hSound key).versions.ok hMem).named.imp id fun hName => ⟨_, hName⟩
    · rintro pod hMem ⟨history, rest, path⟩ call next hBusy rfl hTouches
      obtain ⟨r, hr⟩ := touches_own (hSound key) hBusy hTouches
      exact hPlaced hMem r hr
    · intro pod hMem worker q found hBusy hFound hSame
      obtain ⟨before, later, hSplit⟩ := List.append_of_mem hFound
      obtain ⟨job, hRead, hNamed, rfl⟩ := (site_of_event worker.path hSplit).getPod_inv
      have hHeld := readJob_append hRead (⟨.getPod (podKey job), .ok found⟩ :: later)
      rw [← hSplit] at hHeld
      have hVisible := (hSound key).held_visible hBusy hHeld
      have hPod := JobView.podKey_eq ((hSound key).held_key hBusy hHeld)
        ((hSound key).versions.ok hVisible) hNamed
      rw [(hSound key).found hBusy hFound, hPod] at hSame
      exact hPlaced hMem _ hSame.symm
    · rintro ⟨history, rest, path⟩ update next hBusy rfl
      obtain ⟨job, status, hRead, -, rfl⟩ := (World.site_of_busy path).updateStatus_inv
      have hKey : job.key = key := (hSound key).held_key hBusy hRead
      exact hKey
    · exact hPatches
    · intro a d' hActs hStep
      rcases (moves_of_step hStep).world with hSame | ⟨wa, hCauses, hStepped⟩
      · rw [hSame]
        exact ⟨rfl, fun _ => rfl⟩
      · apply frame_of_concerns hDistinct _ (World.view_moves hSound hStepped other)
        cases hActs with
        | start =>
            cases hCauses
            exact .inl rfl
        | finish =>
            cases hCauses
            exact .inr (.inl rfl)
        | answer =>
            cases hCauses
            exact .inr (.inr (.inl ⟨_, rfl⟩))
        | simulate busy serves =>
            cases hCauses with
            | patched busy' applied =>
                rw [busy', Option.some.injEq] at busy
                have hTarget := hPatches _ _ _ _ _ busy' (busy ▸ serves) rfl
                rw [hTarget]
                exact .inr (.inr (.inr ⟨_, rfl⟩))
  · intro name name' n n' hName
    exact simulatorPodName_injective hName

/-- A job that is called like the first pod of another one. -/
def nestedKey : NamespacedName := ⟨"default", "qjob-1-sim-0"⟩

/-- Both jobs are created, and each gets its pod. -/
def nestedRun : List (Action sampleSetup) :=
  [.cluster (.createJob World.sampleKey World.sampleSpec),
    .cluster (.createJob nestedKey World.sampleSpec)] ++
    clusterPass World.sampleKey [.read 0, .ok, .ok] ++ clusterPass nestedKey [.read 0, .ok, .ok] ++
    clusterPass World.sampleKey [.read 0, .ok, .ok, .ok, .ok] ++
    clusterPass nestedKey [.read 0, .ok, .ok, .ok, .ok]

theorem jobs_apart_nested : ∃ d : Deployment sampleSetup,
    runActions step (.empty sampleSetup) nestedRun = some d ∧
    (d.world.pods (simulatorPodKey World.sampleKey 0)).current.isSome ∧
    (d.world.pods (simulatorPodKey nestedKey 0)).current.isSome ∧
    Apart d World.sampleKey nestedKey ∧ Apart d nestedKey World.sampleKey := by
  have hRun : (runActions step (.empty sampleSetup) nestedRun).map (fun d =>
      ((d.world.pods (simulatorPodKey World.sampleKey 0)).current.isSome,
        (d.world.pods (simulatorPodKey nestedKey 0)).current.isSome)) = some (true, true) := by
    decide +kernel
  obtain ⟨d, hd, hPods⟩ := Option.map_eq_some_iff.mp hRun
  obtain ⟨hFirst, hSecond⟩ := Prod.mk.inj hPods
  have hSolo : ∀ a ∈ nestedRun, ∀ d, Solo d a := by
    intro a hMem d pod hAction
    subst hAction
    simp [nestedRun, clusterPass, World.pass] at hMem
  have hReached : Reaches step Solo Podless d :=
    (Reaches.start (.empty sampleSetup)).runActions (.of_forall hSolo) hd
  have hDistinct : World.sampleKey ≠ nestedKey := by decide
  have hApart := (jobs_apart hReached).1
  exact ⟨d, hd, hFirst, hSecond, hApart _ _ hDistinct, hApart _ _ hDistinct.symm⟩

end Deployment
end QuantumService
