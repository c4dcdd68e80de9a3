import QuantumService.Cluster.Job
import QuantumService.Controller.Status

/-! What holds of every job in every run. The versions a stale read can return
differ by at most one status update of the controller, and a reconcile works on
the oldest of them. -/
namespace QuantumService.Cluster
open Interaction Controller World

/-- A version that was stored after `old` while `old` could still be read: at
most one status update was made in between, and any number of patches. -/
structure Succeeds (new old : QuantumAerJob) : Prop where
  version : old.resourceVersion < new.resourceVersion
  uid : new.uid = old.uid
  spec : new.spec = old.spec
  status : ∃ status,
    (status = old.status ∨ Advance old.name old.spec old.status status) ∧
      new.status = { status with errorMessage := new.status.errorMessage }

/-- The order of the versions a read may still return, newest first. A job is
deleted only when it is terminal. -/
def Newer : Option QuantumAerJob → Option QuantumAerJob → Prop
  | some new, some old => Succeeds new old
  | none, some old => old.status.jobStatus.Terminal
  | _, none => True

section Succeeds
variable {new old : QuantumAerJob}

theorem Succeeds.irrefl {job : QuantumAerJob} : ¬ Succeeds job job :=
  fun h => Nat.lt_irrefl _ h.version

theorem Succeeds.of_terminal (h : Succeeds new old) (terminal : old.status.jobStatus.Terminal) :
    new.status = { old.status with errorMessage := new.status.errorMessage } := by
  obtain ⟨status, rfl | hAdvance, hStatus⟩ := h.status
  · exact hStatus
  · exact absurd terminal hAdvance.active

theorem Succeeds.terminal (h : Succeeds new old) (terminal : old.status.jobStatus.Terminal) :
    new.status.jobStatus.Terminal := by
  rw [h.of_terminal terminal]
  exact terminal

theorem Succeeds.retries_of_pending (h : Succeeds new old)
    (state : old.status.jobStatus = .pending) : new.status.retries = old.status.retries := by
  obtain ⟨status, rfl | hAdvance, hStatus⟩ := h.status
  · rw [hStatus]
  · rw [hStatus]
    exact hAdvance.retries_of_pending state

theorem Succeeds.started (h : Succeeds new old) (started : old.status.jobStatus ≠ "") :
    new.status.jobStatus ≠ "" := by
  obtain ⟨status, rfl | hAdvance, hStatus⟩ := h.status
  · rw [hStatus]
    exact started
  · rw [hStatus]
    exact hAdvance.started

/-- No single update completes a pending job. -/
theorem Succeeds.not_completed (h : Succeeds new old) (state : old.status.jobStatus = .pending) :
    new.status.jobStatus ≠ .completed := by
  obtain ⟨status, rfl | hAdvance, hStatus⟩ := h.status
  · rw [hStatus]
    simp [state, JobState.completed_ne_pending.symm]
  · rw [hStatus]
    cases hAdvance with
    | succeed hState =>
        rw [state] at hState
        exact absurd hState JobState.pending_ne_progress
    | recordPod => simp [state, JobState.completed_ne_pending.symm]
    | timedOut | giveUp => simp
    | begin | backToPending | retry => exact JobState.completed_ne_pending.symm
    | markProgress => exact JobState.completed_ne_progress.symm

/-- Simulator patches do not change which versions a version succeeds. -/
theorem Succeeds.patched (h : Succeeds new old) {version : Nat} {message : String}
    (later : new.resourceVersion ≤ version) :
    Succeeds { new with
      status := { new.status with errorMessage := message }, resourceVersion := version } old where
  version := Nat.lt_of_lt_of_le h.version later
  uid := h.uid
  spec := h.spec
  status := by
    obtain ⟨status, hOrigin, hStatus⟩ := h.status
    refine ⟨status, hOrigin, ?_⟩
    rw [hStatus]

end Succeeds

/-- The stored versions of a job, as far as they can still be read. -/
structure Versions (key : NamespacedName) (next : Nat) (created : Prop)
    (r : Register QuantumAerJob) : Prop where
  keyed : ∀ {job}, some job ∈ r.visible → job.key = key
  ok : ∀ {job}, some job ∈ r.visible → StatusOk job.name job.spec job.status
  fresh : ∀ {job}, some job ∈ r.visible → job.resourceVersion < next
  ordered : r.visible.Pairwise Newer
  uncreated : ¬ created → r.visible = [none]

namespace Versions
variable {key : NamespacedName} {next next' : Nat} {created : Prop}
  {r r' : Register QuantumAerJob}

theorem synced : Versions key next False (.synced none) where
  keyed := by simp
  ok := by simp
  fresh := by simp
  ordered := List.pairwise_singleton ..
  uncreated := fun _ => rfl

theorem mono (versions : Versions key next created r) (later : next ≤ next') :
    Versions key next' created r :=
  { versions with fresh := fun hMem => Nat.lt_of_lt_of_le (versions.fresh hMem) later }

theorem read (versions : Versions key next created r) {age : Nat} {value : Option QuantumAerJob}
    (h : r.read age = some (value, r')) : Versions key next created r' where
  keyed := fun hMem => versions.keyed (Register.visible_subset_of_read h hMem)
  ok := fun hMem => versions.ok (Register.visible_subset_of_read h hMem)
  fresh := fun hMem => versions.fresh (Register.visible_subset_of_read h hMem)
  ordered := versions.ordered.sublist (Register.sublist_of_read h)
  uncreated := by
    intro hCreated
    rw [(Register.visible_read h).2, versions.uncreated hCreated, List.take_succ_cons,
      List.take_nil]

theorem write (versions : Versions key next created r) {value : Option QuantumAerJob}
    (keyed : ∀ job, value = some job → job.key = key)
    (ok : ∀ job, value = some job → StatusOk job.name job.spec job.status)
    (fresh : ∀ job, value = some job → job.resourceVersion = next)
    (newer : ∀ y ∈ r.visible, Newer value y) :
    Versions key (next + 1) True (r.write value) where
  keyed := by
    intro job hMem
    rcases List.mem_cons.mp hMem with hNew | hOld
    · exact keyed job hNew.symm
    · exact versions.keyed hOld
  ok := by
    intro job hMem
    rcases List.mem_cons.mp hMem with hNew | hOld
    · exact ok job hNew.symm
    · exact versions.ok hOld
  fresh := by
    intro job hMem
    rcases List.mem_cons.mp hMem with hNew | hOld
    · rw [fresh job hNew.symm]
      exact Nat.lt_succ_self next
    · exact Nat.lt_succ_of_lt (versions.fresh hOld)
  ordered := List.pairwise_cons.mpr ⟨newer, versions.ordered⟩
  uncreated := by simp

/-- A stored job was created. -/
theorem created_of_stored (versions : Versions key next created r) {job : QuantumAerJob}
    (stored : some job ∈ r.visible) : created := by
  by_contra hCreated
  rw [versions.uncreated hCreated] at stored
  simp at stored

/-- A copy with the stored version is the stored job, and was read last. -/
theorem eq_of_version (versions : Versions key next created r) {job stored : QuantumAerJob}
    (held : r.oldest = some job) (present : r.current = some stored)
    (version : stored.resourceVersion = job.resourceVersion) :
    stored = job ∧ r.visible = [some job] := by
  have hStored : some stored ∈ r.visible := present ▸ r.current_mem_visible
  have hSame : stored = job := by
    rcases Register.rel_oldest versions.ordered held hStored with hEq | hNewer
    · exact Option.some.inj hEq
    · have hLess := Succeeds.version hNewer
      omega
  refine ⟨hSame, ?_⟩
  apply Register.visible_of_oldest_current versions.ordered Succeeds.irrefl _ held
  rw [present, hSame]

/-- A newer version than a held one is the held one or succeeds it. -/
theorem newer_of_held (versions : Versions key next created r) {job other : QuantumAerJob}
    (held : r.oldest = some job) (stored : some other ∈ r.visible) :
    other = job ∨ Succeeds other job := by
  rcases Register.rel_oldest versions.ordered held stored with hEq | hNewer
  · exact .inl (Option.some.inj hEq)
  · exact .inr hNewer

/-- The current version is any visible one or succeeds it. -/
theorem newer_of_current (versions : Versions key next created r) {job other : QuantumAerJob}
    (current : r.current = some job) (stored : some other ∈ r.visible) :
    job = other ∨ Succeeds job other := by
  rcases List.mem_cons.mp stored with hEq | hStale
  · rw [current] at hEq
    exact .inl (Option.some.inj hEq).symm
  · have hNewer := (List.pairwise_cons.mp versions.ordered).1 _ hStale
    rw [current] at hNewer
    exact .inr hNewer

end Versions

namespace JobView
variable {key : NamespacedName} {v v' : JobView key}

/-- The invariant of one job that every run keeps. -/
structure Sound (v : JobView key) : Prop where
  versions : Versions key v.next v.created v.job
  held : ∀ {worker job}, v.worker = some worker → readJob worker.history = some job →
    v.job.oldest = some job
  podKeyed : ∀ {retries pod}, some pod ∈ (v.pods retries).visible →
    pod.key = simulatorPodKey key retries
  found : ∀ {worker q pod}, v.worker = some worker → ⟨.getPod q, .ok pod⟩ ∈ worker.history →
    pod.key = q
  placed : ∀ {pod}, .createPod pod ∈ v.effects → ∃ r, pod.key = simulatorPodKey key r

section Held
variable {history : History} {call : Call} {next : call.Answer → Reconciler Outcome}
  {path : Program.Path (reconcile key) history (.ask call next)} {job : QuantumAerJob}

/-- The job a reconcile works on can still be read. -/
theorem Sound.held_visible (sound : Sound v) {worker : Worker key} (busy : v.worker = some worker)
    (read : readJob worker.history = some job) : some job ∈ v.job.visible :=
  Register.oldest_mem_visible (sound.held busy read)

theorem Sound.held_key (sound : Sound v) {worker : Worker key} (busy : v.worker = some worker)
    (read : readJob worker.history = some job) : job.key = key :=
  sound.versions.keyed (sound.held_visible busy read)

/-- While a reconcile works on a running job, the job is stored. -/
theorem Sound.stored_of_held (sound : Sound v) {worker : Worker key} {job : QuantumAerJob}
    (busy : v.worker = some worker) (held : readJob worker.history = some job)
    (active : ¬ job.status.jobStatus.Terminal) : ∃ stored, v.job.current = some stored := by
  have hOldest := sound.held busy held
  rcases Register.rel_oldest sound.versions.ordered hOldest v.job.current_mem_visible with
    hSame | hNewer
  · exact ⟨job, hSame⟩
  · cases hCurrent : v.job.current with
    | some stored => exact ⟨stored, rfl⟩
    | none =>
        rw [hCurrent] at hNewer
        exact absurd hNewer active

/-- While a reconcile works on a pending job, every visible version is of its attempt. -/
theorem Sound.retries_of_pending (sound : Sound v) {worker : Worker key}
    {job other : QuantumAerJob} (busy : v.worker = some worker)
    (held : readJob worker.history = some job) (state : job.status.jobStatus = .pending)
    (visible : some other ∈ v.job.visible) : other.status.retries = job.status.retries := by
  rcases sound.versions.newer_of_held (sound.held busy held) visible with rfl | hSucceeds
  · rfl
  · exact hSucceeds.retries_of_pending state

/-- A recorded pod is the one of the recorded attempt. -/
theorem podKey_eq (keyed : job.key = key) (ok : StatusOk job.name job.spec job.status)
    (named : job.status.podName ≠ "") :
    podKey job = simulatorPodKey key job.status.retries := by
  have hName : job.status.podName = simulatorPodName job.name job.status.retries :=
    ok.named.resolve_left named
  rw [← keyed, podKey, hName]
  rfl

theorem simulatorPod_key (keyed : job.key = key) :
    (simulatorPod job).key = simulatorPodKey key job.status.retries := by
  rw [← keyed]
  rfl

end Held

section Steps

theorem Sound.later (sound : Sound v) {next : Nat} (later : v.next ≤ next) :
    Sound { v with next := next } :=
  { sound with versions := sound.versions.mono later }

theorem Sound.log (sound : Sound v) {write : Write}
    (placed : ∀ pod, write = .createPod pod → ∃ r, pod.key = simulatorPodKey key r) :
    Sound (v.log write) :=
  { sound with
    placed := by
      intro pod hMem
      rcases List.mem_cons.mp hMem with hNew | hOld
      · exact placed pod hNew.symm
      · exact sound.placed hOld }

theorem Sound.setPod (sound : Sound v) {retries : Int32} {value : Option Pod}
    (keyed : ∀ pod, value = some pod → pod.key = simulatorPodKey key retries) :
    Sound (v.setPod retries value) where
  versions := sound.versions.mono (Nat.le_succ v.next)
  held := sound.held
  podKeyed := by
    intro r pod hMem
    rcases mem_setPod_visible hMem with ⟨rfl, hNew⟩ | hOld
    · exact keyed pod hNew
    · exact sound.podKeyed hOld
  found := sound.found
  placed := sound.placed

theorem Sound.setJob (sound : Sound v) {value : Option QuantumAerJob}
    (keyed : ∀ job, value = some job → job.key = key)
    (ok : ∀ job, value = some job → StatusOk job.name job.spec job.status)
    (fresh : ∀ job, value = some job → job.resourceVersion = v.next)
    (newer : ∀ y ∈ v.job.visible, Newer value y) :
    Sound { v.setJob value with created := True } where
  versions := sound.versions.write keyed ok fresh newer
  held := by
    intro worker job hBusy hRead
    rw [JobView.setJob, Register.oldest_write]
    exact sound.held hBusy hRead
  podKeyed := sound.podKeyed
  found := sound.found
  placed := sound.placed

/-- A reconcile learns which job it works on from its first answer only. -/
theorem readJob_extend {history : History} {e : Event Call.Answer} {job : QuantumAerJob}
    (fresh : ∀ req job, e ≠ ⟨.getJob req, .ok job⟩) (read : readJob (history ++ [e]) = some job) :
    readJob history = some job := by
  cases history with
  | nil =>
      obtain ⟨call, answer⟩ := e
      cases call with
      | getJob req =>
          cases answer with
          | ok job' => exact absurd rfl (fresh req job')
          | error err => cases read
      | getPod | getServiceAccount | write | now => cases read
  | cons first rest =>
      obtain ⟨call, answer⟩ := first
      cases call with
      | getJob req =>
          cases answer with
          | ok job' => exact read
          | error err => cases read
      | getPod | getServiceAccount | write | now => cases read

theorem Sound.resume (sound : Sound v) {history : History} {call : Call}
    {next : call.Answer → Reconciler Outcome}
    {path : Program.Path (reconcile key) history (.ask call next)} {answer : call.Answer}
    (waits : v.Waits history call next path)
    (job : ∀ req job, (⟨call, answer⟩ : Event Call.Answer) ≠ ⟨.getJob req, .ok job⟩)
    (pod : ∀ q pod, (⟨call, answer⟩ : Event Call.Answer) = ⟨.getPod q, .ok pod⟩ → pod.key = q) :
    Sound (v.resume path answer) where
  versions := sound.versions
  held := by
    intro worker job' hBusy hRead
    cases hBusy
    exact sound.held waits (readJob_extend job hRead)
  podKeyed := sound.podKeyed
  found := by
    intro worker q pod' hBusy hMem
    cases hBusy
    rcases List.mem_append.mp hMem with hOld | hNew
    · exact sound.found waits hOld
    · exact pod q pod' (List.mem_singleton.mp hNew).symm
  placed := sound.placed

end Steps

/-- Every move of a job's view keeps the invariant. -/
theorem Sound.step (sound : Sound v) {a : Action} (h : Moves v a v') : Sound v' := by
  cases h with
  | elsewhere later => exact sound.later later
  | setClock => exact { sound with }
  | create fresh =>
      apply sound.setJob
      · rintro job ⟨⟩
        rfl
      · rintro job ⟨⟩
        exact .empty _ _
      · rintro job ⟨⟩
        rfl
      · intro y hMem
        rw [sound.versions.uncreated fresh] at hMem
        rw [List.mem_singleton.mp hMem]
        trivial
  | start idle =>
      exact { sound with
        held := by
          rintro worker job ⟨⟩ hRead
          cases hRead
        found := by
          rintro worker q pod ⟨⟩ hMem
          cases hMem }
  | @readJob age value register next path waits read =>
      exact {
        versions := sound.versions.read read
        held := by
          rintro worker job ⟨⟩ hRead
          cases value with
          | none => cases hRead
          | some stored =>
              cases hRead
              exact Register.oldest_read read
        podKeyed := sound.podKeyed
        found := by
          rintro worker q pod ⟨⟩ hMem
          cases List.mem_singleton.mp hMem
        placed := sound.placed }
  | @readPod age job value register history next path waits held read =>
      have hPods : Sound (v.servePod job.status.retries register) :=
        { sound with podKeyed := fun hMem => sound.podKeyed (mem_servePod_visible read hMem) }
      apply hPods.resume waits
      · rintro req job' ⟨⟩
      · intro q pod hEvent
        cases value with
        | none => cases hEvent
        | some found =>
            cases hEvent
            exact sound.podKeyed (Register.value_mem_visible read)
  | @created job history next reply answer path waits held free reported =>
      have hKey := simulatorPod_key (sound.held_key waits held)
      have hPod := @Sound.setPod key v sound job.status.retries
        (some { simulatorPod job with uid := v.next, phase := .pending })
        (by rintro pod ⟨⟩; exact hKey)
      apply Sound.resume (hPod.log (by rintro pod ⟨⟩; exact ⟨_, hKey⟩)) waits
      · rintro req job' ⟨⟩
      · rintro q pod ⟨⟩
  | @deleted job pod stored history next reply answer path waits held named present reported =>
      have hKey := sound.podKeyed (present ▸ (v.pods job.status.retries).current_mem_visible)
      have hPod := @Sound.setPod key v sound job.status.retries
        (some { stored with deletionRequested := true }) (by rintro pod ⟨⟩; exact hKey)
      apply Sound.resume (hPod.log (by rintro pod ⟨⟩)) waits
      · rintro req job' ⟨⟩
      · rintro q pod ⟨⟩
  | @expired job stored history next reply answer path waits held present reported =>
      have hStored : some stored ∈ v.job.visible := present ▸ v.job.current_mem_visible
      have hCreated := sound.versions.created_of_stored hStored
      have hTerminal := (site_of_busy path).deleteJob_inv.2
      have hNewer : ∀ y ∈ v.job.visible, Newer none y := by
        intro y hMem
        cases y with
        | none => trivial
        | some other =>
            rcases sound.versions.newer_of_held (sound.held waits held) hMem with rfl | hSucceeds
            · exact hTerminal
            · exact hSucceeds.terminal hTerminal
      have hJob := sound.setJob (by simp) (by simp) (by simp) hNewer
      rw [← eq_true hCreated] at hJob
      apply Sound.resume (hJob.log (by rintro pod ⟨⟩)) waits
      · rintro req job' ⟨⟩
      · rintro q pod ⟨⟩
  | @updated job stored status history next reply answer path waits held present version
      reported =>
      obtain ⟨rfl, hVisible⟩ :=
        sound.versions.eq_of_version (sound.held waits held) present version
      have hStored : some stored ∈ v.job.visible := present ▸ v.job.current_mem_visible
      have hCreated := sound.versions.created_of_stored hStored
      have hKey := sound.versions.keyed hStored
      have hOk := sound.versions.ok hStored
      have hAdvance : Advance stored.name stored.spec stored.status status.stored :=
        ((site_of_busy path).reason held).advance hOk
      have hJob := @Sound.setJob key v sound
        (some { stored with status := status.stored, resourceVersion := v.next })
        (by rintro job ⟨⟩; exact hKey)
        (by rintro job ⟨⟩; exact hOk.advance hAdvance)
        (by rintro job ⟨⟩; rfl)
        (by
          intro y hMem
          rw [hVisible] at hMem
          rw [List.mem_singleton.mp hMem]
          exact ⟨sound.versions.fresh hStored, rfl, rfl, _, .inr hAdvance, rfl⟩)
      rw [← eq_true hCreated] at hJob
      apply Sound.resume (hJob.log (by rintro pod ⟨⟩)) waits
      · rintro req job' ⟨⟩
      · rintro q pod ⟨⟩
  | @quiet call history next reply answer path waits uneventful ineffective =>
      exact sound.resume waits uneventful.job fun q pod hEvent =>
        absurd hEvent (uneventful.pod q pod)
  | finish busy =>
      exact { sound with
        held := by
          rintro worker job ⟨⟩
        found := by
          rintro worker q pod ⟨⟩ }
  | @patched message stored present =>
      have hStored : some stored ∈ v.job.visible := present ▸ v.job.current_mem_visible
      have hCreated := sound.versions.created_of_stored hStored
      have hKey := sound.versions.keyed hStored
      have hJob := @Sound.setJob key v sound
        (some { stored with
          status := { stored.status with errorMessage := message }, resourceVersion := v.next })
        (by rintro job ⟨⟩; exact hKey)
        (by rintro job ⟨⟩; exact (sound.versions.ok hStored).message message)
        (by rintro job ⟨⟩; rfl)
        (by
          intro y hMem
          cases y with
          | none => trivial
          | some other =>
              rcases sound.versions.newer_of_current present hMem with rfl | hSucceeds
              · exact ⟨sound.versions.fresh hStored, rfl, rfl, _, .inl rfl, rfl⟩
              · exact hSucceeds.patched (Nat.le_of_lt (sound.versions.fresh hStored)))
      rw [← eq_true hCreated] at hJob
      exact hJob
  | setPhase present =>
      have hKey := sound.podKeyed (present ▸ Register.current_mem_visible _)
      apply sound.setPod
      rintro pod ⟨⟩
      exact hKey
  | createPod named free =>
      apply sound.setPod
      rintro pod ⟨⟩
      exact named
  | removePod present => exact sound.setPod (by simp)

/-- A pod whose deletion finds nothing is gone, and it was the recorded one. -/
theorem Sound.missing_of_notFound (sound : Sound v) {history : History} {call : Call}
    {next : call.Answer → Reconciler Outcome}
    {path : Program.Path (reconcile key) history (.ask call next)} {answer : call.Answer}
    (waits : v.Waits history call next path) {job : QuantumAerJob} {pod : Pod}
    (held : readJob history = some job) (uneventful : v.Uneventful ⟨call, answer⟩)
    (event : (⟨call, answer⟩ : Event Call.Answer) = ⟨.write (.deletePod pod), .error .notFound⟩) :
    job.status.podName ≠ "" ∧ (v.pods job.status.retries).current = none := by
  have hCall : call = .write (.deletePod pod) := congrArg Sigma.fst event
  subst hCall
  obtain ⟨job', hRead, hFound, -⟩ := (site_of_busy path).deletePod_inv
  obtain rfl := Option.some.inj (held.symm.trans hRead)
  have hKey : pod.key = simulatorPodKey key job.status.retries := by
    rw [sound.found waits hFound.2]
    exact podKey_eq (sound.held_key waits held)
      (sound.versions.ok (sound.held_visible waits held)) hFound.1
  exact ⟨hFound.1, uneventful.missing _ pod hKey event⟩

end JobView
end QuantumService.Cluster
