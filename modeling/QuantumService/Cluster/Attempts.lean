import QuantumService.Cluster.Lifecycle

/-! One attempt at a time. A simulator pod is created from a copy of the status
that may be stale, but no copy that can still be read as pending carries an old
retry number, so the pod is that of the stored attempt. -/
namespace QuantumService.Cluster
open Interaction Controller World

namespace JobView
variable {key : NamespacedName} {v v' : JobView key}

/-- The pod of an attempt exists, and nobody asked for its deletion. -/
def Live (v : JobView key) (retries : Int32) : Prop :=
  ∃ pod, (v.pods retries).current = some pod ∧ pod.deletionRequested = false

section Live
variable {retries r : Int32} {value : Option Pod}

theorem live_setPod_self (h : (v.setPod retries value).Live retries) :
    ∃ pod, value = some pod ∧ pod.deletionRequested = false := by
  obtain ⟨pod, hCurrent, hLive⟩ := h
  rw [setPod_pods_self, Register.current_write] at hCurrent
  exact ⟨pod, hCurrent, hLive⟩

theorem live_setPod_of_ne (hr : r ≠ retries) : (v.setPod retries value).Live r ↔ v.Live r := by
  rw [Live, setPod_pods_of_ne v hr, Live]

/-- Storing a pod that is not live creates no live attempt. -/
theorem live_of_setPod
    (dead : ∀ pod, value = some pod → pod.deletionRequested = false → v.Live retries)
    (h : (v.setPod retries value).Live r) : v.Live r := by
  by_cases hr : r = retries
  · subst hr
    obtain ⟨pod, rfl, hLive⟩ := live_setPod_self h
    exact dead pod rfl hLive
  · exact (live_setPod_of_ne hr).mp h

/-- Serving a pod from the cache changes no pod. -/
theorem live_servePod {age : Nat} {served : Option Pod} {register : Register Pod}
    (read : (v.pods retries).read age = some (served, register)) :
    (v.servePod retries register).Live r ↔ v.Live r := by
  rw [Live, servePod_pods_current read, Live]

end Live

/-- At most one live attempt, and what keeps it so: every copy from which a pod
can be created, and the stored job itself, has the number of the live attempt,
and a reconcile that goes on to the next attempt has ended the last one. -/
structure SingleAttempt (v : JobView key) : Prop where
  uncreated : ¬ v.created → ∀ r, ¬ v.Live r
  single : ∀ {r r'}, v.Live r → v.Live r' → r = r'
  pending : ∀ {job r}, some job ∈ v.job.visible → job.status.jobStatus = .pending → v.Live r →
    r = job.status.retries
  current : ∀ {job r}, v.job.current = some job → v.Live r → r = job.status.retries
  deleted : ∀ {worker job pod}, v.worker = some worker → readJob worker.history = some job →
    job.status.jobStatus = .progress → PodDeleted worker.history pod →
    ¬ v.Live job.status.retries

namespace SingleAttempt

/-- Pods may only disappear, and the rest of the view stays as it is. -/
theorem shrink (single : SingleAttempt v) {pods : Int32 → Register Pod} {next : Nat}
    (live : ∀ r, Live { v with pods := pods, next := next } r → v.Live r) :
    SingleAttempt { v with pods := pods, next := next } where
  uncreated := fun hFresh r hLive => single.uncreated hFresh r (live r hLive)
  single := fun h h' => single.single (live _ h) (live _ h')
  pending := fun hMem hState hLive => single.pending hMem hState (live _ hLive)
  current := fun hStored hLive => single.current hStored (live _ hLive)
  deleted := fun hBusy hRead hState hDeleted hLive =>
    single.deleted hBusy hRead hState hDeleted (live _ hLive)

theorem log (single : SingleAttempt v) (write : Write) : SingleAttempt (v.log write) :=
  { single with }

theorem resume (single : SingleAttempt v) {history : History} {call : Call}
    {next : call.Answer → Reconciler Outcome}
    {path : Program.Path (reconcile key) history (.ask call next)} {answer : call.Answer}
    (waits : v.Waits history call next path)
    (job : ∀ req job, (⟨call, answer⟩ : Event Call.Answer) ≠ ⟨.getJob req, .ok job⟩)
    (dead : ∀ job pod, readJob history = some job → job.status.jobStatus = .progress →
      PodDeleted [⟨call, answer⟩] pod → ¬ v.Live job.status.retries) :
    SingleAttempt (v.resume path answer) where
  uncreated := single.uncreated
  single := single.single
  pending := single.pending
  current := single.current
  deleted := by
    rintro worker job' pod ⟨⟩ hRead hState hDeleted
    have hBefore := readJob_extend job hRead
    rcases hDeleted.of_append with hOld | hNew
    · exact single.deleted waits hBefore hState hOld
    · exact dead job' pod hBefore hState hNew

/-- An answer that is not about a deletion. -/
theorem resume_of_other (single : SingleAttempt v) {history : History} {call : Call}
    {next : call.Answer → Reconciler Outcome}
    {path : Program.Path (reconcile key) history (.ask call next)} {answer : call.Answer}
    (waits : v.Waits history call next path)
    (job : ∀ req job, (⟨call, answer⟩ : Event Call.Answer) ≠ ⟨.getJob req, .ok job⟩)
    (other : ∀ pod, call ≠ .write (.deletePod pod)) : SingleAttempt (v.resume path answer) :=
  single.resume waits job fun _ _ _ _ hDeleted => absurd hDeleted (not_podDeleted other)

/-- A new value of the job keeps the live attempt's number. -/
theorem setJob (single : SingleAttempt v) (value : Option QuantumAerJob)
    (kept : ∀ job r, value = some job → v.Live r → r = job.status.retries) :
    SingleAttempt { v.setJob value with created := True } where
  uncreated := fun hFresh => absurd trivial hFresh
  single := single.single
  pending := by
    intro job r hMem hState hLive
    rcases List.mem_cons.mp hMem with hNew | hOld
    · exact kept job r hNew.symm hLive
    · exact single.pending hOld hState hLive
  current := fun hStored hLive => kept _ _ hStored hLive
  deleted := single.deleted

end SingleAttempt

/-- A status write goes on to the next attempt only when it has ended the last. -/
theorem retries_or_deleted {h : History} {job : QuantumAerJob} {status : QuantumAerJobStatus}
    (write : StatusWrite h job status) (ok : StatusOk job.name job.spec job.status) :
    status.retries = job.status.retries ∨
      job.status.jobStatus = .progress ∧ ∃ pod, PodDeleted h pod := by
  cases write with
  | begin checked state clock => exact .inl (ok.untried state).1.symm
  | retry checked state found phase left deleted => exact .inr ⟨state, _, deleted⟩
  | timedOut | recordPod | markProgress | backToPending | giveUp | succeed => exact .inl rfl

/-- The pod a reconcile creates is that of the stored attempt, and the only one. -/
theorem SingleAttempt.create (single : SingleAttempt v) (sound : Sound v) {worker : Worker key}
    {job : QuantumAerJob} (busy : v.worker = some worker)
    (held : readJob worker.history = some job) (state : job.status.jobStatus = .pending)
    (free : (v.pods job.status.retries).current = none) (pod : Pod) :
    SingleAttempt (v.setPod job.status.retries (some pod)) := by
  have hMem := sound.held_visible busy held
  have hNone : ∀ r, ¬ v.Live r := by
    intro r hLive
    have hr := single.pending hMem state hLive
    obtain ⟨stored, hStored, -⟩ := hr ▸ hLive
    rw [free] at hStored
    cases hStored
  have hOnly : ∀ r, (v.setPod job.status.retries (some pod)).Live r → r = job.status.retries := by
    intro r hLive
    by_contra hr
    exact hNone r ((live_setPod_of_ne hr).mp hLive)
  have hSame : ∀ other, some other ∈ v.job.visible →
      other.status.retries = job.status.retries :=
    fun _ => sound.retries_of_pending busy held state
  exact {
    uncreated := fun hFresh => absurd (sound.versions.created_of_stored hMem) hFresh
    single := fun h h' => (hOnly _ h).trans (hOnly _ h').symm
    pending := fun hOther _ hLive => (hOnly _ hLive).trans (hSame _ hOther).symm
    current := fun hStored hLive =>
      (hOnly _ hLive).trans (hSame _ (hStored ▸ v.job.current_mem_visible)).symm
    deleted := by
      intro worker' job' pod' hBusy hRead hState
      obtain rfl : worker = worker' := Option.some.inj (busy.symm.trans hBusy)
      obtain rfl : job = job' := Option.some.inj (held.symm.trans hRead)
      rw [state] at hState
      exact absurd hState JobState.pending_ne_progress }

theorem SingleAttempt.step (single : SingleAttempt v) (sound : Sound v) {a : Action}
    (alone : ∀ pod, a = .createPod pod → ∀ r, pod.key ≠ simulatorPodKey key r)
    (h : Moves v a v') : SingleAttempt v' := by
  cases h with
  | elsewhere later => exact single.shrink fun r hLive => hLive
  | setClock => exact { single with }
  | create fresh => exact single.setJob _ fun _ r _ hLive => absurd hLive (single.uncreated fresh r)
  | start idle =>
      exact { single with
        deleted := by
          rintro worker job pod ⟨⟩ hRead
          cases hRead }
  | @readJob age value register next path waits read =>
      exact {
        uncreated := single.uncreated
        single := single.single
        pending := fun hMem => single.pending (Register.visible_subset_of_read read hMem)
        current := fun hStored => single.current ((Register.current_read read).symm.trans hStored)
        deleted := by
          rintro worker job pod ⟨⟩ _ _ hDeleted
          exact absurd hDeleted (not_podDeleted (by simp)) }
  | @readPod age job value register history next path waits held read =>
      have hPods : SingleAttempt (v.servePod job.status.retries register) :=
        single.shrink fun r => (live_servePod read).mp
      exact hPods.resume_of_other waits (by rintro _ _ ⟨⟩) (by simp)
  | @created job history next reply answer path waits held free reported =>
      obtain ⟨job', hRead, hState, -, -⟩ := (site_of_busy path).createPod_inv
      obtain rfl : job = job' := Option.some.inj (held.symm.trans hRead)
      exact ((single.create sound waits held hState free _).log _).resume_of_other waits
        (by rintro _ _ ⟨⟩) (by simp)
  | @deleted job pod stored history next reply answer path waits held named present reported =>
      have hDead : ∀ r, (v.setPod job.status.retries
          (some { stored with deletionRequested := true })).Live r → v.Live r :=
        fun r => live_of_setPod (by rintro pod ⟨⟩ ⟨⟩)
      apply ((single.shrink hDead).log _).resume waits (by rintro _ _ ⟨⟩)
      intro job' pod' hRead _ _ hLive
      obtain rfl : job = job' := Option.some.inj (held.symm.trans hRead)
      obtain ⟨pod'', ⟨⟩, hFalse⟩ := live_setPod_self hLive
      cases hFalse
  | @expired job stored history next reply answer path waits held present reported =>
      have hStored : some stored ∈ v.job.visible := present ▸ v.job.current_mem_visible
      have hJob := single.setJob none (by simp)
      rw [← eq_true (sound.versions.created_of_stored hStored)] at hJob
      exact (hJob.log _).resume_of_other waits (by rintro _ _ ⟨⟩) (by simp)
  | @updated job stored status history next reply answer path waits held present version
      reported =>
      obtain ⟨rfl, -⟩ := sound.versions.eq_of_version (sound.held waits held) present version
      have hMem := sound.held_visible waits held
      have hReason := (site_of_busy path).reason held
      have hKept : ∀ job r, some { stored with
          status := status.stored, resourceVersion := v.next } = some job → v.Live r →
          r = job.status.retries := by
        rintro job r ⟨⟩ hLive
        have hNumber := single.current present hLive
        rcases retries_or_deleted hReason (sound.versions.ok hMem) with hSame | ⟨hState, pod, hGone⟩
        · exact hNumber.trans hSame.symm
        · exact absurd (hNumber ▸ hLive) (single.deleted waits held hState hGone)
      have hJob := single.setJob _ hKept
      rw [← eq_true (sound.versions.created_of_stored hMem)] at hJob
      exact (hJob.log _).resume_of_other waits (by rintro _ _ ⟨⟩) (by simp)
  | @quiet call history next reply answer path waits uneventful ineffective =>
      apply single.resume waits uneventful.job
      intro job pod hRead hState hDeleted
      rcases hDeleted with hOk | hGone
      · exact absurd (List.mem_singleton.mp hOk).symm (uneventful.write _)
      · have hEvent := (List.mem_singleton.mp hGone).symm
        rintro ⟨stored, hStored, -⟩
        rw [(sound.missing_of_notFound waits hRead uneventful hEvent).2] at hStored
        cases hStored
  | finish busy => exact { single with deleted := by rintro _ _ _ ⟨⟩ }
  | @patched message stored present =>
      have hStored : some stored ∈ v.job.visible := present ▸ v.job.current_mem_visible
      have hNumber : ∀ r, v.Live r → r = stored.status.retries := fun r => single.current present
      have hKept : ∀ job r, some { stored with
          status := { stored.status with errorMessage := message }
          resourceVersion := v.next } = some job → v.Live r → r = job.status.retries := by
        rintro job r ⟨⟩ hLive
        exact hNumber r hLive
      have hJob := single.setJob _ hKept
      rw [← eq_true (sound.versions.created_of_stored hStored)] at hJob
      exact hJob
  | @setPhase retries phase pod present =>
      apply single.shrink
      intro r
      apply live_of_setPod
      rintro pod' ⟨⟩ hLive
      exact ⟨pod, present, hLive⟩
  | createPod named free => exact absurd named (alone _ rfl _)
  | removePod present => exact single.shrink fun r => live_of_setPod (by rintro pod ⟨⟩)

end JobView

namespace World
variable {w : World} {key : NamespacedName}

/-- The pod an action of another client creates. -/
def Action.placed : Action → Option Pod
  | .createPod pod => some pod
  | _ => none

/-- Nobody else creates pods under the names of the job's attempts. -/
def Alone (key : NamespacedName) (_ : World) (a : Action) : Prop :=
  ∀ pod, a.placed = some pod → ∀ r, pod.key ≠ simulatorPodKey key r

theorem alone_of_isNone {a : Action} (nobody : a.placed.isNone) : Alone key w a := by
  intro pod hPlaced
  simp [hPlaced] at nobody

/-- A cluster in which no pod has the name of an attempt of the job. -/
structure Vacant (key : NamespacedName) (w : World) : Prop where
  initial : Initial w
  vacant : ∀ r, (w.pods (simulatorPodKey key r)).current = none

/-- A pod of the job that exists, and whose deletion nobody has requested. -/
structure LivePod (key : NamespacedName) (w : World) (pod : Pod) : Prop where
  named : ∃ r, pod.key = simulatorPodKey key r
  stored : (w.pods pod.key).current = some pod
  kept : pod.deletionRequested = false

theorem LivePod.live {pod : Pod} {r : Int32} (h : LivePod key w pod)
    (named : pod.key = simulatorPodKey key r) : (w.view key).Live r := by
  have hStored := h.stored
  rw [named] at hStored
  exact ⟨pod, hStored, h.kept⟩

theorem singleAttempt_of_reaches {allowed : World → Action → Prop}
    (alone : ∀ w a, allowed w a → Alone key w a) (run : Reaches step allowed (Vacant key) w) :
    (w.view key).SingleAttempt := by
  apply view_invariant _ (fun _ h => h.initial) _ _ run
  · intro s start
    have hDead : ∀ r, ¬ (s.view key).Live r := by
      rintro r ⟨pod, hStored, -⟩
      have hVacant : ((s.view key).pods r).current = none := start.vacant r
      rw [hVacant] at hStored
      cases hStored
    have hIdle : (s.view key).worker = none := start.initial.idle key
    exact {
      uncreated := fun _ => hDead
      single := fun hLive => absurd hLive (hDead _)
      pending := fun _ _ hLive => absurd hLive (hDead _)
      current := fun _ hLive => absurd hLive (hDead _)
      deleted := fun _ _ _ _ => hDead _ }
  · intro s a v' sound single permitted moves
    apply single.step sound _ moves
    rintro pod rfl r
    exact alone _ _ permitted pod rfl r

/-- The pods created for a job have the names of its attempts. In every run at most one of
them is live, and it is the one whose number the stored job has. -/
theorem single_live_attempt (run : Reaches step (Alone key) (Vacant key) w) :
    (∀ pod, (key, .createPod pod) ∈ w.effects → ∃ r, pod.key = simulatorPodKey key r) ∧
    (∀ pod pod', LivePod key w pod → LivePod key w pod' → pod = pod') ∧
    ∀ job pod, (w.jobs key).current = some job → LivePod key w pod →
      pod.name = simulatorPodName job.name job.status.retries := by
  have hSingle := singleAttempt_of_reaches (fun _ _ h => h) run
  have hSound := sound_of_reaches (run.mono (fun _ h => h.initial) fun _ _ h => h) key
  refine ⟨fun pod hMem => hSound.placed (mem_entriesOf.mpr hMem), ?_, ?_⟩
  · intro pod pod' hPod hPod'
    obtain ⟨r, hr⟩ := hPod.named
    obtain ⟨r', hr'⟩ := hPod'.named
    have hNumber := hSingle.single (hPod.live hr) (hPod'.live hr')
    have hKey : pod.key = pod'.key := by rw [hr, hr', hNumber]
    have hStored := hPod.stored
    rw [hKey, hPod'.stored] at hStored
    exact (Option.some.inj hStored).symm
  · intro job pod hStored hPod
    obtain ⟨r, hr⟩ := hPod.named
    have hJob : job.key = key := hSound.versions.keyed (hStored ▸ (w.jobs key).current_mem_visible)
    have hNumber := hSingle.current hStored (hPod.live hr)
    rw [hNumber, ← hJob] at hr
    exact congrArg NamespacedName.name hr

/-- A first attempt fails and is replaced by a second one. -/
def retriedRun : List Action :=
  startRun ++ [.setPhase (simulatorPodKey sampleKey 0) .failed] ++
    pass sampleKey [.read 0, .ok, .read 0, .ok, .ok] ++
    pass sampleKey [.read 0, .ok, .ok, .ok, .ok]

theorem single_live_attempt_retried : ∃ w pod, runActions step .empty retriedRun = some w ∧
    LivePod sampleKey w pod ∧ pod.name = "qjob-1-sim-1" ∧
    ∀ pod', LivePod sampleKey w pod' → pod = pod' := by
  have hRun : (runActions step .empty retriedRun).isSome := by decide
  obtain ⟨w, hw⟩ := Option.isSome_iff_exists.mp hRun
  have hAlone : ∀ a ∈ retriedRun, a.placed.isNone := by decide
  have hReached : Reaches step (Alone sampleKey) (Vacant sampleKey) w :=
    (Reaches.start ⟨.empty, fun _ => rfl⟩).runActions
      (.of_forall fun a hMem _ => alone_of_isNone (hAlone a hMem)) hw
  have hPod : (runActions step .empty retriedRun).map
      (fun w => (w.pods (simulatorPodKey sampleKey 1)).current.map
        fun pod => (pod.key, pod.name, pod.deletionRequested)) =
      some (some (simulatorPodKey sampleKey 1, "qjob-1-sim-1", false)) := by decide
  rw [hw, Option.map_some, Option.some.injEq, Option.map_eq_some_iff] at hPod
  obtain ⟨pod, hStored, hFields⟩ := hPod
  rw [Prod.mk.injEq, Prod.mk.injEq] at hFields
  obtain ⟨hKey, hName, hKept⟩ := hFields
  rw [← hKey] at hStored
  have hLive : LivePod sampleKey w pod := ⟨⟨1, hKey⟩, hStored, hKept⟩
  exact ⟨w, pod, hw, hLive, hName, fun pod' => (single_live_attempt hReached).2.1 pod pod' hLive⟩

end World
end QuantumService.Cluster
