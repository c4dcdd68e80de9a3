import QuantumService.Cluster.Attempts

/-! Whose pods the controller trusts. Ownership is set when a pod is created,
but a pod that exists already is taken over by its name, so the controller acts
on its own pods only while no other pod has the name of one of its attempts. -/
namespace QuantumService.Cluster
open Interaction Controller World

namespace JobView
variable {key : NamespacedName} {v v' : JobView key}

/-- Whatever state or retries a step changes, it stores the status write of the
reconcile that read the stored version. -/
theorem Sound.decision (sound : Sound v) {a : Action} (h : Moves v a v')
    {old new : QuantumAerJob} (before : v.job.current = some old)
    (after : v'.job.current = some new) :
    (new.status.jobStatus = old.status.jobStatus ∧ new.status.retries = old.status.retries) ∨
      ∃ worker status, v.worker = some worker ∧ readJob worker.history = some old ∧
        StatusWrite worker.history old status ∧ new.status = status.stored := by
  cases h with
  | elsewhere | setClock | start | readPod | created | deleted | quiet | finish | setPhase
  | createPod | removePod =>
      rw [← Option.some.inj (before.symm.trans after)]
      exact .inl ⟨rfl, rfl⟩
  | readJob waits read =>
      have hSame : v.job.current = some new := (Register.current_read read).symm.trans after
      rw [← Option.some.inj (before.symm.trans hSame)]
      exact .inl ⟨rfl, rfl⟩
  | create fresh =>
      have hStored : some old ∈ v.job.visible := before ▸ v.job.current_mem_visible
      exact absurd (sound.versions.created_of_stored hStored) fresh
  | expired => cases after
  | @updated job stored status history next reply answer path waits held present version =>
      obtain ⟨rfl, -⟩ := sound.versions.eq_of_version (sound.held waits held) present version
      obtain rfl := Option.some.inj (before.symm.trans present)
      obtain rfl := Option.some.inj after
      exact .inr ⟨_, status, waits, held, (site_of_busy path).reason held, rfl⟩
  | patched present =>
      obtain rfl := Option.some.inj (before.symm.trans present)
      obtain rfl := Option.some.inj after
      exact .inl ⟨rfl, rfl⟩

/-- Every pod that can be seen under the name of one of the job's attempts has
the job as its controller. -/
def NamesOwned (v : JobView key) : Prop :=
  ∀ r pod job, some pod ∈ (v.pods r).visible → some job ∈ v.job.visible →
    0 ≤ r.toInt → r.toInt ≤ max 0 job.spec.maxRetries.toInt → pod.controllerUid = some job.uid

/-- The pods a reconcile was shown have its job as their controller. -/
def SeenOwned (v : JobView key) : Prop :=
  ∀ worker job q pod, v.worker = some worker → readJob worker.history = some job →
    ⟨.getPod q, .ok pod⟩ ∈ worker.history → pod.controllerUid = some job.uid

theorem SeenOwned.resume (seen : SeenOwned v) {history : History} {call : Call}
    {next : call.Answer → Reconciler Outcome}
    {path : Program.Path (reconcile key) history (.ask call next)} {answer : call.Answer}
    (worker : v.worker = some ⟨history, .ask call next, path⟩)
    (job : ∀ req job, (⟨call, answer⟩ : Event Call.Answer) ≠ ⟨.getJob req, .ok job⟩)
    (pod : ∀ job q pod, readJob history = some job →
      (⟨call, answer⟩ : Event Call.Answer) = ⟨.getPod q, .ok pod⟩ →
      pod.controllerUid = some job.uid) : SeenOwned (v.resume path answer) := by
  rintro _ job' q pod' ⟨⟩ hRead hMem
  have hBefore := readJob_extend job hRead
  rcases List.mem_append.mp hMem with hOld | hNew
  · exact seen _ job' q pod' worker hBefore hOld
  · exact pod job' q pod' hBefore (List.mem_singleton.mp hNew).symm

theorem SeenOwned.step (seen : SeenOwned v) (sound : Sound v) (owned : NamesOwned v)
    {a : Action} (h : Moves v a v') : SeenOwned v' := by
  cases h with
  | elsewhere | setClock | create | setPhase | createPod | removePod | patched => exact seen
  | start idle =>
      rintro worker job q pod ⟨⟩ hRead
      cases hRead
  | readJob waits read =>
      rintro worker job q pod ⟨⟩ _ hMem
      cases List.mem_singleton.mp hMem
  | @readPod age job value register history next path waits held read =>
      have hMem := sound.held_visible waits held
      have hOk := sound.versions.ok hMem
      have hPods : SeenOwned (v.servePod job.status.retries register) := seen
      apply hPods.resume waits (by rintro _ _ ⟨⟩)
      intro job' q pod hRead hEvent
      obtain rfl := Option.some.inj (held.symm.trans hRead)
      cases value with
      | none => cases hEvent
      | some served =>
          cases hEvent
          exact owned _ _ job (Register.value_mem_visible read) hMem hOk.nonneg hOk.budget
  | @created job history next reply answer path waits =>
      have hPods : SeenOwned ((v.setPod job.status.retries (some { simulatorPod job with
          uid := v.next, phase := .pending })).log (.createPod (simulatorPod job))) := seen
      exact hPods.resume waits (by rintro _ _ ⟨⟩) (by rintro _ _ _ _ ⟨⟩)
  | @deleted job pod stored history next reply answer path waits =>
      have hPods : SeenOwned ((v.setPod job.status.retries (some { stored with
          deletionRequested := true })).log (.deletePod pod)) := seen
      exact hPods.resume waits (by rintro _ _ ⟨⟩) (by rintro _ _ _ _ ⟨⟩)
  | @expired job stored history next reply answer path waits =>
      have hJob : SeenOwned ((v.setJob none).log (.deleteJob job)) := seen
      exact hJob.resume waits (by rintro _ _ ⟨⟩) (by rintro _ _ _ _ ⟨⟩)
  | @updated job stored status history next reply answer path waits =>
      have hJob : SeenOwned ((v.setJob (some { stored with
          status := status.stored, resourceVersion := v.next })).log
          (.updateStatus (job.withStatus status))) := seen
      exact hJob.resume waits (by rintro _ _ ⟨⟩) (by rintro _ _ _ _ ⟨⟩)
  | quiet waits uneventful =>
      exact seen.resume waits uneventful.job fun _ q pod _ hEvent =>
        absurd hEvent (uneventful.pod q pod)
  | finish => rintro worker job q pod ⟨⟩

/-- The pods that can be seen under the job's names are the job's own. -/
structure OwnPods (v : JobView key) : Prop where
  fresh : ¬ v.created → ∀ r pod, some pod ∉ (v.pods r).visible
  owned : ∀ {r pod job}, some pod ∈ (v.pods r).visible → some job ∈ v.job.visible →
    pod.controllerUid = some job.uid

namespace OwnPods

theorem namesOwned (own : OwnPods v) : NamesOwned v :=
  fun _ _ _ hPod hJob _ _ => own.owned hPod hJob

theorem setPod (own : OwnPods v) (created : v.created) {retries : Int32} (value : Option Pod)
    (owned : ∀ pod job, value = some pod → some job ∈ v.job.visible →
      pod.controllerUid = some job.uid) : OwnPods (v.setPod retries value) where
  fresh := fun hFresh => absurd created hFresh
  owned := by
    intro r pod job hPod hJob
    rcases mem_setPod_visible hPod with ⟨rfl, hNew⟩ | hOld
    · exact owned pod job hNew hJob
    · exact own.owned hOld hJob

theorem servePod (own : OwnPods v) {retries : Int32} {age : Nat} {value : Option Pod}
    {register : Register Pod} (read : (v.pods retries).read age = some (value, register)) :
    OwnPods (v.servePod retries register) where
  fresh := fun hFresh r pod hPod => own.fresh hFresh r pod (mem_servePod_visible read hPod)
  owned := fun hPod hJob => own.owned (mem_servePod_visible read hPod) hJob

/-- A newer version of a visible job is the same job. -/
theorem setJob (own : OwnPods v) (value : Option QuantumAerJob)
    (same : ∀ job, value = some job → ∃ old, some old ∈ v.job.visible ∧ job.uid = old.uid) :
    OwnPods { v.setJob value with created := True } where
  fresh := fun hFresh => absurd trivial hFresh
  owned := by
    intro r pod job hPod hJob
    rcases List.mem_cons.mp hJob with hNew | hOld
    · obtain ⟨old, hOld, hUid⟩ := same job hNew.symm
      rw [hUid]
      exact own.owned hPod hOld
    · exact own.owned hPod hOld

theorem step (own : OwnPods v) (sound : Sound v) {a : Action}
    (alone : ∀ pod, a = .createPod pod → ∀ r, pod.key ≠ simulatorPodKey key r)
    (h : Moves v a v') : OwnPods v' := by
  -- a pod that replaces another one keeps its owner
  have hKept : ∀ {r : Int32} {stored : Pod}, (v.pods r).current = some stored →
      v.created ∧ ∀ job, some job ∈ v.job.visible → stored.controllerUid = some job.uid := by
    intro r stored hStored
    have hPod : some stored ∈ (v.pods r).visible := hStored ▸ (v.pods r).current_mem_visible
    refine ⟨?_, fun job hJob => own.owned hPod hJob⟩
    by_contra hFresh
    exact own.fresh hFresh r stored hPod
  cases h with
  | elsewhere | setClock | start | quiet | finish => exact { own with }
  | @create spec fresh =>
      refine ⟨fun hFresh => absurd trivial hFresh, fun hPod => ?_⟩
      exact absurd hPod (own.fresh fresh _ _)
  | readJob waits read =>
      exact {
        fresh := own.fresh
        owned := fun hPod hJob => own.owned hPod (Register.visible_subset_of_read read hJob) }
  | readPod waits held read => exact { own.servePod read with }
  | @created job history next reply answer path waits held free reported =>
      have hMem := sound.held_visible waits held
      have hPods := @OwnPods.setPod key v own (sound.versions.created_of_stored hMem)
        job.status.retries (some { simulatorPod job with uid := v.next, phase := .pending })
        (by
          rintro pod other ⟨⟩ hOther
          rcases sound.versions.newer_of_held (sound.held waits held) hOther with
            rfl | hSucceeds
          · rfl
          · exact congrArg some hSucceeds.uid.symm)
      exact { hPods with }
  | @deleted job pod stored history next reply answer path waits held named present reported =>
      obtain ⟨hCreated, hOwned⟩ := hKept present
      have hPods := @OwnPods.setPod key v own hCreated job.status.retries
        (some { stored with deletionRequested := true })
        (by rintro pod other ⟨⟩; exact hOwned other)
      exact { hPods with }
  | @expired job stored history next reply answer path waits held present reported =>
      have hStored : some stored ∈ v.job.visible := present ▸ v.job.current_mem_visible
      have hJob := own.setJob none (by simp)
      rw [← eq_true (sound.versions.created_of_stored hStored)] at hJob
      exact { hJob with }
  | @updated job stored status history next reply answer path waits held present version =>
      have hStored : some stored ∈ v.job.visible := present ▸ v.job.current_mem_visible
      have hJob := own.setJob (some { stored with
        status := status.stored, resourceVersion := v.next })
        (by rintro job ⟨⟩; exact ⟨_, hStored, rfl⟩)
      rw [← eq_true (sound.versions.created_of_stored hStored)] at hJob
      exact { hJob with }
  | @patched message stored present =>
      have hStored : some stored ∈ v.job.visible := present ▸ v.job.current_mem_visible
      have hJob := own.setJob (some { stored with
        status := { stored.status with errorMessage := message }, resourceVersion := v.next })
        (by rintro job ⟨⟩; exact ⟨_, hStored, rfl⟩)
      rw [← eq_true (sound.versions.created_of_stored hStored)] at hJob
      exact hJob
  | setPhase present =>
      obtain ⟨hCreated, hOwned⟩ := hKept present
      exact own.setPod hCreated _ (by rintro pod other ⟨⟩; exact hOwned other)
  | createPod named free => exact absurd named (alone _ rfl _)
  | removePod present => exact own.setPod (hKept present).1 _ (by rintro pod other ⟨⟩)

end OwnPods
end JobView

namespace World
variable {w w' : World} {key : NamespacedName}

/-- The job's reconcile was shown a pod in this phase that the job controls. -/
def SawOwnPod (w : World) (key : NamespacedName) (uid : Nat) (phase : PodPhase) : Prop :=
  ∃ worker pod, w.workers key = some worker ∧ ⟨.getPod pod.key, .ok pod⟩ ∈ worker.history ∧
    pod.phase = phase ∧ pod.controllerUid = some uid

/-- The job's reconcile found the deadline exceeded. -/
def SawTimeout (w : World) (key : NamespacedName) (job : QuantumAerJob) : Prop :=
  ∃ worker startTime t, w.workers key = some worker ∧ ⟨.now, t⟩ ∈ worker.history ∧
    job.status.startTime = some startTime ∧ TimedOut job startTime t

/-- What a step may do to a job and to pods on the controller's account. -/
structure ActsOnOwnPods (key : NamespacedName) (w w' : World) : Prop where
  completes : ∀ old new, (w.jobs key).current = some old → (w'.jobs key).current = some new →
    new.status.jobStatus = .completed → old.status.jobStatus ≠ .completed →
    SawOwnPod w key old.uid .succeeded
  fails : ∀ old new, (w.jobs key).current = some old → (w'.jobs key).current = some new →
    new.status.jobStatus = .failed → old.status.jobStatus ≠ .failed →
    SawTimeout w key old ∨ SawOwnPod w key old.uid .failed
  retries : ∀ old new, (w.jobs key).current = some old → (w'.jobs key).current = some new →
    new.status.retries ≠ old.status.retries → SawOwnPod w key old.uid .failed
  deletes : ∀ pod, w'.effects = (key, .deletePod pod) :: w.effects →
    ∃ worker job stored, w.workers key = some worker ∧ readJob worker.history = some job ∧
      (w.pods pod.key).current = some stored ∧ stored.controllerUid = some job.uid

theorem seenOwned_of_reaches
    (run : Reaches step (fun w _ => (w.view key).NamesOwned) Initial w) :
    (w.view key).SeenOwned := by
  apply view_invariant _ (fun _ h => h) _ _ run
  · rintro s initial worker job q pod hBusy
    have hIdle : (s.view key).worker = none := initial.idle key
    rw [hIdle] at hBusy
    cases hBusy
  · intro s a v' sound seen owned moves
    exact seen.step sound owned moves

/-- A deletion that takes effect is one by the job's reconcile, of the pod of
the attempt its copy has. -/
theorem deleted_of_effects (sound : ∀ key, (w.view key).Sound) {a : Action}
    (stepped : w.step a = some w') {pod : Pod}
    (deleted : w'.effects = (key, .deletePod pod) :: w.effects) :
    ∃ worker job stored, w.workers key = some worker ∧ readJob worker.history = some job ∧
      pod.key = simulatorPodKey key job.status.retries ∧
      (w.pods pod.key).current = some stored := by
  have hView : (w'.view key).effects = .deletePod pod :: (w.view key).effects := by
    simp [view, deleted]
  have hGrown : (w'.view key).effects ≠ (w.view key).effects := by
    rw [hView]
    exact List.cons_ne_self _ _
  have hMoves := view_moves sound stepped key
  generalize hAfter : w'.view key = v' at hMoves hView hGrown
  cases hMoves with
  | elsewhere | setClock | create | start | readJob | readPod | quiet | finish | patched
  | setPhase | createPod | removePod => exact absurd rfl hGrown
  | created | expired | updated => cases (List.cons.inj hView).1
  | @deleted job pod' stored history next reply answer path waits held named present reported =>
      cases (List.cons.inj hView).1
      refine ⟨_, job, stored, waits, held, named, ?_⟩
      rw [named]
      exact present

/-- While every pod under the name of an attempt has the job as its controller, a job is
completed, failed for its pod or retried only because of the phase of a pod the job
controls, and only such pods are deleted. -/
theorem acts_on_own_pods (run : Reaches step (fun w _ => (w.view key).NamesOwned) Initial w)
    (owned : (w.view key).NamesOwned) {a : Action} (stepped : w.step a = some w') :
    ActsOnOwnPods key w w' := by
  have hSound := sound_of_reaches run
  have hSeen := seenOwned_of_reaches run
  have hMoves := view_moves hSound stepped key
  have hFound : ∀ {worker : Worker key} {old : QuantumAerJob} {pod : Pod} {phase : PodPhase},
      w.workers key = some worker → readJob worker.history = some old →
      PodFound worker.history old pod → pod.phase = phase → SawOwnPod w key old.uid phase := by
    intro worker old pod phase hBusy hRead hPod hPhase
    have hKey := (hSound key).found hBusy hPod.2
    exact ⟨worker, pod, hBusy, hKey ▸ hPod.2, hPhase, hSeen _ old _ pod hBusy hRead hPod.2⟩
  constructor
  · intro old new hOld hNew hState hBefore
    rcases (hSound key).decision hMoves hOld hNew with hSame | ⟨worker, status, hBusy, hRead,
      hReason, hStatus⟩
    · exact absurd (hSame.1.symm.trans hState) hBefore
    · rw [hStatus] at hState
      obtain ⟨pod, hPod, hPhase⟩ := hReason.completes hState hBefore
      exact hFound hBusy hRead hPod hPhase
  · intro old new hOld hNew hState hBefore
    rcases (hSound key).decision hMoves hOld hNew with hSame | ⟨worker, status, hBusy, hRead,
      hReason, hStatus⟩
    · exact absurd (hSame.1.symm.trans hState) hBefore
    · rw [hStatus] at hState
      rcases hReason.fails hState hBefore with ⟨startTime, t, hStart, hNow, hTimedOut⟩ |
        ⟨pod, hPod, hPhase⟩
      · exact .inl ⟨worker, startTime, t, hBusy, hNow, hStart, hTimedOut⟩
      · exact .inr (hFound hBusy hRead hPod hPhase)
  · intro old new hOld hNew hRetries
    rcases (hSound key).decision hMoves hOld hNew with hSame | ⟨worker, status, hBusy, hRead,
      hReason, hStatus⟩
    · exact absurd hSame.2 hRetries
    · have hStored : some old ∈ (w.view key).job.visible :=
        hOld ▸ (w.jobs key).current_mem_visible
      rw [hStatus] at hRetries
      obtain ⟨pod, hPod, hPhase⟩ :=
        hReason.retries_changed ((hSound key).versions.ok hStored) hRetries
      exact hFound hBusy hRead hPod hPhase
  · intro pod hDeleted
    obtain ⟨worker, job, stored, hBusy, hRead, hKey, hStored⟩ :=
      deleted_of_effects hSound stepped hDeleted
    have hMem := (hSound key).held_visible hBusy hRead
    have hOk := (hSound key).versions.ok hMem
    have hVisible : some stored ∈ ((w.view key).pods job.status.retries).visible := by
      rw [hKey] at hStored
      exact hStored ▸ Register.current_mem_visible _
    exact ⟨worker, job, stored, hBusy, hRead, hStored,
      owned _ _ job hVisible hMem hOk.nonneg hOk.budget⟩

/-- Ownership of the names is kept by everyone who leaves them to the job. -/
theorem ownPods_of_reaches {start : World → Prop} {allowed : World → Action → Prop}
    (starts : ∀ w, start w → Initial w ∧ ∀ r pod, some pod ∉ ((w.view key).pods r).visible)
    (alone : ∀ w a, allowed w a → Alone key w a) (run : Reaches step allowed start w) :
    (w.view key).OwnPods := by
  apply view_invariant _ (fun s h => (starts s h).1) _ _ run
  · intro s h
    exact {
      fresh := fun _ => (starts s h).2
      owned := fun hPod => absurd hPod ((starts s h).2 _ _) }
  · intro s a v' sound own permitted moves
    apply own.step sound _ moves
    rintro pod rfl r
    exact alone _ _ permitted pod rfl r

/-- What is left of an earlier job of the same name: its first pod, which has
succeeded and is not collected yet. -/
def leftover : World :=
  let earlier : QuantumAerJob := ⟨"qjob-1", "default", 7, 8, sampleSpec, .empty⟩
  { empty with
    pods := Function.update (fun _ => .synced none) (simulatorPodKey sampleKey 0)
      (.synced (some { simulatorPod earlier with uid := 9, phase := .succeeded }))
    next := 10 }

theorem Initial.leftover : Initial leftover where
  jobs := fun _ => rfl
  pods := by
    intro q pod hMem
    by_cases hq : q = simulatorPodKey sampleKey 0
    · subst hq
      simp only [World.leftover, Function.update_self, Register.visible_synced,
        List.mem_singleton, Option.some.injEq] at hMem
      subst hMem
      decide
    · simp [World.leftover, Function.update_of_ne hq] at hMem
  idle := fun _ => rfl
  created := rfl
  effects := rfl
  finished := rfl

/-- No pod that was shown has this controller. -/
def showsForeign (uid : Nat) (history : History) : Bool :=
  history.all fun
    | ⟨.getPod _, .ok pod⟩ => pod.controllerUid ≠ some uid
    | _ => true

theorem SawOwnPod.shown {uid : Nat} {phase : PodPhase} (saw : SawOwnPod w key uid phase) :
    ∃ worker, w.workers key = some worker ∧ showsForeign uid worker.history = false := by
  obtain ⟨worker, pod, hBusy, hMem, -, hOwned⟩ := saw
  refine ⟨worker, hBusy, List.all_eq_false.mpr ⟨_, hMem, ?_⟩⟩
  simp [hOwned]

/-- The new job's creation of its pod is refused, the old pod is recorded, and
the last answer of this run but one is that it has succeeded. -/
def adoptingRun : List Action :=
  .createJob sampleKey sampleSpec :: pass sampleKey [.read 0, .ok, .ok] ++
    pass sampleKey [.read 0, .ok, .ok, .ok, .ok] ++
    pass sampleKey [.read 0, .ok, .read 0, .ok] ++
    .reconcile sampleKey :: [.read 0, .ok, .read 0, .ok].map (.answer sampleKey)

theorem adopts_foreign_pod : ¬ ∀ (w w' : World) (key : NamespacedName) (a : Action),
    Reaches step (fun _ _ => True) Initial w → w.step a = some w' → ActsOnOwnPods key w w' := by
  intro claim
  have hRun : (runActions step leftover adoptingRun).isSome := by decide
  obtain ⟨w, hw⟩ := Option.isSome_iff_exists.mp hRun
  have hReached : Reaches step (fun _ _ => True) Initial w :=
    (Reaches.start .leftover).runActions (by decide) hw
  have hLast : ((runActions step leftover adoptingRun).bind
      (·.step (.answer sampleKey .ok))).isSome := by decide
  obtain ⟨w', hw'⟩ := Option.isSome_iff_exists.mp hLast
  have hBefore : (runActions step leftover adoptingRun).map (fun w =>
      ((w.jobs sampleKey).current.map fun job => (job.uid, job.status.jobStatus),
        (w.workers sampleKey).map fun worker => showsForeign 10 worker.history)) =
      some (some (10, .progress), some true) := by decide
  have hAfter : ((runActions step leftover adoptingRun).bind
      (·.step (.answer sampleKey .ok))).map (fun w =>
        (w.jobs sampleKey).current.map (·.status.jobStatus)) = some (some .completed) := by decide
  rw [hw, Option.bind_some] at hw'
  rw [hw, Option.map_some, Option.some.injEq, Prod.mk.injEq, Option.map_eq_some_iff] at hBefore
  rw [hw, Option.bind_some, hw', Option.map_some, Option.some.injEq,
    Option.map_eq_some_iff] at hAfter
  obtain ⟨⟨old, hOld, hFields⟩, hShown⟩ := hBefore
  obtain ⟨new, hNew, hCompleted⟩ := hAfter
  rw [Prod.mk.injEq] at hFields
  have hState : old.status.jobStatus ≠ .completed := by
    rw [hFields.2]
    decide
  have hSaw := (claim w w' sampleKey _ hReached hw').completes old new hOld hNew hCompleted hState
  obtain ⟨worker, hBusy, hOwn⟩ := hSaw.shown
  rw [hBusy, Option.map_some, Option.some.injEq, ← hFields.1, hOwn] at hShown
  cases hShown

/-- With no other pods about, the same steps complete the job by its own pod. -/
def completingRun : List Action :=
  startRun ++ [.setPhase (simulatorPodKey sampleKey 0) .succeeded] ++
    .reconcile sampleKey :: [.read 0, .ok, .read 0, .ok].map (.answer sampleKey)

theorem completes_own_pod : ∃ w w' : World,
    runActions step .empty completingRun = some w ∧ w.step (.answer sampleKey .ok) = some w' ∧
    ((w'.jobs sampleKey).current.map (·.status.jobStatus)) = some .completed ∧
    ActsOnOwnPods sampleKey w w' := by
  have hRun : (runActions step .empty completingRun).isSome := by decide
  obtain ⟨w, hw⟩ := Option.isSome_iff_exists.mp hRun
  have hLast : ((runActions step .empty completingRun).bind
      (·.step (.answer sampleKey .ok))).isSome := by decide
  obtain ⟨w', hw'⟩ := Option.isSome_iff_exists.mp hLast
  have hAfter : ((runActions step .empty completingRun).bind
      (·.step (.answer sampleKey .ok))).map (fun w =>
        (w.jobs sampleKey).current.map (·.status.jobStatus)) = some (some .completed) := by decide
  rw [hw, Option.bind_some] at hw'
  rw [hw, Option.bind_some, hw', Option.map_some, Option.some.injEq] at hAfter
  have hAlone : ∀ a ∈ completingRun, a.placed.isNone := by decide
  have hStart : Reaches step (Alone sampleKey) (· = .empty) .empty := .start rfl
  have hReached : Reaches step (Alone sampleKey) (· = .empty) w :=
    hStart.runActions (.of_forall fun a hMem _ => alone_of_isNone (hAlone a hMem)) hw
  have hOwn : ∀ s, Reaches step (Alone sampleKey) (· = .empty) s →
      (s.view sampleKey).NamesOwned := by
    intro s run
    refine (ownPods_of_reaches ?_ (fun _ _ h => h) run).namesOwned
    rintro s rfl
    exact ⟨.empty, by simp [view, empty]⟩
  have hOwned : Reaches step (fun w _ => (w.view sampleKey).NamesOwned) Initial w :=
    (hReached.implies fun s _ run _ => hOwn s run).mono (by rintro s rfl; exact .empty)
      fun _ _ h => h
  exact ⟨w, w', hw, hw', hAfter, acts_on_own_pods hOwned (hOwn w hReached) hw'⟩

end World
end QuantumService.Cluster
