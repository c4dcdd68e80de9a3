import QuantumService.Cluster.Sound

/-! A run of the cluster is a run of every job's view. Attempts of different
jobs never share a pod name, so a reconcile only moves its own job and pods. -/
namespace QuantumService.Cluster
open Interaction Controller World

namespace World
variable {w w' : World} {key other : NamespacedName}

section Views
variable (w)

theorem view_setJob (value : Option QuantumAerJob) :
    (w.setJob key value).view key = (w.view key).setJob value := by
  simp [view, JobView.setJob]

theorem view_setJob_of_ne (h : other ≠ key) (value : Option QuantumAerJob) :
    (w.setJob other value).view key = { w.view key with next := w.next + 1 } := by
  simp [view, Function.update_of_ne h.symm]

/-- The attempts of a job have registers of their own. -/
theorem pods_update (retries : Int32) (register : Register Pod) :
    (fun r => Function.update w.pods (simulatorPodKey key retries) register
      (simulatorPodKey key r)) =
      Function.update (fun r => w.pods (simulatorPodKey key r)) retries register :=
  Function.update_comp_eq_of_injective w.pods (fun _ _ h => (simulatorPodKey_injective h).2)
    retries register

theorem pods_update_of_ne {q : NamespacedName} (h : ∀ r, q ≠ simulatorPodKey key r)
    (register : Register Pod) :
    (fun r => Function.update w.pods q register (simulatorPodKey key r)) =
      fun r => w.pods (simulatorPodKey key r) := by
  funext r
  exact Function.update_of_ne (h r).symm _ _

theorem view_setPod (retries : Int32) (value : Option Pod) :
    (w.setPod (simulatorPodKey key retries) value).view key =
      (w.view key).setPod retries value := by
  simp [view, JobView.setPod, pods_update]

theorem view_setPod_of_ne {q : NamespacedName} (h : ∀ r, q ≠ simulatorPodKey key r)
    (value : Option Pod) :
    (w.setPod q value).view key = { w.view key with next := w.next + 1 } := by
  simp [view, pods_update_of_ne w h]

theorem view_servePod (retries : Int32) (register : Register Pod) :
    World.view { w with
      pods := Function.update w.pods (simulatorPodKey key retries) register } key =
      (w.view key).servePod retries register := by
  simp [view, JobView.servePod, pods_update]

theorem view_servePod_of_ne {q : NamespacedName} (h : ∀ r, q ≠ simulatorPodKey key r)
    (register : Register Pod) :
    World.view { w with pods := Function.update w.pods q register } key = w.view key := by
  simp [view, pods_update_of_ne w h]

theorem view_serveJob (register : Register QuantumAerJob) :
    World.view { w with jobs := Function.update w.jobs key register } key =
      (w.view key).serveJob register := by
  simp [view, JobView.serveJob]

theorem view_serveJob_of_ne (h : other ≠ key) (register : Register QuantumAerJob) :
    World.view { w with jobs := Function.update w.jobs other register } key = w.view key := by
  simp [view, Function.update_of_ne h.symm]

theorem view_setWorker (worker : Option (Worker key)) :
    (w.setWorker key worker).view key = (w.view key).setWorker worker := by
  simp [view, JobView.setWorker]

theorem view_setWorker_of_ne (h : other ≠ key) (worker : Option (Worker other)) :
    (w.setWorker other worker).view key = w.view key := by
  simp [view, Function.update_of_ne h.symm]

theorem view_log (write : Write) : (w.log key write).view key = (w.view key).log write := by
  simp [view, JobView.log]

theorem view_log_of_ne (h : other ≠ key) (write : Write) :
    (w.log other write).view key = w.view key := by
  simp [view, entriesOf_cons_of_ne h]

end Views

/-- The pods of another job's attempts are not this job's. -/
theorem podKey_ne (h : other ≠ key) (retries : Int32) :
    ∀ r, simulatorPodKey other retries ≠ simulatorPodKey key r :=
  fun _ hSame => h (simulatorPodKey_injective hSame).1

/-- An answer without effect tells the job's view as little as it can. -/
theorem Quiet.uneventful {call : Call} {reply : Reply} {answer : call.Answer}
    (quiet : Quiet w call reply answer) : (w.view key).Uneventful ⟨call, answer⟩ := by
  cases quiet with
  | now => exact ⟨by rintro _ _ ⟨⟩, by rintro _ _ ⟨⟩, by rintro _ ⟨⟩, by rintro _ ⟨⟩,
      by rintro t ⟨⟩; rfl, by rintro _ _ _ ⟨⟩⟩
  | account => exact ⟨by rintro _ _ ⟨⟩, by rintro _ _ ⟨⟩, by rintro _ ⟨⟩, by rintro _ ⟨⟩,
      by rintro _ ⟨⟩, by rintro _ _ _ ⟨⟩⟩
  | @rejected write err refused =>
      refine ⟨by rintro _ _ ⟨⟩, by rintro _ _ ⟨⟩, by rintro _ ⟨⟩, by rintro _ ⟨⟩,
        by rintro _ ⟨⟩, ?_⟩
      intro retries pod hKey hEvent
      cases hEvent
      have hMissing := applyWrite_deletePod_notFound refused
      rw [hKey] at hMissing
      exact hMissing
  | failedJob | failedPod | failedWrite =>
      exact ⟨by rintro _ _ ⟨⟩, by rintro _ _ ⟨⟩, by rintro _ ⟨⟩, by rintro _ ⟨⟩,
        by rintro _ ⟨⟩, by rintro _ _ _ ⟨⟩⟩

/-- A status update that had no effect would not have been accepted. -/
theorem Quiet.ineffective {call : Call} {reply : Reply} {answer : call.Answer}
    (quiet : Quiet w call reply answer) {update : QuantumAerJob}
    (hCall : call = .write (.updateStatus update)) (hApplied : reply.applied = true) :
    ¬ (w.view update.key).Accepts update := by
  subst hCall
  cases quiet with
  | rejected refused =>
      rintro ⟨stored, hStored, hVersion⟩
      have hCurrent : (w.jobs update.key).current = some stored := hStored
      simp [applyWrite, hCurrent, hVersion] at refused
  | failedWrite => cases hApplied

section Acting
variable {acting : NamespacedName} {history : History}

/-- What a reconcile's write does to the views, job by job. -/
theorem view_wrote (sound : (w.view acting).Sound) {write : Write}
    {next : Except ApiError Unit → Reconciler Outcome} {reply : Reply}
    {answer : Except ApiError Unit}
    {path : Program.Path (reconcile acting) history (.ask (.write write) next)}
    (busy : w.workers acting = some ⟨history, .ask (.write write) next, path⟩)
    (applied : w.applyWrite write = .ok w') (reported : Reported reply answer) :
    (w.view key).Moves (.answer acting reply)
      (((w'.log acting write).setWorker acting
        (some (@Worker.extend acting history (.write write) next path answer))).view key) := by
  have hSite := site_of_busy path
  have hBusy : (w.view acting).Waits history (.write write) next path := busy
  by_cases hKey : acting = key
  · subst hKey
    rw [view_setWorker, view_log]
    cases write with
    | createPod pod =>
        obtain ⟨job, hRead, hState, hAbsent, rfl⟩ := hSite.createPod_inv
        obtain ⟨hFree, rfl⟩ := applyWrite_createPod applied
        have hPod := JobView.simulatorPod_key (sound.held_key busy hRead)
        rw [hPod] at hFree ⊢
        rw [view_setPod]
        exact .created hBusy hRead hFree reported
    | deletePod pod =>
        obtain ⟨job, hRead, hFound, -⟩ := hSite.deletePod_inv
        obtain ⟨stored, hStored, rfl⟩ := applyWrite_deletePod applied
        have hNamed : pod.key = simulatorPodKey acting job.status.retries := by
          rw [sound.found busy hFound.2]
          exact JobView.podKey_eq (sound.held_key busy hRead)
            (sound.versions.ok (sound.held_visible busy hRead)) hFound.1
        rw [hNamed] at hStored ⊢
        rw [view_setPod]
        exact .deleted hBusy hRead hNamed hStored reported
    | deleteJob job =>
        obtain ⟨hRead, -⟩ := hSite.deleteJob_inv
        obtain ⟨stored, hStored, rfl⟩ := applyWrite_deleteJob applied
        have hJob := sound.held_key busy hRead
        rw [hJob] at hStored ⊢
        rw [view_setJob]
        exact .expired hBusy hRead hStored reported
    | updateStatus update =>
        obtain ⟨job, status, hRead, hReason, rfl⟩ := hSite.updateStatus_inv
        obtain ⟨stored, hStored, hVersion, rfl⟩ := applyWrite_updateStatus applied
        have hJob : job.key = acting := sound.held_key busy hRead
        rw [QuantumAerJob.withStatus_key, hJob] at hStored ⊢
        rw [view_setJob]
        exact .updated hBusy hRead hStored hVersion reported
  · rw [view_setWorker_of_ne _ hKey, view_log_of_ne _ hKey]
    have hLater : (w.view key).Moves (.answer acting reply)
        { w.view key with next := w.next + 1 } := .elsewhere (Nat.le_succ _)
    cases write with
    | createPod pod =>
        obtain ⟨job, hRead, hState, hAbsent, rfl⟩ := hSite.createPod_inv
        obtain ⟨hFree, rfl⟩ := applyWrite_createPod applied
        rw [JobView.simulatorPod_key (sound.held_key busy hRead),
          view_setPod_of_ne _ (podKey_ne hKey _)]
        exact hLater
    | deletePod pod =>
        obtain ⟨job, hRead, hFound, -⟩ := hSite.deletePod_inv
        obtain ⟨stored, hStored, rfl⟩ := applyWrite_deletePod applied
        rw [sound.found busy hFound.2, JobView.podKey_eq (sound.held_key busy hRead)
          (sound.versions.ok (sound.held_visible busy hRead)) hFound.1,
          view_setPod_of_ne _ (podKey_ne hKey _)]
        exact hLater
    | deleteJob job =>
        obtain ⟨hRead, -⟩ := hSite.deleteJob_inv
        obtain ⟨stored, hStored, rfl⟩ := applyWrite_deleteJob applied
        rw [sound.held_key busy hRead, view_setJob_of_ne _ hKey]
        exact hLater
    | updateStatus update =>
        obtain ⟨job, status, hRead, hReason, rfl⟩ := hSite.updateStatus_inv
        obtain ⟨stored, hStored, hVersion, rfl⟩ := applyWrite_updateStatus applied
        have hJob : job.key = acting := sound.held_key busy hRead
        rw [QuantumAerJob.withStatus_key, hJob, view_setJob_of_ne _ hKey]
        exact hLater

end Acting

/-- A pod register is that of one attempt of the job, or none of its. -/
theorem podKey_cases (key q : NamespacedName) :
    (∃ r, q = simulatorPodKey key r) ∨ ∀ r, q ≠ simulatorPodKey key r := by
  by_cases h : ∃ r, q = simulatorPodKey key r
  · exact .inl h
  · exact .inr fun r hr => h ⟨r, hr⟩

/-- A step of the cluster is one move of the view of each job. -/
theorem view_moves (sound : ∀ key, (w.view key).Sound) {a : Action} (h : w.step a = some w')
    (key : NamespacedName) : (w.view key).Moves a (w'.view key) := by
  have hSame : (w.view key).Moves a (w.view key) := .elsewhere (Nat.le_refl _)
  have hLater : (w.view key).Moves a { w.view key with next := w.next + 1 } :=
    .elsewhere (Nat.le_succ _)
  cases moves_of_step h with
  | @createJob other spec fresh =>
      by_cases hKey : other = key
      · subst hKey
        have hView : World.view { w.setJob other (some (w.newJob other spec)) with
            created := other :: w.created } other =
            { (w.view other).setJob (some (w.newJob other spec)) with created := True } := by
          simp [view, JobView.setJob]
        rw [hView]
        exact .create fresh
      · have hView : World.view { w.setJob other (some (w.newJob other spec)) with
            created := other :: w.created } key = { w.view key with next := w.next + 1 } := by
          simp [view, Ne.symm hKey]
        rw [hView]
        exact hLater
  | @start other idle =>
      by_cases hKey : other = key
      · subst hKey
        rw [view_setWorker]
        exact .start idle
      · rw [view_setWorker_of_ne _ hKey]
        exact hSame
  | @readJob acting req age value register history next path busy read =>
      obtain ⟨rfl, rfl⟩ := (site_of_busy path).getJob_inv
      by_cases hKey : req = key
      · subst hKey
        rw [view_setWorker, view_serveJob]
        exact .readJob busy read
      · rw [view_setWorker_of_ne _ hKey, view_serveJob_of_ne _ hKey]
        exact hSame
  | @readPod acting pod age value register history next path busy read =>
      obtain ⟨job, hRead, hNamed, hPod⟩ := (site_of_busy path).getPod_inv
      have hHeld := (sound acting).held_key busy hRead
      have hOk := (sound acting).versions.ok ((sound acting).held_visible busy hRead)
      rw [JobView.podKey_eq hHeld hOk hNamed] at hPod
      subst hPod
      by_cases hKey : acting = key
      · subst hKey
        rw [view_setWorker, view_servePod]
        exact .readPod busy hRead read
      · rw [view_setWorker_of_ne _ hKey, view_servePod_of_ne _ (podKey_ne hKey _)]
        exact hSame
  | wrote busy applied reported => exact view_wrote (sound _) busy applied reported
  | @quiet acting call history next reply answer path busy quiet =>
      by_cases hKey : acting = key
      · subst hKey
        rw [view_setWorker]
        refine .quiet busy quiet.uneventful fun update hCall hApplied => ?_
        have hUpdate : update.key = acting := by
          subst hCall
          obtain ⟨job, status, hRead, hReason, rfl⟩ := (site_of_busy path).updateStatus_inv
          have hJob : job.key = acting := (sound acting).held_key busy hRead
          exact hJob
        exact hUpdate ▸ quiet.ineffective hCall hApplied
      · rw [view_setWorker_of_ne _ hKey]
        exact hSame
  | @finish acting history outcome path busy =>
      by_cases hKey : acting = key
      · subst hKey
        have hView : World.view { w.setWorker acting none with
            finished := (acting, history, outcome) :: w.finished } acting =
            { (w.view acting).setWorker none with
              finished := (history, outcome) :: (w.view acting).finished } := by
          simp [view, JobView.setWorker]
        rw [hView]
        exact .finish busy
      · have hView : World.view { w.setWorker acting none with
            finished := (acting, history, outcome) :: w.finished } key = w.view key := by
          simp [view, Function.update_of_ne (Ne.symm hKey), entriesOf_cons_of_ne hKey]
        rw [hView]
        exact hSame
  | unpatched => exact hSame
  | @patched other message job stored =>
      by_cases hKey : other = key
      · subst hKey
        rw [view_setJob]
        exact .patched stored
      · rw [view_setJob_of_ne _ hKey]
        exact hLater
  | setClock => exact .setClock
  | @setPhase q phase pod stored =>
      rcases podKey_cases key q with ⟨r, rfl⟩ | hOther
      · rw [view_setPod]
        exact .setPhase stored
      · rw [view_setPod_of_ne _ hOther]
        exact hLater
  | @createPod pod free =>
      rcases podKey_cases key pod.key with ⟨r, hr⟩ | hOther
      · rw [hr] at free ⊢
        rw [view_setPod]
        exact .createPod hr free
      · rw [view_setPod_of_ne _ hOther]
        exact hLater
  | @removePod q pod stored =>
      rcases podKey_cases key q with ⟨r, rfl⟩ | hOther
      · rw [view_setPod]
        exact .removePod stored
      · rw [view_setPod_of_ne _ hOther]
        exact hLater

/-- A cluster before any job is created, with any pods in it. -/
structure Initial (w : World) : Prop where
  jobs : ∀ key, w.jobs key = .synced none
  pods : ∀ {key pod}, some pod ∈ (w.pods key).visible → pod.key = key
  idle : ∀ key, w.workers key = none
  created : w.created = []
  effects : w.effects = []
  finished : w.finished = []

theorem Initial.empty : Initial .empty where
  jobs := fun _ => rfl
  pods := by simp [World.empty]
  idle := fun _ => rfl
  created := rfl
  effects := rfl
  finished := rfl

theorem Initial.sound (initial : Initial w) (key : NamespacedName) : (w.view key).Sound where
  versions := by
    have hCreated : (w.view key).created = False := by simp [view, initial.created]
    have hJob : (w.view key).job = .synced none := initial.jobs key
    rw [hCreated, hJob]
    exact .synced
  held := by
    intro worker job hBusy
    have hIdle : (w.view key).worker = none := initial.idle key
    rw [hIdle] at hBusy
    cases hBusy
  podKeyed := initial.pods
  found := by
    intro worker q pod hBusy
    have hIdle : (w.view key).worker = none := initial.idle key
    rw [hIdle] at hBusy
    cases hBusy
  placed := by
    intro pod hMem
    have hEffects : (w.view key).effects = [] := by simp [view, initial.effects]
    simp [hEffects] at hMem

/-- Every job's view is sound in every run. -/
theorem sound_of_reaches {allowed : World → Action → Prop}
    (run : Reaches step allowed Initial w) (key : NamespacedName) : (w.view key).Sound := by
  have hAll : ∀ key, (w.view key).Sound :=
    run.invariant (fun _ initial => initial.sound)
      fun s a t _ sound _ stepped key => (sound key).step (view_moves sound stepped key)
  exact hAll key

/-- An invariant of one job's view holds in every run if it holds initially and
every allowed move of a sound view keeps it. -/
theorem view_invariant {allowed : World → Action → Prop} {start : World → Prop}
    {key : NamespacedName} (inv : JobView key → Prop)
    (starts : ∀ w, start w → Initial w) (initial : ∀ w, start w → inv (w.view key))
    (preserved : ∀ (w : World) (a : Action) (v' : JobView key), (w.view key).Sound →
      inv (w.view key) → allowed w a → (w.view key).Moves a v' → inv v')
    (run : Reaches step allowed start w) : inv (w.view key) := by
  apply run.invariant initial
  intro s a t reached hInv permitted stepped
  have hSound := sound_of_reaches (reached.mono starts fun _ _ h => h)
  exact preserved s a _ (hSound key) hInv permitted (view_moves hSound stepped key)

end World
end QuantumService.Cluster
