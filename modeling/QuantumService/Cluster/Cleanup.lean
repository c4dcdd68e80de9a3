import QuantumService.Cluster.Attempts

/-! What the cleanup of a terminal job leaves behind. It looks at the recorded
pod only, so it is complete as long as no job becomes terminal between the
creation of its pod and the update that records it. -/
namespace QuantumService.Cluster
open Interaction Controller World

namespace JobView
variable {key : NamespacedName} {v v' : JobView key}

/-- The pod of an attempt is live, as a test. -/
def isLive (v : JobView key) (retries : Int32) : Bool :=
  (v.pods retries).current.any fun pod => !pod.deletionRequested

theorem isLive_iff {retries : Int32} : v.isLive retries = true ↔ v.Live retries := by
  simp [isLive, Live, Option.any_eq_true]

/-- The answers after which the cleanup misses a live pod. A job becomes terminal
while its live pod is not recorded; the lookup of a terminal job's pod reports a
live one as gone; or a pod is created for a job that is terminal already. -/
def losesPod (v : JobView key) (reply : Reply) : Bool :=
  match v.worker with
  | some ⟨history, .ask call _, _⟩ =>
      match call with
      | .write (.updateStatus update) =>
          update.status.jobStatus.Terminal && update.status.podName = "" &&
            v.isLive update.status.retries && reply.applied &&
            v.job.current.any (·.resourceVersion = update.resourceVersion)
      | .getPod _ =>
          (readJob history).any fun job => job.status.jobStatus.Terminal &&
            v.isLive job.status.retries && match reply with
            | .read age => (v.pods job.status.retries).visible[age]? = some none
            | _ => false
      | .write (.createPod _) =>
          reply.applied && v.job.current.any (·.status.jobStatus.Terminal)
      | _ => false
  | _ => false

section LosesPod
variable {history : History} {job stored : QuantumAerJob} {reply : Reply}

theorem losesPod_of_update {update : QuantumAerJob}
    {next : Except ApiError Unit → Reconciler Outcome}
    {path : Program.Path (reconcile key) history (.ask (.write (.updateStatus update)) next)}
    (waits : v.Waits history (.write (.updateStatus update)) next path)
    (terminal : update.status.jobStatus.Terminal) (unnamed : update.status.podName = "")
    (live : v.Live update.status.retries) (applied : reply.applied = true)
    (present : v.job.current = some stored)
    (version : stored.resourceVersion = update.resourceVersion) : v.losesPod reply = true := by
  rw [Waits] at waits
  simp [losesPod, waits, terminal, unnamed, isLive_iff.mpr live, applied, present, version]

theorem losesPod_of_read {q : NamespacedName} {next : Except ApiError Pod → Reconciler Outcome}
    {path : Program.Path (reconcile key) history (.ask (.getPod q) next)}
    (waits : v.Waits history (.getPod q) next path) (held : readJob history = some job)
    (terminal : job.status.jobStatus.Terminal) (live : v.Live job.status.retries) {age : Nat}
    (missing : (v.pods job.status.retries).visible[age]? = some none) :
    v.losesPod (.read age) = true := by
  rw [Waits] at waits
  simp [losesPod, waits, held, terminal, isLive_iff.mpr live, missing]

theorem losesPod_of_create {pod : Pod} {next : Except ApiError Unit → Reconciler Outcome}
    {path : Program.Path (reconcile key) history (.ask (.write (.createPod pod)) next)}
    (waits : v.Waits history (.write (.createPod pod)) next path)
    (applied : reply.applied = true) (present : v.job.current = some stored)
    (terminal : stored.status.jobStatus.Terminal) : v.losesPod reply = true := by
  rw [Waits] at waits
  simp [losesPod, waits, applied, present, terminal]

end LosesPod

/-- The live pod of a terminal job is the recorded one, and it is not live any
more once a reconcile has found it gone or deleted it. -/
structure Tidy (v : JobView key) : Prop where
  recorded : ∀ {job r}, some job ∈ v.job.visible → job.status.jobStatus.Terminal → v.Live r →
    job.status.podName = simulatorPodName job.name r
  absent : ∀ {worker job q}, v.worker = some worker → readJob worker.history = some job →
    job.status.jobStatus.Terminal → ⟨.getPod q, .error .notFound⟩ ∈ worker.history →
    ∀ r, ¬ v.Live r
  deleted : ∀ {worker job pod}, v.worker = some worker → readJob worker.history = some job →
    job.status.jobStatus.Terminal → PodDeleted worker.history pod → ∀ r, ¬ v.Live r
  finished : ∀ {history outcome job}, (history, outcome) ∈ v.finished →
    readJob history = some job → job.status.jobStatus.Terminal → outcome.2 = none →
    v.created ∧ (∀ r, ¬ v.Live r) ∧
      ∀ other, some other ∈ v.job.visible → other.status.jobStatus.Terminal

/-- Every version that can still be read is terminal once a reconcile has read
a terminal one. -/
theorem Sound.terminal_of_held (sound : Sound v) {worker : Worker key} {job : QuantumAerJob}
    (busy : v.worker = some worker) (held : readJob worker.history = some job)
    (terminal : job.status.jobStatus.Terminal) {other : QuantumAerJob}
    (visible : some other ∈ v.job.visible) : other.status.jobStatus.Terminal := by
  rcases sound.versions.newer_of_held (sound.held busy held) visible with rfl | hSucceeds
  · exact terminal
  · exact hSucceeds.terminal terminal

namespace Tidy

/-- Pods may only disappear, and the rest of the view stays as it is. -/
theorem shrink (tidy : Tidy v) {pods : Int32 → Register Pod} {next : Nat}
    (live : ∀ r, Live { v with pods := pods, next := next } r → v.Live r) :
    Tidy { v with pods := pods, next := next } where
  recorded := fun hMem hTerminal hLive => tidy.recorded hMem hTerminal (live _ hLive)
  absent := fun hBusy hRead hTerminal hGone r hLive =>
    tidy.absent hBusy hRead hTerminal hGone r (live r hLive)
  deleted := fun hBusy hRead hTerminal hDeleted r hLive =>
    tidy.deleted hBusy hRead hTerminal hDeleted r (live r hLive)
  finished := by
    intro history outcome job hMem hRead hTerminal hNone
    obtain ⟨hCreated, hDead, hVisible⟩ := tidy.finished hMem hRead hTerminal hNone
    exact ⟨hCreated, fun r hLive => hDead r (live r hLive), hVisible⟩

theorem log (tidy : Tidy v) (write : Write) : Tidy (v.log write) :=
  { tidy with }

/-- A new value of the job, for which the recorded pod is the live one. -/
theorem setJob (tidy : Tidy v) (value : Option QuantumAerJob)
    (recorded : ∀ job r, value = some job → job.status.jobStatus.Terminal → v.Live r →
      job.status.podName = simulatorPodName job.name r)
    (terminal : ∀ job, value = some job → v.created →
      (∀ other, some other ∈ v.job.visible → other.status.jobStatus.Terminal) →
      job.status.jobStatus.Terminal) : Tidy { v.setJob value with created := True } where
  recorded := by
    intro job r hMem hTerminal hLive
    rcases List.mem_cons.mp hMem with hNew | hOld
    · exact recorded job r hNew.symm hTerminal hLive
    · exact tidy.recorded hOld hTerminal hLive
  absent := tidy.absent
  deleted := tidy.deleted
  finished := by
    intro history outcome job hMem hRead hTerminal hNone
    obtain ⟨hCreated, hDead, hVisible⟩ := tidy.finished hMem hRead hTerminal hNone
    refine ⟨trivial, hDead, fun other hOther => ?_⟩
    rcases List.mem_cons.mp hOther with hNew | hOld
    · exact terminal other hNew.symm hCreated hVisible
    · exact hVisible other hOld

theorem resume (tidy : Tidy v) {history : History} {call : Call}
    {next : call.Answer → Reconciler Outcome}
    {path : Program.Path (reconcile key) history (.ask call next)} {answer : call.Answer}
    (waits : v.Waits history call next path)
    (job : ∀ req job, (⟨call, answer⟩ : Event Call.Answer) ≠ ⟨.getJob req, .ok job⟩)
    (absent : ∀ job q, readJob history = some job → job.status.jobStatus.Terminal →
      (⟨call, answer⟩ : Event Call.Answer) = ⟨.getPod q, .error .notFound⟩ → ∀ r, ¬ v.Live r)
    (deleted : ∀ job pod, readJob history = some job → job.status.jobStatus.Terminal →
      PodDeleted [⟨call, answer⟩] pod → ∀ r, ¬ v.Live r) : Tidy (v.resume path answer) where
  recorded := tidy.recorded
  absent := by
    rintro worker job' q ⟨⟩ hRead hTerminal hMem
    have hBefore := readJob_extend job hRead
    rcases List.mem_append.mp hMem with hOld | hNew
    · exact tidy.absent waits hBefore hTerminal hOld
    · exact absent job' q hBefore hTerminal (List.mem_singleton.mp hNew).symm
  deleted := by
    rintro worker job' pod ⟨⟩ hRead hTerminal hDeleted
    have hBefore := readJob_extend job hRead
    rcases hDeleted.of_append with hOld | hNew
    · exact tidy.deleted waits hBefore hTerminal hOld
    · exact deleted job' pod hBefore hTerminal hNew
  finished := tidy.finished

/-- An answer that is neither about a lookup nor about a deletion. -/
theorem resume_of_other (tidy : Tidy v) {history : History} {call : Call}
    {next : call.Answer → Reconciler Outcome}
    {path : Program.Path (reconcile key) history (.ask call next)} {answer : call.Answer}
    (waits : v.Waits history call next path)
    (job : ∀ req job, (⟨call, answer⟩ : Event Call.Answer) ≠ ⟨.getJob req, .ok job⟩)
    (lookup : ∀ q, call ≠ .getPod q) (deletion : ∀ pod, call ≠ .write (.deletePod pod)) :
    Tidy (v.resume path answer) := by
  apply tidy.resume waits job
  · intro _ q _ _ hEvent
    exact absurd (congrArg Sigma.fst hEvent) (lookup q)
  · intro _ pod _ _ hDeleted
    exact absurd hDeleted (not_podDeleted deletion)

/-- Once the recorded pod of a terminal job is not live, none of its pods is. -/
theorem dead_of_recorded (tidy : Tidy v) (sound : Sound v) {job : QuantumAerJob}
    (visible : some job ∈ v.job.visible) (terminal : job.status.jobStatus.Terminal)
    (named : job.status.podName ≠ "") (dead : ¬ v.Live job.status.retries) :
    ∀ r, ¬ v.Live r := by
  intro r hLive
  have hName := (sound.versions.ok visible).named.resolve_left named
  rw [tidy.recorded visible terminal hLive] at hName
  exact dead ((simulatorPodName_injective hName).2 ▸ hLive)

/-- A pod is only created while every visible version is unfinished. -/
theorem create (tidy : Tidy v) (sound : Sound v) {worker : Worker key} {job stored : QuantumAerJob}
    (busy : v.worker = some worker) (held : readJob worker.history = some job)
    (state : job.status.jobStatus = .pending) (present : v.job.current = some stored)
    (active : ¬ stored.status.jobStatus.Terminal) (pod : Option Pod) :
    Tidy (v.setPod job.status.retries pod) := by
  have hMem := sound.held_visible busy held
  have hOpen : ¬ job.status.jobStatus.Terminal := by simp [state]
  have hVisible : ∀ other, some other ∈ v.job.visible → ¬ other.status.jobStatus.Terminal := by
    intro other hOther hTerminal
    rcases sound.versions.newer_of_current present hOther with rfl | hSucceeds
    · exact active hTerminal
    · exact active (hSucceeds.terminal hTerminal)
  have hHeld : ∀ {worker' : Worker key} {job' : QuantumAerJob}, v.worker = some worker' →
      readJob worker'.history = some job' → ¬ job'.status.jobStatus.Terminal := by
    intro worker' job' hBusy hRead
    obtain rfl := Option.some.inj (busy.symm.trans hBusy)
    obtain rfl := Option.some.inj (held.symm.trans hRead)
    exact hOpen
  exact {
    recorded := fun hOther hTerminal => absurd hTerminal (hVisible _ hOther)
    absent := fun hBusy hRead hTerminal => absurd hTerminal (hHeld hBusy hRead)
    deleted := fun hBusy hRead hTerminal => absurd hTerminal (hHeld hBusy hRead)
    finished := fun hEntry hRead hTerminal hNone =>
      absurd ((tidy.finished hEntry hRead hTerminal hNone).2.2 job hMem) hOpen }

/-- A status update that ends a job leaves no live pod unrecorded. -/
theorem update (tidy : Tidy v) (sound : Sound v) (single : SingleAttempt v)
    {job : QuantumAerJob} {status : QuantumAerJobStatus} {history : History}
    {next : Except ApiError Unit → Reconciler Outcome} {reply : Reply}
    {path : Program.Path (reconcile key) history
      (.ask (.write (.updateStatus (job.withStatus status))) next)}
    (waits : v.Waits history (.write (.updateStatus (job.withStatus status))) next path)
    (held : readJob history = some job) (present : v.job.current = some job)
    (applied : reply.applied = true) (kept : v.losesPod reply = false) :
    Tidy (v.setJob (some { job with status := status.stored, resourceVersion := v.next })) := by
  have hMem := sound.held_visible waits held
  have hOk := sound.versions.ok hMem
  have hReason := (site_of_busy path).reason held
  have hActive := (hReason.advance hOk).active
  have hJob := tidy.setJob
    (some { job with status := status.stored, resourceVersion := v.next })
    (by
      rintro new r ⟨⟩ hTerminal hLive
      obtain ⟨hName, hRetries⟩ := hReason.kept_of_terminal hTerminal
      have hNumber := single.current present hLive
      show status.podName = simulatorPodName job.name r
      rw [hName, hNumber]
      rcases hOk.named with hEmpty | hNamed
      · have hLoses := losesPod_of_update waits hTerminal (hName.trans hEmpty)
          (hRetries ▸ hNumber ▸ hLive) applied present rfl
        rw [kept] at hLoses
        cases hLoses
      · exact hNamed)
    (by
      rintro new ⟨⟩ _ hAll
      exact absurd (hAll job hMem) hActive)
  rwa [← eq_true (sound.versions.created_of_stored hMem)] at hJob

theorem step (tidy : Tidy v) (sound : Sound v) (single : SingleAttempt v) {a : Action}
    (alone : ∀ pod, a = .createPod pod → ∀ r, pod.key ≠ simulatorPodKey key r)
    (kept : ∀ reply, a = .answer key reply → v.losesPod reply = false) (h : Moves v a v') :
    Tidy v' := by
  cases h with
  | elsewhere later => exact tidy.shrink fun r hLive => hLive
  | setClock => exact { tidy with }
  | @create spec fresh =>
      exact tidy.setJob _
        (by
          rintro job r ⟨⟩ _ hLive
          exact absurd hLive (single.uncreated fresh r))
        (by
          rintro job ⟨⟩ hCreated
          exact absurd hCreated fresh)
  | start idle =>
      exact { tidy with
        absent := by
          rintro worker job q ⟨⟩ hRead
          cases hRead
        deleted := by
          rintro worker job pod ⟨⟩ hRead
          cases hRead }
  | @readJob age value register next path waits read =>
      have hSeen : ∀ {job}, some job ∈ register.visible → some job ∈ v.job.visible :=
        Register.visible_subset_of_read read
      exact {
        recorded := fun hMem => tidy.recorded (hSeen hMem)
        absent := by
          rintro worker job q ⟨⟩ _ _ hMem
          cases List.mem_singleton.mp hMem
        deleted := by
          rintro worker job pod ⟨⟩ _ _ hDeleted
          rcases hDeleted with hOk | hGone
          · cases List.mem_singleton.mp hOk
          · cases List.mem_singleton.mp hGone
        finished := by
          intro history outcome job hMem hRead hTerminal hNone
          obtain ⟨hCreated, hDead, hVisible⟩ := tidy.finished hMem hRead hTerminal hNone
          exact ⟨hCreated, hDead, fun other hOther => hVisible other (hSeen hOther)⟩ }
  | @readPod age job value register history next path waits held read =>
      have hPods : Tidy (v.servePod job.status.retries register) :=
        tidy.shrink fun r => (live_servePod read).mp
      apply hPods.resume waits (by rintro _ _ ⟨⟩)
      · intro job' q hRead hTerminal hEvent r hLive
        obtain rfl := Option.some.inj (held.symm.trans hRead)
        obtain ⟨named', hRead', hNamed, -⟩ := (site_of_busy path).getPod_inv
        obtain rfl := Option.some.inj (held.symm.trans hRead')
        have hMissing : (v.pods job.status.retries).visible[age]? = some none := by
          cases value with
          | none => exact (Register.visible_read read).1
          | some served => cases hEvent
        have hDead : ¬ v.Live job.status.retries := by
          intro hLive'
          have hLoses := losesPod_of_read waits held hTerminal hLive' hMissing
          rw [kept _ rfl] at hLoses
          cases hLoses
        exact tidy.dead_of_recorded sound (sound.held_visible waits held) hTerminal hNamed hDead r
          ((live_servePod read).mp hLive)
      · intro job' pod _ _ hDeleted
        exact absurd hDeleted (not_podDeleted (by simp))
  | @created job history next reply answer path waits held free reported =>
      obtain ⟨job', hRead, hState, -, -⟩ := (site_of_busy path).createPod_inv
      obtain rfl : job = job' := Option.some.inj (held.symm.trans hRead)
      obtain ⟨stored, hStored⟩ := sound.stored_of_held waits held (by simp [hState])
      have hActive : ¬ stored.status.jobStatus.Terminal := by
        intro hTerminal
        have hLoses := losesPod_of_create waits reported.applied hStored hTerminal
        rw [kept _ rfl] at hLoses
        cases hLoses
      exact ((tidy.create sound waits held hState hStored hActive _).log _).resume_of_other waits
        (by rintro _ _ ⟨⟩) (by simp) (by simp)
  | @deleted job pod stored history next reply answer path waits held named present reported =>
      obtain ⟨job', hRead, hFound, -⟩ := (site_of_busy path).deletePod_inv
      obtain rfl : job = job' := Option.some.inj (held.symm.trans hRead)
      have hDead : ∀ r, (v.setPod job.status.retries
          (some { stored with deletionRequested := true })).Live r → v.Live r :=
        fun r => live_of_setPod (by rintro pod ⟨⟩ ⟨⟩)
      have hPods : Tidy (v.setPod job.status.retries
        (some { stored with deletionRequested := true })) := tidy.shrink hDead
      apply (hPods.log _).resume waits (by rintro _ _ ⟨⟩)
      · rintro _ _ _ _ ⟨⟩
      · intro job' pod' hRead' hTerminal _ r hLive
        obtain rfl : job = job' := Option.some.inj (held.symm.trans hRead')
        have hGone : ¬ (v.setPod job.status.retries
            (some { stored with deletionRequested := true })).Live job.status.retries := by
          intro hLive'
          obtain ⟨pod'', ⟨⟩, hFalse⟩ := live_setPod_self hLive'
          cases hFalse
        have hKey := sound.podKeyed (present ▸ (v.pods job.status.retries).current_mem_visible)
        have hSound : Sound (v.setPod job.status.retries
            (some { stored with deletionRequested := true })) := by
          apply sound.setPod
          rintro pod ⟨⟩
          exact hKey
        exact hPods.dead_of_recorded hSound (sound.held_visible waits held) hTerminal hFound.1
          hGone r hLive
  | @expired job stored history next reply answer path waits held present reported =>
      have hStored : some stored ∈ v.job.visible := present ▸ v.job.current_mem_visible
      have hJob := tidy.setJob none (by simp) (by simp)
      rw [← eq_true (sound.versions.created_of_stored hStored)] at hJob
      exact (hJob.log _).resume_of_other waits (by rintro _ _ ⟨⟩) (by simp) (by simp)
  | @updated job stored status history next reply answer path waits held present version
      reported =>
      obtain ⟨rfl, -⟩ := sound.versions.eq_of_version (sound.held waits held) present version
      exact ((tidy.update sound single waits held present reported.applied
        (kept _ rfl)).log _).resume_of_other waits (by rintro _ _ ⟨⟩) (by simp) (by simp)
  | @quiet call history next reply answer path waits uneventful ineffective =>
      apply tidy.resume waits uneventful.job
      · intro _ q _ _ hEvent
        exact absurd hEvent (uneventful.noPod q)
      · intro job pod hRead hTerminal hDeleted
        rcases hDeleted with hOk | hGone
        · exact absurd (List.mem_singleton.mp hOk).symm (uneventful.write _)
        · have hEvent := (List.mem_singleton.mp hGone).symm
          obtain ⟨hNamed, hMissing⟩ := sound.missing_of_notFound waits hRead uneventful hEvent
          apply tidy.dead_of_recorded sound (sound.held_visible waits hRead) hTerminal hNamed
          rintro ⟨stored, hStored, -⟩
          rw [hMissing] at hStored
          cases hStored
  | @finish history outcome path busy =>
      have hEnds := (reconcile_follows key).result path
      exact { tidy with
        absent := by rintro _ _ _ ⟨⟩
        deleted := by rintro _ _ _ ⟨⟩
        finished := by
          intro history' outcome' job hMem hRead hTerminal hNone
          rcases List.mem_cons.mp hMem with hNew | hOld
          · cases hNew
            have hVisible := sound.held_visible busy hRead
            refine ⟨sound.versions.created_of_stored hVisible, ?_,
              fun other => sound.terminal_of_held busy hRead hTerminal⟩
            rcases hEnds.cleaned hRead hTerminal hNone with (hEmpty | hAbsent) | ⟨pod, -, hDeleted⟩
            · intro r hLive
              have hName := tidy.recorded hVisible hTerminal hLive
              rw [hEmpty] at hName
              exact simulatorPodName_ne_empty _ _ hName.symm
            · exact tidy.absent busy hRead hTerminal hAbsent
            · exact tidy.deleted busy hRead hTerminal hDeleted
          · exact tidy.finished hOld hRead hTerminal hNone }
  | @patched message stored present =>
      have hStored : some stored ∈ v.job.visible := present ▸ v.job.current_mem_visible
      have hRecorded : ∀ r, stored.status.jobStatus.Terminal → v.Live r →
          stored.status.podName = simulatorPodName stored.name r :=
        fun r => tidy.recorded hStored
      have hJob := tidy.setJob (some { stored with
          status := { stored.status with errorMessage := message }, resourceVersion := v.next })
        (by rintro job r ⟨⟩; exact hRecorded r)
        (by rintro job ⟨⟩ _ hAll; exact hAll stored hStored)
      rwa [← eq_true (sound.versions.created_of_stored hStored)] at hJob
  | @setPhase retries phase pod present =>
      apply tidy.shrink
      intro r
      apply live_of_setPod
      rintro pod' ⟨⟩ hLive
      exact ⟨pod, present, hLive⟩
  | createPod named free => exact absurd named (alone _ rfl _)
  | removePod present => exact tidy.shrink fun r => live_of_setPod (by rintro pod ⟨⟩)

end Tidy
end JobView

namespace World
variable {w : World} {key : NamespacedName}

/-- No answer to the job's reconcile makes its cleanup miss a live pod. -/
def KeepsPods (key : NamespacedName) (w : World) : Action → Prop
  | .answer acting reply => acting = key → (w.view key).losesPod reply = false
  | _ => True

instance (w : World) : (a : Action) → Decidable (KeepsPods key w a)
  | .answer acting reply =>
      inferInstanceAs (Decidable (acting = key → (w.view key).losesPod reply = false))
  | .createJob .. | .reconcile _ | .finish _ | .patchError .. | .setClock _ | .setPhase ..
  | .createPod _ | .removePod _ =>
      .isTrue trivial

theorem Tidy.vacant (start : Vacant key w) : (w.view key).Tidy := by
  have hJob : (w.view key).job = .synced none := start.initial.jobs key
  have hIdle : (w.view key).worker = none := start.initial.idle key
  have hFinished : (w.view key).finished = [] := by simp [view, start.initial.finished]
  exact {
    recorded := fun hMem => by simp [hJob] at hMem
    absent := fun hBusy => by simp [hIdle] at hBusy
    deleted := fun hBusy => by simp [hIdle] at hBusy
    finished := fun hMem => by simp [hFinished] at hMem }

theorem tidy_of_reaches
    (run : Reaches step (fun w a => Alone key w a ∧ KeepsPods key w a) (Vacant key) w) :
    (w.view key).Tidy := by
  have hBoth : (w.view key).Tidy ∧ (w.view key).SingleAttempt := by
    apply view_invariant (fun v => v.Tidy ∧ v.SingleAttempt) (fun _ h => h.initial) _ _ run
    · intro s start
      exact ⟨Tidy.vacant start, singleAttempt_of_reaches (fun _ _ h => h) (.start start)⟩
    · intro s a v' sound tidy permitted moves
      have hAlone : ∀ pod, a = .createPod pod → ∀ r, pod.key ≠ simulatorPodKey key r := by
        rintro pod rfl
        exact permitted.1 pod rfl
      refine ⟨tidy.1.step sound tidy.2 hAlone ?_ moves, tidy.2.step sound hAlone moves⟩
      rintro reply rfl
      exact permitted.2 rfl
  exact hBoth.1

/-- In every run in which no answer makes it miss a live pod, once a reconcile of the
terminal job has returned without an error, every pod created for the job is gone or has had
its deletion requested. -/
theorem cleanup_complete
    (run : Reaches step (fun w a => Alone key w a ∧ KeepsPods key w a) (Vacant key) w)
    {history : History} {outcome : Outcome} {job : QuantumAerJob}
    (finished : (key, history, outcome) ∈ w.finished) (read : readJob history = some job)
    (terminal : job.status.jobStatus.Terminal) (returned : outcome.2 = none) :
    ∀ pod stored, (key, .createPod pod) ∈ w.effects →
      (w.pods pod.key).current = some stored → stored.deletionRequested = true := by
  intro pod stored hCreated hStored
  have hTidy := tidy_of_reaches run
  have hSound := sound_of_reaches (run.mono (fun _ h => h.initial) fun _ _ h => h) key
  obtain ⟨r, hKey⟩ := hSound.placed (mem_entriesOf.mpr hCreated)
  obtain ⟨-, hDead, -⟩ := hTidy.finished (mem_entriesOf.mpr finished) read terminal returned
  by_contra hKept
  rw [hKey] at hStored
  exact hDead r ⟨stored, hStored, by simpa using hKept⟩

/-- The update that records the new pod fails, and the next reconcile finds the
deadline exceeded. The cleanup then has no pod to look for. -/
def leakingRun : List Action :=
  .createJob sampleKey sampleSpec :: pass sampleKey [.read 0, .ok, .ok] ++
    pass sampleKey [.read 0, .ok, .ok, .ok, .fail "etcdserver: request timed out"] ++
    .setClock (700 * second) :: pass sampleKey [.read 0, .ok, .ok, .ok] ++
    pass sampleKey [.read 0, .ok, .ok]

/-- A reconcile that went through the cleanup and returned without an error. -/
def cleanedUp (entry : History × Outcome) : Bool :=
  (readJob entry.1).any (·.status.jobStatus.Terminal) && entry.2.2 = none

theorem cleanedUp_iff {entries : List (History × Outcome)} :
    entries.any cleanedUp = true ↔ ∃ history outcome job, (history, outcome) ∈ entries ∧
      readJob history = some job ∧ job.status.jobStatus.Terminal ∧ outcome.2 = none := by
  simp only [List.any_eq_true, cleanedUp, Bool.and_eq_true, Option.any_eq_true, decide_eq_true_eq]
  constructor
  · rintro ⟨⟨history, outcome⟩, hMem, ⟨job, hRead, hTerminal⟩, hNone⟩
    exact ⟨history, outcome, job, hMem, hRead, hTerminal, hNone⟩
  · rintro ⟨history, outcome, job, hMem, hRead, hTerminal, hNone⟩
    exact ⟨(history, outcome), hMem, ⟨job, hRead, hTerminal⟩, hNone⟩

theorem cleanup_leaks : ¬ ∀ (w : World) (key : NamespacedName) (history : History)
    (outcome : Outcome) (job : QuantumAerJob), Reaches step (Alone key) (Vacant key) w →
    (key, history, outcome) ∈ w.finished → readJob history = some job →
    job.status.jobStatus.Terminal → outcome.2 = none →
    ∀ pod stored, (key, .createPod pod) ∈ w.effects →
      (w.pods pod.key).current = some stored → stored.deletionRequested = true := by
  intro claim
  have hRun : (runActions step .empty leakingRun).isSome := by decide
  obtain ⟨w, hw⟩ := Option.isSome_iff_exists.mp hRun
  have hNobody : ∀ a ∈ leakingRun, a.placed.isNone := by decide
  have hReached : Reaches step (Alone sampleKey) (Vacant sampleKey) w :=
    (Reaches.start ⟨.empty, fun _ => rfl⟩).runActions
      (.of_forall fun a hMem _ => alone_of_isNone (hNobody a hMem)) hw
  have hLeft : (runActions step .empty leakingRun).map (fun w =>
      ((entriesOf sampleKey w.finished).any cleanedUp,
        (entriesOf sampleKey w.effects).any fun
          | .createPod pod => (w.pods pod.key).current.any (!·.deletionRequested)
          | _ => false)) = some (true, true) := by decide
  rw [hw, Option.map_some, Option.some.injEq, Prod.mk.injEq, cleanedUp_iff,
    List.any_eq_true] at hLeft
  obtain ⟨⟨history, outcome, job, hMem, hRead, hTerminal, hNone⟩, write, hEffect, hLive⟩ := hLeft
  cases write with
  | createPod pod =>
      obtain ⟨stored, hStored, hKept⟩ := (Option.any_eq_true _ _).mp hLive
      have hClaim := claim w sampleKey history outcome job hReached (mem_entriesOf.mp hMem) hRead
        hTerminal hNone pod stored (mem_entriesOf.mp hEffect) hStored
      simp [hClaim] at hKept
  | deletePod | deleteJob | updateStatus => cases hLive

/-- The run that completes the job, with the cleanup after it. -/
def cleanedRun : List Action :=
  completedRun ++ pass sampleKey [.read 0, .ok, .read 0, .ok, .ok]

theorem cleanup_complete_completed : ∃ w, runActions step .empty cleanedRun = some w ∧
    (entriesOf sampleKey w.finished).any cleanedUp = true ∧
    ∀ pod stored, (sampleKey, .createPod pod) ∈ w.effects →
      (w.pods pod.key).current = some stored → stored.deletionRequested = true := by
  have hRun : (runActions step .empty cleanedRun).isSome := by decide
  obtain ⟨w, hw⟩ := Option.isSome_iff_exists.mp hRun
  have hReached : Reaches step (fun w a => Alone sampleKey w a ∧ KeepsPods sampleKey w a)
      (Vacant sampleKey) w := by
    have hKept : Reaches step (fun w a => a.placed.isNone ∧ KeepsPods sampleKey w a)
        (Vacant sampleKey) w :=
      (Reaches.start ⟨.empty, fun _ => rfl⟩).runActions (by decide) hw
    exact hKept.mono (fun _ h => h) fun _ _ h => ⟨alone_of_isNone h.1, h.2⟩
  have hLeft : (runActions step .empty cleanedRun).map (fun w =>
      (entriesOf sampleKey w.finished).any cleanedUp) = some true := by decide
  rw [hw, Option.map_some, Option.some.injEq] at hLeft
  obtain ⟨history, outcome, job, hMem, hRead, hTerminal, hNone⟩ := cleanedUp_iff.mp hLeft
  exact ⟨w, hw, hLeft,
    cleanup_complete hReached (mem_entriesOf.mp hMem) hRead hTerminal hNone⟩

end World
end QuantumService.Cluster
