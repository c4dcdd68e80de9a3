import QuantumService.Cluster.Budget
import QuantumService.Interaction.Identity

/-! One pod for each attempt. While a job is moved to in progress only by a
reconcile that found its pod, the pods a stale read of an attempt can return are
versions of one pod, so that what is found failed or succeeded is the stored one. -/
namespace QuantumService.Cluster
open Interaction Controller World

/-- A status without the message, which simulators patch. -/
def core (job : Option QuantumAerJob) : Option QuantumAerJobStatus :=
  job.map fun job => { job.status with errorMessage := "" }

/-- Two versions with the same state and the same number of retries. -/
structure Alike (job other : QuantumAerJob) : Prop where
  state : job.status.jobStatus = other.status.jobStatus
  retries : job.status.retries = other.status.retries

theorem alike_of_core {job : QuantumAerJob} {value : Option QuantumAerJob}
    (h : core (some job) = core value) : ∃ other, value = some other ∧ Alike job other := by
  cases value with
  | none => cases h
  | some other =>
      have hStatus := Option.some.inj h
      have hState := congrArg QuantumAerJobStatus.jobStatus hStatus
      have hRetries := congrArg QuantumAerJobStatus.retries hStatus
      exact ⟨other, rfl, hState, hRetries⟩

/-- A lookup that failed without telling whether the pod exists. -/
def inconclusive : Event Call.Answer → Bool
  | ⟨.getPod _, .error err⟩ => err ≠ .notFound
  | _ => false

theorem inconclusive_of_unknown {history : History} {job : QuantumAerJob}
    (unknown : PodUnknown history job) : history.any inconclusive = true := by
  obtain ⟨-, err, hErr, hMem⟩ := unknown
  exact List.any_eq_true.mpr ⟨_, hMem, by simpa [inconclusive] using hErr⟩

namespace JobView
variable {key : NamespacedName} {v v' : JobView key}

/-- The answer by which a job is moved to in progress after an inconclusive
lookup of its pod. -/
def guesses (v : JobView key) (reply : Reply) : Bool :=
  match v.worker, v.job.current with
  | some ⟨history, .ask (.write (.updateStatus update)) _, _⟩, some stored =>
      update.status.jobStatus = .progress && history.any inconclusive &&
        (reply.applied && stored.resourceVersion = update.resourceVersion)
  | _, _ => false

theorem guesses_of_unknown {history : History} {job stored update : QuantumAerJob} {reply : Reply}
    {next : Except ApiError Unit → Reconciler Outcome}
    {path : Program.Path (reconcile key) history (.ask (.write (.updateStatus update)) next)}
    (waits : v.Waits history (.write (.updateStatus update)) next path)
    (present : v.job.current = some stored)
    (version : stored.resourceVersion = update.resourceVersion)
    (state : update.status.jobStatus = .progress) (unknown : PodUnknown history job)
    (applied : reply.applied = true) : v.guesses reply = true := by
  have hLooked := inconclusive_of_unknown unknown
  rw [Waits] at waits
  simp [guesses, waits, present, version, state, hLooked, applied]

/-- The pod of an attempt is live, and what can be read of it is that pod. -/
structure Settled (v : JobView key) (retries : Int32) : Prop where
  arrived : (v.pods retries).Arrived Pod.uid
  live : v.Live retries

/-- What a reconcile has learned from its pod lookup is still the oldest value. -/
structure Informed (v : JobView key) : Prop where
  found : ∀ {worker job q pod}, v.worker = some worker → readJob worker.history = some job →
    ⟨.getPod q, .ok pod⟩ ∈ worker.history → (v.pods job.status.retries).oldest = some pod
  absent : ∀ {worker job q}, v.worker = some worker → readJob worker.history = some job →
    ⟨.getPod q, .error .notFound⟩ ∈ worker.history → (v.pods job.status.retries).oldest = none

/-- The attempts of a job as its versions show them: no pod before it is pending,
one that arrives while it is pending, and the same one while it is in progress. -/
structure Steady (v : JobView key) : Prop where
  phased : v.job.Phased core
  uncreated : ¬ v.created → ∀ r, (v.pods r).Unused
  unstarted : ∀ {job}, v.job.current = some job → job.status.jobStatus = "" →
    ∀ r, (v.pods r).Unused
  ahead : ∀ {job r}, v.job.current = some job → job.status.retries < r → (v.pods r).Unused
  pending : ∀ {job}, some job ∈ v.job.visible → job.status.jobStatus = .pending →
    (v.pods job.status.retries).Unused ∨ v.Settled job.status.retries
  progress : ∀ {job}, some job ∈ v.job.visible → job.status.jobStatus = .progress →
    (v.pods job.status.retries).OneObject Pod.uid
  marked : ∀ {job other}, v.job.current = some job → job.status.jobStatus = .progress →
    some other ∈ v.job.visible → other.status.jobStatus = .pending → v.Live other.status.retries
  resumed : ∀ {job other}, v.job.current = some job → job.status.jobStatus = .pending →
    some other ∈ v.job.visible → other.status.jobStatus = .progress →
    other.status.retries = job.status.retries → (v.pods job.status.retries).Unused

/-- What a status written over a version of the job must respect. -/
structure Continues (v : JobView key) (job : QuantumAerJob) (status : QuantumAerJobStatus) :
    Prop where
  started : status.jobStatus ≠ ""
  number : status.retries = job.status.retries ∨ job.status.retries < status.retries
  pending : status.jobStatus = .pending →
    (v.pods status.retries).Unused ∨ v.Settled status.retries
  progress : status.jobStatus = .progress → (v.pods status.retries).OneObject Pod.uid
  marked : status.jobStatus = .progress → job.status.jobStatus = .pending →
    v.Live job.status.retries
  resumed : status.jobStatus = .pending → job.status.jobStatus = .progress →
    job.status.retries = status.retries → (v.pods status.retries).Unused

section Informed

theorem oldest_setPod (retries r : Int32) (value : Option Pod) :
    ((v.setPod retries value).pods r).oldest = (v.pods r).oldest := by
  by_cases hr : r = retries
  · subst hr
    rw [setPod_pods_self, Register.oldest_write]
  · rw [setPod_pods_of_ne v hr]

theorem Informed.setPod (informed : Informed v) (retries : Int32) (value : Option Pod) :
    Informed (v.setPod retries value) where
  found := by
    intro worker job q pod hBusy hRead hMem
    rw [oldest_setPod]
    exact informed.found hBusy hRead hMem
  absent := by
    intro worker job q hBusy hRead hMem
    rw [oldest_setPod]
    exact informed.absent hBusy hRead hMem

theorem Informed.setJob (informed : Informed v) (value : Option QuantumAerJob) :
    Informed (v.setJob value) :=
  { informed with }

theorem Informed.log (informed : Informed v) (write : Write) : Informed (v.log write) :=
  { informed with }

theorem Informed.resume (informed : Informed v) {history : History} {call : Call}
    {next : call.Answer → Reconciler Outcome}
    {path : Program.Path (reconcile key) history (.ask call next)} {answer : call.Answer}
    (waits : v.Waits history call next path)
    (job : ∀ req job, (⟨call, answer⟩ : Event Call.Answer) ≠ ⟨.getJob req, .ok job⟩)
    (pod : ∀ q pod, (⟨call, answer⟩ : Event Call.Answer) ≠ ⟨.getPod q, .ok pod⟩)
    (noPod : ∀ q, (⟨call, answer⟩ : Event Call.Answer) ≠ ⟨.getPod q, .error .notFound⟩) :
    Informed (v.resume path answer) where
  found := by
    rintro worker job' q pod' ⟨⟩ hRead hMem
    rcases List.mem_append.mp hMem with hOld | hNew
    · exact informed.found waits (readJob_extend job hRead) hOld
    · exact absurd (List.mem_singleton.mp hNew).symm (pod q pod')
  absent := by
    rintro worker job' q ⟨⟩ hRead hMem
    rcases List.mem_append.mp hMem with hOld | hNew
    · exact informed.absent waits (readJob_extend job hRead) hOld
    · exact absurd (List.mem_singleton.mp hNew).symm (noPod q)

/-- The one lookup of a reconcile tells it what the cache serves from then on. -/
theorem Informed.readPod {age : Nat} {job : QuantumAerJob} {value : Option Pod}
    {register : Register Pod} {history : History}
    {next : Except ApiError Pod → Reconciler Outcome}
    {path : Program.Path (reconcile key) history
      (.ask (.getPod (simulatorPodKey key job.status.retries)) next)}
    (held : readJob history = some job)
    (read : (v.pods job.status.retries).read age = some (value, register)) :
    Informed ((v.servePod job.status.retries register).resume path (served value)) := by
  have hFirst := (site_of_busy path).getPod_first
  have hHeld : ∀ {job'}, readJob (history ++ [⟨.getPod (simulatorPodKey key job.status.retries),
      served value⟩]) = some job' → job' = job := by
    intro job' hRead
    exact Option.some.inj (hRead.symm.trans (readJob_append held _))
  have hOldest : ((v.servePod job.status.retries register).pods job.status.retries).oldest =
      value := by
    rw [servePod_pods_self]
    exact Register.oldest_read read
  have hServed : ∀ {q answer}, (⟨.getPod q, answer⟩ : Event Call.Answer) ∈ history ++
      [⟨.getPod (simulatorPodKey key job.status.retries), served value⟩] →
      answer = served value := by
    intro q answer hMem
    rcases List.mem_append.mp hMem with hOld | hNew
    · exact absurd hOld (hFirst _ _)
    · cases List.mem_singleton.mp hNew
      rfl
  constructor
  · rintro worker job' q pod ⟨⟩ hRead hMem
    obtain rfl := hHeld hRead
    cases value with
    | none => cases hServed hMem
    | some stored =>
        cases hServed hMem
        exact hOldest
  · rintro worker job' q ⟨⟩ hRead hMem
    obtain rfl := hHeld hRead
    cases value with
    | none => exact hOldest
    | some stored => cases hServed hMem

theorem Informed.step (informed : Informed v) {a : Action} (h : Moves v a v') : Informed v' := by
  cases h with
  | elsewhere | setClock | create | patched => exact { informed with }
  | start idle =>
      constructor
      · rintro worker job q pod ⟨⟩ hRead
        cases hRead
      · rintro worker job q ⟨⟩ hRead
        cases hRead
  | readJob waits read =>
      constructor
      · rintro worker job q pod ⟨⟩ _ hMem
        cases List.mem_singleton.mp hMem
      · rintro worker job q ⟨⟩ _ hMem
        cases List.mem_singleton.mp hMem
  | readPod waits held read => exact .readPod held read
  | created waits held free reported =>
      apply ((informed.setPod _ _).log _).resume waits
      · rintro _ _ ⟨⟩
      · rintro _ _ ⟨⟩
      · rintro _ ⟨⟩
  | deleted waits held named present reported =>
      apply ((informed.setPod _ _).log _).resume waits
      · rintro _ _ ⟨⟩
      · rintro _ _ ⟨⟩
      · rintro _ ⟨⟩
  | expired waits held present reported =>
      apply ((informed.setJob _).log _).resume waits
      · rintro _ _ ⟨⟩
      · rintro _ _ ⟨⟩
      · rintro _ ⟨⟩
  | updated waits held present version reported =>
      apply ((informed.setJob _).log _).resume waits
      · rintro _ _ ⟨⟩
      · rintro _ _ ⟨⟩
      · rintro _ ⟨⟩
  | quiet waits uneventful ineffective =>
      exact informed.resume waits uneventful.job uneventful.pod uneventful.noPod
  | finish busy =>
      constructor
      · rintro worker job q pod ⟨⟩
      · rintro worker job q ⟨⟩
  | setPhase | createPod | removePod => exact informed.setPod _ _

end Informed

section Steady
variable {retries r : Int32} {value : Option Pod} {pod : Pod}

theorem not_live_of_unused (unused : (v.pods r).Unused) : ¬ v.Live r := by
  rintro ⟨pod, hCurrent, -⟩
  rw [unused.current] at hCurrent
  cases hCurrent

/-- A version that can be read is like the current or like the oldest one. -/
theorem Steady.alike (steady : Steady v) {job : QuantumAerJob}
    (mem : some job ∈ v.job.visible) :
    (∃ stored, v.job.current = some stored ∧ Alike job stored) ∨
      ∃ held, v.job.oldest = some held ∧ Alike job held :=
  (steady.phased.cases mem).imp alike_of_core alike_of_core

/-- A version in another state than the one a reconcile holds is like the stored
one. -/
theorem Steady.stored_alike (steady : Steady v) {job held : QuantumAerJob}
    (mem : some job ∈ v.job.visible) (oldest : v.job.oldest = some held)
    (state : job.status.jobStatus ≠ held.status.jobStatus) :
    ∃ stored, v.job.current = some stored ∧ Alike job stored := by
  rcases steady.alike mem with hStored | ⟨other, hOldest, hAlike⟩
  · exact hStored
  · rw [oldest, Option.some.injEq] at hOldest
    subst hOldest
    exact absurd hAlike.state state

/-- Other values of the pods, and the rest of the view as it is. -/
theorem Steady.pods (steady : Steady v) {pods : Int32 → Register Pod} {next : Nat}
    (unused : ∀ r, (v.pods r).Unused → (pods r).Unused)
    (one : ∀ r, (v.pods r).OneObject Pod.uid → (pods r).OneObject Pod.uid)
    (settled : ∀ job, some job ∈ v.job.visible → job.status.jobStatus = .pending →
      v.Settled job.status.retries →
      Settled { v with pods := pods, next := next } job.status.retries) :
    Steady { v with pods := pods, next := next } where
  phased := steady.phased
  uncreated := fun hFresh r => unused r (steady.uncreated hFresh r)
  unstarted := fun hStored hState r => unused r (steady.unstarted hStored hState r)
  ahead := fun hStored hLess => unused _ (steady.ahead hStored hLess)
  pending := by
    intro job hMem hState
    exact (steady.pending hMem hState).imp (unused _) (settled job hMem hState)
  progress := fun hMem hState => one _ (steady.progress hMem hState)
  marked := by
    intro job other hStored hState hMem hPending
    have hLive := steady.marked hStored hState hMem hPending
    rcases steady.pending hMem hPending with hUnused | hSettled
    · exact absurd hLive (not_live_of_unused hUnused)
    · exact (settled other hMem hPending hSettled).live
  resumed := fun hStored hState hMem hProgress hSame =>
    unused _ (steady.resumed hStored hState hMem hProgress hSame)

theorem unused_setPod (present : (v.pods retries).current = some pod)
    (unused : (v.pods r).Unused) : ((v.setPod retries value).pods r).Unused := by
  by_cases hr : r = retries
  · subst hr
    rw [unused.current] at present
    cases present
  · rw [setPod_pods_of_ne v hr]
    exact unused

/-- Another value of the pod of one attempt. -/
theorem Steady.setPod (steady : Steady v) (present : (v.pods retries).current = some pod)
    (one : (v.pods retries).OneObject Pod.uid →
      ((v.pods retries).write value).OneObject Pod.uid)
    (settled : ∀ job, some job ∈ v.job.visible → job.status.jobStatus = .pending →
      job.status.retries = retries → v.Settled retries → (v.setPod retries value).Settled retries) :
    Steady (v.setPod retries value) := by
  apply steady.pods
  · intro r
    exact unused_setPod present
  · intro r hOne
    by_cases hr : r = retries
    · subst hr
      rw [Function.update_self]
      exact one hOne
    · rw [Function.update_of_ne hr]
      exact hOne
  · intro job hMem hState hSettled
    by_cases hr : job.status.retries = retries
    · rw [hr] at hSettled ⊢
      exact settled job hMem hState hr hSettled
    · obtain ⟨hArrived, hLive⟩ := hSettled
      rw [← setPod_pods_of_ne v hr value] at hArrived
      exact ⟨hArrived, (live_setPod_of_ne hr).mpr hLive⟩

theorem Steady.servePod (steady : Steady v) {age : Nat} {register : Register Pod}
    (read : (v.pods retries).read age = some (value, register)) :
    Steady (v.servePod retries register) := by
  have hKept : ∀ inv : Register Pod → Prop, (inv (v.pods retries) → inv register) →
      ∀ r, inv (v.pods r) → inv ((v.servePod retries register).pods r) := by
    intro inv hRead r hr
    by_cases hSame : r = retries
    · subst hSame
      rw [servePod_pods_self]
      exact hRead hr
    · rw [servePod_pods_of_ne v hSame]
      exact hr
  apply steady.pods
  · intro r
    exact hKept Register.Unused (fun hUnused => hUnused.read read) r
  · intro r
    exact hKept (Register.OneObject Pod.uid) (fun hOne => hOne.read read) r
  · intro job hMem hState hSettled
    constructor
    · exact hKept (Register.Arrived Pod.uid) (fun h => h.read read) _ hSettled.arrived
    · exact (live_servePod read).mpr hSettled.live

/-- The pod a reconcile creates is the first of its attempt. -/
theorem Steady.create (steady : Steady v) (sound : Sound v) {worker : Worker key}
    {job : QuantumAerJob} (busy : v.worker = some worker)
    (held : readJob worker.history = some job) (state : job.status.jobStatus = .pending)
    (free : (v.pods job.status.retries).current = none) (pod : Pod)
    (live : pod.deletionRequested = false) :
    Steady (v.setPod job.status.retries (some pod)) := by
  have hOldest := sound.held busy held
  have hMem := sound.held_visible busy held
  have hFree : ¬ v.Live job.status.retries := by
    rintro ⟨stored, hStored, -⟩
    rw [free] at hStored
    cases hStored
  have hUnused : (v.pods job.status.retries).Unused :=
    (steady.pending hMem state).resolve_right fun hSettled => hFree hSettled.live
  have hSettled : (v.setPod job.status.retries (some pod)).Settled job.status.retries := by
    constructor
    · rw [setPod_pods_self]
      exact hUnused.arrived_write pod
    · exact ⟨pod, by simp, live⟩
  -- a version in progress would be the stored one, and then the pod would be there
  have hPending : ∀ {other}, some other ∈ v.job.visible → other.status.jobStatus ≠ .progress := by
    intro other hOther hProgress
    obtain ⟨stored, hStored, hAlike⟩ :=
      steady.stored_alike hOther hOldest (by rw [hProgress, state]; simp)
    exact hFree (steady.marked hStored (hAlike.state.symm.trans hProgress) hMem state)
  have hNumber : ∀ {stored}, v.job.current = some stored →
      stored.status.retries = job.status.retries ∧ stored.status.jobStatus ≠ "" := by
    intro stored hStored
    rcases sound.versions.newer_of_held hOldest (hStored ▸ v.job.current_mem_visible) with
      rfl | hSucceeds
    · exact ⟨rfl, by simp [state]⟩
    · exact ⟨hSucceeds.retries_of_pending state, hSucceeds.started (by simp [state])⟩
  have hOther : ∀ {r}, r ≠ job.status.retries →
      (v.setPod job.status.retries (some pod)).pods r = v.pods r :=
    fun hr => setPod_pods_of_ne v hr _
  exact {
    phased := steady.phased
    uncreated := fun hFresh => absurd (sound.versions.created_of_stored hMem) hFresh
    unstarted := fun hStored hNew => absurd hNew (hNumber hStored).2
    ahead := by
      intro stored r hStored hLess
      rw [(hNumber hStored).1] at hLess
      rw [hOther (Int32.ne_of_lt hLess).symm]
      exact steady.ahead hStored ((hNumber hStored).1 ▸ hLess)
    pending := by
      intro other hMem' hState
      by_cases hr : other.status.retries = job.status.retries
      · rw [hr]
        exact .inr hSettled
      · rw [hOther hr]
        refine (steady.pending hMem' hState).imp id fun hBefore => ⟨?_, ?_⟩
        · rw [hOther hr]
          exact hBefore.arrived
        · exact (live_setPod_of_ne hr).mpr hBefore.live
    progress := fun hMem' hState => absurd hState (hPending hMem')
    marked := fun hStored hState => absurd hState (hPending (hStored ▸ v.job.current_mem_visible))
    resumed := fun _ _ hMem' hProgress => absurd hProgress (hPending hMem') }

/-- A reconcile stores the next version of the one it has read. -/
theorem Steady.advance (steady : Steady v) {job : QuantumAerJob} {status : QuantumAerJobStatus}
    (visible : v.job.visible = [some job]) (continues : v.Continues job status.stored)
    (version : Nat) :
    Steady { v.setJob (some { job with status := status.stored, resourceVersion := version }) with
      created := True } := by
  have hCurrent : v.job.current = some job := by
    have hHead : v.job.visible.head? = some v.job.current := rfl
    rw [visible] at hHead
    exact (Option.some.inj hHead).symm
  have hOldest : v.job.oldest = some job := by
    have hLast := v.job.getLast?_visible
    rw [visible] at hLast
    exact (Option.some.inj hLast).symm
  have hHeld : some job ∈ v.job.visible := hCurrent ▸ v.job.current_mem_visible
  have hOnly : ∀ {other}, some other ∈ (v.job.write (some
      { job with status := status.stored, resourceVersion := version })).visible →
      other.status = status.stored ∨ other = job := by
    intro other hMem
    rw [Register.visible_write, visible, List.mem_cons, List.mem_singleton] at hMem
    rcases hMem with hNew | hOld
    · exact .inl (congrArg QuantumAerJob.status (Option.some.inj hNew))
    · exact .inr (Option.some.inj hOld)
  exact {
    phased := steady.phased.write (by rw [hCurrent, hOldest]) _
    uncreated := fun hFresh => absurd trivial hFresh
    unstarted := by
      rintro _ ⟨⟩ hState
      exact absurd hState continues.started
    ahead := by
      rintro _ r ⟨⟩ hLess
      apply steady.ahead hCurrent
      rcases continues.number with hSame | hMore
      · rw [← hSame]
        exact hLess
      · exact Int32.lt_trans hMore hLess
    pending := by
      intro other hMem hState
      rcases hOnly hMem with hNew | rfl
      · rw [hNew] at hState ⊢
        exact (continues.pending hState).imp id fun h => ⟨h.arrived, h.live⟩
      · exact (steady.pending hHeld hState).imp id fun h => ⟨h.arrived, h.live⟩
    progress := by
      intro other hMem hState
      rcases hOnly hMem with hNew | rfl
      · rw [hNew] at hState ⊢
        exact continues.progress hState
      · exact steady.progress hHeld hState
    marked := by
      rintro _ other ⟨⟩ hState hMem hPending
      rcases hOnly hMem with hNew | rfl
      · rw [hNew] at hPending
        exact absurd (hPending.symm.trans hState) JobState.pending_ne_progress
      · exact continues.marked hState hPending
    resumed := by
      rintro _ other ⟨⟩ hState hMem hProgress hSame
      rcases hOnly hMem with hNew | rfl
      · rw [hNew] at hProgress
        exact absurd (hProgress.symm.trans hState) JobState.progress_ne_pending
      · exact continues.resumed hState hProgress hSame }

/-- The versions of a job that is created were none, and its attempts unused. -/
theorem Steady.born (steady : Steady v) (sound : Sound v) (fresh : ¬ v.created)
    {job : QuantumAerJob} (state : job.status = .empty) :
    Steady { v.setJob (some job) with created := True } := by
  have hVisible := sound.versions.uncreated fresh
  have hUnused := steady.uncreated fresh
  have hOnly : ∀ {other}, some other ∈ (v.job.write (some job)).visible →
      other.status = .empty := by
    intro other hMem
    rw [Register.visible_write, hVisible] at hMem
    have hSame : other = job := by simpa using hMem
    rw [hSame, state]
  have hNew : ∀ {other}, some other ∈ (v.job.write (some job)).visible →
      other.status.jobStatus ≠ .pending ∧ other.status.jobStatus ≠ .progress := by
    intro other hMem
    rw [hOnly hMem]
    decide
  have hSettled : v.job.current = none ∧ v.job.oldest = none := by
    have hHead : v.job.visible.head? = some v.job.current := rfl
    have hLast := v.job.getLast?_visible
    rw [hVisible] at hHead hLast
    exact ⟨(Option.some.inj hHead).symm, (Option.some.inj hLast).symm⟩
  exact {
    phased := steady.phased.write (by rw [hSettled.1, hSettled.2]) _
    uncreated := fun hFresh => absurd trivial hFresh
    unstarted := fun _ _ => hUnused
    ahead := fun _ _ => hUnused _
    pending := fun hMem hState => absurd hState (hNew hMem).1
    progress := fun hMem hState => absurd hState (hNew hMem).2
    marked := fun _ _ hMem hState => absurd hState (hNew hMem).1
    resumed := fun _ _ hMem hState => absurd hState (hNew hMem).2 }

/-- Another message changes nothing an attempt depends on. -/
theorem Steady.patched (steady : Steady v) {stored job : QuantumAerJob}
    (present : v.job.current = some stored) (same : core (some job) = core (some stored)) :
    Steady (v.setJob (some job)) := by
  obtain ⟨_, ⟨⟩, hAlike⟩ := alike_of_core same
  have hStored : some stored ∈ v.job.visible := present ▸ v.job.current_mem_visible
  have hLike : ∀ {other}, some other ∈ (v.job.write (some job)).visible →
      ∃ before, some before ∈ v.job.visible ∧ Alike other before := by
    intro other hMem
    rcases List.mem_cons.mp hMem with hNew | hOld
    · rw [Option.some.inj hNew]
      exact ⟨stored, hStored, hAlike⟩
    · exact ⟨other, hOld, rfl, rfl⟩
  exact {
    phased := steady.phased.write_same (by rw [same, present])
    uncreated := steady.uncreated
    unstarted := by
      rintro _ ⟨⟩ hState
      exact steady.unstarted present (hAlike.state.symm.trans hState)
    ahead := by
      rintro _ r ⟨⟩ hLess
      rw [hAlike.retries] at hLess
      exact steady.ahead present hLess
    pending := by
      intro other hMem hState
      obtain ⟨before, hBefore, hSame⟩ := hLike hMem
      rw [hSame.retries]
      exact (steady.pending hBefore (hSame.state.symm.trans hState)).imp id
        fun h => ⟨h.arrived, h.live⟩
    progress := by
      intro other hMem hState
      obtain ⟨before, hBefore, hSame⟩ := hLike hMem
      rw [hSame.retries]
      exact steady.progress hBefore (hSame.state.symm.trans hState)
    marked := by
      rintro _ other ⟨⟩ hState hMem hPending
      obtain ⟨before, hBefore, hSame⟩ := hLike hMem
      rw [hSame.retries]
      exact steady.marked present (hAlike.state.symm.trans hState) hBefore
        (hSame.state.symm.trans hPending)
    resumed := by
      rintro _ other ⟨⟩ hState hMem hProgress hNumber
      obtain ⟨before, hBefore, hSame⟩ := hLike hMem
      rw [hSame.retries, hAlike.retries] at hNumber
      rw [hAlike.retries]
      exact steady.resumed present (hAlike.state.symm.trans hState) hBefore
        (hSame.state.symm.trans hProgress) hNumber }

/-- A reconcile that deletes a pod holds a version of its attempt that is no
longer pending, and there is no other version that still is. -/
theorem Steady.not_pending_of_delete (steady : Steady v) (sound : Sound v) {history : History}
    {next : Except ApiError Unit → Reconciler Outcome} {job other : QuantumAerJob}
    {path : Program.Path (reconcile key) history (.ask (.write (.deletePod pod)) next)}
    (waits : v.Waits history (.write (.deletePod pod)) next path)
    (held : readJob history = some job) (mem : some other ∈ v.job.visible)
    (state : other.status.jobStatus = .pending)
    (number : other.status.retries = job.status.retries) : ¬ v.Settled job.status.retries := by
  obtain ⟨job', hRead, -, hActive⟩ := (site_of_busy path).deletePod_inv
  obtain rfl := Option.some.inj (held.symm.trans hRead)
  have hOldest := sound.held waits held
  rcases hActive with ⟨hProgress, -⟩ | hTerminal
  · obtain ⟨stored, hStored, hAlike⟩ :=
      steady.stored_alike mem hOldest (by rw [state, hProgress]; simp)
    have hNumber : job.status.retries = stored.status.retries := number.symm.trans hAlike.retries
    have hUnused := steady.resumed hStored (hAlike.state.symm.trans state)
      (sound.held_visible waits held) hProgress hNumber
    rw [← hNumber] at hUnused
    exact fun hSettled => not_live_of_unused hUnused hSettled.live
  · have hOther : other.status.jobStatus.Terminal := by
      rcases sound.versions.newer_of_held hOldest mem with rfl | hSucceeds
      · exact hTerminal
      · exact hSucceeds.terminal hTerminal
    rw [state] at hOther
    exact absurd hOther JobState.not_terminal_pending

/-- The controller's status updates, unless one was made on a guess. -/
theorem Steady.continues (steady : Steady v) (sound : Sound v) (informed : Informed v)
    {worker : Worker key} {job : QuantumAerJob} {status : QuantumAerJobStatus}
    (busy : v.worker = some worker) (held : readJob worker.history = some job)
    (present : v.job.current = some job) (reason : StatusWrite worker.history job status)
    (sure : ¬ (status.jobStatus = .progress ∧ PodUnknown worker.history job)) :
    v.Continues job status.stored := by
  have hMem := sound.held_visible busy held
  have hOk := sound.versions.ok hMem
  cases reason with
  | timedOut | giveUp | succeed =>
      exact {
        started := by simp [QuantumAerJobStatus.stored]
        number := .inl rfl
        pending := by simp [QuantumAerJobStatus.stored]
        progress := by simp [QuantumAerJobStatus.stored]
        marked := by simp [QuantumAerJobStatus.stored]
        resumed := by simp [QuantumAerJobStatus.stored] }
  | begin checked state clock =>
      have hUnused := steady.unstarted present state
      exact {
        started := JobState.pending_ne_new
        number := .inl (hOk.untried state).1.symm
        pending := fun _ => .inl (hUnused _)
        progress := fun hState => absurd hState JobState.pending_ne_progress
        marked := fun hState => absurd hState JobState.pending_ne_progress
        resumed := fun _ _ _ => hUnused _ }
  | recordPod checked state absent placed =>
      have hState : ∀ {other : JobState}, job.status.jobStatus = other → other = .pending :=
        fun hOther => hOther.symm.trans state
      exact {
        started := fun hNew => absurd (hState hNew) JobState.pending_ne_new.symm
        number := .inl rfl
        pending := fun _ => steady.pending hMem state
        progress := fun hProgress => absurd (hState hProgress) JobState.progress_ne_pending
        marked := fun hProgress => absurd (hState hProgress) JobState.progress_ne_pending
        resumed := fun _ hProgress => absurd (hState hProgress) JobState.progress_ne_pending }
  | markProgress checked state seen =>
      obtain ⟨pod, hFound⟩ := seen.resolve_right fun hUnknown => sure ⟨rfl, hUnknown⟩
      have hOldest := informed.found busy held hFound.2
      have hUsed : ¬ (v.pods job.status.retries).Unused := by
        intro hUnused
        rw [hUnused.oldest] at hOldest
        cases hOldest
      have hSettled := (steady.pending hMem state).resolve_left hUsed
      exact {
        started := JobState.progress_ne_new
        number := .inl rfl
        pending := fun hState => absurd hState JobState.progress_ne_pending
        progress := fun _ => hSettled.arrived.oneObject hOldest
        marked := fun _ _ => hSettled.live
        resumed := fun hState => absurd hState JobState.progress_ne_pending }
  | backToPending checked state absent untouched =>
      have hAbsent := absent.resolve_left (hOk.running state)
      have hUnused := (steady.progress hMem state).unused (informed.absent busy held hAbsent)
      exact {
        started := JobState.pending_ne_new
        number := .inl rfl
        pending := fun _ => .inl hUnused
        progress := fun hState => absurd hState JobState.pending_ne_progress
        marked := fun hState => absurd hState JobState.pending_ne_progress
        resumed := fun _ _ _ => hUnused }
  | retry checked state found phase left deleted =>
      have hLess := lt_add_one_of_lt left
      exact {
        started := JobState.pending_ne_new
        number := .inr hLess
        pending := fun _ => .inl (steady.ahead present hLess)
        progress := fun hState => absurd hState JobState.pending_ne_progress
        marked := fun hState => absurd hState JobState.pending_ne_progress
        resumed := fun _ _ hSame => absurd hSame (Int32.ne_of_lt hLess) }

/-- Only a terminal job is deleted, and all its versions are alike. -/
theorem Steady.expire (steady : Steady v) (sound : Sound v) {worker : Worker key}
    {job stored : QuantumAerJob} (busy : v.worker = some worker)
    (held : readJob worker.history = some job) (terminal : job.status.jobStatus.Terminal)
    (present : v.job.current = some stored) : Steady (v.setJob none) := by
  have hOldest := sound.held busy held
  have hSame : core v.job.current = core v.job.oldest := by
    rw [present, hOldest]
    rcases sound.versions.newer_of_held hOldest (present ▸ v.job.current_mem_visible) with
      rfl | hSucceeds
    · rfl
    · rw [core, Option.map_some, hSucceeds.of_terminal terminal]
      rfl
  have hOld : ∀ {other}, some other ∈ (v.job.write none).visible →
      some other ∈ v.job.visible := by
    intro other hMem
    rcases List.mem_cons.mp hMem with hNew | hBefore
    · cases hNew
    · exact hBefore
  exact {
    phased := steady.phased.write hSame none
    uncreated := steady.uncreated
    unstarted := by rintro _ ⟨⟩
    ahead := by rintro _ _ ⟨⟩
    pending := fun hMem hState =>
      (steady.pending (hOld hMem) hState).imp id fun h => ⟨h.arrived, h.live⟩
    progress := fun hMem => steady.progress (hOld hMem)
    marked := by rintro _ _ ⟨⟩
    resumed := by rintro _ _ ⟨⟩ }

theorem Steady.log (steady : Steady v) (write : Write) : Steady (v.log write) :=
  { steady with
    pending := fun hMem hState => (steady.pending hMem hState).imp id fun h => ⟨h.arrived, h.live⟩ }

theorem Steady.setWorker (steady : Steady v) (worker : Option (Worker key)) :
    Steady (v.setWorker worker) :=
  { steady with
    pending := fun hMem hState => (steady.pending hMem hState).imp id fun h => ⟨h.arrived, h.live⟩ }

theorem Steady.step (steady : Steady v) (sound : Sound v) (informed : Informed v) {a : Action}
    (alone : ∀ pod, a = .createPod pod → ∀ r, pod.key ≠ simulatorPodKey key r)
    (removed : ∀ r pod, a = .removePod (simulatorPodKey key r) →
      (v.pods r).current = some pod → pod.deletionRequested = true)
    (sure : ∀ reply, a = .answer key reply → v.guesses reply = false)
    (h : Moves v a v') : Steady v' := by
  cases h with
  | elsewhere later => exact steady.pods (fun _ h => h) (fun _ h => h) fun _ _ _ h => ⟨h.1, h.2⟩
  | setClock =>
      exact { steady with
        pending := fun hMem hState =>
          (steady.pending hMem hState).imp id fun h => ⟨h.arrived, h.live⟩ }
  | create fresh => exact steady.born sound fresh rfl
  | start idle => exact steady.setWorker _
  | @readJob age value register next path waits read =>
      have hVisible : ∀ {x}, x ∈ register.visible → x ∈ v.job.visible :=
        Register.visible_subset_of_read read
      have hCurrent := Register.current_read read
      exact {
        phased := steady.phased.read read
        uncreated := steady.uncreated
        unstarted := fun hStored => steady.unstarted (hCurrent.symm.trans hStored)
        ahead := fun hStored => steady.ahead (hCurrent.symm.trans hStored)
        pending := fun hMem hState =>
          (steady.pending (hVisible hMem) hState).imp id fun h => ⟨h.arrived, h.live⟩
        progress := fun hMem => steady.progress (hVisible hMem)
        marked := fun hStored hState hMem =>
          steady.marked (hCurrent.symm.trans hStored) hState (hVisible hMem)
        resumed := fun hStored hState hMem =>
          steady.resumed (hCurrent.symm.trans hStored) hState (hVisible hMem) }
  | readPod waits held read => exact (steady.servePod read).setWorker _
  | @created job history next reply answer path waits held free reported =>
      obtain ⟨job', hRead, hState, -, -⟩ := (site_of_busy path).createPod_inv
      obtain rfl : job = job' := Option.some.inj (held.symm.trans hRead)
      have hPods := steady.create sound waits held hState free
        { simulatorPod job with uid := v.next, phase := .pending } rfl
      exact (hPods.log _).setWorker _
  | @deleted job pod stored history next reply answer path waits held named present reported =>
      have hPods : Steady (v.setPod job.status.retries
          (some { stored with deletionRequested := true })) := by
        apply steady.setPod present
        · exact fun hOne => hOne.write present rfl
        · intro other hMem hState hNumber hSettled
          exact absurd hSettled (steady.not_pending_of_delete sound waits held hMem hState hNumber)
      exact (hPods.log _).setWorker _
  | @expired job stored history next reply answer path waits held present reported =>
      have hTerminal := (site_of_busy path).deleteJob_inv.2
      exact ((steady.expire sound waits held hTerminal present).log _).setWorker _
  | @updated job stored status history next reply answer path waits held present version
      reported =>
      obtain ⟨rfl, hVisible⟩ :=
        sound.versions.eq_of_version (sound.held waits held) present version
      have hSure : ¬ (status.jobStatus = .progress ∧ PodUnknown history stored) := by
        rintro ⟨hState, hUnknown⟩
        have hGuess := guesses_of_unknown waits present rfl hState hUnknown reported.applied
        rw [sure reply rfl] at hGuess
        cases hGuess
      have hReason := (site_of_busy path).reason held
      have hContinues := steady.continues sound informed waits held present hReason hSure
      have hJob := steady.advance hVisible hContinues v.next
      rw [← eq_true (sound.versions.created_of_stored (sound.held_visible waits held))] at hJob
      exact (hJob.log _).setWorker _
  | quiet waits uneventful ineffective => exact steady.setWorker _
  | finish busy =>
      exact { steady with
        pending := fun hMem hState =>
          (steady.pending hMem hState).imp id fun h => ⟨h.arrived, h.live⟩ }
  | @patched message stored present => exact steady.patched present rfl
  | @setPhase retries phase pod present =>
      apply steady.setPod present
      · exact fun hOne => hOne.write present rfl
      · intro other hMem hState hNumber hSettled
        constructor
        · rw [setPod_pods_self]
          exact hSettled.arrived.write present rfl
        · obtain ⟨pod', hStored, hLive⟩ := hSettled.live
          rw [present, Option.some.injEq] at hStored
          subst hStored
          exact ⟨{ pod with phase := phase }, by simp, hLive⟩
  | createPod named free => exact absurd named (alone _ rfl _)
  | @removePod retries pod present =>
      apply steady.setPod present
      · exact fun hOne => hOne.write_none
      · intro other hMem hState hNumber hSettled
        obtain ⟨pod', hStored, hLive⟩ := hSettled.live
        rw [removed retries pod' rfl hStored] at hLive
        cases hLive

/-- What can be read of the attempt of an active job is one pod. -/
theorem Steady.same_pod (steady : Steady v) (sound : Sound v) {job : QuantumAerJob} {x y : Pod}
    (present : v.job.current = some job) (active : ¬ job.status.jobStatus.Terminal)
    (hx : some x ∈ (v.pods job.status.retries).visible)
    (hy : some y ∈ (v.pods job.status.retries).visible) : x.uid = y.uid := by
  have hMem : some job ∈ v.job.visible := present ▸ v.job.current_mem_visible
  rcases (sound.versions.ok hMem).state with hNew | hPending | hProgress | hDone
  · exact absurd hx (steady.unstarted present hNew _ x)
  · rcases steady.pending hMem hPending with hUnused | hSettled
    · exact absurd hx (hUnused x)
    · exact hSettled.arrived.same hx hy
  · exact (steady.progress hMem hProgress).same hx hy
  · exact absurd hDone active

end Steady
end JobView

namespace World
variable {w : World} {key : NamespacedName}

/-- The job's pods are its controller's, which deletes them, and no reconcile
moves the job to in progress on a guess. -/
structure Cautious (key : NamespacedName) (w : World) (a : Action) : Prop where
  alone : Alone key w a
  removes : RemovesOwn key w a
  sure : ∀ reply, a = .answer key reply → (w.view key).guesses reply = false

/-- A cluster in which the names of the job's attempts were never used. -/
structure Unused (key : NamespacedName) (w : World) : Prop where
  initial : Initial w
  unused : ∀ r, (w.pods (simulatorPodKey key r)).Unused

theorem Unused.vacant (unused : Unused key w) : Vacant key w :=
  ⟨unused.initial, fun r => (unused.unused r).current⟩

theorem informed_of_initial (initial : Initial w) (key : NamespacedName) :
    (w.view key).Informed := by
  have hIdle : (w.view key).worker = none := initial.idle key
  constructor
  · intro worker job q pod hBusy
    rw [hIdle] at hBusy
    cases hBusy
  · intro worker job q hBusy
    rw [hIdle] at hBusy
    cases hBusy

theorem informed_of_reaches {allowed : World → Action → Prop}
    (run : Reaches step allowed Initial w) (key : NamespacedName) : (w.view key).Informed := by
  apply view_invariant _ (fun _ h => h) (fun _ initial => informed_of_initial initial key) _ run
  intro s a v' sound informed permitted moves
  exact informed.step moves

theorem steady_of_unused (unused : Unused key w) : (w.view key).Steady := by
  have hJob : (w.view key).job = .synced none := unused.initial.jobs key
  have hNone : ∀ {job}, some job ∉ (w.view key).job.visible := by simp [hJob]
  have hCurrent : ∀ {job}, (w.view key).job.current ≠ some job := by simp [hJob, Register.synced]
  exact {
    phased := by
      rw [hJob]
      exact Register.phased_synced none
    uncreated := fun _ => unused.unused
    unstarted := fun hStored => absurd hStored hCurrent
    ahead := fun hStored => absurd hStored hCurrent
    pending := fun hMem => absurd hMem hNone
    progress := fun hMem => absurd hMem hNone
    marked := fun hStored => absurd hStored hCurrent
    resumed := fun hStored => absurd hStored hCurrent }

/-- One pod for each attempt, in every run in which no reconcile guesses. -/
theorem steady_of_reaches (run : Reaches step (Cautious key) (Unused key) w) :
    (w.view key).Steady := by
  have hSteady : (w.view key).Informed ∧ (w.view key).Steady := by
    apply view_invariant (fun v => v.Informed ∧ v.Steady) (fun _ h => h.initial) _ _ run
    · intro s unused
      exact ⟨informed_of_initial unused.initial key, steady_of_unused unused⟩
    · intro s a v' sound steady cautious moves
      refine ⟨steady.1.step moves, steady.2.step sound steady.1 ?_ ?_ cautious.sure moves⟩
      · intro pod hAction r
        rw [hAction] at cautious
        exact cautious.alone pod rfl r
      · intro r pod hAction hStored
        exact cautious.removes r hAction pod hStored
  exact hSteady.2

end World
end QuantumService.Cluster
