import QuantumService.Cluster.Debt

/-! What a reconcile knows while its calls are answered from the current state and nobody
else creates the pods of its job. Until it has updated the status, what it has heard of an
unfinished job stays true. -/
namespace QuantumService.Cluster
open Interaction Controller World

namespace JobView
variable {key : NamespacedName} {v v' : JobView key}

/-- A move while the calls for the job are served and nobody else creates its pods. -/
structure Attended (v : JobView key) (a : Action) (v' : JobView key) : Prop where
  smooth : ∀ worker, v'.worker = some worker → Smooth worker.history
  current : ∀ age, a = .answer key (.read age) → age = 0
  alone : ∀ pod r, a = .createPod pod → pod.key ≠ simulatorPodKey key r
  taken : ∀ {history pod next r}
    {path : Program.Path (reconcile key) history (.ask (.write (.createPod pod)) next)},
    v.Waits history (.write (.createPod pod)) next path →
      v'.worker = some (@Worker.extend key history (.write (.createPod pod)) next path
        (.error .alreadyExists)) → pod.key = simulatorPodKey key r → ¬ v.Missing r

/-- What a reconcile has heard of an unfinished job is true. -/
structure InTouch (v : JobView key) (h : History) (job : QuantumAerJob) : Prop where
  superseded : Updated h → ∀ stored, v.job.current = some stored →
    job.resourceVersion < stored.resourceVersion
  unchanged : ¬ Updated h → v.Unchanged job
  vacant : Misses h job → Provided h ∨ v.Missing job.status.retries

def Abreast (v : JobView key) : Prop :=
  ∀ worker job, v.worker = some worker → readJob worker.history = some job →
    Unfinished job → v.InTouch worker.history job

theorem Attended.answered {a : Action} {s : JobView key} {history : History} {call : Call}
    {next : call.Answer → Reconciler Outcome}
    {path : Program.Path (reconcile key) history (.ask call next)} {answer : call.Answer}
    (attended : Attended v a (s.resume path answer)) :
    Controller.smooth ⟨call, answer⟩ = true :=
  attended.smooth _ rfl _ (last_mem _)

/-- The answer to a status update that took effect. -/
theorem ok_of_smooth {update : QuantumAerJob} {answer : Except ApiError Unit}
    (last : smooth ⟨.write (.updateStatus update), answer⟩ = true) : answer = .ok () := by
  cases answer with
  | ok => rfl
  | error err => cases last

/-- The answer to a creation that took effect. -/
theorem ok_of_reported {pod : Pod} {reply : Reply} {answer : Except ApiError Unit}
    (reported : Reported reply answer)
    (last : smooth ⟨.write (.createPod pod), answer⟩ = true) : answer = .ok () := by
  cases reported with
  | ok => rfl
  | lost => cases last

namespace Abreast
variable {history : History} {call : Call} {next : call.Answer → Reconciler Outcome}
  {path : Program.Path (reconcile key) history (.ask call next)} {answer : call.Answer}

/-- A move that takes no call of the reconcile. -/
theorem keep (abreast : Abreast v) (worker : v'.worker = v.worker)
    (touch : ∀ worker job, v.worker = some worker → readJob worker.history = some job →
      v.InTouch worker.history job → v'.InTouch worker.history job) : Abreast v' := by
  intro worker' job hBusy hRead hUnfinished
  rw [worker] at hBusy
  exact touch _ _ hBusy hRead (abreast _ _ hBusy hRead hUnfinished)

/-- A move of the pods, none of which appears. -/
theorem keep_pods (abreast : Abreast v) (worker : v'.worker = v.worker)
    (job : v'.job = v.job) (missing : ∀ r, v.Missing r → v'.Missing r) : Abreast v' := by
  refine abreast.keep worker fun worker held _ _ touch => ?_
  exact {
    superseded := by
      rw [job]
      exact touch.superseded
    unchanged := by
      unfold Unchanged
      rw [job]
      exact touch.unchanged
    vacant := fun hMisses => (touch.vacant hMisses).imp id (missing _) }

/-- An answer to another call than a status update. -/
theorem resume (abreast : Abreast v) (waits : v.Waits history call next path)
    (current : v'.job.current = v.job.current)
    (job : ∀ req job, (⟨call, answer⟩ : Event Call.Answer) ≠ ⟨.getJob req, .ok job⟩)
    (other : isUpdated ⟨call, answer⟩ = false)
    (vacant : ∀ job, readJob history = some job →
      missingPod ⟨call, answer⟩ = true ∨ v.Missing job.status.retries →
        placedPod ⟨call, answer⟩ = true ∨ v'.Missing job.status.retries) :
    Abreast (v'.resume path answer) := by
  rintro worker job' ⟨⟩ hRead hUnfinished
  have hHeld := readJob_extend job hRead
  have hTouch := abreast _ _ waits hHeld hUnfinished
  have hUpdated : Updated (history ++ [⟨call, answer⟩]) ↔ Updated history :=
    updated_snoc_iff other
  constructor
  · intro hNow
    have hBefore := hTouch.superseded (hUpdated.mp hNow)
    rw [← current] at hBefore
    exact hBefore
  · intro hNow
    have hBefore := hTouch.unchanged fun hWas => hNow (hUpdated.mpr hWas)
    unfold Unchanged at *
    rw [← current] at hBefore
    exact hBefore
  · intro hMisses
    have hLater : placedPod ⟨call, answer⟩ = true ∨ v'.Missing job'.status.retries →
        Provided (history ++ [⟨call, answer⟩]) ∨ v'.Missing job'.status.retries :=
      fun hEither => hEither.imp provided_snoc id
    by_cases hLast : missingPod (⟨call, answer⟩ : Event Call.Answer) = true
    · exact hLater (vacant job' hHeld (.inl hLast))
    · rcases hTouch.vacant (hMisses.of_snoc (Bool.eq_false_iff.mpr hLast)) with
        hProvided | hMissing
      · exact .inl (hProvided.append _)
      · exact hLater (vacant job' hHeld (.inr hMissing))

theorem step (abreast : Abreast v) (sound : Sound v) (created : v.created) {a : Action}
    (attended : Attended v a v') (h : Moves v a v') : Abreast v' := by
  cases h with
  | elsewhere | setClock => exact abreast.keep_pods rfl rfl fun _ h => h
  | create fresh => exact absurd created fresh
  | start idle =>
      rintro worker job ⟨⟩ hRead
      cases hRead
  | @readJob age value register next path waits read =>
      rintro worker job ⟨⟩ hRead _
      have hAge := attended.current age rfl
      subst hAge
      have hValue : value = v.job.current := Register.value_of_read read
      cases value with
      | none => cases hRead
      | some stored =>
          cases hRead
          exact {
            superseded := by
              intro hUpdated
              cases (updated_snoc_iff rfl).mp hUpdated
            unchanged := fun _ => ⟨job, (Register.current_read read).trans hValue.symm, rfl⟩
            vacant := fun hMisses => absurd (hMisses.of_snoc rfl) not_misses_nil }
  | @readPod age job value register history next path waits held read =>
      have hAge := attended.current age rfl
      subst hAge
      have hValue : value = (v.pods job.status.retries).current := Register.value_of_read read
      have hCurrent := servePod_pods_current read
      refine abreast.resume waits rfl (by rintro req job' ⟨⟩) rfl ?_
      intro job' hRead hMissing
      obtain rfl := Option.some.inj (held.symm.trans hRead)
      right
      show ((v.servePod job.status.retries register).pods job.status.retries).current = none
      rw [hCurrent]
      rcases hMissing with hLast | hBefore
      · cases value with
        | none => exact hValue.symm
        | some pod => cases hLast
      · exact hBefore
  | @created job history next reply answer path waits held free reported =>
      obtain rfl := ok_of_reported reported attended.answered
      exact abreast.resume waits rfl (by rintro req job' ⟨⟩) rfl fun _ _ _ => .inl rfl
  | @deleted job pod stored history next reply answer path waits held named present reported =>
      refine abreast.resume waits rfl (by rintro req job' ⟨⟩) rfl ?_
      rintro job' hRead (hLast | hBefore)
      · cases hLast
      · obtain rfl := Option.some.inj (held.symm.trans hRead)
        have hPresent : (v.pods job.status.retries).current = none := hBefore
        rw [present] at hPresent
        cases hPresent
  | @expired job stored history next reply answer path waits held present reported =>
      rintro worker job' ⟨⟩ hRead hUnfinished
      obtain ⟨hHeld, hTerminal⟩ := (site_of_busy path).deleteJob_inv
      obtain rfl := Option.some.inj ((readJob_append hHeld _).symm.trans hRead)
      exact absurd hTerminal hUnfinished.active
  | @updated job stored status history next reply answer path waits held present version
      reported =>
      have hLast : smooth ⟨.write (.updateStatus (job.withStatus status)), answer⟩ = true :=
        attended.answered
      obtain rfl := ok_of_smooth hLast
      rintro worker job' ⟨⟩ hRead hUnfinished
      obtain rfl := Option.some.inj ((readJob_append held _).symm.trans hRead)
      have hFresh := sound.versions.fresh (sound.held_visible waits held)
      exact {
        superseded := by
          rintro _ - ⟨⟩
          exact hFresh
        unchanged := fun hNot => absurd updated_snoc hNot
        vacant := by
          intro hMisses
          have hTouch := abreast _ _ waits held hUnfinished
          exact (hTouch.vacant (hMisses.of_snoc rfl)).imp (fun h => h.append _) id }
  | quiet waits uneventful =>
      apply abreast.resume waits rfl uneventful.job (not_isUpdated uneventful.write)
      rintro job - (hLast | hBefore)
      · rw [not_missingPod uneventful.noPod] at hLast
        cases hLast
      · exact .inr hBefore
  | finish =>
      rintro worker job ⟨⟩
  | @patched message stored present =>
      refine abreast.keep rfl fun worker job hBusy hRead touch => ?_
      have hFresh := sound.versions.fresh (sound.held_visible hBusy hRead)
      exact {
        superseded := by
          rintro _ _ ⟨⟩
          exact hFresh
        unchanged := by
          intro hNot
          obtain ⟨stored', hStored, hStatus⟩ := touch.unchanged hNot
          obtain rfl := Option.some.inj (present.symm.trans hStored)
          refine ⟨_, rfl, ?_⟩
          rw [hStatus]
        vacant := touch.vacant }
  | @setPhase retries phase pod present =>
      refine abreast.keep_pods rfl rfl fun r hMissing => ?_
      by_cases hr : r = retries
      · subst hr
        rw [Missing, present] at hMissing
        cases hMissing
      · rw [Missing, setPod_pods_of_ne v hr]
        exact hMissing
  | @createPod retries pod named free => exact absurd named (attended.alone pod retries rfl)
  | @removePod retries pod present =>
      refine abreast.keep_pods rfl rfl fun r hMissing => ?_
      by_cases hr : r = retries
      · subst hr
        rw [Missing, setPod_pods_self]
        rfl
      · rw [Missing, setPod_pods_of_ne v hr]
        exact hMissing

end Abreast

end JobView
end QuantumService.Cluster
