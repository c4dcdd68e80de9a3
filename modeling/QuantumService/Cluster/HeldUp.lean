import Mathlib.Order.Filter.Finite
import QuantumService.Cluster.Recovery
import QuantumService.Cluster.Settled

/-! What can hold a job up. Without any deadline, and whatever has become of its pods so far,
a job that is reconciled again and again comes to its end, unless it waits for a pod. -/
namespace QuantumService.Cluster
open Interaction Controller World Filter

namespace JobView
variable {key : NamespacedName} {v v' : JobView key}

theorem Moves.worked_le {a : Action} (h : Moves v a v') : v.worked ≤ v'.worked := by
  cases h with
  | finish busy =>
      show v.worked ≤ (_ :: v.finished).countP _
      rw [List.countP_cons]
      exact Nat.le_add_right _ _
  | elsewhere | setClock | create | start | readJob | readPod | created | deleted | expired
  | updated | quiet | patched | setPhase | createPod | removePod => exact Nat.le_refl _

end JobView

namespace Manager
variable {m m' : Manager} {key : NamespacedName}

/-- The pod of one of the job's attempts is removed. -/
def Loses (key : NamespacedName) (a : Action) : Prop :=
  ∃ r, a = .cluster (.removePod (simulatorPodKey key r))

/-- The job is in progress on this attempt, and the attempt's pod has neither failed nor
succeeded. -/
def Underway (key : NamespacedName) (retries : Int32) (m : Manager) : Prop :=
  ∃ job pod, (m.world.jobs key).current = some job ∧ job.status.jobStatus = .progress ∧
    job.status.retries = retries ∧
    (m.world.pods (simulatorPodKey key retries)).current = some pod ∧
    pod.phase ≠ .failed ∧ pod.phase ≠ .succeeded

section Steps
variable {w₀ : World} {a : Action}

/-- No step raises the debt where the API server answers and no pod is lost. -/
theorem recovering_of_step (recovering : Recovering key w₀ m.world) (orderly : Orderly key m a)
    (served : Served key m a) (kept : ¬ Loses key a) (stepped : m.step a = some m') :
    Recovering key w₀ m'.world ∧ (m'.world.view key).debt ≤ (m.world.view key).debt := by
  rcases world_of_step stepped with hSame | ⟨a', hStep, hFrom⟩
  · rw [hSame]
    exact ⟨recovering, Int.le_refl _⟩
  · obtain ⟨hServed, hAlone, hKept⟩ :
        World.Served key m.world a' ∧ Alone key m.world a' ∧ loses key a' = false := by
      obtain rfl | ⟨other, rfl | rfl⟩ := hFrom
      · refine ⟨served, orderly.1, Bool.eq_false_iff.mpr fun hLoses => kept ?_⟩
        obtain ⟨r, rfl⟩ := loses_iff.mp hLoses
        exact ⟨r, rfl⟩
      · exact ⟨trivial, alone_of_isNone rfl, rfl⟩
      · exact ⟨trivial, alone_of_isNone rfl, rfl⟩
    obtain ⟨hLater, hDebt⟩ := recovering.step hServed hAlone hStep
    rw [hKept, if_neg (by decide), Int.add_zero] at hDebt
    exact ⟨hLater, hDebt⟩

theorem worked_of_step (sound : ∀ key, (m.world.view key).Sound) (stepped : m.step a = some m') :
    (m.world.view key).worked ≤ (m'.world.view key).worked := by
  rcases world_of_step stepped with hSame | ⟨a', hStep, -⟩
  · rw [hSame]
  · exact (view_moves sound hStep key).worked_le

/-- A reconcile that found work to do counts when it ends. -/
theorem worked_of_finish {history : History} {outcome : Outcome}
    {path : Program.Path (reconcile key) history (.done outcome)}
    (busy : m.world.workers key = some ⟨history, .done outcome, path⟩)
    (stepped : m.step (.finish key) = some m') :
    (m'.world.view key).worked =
      (m.world.view key).worked + if HasWork history then 1 else 0 := by
  cases moves_of_step stepped with
  | finish busy' =>
      rw [busy] at busy'
      cases busy'
      show (entriesOf key ((key, history, outcome) :: m.world.finished)).countP _ = _
      rw [entriesOf_cons_self, List.countP_cons]
      simp [JobView.worked, view]

/-- The pod that a reconcile finds is there, and is what it has looked for. -/
theorem Answered.getPod {before : History} {q : NamespacedName} {pod : Pod}
    (answered : Answered key m a m' before ⟨.getPod q, .ok pod⟩) (served : Served key m a)
    (sound : (m.world.view key).Sound) : ∃ worker job, m.world.workers key = some worker ∧
      worker.history = before ∧ readJob before = some job ∧ job.status.podName ≠ "" ∧
      (∀ q answer, ⟨.getPod q, answer⟩ ∉ before) ∧
      (m.world.pods (simulatorPodKey key job.status.retries)).current = some pod := by
  cases answered with
  | @intro _ _ _ next path reply _ middle busy responded after =>
      obtain ⟨job, hRead, hNamed, hPod⟩ := (site_of_busy path).getPod_inv
      have hOk := sound.versions.ok (sound.held_visible busy hRead)
      rw [JobView.podKey_eq (sound.held_key busy hRead) hOk hNamed] at hPod
      subst hPod
      refine ⟨_, job, busy, rfl, hRead, hNamed, (site_of_busy path).getPod_first, ?_⟩
      obtain ⟨hDirect, -⟩ := served rfl
      cases reply with
      | read age =>
          obtain ⟨⟨value, register⟩, hValue, hPair⟩ := Option.map_eq_some_iff.mp responded
          have hAge : age = 0 := by simpa [Reply.direct] using hDirect
          subst hAge
          rw [← Register.value_of_read hValue]
          cases value with
          | none => cases hPair
          | some found =>
              cases hPair
              rfl
      | fail => cases hDirect
      | ok | absent | lost => cases responded

end Steps

namespace FairRun
variable {run : Execution step} {n : Nat} {job : QuantumAerJob} {w₀ : World}

/-- From a time on at which the job is not worked on, it recovers. -/
theorem recovering_after (fair : FairRun key run)
    (served : ∀ k, n ≤ k → Served key (run.state k) (run.action k))
    (kept : ∀ k, n ≤ k → ¬ Loses key (run.action k))
    (idle : (run.state n).world.workers key = none)
    (stored : ((run.state n).world.jobs key).current = some job) :
    ∀ k, n ≤ k → Recovering key (run.state n).world (run.state k).world ∧
      ((run.state k).world.view key).debt ≤ ((run.state n).world.view key).debt := by
  intro k later
  induction k, later using Nat.le_induction with
  | base => exact ⟨.of_idle (fair.sound n) idle stored, Int.le_refl _⟩
  | succ k later ih =>
      obtain ⟨hRecovering, hDebt⟩ := recovering_of_step ih.1 (fair.orderly k) (served k later)
        (kept k later) (run.stepped k)
      exact ⟨hRecovering, hDebt.trans ih.2⟩

/-- Work comes to an end: from some time on no reconcile finds any. -/
theorem work_ends (fair : FairRun key run)
    (recovers : ∀ k, n ≤ k → Recovering key w₀ (run.state k).world ∧
      ((run.state k).world.view key).debt ≤ ((run.state n).world.view key).debt) :
    ∃ k, n ≤ k ∧ ∀ j, k ≤ j →
      ((run.state j).world.view key).worked = ((run.state k).world.view key).worked := by
  have hBounded : ∀ k, n ≤ k → ((run.state k).world.view key).worked ≤
      ((run.state n).world.view key).debt.toNat := by
    intro k hLater
    obtain ⟨hRecovering, hDebt⟩ := recovers k hLater
    have hOwed := @JobView.owed_nonneg key ((run.state k).world.view key)
    have hDue := (hRecovering.sound key).due_nonneg
    unfold JobView.debt at hDebt ⊢
    omega
  exact settles (fun k _ => worked_of_step (fair.sound k) (run.stepped k)) hBounded

/-- A reconcile that does not count has found a pod to wait for. -/
theorem awaits_of_begins (fair : FairRun key run)
    (served : ∀ k, n ≤ k → Served key (run.state k) (run.action k))
    (active : ∀ k, n ≤ k → ∃ later, ((run.state k).world.jobs key).current = some later ∧
      ¬ later.status.jobStatus.Terminal)
    (still : ∀ k, n ≤ k →
      ((run.state k).world.view key).worked = ((run.state n).world.view key).worked)
    (begins : Begins key (run.state n) (run.state (n + 1))) :
    ∃ k history job, Traced key run n k history ∧ readJob history = some job ∧
      Unfinished job ∧ Awaits history job := by
  have hStored : ∀ k, n ≤ k → ((run.state k).world.jobs key).current ≠ none :=
    fun k hLater => current_ne_none (active k hLater)
  obtain ⟨k, hAfter, hFinish, history, outcome, path, job, hBusy, hTraced, hSmooth, hRead,
    ⟨j, hFrom, hCurrent⟩, -⟩ := fair.learned_of_begins served hStored begins
  have hUnfinished : Unfinished job := by
    obtain ⟨job', hJob, hActive⟩ := active j (by omega)
    obtain rfl := Option.some.inj (hCurrent.symm.trans hJob)
    exact unfinished_of_active
      ((fair.sound j key).versions.ok (hCurrent ▸ Register.current_mem_visible _)) hActive
  refine ⟨k, history, job, hTraced, hRead, hUnfinished, ?_⟩
  by_contra hNot
  have hStepped := run.stepped k
  rw [hFinish] at hStepped
  have hWorked := worked_of_finish hBusy hStepped
  rw [if_pos ⟨job, hRead, hUnfinished, hNot⟩, still k (by omega), still (k + 1) (by omega)]
    at hWorked
  omega

/-- Before it looks for the pod, a reconcile does not update the status of a job in progress
that stays unfinished. -/
theorem not_updated_of_unlooked (fair : FairRun key run) {k : Nat} {history before rest : History}
    (active : ∀ k, n ≤ k → ∃ later, ((run.state k).world.jobs key).current = some later ∧
      ¬ later.status.jobStatus.Terminal)
    (traced : Traced key run n k history) (read : readJob history = some job)
    (progress : job.status.jobStatus = .progress) (named : job.status.podName ≠ "")
    (split : history = before ++ rest) (unlooked : ∀ q answer, ⟨.getPod q, answer⟩ ∉ before) :
    ¬ Updated before := by
  intro hUpdated
  obtain ⟨e, hMem, hEvent⟩ := List.any_eq_true.mp hUpdated
  obtain ⟨update, rfl⟩ := isUpdated_inv hEvent
  obtain ⟨earlier, later, rfl⟩ := List.append_of_mem hMem
  rw [List.append_assoc] at split
  obtain ⟨j, hBegun, -, hWrote⟩ := traced earlier _ _ split
  obtain ⟨held, status, stored, hHeld, hReason, hNext, hStatus⟩ :=
    hWrote.updateStatus (fair.sound j key)
  obtain rfl := readJob_unique split read hHeld
  have hFailed := hReason.unlooked progress named
    fun q answer hLooked => unlooked q answer (List.mem_append_left _ hLooked)
  obtain ⟨stored', hStored, hActive⟩ := active (j + 1) (by omega)
  obtain rfl := Option.some.inj (hNext.symm.trans hStored)
  rw [hStatus] at hActive
  exact hActive (.inr hFailed)

/-- When a reconcile finds a pod to wait for, the job is in progress with it. -/
theorem underway_of_begins (fair : FairRun key run)
    (served : ∀ k, n ≤ k → Served key (run.state k) (run.action k))
    (active : ∀ k, n ≤ k → ∃ later, ((run.state k).world.jobs key).current = some later ∧
      ¬ later.status.jobStatus.Terminal)
    (recovers : ∀ k, n ≤ k → Recovering key w₀ (run.state k).world)
    (still : ∀ k, n ≤ k →
      ((run.state k).world.view key).worked = ((run.state n).world.view key).worked)
    (begins : Begins key (run.state n) (run.state (n + 1))) :
    ∃ k r, n < k ∧ Underway key r (run.state k) := by
  obtain ⟨k, history, job, hTraced, hRead, hUnfinished, hProgress, hSeen⟩ :=
    fair.awaits_of_begins served active still begins
  obtain ⟨e, hMem, hUnsettled⟩ := List.any_eq_true.mp hSeen
  obtain ⟨q, pod, rfl, hPhase⟩ := unsettledPod_inv hUnsettled
  obtain ⟨before, later, hSplit⟩ := List.append_of_mem hMem
  obtain ⟨j, hBegun, -, hAnswered⟩ := hTraced before _ later hSplit
  obtain ⟨worker, held, hWorker, rfl, hHeld, hNamed, hUnlooked, hPod⟩ :=
    hAnswered.getPod (served j (by omega)) (fair.sound j key)
  obtain rfl := readJob_unique hSplit hRead hHeld
  have hUnmoved := fair.not_updated_of_unlooked active hTraced hRead hProgress hNamed hSplit
    hUnlooked
  -- so what it has read of the job is still stored
  have hTouch := (recovers j (by omega)).abreast worker _ hWorker hHeld hUnfinished
  obtain ⟨stored, hStored, hStatus⟩ := hTouch.unchanged hUnmoved
  have hState : stored.status.jobStatus = .progress := by
    rw [hStatus]
    exact hProgress
  have hRetries : stored.status.retries = held.status.retries := by rw [hStatus]
  exact ⟨j, held.status.retries, hBegun, stored, pod, hStored, hState, hRetries, hPod, hPhase⟩

/-- An unfinished job that nothing else is wrong with is held up by a pod. -/
theorem held_up (fair : FairRun key run)
    (served : ∀ᶠ n in atTop, Served key (run.state n) (run.action n))
    (kept : ∀ᶠ n in atTop, ¬ Loses key (run.action n))
    (active : ∀ k, n ≤ k → ∃ later, ((run.state k).world.jobs key).current = some later ∧
      ¬ later.status.jobStatus.Terminal) :
    ∃ r, ∃ᶠ k in atTop, Underway key r (run.state k) := by
  by_contra hNot
  have hNever : ∀ᶠ k in atTop, ∀ r, ¬ Underway key r (run.state k) := by
    have hFinite : Finite Int32 :=
      Finite.of_injective (fun r => r.toBitVec.toFin) fun _ _ hSame =>
        Int32.toBitVec.inj (BitVec.eq_of_toFin_eq hSame)
    rw [eventually_all]
    intro r
    exact not_frequently.mp fun hOften => hNot ⟨r, hOften⟩
  obtain ⟨N, hAfter⟩ := eventually_atTop.mp
    ((hNever.and (served.and kept)).and (eventually_ge_atTop n))
  have hAwake : ∀ k, N ≤ k → (run.state k).Awake key := by
    intro k hFrom
    obtain ⟨⟨hIdle, -⟩, hLater⟩ := hAfter k hFrom
    obtain ⟨later, hStored, hActive⟩ := active k hLater
    rcases (attentive_of_run (fair.reached k)).awake_or_rests hStored with
      hAwake | ⟨hTerminal, -⟩ | ⟨hProgress, pod, hPod, hPhase⟩
    · exact hAwake
    · exact absurd hTerminal hActive
    · refine absurd ⟨later, pod, hStored, hProgress, rfl, hPod, ?_⟩ (hIdle later.status.retries)
      rcases hPhase with hPhase | hPhase <;> simp [hPhase]
  -- the debt bounds what the reconciles from here on can find to do
  obtain ⟨M, hFrom, hIdle⟩ := fair.idles N
  obtain ⟨job, hStored, -⟩ := active M (hAfter M hFrom).2
  have hServed : ∀ k, N ≤ k → Served key (run.state k) (run.action k) :=
    fun k hk => (hAfter k hk).1.2.1
  have hRecovers := fair.recovering_after (fun k hk => hServed k (hFrom.trans hk))
    (fun k hk => (hAfter k (hFrom.trans hk)).1.2.2) hIdle hStored
  obtain ⟨L, hLater, hStill⟩ := fair.work_ends hRecovers
  obtain ⟨k, hLatest, hBegins⟩ := fair.begins_after
    (eventually_atTop.mpr ⟨N, hAwake⟩).frequently (eventually_ge_atTop L)
  obtain ⟨j, r, hSeen, hUnderway⟩ := fair.underway_of_begins
    (fun i hi => hServed i (by omega)) (fun i hi => active i (hAfter i (by omega)).2)
    (fun i hi => (hRecovers i (by omega)).1)
    (fun i hi => (hStill i (by omega)).trans (hStill k hLatest).symm) hBegins
  exact (hAfter j (by omega)).1.1 r hUnderway

end FairRun

section Sample

/-- A job without a time out, whose first pod fails and whose second one succeeds. -/
def succeedingRun : List Action :=
  [.cluster (.createJob sampleKey
      { sampleSpec with timeOut := 0, ttlSecondsAfterFinished := none }), .tellJob sampleKey] ++
    pass sampleKey [.read 0, .ok, .ok] ++ [.tellJob sampleKey] ++
    pass sampleKey [.read 0, .ok, .ok, .ok] ++
    [.tellJob sampleKey, .tellPod (simulatorPodKey sampleKey 0)] ++
    pass sampleKey [.read 0, .read 0, .ok] ++
    [.tellJob sampleKey, .cluster (.setPhase (simulatorPodKey sampleKey 0) .failed),
      .tellPod (simulatorPodKey sampleKey 0)] ++
    pass sampleKey [.read 0, .read 0, .ok, .ok] ++
    [.tellJob sampleKey, .tellPod (simulatorPodKey sampleKey 0),
      .cluster (.removePod (simulatorPodKey sampleKey 0)),
      .tellPod (simulatorPodKey sampleKey 0)] ++
    pass sampleKey [.read 0, .ok, .ok, .ok] ++
    [.tellJob sampleKey, .tellPod (simulatorPodKey sampleKey 1)] ++
    pass sampleKey [.read 0, .read 0, .ok] ++
    [.tellJob sampleKey, .cluster (.setPhase (simulatorPodKey sampleKey 1) .succeeded),
      .tellPod (simulatorPodKey sampleKey 1)] ++
    pass sampleKey [.read 0, .read 0, .ok, .ok] ++ [.tellJob sampleKey] ++
    pass sampleKey [.read 0, .read 0, .ok] ++
    [.cluster (.removePod (simulatorPodKey sampleKey 1)), .tellPod (simulatorPodKey sampleKey 1),
      .tellPod (simulatorPodKey sampleKey 1), .fire sampleKey] ++
    pass sampleKey [.read 0, .read 0]

def succeedingPods : List NamespacedName :=
  [simulatorPodKey sampleKey 0, simulatorPodKey sampleKey 1]

theorem succeedingRun_still {m : Manager} (run : runActions step empty succeedingRun = some m) :
    Still sampleKey m :=
  still_of_run succeedingPods run (by decide +kernel) (by decide +kernel)

end Sample

end Manager
end QuantumService.Cluster
