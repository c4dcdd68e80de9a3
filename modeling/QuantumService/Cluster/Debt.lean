import QuantumService.Cluster.Progress

/-! How much work a job can still cause. A job that has fallen behind owes the status
updates up to its end, those that a lost pod undoes, and what the reconcile in flight is
about to do. Only the loss of one of its pods raises the debt again. -/
namespace QuantumService.Cluster
open Interaction Controller World

/-- The pod of the attempt was created, or is there already. -/
def placedPod : Event Call.Answer → Bool
  | ⟨.write (.createPod _), .ok _⟩ => true
  | ⟨.write (.createPod _), .error err⟩ => err = .alreadyExists
  | _ => false

/-- The pod of the attempt was found. -/
def foundPod : Event Call.Answer → Bool
  | ⟨.getPod _, .ok _⟩ => true
  | _ => false

def Provided (h : History) : Prop := h.any placedPod = true

/-- The reconcile has moved its job on, or has replaced the pod that the status names. -/
def Effective (h : History) (job : QuantumAerJob) : Prop :=
  Updated h ∨ (job.status.podName ≠ "" ∧ Provided h)

/-- The pod was there when the reconcile last heard of it. -/
def Seen (h : History) : Prop := h.any foundPod = true ∨ Provided h

instance (h : History) : Decidable (Provided h) := inferInstanceAs (Decidable (_ = _))
instance (h : History) (job : QuantumAerJob) : Decidable (Effective h job) :=
  inferInstanceAs (Decidable (_ ∨ _))
instance (h : History) : Decidable (Seen h) := inferInstanceAs (Decidable (_ ∨ _))

section Events
variable {h : History} {job : QuantumAerJob} {e : Event Call.Answer}

theorem placedPod_inv (placed : placedPod e = true) : ∃ pod,
    e = ⟨.write (.createPod pod), .ok ()⟩ ∨
      e = ⟨.write (.createPod pod), .error .alreadyExists⟩ := by
  unfold placedPod at placed
  split at placed
  · exact ⟨_, .inl rfl⟩
  · rename_i pod err
    have hErr : err = .alreadyExists := of_decide_eq_true placed
    exact ⟨pod, .inr (by rw [hErr])⟩
  · cases placed

theorem foundPod_inv (found : foundPod e = true) : ∃ q pod, e = ⟨.getPod q, .ok pod⟩ := by
  unfold foundPod at found
  split at found
  · exact ⟨_, _, rfl⟩
  · cases found

theorem provided_of_placed (placed : PodPlaced h job) : Provided h := by
  rcases placed with hCreated | hTaken
  · exact List.any_eq_true.mpr ⟨_, hCreated, rfl⟩
  · exact List.any_eq_true.mpr ⟨_, hTaken, rfl⟩

theorem Provided.append (provided : Provided h) (later : History) : Provided (h ++ later) := by
  unfold Provided at *
  rw [List.any_append, provided, Bool.true_or]

theorem provided_snoc (placed : placedPod e = true) : Provided (h ++ [e]) :=
  List.any_eq_true.mpr ⟨e, last_mem e, placed⟩

theorem Provided.of_snoc (provided : Provided (h ++ [e])) (unplaced : placedPod e = false) :
    Provided h := by
  simpa [Provided, unplaced] using provided

theorem Seen.of_found {pod : Pod} (found : PodFound h job pod) : Seen h :=
  .inl (List.any_eq_true.mpr ⟨_, found.2, rfl⟩)

theorem Seen.of_placed (placed : PodPlaced h job) : Seen h := .inr (provided_of_placed placed)

theorem effective_of_moved (moved : Moved h job) (busy : ¬ Awaits h job) : Effective h job := by
  rcases moved with hUpdated | hAwaits | ⟨hMisses, hPlaced⟩
  · exact .inl hUpdated
  · exact absurd hAwaits busy
  · exact .inr ⟨hMisses.1, provided_of_placed hPlaced⟩

theorem Seen.of_snoc (seen : Seen (h ++ [e])) (unfound : foundPod e = false)
    (unplaced : placedPod e = false) : Seen h := by
  refine seen.imp ?_ ?_
  · intro hFound
    simpa [unfound] using hFound
  · intro hProvided
    exact hProvided.of_snoc unplaced

theorem unfinished_of_active (ok : StatusOk job.name job.spec job.status)
    (active : ¬ job.status.jobStatus.Terminal) : Unfinished job := by
  rcases ok.state with hNew | hPending | hProgress | hTerminal
  · exact .inl hNew
  · exact .inr (.inl hPending)
  · exact .inr (.inr hProgress)
  · exact absurd hTerminal active

end Events

namespace JobView
variable {key : NamespacedName} {v v' : JobView key}

/-- There is no pod under the name of this attempt. -/
def Missing (v : JobView key) (retries : Int32) : Prop := (v.pods retries).current = none

/-- The reconcile has seen the pod, and it is gone before the status says so. -/
def Shaken (v : JobView key) (h : History) (job : QuantumAerJob) : Prop :=
  ¬ Updated h ∧ Seen h ∧ v.Missing job.status.retries

instance (v : JobView key) (retries : Int32) : Decidable (v.Missing retries) :=
  inferInstanceAs (Decidable (_ = none))
instance (v : JobView key) (h : History) (job : QuantumAerJob) : Decidable (v.Shaken h job) :=
  inferInstanceAs (Decidable (_ ∧ _))

/-- The status updates that a missing pod undoes. -/
def setback (v : JobView key) (status : QuantumAerJobStatus) : Int :=
  if status.podName ≠ "" ∧ v.Missing status.retries then
    if status.jobStatus = .pending then 1
    else if status.jobStatus = .progress then 3
    else 0
  else 0

/-- How many status updates are ahead of the job, with those that are undone. -/
def ahead (v : JobView key) (spec : QuantumAerJobSpec) (status : QuantumAerJobStatus) : Int :=
  rank spec status + v.setback status

/-- What the stored job needs until its end. -/
def due (v : JobView key) : Int :=
  match v.job.current with
  | some job => v.ahead job.spec job.status
  | none => 0

/-- What a reconcile that works on the job is going to count for. -/
def owes (v : JobView key) (h : History) (job : QuantumAerJob) : Int :=
  (if Effective h job then 1 else 0) + if v.Shaken h job then 2 else 0

/-- What the reconcile in flight is going to count for. -/
def owed (v : JobView key) : Int :=
  match v.worker with
  | some worker =>
      match readJob worker.history with
      | some job => v.owes worker.history job
      | none => 0
  | none => 0

/-- How many reconciles of the job found it unfinished, and no pod to wait for. -/
def worked (v : JobView key) : Nat := v.finished.countP fun e => HasWork e.1

def debt (v : JobView key) : Int := v.worked + v.owed + v.due

section Amounts
variable {h h' : History} {job : QuantumAerJob} {spec : QuantumAerJobSpec}
  {status : QuantumAerJobStatus}

theorem setback_nonneg : 0 ≤ v.setback status := by
  unfold setback
  split
  · split
    · decide
    · split <;> decide
  · decide

theorem setback_le : v.setback status ≤ 3 := by
  unfold setback
  split
  · split
    · decide
    · split <;> decide
  · decide

theorem setback_unnamed (name : status.podName = "") : v.setback status = 0 := by
  unfold setback
  rw [if_neg fun hBoth => hBoth.1 name]

theorem setback_present (present : ¬ v.Missing status.retries) : v.setback status = 0 := by
  unfold setback
  rw [if_neg fun hBoth => present hBoth.2]

/-- Where no pod gets lost no update gets undone. -/
theorem setback_mono (present : v'.Missing status.retries → v.Missing status.retries) :
    v'.setback status ≤ v.setback status := by
  by_cases hMissing : v'.Missing status.retries
  · have hBefore := present hMissing
    unfold setback
    simp only [hMissing, hBefore]
    exact Int.le_refl _
  · rw [setback_present hMissing]
    exact setback_nonneg

theorem ahead_pending (state : status.jobStatus = .pending) (name : status.podName = "") :
    v.ahead spec status = 3 * (max 0 spec.maxRetries.toInt - status.retries.toInt) + 3 := by
  rw [ahead, rank_pending state name, setback_unnamed name, Int.add_zero]

theorem ahead_recorded (state : status.jobStatus = .pending) (name : status.podName ≠ "") :
    v.ahead spec status = 3 * (max 0 spec.maxRetries.toInt - status.retries.toInt) + 2 +
      if v.Missing status.retries then 1 else 0 := by
  rw [ahead, rank_recorded state name, setback]
  by_cases hMissing : v.Missing status.retries
  · rw [if_pos ⟨name, hMissing⟩, if_pos state, if_pos hMissing]
  · rw [if_neg fun hBoth => hMissing hBoth.2, if_neg hMissing]

theorem ahead_progress (state : status.jobStatus = .progress) (name : status.podName ≠ "") :
    v.ahead spec status = 3 * (max 0 spec.maxRetries.toInt - status.retries.toInt) + 1 +
      if v.Missing status.retries then 3 else 0 := by
  rw [ahead, rank_progress state, setback]
  by_cases hMissing : v.Missing status.retries
  · rw [if_pos ⟨name, hMissing⟩, if_neg (by rw [state]; decide), if_pos state, if_pos hMissing]
  · rw [if_neg fun hBoth => hMissing hBoth.2, if_neg hMissing]

theorem ahead_terminal (state : status.jobStatus.Terminal) : v.ahead spec status = 0 := by
  rw [ahead, rank_terminal state, setback]
  rcases state with hState | hState <;> simp [hState]

theorem due_of_stored (stored : v.job.current = some job) :
    v.due = v.ahead job.spec job.status := by
  unfold due
  rw [stored]

theorem due_of_none (gone : v.job.current = none) : v.due = 0 := by
  unfold due
  rw [gone]

theorem Sound.due_nonneg (sound : Sound v) : 0 ≤ v.due := by
  cases hCurrent : v.job.current with
  | none => exact Int.le_of_eq (due_of_none hCurrent).symm
  | some job =>
      have hOk := sound.versions.ok (hCurrent ▸ v.job.current_mem_visible)
      rw [due_of_stored hCurrent]
      exact Int.add_nonneg (rank_nonneg hOk) setback_nonneg

/-- An unfinished job owes something. -/
theorem Sound.due_pos (sound : Sound v) (stored : v.job.current = some job)
    (active : ¬ job.status.jobStatus.Terminal) : 0 < v.due := by
  have hOk := sound.versions.ok (stored ▸ v.job.current_mem_visible)
  rw [due_of_stored stored]
  exact Int.add_pos_of_pos_of_nonneg (rank_pos hOk active) setback_nonneg

/-- What a job can owe, however far it has fallen behind. -/
theorem Sound.due_le (sound : Sound v) (stored : v.job.current = some job) :
    v.due ≤ 3 * (max 0 job.spec.maxRetries.toInt - job.status.retries.toInt) + 4 := by
  have hOk := sound.versions.ok (stored ▸ v.job.current_mem_visible)
  have hBudget := hOk.budget
  rw [due_of_stored stored]
  rcases hOk.state with hNew | hPending | hProgress | hTerminal
  · rw [ahead, setback_unnamed (hOk.untried hNew).2, rank, if_pos hNew]
    omega
  · by_cases hName : job.status.podName = ""
    · rw [ahead_pending hPending hName]
      omega
    · rw [ahead_recorded hPending hName]
      split <;> omega
  · rw [ahead_progress hProgress (hOk.running hProgress)]
    split <;> omega
  · rw [ahead_terminal hTerminal]
    omega

theorem owes_nonneg : 0 ≤ v.owes h job := by
  unfold owes
  split <;> split <;> decide

theorem owed_nonneg : 0 ≤ v.owed := by
  unfold owed
  split
  · split
    · exact owes_nonneg
    · decide
  · decide

theorem ite_mono {p q : Prop} [Decidable p] [Decidable q] {amount : Int} (nonneg : 0 ≤ amount)
    (implied : p → q) : (if p then amount else 0) ≤ if q then amount else 0 := by
  by_cases hp : p
  · simp [hp, implied hp]
  · rw [if_neg hp]
    split
    · exact nonneg
    · exact Int.le_refl 0

theorem owes_mono (effective : Effective h' job → Effective h job)
    (shaken : v'.Shaken h' job → v.Shaken h job) : v'.owes h' job ≤ v.owes h job :=
  Int.add_le_add (ite_mono (by decide) effective) (ite_mono (by decide) shaken)

theorem owes_of_shaken (shaken : v.Shaken h job) : 2 ≤ v.owes h job := by
  unfold owes
  rw [if_pos shaken]
  split <;> decide

theorem owes_of_effective (effective : Effective h job) : 1 ≤ v.owes h job := by
  unfold owes
  rw [if_pos effective]
  split <;> decide

/-- A reconcile whose pod is there, or that has told so, owes itself at most. -/
theorem owes_le (unshaken : ¬ v.Shaken h job) : v.owes h job ≤ 1 := by
  unfold owes
  rw [if_neg unshaken]
  split <;> decide

theorem owes_eq_zero (unshaken : ¬ v.Shaken h job) (ineffective : ¬ Effective h job) :
    v.owes h job = 0 := by
  unfold owes
  rw [if_neg unshaken, if_neg ineffective]
  rfl

theorem owed_of_held {worker : Worker key} (busy : v.worker = some worker)
    (read : readJob worker.history = some job) : v.owed = v.owes worker.history job := by
  unfold owed
  rw [busy]
  dsimp only
  rw [read]

theorem owed_of_unread {worker : Worker key} (busy : v.worker = some worker)
    (read : readJob worker.history = none) : v.owed = 0 := by
  unfold owed
  rw [busy]
  dsimp only
  rw [read]

theorem owed_of_idle (idle : v.worker = none) : v.owed = 0 := by
  unfold owed
  rw [idle]

end Amounts
end JobView
end QuantumService.Cluster
