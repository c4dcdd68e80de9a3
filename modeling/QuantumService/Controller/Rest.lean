import QuantumService.Controller.Expiry

/-! Why a reconcile does not ask for another one. Whatever else it returns, the work
queue hands its job out again without a further event. -/
namespace QuantumService.Controller
open Interaction Program

/-- What a reconcile has learned when it does not ask for another one. -/
inductive Dropped (req : NamespacedName) (h : History) : Prop where
  | missing (read : ⟨.getJob req, .error .notFound⟩ ∈ h)
  | unhandled {job : QuantumAerJob} (read : readJob h = some job)
      (odd : UnhandledPhase h job)
  | unlimited {job : QuantumAerJob} (read : readJob h = some job)
      (state : job.status.jobStatus.Terminal) (kept : job.spec.ttlSecondsAfterFinished = none)
  | deleted {job : QuantumAerJob} {answer : Except ApiError Unit} (read : readJob h = some job)
      (gone : answer = .ok () ∨ answer = .error .notFound)
      (asked : ⟨.write (.deleteJob job), answer⟩ ∈ h)
  | uncompleted {job : QuantumAerJob} (read : readJob h = some job)
      (state : job.status.jobStatus.Terminal) (unset : job.status.completionTime = none)
  | backward {job : QuantumAerJob} {completionTime now : Int} (read : readJob h = some job)
      (completed : job.status.completionTime = some completionTime) (clock : ⟨.now, now⟩ ∈ h)
      (before : now < completionTime)
  | foreign {job : QuantumAerJob} (read : readJob h = some job) (unknown : ¬ Unfinished job)
      (state : ¬ job.status.jobStatus.Terminal)

/-- A return that asks for another reconcile, or has a reason not to. -/
def AsksOrRests (req : NamespacedName) (h : History) (outcome : Outcome) : Prop :=
  ¬ Revisited outcome → Dropped req h

section Handlers
variable {req : NamespacedName} {h : History} {job : QuantumAerJob}

theorem rests_error {result : Result} {err : ApiError} :
    AsksOrRests req h (result, some err) :=
  fun hDropped => absurd (revisited_error result err) hDropped

/-- The delay to the end of the TTL is positive, unless the clock was set back. -/
theorem expireJob_rests (read : readJob h = some job) (state : job.status.jobStatus.Terminal) :
    (expireJob job).Follows AnyCall (AsksOrRests req) h := by
  unfold expireJob
  split
  · rename_i ttl completionTime hTtl hCompletion
    refine .query trivial fun now => ?_
    have hRead := readJob_append read [⟨.now, now⟩]
    dsimp only
    split
    · refine .query trivial fun deleted => ?_
      have hRead := readJob_append hRead [⟨.write (.deleteJob job), deleted⟩]
      cases deleted with
      | ok => exact fun _ => .deleted hRead (.inl rfl) (last_mem _)
      | error err =>
          by_cases hErr : err = .notFound
          · subst hErr
            exact fun _ => .deleted hRead (.inr rfl) (last_mem _)
          · simp only [ApiError.isNotFound_iff, hErr, if_false]
            exact rests_error
    · rename_i hEarly
      intro hDropped
      by_cases hAfter : completionTime ≤ now
      · have hLeft : ¬ ttl.toInt * second ≤ now - completionTime :=
          mt (elapsed_iff now completionTime ttl).mpr hEarly
        have hPositive : 0 < int64 (seconds ttl - timeSub now completionTime) := by
          rw [delay_eq hAfter hEarly]
          omega
        exact absurd (revisited_after none hPositive) hDropped
      · exact .backward hRead hCompletion (last_mem _) (Int.not_le.mp hAfter)
  · rename_i hNone
    intro _
    cases hTtl : job.spec.ttlSecondsAfterFinished with
    | none => exact .unlimited read state hTtl
    | some ttl =>
        refine .uncompleted read state ?_
        cases hCompletion : job.status.completionTime with
        | none => rfl
        | some completionTime => exact absurd hCompletion (hNone ttl completionTime hTtl)

theorem handleTerminalJob_rests (read : readJob h = some job)
    (state : job.status.jobStatus.Terminal) :
    (handleTerminalJob job).Follows AnyCall (AsksOrRests req) h := by
  unfold handleTerminalJob getForPod
  rw [if_pos state]
  split
  · exact expireJob_rests read state
  · refine .query trivial fun answer => ?_
    have hRead := readJob_append read [⟨.getPod (podKey job), answer⟩]
    cases answer with
    | error err =>
        by_cases hErr : err = .notFound
        · subst hErr
          exact expireJob_rests hRead state
        · simp only [ApiError.isNotFound_iff, hErr, if_false]
          exact rests_error
    | ok pod =>
        refine .query trivial fun deleted => ?_
        have hRead := readJob_append hRead [⟨.write (.deletePod pod), deleted⟩]
        cases deleted with
        | ok => exact expireJob_rests hRead state
        | error err =>
            by_cases hErr : err = .notFound
            · subst hErr
              exact expireJob_rests hRead state
            · simp only [ApiError.isNotFound_iff, hErr, if_false]
              exact rests_error

theorem checkTimeout_rests (read : readJob h = some job)
    (state : job.status.jobStatus.Terminal) :
    (checkTimeout job).Follows AnyCall (AsksOrRests req) h := by
  unfold checkTimeout
  split
  · split
    · refine .query trivial fun now => ?_
      have hRead := readJob_append read [⟨.now, now⟩]
      rw [if_neg fun hExpired => hExpired.2 state, dispatch_terminal state]
      exact handleTerminalJob_rests hRead state
    · rw [dispatch_terminal state]
      exact handleTerminalJob_rests read state
  · rw [dispatch_terminal state]
    exact handleTerminalJob_rests read state

end Handlers

/-- A reconcile that returns for good has found its job gone, kept for ever or deleted, or
its pod in a phase that the controller has no case for. -/
theorem dropped_of_path {req : NamespacedName} {h : History} {outcome : Outcome}
    (path : Path (reconcile req) h (.done outcome)) (final : ¬ Revisited outcome) :
    Dropped req h := by
  cases hRead : readJob h with
  | none =>
      cases path with
      | @cons call next answer history q rest =>
          cases answer with
          | ok job => cases hRead
          | error err =>
              by_cases hErr : err = .notFound
              · subst hErr
                exact .missing List.mem_cons_self
              · cases rest
                simp [Revisited, ignoreNotFound, hErr] at final
  | some job =>
      by_cases hUnfinished : Unfinished job
      · have hRevisits := reconcile_revisits_iff path hRead hUnfinished
        exact .unhandled hRead (not_not.mp (mt hRevisits.mpr final))
      · by_cases hTerminal : job.status.jobStatus.Terminal
        · obtain ⟨later, rfl, hPath⟩ := path_of_read path hRead
          have hRests : (checkTimeout job).Follows AnyCall (AsksOrRests req)
              [⟨.getJob req, .ok job⟩] := checkTimeout_rests rfl hTerminal
          exact hRests.path hPath final
        · exact .foreign hRead hUnfinished hTerminal

end QuantumService.Controller
