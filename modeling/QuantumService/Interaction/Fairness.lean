import Mathlib.Order.Filter.AtTopBot.Basic
import QuantumService.Interaction.Transition

/-! Runs that go on for ever. An action that stays possible is taken in the end, if the
run is fair to it; what waits for the action then leads to what it brings about. -/
namespace Interaction
universe u v w
open Filter

/-- Whenever the one holds, the other holds then or later. -/
def LeadsTo (P Q : Nat → Prop) : Prop := ∀ n, P n → ∃ k, n ≤ k ∧ Q k

/-- What is kept as long as something else does not happen. -/
theorem kept_until {P Q : Nat → Prop} (kept : ∀ n, P n → P (n + 1) ∨ Q n) {n k : Nat}
    (holds : P n) (later : n ≤ k) : P k ∨ ∃ j, n ≤ j ∧ j < k ∧ Q j := by
  induction k, later using Nat.le_induction with
  | base => exact .inl holds
  | succ k later ih =>
      rcases ih with hP | ⟨j, hFrom, hTo, hQ⟩
      · exact (kept k hP).imp id fun hQ => ⟨k, later, Nat.lt_succ_self k, hQ⟩
      · exact .inr ⟨j, hFrom, Nat.lt_succ_of_lt hTo, hQ⟩

/-- What rises and stays bounded stands still in the end. -/
theorem settles {f : Nat → Nat} {n bound : Nat} (rises : ∀ k, n ≤ k → f k ≤ f (k + 1))
    (bounded : ∀ k, n ≤ k → f k ≤ bound) : ∃ k, n ≤ k ∧ ∀ j, k ≤ j → f j = f k := by
  induction hRoom : bound - f n using Nat.strong_induction_on generalizing n with
  | _ room ih =>
      by_cases hMoves : ∃ j, n ≤ j ∧ f j ≠ f n
      · obtain ⟨j, hLater, hOther⟩ := hMoves
        have hRises : f n ≤ f j := by
          clear hOther
          induction j, hLater using Nat.le_induction with
          | base => exact Nat.le_refl _
          | succ j hLater ih => exact Nat.le_trans ih (rises j hLater)
        have hBound := bounded j hLater
        obtain ⟨k, hLatest, hStill⟩ := ih (bound - f j) (by omega)
          (fun k hk => rises k (by omega)) (fun k hk => bounded k (by omega)) rfl
        exact ⟨k, Nat.le_trans hLater hLatest, hStill⟩
      · refine ⟨n, Nat.le_refl n, fun j hLater => ?_⟩
        by_contra hOther
        exact hMoves ⟨j, hLater, hOther⟩

variable {State : Type u} {Action : Type v} {step : State → Action → Option State}
  {allowed : State → Action → Prop} {start : State → Prop} {kind : Action → Prop}

/-- A run without an end. -/
structure Execution (step : State → Action → Option State) where
  state : Nat → State
  action : Nat → Action
  stepped : ∀ n, step (state n) (action n) = some (state (n + 1))

/-- An action of this kind can be taken. -/
def Enabled (step : State → Action → Option State) (kind : Action → Prop) (s : State) : Prop :=
  ∃ a, kind a ∧ (step s a).isSome = true

namespace Execution
variable {run run' : Execution step}

theorem reaches (starts : Reaches step allowed start (run.state 0))
    (permitted : ∀ n, allowed (run.state n) (run.action n)) (n : Nat) :
    Reaches step allowed start (run.state n) := by
  induction n with
  | zero => exact starts
  | succ n ih => exact .step ih (permitted n) (run.stepped n)

/-- Weak fairness: where an action of this kind stays possible, one is taken. -/
def Fair (run : Execution step) (kind : Action → Prop) : Prop :=
  ∀ n, (∀ k, n ≤ k → Enabled step kind (run.state k)) → ∃ k, n ≤ k ∧ kind (run.action k)

section Fair
variable {P Q : Nat → Prop}

/-- What makes an action possible, and is kept until one is taken, leads to its being taken. -/
theorem Fair.taken (fair : run.Fair kind) (enabled : ∀ n, P n → Enabled step kind (run.state n))
    (kept : ∀ n, P n → ¬ kind (run.action n) → P (n + 1)) :
    LeadsTo P fun n => P n ∧ kind (run.action n) := by
  intro n hP
  by_contra hNever
  have hAlways : ∀ k, n ≤ k → P k := by
    intro k hLater
    induction k, hLater using Nat.le_induction with
    | base => exact hP
    | succ k hLater ih => exact kept k ih fun hTaken => hNever ⟨k, hLater, ih, hTaken⟩
  obtain ⟨k, hLater, hTaken⟩ := fair n fun k hLater => enabled k (hAlways k hLater)
  exact hNever ⟨k, hLater, hAlways k hLater, hTaken⟩

/-- What is queued comes to the front and is handed out, where each action of the kind hands
out the first and nothing else takes from the queue. -/
theorem Fair.handedOut {α : Type w} (fair : run.Fair kind) (queue : State → List α)
    (enabled : ∀ n, queue (run.state n) ≠ [] → Enabled step kind (run.state n))
    (grows : ∀ n, ¬ kind (run.action n) → queue (run.state n) <+: queue (run.state (n + 1)))
    (pops : ∀ n, kind (run.action n) → (queue (run.state n)).tail <+: queue (run.state (n + 1)))
    {n : Nat} {x : α} (queued : x ∈ queue (run.state n)) :
    ∃ k, n ≤ k ∧ kind (run.action k) ∧ (queue (run.state k)).head? = some x := by
  have hStays : ∀ {xs ys : List α} {i : Nat}, xs <+: ys → xs[i]? = some x → ys[i]? = some x := by
    rintro xs ys i ⟨later, rfl⟩ hAt
    obtain ⟨hLength, -⟩ := List.getElem?_eq_some_iff.mp hAt
    rw [List.getElem?_append_left hLength]
    exact hAt
  have hTaken : ∀ i : Nat, LeadsTo (fun n => (queue (run.state n))[i]? = some x) fun n =>
      (queue (run.state n))[i]? = some x ∧ kind (run.action n) := by
    intro i
    refine fair.taken (fun n hAt => enabled n ?_) fun n hAt hOther => hStays (grows n hOther) hAt
    intro hNil
    rw [hNil] at hAt
    cases hAt
  obtain ⟨i, hAt⟩ := List.getElem?_of_mem queued
  induction i generalizing n with
  | zero =>
      obtain ⟨k, hLater, hFront, hKind⟩ := hTaken 0 n hAt
      exact ⟨k, hLater, hKind, List.head?_eq_getElem?.trans hFront⟩
  | succ i ih =>
      obtain ⟨k, hLater, hFront, hKind⟩ := hTaken (i + 1) n hAt
      have hNext : (queue (run.state (k + 1)))[i]? = some x :=
        hStays (pops k hKind) (List.getElem?_tail.trans hFront)
      obtain ⟨j, hLatest, hOut⟩ := ih (List.mem_of_getElem? hNext) hNext
      exact ⟨j, by omega, hOut⟩

end Fair

section Prepend

/-- A step, and then a run. -/
def cons (run : Execution step) {s : State} {a : Action} (first : step s a = some (run.state 0)) :
    Execution step where
  state
    | 0 => s
    | n + 1 => run.state n
  action
    | 0 => a
    | n + 1 => run.action n
  stepped
    | 0 => first
    | n + 1 => run.stepped n

/-- A run that goes on like the other one, after so many steps. -/
def Continues (run run' : Execution step) (count : Nat) : Prop :=
  ∀ n, run'.state (count + n) = run.state n ∧ run'.action (count + n) = run.action n

/-- Fairness is a matter of what happens in the end. -/
theorem Fair.continues {count : Nat} (fair : run.Fair kind) (same : Continues run run' count) :
    run'.Fair kind := by
  intro n hEnabled
  obtain ⟨k, hLater, hTaken⟩ := fair n fun k hLater => by
    rw [← (same k).1]
    exact hEnabled (count + k) (Nat.le_trans hLater (Nat.le_add_left k count))
  refine ⟨count + k, Nat.le_trans hLater (Nat.le_add_left k count), ?_⟩
  rw [(same k).2]
  exact hTaken

/-- Some actions, and then a run. -/
theorem exists_prepend {s : State} {actions : List Action}
    (along : AllowedAlong step allowed s actions)
    (later : ∀ n, allowed (run.state n) (run.action n))
    (executed : runActions step s actions = some (run.state 0)) :
    ∃ run' : Execution step, (∀ n, allowed (run'.state n) (run'.action n)) ∧
      (∀ i, i ≤ actions.length → runActions step s (actions.take i) = some (run'.state i)) ∧
      Continues run run' actions.length := by
  induction actions generalizing s with
  | nil =>
      cases executed
      refine ⟨run, later, ?_, fun n => ?_⟩
      · intro i hi
        obtain rfl : i = 0 := Nat.le_zero.mp hi
        rfl
      · rw [List.length_nil, Nat.zero_add]
        exact ⟨rfl, rfl⟩
  | cons a actions ih =>
      obtain ⟨t, hStep, hRest⟩ := Option.bind_eq_some_iff.mp executed
      obtain ⟨rest, hAllowed, hStates, hSame⟩ := ih (along.2 t hStep) hRest
      have hFirst : step s a = some (rest.state 0) := by
        rw [← hStates 0 (Nat.zero_le _)]
        exact hStep
      refine ⟨rest.cons hFirst, ?_, ?_, ?_⟩
      · rintro (_ | n)
        · exact along.1
        · exact hAllowed n
      · rintro (_ | i) hi
        · rfl
        · exact Option.bind_eq_some_iff.mpr ⟨t, hStep, hStates i (Nat.le_of_succ_le_succ hi)⟩
      · intro n
        rw [List.length_cons, Nat.succ_add]
        exact hSame n

end Prepend
end Execution
end Interaction
