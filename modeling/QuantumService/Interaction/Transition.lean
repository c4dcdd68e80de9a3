import Mathlib.Tactic.Common

/-! Runs of a system given by an executable step. An action chooses everything
the step leaves open, and a run may be limited to actions that are allowed in
the state they are taken in. -/
namespace Interaction
universe u v
variable {State : Type u} {Action : Type v}

/-- The states some run from `start` reaches by allowed actions. -/
inductive Reaches (step : State → Action → Option State) (allowed : State → Action → Prop)
    (start : State → Prop) : State → Prop where
  | start {s : State} (initial : start s) : Reaches step allowed start s
  | step {s t : State} {a : Action} (before : Reaches step allowed start s)
      (permitted : allowed s a) (stepped : step s a = some t) : Reaches step allowed start t

variable {step : State → Action → Option State} {allowed allowed' : State → Action → Prop}
  {start start' : State → Prop}

/-- What holds initially and is kept by every allowed step holds throughout.
The step may use that its source is reachable, so invariants can be layered. -/
theorem Reaches.invariant {inv : State → Prop} (initial : ∀ s, start s → inv s)
    (preserved : ∀ s a t, Reaches step allowed start s → inv s → allowed s a →
      step s a = some t → inv t) {s : State} (run : Reaches step allowed start s) : inv s := by
  induction run with
  | start h => exact initial _ h
  | step before permitted stepped ih => exact preserved _ _ _ before ih permitted stepped

/-- A restriction that the other one implies in every reachable state. -/
theorem Reaches.implies
    (implied : ∀ s a, Reaches step allowed start s → allowed s a → allowed' s a) {s : State}
    (run : Reaches step allowed start s) : Reaches step allowed' start s := by
  induction run with
  | start h => exact .start h
  | step before permitted stepped ih => exact .step ih (implied _ _ before permitted) stepped

/-- A weaker restriction, or a weaker start, reaches at least the same states. -/
theorem Reaches.mono (starts : ∀ s, start s → start' s)
    (weaker : ∀ s a, allowed s a → allowed' s a) {s : State}
    (run : Reaches step allowed start s) : Reaches step allowed' start' s := by
  induction run with
  | start h => exact .start (starts _ h)
  | step _ permitted stepped ih => exact .step ih (weaker _ _ permitted) stepped

/-- A run goes on from any state it has reached. -/
theorem Reaches.trans {s t : State} (run : Reaches step allowed start s)
    (later : Reaches step allowed (· = s) t) : Reaches step allowed start t := by
  induction later with
  | start h => exact h ▸ run
  | step _ permitted stepped ih => exact .step ih permitted stepped

/-- A system that is built over another one refines it when every step of the
larger system is matched by steps of the smaller one between the images. -/
theorem Reaches.project {State' : Type u} {Action' : Type v}
    {step' : State' → Action' → Option State'} {allowed' : State' → Action' → Prop}
    {start' : State' → Prop} (f : State → State') (starts : ∀ s, start s → start' (f s))
    (matched : ∀ s a t, Reaches step allowed start s → allowed s a → step s a = some t →
      Reaches step' allowed' start' (f s) → Reaches step' allowed' start' (f t))
    {s : State} (run : Reaches step allowed start s) :
    Reaches step' allowed' start' (f s) := by
  induction run with
  | start h => exact .start (starts _ h)
  | step before permitted stepped ih => exact matched _ _ _ before permitted stepped ih

/-- Execute a list of actions, failing at the first one that is not enabled. -/
def runActions (step : State → Action → Option State) : State → List Action → Option State
  | s, [] => some s
  | s, a :: actions => (step s a).bind fun t => runActions step t actions

/-- Every action of the list is allowed in the state it is taken in. -/
def AllowedAlong (step : State → Action → Option State) (allowed : State → Action → Prop) :
    State → List Action → Prop
  | _, [] => True
  | s, a :: actions => allowed s a ∧ ∀ t, step s a = some t → AllowedAlong step allowed t actions

theorem AllowedAlong.of_forall {s : State} {actions : List Action}
    (permitted : ∀ a ∈ actions, ∀ s, allowed s a) : AllowedAlong step allowed s actions := by
  induction actions generalizing s with
  | nil => trivial
  | cons a actions ih =>
      exact ⟨permitted a List.mem_cons_self s,
        fun _ _ => ih fun b hMem => permitted b (List.mem_cons_of_mem _ hMem)⟩

theorem AllowedAlong.mono (weaker : ∀ s a, allowed s a → allowed' s a) {s : State}
    {actions : List Action} (along : AllowedAlong step allowed s actions) :
    AllowedAlong step allowed' s actions := by
  induction actions generalizing s with
  | nil => trivial
  | cons a actions ih => exact ⟨weaker s a along.1, fun t hStep => ih (along.2 t hStep)⟩

/-- A restriction that can be decided can be decided along a list of actions. -/
instance AllowedAlong.decidable [∀ s a, Decidable (allowed s a)] :
    (s : State) → (actions : List Action) → Decidable (AllowedAlong step allowed s actions)
  | _, [] => .isTrue trivial
  | s, a :: actions =>
      match hStep : step s a with
      | none => decidable_of_iff (allowed s a)
          ⟨fun hAllowed => ⟨hAllowed, fun t hNext => by rw [hStep] at hNext; cases hNext⟩,
            And.left⟩
      | some t =>
          have := AllowedAlong.decidable t actions
          decidable_of_iff (allowed s a ∧ AllowedAlong step allowed t actions)
            ⟨fun h => ⟨h.1, fun t' hNext => by rw [hStep] at hNext; cases hNext; exact h.2⟩,
              fun h => ⟨h.1, h.2 t hStep⟩⟩

/-- Executing allowed actions stays within the reachable states. -/
theorem Reaches.runActions {s t : State} {actions : List Action}
    (run : Reaches step allowed start s) (along : AllowedAlong step allowed s actions)
    (executed : runActions step s actions = some t) : Reaches step allowed start t := by
  induction actions generalizing s with
  | nil =>
      cases executed
      exact run
  | cons a actions ih =>
      obtain ⟨middle, hStep, hRest⟩ := Option.bind_eq_some_iff.mp executed
      exact ih (.step run along.1 hStep) (along.2 middle hStep) hRest

/-- If only some actions raise a measure, and none of them by more than the price, a run
raises it by at most the price of those it takes. -/
theorem AllowedAlong.charge {inv : State → Prop} {measure : State → Int} {charged : Action → Bool}
    {price : Int} (preserved : ∀ s a t, inv s → allowed s a → step s a = some t →
      inv t ∧ measure t ≤ measure s + if charged a then price else 0)
    {s t : State} {actions : List Action} (along : AllowedAlong step allowed s actions)
    (executed : runActions step s actions = some t) (holds : inv s) :
    inv t ∧ measure t ≤ measure s + price * actions.countP charged := by
  induction actions generalizing s with
  | nil =>
      cases executed
      exact ⟨holds, by simp⟩
  | cons a actions ih =>
      obtain ⟨middle, hStep, hRest⟩ := Option.bind_eq_some_iff.mp executed
      obtain ⟨hMiddle, hFirst⟩ := preserved s a middle holds along.1 hStep
      obtain ⟨hInv, hLater⟩ := ih (along.2 middle hStep) hRest hMiddle
      refine ⟨hInv, ?_⟩
      by_cases hCharged : charged a = true
      · rw [if_pos hCharged] at hFirst
        rw [List.countP_cons_of_pos hCharged, Int.natCast_succ, Int.mul_add]
        omega
      · rw [if_neg hCharged] at hFirst
        rw [List.countP_cons_of_neg hCharged]
        omega

end Interaction
