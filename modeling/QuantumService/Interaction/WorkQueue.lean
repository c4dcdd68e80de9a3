import Mathlib.Data.List.Nodup
import Mathlib.Logic.Function.Basic

/-! A queue of keys to be worked on, each by at most one worker at a time. A key that
is added while it is worked on is queued again when the worker is done, and a key may
be added later on. Adding a key twice is adding it once. -/
namespace Interaction
universe u

/-- `dirty` keys need work, `processing` ones are worked on, and `waiting` ones are to
be added when their time has come. -/
structure WorkQueue (κ : Type u) where
  queue : List κ
  dirty : κ → Bool
  processing : κ → Bool
  waiting : κ → Bool
  queued : ∀ k, k ∈ queue ↔ dirty k = true ∧ processing k = false
  nodup : queue.Nodup

namespace WorkQueue
variable {κ : Type u}

def empty : WorkQueue κ where
  queue := []
  dirty := fun _ => false
  processing := fun _ => false
  waiting := fun _ => false
  queued := by simp
  nodup := List.nodup_nil

variable [DecidableEq κ] (q : WorkQueue κ) (k : κ)

/-- `Add`. -/
def add : WorkQueue κ :=
  if hDirty : q.dirty k = true then q
  else
    { q with
      queue := if q.processing k then q.queue else q.queue ++ [k]
      dirty := Function.update q.dirty k true
      queued := by
        intro j
        have hQueued := q.queued j
        by_cases hKey : j = k
        · subst hKey
          cases hWorked : q.processing j <;> simp [hQueued, hDirty, hWorked]
        · cases hWorked : q.processing k <;> simp [hQueued, hKey]
      nodup := by
        have hFresh : k ∉ q.queue := fun hMem => hDirty ((q.queued k).mp hMem).1
        split
        · exact q.nodup
        · rw [← List.concat_eq_append]
          exact q.nodup.concat hFresh }

/-- `Get`, which hands out the key that was queued first. -/
def get : Option (κ × WorkQueue κ) :=
  match hQueue : q.queue with
  | [] => none
  | first :: rest => some (first,
      { q with
        queue := rest
        dirty := Function.update q.dirty first false
        processing := Function.update q.processing first true
        queued := by
          have hNodup := q.nodup
          intro j
          have hQueued := q.queued j
          rw [hQueue] at hNodup hQueued
          by_cases hKey : j = first
          · subst hKey
            simpa using (List.nodup_cons.mp hNodup).1
          · simpa [hKey] using hQueued
        nodup := by
          have hNodup := q.nodup
          rw [hQueue] at hNodup
          exact (List.nodup_cons.mp hNodup).2 })

/-- `Done`. -/
def done : WorkQueue κ :=
  { q with
    queue := if q.dirty k && q.processing k then q.queue ++ [k] else q.queue
    processing := Function.update q.processing k false
    queued := by
      intro j
      have hQueued := q.queued j
      by_cases hKey : j = k
      · subst hKey
        cases hDirty : q.dirty j <;> cases hWorked : q.processing j <;>
          simp [hQueued, hDirty, hWorked]
      · split <;> simp [hQueued, hKey]
    nodup := by
      split
      · rename_i hAgain
        have hWorked : q.processing k = true := by simp_all
        have hFresh : k ∉ q.queue := by simp [q.queued k, hWorked]
        rw [← List.concat_eq_append]
        exact q.nodup.concat hFresh
      · exact q.nodup }

/-- `AddAfter`, whose time comes with `fire`. -/
def addAfter : WorkQueue κ := { q with waiting := Function.update q.waiting k true }

def fire : Option (WorkQueue κ) :=
  if q.waiting k then some ({ q with waiting := Function.update q.waiting k false }.add k)
  else none

def addAll (keys : List κ) : WorkQueue κ := keys.foldl add q

section Effects
variable {q} {q' : WorkQueue κ} {j : κ} {keys : List κ}

theorem add_dirty : (q.add k).dirty j = true ↔ q.dirty j = true ∨ j = k := by
  unfold add
  split
  · by_cases hKey : j = k <;> simp_all
  · by_cases hKey : j = k <;> simp [hKey]

@[simp] theorem add_waiting : (q.add k).waiting = q.waiting := by
  unfold add
  split <;> rfl

@[simp] theorem add_processing : (q.add k).processing = q.processing := by
  unfold add
  split <;> rfl

theorem addAll_dirty : (q.addAll keys).dirty j = true ↔ q.dirty j = true ∨ j ∈ keys := by
  unfold addAll
  induction keys generalizing q with
  | nil => simp
  | cons first keys ih => rw [List.foldl_cons, ih, add_dirty, List.mem_cons, or_assoc]

@[simp] theorem addAll_waiting : (q.addAll keys).waiting = q.waiting := by
  unfold addAll
  induction keys generalizing q with
  | nil => rfl
  | cons first keys ih => rw [List.foldl_cons, ih, add_waiting]

@[simp] theorem addAll_processing : (q.addAll keys).processing = q.processing := by
  unfold addAll
  induction keys generalizing q with
  | nil => rfl
  | cons first keys ih => rw [List.foldl_cons, ih, add_processing]

/-- Handing out a key leaves the others as they are. -/
theorem get_inv (h : q.get = some (k, q')) : q.processing k = false ∧
    q'.waiting = q.waiting ∧ q'.processing = Function.update q.processing k true ∧
    q'.dirty = Function.update q.dirty k false := by
  unfold get at h
  split at h
  · cases h
  · rename_i first rest hQueue
    obtain ⟨rfl, rfl⟩ := Prod.mk.inj (Option.some.inj h)
    have hMem : first ∈ q.queue := by
      rw [hQueue]
      exact List.mem_cons_self
    exact ⟨((q.queued first).mp hMem).2, rfl, rfl, rfl⟩

/-- A key that needs work and is not worked on keeps the queue from being empty. -/
theorem get_isSome (dirty : q.dirty k = true) (idle : q.processing k = false) :
    q.get.isSome = true := by
  have hMem := (q.queued k).mpr ⟨dirty, idle⟩
  unfold get
  split
  · rename_i hQueue
    rw [hQueue] at hMem
    cases hMem
  · rfl

@[simp] theorem done_dirty : (q.done k).dirty = q.dirty := rfl
@[simp] theorem done_waiting : (q.done k).waiting = q.waiting := rfl
@[simp] theorem done_processing :
    (q.done k).processing = Function.update q.processing k false := rfl
@[simp] theorem addAfter_dirty : (q.addAfter k).dirty = q.dirty := rfl
@[simp] theorem addAfter_processing : (q.addAfter k).processing = q.processing := rfl

theorem addAfter_waiting : (q.addAfter k).waiting j = true ↔ q.waiting j = true ∨ j = k := by
  by_cases hKey : j = k <;> simp [addAfter, hKey]

/-- A key whose time has come is added. -/
theorem fire_inv (h : q.fire k = some q') : q.waiting k = true ∧
    q'.waiting = Function.update q.waiting k false ∧ q'.processing = q.processing ∧
    ∀ j, q'.dirty j = true ↔ q.dirty j = true ∨ j = k := by
  unfold fire at h
  split at h
  · rename_i hWaiting
    cases h
    refine ⟨hWaiting, add_waiting k, add_processing k, fun j => add_dirty k⟩
  · cases h

end Effects

section Order
variable {q} {q' : WorkQueue κ}

/-- Keys are handed out in the order they were queued in. -/
theorem queue_of_get (h : q.get = some (k, q')) : q.queue = k :: q'.queue := by
  unfold get at h
  split at h
  · cases h
  · rename_i first rest hQueue
    cases h
    exact hQueue

theorem add_queue : q.queue <+: (q.add k).queue := by
  unfold add
  split
  · exact List.prefix_refl _
  · dsimp only
    split
    · exact List.prefix_refl _
    · exact List.prefix_append _ _

theorem addAll_queue (keys : List κ) : q.queue <+: (q.addAll keys).queue := by
  unfold addAll
  induction keys generalizing q with
  | nil => exact List.prefix_refl _
  | cons first keys ih => exact (add_queue first).trans ih

theorem done_queue : q.queue <+: (q.done k).queue := by
  unfold done
  dsimp only
  split
  · exact List.prefix_append _ _
  · exact List.prefix_refl _

theorem fire_queue (h : q.fire k = some q') : q.queue <+: q'.queue := by
  unfold fire at h
  split at h
  · cases h
    exact add_queue (q := { q with waiting := Function.update q.waiting k false }) k
  · cases h

end Order

end WorkQueue
end Interaction
