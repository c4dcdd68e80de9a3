import Mathlib.Data.List.Infix

/-! Removing every occurrence of a pattern from a list, from left to right and
without overlaps, as `replace` with an empty replacement does it on texts. -/
namespace Text
universe u
variable {α : Type u} [DecidableEq α]

/-- Remove the occurrences that start after the next `skip` elements, which belong
to an occurrence that was found. -/
def removeFrom (pattern : List α) : Nat → List α → List α
  | _, [] => []
  | skip + 1, _ :: xs => removeFrom pattern skip xs
  | 0, x :: xs =>
      if pattern.isPrefixOf (x :: xs) then removeFrom pattern (pattern.length - 1) xs
      else x :: removeFrom pattern 0 xs

def remove (pattern xs : List α) : List α := removeFrom pattern 0 xs

variable {pattern xs ys : List α}

theorem length_removeFrom_le (pattern : List α) (skip : Nat) (xs : List α) :
    (removeFrom pattern skip xs).length ≤ xs.length := by
  induction xs generalizing skip with
  | nil => cases skip <;> exact Nat.le_refl _
  | cons x xs ih =>
      cases skip with
      | succ skip => exact Nat.le_succ_of_le (ih skip)
      | zero =>
          rw [removeFrom]
          split
          · exact Nat.le_succ_of_le (ih _)
          · exact Nat.succ_le_succ (ih 0)

theorem length_remove_le (pattern xs : List α) : (remove pattern xs).length ≤ xs.length :=
  length_removeFrom_le pattern 0 xs

theorem removeFrom_append (pattern xs ys : List α) :
    removeFrom pattern xs.length (xs ++ ys) = remove pattern ys := by
  induction xs with
  | nil => rfl
  | cons x xs ih => exact ih

/-- An occurrence at the start is removed. -/
theorem remove_append_self (nonempty : pattern ≠ []) :
    remove pattern (pattern ++ xs) = remove pattern xs := by
  cases pattern with
  | nil => exact absurd rfl nonempty
  | cons p ps =>
      have hPrefix : (p :: ps).isPrefixOf (p :: (ps ++ xs)) = true :=
        List.isPrefixOf_iff_prefix.mpr (List.prefix_append (p :: ps) xs)
      rw [remove, List.cons_append, removeFrom, if_pos hPrefix]
      exact removeFrom_append (p :: ps) ps xs

/-- Nothing is removed where the pattern does not occur. -/
theorem remove_of_not_infix (absent : ¬ pattern <:+: xs) : remove pattern xs = xs := by
  induction xs with
  | nil => rfl
  | cons x xs ih =>
      rw [List.infix_cons_iff, not_or] at absent
      have hPrefix : ¬ pattern.isPrefixOf (x :: xs) = true :=
        fun h => absent.1 (List.isPrefixOf_iff_prefix.mp h)
      have hRest : removeFrom pattern 0 xs = xs := ih absent.2
      rw [remove, removeFrom, if_neg hPrefix, hRest]

/-- Where the pattern occurs, something is removed. -/
theorem length_remove_lt (nonempty : pattern ≠ []) (present : pattern <:+: xs) :
    (remove pattern xs).length < xs.length := by
  induction xs with
  | nil => exact absurd (List.infix_nil.mp present) nonempty
  | cons x xs ih =>
      rw [remove, removeFrom]
      split
      · exact Nat.lt_succ_of_le (length_removeFrom_le pattern _ xs)
      · rename_i hPrefix
        rcases List.infix_cons_iff.mp present with hHere | hLater
        · exact absurd (List.isPrefixOf_iff_prefix.mpr hHere) hPrefix
        · exact Nat.succ_lt_succ (ih hLater)

/-- A list is kept as it is exactly when the pattern does not occur in it. -/
theorem remove_eq_self_iff (nonempty : pattern ≠ []) :
    remove pattern xs = xs ↔ ¬ pattern <:+: xs := by
  constructor
  · intro hSame hPresent
    have hShorter := length_remove_lt nonempty hPresent
    rw [hSame] at hShorter
    exact Nat.lt_irrefl _ hShorter
  · exact remove_of_not_infix

end Text
