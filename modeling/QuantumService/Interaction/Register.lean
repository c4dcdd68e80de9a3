import Mathlib.Data.List.Basic
import Mathlib.Data.List.Pairwise

/-! A stored object seen through a cache. The store holds its current value,
and a reader may still be served any value written since the one it was served
last. Reads can therefore lag behind the store but never go backwards. -/
namespace Interaction
universe u

/-- `stale` lists, newest first, the older values a read may still return.
`none` is a value like any other: the object does not exist. -/
structure Register (α : Type u) where
  current : Option α
  stale : List (Option α)

namespace Register
variable {α : Type u}

/-- An object whose reader is up to date. -/
def synced (value : Option α) : Register α := ⟨value, []⟩

/-- Everything the next read can return, newest first. -/
def visible (r : Register α) : List (Option α) := r.current :: r.stale

/-- The value the reader was served last, or an older one it started from. -/
def oldest (r : Register α) : Option α := (r.visible.getLast?).join

def write (r : Register α) (value : Option α) : Register α := ⟨value, r.visible⟩

/-- Serve the value that is `age` writes old, and forget the ones before it. -/
def read (r : Register α) (age : Nat) : Option (Option α × Register α) :=
  match r.visible[age]? with
  | some value => some (value, ⟨r.current, r.stale.take age⟩)
  | none => none

@[simp] theorem visible_synced (value : Option α) : (synced value).visible = [value] := rfl

@[simp] theorem current_write (r : Register α) (value : Option α) :
    (r.write value).current = value := rfl

@[simp] theorem visible_write (r : Register α) (value : Option α) :
    (r.write value).visible = value :: r.visible := rfl

theorem current_mem_visible (r : Register α) : r.current ∈ r.visible :=
  List.mem_cons_self ..

@[simp] theorem oldest_write (r : Register α) (value : Option α) :
    (r.write value).oldest = r.oldest := by
  rw [oldest, visible_write, visible, List.getLast?_cons_cons]
  rfl

section Read
variable {r r' : Register α} {age : Nat} {value : Option α}

theorem visible_read (h : r.read age = some (value, r')) :
    r.visible[age]? = some value ∧ r'.visible = r.visible.take (age + 1) := by
  unfold read at h
  split at h
  · rename_i served hServed
    obtain ⟨rfl, rfl⟩ := Prod.mk.inj (Option.some.inj h)
    exact ⟨hServed, rfl⟩
  · cases h

theorem current_read (h : r.read age = some (value, r')) : r'.current = r.current := by
  unfold read at h
  split at h
  · cases h; rfl
  · cases h

/-- A read that does not lag behind serves what is stored. -/
theorem value_of_read (h : r.read 0 = some (value, r')) : value = r.current := by
  simpa [visible] using (visible_read h).1.symm

theorem value_mem_visible (h : r.read age = some (value, r')) : value ∈ r.visible :=
  List.mem_of_getElem? (visible_read h).1

/-- A read only removes values from what later reads can return. -/
theorem visible_subset_of_read (h : r.read age = some (value, r')) :
    ∀ {x}, x ∈ r'.visible → x ∈ r.visible := by
  intro x hx
  rw [(visible_read h).2] at hx
  exact List.mem_of_mem_take hx

theorem sublist_of_read (h : r.read age = some (value, r')) :
    r'.visible.Sublist r.visible := by
  rw [(visible_read h).2]
  exact List.take_sublist _ _

/-- The value served is the oldest one a later read can return. -/
theorem getLast_read (h : r.read age = some (value, r')) :
    r'.visible.getLast? = some value := by
  obtain ⟨hServed, hVisible⟩ := visible_read h
  rw [hVisible, List.getLast?_eq_getElem?, List.length_take, List.getElem?_take]
  obtain ⟨hLength, _⟩ := List.getElem?_eq_some_iff.mp hServed
  have hMin : min (age + 1) r.visible.length - 1 = age := by omega
  rw [hMin, if_pos (Nat.lt_succ_self age), hServed]

theorem oldest_read (h : r.read age = some (value, r')) : r'.oldest = value := by
  simp [oldest, getLast_read h]

end Read

theorem getLast?_visible (r : Register α) : r.visible.getLast? = some r.oldest := by
  have hSome : r.visible.getLast? = some (r.visible.getLast (by simp [visible])) :=
    List.getLast?_eq_some_getLast _
  rw [oldest, hSome]
  rfl

theorem oldest_mem (r : Register α) : r.oldest ∈ r.visible :=
  List.mem_of_getLast? r.getLast?_visible

/-- The oldest visible value is a visible one. -/
theorem oldest_mem_visible {r : Register α} {x : α} (h : r.oldest = some x) :
    some x ∈ r.visible := by
  rw [← h]
  exact r.oldest_mem

/-- A relation between newer and older visible values relates each of them to
the oldest one, unless it is the oldest one itself. -/
theorem eq_or_rel_oldest {r : Register α} {rel : Option α → Option α → Prop}
    (ordered : r.visible.Pairwise rel) {y : Option α} (hy : y ∈ r.visible) :
    y = r.oldest ∨ rel y r.oldest := by
  have hLast := r.getLast?_visible
  generalize r.visible = values at ordered hy hLast
  generalize r.oldest = last at hLast
  induction values with
  | nil => simp at hy
  | cons head tail ih =>
      rw [List.pairwise_cons] at ordered
      cases tail with
      | nil =>
          have hHead : head = last := by simpa using hLast
          have hSame : y = head := by simpa using hy
          exact .inl (hSame.trans hHead)
      | cons next rest =>
          rw [List.getLast?_cons_cons] at hLast
          rcases List.mem_cons.mp hy with rfl | hTail
          · exact .inr (ordered.1 last (List.mem_of_getLast? hLast))
          · exact ih ordered.2 hTail hLast

theorem rel_oldest {r : Register α} {rel : Option α → Option α → Prop} {x : α}
    (ordered : r.visible.Pairwise rel) (h : r.oldest = some x) {y : Option α}
    (hy : y ∈ r.visible) : y = some x ∨ rel y (some x) := by
  rw [← h]
  exact eq_or_rel_oldest ordered hy

/-- Of two visible values one is newer, unless they are the same. -/
theorem rel_visible {r : Register α} {rel : Option α → Option α → Prop}
    (ordered : r.visible.Pairwise rel) {x y : Option α} (hx : x ∈ r.visible)
    (hy : y ∈ r.visible) : x = y ∨ rel x y ∨ rel y x := by
  have hSymm : Std.Symm fun x y => x = y ∨ rel x y ∨ rel y x := by
    constructor
    rintro x y (rfl | hNewer | hOlder)
    · exact .inl rfl
    · exact .inr (.inr hNewer)
    · exact .inr (.inl hOlder)
  have hPairs := ordered.imp fun {x y} (h : rel x y) => (.inr (.inl h) : x = y ∨ rel x y ∨ rel y x)
  exact hPairs.forall_of_forall (fun _ _ => .inl rfl) hx hy

/-- A reader that was served the current value has nothing else to be served. -/
theorem visible_of_oldest_current {r : Register α} {rel : Option α → Option α → Prop} {x : α}
    (ordered : r.visible.Pairwise rel) (irreflexive : ¬ rel (some x) (some x))
    (hCurrent : r.current = some x) (hOldest : r.oldest = some x) : r.visible = [some x] := by
  obtain ⟨current, stale⟩ := r
  obtain rfl : current = some x := hCurrent
  cases stale with
  | nil => rfl
  | cons y ys =>
      have hLast : ((y :: ys).getLast?).join = some x := by
        simpa [oldest, visible] using hOldest
      have hMem : some x ∈ y :: ys := oldest_mem_visible (r := ⟨y, ys⟩) hLast
      exact absurd ((List.pairwise_cons.mp ordered).1 _ hMem) irreflexive

end Register
end Interaction
