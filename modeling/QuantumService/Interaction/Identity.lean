import QuantumService.Interaction.Register

/-! What the visible values of an object have in common. They may be of two
kinds at most, and they may all be versions of one object, which is told from
its successors under the same name by an identity. -/
namespace Interaction.Register
universe u v
variable {α : Type u} {β : Type v} {r r' : Register α} {age : Nat} {value : Option α}

section Phased
variable {f : Option α → β}

/-- The visible values are of at most two kinds, the newer kind first. -/
def Phased (f : Option α → β) (r : Register α) : Prop :=
  ∃ newer older m n, r.visible.map f = List.replicate m newer ++ List.replicate n older

theorem phased_synced (value : Option α) : Phased f (synced value) :=
  ⟨f value, f value, 0, 1, rfl⟩

theorem Phased.read (phased : Phased f r) (h : r.read age = some (value, r')) :
    Phased f r' := by
  obtain ⟨newer, older, m, n, hMap⟩ := phased
  refine ⟨newer, older, min (age + 1) m, min (age + 1 - m) n, ?_⟩
  rw [(visible_read h).2, List.map_take, hMap, List.take_append, List.take_replicate,
    List.take_replicate, List.length_replicate]

/-- Another value of the newest kind. -/
theorem Phased.write_same (phased : Phased f r) (same : f value = f r.current) :
    Phased f (r.write value) := by
  obtain ⟨newer, older, m, n, hMap⟩ := phased
  have hWrite : (r.write value).visible.map f = f r.current :: r.visible.map f := by
    rw [visible_write, List.map_cons, same]
  have hHead : (r.visible.map f).head? = some (f r.current) := rfl
  rw [hMap] at hWrite hHead
  cases m with
  | zero =>
      cases n with
      | zero => simp at hHead
      | succ n =>
          have hOlder : older = f r.current := by simpa [List.replicate_succ] using hHead
          refine ⟨newer, older, 0, n + 2, ?_⟩
          rw [hWrite, ← hOlder]
          rfl
  | succ m =>
      have hNewer : newer = f r.current := by simpa [List.replicate_succ] using hHead
      refine ⟨newer, older, m + 2, n, ?_⟩
      rw [hWrite, ← hNewer]
      rfl

/-- A visible value is of the kind of the current or of the oldest one. -/
theorem Phased.cases (phased : Phased f r) {x : Option α} (mem : x ∈ r.visible) :
    f x = f r.current ∨ f x = f r.oldest := by
  obtain ⟨newer, older, m, n, hMap⟩ := phased
  have hLast : (r.visible.map f).getLast? = some (f r.oldest) := by
    rw [List.getLast?_map, getLast?_visible]
    rfl
  have hHead : (r.visible.map f).head? = some (f r.current) := rfl
  have hMem : f x ∈ r.visible.map f := List.mem_map_of_mem mem
  rw [hMap] at hLast hHead hMem
  rcases List.mem_append.mp hMem with hNewer | hOlder
  · obtain ⟨hm, hx⟩ := List.mem_replicate.mp hNewer
    left
    obtain ⟨k, rfl⟩ := Nat.exists_eq_succ_of_ne_zero hm
    rw [List.replicate_succ, List.cons_append, List.head?_cons, Option.some.injEq] at hHead
    rw [hx, hHead]
  · obtain ⟨hn, hx⟩ := List.mem_replicate.mp hOlder
    right
    rw [List.getLast?_append, List.getLast?_replicate, if_neg hn] at hLast
    rw [hx]
    exact Option.some.inj hLast

/-- Once all visible values are of one kind, any other value may follow. -/
theorem Phased.write (phased : Phased f r) (settled : f r.current = f r.oldest)
    (value : Option α) : Phased f (r.write value) := by
  have hAll : r.visible.map f = List.replicate r.visible.length (f r.oldest) := by
    rw [← List.length_map f]
    apply List.eq_replicate_of_mem
    intro y hy
    obtain ⟨x, hx, rfl⟩ := List.mem_map.mp hy
    rcases phased.cases hx with hSame | hSame
    · exact hSame.trans settled
    · exact hSame
  refine ⟨f value, f r.oldest, 1, r.visible.length, ?_⟩
  rw [visible_write, List.map_cons, hAll]
  rfl

end Phased

/-- No visible value is an object. -/
def Unused (r : Register α) : Prop := ∀ x, some x ∉ r.visible

section Identity
variable (identity : α → β)

/-- The visible values are versions of one object, or it is gone already. -/
def OneObject (r : Register α) : Prop :=
  r.visible.Pairwise fun newer older =>
    ∀ x, newer = some x → ∃ y, older = some y ∧ identity y = identity x

/-- The visible values are versions of one object, or it is not there yet. -/
structure Arrived (r : Register α) : Prop where
  present : ∃ x, r.current = some x
  same : ∀ {x y}, some x ∈ r.visible → some y ∈ r.visible → identity x = identity y
  ordered : r.visible.Pairwise fun newer older => newer = none → older = none

end Identity

section Lemmas
variable {identity : α → β} {x y : α}

theorem Unused.current (unused : Unused r) : r.current = none := by
  cases hCurrent : r.current with
  | none => rfl
  | some x => exact absurd (hCurrent ▸ r.current_mem_visible) (unused x)

theorem Unused.oldest (unused : Unused r) : r.oldest = none := by
  cases hOldest : r.oldest with
  | none => rfl
  | some x => exact absurd (oldest_mem_visible hOldest) (unused x)

theorem Unused.read (unused : Unused r) (h : r.read age = some (value, r')) : Unused r' :=
  fun x hMem => unused x (visible_subset_of_read h hMem)

theorem Unused.oneObject (unused : Unused r) : OneObject identity r := by
  apply List.pairwise_of_forall_mem_list
  intro newer hNewer older _ x hx
  exact absurd (hx ▸ hNewer) (unused x)

theorem Unused.arrived_write (unused : Unused r) (x : α) :
    Arrived identity (r.write (some x)) where
  present := ⟨x, rfl⟩
  same := by
    have hOnly : ∀ z, some z ∈ (r.write (some x)).visible → z = x := by
      intro z hMem
      rcases List.mem_cons.mp hMem with hNew | hOld
      · exact Option.some.inj hNew
      · exact absurd hOld (unused z)
    intro y z hy hz
    rw [hOnly y hy, hOnly z hz]
  ordered := by
    rw [visible_write, List.pairwise_cons]
    refine ⟨fun _ _ hNone => (nomatch hNone), ?_⟩
    apply List.pairwise_of_forall_mem_list
    intro newer _ older hOlder _
    cases older with
    | none => rfl
    | some y => exact absurd hOlder (unused y)

theorem OneObject.read (one : OneObject identity r) (h : r.read age = some (value, r')) :
    OneObject identity r' :=
  one.sublist (sublist_of_read h)

/-- Every visible object is the oldest one. -/
theorem OneObject.oldest (one : OneObject identity r) (mem : some x ∈ r.visible) :
    ∃ y, r.oldest = some y ∧ identity y = identity x := by
  rcases eq_or_rel_oldest one mem with hOldest | hOlder
  · exact ⟨x, hOldest.symm, rfl⟩
  · exact hOlder x rfl

theorem OneObject.same (one : OneObject identity r) (hx : some x ∈ r.visible)
    (hy : some y ∈ r.visible) : identity x = identity y := by
  obtain ⟨z, hOldest, hzx⟩ := one.oldest hx
  obtain ⟨z', hOldest', hzy⟩ := one.oldest hy
  rw [hOldest, Option.some.injEq] at hOldest'
  subst hOldest'
  rw [← hzx, ← hzy]

/-- A reader that was told the object is gone will not see it again. -/
theorem OneObject.unused (one : OneObject identity r) (gone : r.oldest = none) : Unused r := by
  intro x hMem
  obtain ⟨y, hOldest, -⟩ := one.oldest hMem
  rw [gone] at hOldest
  cases hOldest

theorem OneObject.write (one : OneObject identity r) (present : r.current = some x)
    (same : identity y = identity x) : OneObject identity (r.write (some y)) := by
  refine List.pairwise_cons.mpr ⟨?_, one⟩
  rintro older hOlder _ ⟨⟩
  rcases List.mem_cons.mp hOlder with rfl | hStale
  · exact ⟨x, present, same.symm⟩
  · obtain ⟨z, hz, hSame⟩ := (List.pairwise_cons.mp one).1 older hStale x present
    exact ⟨z, hz, hSame.trans same.symm⟩

theorem OneObject.write_none (one : OneObject identity r) : OneObject identity (r.write none) := by
  refine List.pairwise_cons.mpr ⟨?_, one⟩
  rintro older _ x ⟨⟩

theorem Arrived.read (arrived : Arrived identity r) (h : r.read age = some (value, r')) :
    Arrived identity r' where
  present := by
    rw [current_read h]
    exact arrived.present
  same := fun hx hy =>
    arrived.same (visible_subset_of_read h hx) (visible_subset_of_read h hy)
  ordered := arrived.ordered.sublist (sublist_of_read h)

theorem Arrived.write (arrived : Arrived identity r) (present : r.current = some x)
    (same : identity y = identity x) : Arrived identity (r.write (some y)) where
  present := ⟨y, rfl⟩
  same := by
    have hAll : ∀ z, some z ∈ (r.write (some y)).visible → identity z = identity x := by
      intro z hMem
      rcases List.mem_cons.mp hMem with hNew | hOld
      · rw [Option.some.inj hNew, same]
      · exact arrived.same hOld (present ▸ r.current_mem_visible)
    intro z z' hz hz'
    rw [hAll z hz, hAll z' hz']
  ordered := List.pairwise_cons.mpr ⟨fun _ _ hNone => (nomatch hNone), arrived.ordered⟩

/-- Once a reader was served the object, it is there in all visible values. -/
theorem Arrived.oneObject (arrived : Arrived identity r) (served : r.oldest = some x) :
    OneObject identity r := by
  have hAll : ∀ value ∈ r.visible, value ≠ none := by
    rintro value hMem rfl
    rcases Register.rel_oldest arrived.ordered served hMem with hEq | hNone
    · cases hEq
    · cases hNone rfl
  apply List.pairwise_of_forall_mem_list
  rintro newer hNewer older hOlder z rfl
  cases older with
  | none => exact absurd rfl (hAll none hOlder)
  | some y => exact ⟨y, rfl, arrived.same hOlder hNewer⟩

end Lemmas
end Interaction.Register
