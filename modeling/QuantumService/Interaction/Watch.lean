import Mathlib.Logic.Function.Basic
import QuantumService.Interaction.Register

/-! A watch on a stored object. Each write is told to the watcher in its turn, and
names the keys that are to be looked at again; until then it is news. What is read
from the cache is never older than what was told. -/
namespace Interaction
universe u v
variable {α : Type u} {κ : Type v} {r r' : Register α} {news : List (List κ)} {k : κ}

/-- The news after the store went from one state to the next, newest first. Reading
makes no news. -/
def tell (requests : Option α → Option α → List κ) (before after : Register α)
    (news : List (List κ)) : List (List κ) :=
  if before.visible.length < after.visible.length then
    requests before.current after.current :: news
  else news

/-- Whoever may be served another value than the current one is named by the news. -/
def Covers (r : Register α) (news : List (List κ)) (k : κ) : Prop :=
  ∀ age value, age ≤ news.length → r.visible[age]? = some value → value ≠ r.current →
    ∃ keys ∈ news.take age, k ∈ keys

/-- The key is named by news that was not told yet. -/
def InNews (news : List (List κ)) (k : κ) : Prop := ∃ keys ∈ news, k ∈ keys

theorem tell_write (requests : Option α → Option α → List κ) (value : Option α) :
    tell requests r (r.write value) news = requests r.current value :: news := by
  simp [tell]

theorem tell_same (requests : Option α → Option α → List κ) : tell requests r r news = news := by
  simp [tell]

theorem tell_read (requests : Option α → Option α → List κ) {age : Nat} {value : Option α}
    (read : r.read age = some (value, r')) : tell requests r r' news = news := by
  unfold tell
  rw [if_neg]
  rw [(Register.visible_read read).2, List.length_take]
  omega

/-- News is told in its turn. -/
theorem suffix_tell (requests : Option α → Option α → List κ) (before after : Register α) :
    news <:+ tell requests before after news := by
  unfold tell
  split
  · exact List.suffix_cons _ _
  · exact List.suffix_refl _

/-- News stays until it is told. -/
theorem inNews_tell (requests : Option α → Option α → List κ) (after : Register α)
    (named : InNews news k) : InNews (tell requests r after news) k := by
  unfold tell
  split
  · obtain ⟨keys, hMem, hKey⟩ := named
    exact ⟨keys, List.mem_cons_of_mem _ hMem, hKey⟩
  · exact named

theorem covers_synced (value : Option α) : Covers (.synced value) news k := by
  intro age served _ hServed hOther
  rw [Register.visible_synced, List.getElem?_singleton] at hServed
  split at hServed
  · cases hServed
    exact absurd rfl hOther
  · cases hServed

/-- A write that changes the value names the key. -/
theorem Covers.write (covers : Covers r news k) {value : Option α} {keys : List κ}
    (names : value ≠ r.current → k ∈ keys) : Covers (r.write value) (keys :: news) k := by
  intro age served hAge hServed hOther
  rw [Register.current_write] at hOther
  rw [Register.visible_write] at hServed
  cases age with
  | zero =>
      cases hServed
      exact absurd rfl hOther
  | succ age =>
      rw [List.getElem?_cons_succ] at hServed
      by_cases hSame : served = r.current
      · have hChanged : value ≠ r.current := fun hValue => hOther (hSame.trans hValue.symm)
        exact ⟨keys, List.mem_cons_self, names hChanged⟩
      · rw [List.length_cons, Nat.succ_le_succ_iff] at hAge
        obtain ⟨keys', hMem, hKey⟩ := covers age served hAge hServed hSame
        exact ⟨keys', List.mem_cons_of_mem _ hMem, hKey⟩

theorem Covers.read (covers : Covers r news k) {age : Nat} {value : Option α}
    (read : r.read age = some (value, r')) : Covers r' news k := by
  intro age' served hAge hServed hOther
  rw [Register.current_read read] at hOther
  rw [(Register.visible_read read).2, List.getElem?_take] at hServed
  split at hServed
  · exact covers age' served hAge hServed hOther
  · cases hServed

/-- Telling the oldest news. -/
theorem Covers.told {keys : List κ} (covers : Covers r (news ++ [keys]) k) : Covers r news k := by
  intro age served hAge hServed hOther
  have hLonger : age ≤ (news ++ [keys]).length := by
    rw [List.length_append]
    omega
  obtain ⟨keys', hMem, hKey⟩ := covers age served hLonger hServed hOther
  rw [List.take_append_of_le_length hAge] at hMem
  exact ⟨keys', hMem, hKey⟩

section Told
universe w
variable {ι : Type w} [DecidableEq ι] {feeds : ι → List (List κ)} {other i : ι} {keys : List κ}

/-- Of many watches, one tells its oldest news. -/
theorem Covers.told_of (covers : Covers r (feeds i) k) (told : feeds other = news ++ [keys]) :
    Covers r (Function.update feeds other news i) k := by
  by_cases hSame : i = other
  · subst hSame
    rw [Function.update_self]
    rw [told] at covers
    exact covers.told
  · rw [Function.update_of_ne hSame]
    exact covers

theorem inNews_of_told (named : InNews (feeds i) k) (told : feeds other = news ++ [keys]) :
    k ∈ keys ∨ InNews (Function.update feeds other news i) k := by
  by_cases hSame : i = other
  · subst hSame
    rw [told] at named
    rw [Function.update_self]
    obtain ⟨keys', hMem, hKey⟩ := named
    rcases List.mem_append.mp hMem with hOld | hNew
    · exact .inr ⟨keys', hOld, hKey⟩
    · exact .inl (List.mem_singleton.mp hNew ▸ hKey)
  · rw [Function.update_of_ne hSame]
    exact .inr named

end Told

/-- What happens to a stored object at a time. -/
inductive Evolves (r : Register α) : Register α → Prop where
  | same : Evolves r r
  | read {age : Nat} {value : Option α} {r' : Register α}
      (read : r.read age = some (value, r')) : Evolves r r'
  | write (value : Option α) : Evolves r (r.write value)

section Evolves
variable {requests : Option α → Option α → List κ}

theorem Covers.tell (covers : Covers r news k) (evolves : Evolves r r')
    (names : r'.current ≠ r.current → k ∈ requests r.current r'.current) :
    Covers r' (tell requests r r' news) k := by
  cases evolves with
  | same =>
      rw [tell_same]
      exact covers
  | read read =>
      rw [tell_read requests read]
      exact covers.read read
  | write value =>
      rw [tell_write]
      exact covers.write names

/-- A change is news. -/
theorem inNews_of_changed (evolves : Evolves r r') (changed : r'.current ≠ r.current)
    (names : r'.current ≠ r.current → k ∈ requests r.current r'.current) :
    InNews (Interaction.tell requests r r' news) k := by
  cases evolves with
  | same => exact absurd rfl changed
  | read read => exact absurd (Register.current_read read) changed
  | write value =>
      rw [tell_write]
      exact ⟨_, List.mem_cons_self, names changed⟩

end Evolves

/-- A read is up to date, or there is news of it. -/
theorem Covers.of_read (covers : Covers r news k) {age : Nat} {value : Option α}
    (recent : age ≤ news.length) (read : r.read age = some (value, r')) :
    value = r.current ∨ InNews news k := by
  by_cases hSame : value = r.current
  · exact .inl hSame
  · obtain ⟨keys, hMem, hKey⟩ := covers age value recent (Register.visible_read read).1 hSame
    exact .inr ⟨keys, List.mem_of_mem_take hMem, hKey⟩

end Interaction
