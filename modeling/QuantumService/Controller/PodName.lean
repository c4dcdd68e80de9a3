import Mathlib.Data.List.Basic
import QuantumService.Controller.Reconcile

/-! The names of simulator pods. A pod's name determines its job and its
attempt, so that attempts of different jobs never share a pod. -/
namespace QuantumService.Controller

/-- What follows the last occurrence of a separator is determined by the whole. -/
theorem eq_of_append_cons_eq {α : Type} {c : α} {xs ys ds es : List α} (hd : c ∉ ds)
    (he : c ∉ es) (h : xs ++ c :: ds = ys ++ c :: es) : xs = ys ∧ ds = es := by
  rcases List.append_eq_append_iff.mp h with ⟨as, hys, htail⟩ | ⟨bs, hxs, htail⟩
  · cases as with
    | nil =>
        simp only [List.nil_append, List.cons.injEq, true_and] at htail
        exact ⟨by simpa using hys.symm, htail⟩
    | cons a as =>
        have hds : ds = as ++ c :: es := (List.cons.inj htail).2
        exact absurd (by simp [hds]) hd
  · cases bs with
    | nil =>
        simp only [List.nil_append, List.cons.injEq, true_and] at htail
        exact ⟨by simpa using hxs, htail.symm⟩
    | cons b bs =>
        have hes : es = bs ++ c :: ds := (List.cons.inj htail).2
        exact absurd (by simp [hes]) he

theorem natRepr_injective {m n : Nat} (h : m.repr = n.repr) : m = n := by
  have hDigits := congrArg (fun s : String => Nat.ofDigitChars 10 s.toList 0) h
  simpa [Nat.toList_repr, Nat.ofDigitChars_toDigits] using hDigits

theorem digit_of_mem_repr {n : Nat} {c : Char} (h : c ∈ n.repr.toList) : c.isDigit = true := by
  rw [Nat.toList_repr] at h
  exact Nat.isDigit_of_mem_toDigits (by decide) (by decide) h

/-- The decimal digits of a natural number do not start with a sign. -/
theorem natRepr_ne_neg {m n : Nat} : m.repr ≠ "-" ++ n.repr := by
  intro h
  have hMem : '-' ∈ m.repr.toList := by simp [h]
  exact absurd (digit_of_mem_repr hMem) (by decide)

theorem intRepr_injective {x y : Int} (h : x.repr = y.repr) : x = y := by
  rw [Int.repr_eq_if, Int.repr_eq_if] at h
  split at h <;> split at h
  · have hNat := natRepr_injective h
    omega
  · exact absurd h natRepr_ne_neg
  · exact absurd h.symm natRepr_ne_neg
  · have hChars := congrArg String.toList h
    rw [String.toList_append, String.toList_append] at hChars
    have hNat := natRepr_injective (String.toList_inj.mp (List.append_cancel_left hChars))
    omega

/-- The separator's last letter does not occur in a number. -/
theorem m_not_mem_intRepr (x : Int) : 'm' ∉ x.repr.toList := by
  intro h
  rw [Int.repr_eq_if] at h
  split at h
  · exact absurd (digit_of_mem_repr h) (by decide)
  · rw [String.toList_append] at h
    rcases List.mem_append.mp h with hSign | hDigit
    · exact absurd hSign (by decide)
    · exact absurd (digit_of_mem_repr hDigit) (by decide)

theorem simulatorPodName_toList (jobName : String) (retries : Int32) :
    (simulatorPodName jobName retries).toList =
      (jobName.toList ++ ['-', 's', 'i']) ++ 'm' :: '-' :: retries.toInt.repr.toList := by
  simp [simulatorPodName, toString]

theorem simulatorPodName_injective {name name' : String} {retries retries' : Int32}
    (h : simulatorPodName name retries = simulatorPodName name' retries') :
    name = name' ∧ retries = retries' := by
  have hChars := congrArg String.toList h
  rw [simulatorPodName_toList, simulatorPodName_toList] at hChars
  have hTail : ∀ r : Int32, 'm' ∉ '-' :: r.toInt.repr.toList := by
    intro r hMem
    rcases List.mem_cons.mp hMem with hSign | hDigits
    · exact absurd hSign (by decide)
    · exact m_not_mem_intRepr _ hDigits
  obtain ⟨hName, hNumber⟩ := eq_of_append_cons_eq (hTail _) (hTail _) hChars
  constructor
  · exact String.toList_inj.mp (List.append_cancel_right hName)
  · have hRepr := String.toList_inj.mp (List.cons.inj hNumber).2
    exact Int32.toInt_inj.mp (intRepr_injective hRepr)

theorem simulatorPodName_ne_empty (jobName : String) (retries : Int32) :
    simulatorPodName jobName retries ≠ "" := by
  intro h
  have hChars := congrArg String.toList h
  simp [simulatorPodName_toList] at hChars

/-- Pods of different jobs, or of different attempts, have different keys. -/
theorem simulatorPodKey_injective {key key' : NamespacedName} {retries retries' : Int32}
    (h : simulatorPodKey key retries = simulatorPodKey key' retries') :
    key = key' ∧ retries = retries' := by
  have hSpace := congrArg NamespacedName.nameSpace h
  obtain ⟨hName, hRetries⟩ := simulatorPodName_injective (congrArg NamespacedName.name h)
  obtain ⟨nameSpace, name⟩ := key
  obtain ⟨nameSpace', name'⟩ := key'
  simp only [simulatorPodKey] at hSpace hName
  exact ⟨by rw [hSpace, hName], hRetries⟩

/-- The number that a decimal stands for. -/
def readNumber : List Char → Int
  | '-' :: digits => -(Nat.ofDigitChars 10 digits 0)
  | digits => Nat.ofDigitChars 10 digits 0

theorem ofDigitChars_natRepr (n : Nat) : Nat.ofDigitChars 10 n.repr.toList 0 = n := by
  rw [Nat.toList_repr, Nat.ofDigitChars_toDigits (by decide) (by decide)]

theorem natRepr_ne_minus (n : Nat) (digits : List Char) : n.repr.toList ≠ '-' :: digits := by
  intro hSign
  have hMinus : '-' ∈ n.repr.toList := by
    rw [hSign]
    exact List.mem_cons_self
  exact absurd (digit_of_mem_repr hMinus) (by decide)

theorem toList_minus_append (text : String) : ("-" ++ text).toList = '-' :: text.toList := by
  rw [String.toList_append]
  rfl

theorem readNumber_natRepr (n : Nat) : readNumber n.repr.toList = n := by
  unfold readNumber
  split
  · rename_i digits hSign
    exact absurd hSign (natRepr_ne_minus n digits)
  · rw [ofDigitChars_natRepr]

/-- A number is read back from the decimal it is printed as. -/
theorem readNumber_repr (x : Int) : readNumber x.repr.toList = x := by
  rw [Int.repr_eq_if]
  split
  · rw [readNumber_natRepr]
    omega
  · rw [toList_minus_append, readNumber, ofDigitChars_natRepr]
    omega

/-- The attempt of the job that a pod is named for. -/
def attemptOf (key pod : NamespacedName) : Option Int32 :=
  let retries := Int32.ofInt (readNumber (pod.name.toList.drop (key.name ++ "-sim-").length))
  if pod = simulatorPodKey key retries then some retries else none

theorem attemptOf_eq_some_iff {key pod : NamespacedName} {retries : Int32} :
    attemptOf key pod = some retries ↔ pod = simulatorPodKey key retries := by
  unfold attemptOf
  dsimp only
  constructor
  · intro hSome
    split at hSome
    · rename_i hPod
      cases hSome
      exact hPod
    · cases hSome
  · rintro rfl
    have hName : (simulatorPodKey key retries).name.toList =
        (key.name ++ "-sim-").toList ++ retries.toInt.repr.toList := by
      show (simulatorPodName key.name retries).toList = _
      rw [simulatorPodName_toList]
      simp
    rw [hName, ← String.length_toList, List.drop_left, readNumber_repr, Int32.ofInt_toInt,
      if_pos rfl]

end QuantumService.Controller
