import QuantumService.Api.Meta

/-! The Kubernetes rules for names of objects and for values of labels. Both have
an alphabet of their own, which is part of ASCII, and a length. -/
namespace QuantumService

/-- A lower case letter or a digit. -/
def lowerAlphanum (c : Char) : Bool := c.isLower || c.isDigit

/-- `[a-z0-9]([-a-z0-9]*[a-z0-9])?` -/
def isDNS1123Part (part : List Char) : Bool :=
  part.all (fun c => lowerAlphanum c || c = '-') && part.head?.any lowerAlphanum &&
    part.getLast?.any lowerAlphanum

/-- `IsDNS1123Subdomain`: such parts, separated by dots. -/
def isDNS1123Subdomain (name : String) : Bool :=
  name.toList.length ≤ 253 && (name.toList.splitOn '.').all isDNS1123Part

/-- `IsValidLabelValue`: `(([A-Za-z0-9][-A-Za-z0-9_.]*)?[A-Za-z0-9])?` -/
def isValidLabelValue (value : String) : Bool :=
  value.toList.length ≤ 63 && (value.toList.isEmpty ||
    value.toList.all (fun c => c.isAlphanum || c = '-' || c = '_' || c = '.') &&
      value.toList.head?.any Char.isAlphanum && value.toList.getLast?.any Char.isAlphanum)

section Parts
variable {part tail cs : List Char}

theorem isDNS1123Part_iff : isDNS1123Part part = true ↔
    (∀ c ∈ part, lowerAlphanum c = true ∨ c = '-') ∧
      (∃ c, part.head? = some c ∧ lowerAlphanum c = true) ∧
      ∃ c, part.getLast? = some c ∧ lowerAlphanum c = true := by
  rw [isDNS1123Part, Bool.and_eq_true, Bool.and_eq_true, List.all_eq_true, Option.any_eq_true,
    Option.any_eq_true, and_assoc]
  simp only [Bool.or_eq_true, decide_eq_true_eq]

/-- A part goes on with letters, digits and hyphens, if the last one is no hyphen. -/
theorem isDNS1123Part_append (hPart : isDNS1123Part part = true)
    (alphabet : ∀ c ∈ tail, lowerAlphanum c = true ∨ c = '-') {last : Char}
    (ends : tail.getLast? = some last) (closed : lowerAlphanum last = true) :
    isDNS1123Part (part ++ tail) = true := by
  obtain ⟨hAlphabet, ⟨first, hFirst, hOpen⟩, -⟩ := isDNS1123Part_iff.mp hPart
  refine isDNS1123Part_iff.mpr ⟨?_, ⟨first, ?_, hOpen⟩, last, ?_, closed⟩
  · intro c hMem
    rcases List.mem_append.mp hMem with hBefore | hAfter
    · exact hAlphabet c hBefore
    · exact alphabet c hAfter
  · rw [List.head?_append, hFirst]
    rfl
  · rw [List.getLast?_append, ends]
    rfl

/-- The last separator of a text, if there is one. -/
theorem eq_append_last_of_mem {c : Char} (h : c ∈ cs) :
    ∃ before after, cs = before ++ c :: after ∧ c ∉ after := by
  obtain ⟨front, back, hSplit, hFree⟩ := List.eq_append_cons_of_mem (List.mem_reverse.mpr h)
  refine ⟨back.reverse, front.reverse, ?_, fun hMem => hFree (List.mem_reverse.mp hMem)⟩
  have hReversed := congrArg List.reverse hSplit
  simpa using hReversed

/-- What is appended to a name without a dot goes to its last part. -/
theorem splitOn_append (cs : List Char) (free : '.' ∉ tail) :
    ∃ before last, cs.splitOn '.' = before ++ [last] ∧
      (cs ++ tail).splitOn '.' = before ++ [last ++ tail] := by
  by_cases hDot : '.' ∈ cs
  · obtain ⟨before, after, rfl, hFree⟩ := eq_append_last_of_mem hDot
    have hLast : '.' ∉ after ++ tail := by simp [hFree, free]
    refine ⟨before.splitOn '.', after, ?_, ?_⟩
    · rw [List.splitOn_append_cons_self, List.splitOn_eq_singleton hFree]
    · rw [List.append_assoc, List.cons_append, List.splitOn_append_cons_self,
        List.splitOn_eq_singleton hLast]
  · have hNone : '.' ∉ cs ++ tail := by simp [hDot, free]
    exact ⟨[], cs, List.splitOn_eq_singleton hDot, List.splitOn_eq_singleton hNone⟩

/-- A name goes on the same way as its last part. -/
theorem all_splitOn_append (hParts : (cs.splitOn '.').all isDNS1123Part = true)
    (alphabet : ∀ c ∈ tail, lowerAlphanum c = true ∨ c = '-') {last : Char}
    (ends : tail.getLast? = some last) (closed : lowerAlphanum last = true) :
    ((cs ++ tail).splitOn '.').all isDNS1123Part = true := by
  have hFree : '.' ∉ tail := by
    intro hMem
    exact absurd (alphabet '.' hMem) (by decide)
  obtain ⟨before, part, hSplit, hLonger⟩ := splitOn_append cs hFree
  rw [hSplit, List.all_append, Bool.and_eq_true, List.all_cons, Bool.and_eq_true] at hParts
  rw [hLonger, List.all_append, hParts.1, List.all_cons,
    isDNS1123Part_append hParts.2.1 alphabet ends closed]
  rfl

/-- Splitting a text loses its separators only. -/
theorem mem_splitOn {c sep : Char} (mem : c ∈ cs) (ne : c ≠ sep) :
    ∃ part ∈ cs.splitOn sep, c ∈ part := by
  induction cs with
  | nil => cases mem
  | cons first rest ih =>
      rw [List.splitOn_cons_eq_if_modifyHead]
      by_cases hSep : first = sep
      · have hRest : c ∈ rest := (List.mem_cons.mp mem).resolve_left fun hc => ne (hc.trans hSep)
        obtain ⟨part, hPart, hMem⟩ := ih hRest
        rw [if_pos (beq_iff_eq.mpr hSep)]
        exact ⟨part, List.mem_cons_of_mem _ hPart, hMem⟩
      · rw [if_neg (mt beq_iff_eq.mp hSep)]
        cases hSplit : rest.splitOn sep with
        | nil => exact absurd hSplit (List.splitOn_ne_nil sep rest)
        | cons head parts =>
            rw [List.modifyHead_cons]
            rcases List.mem_cons.mp mem with rfl | hRest
            · exact ⟨_, List.mem_cons_self, List.mem_cons_self⟩
            · obtain ⟨part, hPart, hMem⟩ := ih hRest
              rw [hSplit] at hPart
              rcases List.mem_cons.mp hPart with rfl | hLater
              · exact ⟨_, List.mem_cons_self, List.mem_cons_of_mem _ hMem⟩
              · exact ⟨part, List.mem_cons_of_mem _ hLater, hMem⟩

/-- The alphabet of the names of objects. -/
theorem alphabet_of_isDNS1123Subdomain {name : String} (valid : isDNS1123Subdomain name = true)
    {c : Char} (mem : c ∈ name.toList) : lowerAlphanum c = true ∨ c = '-' ∨ c = '.' := by
  by_cases hDot : c = '.'
  · exact .inr (.inr hDot)
  · rw [isDNS1123Subdomain, Bool.and_eq_true, List.all_eq_true] at valid
    obtain ⟨part, hPart, hMem⟩ := mem_splitOn mem hDot
    obtain ⟨hAlphabet, -, -⟩ := isDNS1123Part_iff.mp (valid.2 part hPart)
    rcases hAlphabet c hMem with hAlphanum | hHyphen
    · exact .inl hAlphanum
    · exact .inr (.inl hHyphen)

/-- What a value of a label is, if it is not empty. -/
theorem isValidLabelValue_iff {value : String} (given : value ≠ "") :
    isValidLabelValue value = true ↔ value.toList.length ≤ 63 ∧
      (∀ c ∈ value.toList, c.isAlphanum = true ∨ c = '-' ∨ c = '_' ∨ c = '.') ∧
      (∃ c, value.toList.head? = some c ∧ c.isAlphanum = true) ∧
      ∃ c, value.toList.getLast? = some c ∧ c.isAlphanum = true := by
  have hSome : value.toList.isEmpty = false := by
    rw [List.isEmpty_eq_false_iff]
    exact fun hNil => given (String.toList_eq_nil_iff.mp hNil)
  rw [isValidLabelValue, hSome, Bool.false_or, Bool.and_eq_true, Bool.and_eq_true,
    Bool.and_eq_true, List.all_eq_true, Option.any_eq_true, Option.any_eq_true, and_assoc]
  simp only [Bool.or_eq_true, decide_eq_true_eq, or_assoc]

end Parts
end QuantumService
