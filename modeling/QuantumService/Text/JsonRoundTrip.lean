import Mathlib.Data.List.Induction
import QuantumService.Text.Json

/-! What Python's `json` has written it reads again as it was. -/
namespace Text.Json

mutual

/-- The values that are read again as they were: dictionaries have each key once, and
all numbers are integers. -/
def Value.Plain : Value → Prop
  | .null | .bool _ | .int _ | .str _ => True
  | .float _ => False
  | .arr items => PlainItems items
  | .obj members => (members.map Prod.fst).Nodup ∧ PlainMembers members

def PlainItems : List Value → Prop
  | [] => True
  | item :: items => item.Plain ∧ PlainItems items

def PlainMembers : List (String × Value) → Prop
  | [] => True
  | (_, value) :: members => value.Plain ∧ PlainMembers members

end

section Members
variable {members : Members} {key : String} {value : Value}

theorem Members.insert_of_notMem (fresh : key ∉ members.map Prod.fst) :
    members.insert key value = members ++ [(key, value)] := by
  induction members with
  | nil => rfl
  | cons member members ih =>
      obtain ⟨other, old⟩ := member
      rw [List.map_cons, List.mem_cons, not_or] at fresh
      rw [Members.insert, if_neg (Ne.symm fresh.1), ih fresh.2, List.cons_append]

/-- Pairs with different keys are a dictionary as they are. -/
theorem dict_of_nodup {pairs : Members} (nodup : (pairs.map Prod.fst).Nodup) :
    dict pairs = pairs := by
  induction pairs using List.reverseRecOn with
  | nil => rfl
  | append_singleton pairs member ih =>
      rw [List.map_append, List.map_singleton, List.nodup_append] at nodup
      obtain ⟨hPairs, -, hFresh⟩ := nodup
      have hNew : member.1 ∉ pairs.map Prod.fst := fun hMem =>
        hFresh _ hMem _ (List.mem_singleton_self _) rfl
      have hPrefix : pairs.foldl (fun members member =>
          Members.insert members member.1 member.2) [] = pairs := ih hPairs
      rw [dict, List.foldl_append, hPrefix]
      exact Members.insert_of_notMem hNew

end Members

/-- What follows a value in a text. -/
def Ends (rest : List Char) : Prop :=
  rest = [] ∨ ∃ c cs, rest = c :: cs ∧ (c = ',' ∨ c = ']' ∨ c = '}')

section Numbers
variable {rest : List Char}

theorem Ends.takeWhile (ends : Ends rest) : rest.takeWhile Char.isDigit = [] := by
  rcases ends with rfl | ⟨c, cs, rfl, rfl | rfl | rfl⟩ <;> rfl

theorem Ends.scanFraction (ends : Ends rest) : scanFraction rest = ([], rest) := by
  rcases ends with rfl | ⟨c, cs, rfl, rfl | rfl | rfl⟩ <;> rfl

theorem Ends.scanExponent (ends : Ends rest) : scanExponent rest = ([], rest) := by
  rcases ends with rfl | ⟨c, cs, rfl, rfl | rfl | rfl⟩ <;> rfl

/-- Only the number zero is written with a leading zero. -/
theorem toDigits_zero_cons {n : Nat} {cs : List Char} (h : Nat.toDigits 10 n = '0' :: cs) :
    cs = [] := by
  induction n using Nat.strongRecOn generalizing cs with
  | ind n ih =>
      by_cases hSmall : n < 10
      · rw [Nat.toDigits_of_lt_base hSmall] at h
        exact (List.cons.inj h).2.symm
      · rw [Nat.toDigits_of_base_le (by decide) (Nat.le_of_not_lt hSmall)] at h
        cases hFirst : Nat.toDigits 10 (n / 10) with
        | nil => exact absurd hFirst Nat.toDigits_ne_nil
        | cons c rest =>
            rw [hFirst, List.cons_append] at h
            obtain ⟨rfl, -⟩ := List.cons.inj h
            have hOnly := ih (n / 10) (by omega) hFirst
            have hValue : Nat.ofDigitChars 10 (Nat.toDigits 10 (n / 10)) 0 = n / 10 :=
              Nat.ofDigitChars_ten_toDigits
            have hZero : Nat.ofDigitChars 10 ['0'] 0 = 0 := by decide
            rw [hFirst, hOnly, hZero] at hValue
            omega

theorem scanDigits_toDigits (ends : Ends rest) (n : Nat) :
    scanDigits (Nat.toDigits 10 n ++ rest) = some (Nat.toDigits 10 n, rest) := by
  have hDigits : ∀ c ∈ Nat.toDigits 10 n, c.isDigit = true :=
    fun c hMem => Nat.isDigit_of_mem_toDigits (by decide) (by decide) hMem
  cases hText : Nat.toDigits 10 n with
  | nil => exact absurd hText Nat.toDigits_ne_nil
  | cons c cs =>
      rw [hText] at hDigits
      rw [List.cons_append, scanDigits]
      split
      · rename_i hZero
        subst hZero
        rw [toDigits_zero_cons hText, List.nil_append]
      · have hRest : ∀ d ∈ cs, d.isDigit = true :=
          fun d hMem => hDigits d (List.mem_cons_of_mem _ hMem)
        rw [if_pos (hDigits c List.mem_cons_self), List.takeWhile_append_of_pos hRest,
          List.dropWhile_append_of_pos hRest, ends.takeWhile, List.append_nil]
        have hAfter : rest.dropWhile Char.isDigit = rest := by
          conv_rhs => rw [← List.takeWhile_append_dropWhile (p := Char.isDigit) (l := rest)]
          rw [ends.takeWhile, List.nil_append]
        rw [hAfter]

theorem scanUnsigned_toDigits (ends : Ends rest) (sign : List Char) (n : Nat) :
    scanUnsigned sign (Nat.toDigits 10 n ++ rest) =
      some (.int (if sign = [] then (n : Int) else -(n : Int)), rest) := by
  rw [scanUnsigned, scanDigits_toDigits ends, Option.map_some]
  simp only [ends.scanFraction, ends.scanExponent, and_self, if_true,
    Nat.ofDigitChars_ten_toDigits]

theorem scanNumber_dumpInt (ends : Ends rest) (n : Int) :
    scanNumber (dumpInt n ++ rest) = some (.int n, rest) := by
  cases n with
  | ofNat n =>
      have hScan := scanUnsigned_toDigits ends [] n
      have hDigits : ∀ c ∈ Nat.toDigits 10 n, c.isDigit = true :=
        fun c hMem => Nat.isDigit_of_mem_toDigits (by decide) (by decide) hMem
      rw [dumpInt]
      cases hText : Nat.toDigits 10 n with
      | nil => exact absurd hText Nat.toDigits_ne_nil
      | cons c cs =>
          rw [hText] at hScan hDigits
          have hSign : c ≠ '-' := by
            rintro rfl
            exact absurd (hDigits '-' List.mem_cons_self) (by decide)
          rw [List.cons_append, scanNumber, if_neg hSign]
          exact hScan
  | negSucc n =>
      rw [dumpInt, List.cons_append, scanNumber, if_pos rfl, scanUnsigned_toDigits ends]
      rfl

end Numbers

section Heads
variable {v : Value} {rest : List Char}

/-- How the text of a value may begin. -/
def Begins (c : Char) : Prop := isSpace c = false ∧ c ≠ ']'

instance (c : Char) : Decidable (Begins c) := inferInstanceAs (Decidable (_ ∧ _))

/-- A number begins with a digit or a sign, and with nothing else. -/
theorem dumpInt_cons (n : Int) : ∃ c cs, dumpInt n = c :: cs ∧ Begins c ∧
    c ≠ quote ∧ c ≠ '{' ∧ c ≠ '[' := by
  cases n with
  | ofNat n =>
      cases hText : Nat.toDigits 10 n with
      | nil => exact absurd hText Nat.toDigits_ne_nil
      | cons c cs =>
          have hDigit : c.isDigit = true := Nat.isDigit_of_mem_toDigits (by decide) (by decide)
            (hText ▸ List.mem_cons_self)
          have hOther : ∀ d : Char, d.isDigit = false → c ≠ d := by
            rintro d hNone rfl
            rw [hDigit] at hNone
            cases hNone
          refine ⟨c, cs, hText, ⟨?_, hOther _ (by decide)⟩, hOther _ (by decide),
            hOther _ (by decide), hOther _ (by decide)⟩
          simp [isSpace, hOther]
  | negSucc n => exact ⟨_, _, rfl, by decide, by decide, by decide, by decide⟩

theorem dump_begins (plain : v.Plain) : ∃ c cs, dump v = c :: cs ∧ Begins c := by
  cases v with
  | null => exact ⟨_, _, rfl, by decide⟩
  | bool b => cases b <;> exact ⟨_, _, rfl, by decide⟩
  | int n =>
      obtain ⟨c, cs, hText, hBegins, -⟩ := dumpInt_cons n
      exact ⟨c, cs, hText, hBegins⟩
  | float text => exact absurd plain (by simp [Value.Plain])
  | str s => exact ⟨_, _, rfl, by decide⟩
  | arr items => exact ⟨_, _, by rw [dump]; rfl, by decide⟩
  | obj members => exact ⟨_, _, by rw [dump]; rfl, by decide⟩

theorem dumpItems_eq {items : List Value} (filled : items ≠ []) (before : List Char) :
    dumpItems before items = before ++ dumpItems [] items := by
  cases items with
  | nil => exact absurd rfl filled
  | cons item items => simp only [dumpItems, List.append_assoc, List.nil_append]

theorem dumpMembers_eq {members : Members} (filled : members ≠ []) (before : List Char) :
    dumpMembers before members = before ++ dumpMembers [] members := by
  cases members with
  | nil => exact absurd rfl filled
  | cons member members =>
      obtain ⟨key, value⟩ := member
      simp only [dumpMembers, List.append_assoc, List.nil_append]

theorem dumpItems_begins {items : List Value} (plain : PlainItems items) (filled : items ≠ []) :
    ∃ c cs, dumpItems [] items = c :: cs ∧ Begins c := by
  cases items with
  | nil => exact absurd rfl filled
  | cons item items =>
      obtain ⟨c, cs, hDump, hBegins⟩ := dump_begins plain.1
      exact ⟨c, _, by rw [dumpItems, hDump]; rfl, hBegins⟩

theorem skipSpace_cons {c : Char} {cs : List Char} (h : isSpace c = false) :
    skipSpace (c :: cs) = c :: cs := by
  simp [skipSpace, h]

theorem skipSpace_dump (plain : v.Plain) : skipSpace (dump v ++ rest) = dump v ++ rest := by
  obtain ⟨c, cs, hDump, hBegins⟩ := dump_begins plain
  rw [hDump, List.cons_append, skipSpace_cons hBegins.1]

end Heads

theorem expect_self (c : Char) (cs : List Char) : expect c (c :: cs) = some cs := by
  rw [expect, if_pos rfl]

theorem expect_other {c d : Char} (cs : List Char) (h : d ≠ c) : expect c (d :: cs) = none := by
  rw [expect, if_neg h]

theorem scanString_dumpString (s : String) (rest : List Char) :
    ∃ cs, dumpString s ++ rest = quote :: cs ∧ scanString cs = some (s.toList, rest) := by
  refine ⟨escape s.toList ++ quote :: rest, ?_, scanString_escape _⟩
  simp [dumpString]

section RoundTrip

theorem scanValue_int {fuel : Nat} {rest : List Char} (ends : Ends rest) (n : Int) :
    scanValue (fuel + 1) (dumpInt n ++ rest) = some (.int n, rest) := by
  have hNumber := scanNumber_dumpInt ends n
  obtain ⟨c, cs, hText, -, hQuote, hBrace, hBracket⟩ := dumpInt_cons n
  rw [hText, List.cons_append] at hNumber ⊢
  rw [scanValue, if_neg hQuote, if_neg hBrace, if_neg hBracket, hNumber, Option.some_or]

theorem ends_cons {c : Char} (cs : List Char) (h : c = ',' ∨ c = ']' ∨ c = '}') :
    Ends (c :: cs) := .inr ⟨c, cs, rfl, h⟩

/-- The colon after a key, and the space after it. -/
theorem expect_colon (cs : List Char) :
    (expect ':' (skipSpace (": ".toList ++ cs))).map skipSpace = some (skipSpace cs) := by
  have hColon : skipSpace (": ".toList ++ cs) = ':' :: ' ' :: cs := skipSpace_cons (by decide)
  rw [hColon, expect_self]
  rfl

theorem length_separator : ", ".toList.length = 2 := by decide

theorem scanAfter_comma {close c : Char} {cs : List Char} (other : ',' ≠ close)
    (h : isSpace c = false) :
    scanAfter close (", ".toList ++ c :: cs) = some (.more (c :: cs)) := by
  have hSkip : skipSpace (' ' :: c :: cs) = c :: cs := skipSpace_cons h
  have hComma : skipSpace (", ".toList ++ c :: cs) = ',' :: ' ' :: c :: cs :=
    skipSpace_cons (by decide)
  rw [scanAfter, hComma]
  simp only [if_neg other, if_true, hSkip]

/-- What comes after an item: the next one, or the end of the array. -/
theorem ends_dumpItems (items : List Value) (rest : List Char) :
    Ends (dumpItems ", ".toList items ++ ']' :: rest) := by
  cases items with
  | nil => exact ends_cons _ (by simp)
  | cons item items => exact ends_cons (c := ',') _ (by simp)

theorem ends_dumpMembers (members : Members) (rest : List Char) :
    Ends (dumpMembers ", ".toList members ++ '}' :: rest) := by
  cases members with
  | nil => exact ends_cons _ (by simp)
  | cons member members => exact ends_cons (c := ',') _ (by simp)

mutual

/-- What is written is read, and the text goes on where the value ends. The induction is on
the value; a bracket or a separator is there for each unit of fuel that is used. -/
theorem scanValue_dump (v : Value) (plain : v.Plain) {fuel : Nat} {rest : List Char}
    (enough : (dump v).length < fuel) (ends : Ends rest) :
    scanValue fuel (dump v ++ rest) = some (v, rest) := by
  cases fuel with
  | zero => cases enough
  | succ fuel =>
      cases v with
      | null => rfl
      | bool b => cases b <;> rfl
      | float text => exact absurd plain (by simp [Value.Plain])
      | int n => exact scanValue_int ends n
      | str s =>
          obtain ⟨cs, hText, hScan⟩ := scanString_dumpString s rest
          rw [dump, hText, scanValue, if_pos rfl, hScan, Option.map_some, String.ofList_toList]
      | arr items =>
          by_cases hItems : items = []
          · subst hItems
            rfl
          · rw [dump, List.length_append, List.length_cons, List.length_singleton] at enough
            have hScan : scanItems fuel (dumpItems [] items ++ ']' :: rest) = some (items, rest) :=
              scanItems_dumpItems items plain hItems (by omega)
            obtain ⟨c, cs, hText, hSpace, hOpen⟩ := dumpItems_begins plain hItems
            rw [hText, List.cons_append] at hScan
            have hDump : dump (.arr items) ++ rest = '[' :: c :: (cs ++ ']' :: rest) := by
              simp [dump, hText]
            rw [hDump, scanValue, if_neg (by decide), if_neg (by decide), if_pos rfl,
              skipSpace_cons hSpace, expect_other _ hOpen]
            simp only [hScan, Option.map_some]
      | obj members =>
          obtain ⟨hNodup, hPlain⟩ := plain
          by_cases hMembers : members = []
          · subst hMembers
            rfl
          · rw [dump, List.length_append, List.length_cons, List.length_singleton] at enough
            have hEnough : (dumpMembers [] members).length + 1 < fuel := by omega
            obtain ⟨cs, hText, hScan⟩ :=
              scanMembers_dumpMembers members hPlain hMembers rest hEnough
            have hDump : dump (.obj members) ++ rest = '{' :: quote :: cs := by
              rw [← hText]
              simp [dump]
            have hSpace : skipSpace (quote :: cs) = quote :: cs := skipSpace_cons (by decide)
            rw [hDump, scanValue, if_neg (by decide), if_pos rfl, hSpace,
              expect_other _ (by decide), expect_self]
            simp only [Option.bind_some, hScan, Option.map_some, dict_of_nodup hNodup]

theorem scanItems_dumpItems (items : List Value) (plain : PlainItems items) (filled : items ≠ [])
    {fuel : Nat} {rest : List Char} (enough : (dumpItems [] items).length + 1 < fuel) :
    scanItems fuel (dumpItems [] items ++ ']' :: rest) = some (items, rest) := by
  cases items with
  | nil => exact absurd rfl filled
  | cons item items =>
      obtain ⟨hItem, hItems⟩ := plain
      cases fuel with
      | zero => cases enough
      | succ fuel =>
          rw [dumpItems, List.nil_append, List.length_append] at enough
          have hEnough : (dump item).length < fuel := by omega
          have hValue := scanValue_dump item hItem hEnough (ends_dumpItems items rest)
          rw [dumpItems, List.nil_append, List.append_assoc, scanItems, hValue, Option.bind_some]
          by_cases hLast : items = []
          · subst hLast
            rfl
          · rw [dumpItems_eq hLast, List.length_append, length_separator] at enough
            have hRest : scanItems fuel (dumpItems [] items ++ ']' :: rest) = some (items, rest) :=
              scanItems_dumpItems items hItems hLast (by omega)
            obtain ⟨c, cs, hText, hSpace, -⟩ := dumpItems_begins hItems hLast
            have hAfter : scanAfter ']' (dumpItems ", ".toList items ++ ']' :: rest) =
                some (.more (dumpItems [] items ++ ']' :: rest)) := by
              rw [dumpItems_eq hLast, hText, List.cons_append, List.append_assoc]
              exact scanAfter_comma (by decide) hSpace
            simp only [hAfter, hRest, Option.map_some]

theorem scanMembers_dumpMembers (members : List (String × Value)) (plain : PlainMembers members)
    (filled : members ≠ []) {fuel : Nat} (rest : List Char)
    (enough : (dumpMembers [] members).length + 1 < fuel) :
    ∃ cs, dumpMembers [] members ++ '}' :: rest = quote :: cs ∧
      scanMembers fuel cs = some (members, rest) := by
  cases members with
  | nil => exact absurd rfl filled
  | cons member members =>
      obtain ⟨key, value⟩ := member
      obtain ⟨hValue, hMembers⟩ := plain
      cases fuel with
      | zero => cases enough
      | succ fuel =>
          simp only [dumpMembers, List.nil_append, List.length_append] at enough
          have hEnough : (dump value).length < fuel := by omega
          have hScan := scanValue_dump value hValue hEnough (ends_dumpMembers members rest)
          obtain ⟨cs, hText, hKey⟩ := scanString_dumpString key
            (": ".toList ++ (dump value ++ (dumpMembers ", ".toList members ++ '}' :: rest)))
          refine ⟨cs, ?_, ?_⟩
          · rw [← hText]
            simp only [dumpMembers, List.nil_append, List.append_assoc]
          · rw [scanMembers, hKey, Option.bind_some, expect_colon, Option.bind_some,
              skipSpace_dump hValue, hScan, Option.bind_some]
            simp only [String.ofList_toList]
            by_cases hLast : members = []
            · subst hLast
              rfl
            · rw [dumpMembers_eq hLast, List.length_append, length_separator] at enough
              have hMore : (dumpMembers [] members).length + 1 < fuel := by omega
              obtain ⟨next, hNext, hRest⟩ :=
                scanMembers_dumpMembers members hMembers hLast rest hMore
              have hAfter : scanAfter '}' (dumpMembers ", ".toList members ++ '}' :: rest) =
                  some (.more (quote :: next)) := by
                rw [dumpMembers_eq hLast, List.append_assoc, hNext]
                exact scanAfter_comma (by decide) (by decide)
              simp only [hAfter, expect_self, Option.bind_some, hRest, Option.map_some]

end

/-- What was dumped is loaded as the same value. -/
theorem loads_dumps {v : Value} (plain : v.Plain) : loads (dumps v) = some v := by
  have hScan : scanValue ((dump v).length + 1) (dump v ++ []) = some (v, []) :=
    scanValue_dump v plain (Nat.lt_succ_self _) (.inl rfl)
  have hSkip : skipSpace (dump v ++ []) = dump v ++ [] := skipSpace_dump plain
  rw [List.append_nil] at hScan hSkip
  refine loads_eq_some_iff.mpr ⟨(dump v).length + 1, [], ?_, rfl⟩
  rw [dumps, String.toList_ofList, hSkip]
  exact hScan

example : dump (.arr [.str "é\n", .int (-12)]) = "[\"\\u00e9\\n\", -12]".toList := by decide

end RoundTrip

end Text.Json
