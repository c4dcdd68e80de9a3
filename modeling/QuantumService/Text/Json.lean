import QuantumService.Text.JsonString

/-! JSON as Python's `json` writes and reads it, with its default separators. An object
is a dictionary: a key that is written again keeps its place. The numbers that are no
integers are kept as they are written. -/
namespace Text.Json

inductive Value where
  | null
  | bool (b : Bool)
  | int (n : Int)
  | float (text : String)
  | str (s : String)
  | arr (items : List Value)
  | obj (members : List (String × Value))

abbrev Members := List (String × Value)

/-- `dictionary[key] = value`. -/
def Members.insert : Members → String → Value → Members
  | [], key, value => [(key, value)]
  | (other, old) :: members, key, value =>
      if other = key then (other, value) :: members
      else (other, old) :: Members.insert members key value

/-- `dict(pairs)`. -/
def dict (pairs : Members) : Members :=
  pairs.foldl (fun members member => Members.insert members member.1 member.2) []

def dumpString (s : String) : List Char := quote :: escape s.toList ++ [quote]

def dumpInt : Int → List Char
  | .ofNat n => Nat.toDigits 10 n
  | .negSucc n => '-' :: Nat.toDigits 10 (n + 1)

mutual

def dump : Value → List Char
  | .null => "null".toList
  | .bool true => "true".toList
  | .bool false => "false".toList
  | .int n => dumpInt n
  | .float text => text.toList
  | .str s => dumpString s
  | .arr items => '[' :: dumpItems [] items ++ [']']
  | .obj members => '{' :: dumpMembers [] members ++ ['}']

/-- The items of an array, the first of which is written after `before`. -/
def dumpItems (before : List Char) : List Value → List Char
  | [] => []
  | item :: items => before ++ dump item ++ dumpItems ", ".toList items

def dumpMembers (before : List Char) : List (String × Value) → List Char
  | [] => []
  | (key, value) :: members =>
      before ++ dumpString key ++ ": ".toList ++ dump value ++ dumpMembers ", ".toList members

end

def isSpace (c : Char) : Bool := c = ' ' || c = '\t' || c = '\n' || c = '\r'

/-- What follows the white space. -/
def skipSpace (cs : List Char) : List Char := cs.dropWhile isSpace

/-- What follows the character, which has to come next. -/
def expect (c : Char) : List Char → Option (List Char)
  | [] => none
  | d :: cs => if d = c then some cs else none

/-- The integer part of a number, without its sign. -/
def scanDigits : List Char → Option (List Char × List Char)
  | [] => none
  | c :: cs =>
      if c = '0' then some ([c], cs)
      else if c.isDigit then some (c :: cs.takeWhile Char.isDigit, cs.dropWhile Char.isDigit)
      else none

/-- The fraction of a number, if there is one. -/
def scanFraction : List Char → List Char × List Char
  | [] => ([], [])
  | c :: cs =>
      if c = '.' ∧ (cs.takeWhile Char.isDigit) ≠ [] then
        (c :: cs.takeWhile Char.isDigit, cs.dropWhile Char.isDigit)
      else ([], c :: cs)

/-- The sign of an exponent, if there is one. -/
def scanSign : List Char → List Char × List Char
  | [] => ([], [])
  | c :: cs => if c = '+' ∨ c = '-' then ([c], cs) else ([], c :: cs)

def scanExponent : List Char → List Char × List Char
  | [] => ([], [])
  | c :: cs =>
      let signed := scanSign cs
      if (c = 'e' ∨ c = 'E') ∧ (signed.2.takeWhile Char.isDigit) ≠ [] then
        (c :: signed.1 ++ signed.2.takeWhile Char.isDigit, signed.2.dropWhile Char.isDigit)
      else ([], c :: cs)

/-- A number after its sign. -/
def scanUnsigned (sign : List Char) (cs : List Char) : Option (Value × List Char) :=
  (scanDigits cs).map fun digits =>
    let fraction := scanFraction digits.2
    let exponent := scanExponent fraction.2
    if fraction.1 = [] ∧ exponent.1 = [] then
      let n : Int := Nat.ofDigitChars 10 digits.1 0
      (.int (if sign = [] then n else -n), digits.2)
    else
      (.float (String.ofList (sign ++ digits.1 ++ fraction.1 ++ exponent.1)), exponent.2)

def scanNumber : List Char → Option (Value × List Char)
  | [] => none
  | c :: cs => if c = '-' then scanUnsigned [c] cs else scanUnsigned [] (c :: cs)

/-- The constants, the last three of which are no JSON. -/
def constants : List (String × Value) :=
  [("null", .null), ("true", .bool true), ("false", .bool false), ("NaN", .float "NaN"),
    ("Infinity", .float "Infinity"), ("-Infinity", .float "-Infinity")]

def scanConstant (cs : List Char) : Option (Value × List Char) :=
  (constants.find? fun constant => constant.1.toList.isPrefixOf cs).map fun constant =>
    (constant.2, cs.drop constant.1.toList.length)

/-- What comes after an item: the end, or a comma and another item. -/
inductive After where
  | closed (rest : List Char)
  | more (rest : List Char)

def scanAfter (close : Char) (cs : List Char) : Option After :=
  match skipSpace cs with
  | [] => none
  | c :: rest =>
      if c = close then some (.closed rest)
      else if c = ',' then some (.more (skipSpace rest))
      else none

mutual

/-- `scan_once`, which may go as deep as there is fuel. -/
def scanValue : Nat → List Char → Option (Value × List Char)
  | 0, _ => none
  | _ + 1, [] => none
  | fuel + 1, c :: cs =>
      if c = quote then
        (scanString cs).map fun scanned => (.str (String.ofList scanned.1), scanned.2)
      else if c = '{' then
        match expect '}' (skipSpace cs) with
        | some rest => some (.obj [], rest)
        | none =>
            (expect quote (skipSpace cs)).bind fun rest =>
              (scanMembers fuel rest).map fun scanned => (.obj (dict scanned.1), scanned.2)
      else if c = '[' then
        match expect ']' (skipSpace cs) with
        | some rest => some (.arr [], rest)
        | none =>
            (scanItems fuel (skipSpace cs)).map fun scanned => (.arr scanned.1, scanned.2)
      else (scanNumber (c :: cs)).or (scanConstant (c :: cs))

/-- The members of an object after the first quote, up to the closing brace. -/
def scanMembers : Nat → List Char → Option (Members × List Char)
  | 0, _ => none
  | fuel + 1, cs =>
      (scanString cs).bind fun key =>
        ((expect ':' (skipSpace key.2)).map skipSpace).bind fun rest =>
          (scanValue fuel rest).bind fun value =>
            match scanAfter '}' value.2 with
            | none => none
            | some (.closed rest) => some ([(String.ofList key.1, value.1)], rest)
            | some (.more rest) =>
                (expect quote rest).bind fun rest =>
                  (scanMembers fuel rest).map fun scanned =>
                    ((String.ofList key.1, value.1) :: scanned.1, scanned.2)

/-- The items of an array, up to the closing bracket. -/
def scanItems : Nat → List Char → Option (List Value × List Char)
  | 0, _ => none
  | fuel + 1, cs =>
      (scanValue fuel cs).bind fun value =>
        match scanAfter ']' value.2 with
        | none => none
        | some (.closed rest) => some ([value.1], rest)
        | some (.more rest) =>
            (scanItems fuel rest).map fun scanned => (value.1 :: scanned.1, scanned.2)

end

/-- `json.dumps`, as a text. -/
def dumps (value : Value) : String := String.ofList (dump value)

/-- `json.loads`, or `none` where it raises `JSONDecodeError`. -/
def loads (text : String) : Option Value :=
  (scanValue (text.toList.length + 1) (skipSpace text.toList)).bind fun scanned =>
    if skipSpace scanned.2 = [] then some scanned.1 else none

section Shorter
variable {cs : List Char} {r : List Char × List Char} {c : Char}

theorem skipSpace_le (cs : List Char) : (skipSpace cs).length ≤ cs.length :=
  (List.dropWhile_sublist _).length_le

theorem expect_lt {rest : List Char} (h : expect c cs = some rest) : rest.length < cs.length := by
  cases cs with
  | nil => cases h
  | cons d cs =>
      rw [expect] at h
      split at h
      · cases h
        exact Nat.lt_succ_self _
      · cases h

theorem scanDigits_lt (h : scanDigits cs = some r) : r.2.length < cs.length := by
  cases cs with
  | nil => cases h
  | cons d cs =>
      rw [scanDigits] at h
      split at h
      · cases h
        exact Nat.lt_succ_self _
      · split at h
        · cases h
          exact Nat.lt_succ_of_le (List.dropWhile_sublist _).length_le
        · cases h

theorem scanFraction_le (cs : List Char) : (scanFraction cs).2.length ≤ cs.length := by
  cases cs with
  | nil => exact Nat.le_refl _
  | cons d cs =>
      rw [scanFraction]
      split
      · exact Nat.le_succ_of_le (List.dropWhile_sublist _).length_le
      · exact Nat.le_refl _

theorem scanSign_le (cs : List Char) : (scanSign cs).2.length ≤ cs.length := by
  cases cs with
  | nil => exact Nat.le_refl _
  | cons d cs =>
      rw [scanSign]
      split
      · exact Nat.le_succ _
      · exact Nat.le_refl _

theorem scanExponent_le (cs : List Char) : (scanExponent cs).2.length ≤ cs.length := by
  cases cs with
  | nil => exact Nat.le_refl _
  | cons d cs =>
      rw [scanExponent]
      split
      · exact Nat.le_succ_of_le (Nat.le_trans (List.dropWhile_sublist _).length_le (scanSign_le cs))
      · exact Nat.le_refl _

theorem scanUnsigned_lt {sign : List Char} {r : Value × List Char}
    (h : scanUnsigned sign cs = some r) : r.2.length < cs.length := by
  obtain ⟨digits, hDigits, rfl⟩ := Option.map_eq_some_iff.mp h
  have hShorter := scanDigits_lt hDigits
  dsimp only
  split
  · exact hShorter
  · exact Nat.lt_of_le_of_lt (scanExponent_le _)
      (Nat.lt_of_le_of_lt (scanFraction_le _) hShorter)

theorem scanNumber_lt {r : Value × List Char} (h : scanNumber cs = some r) :
    r.2.length < cs.length := by
  cases cs with
  | nil => cases h
  | cons d cs =>
      rw [scanNumber] at h
      split at h
      · exact Nat.lt_succ_of_lt (scanUnsigned_lt h)
      · exact scanUnsigned_lt h

theorem scanConstant_lt {r : Value × List Char} (h : scanConstant cs = some r) :
    r.2.length < cs.length := by
  obtain ⟨constant, hFind, rfl⟩ := Option.map_eq_some_iff.mp h
  have hPrefix := List.find?_some hFind
  have hLength := (List.isPrefixOf_iff_prefix.mp hPrefix).length_le
  have hAll : ∀ constant ∈ constants, 0 < constant.1.toList.length := by decide
  have hPositive := hAll constant (List.mem_of_find?_eq_some hFind)
  rw [List.length_drop]
  omega

/-- What comes after an item is what is left of the text. -/
theorem scanAfter_lt {close : Char} {after : After} (h : scanAfter close cs = some after) :
    (∃ rest, after = .closed rest ∧ rest.length < cs.length) ∨
      ∃ rest, after = .more rest ∧ rest.length < cs.length := by
  have hSkip := skipSpace_le cs
  rw [scanAfter] at h
  split at h
  · cases h
  · rename_i d rest hText
    rw [hText, List.length_cons] at hSkip
    split at h
    · cases h
      exact .inl ⟨rest, rfl, hSkip⟩
    · split at h
      · cases h
        exact .inr ⟨_, rfl, Nat.lt_of_le_of_lt (skipSpace_le rest) hSkip⟩
      · cases h

end Shorter

/-- A scan reads something, and needs no more fuel than the characters that it reads. -/
def Enough {α : Type} (scan : Nat → List Char → Option (α × List Char)) (fuel : Nat) : Prop :=
  ∀ cs r, scan fuel cs = some r → r.2.length < cs.length ∧
    ∀ fuel', cs.length ≤ fuel' + r.2.length → scan fuel' cs = some r

section Fuel
variable {fuel : Nat}

theorem enough_of_succ {α : Type} {scan : Nat → List Char → Option (α × List Char)}
    (h : ∀ cs r, scan (fuel + 1) cs = some r → r.2.length < cs.length ∧
      ∀ fuel', cs.length ≤ fuel' + 1 + r.2.length → scan (fuel' + 1) cs = some r) :
    Enough scan (fuel + 1) := by
  intro cs r hScan
  obtain ⟨hShorter, hMore⟩ := h cs r hScan
  refine ⟨hShorter, fun fuel' hEnough => ?_⟩
  cases fuel' with
  | zero => omega
  | succ fuel' => exact hMore fuel' hEnough

theorem enough_value (members : Enough scanMembers fuel) (items : Enough scanItems fuel) :
    Enough scanValue (fuel + 1) := by
  apply enough_of_succ
  intro cs r h
  cases cs with
  | nil => cases h
  | cons c cs =>
      have hSkip := skipSpace_le cs
      by_cases hQuote : c = quote
      · simp only [scanValue, if_pos hQuote] at h ⊢
        obtain ⟨scanned, hScan, rfl⟩ := Option.map_eq_some_iff.mp h
        exact ⟨Nat.lt_succ_of_lt (scanString_lt hScan), fun _ _ => h⟩
      · by_cases hBrace : c = '{'
        · simp only [scanValue, if_neg hQuote, if_pos hBrace] at h ⊢
          cases hClose : expect '}' (skipSpace cs) with
          | some rest =>
              simp only [hClose] at h ⊢
              cases h
              have hRest := expect_lt hClose
              exact ⟨by simp only [List.length_cons]; omega, fun _ _ => rfl⟩
          | none =>
              simp only [hClose] at h ⊢
              obtain ⟨rest, hOpen, hMap⟩ := Option.bind_eq_some_iff.mp h
              obtain ⟨scanned, hScan, rfl⟩ := Option.map_eq_some_iff.mp hMap
              have hRest := expect_lt hOpen
              obtain ⟨hShorter, hMore⟩ := members _ _ hScan
              simp only [List.length_cons, hOpen, Option.bind_some] at *
              refine ⟨by omega, fun fuel' hEnough => ?_⟩
              rw [hMore fuel' (by omega)]
              rfl
        · by_cases hBracket : c = '['
          · simp only [scanValue, if_neg hQuote, if_neg hBrace, if_pos hBracket] at h ⊢
            cases hClose : expect ']' (skipSpace cs) with
            | some rest =>
                simp only [hClose] at h ⊢
                cases h
                have hRest := expect_lt hClose
                exact ⟨by simp only [List.length_cons]; omega, fun _ _ => rfl⟩
            | none =>
                simp only [hClose] at h ⊢
                obtain ⟨scanned, hScan, rfl⟩ := Option.map_eq_some_iff.mp h
                obtain ⟨hShorter, hMore⟩ := items _ _ hScan
                simp only [List.length_cons] at *
                refine ⟨by omega, fun fuel' hEnough => ?_⟩
                rw [hMore fuel' (by omega)]
                rfl
          · simp only [scanValue, if_neg hQuote, if_neg hBrace, if_neg hBracket] at h ⊢
            refine ⟨?_, fun _ _ => h⟩
            rcases Option.or_eq_some_iff.mp h with hNumber | ⟨-, hConstant⟩
            · exact scanNumber_lt hNumber
            · exact scanConstant_lt hConstant

theorem enough_members (values : Enough scanValue fuel) (members : Enough scanMembers fuel) :
    Enough scanMembers (fuel + 1) := by
  apply enough_of_succ
  intro cs r h
  rw [scanMembers] at h
  obtain ⟨key, hKey, hRest⟩ := Option.bind_eq_some_iff.mp h
  obtain ⟨text, hText, hRest⟩ := Option.bind_eq_some_iff.mp hRest
  obtain ⟨colon, hColon, rfl⟩ := Option.map_eq_some_iff.mp hText
  obtain ⟨value, hValue, hRest⟩ := Option.bind_eq_some_iff.mp hRest
  have hAfterKey := scanString_lt hKey
  have hAfterColon := expect_lt hColon
  have hSpace := skipSpace_le key.2
  have hSpace' := skipSpace_le colon
  obtain ⟨hAfterValue, hMore⟩ := values _ _ hValue
  cases hAfter : scanAfter '}' value.2 with
  | none =>
      rw [hAfter] at hRest
      cases hRest
  | some after =>
      rcases scanAfter_lt hAfter with ⟨rest, rfl, hLess⟩ | ⟨rest, rfl, hLess⟩
      · simp only [hAfter] at hRest
        cases hRest
        refine ⟨show rest.length < _ by omega, fun fuel' hEnough => ?_⟩
        dsimp only at hEnough
        simp only [scanMembers, hKey, hColon, Option.map_some, Option.bind_some]
        rw [hMore fuel' (by omega)]
        simp only [Option.bind_some, hAfter]
      · simp only [hAfter] at hRest
        obtain ⟨next, hNext, hMap⟩ := Option.bind_eq_some_iff.mp hRest
        obtain ⟨scanned, hScan, rfl⟩ := Option.map_eq_some_iff.mp hMap
        have hOpen := expect_lt hNext
        obtain ⟨hShorter, hOthers⟩ := members _ _ hScan
        refine ⟨show scanned.2.length < _ by omega, fun fuel' hEnough => ?_⟩
        dsimp only at hEnough
        simp only [scanMembers, hKey, hColon, Option.map_some, Option.bind_some]
        rw [hMore fuel' (by omega)]
        simp only [Option.bind_some, hAfter, hNext]
        rw [hOthers fuel' (by omega)]
        rfl

theorem enough_items (values : Enough scanValue fuel) (items : Enough scanItems fuel) :
    Enough scanItems (fuel + 1) := by
  apply enough_of_succ
  intro cs r h
  rw [scanItems] at h
  obtain ⟨value, hValue, hRest⟩ := Option.bind_eq_some_iff.mp h
  obtain ⟨hAfterValue, hMore⟩ := values _ _ hValue
  cases hAfter : scanAfter ']' value.2 with
  | none =>
      rw [hAfter] at hRest
      cases hRest
  | some after =>
      rcases scanAfter_lt hAfter with ⟨rest, rfl, hLess⟩ | ⟨rest, rfl, hLess⟩
      · simp only [hAfter] at hRest
        cases hRest
        refine ⟨show rest.length < _ by omega, fun fuel' hEnough => ?_⟩
        dsimp only at hEnough
        rw [scanItems, hMore fuel' (by omega)]
        simp only [Option.bind_some, hAfter]
      · simp only [hAfter] at hRest
        obtain ⟨scanned, hScan, rfl⟩ := Option.map_eq_some_iff.mp hRest
        obtain ⟨hShorter, hOthers⟩ := items _ _ hScan
        refine ⟨show scanned.2.length < _ by omega, fun fuel' hEnough => ?_⟩
        dsimp only at hEnough
        rw [scanItems, hMore fuel' (by omega)]
        simp only [Option.bind_some, hAfter]
        rw [hOthers fuel' (by omega)]
        rfl

theorem scan_enough (fuel : Nat) :
    Enough scanValue fuel ∧ Enough scanMembers fuel ∧ Enough scanItems fuel := by
  induction fuel with
  | zero => exact ⟨nofun, nofun, nofun⟩
  | succ fuel ih =>
      obtain ⟨hValues, hMembers, hItems⟩ := ih
      exact ⟨enough_value hMembers hItems, enough_members hValues hMembers,
        enough_items hValues hItems⟩

/-- There is fuel for every text: what some fuel is enough for is loaded. -/
theorem loads_eq_some_iff {text : String} {v : Value} :
    loads text = some v ↔ ∃ fuel rest, scanValue fuel (skipSpace text.toList) = some (v, rest) ∧
      skipSpace rest = [] := by
  unfold loads
  constructor
  · intro hLoaded
    obtain ⟨⟨found, rest⟩, hScan, hEnd⟩ := Option.bind_eq_some_iff.mp hLoaded
    dsimp only at hEnd
    split at hEnd
    · cases hEnd
      exact ⟨_, rest, hScan, ‹_›⟩
    · cases hEnd
  · rintro ⟨fuel, rest, hScan, hEnd⟩
    have hSkip := skipSpace_le text.toList
    rw [((scan_enough fuel).1 _ _ hScan).2 _ (by omega)]
    simp only [Option.bind_some, hEnd, if_true]

end Fuel

end Text.Json
