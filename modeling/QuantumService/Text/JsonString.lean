import Mathlib.Tactic.Common

/-! The string literals of JSON, as Python's `json` writes and reads them. What it writes
is ASCII: another character becomes an escape, or a pair of them when it is beyond the
basic plane. One half of such a pair alone is no character, and is not read here. -/
namespace Text.Json

def quote : Char := '\"'

def backslash : Char := '\\'

/-- A hexadecimal digit, as `'{0:x}'` writes it. -/
def hexDigit (value : Nat) : Char :=
  if value < 10 then Char.ofNat ('0'.toNat + value) else Char.ofNat ('a'.toNat + (value - 10))

def hexValue (c : Char) : Option Nat :=
  if '0' ≤ c ∧ c ≤ '9' then some (c.toNat - '0'.toNat)
  else if 'a' ≤ c ∧ c ≤ 'f' then some (c.toNat - 'a'.toNat + 10)
  else if 'A' ≤ c ∧ c ≤ 'F' then some (c.toNat - 'A'.toNat + 10)
  else none

/-- `'\\u{0:04x}'`. -/
def unicodeEscape (unit : Nat) : List Char :=
  [backslash, 'u', hexDigit (unit / 4096), hexDigit (unit / 256 % 16), hexDigit (unit / 16 % 16),
    hexDigit (unit % 16)]

/-- The number that four hexadecimal digits stand for. -/
def decodeUnit (a b c d : Char) : Option Nat :=
  (hexValue a).bind fun a => (hexValue b).bind fun b => (hexValue c).bind fun c =>
    (hexValue d).map fun d => ((a * 16 + b) * 16 + c) * 16 + d

/-- The letter that follows the backslash, for characters that have one. -/
def letterOf (c : Char) : Option Char :=
  if c = quote ∨ c = backslash then some c
  else if c = '\n' then some 'n'
  else if c = '\r' then some 'r'
  else if c = '\t' then some 't'
  else if c.toNat = 12 then some 'f'
  else if c.toNat = 8 then some 'b'
  else none

def ofLetter (letter : Char) : Option Char :=
  if letter = quote ∨ letter = backslash ∨ letter = '/' then some letter
  else if letter = 'n' then some '\n'
  else if letter = 'r' then some '\r'
  else if letter = 't' then some '\t'
  else if letter = 'f' then some (Char.ofNat 12)
  else if letter = 'b' then some (Char.ofNat 8)
  else none

def escapeChar (c : Char) : List Char :=
  match letterOf c with
  | some letter => [backslash, letter]
  | none =>
      if 0x20 ≤ c.toNat ∧ c.toNat ≤ 0x7e then [c]
      else if c.toNat < 0x10000 then unicodeEscape c.toNat
      else unicodeEscape (0xd800 + (c.toNat - 0x10000) / 1024) ++
        unicodeEscape (0xdc00 + (c.toNat - 0x10000) % 1024)

def escape (text : List Char) : List Char := text.flatMap escapeChar

def isHigh (unit : Nat) : Bool := 0xd800 ≤ unit && unit ≤ 0xdbff

def isLow (unit : Nat) : Bool := 0xdc00 ≤ unit && unit ≤ 0xdfff

/-- The text of a literal and what follows it; `scanString` starts after the first quote.
Control characters are refused. -/
def scanString : List Char → Option (List Char × List Char)
  | [] => none
  | c :: cs =>
      if c = quote then some ([], cs)
      else if c ≠ backslash then
        if c.toNat < 0x20 then none
        else (scanString cs).map fun scanned => (c :: scanned.1, scanned.2)
      else
        match cs with
        | [] => none
        | letter :: cs =>
            if letter ≠ 'u' then
              match ofLetter letter with
              | none => none
              | some c => (scanString cs).map fun scanned => (c :: scanned.1, scanned.2)
            else
              match cs with
              | a :: b :: c :: d :: cs =>
                  match decodeUnit a b c d with
                  | none => none
                  | some unit =>
                      if isHigh unit then
                        match cs with
                        | slash :: letter :: a :: b :: c :: d :: cs =>
                            match decodeUnit a b c d with
                            | none => none
                            | some low =>
                                if slash = backslash ∧ letter = 'u' ∧ isLow low then
                                  (scanString cs).map fun scanned =>
                                    (Char.ofNat (0x10000 + (unit - 0xd800) * 1024 +
                                      (low - 0xdc00)) :: scanned.1, scanned.2)
                                else none
                        | _ => none
                      else if isLow unit then none
                      else (scanString cs).map fun scanned =>
                        (Char.ofNat unit :: scanned.1, scanned.2)
              | _ => none

theorem scanString_lt {cs : List Char} {r : List Char × List Char} (h : scanString cs = some r) :
    r.2.length < cs.length := by
  induction hLength : cs.length using Nat.strongRecOn generalizing cs r with
  | ind n ih =>
      subst hLength
      have hMore : ∀ {later : List Char} {c : Char}, later.length < cs.length →
          (scanString later).map (fun scanned => (c :: scanned.1, scanned.2)) = some r →
            r.2.length < cs.length := by
        intro later c hLater hScanned
        obtain ⟨scanned, hScan, rfl⟩ := Option.map_eq_some_iff.mp hScanned
        have hShorter : scanned.2.length < later.length := ih _ hLater hScan rfl
        exact Nat.lt_trans hShorter hLater
      rw [scanString.eq_def] at h
      repeat' split at h
      all_goals first
        | cases h; done
        | (cases h; exact Nat.lt_succ_self _)
        | exact hMore (by simp only [List.length_cons]; omega) h

section Digits
variable {v unit : Nat}

theorem hexValue_hexDigit (h : v < 16) : hexValue (hexDigit v) = some v := by
  have hAll : ∀ v : Fin 16, hexValue (hexDigit v) = some v.val := by decide
  exact hAll ⟨v, h⟩

theorem decodeUnit_digits (h : unit < 65536) :
    decodeUnit (hexDigit (unit / 4096)) (hexDigit (unit / 256 % 16)) (hexDigit (unit / 16 % 16))
      (hexDigit (unit % 16)) = some unit := by
  have hUnit : ((unit / 4096 * 16 + unit / 256 % 16) * 16 + unit / 16 % 16) * 16 + unit % 16 =
      unit := by omega
  rw [decodeUnit, hexValue_hexDigit (by omega), hexValue_hexDigit (by omega),
    hexValue_hexDigit (by omega), hexValue_hexDigit (by omega)]
  simp only [Option.bind_some, Option.map_some, hUnit]

end Digits

section Chars
variable {c letter : Char}

theorem letterOf_inv (h : letterOf c = some letter) :
    letter ≠ 'u' ∧ ofLetter letter = some c := by
  have hChar : ∀ n, c.toNat = n → Char.ofNat n = c := fun n hNat => hNat ▸ Char.ofNat_toNat c
  unfold letterOf at h
  split at h
  · rename_i hSelf
    cases h
    rcases hSelf with rfl | rfl <;> decide
  · repeat' split at h
    all_goals cases h
    · rename_i hLine
      exact hLine ▸ ⟨by decide, rfl⟩
    · rename_i hReturn
      exact hReturn ▸ ⟨by decide, rfl⟩
    · rename_i hTab
      exact hTab ▸ ⟨by decide, rfl⟩
    · rename_i hFeed
      exact hChar 12 hFeed ▸ ⟨by decide, rfl⟩
    · rename_i hBack
      exact hChar 8 hBack ▸ ⟨by decide, rfl⟩

theorem letterOf_none (h : letterOf c = none) : c ≠ quote ∧ c ≠ backslash := by
  unfold letterOf at h
  split at h
  · cases h
  · rename_i hOther
    exact not_or.mp hOther

theorem toNat_lt (c : Char) : c.toNat < 0x110000 := by
  rcases c.valid with hBelow | ⟨-, hAbove⟩
  · exact Nat.lt_trans hBelow (by decide)
  · exact hAbove

/-- No character is one half of a pair. -/
theorem not_half (c : Char) : isHigh c.toNat = false ∧ isLow c.toNat = false := by
  have hValid : c.toNat < 0xd800 ∨ 0xdfff < c.toNat ∧ c.toNat < 0x110000 := c.valid
  simp [isHigh, isLow]
  omega

end Chars

section Scan
variable {c letter : Char} {cs : List Char} {unit : Nat}

theorem scanString_quote : scanString (quote :: cs) = some ([], cs) := by
  rw [scanString.eq_def]
  simp only [if_true]

theorem scanString_plain (quoted : c ≠ quote) (slashed : c ≠ backslash) (h : 0x20 ≤ c.toNat) :
    scanString (c :: cs) = (scanString cs).map fun scanned => (c :: scanned.1, scanned.2) := by
  rw [scanString.eq_def]
  simp only [if_neg quoted, if_pos slashed, if_neg (Nat.not_lt.mpr h)]

theorem scanString_letter (letter_ne : letter ≠ 'u') (short : ofLetter letter = some c) :
    scanString (backslash :: letter :: cs) =
      (scanString cs).map fun scanned => (c :: scanned.1, scanned.2) := by
  have hSlash : backslash ≠ quote := by decide
  rw [scanString.eq_def]
  simp only [if_neg hSlash, ne_eq, not_true_eq_false, if_false, letter_ne, not_false_eq_true,
    if_true, short]

theorem scanString_unit (h : unit < 65536) (high : isHigh unit = false) (low : isLow unit = false) :
    scanString (unicodeEscape unit ++ cs) =
      (scanString cs).map fun scanned => (Char.ofNat unit :: scanned.1, scanned.2) := by
  have hSlash : backslash ≠ quote := by decide
  rw [scanString.eq_def]
  simp only [unicodeEscape, List.cons_append, List.nil_append, if_neg hSlash, ne_eq,
    not_true_eq_false, if_false, decodeUnit_digits h, high, low, Bool.false_eq_true]

theorem scanString_pair {low : Nat} (h : unit < 65536) (hLow : low < 65536)
    (high : isHigh unit = true) (isLow : isLow low = true) :
    scanString (unicodeEscape unit ++ (unicodeEscape low ++ cs)) =
      (scanString cs).map fun scanned =>
        (Char.ofNat (0x10000 + (unit - 0xd800) * 1024 + (low - 0xdc00)) :: scanned.1,
          scanned.2) := by
  have hSlash : backslash ≠ quote := by decide
  rw [scanString.eq_def]
  simp only [unicodeEscape, List.cons_append, List.nil_append, if_neg hSlash, ne_eq,
    not_true_eq_false, if_false, decodeUnit_digits h, decodeUnit_digits hLow, high, isLow,
    if_true, and_self]

/-- What a character is written as is read as that character. -/
theorem scanString_escapeChar :
    scanString (escapeChar c ++ cs) =
      (scanString cs).map fun scanned => (c :: scanned.1, scanned.2) := by
  unfold escapeChar
  split
  · rename_i letter hLetter
    obtain ⟨hOther, hShort⟩ := letterOf_inv hLetter
    exact scanString_letter hOther hShort
  · rename_i hNone
    obtain ⟨hQuote, hSlash⟩ := letterOf_none hNone
    split
    · rename_i hPrinted
      exact scanString_plain hQuote hSlash hPrinted.1
    · split
      · rename_i hPlane
        obtain ⟨hHigh, hLow⟩ := not_half c
        rw [scanString_unit hPlane hHigh hLow, Char.ofNat_toNat]
      · rename_i hBeyond
        have hValid := toNat_lt c
        rw [List.append_assoc, scanString_pair (by omega) (by omega)
          (by simp [isHigh]; omega) (by simp [isLow]; omega)]
        have hChar : 0x10000 + (0xd800 + (c.toNat - 0x10000) / 1024 - 0xd800) * 1024 +
            (0xdc00 + (c.toNat - 0x10000) % 1024 - 0xdc00) = c.toNat := by omega
        rw [hChar, Char.ofNat_toNat]

theorem scanString_escape (text : List Char) :
    scanString (escape text ++ quote :: cs) = some (text, cs) := by
  induction text with
  | nil => exact scanString_quote
  | cons c text ih =>
      have hCons : escape (c :: text) = escapeChar c ++ escape text := rfl
      rw [hCons, List.append_assoc, scanString_escapeChar, ih]
      rfl

end Scan
end Text.Json
