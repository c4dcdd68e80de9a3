import Mathlib.Tactic.Common

/-! Base64, as Python's `base64` encodes and decodes it. Decoding is lenient: it skips
what is no digit, and stops at the padding that completes a group. -/
namespace Text.Base64

/-- The character of a digit below 64. -/
def digit (value : Nat) : Char :=
  if value < 26 then Char.ofNat ('A'.toNat + value)
  else if value < 52 then Char.ofNat ('a'.toNat + (value - 26))
  else if value < 62 then Char.ofNat ('0'.toNat + (value - 52))
  else if value = 62 then '+' else '/'

/-- The digit that a character stands for. -/
def value (c : Char) : Option Nat :=
  if 'A' ≤ c ∧ c ≤ 'Z' then some (c.toNat - 'A'.toNat)
  else if 'a' ≤ c ∧ c ≤ 'z' then some (c.toNat - 'a'.toNat + 26)
  else if '0' ≤ c ∧ c ≤ '9' then some (c.toNat - '0'.toNat + 52)
  else if c = '+' then some 62
  else if c = '/' then some 63
  else none

/-- Three bytes are four digits; what is missing of the last group is padded. -/
def encodeChars : List UInt8 → List Char
  | [] => []
  | [a] => [digit (a.toNat / 4), digit (a.toNat % 4 * 16), '=', '=']
  | [a, b] => [digit (a.toNat / 4), digit (a.toNat % 4 * 16 + b.toNat / 16),
      digit (b.toNat % 16 * 4), '=']
  | a :: b :: c :: bytes => digit (a.toNat / 4) :: digit (a.toNat % 4 * 16 + b.toNat / 16) ::
      digit (b.toNat % 16 * 4 + c.toNat / 64) :: digit (c.toNat % 64) :: encodeChars bytes

/-- `base64.b64encode`, as a text. -/
def b64encode (bytes : List UInt8) : String := String.ofList (encodeChars bytes)

/-- How far a group has been read, with the bits that no byte has yet. `padded` says
that a padding character was seen since. -/
inductive Group where
  | empty
  | one (bits : Nat)
  | two (bits : Nat) (padded : Bool)
  | three (bits : Nat)

/-- The end of the text, after this many groups of four digits. -/
def ended (groups : Nat) : Group → Except String (List UInt8)
  | .empty => .ok []
  | .one _ => .error (s!"Invalid base64-encoded string: number of data characters " ++
      s!"({4 * groups + 1}) cannot be 1 more than a multiple of 4")
  | .two _ _ | .three _ => .error "Incorrect padding"

/-- `binascii.a2b_base64`, from this group on. -/
def decodeFrom (groups : Nat) (group : Group) : List Char → Except String (List UInt8)
  | [] => ended groups group
  | c :: cs =>
      if c = '=' then
        match group with
        | .empty | .one _ => decodeFrom groups group cs
        | .two bits false => decodeFrom groups (.two bits true) cs
        | .two _ true | .three _ => .ok []
      else
        match value c, group with
        | none, _ => decodeFrom groups group cs
        | some v, .empty => decodeFrom groups (.one v) cs
        | some v, .one bits =>
            (decodeFrom groups (.two (v % 16) false) cs).map
              (UInt8.ofNat (bits * 4 + v / 16) :: ·)
        | some v, .two bits _ =>
            (decodeFrom groups (.three (v % 4)) cs).map (UInt8.ofNat (bits * 16 + v / 4) :: ·)
        | some v, .three bits =>
            (decodeFrom (groups + 1) .empty cs).map (UInt8.ofNat (bits * 64 + v) :: ·)

/-- `base64.b64decode` of a text. -/
def b64decode (text : String) : Except String (List UInt8) :=
  if text.toList.all (·.toNat < 128) then decodeFrom 0 .empty text.toList
  else .error "string argument should contain only ASCII characters"

section Digits
variable {v : Nat}

theorem value_digit (h : v < 64) : value (digit v) = some v := by
  have hAll : ∀ v : Fin 64, value (digit v) = some v.val := by decide
  exact hAll ⟨v, h⟩

theorem digit_ne_pad (h : v < 64) : digit v ≠ '=' := by
  have hAll : ∀ v : Fin 64, digit v ≠ '=' := by decide
  exact hAll ⟨v, h⟩

theorem digit_ascii (h : v < 64) : (digit v).toNat < 128 := by
  have hAll : ∀ v : Fin 64, (digit v).toNat < 128 := by decide
  exact hAll ⟨v, h⟩

end Digits

section Decode
variable {groups bits v : Nat} {padded : Bool} {cs : List Char}

theorem decodeFrom_first (h : v < 64) :
    decodeFrom groups .empty (digit v :: cs) = decodeFrom groups (.one v) cs := by
  simp only [decodeFrom, if_neg (digit_ne_pad h), value_digit h]

theorem decodeFrom_second (h : v < 64) : decodeFrom groups (.one bits) (digit v :: cs) =
    (decodeFrom groups (.two (v % 16) false) cs).map (UInt8.ofNat (bits * 4 + v / 16) :: ·) := by
  simp only [decodeFrom, if_neg (digit_ne_pad h), value_digit h]

theorem decodeFrom_third (h : v < 64) : decodeFrom groups (.two bits padded) (digit v :: cs) =
    (decodeFrom groups (.three (v % 4)) cs).map (UInt8.ofNat (bits * 16 + v / 4) :: ·) := by
  simp only [decodeFrom, if_neg (digit_ne_pad h), value_digit h]

theorem decodeFrom_fourth (h : v < 64) : decodeFrom groups (.three bits) (digit v :: cs) =
    (decodeFrom (groups + 1) .empty cs).map (UInt8.ofNat (bits * 64 + v) :: ·) := by
  simp only [decodeFrom, if_neg (digit_ne_pad h), value_digit h]

end Decode

/-- The bits of a byte, put together again. -/
theorem ofNat_eq {n : Nat} (byte : UInt8) (h : n = byte.toNat) : UInt8.ofNat n = byte := by
  rw [h, UInt8.ofNat_toNat]

theorem decodeFrom_encodeChars (groups : Nat) (bytes : List UInt8) :
    decodeFrom groups .empty (encodeChars bytes) = .ok bytes := by
  induction bytes using encodeChars.induct generalizing groups with
  | case1 => rfl
  | case2 a =>
      have hA := a.toNat_lt
      rw [encodeChars, decodeFrom_first (by omega), decodeFrom_second (by omega),
        ofNat_eq a (by omega)]
      rfl
  | case3 a b =>
      have hA := a.toNat_lt
      have hB := b.toNat_lt
      rw [encodeChars, decodeFrom_first (by omega), decodeFrom_second (by omega),
        decodeFrom_third (by omega), ofNat_eq a (by omega), ofNat_eq b (by omega)]
      rfl
  | case4 a b c bytes ih =>
      have hA := a.toNat_lt
      have hB := b.toNat_lt
      have hC := c.toNat_lt
      rw [encodeChars, decodeFrom_first (by omega), decodeFrom_second (by omega),
        decodeFrom_third (by omega), decodeFrom_fourth (by omega), ih, ofNat_eq a (by omega),
        ofNat_eq b (by omega), ofNat_eq c (by omega)]
      rfl

theorem encodeChars_ascii (bytes : List UInt8) : ∀ c ∈ encodeChars bytes, c.toNat < 128 := by
  induction bytes using encodeChars.induct with
  | case1 => simp [encodeChars]
  | case2 a =>
      have hA := a.toNat_lt
      simp only [encodeChars, List.forall_mem_cons]
      exact ⟨digit_ascii (by omega), digit_ascii (by omega), by decide, by decide, by simp⟩
  | case3 a b =>
      have hA := a.toNat_lt
      have hB := b.toNat_lt
      simp only [encodeChars, List.forall_mem_cons]
      exact ⟨digit_ascii (by omega), digit_ascii (by omega), digit_ascii (by omega), by decide,
        by simp⟩
  | case4 a b c bytes ih =>
      have hA := a.toNat_lt
      have hB := b.toNat_lt
      have hC := c.toNat_lt
      simp only [encodeChars, List.forall_mem_cons]
      exact ⟨digit_ascii (by omega), digit_ascii (by omega), digit_ascii (by omega),
        digit_ascii (by omega), ih⟩

/-- What was encoded is decoded to the same bytes. -/
theorem b64decode_b64encode (bytes : List UInt8) : b64decode (b64encode bytes) = .ok bytes := by
  have hAscii : (encodeChars bytes).all (·.toNat < 128) = true :=
    List.all_eq_true.mpr fun c hMem => decide_eq_true (encodeChars_ascii bytes c hMem)
  rw [b64decode, b64encode, String.toList_ofList, if_pos hAscii, decodeFrom_encodeChars]

example : b64encode [123, 125] = "e30=" := by decide

end Text.Base64
