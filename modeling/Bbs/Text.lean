import Mathlib

/-!
The text functions of Go's standard library that the models use: `strings.TrimSpace`,
`strconv.Itoa` and `strconv.Atoi`.
-/

namespace Bbs.Text

/-- `unicode.IsSpace` -/
def isSpace (c : Char) : Bool :=
  c.val ∈ [0x09, 0x0A, 0x0B, 0x0C, 0x0D, 0x20, 0x85, 0xA0, 0x1680, 0x2028, 0x2029, 0x202F, 0x205F,
    0x3000] || (0x2000 ≤ c.val && c.val ≤ 0x200A)

def trimSpace (s : String) : String :=
  String.ofList ((s.toList.dropWhile isSpace).rdropWhile isSpace)

def itoa (n : Int) : String :=
  n.repr

theorem itoa_injective : Function.Injective itoa :=
  fun _ _ h => Int.repr_inj.mp h

/-- A decimal number is a sign and digits: in particular it holds no dot and no
slash, and it is not empty. -/
theorem itoa_chars (n : Int) : (itoa n).toList ≠ [] ∧
    ∀ c ∈ (itoa n).toList, c.isDigit = true ∨ c = '-' := by
  have digits (m : Nat) : ∀ c ∈ (Nat.repr m).toList, c.isDigit = true := by
    intro c hc
    rw [Nat.repr, String.toList_ofList] at hc
    exact Nat.isDigit_of_mem_toDigits (by decide) (by decide) hc
  have nonempty (m : Nat) : (Nat.repr m).toList ≠ [] := by
    rw [Nat.repr, String.toList_ofList]
    exact Nat.toDigits_ne_nil
  cases n with
  | ofNat m => exact ⟨nonempty m, fun c hc => .inl (digits m c hc)⟩
  | negSucc m =>
      have sign : (itoa (Int.negSucc m)).toList = '-' :: (Nat.repr (m + 1)).toList := by
        simp [itoa, Int.repr]
      rw [sign]
      refine ⟨by simp, fun c hc => ?_⟩
      rcases List.mem_cons.mp hc with rfl | hc
      · exact .inr rfl
      · exact .inl (digits (m + 1) c hc)

/-! ### Reading numbers -/

/-- A number without a sign. -/
def digits (s : List Char) : Option Nat :=
  if s = [] ∨ ¬s.all Char.isDigit then none else some (Nat.ofDigitChars 10 s 0)

/-- A decimal number, which may have a sign. -/
def decimal : List Char → Option Int
  | '-' :: s => (digits s).map fun n => -(n : Int)
  | '+' :: s => (digits s).map Int.ofNat
  | s => (digits s).map Int.ofNat

/-- `none` is a syntax or a range error. -/
def atoi (s : String) : Option Int64 :=
  (decimal s.toList).bind fun n =>
    if Int64.minValue.toInt ≤ n ∧ n ≤ Int64.maxValue.toInt then some (Int64.ofInt n) else none

theorem digits_toDigits (n : Nat) : digits (Nat.toDigits 10 n) = some n := by
  have all : (Nat.toDigits 10 n).all Char.isDigit = true :=
    List.all_eq_true.mpr fun c mem => Nat.isDigit_of_mem_toDigits (by decide) (by decide) mem
  rw [digits, if_neg (by simp [all, Nat.toDigits_ne_nil]),
    Nat.ofDigitChars_toDigits (by decide) (by decide)]

theorem decimal_itoa (n : Int) : decimal (itoa n).toList = some n := by
  cases n with
  | negSucc n =>
      have sign : (itoa (Int.negSucc n)).toList = '-' :: Nat.toDigits 10 (n + 1) := by
        simp [itoa, Int.repr, Nat.repr]
      rw [sign, decimal, digits_toDigits]
      rfl
  | ofNat n =>
      have text : (itoa (Int.ofNat n)).toList = Nat.toDigits 10 n := by
        simp [itoa, Int.repr, Nat.repr]
      have unsigned (c : Char) (notDigit : c.isDigit = false) (rest : List Char) :
          Nat.toDigits 10 n ≠ c :: rest := by
        intro same
        have digit : c.isDigit = true :=
          Nat.isDigit_of_mem_toDigits (b := 10) (n := n) (by decide) (by decide) (by simp [same])
        rw [notDigit] at digit
        cases digit
      rw [text]
      unfold decimal
      split
      · rename_i same
        exact absurd same (unsigned _ (by decide) _)
      · rename_i same
        exact absurd same (unsigned _ (by decide) _)
      · rw [digits_toDigits]
        rfl

/-- What `Itoa` writes, `Atoi` reads. -/
theorem atoi_itoa {n : Int} (lower : Int64.minValue.toInt ≤ n) (upper : n ≤ Int64.maxValue.toInt) :
    atoi (itoa n) = some (Int64.ofInt n) := by
  rw [atoi, decimal_itoa, Option.bind_some, if_pos ⟨lower, upper⟩]

end Bbs.Text
