import Mathlib.Algebra.Group.Nat.Defs
import Mathlib.Data.List.Basic

/-!
Textual IP addresses, as in Go's package `net`.

`parseIP` and `parseCIDR` follow the scanners of the package: dotted decimal octets, or
hexadecimal groups separated by colons with at most one ellipsis and possibly a dotted
tail. Leading zeros are read as decimal digits. An address has 16 bytes (`parseIP_length`);
a dotted one is mapped into the IPv6 range.
-/

namespace Bbs.Net

/-- Numbers from here on are refused. -/
def big : Nat :=
  0xFFFFFF

/-- A number at the front of a text, and what comes after it. -/
def number (isDigit : Char → Bool) (base : Nat) (value : Char → Nat) (s : List Char) :
    Option (Nat × List Char) :=
  let digits := s.takeWhile isDigit
  let n := digits.foldl (fun n c => n * base + value c) 0
  if digits = [] ∨ big ≤ n then none else some (n, s.dropWhile isDigit)

def dtoi : List Char → Option (Nat × List Char) :=
  number Char.isDigit 10 fun c => c.toNat - '0'.toNat

def isHex (c : Char) : Bool :=
  c.isDigit ∨ 'a' ≤ c ∧ c ≤ 'f' ∨ 'A' ≤ c ∧ c ≤ 'F'

def hexValue (c : Char) : Nat :=
  if c.isDigit then c.toNat - '0'.toNat
  else if 'a' ≤ c then c.toNat - 'a'.toNat + 10
  else c.toNat - 'A'.toNat + 10

def xtoi : List Char → Option (Nat × List Char) :=
  number isHex 16 hexValue

/-! ### Dotted addresses -/

def octet (s : List Char) : Option (UInt8 × List Char) :=
  match dtoi s with
  | some (n, rest) => if n > 0xFF then none else some (UInt8.ofNat n, rest)
  | none => none

def dotOctet : List Char → Option (UInt8 × List Char)
  | '.' :: s => octet s
  | _ => none

/-- The four bytes of a dotted address. -/
def parseIPv4 (s : List Char) : Option (List UInt8) := do
  let (a, s) ← octet s
  let (b, s) ← dotOctet s
  let (c, s) ← dotOctet s
  let (d, s) ← dotOctet s
  if s = [] then some [a, b, c, d] else none

/-- `net.IPv4`: the address in 16 bytes. -/
def mapped (v4 : List UInt8) : List UInt8 :=
  List.replicate 10 0 ++ [0xFF, 0xFF] ++ v4

/-! ### Addresses with colons -/

/-- What the loop of `parseIPv6` leaves: the rest of the text, the bytes read, and where
the ellipsis was. -/
structure Groups where
  rest : List Char
  bytes : List UInt8
  ellipsis : Option Nat

/-- The loop, with room for `room` more groups. -/
def groups : Nat → List Char → List UInt8 → Option Nat → Option Groups
  | 0, s, bytes, ellipsis => some ⟨s, bytes, ellipsis⟩
  | room + 1, s, bytes, ellipsis =>
      match xtoi s with
      | none => none
      | some (n, rest) =>
          let bytes' := bytes ++ [UInt8.ofNat (n / 256), UInt8.ofNat n]
          if n > 0xFFFF then none
          else
            match rest with
            | '.' :: _ =>
                if ellipsis = none ∧ bytes.length ≠ 12 then none
                else if bytes.length + 4 > 16 then none
                else (parseIPv4 s).map fun v4 => ⟨[], bytes ++ v4, ellipsis⟩
            | [] => some ⟨[], bytes', ellipsis⟩
            | [':'] => none
            | [':', ':'] =>
                if ellipsis ≠ none then none else some ⟨[], bytes', some bytes'.length⟩
            | ':' :: ':' :: rest =>
                if ellipsis ≠ none then none else groups room rest bytes' (some bytes'.length)
            | ':' :: rest => groups room rest bytes' ellipsis
            | _ => none

/-- Fill in the zeros that an ellipsis stands for. -/
def Groups.expand (found : Groups) : Option (List UInt8) :=
  if found.rest ≠ [] then none
  else if found.bytes.length < 16 then
    found.ellipsis.map fun e =>
      found.bytes.take e ++ List.replicate (16 - found.bytes.length) 0 ++ found.bytes.drop e
  else if found.ellipsis ≠ none then none
  else some found.bytes

def parseIPv6 (s : List Char) : Option (List UInt8) :=
  match s with
  | [':', ':'] => some (List.replicate 16 0)
  | ':' :: ':' :: rest => (groups 8 rest [] (some 0)).bind Groups.expand
  | s => (groups 8 s [] none).bind Groups.expand

/-! ### `ParseIP` and `ParseCIDR` -/

def parseIP (s : List Char) : Option (List UInt8) :=
  match parseIPv4 s with
  | some v4 => some (mapped v4)
  | none => parseIPv6 s

/-- The address and the length of the mask. -/
def parseCIDR (s : List Char) : Option (List UInt8 × Nat) :=
  match s.dropWhile (· ≠ '/') with
  | [] => none
  | _ :: maskstr =>
      let ipstr := s.takeWhile (· ≠ '/')
      let (iplen, ip) := match parseIPv4 ipstr with
        | some v4 => (4, some (mapped v4))
        | none => (16, parseIPv6 ipstr)
      match ip, dtoi maskstr with
      | some ip, some (n, []) => if n > 8 * iplen then none else some (ip, n)
      | _, _ => none

example : parseIP "10.0.0.1".toList = some (mapped [10, 0, 0, 1]) := by decide

example : parseIP "1::ffff:1.2.3.4".toList =
    some [0, 1, 0, 0, 0, 0, 0, 0, 0, 0, 0xFF, 0xFF, 1, 2, 3, 4] := by decide

example : (parseCIDR "0.0.0.0/33".toList) = none := by decide

/-! ### Length -/

theorem parseIPv4_length {s : List Char} {v4 : List UInt8} (h : parseIPv4 s = some v4) :
    v4.length = 4 := by
  simp only [parseIPv4, Option.bind_eq_bind, Option.bind_eq_some_iff] at h
  obtain ⟨a, -, b, -, c, -, d, -, last⟩ := h
  split at last
  · cases last
    rfl
  · cases last

/-- There is never more than fits. -/
theorem groups_length {room : Nat} {s : List Char} {bytes : List UInt8} {ellipsis : Option Nat}
    {found : Groups} (h : groups room s bytes ellipsis = some found)
    (fits : bytes.length + 2 * room ≤ 16) : found.bytes.length ≤ 16 := by
  induction room generalizing s bytes ellipsis with
  | zero =>
      cases h
      omega
  | succ room ih =>
      have fits' (x y : UInt8) : (bytes ++ [x, y]).length + 2 * room ≤ 16 := by
        simp only [List.length_append, List.length_cons, List.length_nil]
        omega
      rw [groups] at h
      split at h
      · cases h
      · dsimp only at h
        split at h
        · cases h
        · split at h
          · split at h
            · cases h
            · split at h
              · cases h
              · obtain ⟨v4, parsed, rfl⟩ := Option.map_eq_some_iff.mp h
                have length := parseIPv4_length parsed
                simp only [List.length_append]
                omega
          · cases h
            exact Nat.le_trans (Nat.le_add_right _ _) (fits' _ _)
          · cases h
          · split at h
            · cases h
            · cases h
              exact Nat.le_trans (Nat.le_add_right _ _) (fits' _ _)
          · split at h
            · cases h
            · exact ih h (fits' _ _)
          · exact ih h (fits' _ _)
          · cases h

theorem Groups.expand_length {found : Groups} {ip : List UInt8} (h : found.expand = some ip)
    (fits : found.bytes.length ≤ 16) : ip.length = 16 := by
  unfold expand at h
  split at h
  · cases h
  · split at h
    · obtain ⟨e, -, rfl⟩ := Option.map_eq_some_iff.mp h
      simp only [List.length_append, List.length_take, List.length_drop, List.length_replicate]
      omega
    · split at h
      · cases h
      · cases h
        omega

theorem parseIPv6_length {s : List Char} {ip : List UInt8} (h : parseIPv6 s = some ip) :
    ip.length = 16 := by
  have expanded {s : List Char} {ellipsis : Option Nat}
      (h : (groups 8 s [] ellipsis).bind Groups.expand = some ip) : ip.length = 16 := by
    obtain ⟨found, read, expands⟩ := Option.bind_eq_some_iff.mp h
    exact found.expand_length expands (groups_length read (by simp))
  unfold parseIPv6 at h
  split at h
  · cases h
    rfl
  · exact expanded h
  · exact expanded h

theorem parseIP_length {s : List Char} {ip : List UInt8} (h : parseIP s = some ip) :
    ip.length = 16 := by
  unfold parseIP at h
  split at h
  · rename_i v4 parsed
    cases h
    simp [mapped, parseIPv4_length parsed]
  · exact parseIPv6_length h

/-! ### Addresses as numbers -/

/-- The number whose digits in base 256 are the bytes, the most significant first. -/
def bigEndian : List UInt8 → Nat
  | [] => 0
  | b :: bytes => b.toNat * 256 ^ bytes.length + bigEndian bytes

theorem bigEndian_lt (bytes : List UInt8) : bigEndian bytes < 256 ^ bytes.length := by
  induction bytes with
  | nil => exact Nat.one_pos
  | cons b bytes ih =>
      have digit : b.toNat < 256 := b.toNat_lt
      calc b.toNat * 256 ^ bytes.length + bigEndian bytes
          < b.toNat * 256 ^ bytes.length + 256 ^ bytes.length := Nat.add_lt_add_left ih _
        _ = (b.toNat + 1) * 256 ^ bytes.length := (Nat.succ_mul _ _).symm
        _ ≤ 256 * 256 ^ bytes.length := Nat.mul_le_mul_right _ digit
        _ = 256 ^ (bytes.length + 1) := Nat.pow_succ'.symm

/-- The first byte decides unless the two are equal. -/
theorem bigEndian_cons_lt {b c : UInt8} {first second : List UInt8}
    (same : first.length = second.length) (lower : b < c) :
    bigEndian (b :: first) < bigEndian (c :: second) := by
  have step : b.toNat + 1 ≤ c.toNat := UInt8.lt_iff_toNat_lt.mp lower
  calc b.toNat * 256 ^ first.length + bigEndian first
      < b.toNat * 256 ^ first.length + 256 ^ first.length :=
        Nat.add_lt_add_left (bigEndian_lt first) _
    _ = (b.toNat + 1) * 256 ^ second.length := by rw [Nat.succ_mul, same]
    _ ≤ c.toNat * 256 ^ second.length := Nat.mul_le_mul_right _ step
    _ ≤ c.toNat * 256 ^ second.length + bigEndian second := Nat.le_add_right _ _

/-- Addresses of one length compare byte by byte as they do as numbers. -/
theorem bigEndian_le_iff {first second : List UInt8} (same : first.length = second.length) :
    bigEndian first ≤ bigEndian second ↔ first ≤ second := by
  induction first generalizing second with
  | nil =>
      cases second with
      | nil => simp
      | cons => cases same
  | cons b first ih =>
      cases second with
      | nil => cases same
      | cons c second =>
          have same := Nat.succ.inj same
          rw [List.cons_le_cons_iff]
          by_cases lower : b < c
          · simp [lower, Nat.le_of_lt (bigEndian_cons_lt same lower)]
          · by_cases equal : b = c
            · simp [equal, bigEndian, same, ih same]
            · have higher : c < b := UInt8.lt_of_le_of_ne (UInt8.not_lt.mp lower) (Ne.symm equal)
              simp [lower, equal, bigEndian_cons_lt same.symm higher]

end Bbs.Net
