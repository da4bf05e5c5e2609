import Mathlib.Data.List.Basic
import Mathlib.Data.Nat.Bitwise

/-!
Varints, the numbers of the protobuf wire format: seven bits a byte, lowest first, with the high
bit set on every byte but the last.

`encodeVarint`, `sov` and `readVarint` are the loops that `protoc-gen-gogo` generates. The reader
gathers the bits in a number of `w` bits by shifting and or-ing; bits that are shifted out are
lost, and there is no limit on the number of bytes. `readVarint_encodeVarint` is the round trip,
`isVarint_of_readVarint` what a successful read has consumed.
-/

namespace Bbs.Protobuf

/-! ### Writing -/

/-- `encodeVarint` -/
def encodeVarint (v : Nat) : List UInt8 :=
  if v < 128 then [UInt8.ofNat v] else UInt8.ofNat (v % 128 + 128) :: encodeVarint (v / 128)

/-- The number of bytes of a varint, as the `Size` methods count them. -/
def sov (x : Nat) : Nat :=
  if x < 128 then 1 else sov (x / 128) + 1

theorem length_encodeVarint (v : Nat) : (encodeVarint v).length = sov v := by
  induction v using Nat.strong_induction_on with
  | _ v ih =>
      rw [encodeVarint, sov]
      split
      · rfl
      · rw [List.length_cons, ih (v / 128) (by omega)]

theorem sov_pos (x : Nat) : 0 < sov x := by
  rw [sov]
  split <;> omega

/-! ### Reading -/

/-- The bits of `b` are put at `shift` into the number gathered so far. -/
def varintLoop (w : Nat) (acc : BitVec w) (shift : Nat) :
    List UInt8 → Option (BitVec w × List UInt8)
  | [] => none
  | b :: rest =>
      let acc := acc ||| (BitVec.ofNat w b.toNat &&& 0x7F) <<< shift
      if b < 0x80 then some (acc, rest) else varintLoop w acc (shift + 7) rest

/-- A number of `w` bits and the bytes behind it. `none` if the bytes end inside it. -/
def readVarint (w : Nat) (data : List UInt8) : Option (BitVec w × List UInt8) :=
  varintLoop w 0 0 data

/-! ### Round trip -/

theorem and_seven_bits (w n : Nat) : BitVec.ofNat w n &&& 0x7F = BitVec.ofNat w (n % 128) := by
  have low := Nat.and_two_pow_sub_one_eq_mod n 7
  change BitVec.ofNat w n &&& BitVec.ofNat w 127 = _
  rw [← BitVec.ofNat_and]
  exact congrArg _ low

/-- A number is its lowest seven bits and the others, shifted. -/
theorem ofNat_split (w v : Nat) :
    BitVec.ofNat w (v % 128) ||| BitVec.ofNat w (v / 128) <<< 7 = BitVec.ofNat w v := by
  refine BitVec.eq_of_getLsbD_eq fun i inside => ?_
  have low := Nat.testBit_mod_two_pow v 7 i
  have high := Nat.testBit_div_two_pow (n := 7) v (i - 7)
  simp only [Nat.reducePow] at low high
  rw [BitVec.getLsbD_or, BitVec.getLsbD_shiftLeft, BitVec.getLsbD_ofNat, BitVec.getLsbD_ofNat,
    BitVec.getLsbD_ofNat, low, high]
  by_cases below : i < 7
  · simp [below]
  · have shifted : i - 7 + 7 = i := by omega
    have inside' : i - 7 < w := by omega
    simp [below, shifted, inside']

theorem toNat_ofNat_of_lt {n : Nat} (small : n < 256) : (UInt8.ofNat n).toNat = n := by
  rw [UInt8.toNat_ofNat', Nat.mod_eq_of_lt small]

/-- By induction on the number: what is still to come is or-ed in at the shift. -/
theorem varintLoop_encodeVarint (w v : Nat) (acc : BitVec w) (shift : Nat) (rest : List UInt8) :
    varintLoop w acc shift (encodeVarint v ++ rest) =
      some (acc ||| BitVec.ofNat w v <<< shift, rest) := by
  induction v using Nat.strong_induction_on generalizing acc shift with
  | _ v ih =>
      rw [encodeVarint]
      by_cases last : v < 128
      · have byte : UInt8.ofNat v < 0x80 := by
          rw [UInt8.lt_iff_toNat_lt, toNat_ofNat_of_lt (by omega)]
          exact last
        rw [if_pos last, List.singleton_append, varintLoop, if_pos byte,
          toNat_ofNat_of_lt (by omega), and_seven_bits, Nat.mod_eq_of_lt last]
      · have byte : ¬ UInt8.ofNat (v % 128 + 128) < 0x80 := by
          rw [UInt8.lt_iff_toNat_lt, toNat_ofNat_of_lt (by omega)]
          exact Nat.not_lt.mpr (Nat.le_add_left _ _)
        have bits : (v % 128 + 128) % 128 = v % 128 := by omega
        rw [if_neg last, List.cons_append, varintLoop, if_neg byte, ih (v / 128) (by omega),
          toNat_ofNat_of_lt (by omega), and_seven_bits, bits, BitVec.or_assoc,
          Nat.add_comm shift 7, BitVec.shiftLeft_add, ← BitVec.shiftLeft_or_distrib, ofNat_split]

/-- What was written is read, reduced to the width of the reader. -/
theorem readVarint_encodeVarint (w v : Nat) (rest : List UInt8) :
    readVarint w (encodeVarint v ++ rest) = some (BitVec.ofNat w v, rest) := by
  rw [readVarint, varintLoop_encodeVarint]
  simp

/-! ### What is consumed -/

/-- A sequence of bytes that is one varint: all but the last have the high bit set. -/
inductive IsVarint : List UInt8 → Prop where
  | last {b : UInt8} : b < 0x80 → IsVarint [b]
  | more {b : UInt8} {bytes : List UInt8} : ¬ b < 0x80 → IsVarint bytes → IsVarint (b :: bytes)

theorem IsVarint.length_pos {bytes : List UInt8} (h : IsVarint bytes) : 0 < bytes.length := by
  cases h <;> simp

theorem isVarint_of_varintLoop {w : Nat} {acc v : BitVec w} {shift : Nat} {data rest : List UInt8}
    (read : varintLoop w acc shift data = some (v, rest)) :
    ∃ bytes, data = bytes ++ rest ∧ IsVarint bytes := by
  induction data generalizing acc shift with
  | nil => cases read
  | cons b data ih =>
      rw [varintLoop] at read
      split at read
      · next low =>
          cases read
          exact ⟨[b], rfl, .last low⟩
      · next high =>
          obtain ⟨bytes, rfl, varint⟩ := ih read
          exact ⟨b :: bytes, rfl, .more high varint⟩

/-- A successful read has consumed a varint and left the bytes behind it. -/
theorem isVarint_of_readVarint {w : Nat} {v : BitVec w} {data rest : List UInt8}
    (read : readVarint w data = some (v, rest)) :
    ∃ bytes, data = bytes ++ rest ∧ IsVarint bytes :=
  isVarint_of_varintLoop read

end Bbs.Protobuf
